import TapeMachine.Proofs.Rows

/-!
# TapeMachine.Proofs.Clipping

An output that is full only cuts the table off.

* `Output.clip`, `Machine.clip` — an output that has taken no more than its first bytes, and the
  machine with that output.
* `sendBy_writeLine_clip` — a line that does not fit is taken in part, and refused.
* `advance_clip_next`, `advance_clip_stop` — a clipped machine makes a step if the row of the step
  fits. Otherwise the step fails, although the instruction has been carried out.
* `Machine.Crosses`       — the step whose row is the first that does not fit; of a table that does
  not fit there is one, `exists_crosses`.
* `Machine.runsTo_clip`   — so a clipped table is a beginning of the whole one.
-/

namespace TapeMachine

namespace Output

/-- The output that takes `limit` bytes at most, after all the bytes that are offered to `o`. -/
def clip (limit : Nat) (refusal : String) (o : Output) : Output :=
  { o with limit := some limit, refusal := refusal, taken := (o.taken.toList.take limit).toArray }

variable {limit : Nat} {refusal : String} {o : Output}

@[simp] theorem toList_taken_clip :
    (o.clip limit refusal).taken.toList = o.taken.toList.take limit := rfl

theorem clip_of_le (h : o.taken.size ≤ limit) :
    o.clip limit refusal = { o with limit := some limit, refusal := refusal } := by
  have htaken : (o.taken.toList.take limit).toArray = o.taken := by
    rw [List.take_of_length_le (by simpa using h)]
  rw [clip, htaken]

theorem toList_taken_append (bytes : List UInt8) (o : Output) :
    (o.append bytes).taken.toList = o.taken.toList ++ bytes := by
  simp [append]

theorem size_append (bytes : List UInt8) (o : Output) :
    (o.append bytes).taken.size = o.taken.size + bytes.length := by
  rw [← Array.length_toList, toList_taken_append, List.length_append, Array.length_toList]

theorem clip_append (h : limit ≤ o.taken.size) (refusal : String) (bytes : List UInt8) :
    (o.append bytes).clip limit refusal = o.clip limit refusal := by
  have htaken : (o.append bytes).taken.toList.take limit = o.taken.toList.take limit := by
    rw [toList_taken_append, List.take_append_of_le_length (by simpa using h)]
  rw [clip, htaken]
  rfl

theorem append_clip (bytes : List UInt8) :
    (o.clip limit refusal).append (bytes.take (limit - o.taken.size)) =
      (o.append bytes).clip limit refusal := by
  have htaken : (o.clip limit refusal).taken.appendList (bytes.take (limit - o.taken.size)) =
      ((o.append bytes).taken.toList.take limit).toArray := by
    apply Array.ext'
    rw [toList_taken_append, List.take_append]
    simp
  rw [append, htaken]
  rfl

theorem write_clip (ho : o.Flawless) (hfits : o.taken.size ≤ limit) (bytes : List UInt8) :
    (o.clip limit refusal).write bytes =
      ((o.append bytes).clip limit refusal,
        if (o.append bytes).taken.size ≤ limit then none else some refusal) := by
  have hsize : (o.clip limit refusal).taken.size = o.taken.size := by
    rw [clip_of_le hfits]
  have hbrink : (o.clip limit refusal).brink = some ⟨limit, refusal⟩ := by
    simp [brink, clip, ho.lapses]
  have hlapse : ((o.append bytes).clip limit refusal).lapse =
      (o.append bytes).clip limit refusal := by
    simp [lapse, clip, append, ho.lapses]
  have hroom : (o.append bytes).taken.size ≤ limit ↔ ¬limit - o.taken.size < bytes.length := by
    rw [size_append]
    omega
  simp only [write, hbrink, hsize, hroom, ite_not, append_clip, hlapse]
  split
  case isTrue => rfl
  case isFalse hle => rw [← append_clip bytes, List.take_of_length_le (Nat.le_of_not_lt hle)]

end Output

theorem Table.bytes_length_pos (line : String) (rest : List String) :
    0 < (Table.bytes (line :: rest)).length := by
  simp only [Table.bytes, List.flatMap_cons, List.length_append, List.length_singleton]
  omega

namespace Machine

/-- The machine whose output takes `limit` bytes at most. -/
def clip (limit : Nat) (refusal : String) (m : Machine) : Machine :=
  { m with output := m.output.clip limit refusal }

/-- What has been written when `n` steps have been made, or all the steps that there are. -/
def table (job : Job) (n : Nat) (m : Machine) : List UInt8 :=
  m.output.taken.toList ++ Table.bytes (Table.header ++ (m.noted Table.header).rows job n)

/-- The row of the step behind `k` others is the first to take the output beyond the limit. -/
structure Crosses (job : Job) (limit : Nat) (m : Machine) (k : Nat) (last next : Machine) :
    Prop where
  reach : m.after job k = some last
  step : last.advance job = .next next
  fits : last.output.taken.size ≤ limit
  exceeds : limit < next.output.taken.size

variable {job : Job} {traced : Bool} {m m' : Machine} {ending : Ending} {k n limit : Nat}
  {refusal : String}

/-! ## Lines -/

theorem sendBy_writeLine_clip (ho : m.output.Flawless) (hfits : m.output.taken.size ≤ limit)
    (line : String) :
    (m.clip limit refusal).sendBy (Output.writeLine line) =
      ((m.noted [line]).clip limit refusal,
        if (m.noted [line]).output.taken.size ≤ limit then none else some (.io refusal)) := by
  obtain ⟨tape, pc, steps, input, output, control⟩ := m
  have hbytes : line.toUTF8.toList ++ [10] = Table.bytes [line] := by simp [Table.bytes]
  have hcancels : ∀ o : Output, o.Flawless → (o.clip limit refusal).cancels = false := by
    intro o ho
    simp only [Output.cancels, Output.clip, ho.cancelAt]
  simp only [sendBy, clip, noted, Output.writeLine, hbytes, Output.write_clip ho hfits,
    hcancels _ (ho.append _), cancelIf_false, apply_ite (Option.map Trouble.io)]
  rfl

theorem sendLines_clip (ho : m.output.Flawless) (hfits : m.output.taken.size ≤ limit)
    (lines : List String) :
    (m.clip limit refusal).sendLines lines =
      ((m.noted lines).clip limit refusal,
        if (m.noted lines).output.taken.size ≤ limit then none else some (.io refusal)) := by
  -- By induction on the lines. Behind one that is refused, the others make no difference.
  induction lines generalizing m with
  | nil =>
    have hnone : m.noted [] = m := by
      rw [noted, show Table.bytes [] = [] from rfl, Output.append_nil]
    rw [hnone, if_pos hfits, sendLines]
  | cons line rest ih =>
    have hrest : m.noted (line :: rest) = (m.noted [line]).noted rest := by
      rw [noted_noted]
      rfl
    simp only [sendLines, sendBy_writeLine_clip ho hfits]
    by_cases hline : (m.noted [line]).output.taken.size ≤ limit
    · rw [if_pos hline, hrest]
      exact ih (ho.append _) hline
    · have hfull : (m.noted (line :: rest)).clip limit refusal =
          (m.noted [line]).clip limit refusal := by
        have hsame := Output.clip_append (Nat.le_of_not_le hline) refusal
          (Table.bytes rest)
        rw [hrest]
        exact congrArg (fun o => { m with output := o }) hsame
      have hmore : ¬(m.noted (line :: rest)).output.taken.size ≤ limit := by
        have hsize := Output.size_append (Table.bytes rest) (m.noted [line]).output
        rw [hrest]
        simp only [noted] at hsize hline ⊢
        omega
      rw [if_neg hline, if_neg hmore, hfull]

/-! ## Steps -/

theorem rehearse_clip (i : Instruction) (m : Machine) :
    (m.clip limit refusal).rehearse i =
      ((m.rehearse i).1.clip limit refusal, (m.rehearse i).2) := by
  cases i with
  | read => rfl
  | write => rfl
  | _ =>
    simp only [rehearse, adjust_eq_moved, clip]
    cases Instruction.onTape _ m.tape <;> rfl

theorem rows_add (h : m.after job n = some m') (k : Nat) :
    m.rows job (n + k) = m.rows job n ++ m'.rows job k := by
  induction n generalizing m with
  | zero =>
    cases h
    rw [Nat.zero_add]
    rfl
  | succ n ih =>
    obtain ⟨m₁, hs, hrest⟩ := exists_of_after_succ h
    rw [Nat.succ_add, rows, rows, hs]
    simp only [ih hrest, List.append_assoc]

section

variable (hmode : job.mode = .table) (ho : m.output.Flawless)

include hmode ho

theorem written_of_next (hs : m.advance job = .next m') :
    m'.output.Flawless ∧ m.output.taken.size < m'.output.taken.size := by
  obtain ⟨line, _, _, _, houtput⟩ := advance_table_next hmode ho hs
  have hline := Table.bytes_length_pos line []
  rw [houtput]
  refine ⟨ho.append _, ?_⟩
  rw [Output.size_append]
  omega

/-- A step whose row does not fit is made, but for the counter and the count. -/
theorem advance_clip_next (hfits : m.output.taken.size ≤ limit) (refusal : String)
    (hs : m.advance job = .next m') :
    (m.clip limit refusal).advance job =
      if m'.output.taken.size ≤ limit then .next (m'.clip limit refusal)
      else .stop (.failed (.io (job.site m.pc) refusal))
        { m'.clip limit refusal with pc := m.pc, steps := m.steps } := by
  obtain ⟨i, hi, hstep⟩ := advance_next hs
  obtain ⟨flow, m₁, hf, hr, rfl⟩ := step_table_next hmode ho hstep
  have hstill := still_rehearse i m
  have houtput := rehearse_output i m
  rw [hr] at hstill houtput
  have ho₁ : m₁.output.Flawless := by rwa [houtput]
  have hfits₁ : m₁.output.taken.size ≤ limit := by rwa [houtput]
  have hi' : (m.clip limit refusal).pending job = .ok i := hi
  have hf' : job.flow? (m.clip limit refusal).pc (m.clip limit refusal).tape.cell i = some flow :=
    hf
  have hr' : (m.clip limit refusal).rehearse i = (m₁.clip limit refusal, none) := by
    rw [rehearse_clip, hr]
  have hrow : Table.row (m.clip limit refusal).steps ((m.clip limit refusal).view i)
      (Table.action ((m.clip limit refusal).view i) flow (m₁.clip limit refusal).tape) =
        m.row i flow := by
    rw [row, hr]
    rfl
  rw [advance_of_pending hi']
  simp only [step, hf', hmode, hr', hrow, sendBy_writeLine_clip ho₁ hfits₁]
  split
  · rfl
  · rw [← hstill.pc, ← hstill.steps]
    rfl

theorem advance_clip_stop (hs : m.advance job = .stop ending m') :
    (m.clip limit refusal).advance job = .stop ending (m'.clip limit refusal) := by
  rcases advance_stop hs with ⟨hp, rfl⟩ | ⟨i, hi, hstep⟩
  · exact advance_of_pending_error hp
  · have hi' : (m.clip limit refusal).pending job = .ok i := hi
    rw [advance_of_pending hi']
    rcases step_table_stop hmode ho hstep with ⟨rfl, hf, rfl⟩ | ⟨flow, trouble, hf, hr, rfl⟩
    · have hf' : job.flow? (m'.clip limit refusal).pc (m'.clip limit refusal).tape.cell i = none :=
        hf
      rw [step, hf']
    · have hf' : job.flow? (m.clip limit refusal).pc (m.clip limit refusal).tape.cell i =
          some flow := hf
      have hpc := (step_stop hstep).1.pc
      simp only [step, hf', hmode, rehearse_clip, hr, conclude]
      rw [← hpc]
      rfl

/-! ## Many steps -/

theorem written_of_after (h : m.after job n = some m') :
    m'.output.Flawless ∧ m.output.taken.size + n ≤ m'.output.taken.size := by
  induction n generalizing m with
  | zero =>
    cases h
    exact ⟨ho, Nat.le_refl _⟩
  | succ n ih =>
    obtain ⟨m₁, hs, hrest⟩ := exists_of_after_succ h
    obtain ⟨ho₁, hone⟩ := written_of_next hmode ho hs
    obtain ⟨ho', hmore⟩ := ih ho₁ hrest
    exact ⟨ho', by omega⟩

theorem written_of_endsAfter (he : EndsAfter job n m ending m') :
    m'.output.Flawless ∧ m.output.taken.size + n ≤ m'.output.taken.size := by
  obtain ⟨last, hlast, hstop⟩ := he
  obtain ⟨hflawless, hsize⟩ := written_of_after hmode ho hlast
  rw [(advance_table_stop hmode hflawless hstop).2]
  exact ⟨hflawless, hsize⟩

/-- As far as the rows fit, the clipped machine makes the same steps. -/
theorem after_clip (h : m.after job n = some m') (hfits : m'.output.taken.size ≤ limit) :
    (m.clip limit refusal).after job n = some (m'.clip limit refusal) := by
  induction n generalizing m with
  | zero =>
    cases h
    rfl
  | succ n ih =>
    obtain ⟨m₁, hs, hrest⟩ := exists_of_after_succ h
    obtain ⟨ho₁, hone⟩ := written_of_next hmode ho hs
    have hmore := (written_of_after hmode ho₁ hrest).2
    have hfits₀ : m.output.taken.size ≤ limit := by omega
    have hadvance := advance_clip_next hmode ho hfits₀ refusal hs
    rw [if_pos (by omega)] at hadvance
    exact (after_succ hadvance).trans (ih ho₁ hrest)

theorem exists_crosses (hfits : m.output.taken.size ≤ limit) (h : m.after job n = some m')
    (hexceeds : limit < m'.output.taken.size) : ∃ k last next, Crosses job limit m k last next := by
  -- The first steps fit and some later ones do not, so there is one in between with the row that
  -- crosses the limit. By induction on the steps.
  induction n generalizing m with
  | zero =>
    cases h
    omega
  | succ n ih =>
    obtain ⟨m₁, hs, hrest⟩ := exists_of_after_succ h
    by_cases hone : m₁.output.taken.size ≤ limit
    · obtain ⟨k, last, next, hcross⟩ := ih (written_of_next hmode ho hs).1 hone hrest
      exact ⟨k + 1, last, next, { hcross with reach := (after_succ hs).trans hcross.reach }⟩
    · exact ⟨0, m, m₁, rfl, hs, hfits, by omega⟩

/-! ## The table -/

theorem table_eq (h : (m.noted Table.header).after job k = some m') (n : Nat) :
    m.table job (k + n) = m'.output.taken.toList ++ Table.bytes (m'.rows job n) := by
  have houtput := (output_of_after (m := m.noted Table.header) hmode (ho.append _) h).2.2.2
  rw [table, rows_add h, houtput, Output.toList_taken_append, noted, Output.toList_taken_append]
  simp only [Table.bytes_append, List.append_assoc]

/-- From where it is full on, an output holds the first bytes of all that is written. -/
theorem taken_clip_eq (h : (m.noted Table.header).after job k = some m')
    (hexceeds : limit < m'.output.taken.size) (hn : k ≤ n) :
    limit < (m.table job n).length ∧
      (m'.clip limit refusal).output.taken.toList = (m.table job n).take limit := by
  obtain ⟨l, rfl⟩ := Nat.exists_eq_add_of_le hn
  have hlength : limit < m'.output.taken.toList.length := by simpa using hexceeds
  rw [table_eq hmode ho h]
  refine ⟨?_, ?_⟩
  · rw [List.length_append]
    omega
  · rw [List.take_append_of_le_length (Nat.le_of_lt hlength)]
    rfl

/-- A table that does not fit takes an output beyond its limit, be it that the table has no end. -/
theorem exists_exceeds
    (hlong : ∀ ending final, m.RunsTo job traced ending final → limit < final.output.taken.size) :
    ∃ n m', (m.noted Table.header).after job n = some m' ∧ limit < m'.output.taken.size := by
  have ho' : (m.noted Table.header).output.Flawless := ho.append _
  cases hafter : (m.noted Table.header).after job (limit + 1) with
  | some m' =>
    have hsize := (written_of_after hmode ho' hafter).2
    exact ⟨limit + 1, m', hafter, by omega⟩
  | none =>
    obtain ⟨n, _, ending, final, he⟩ := exists_endsAfter hafter
    have hexceeds := hlong ending final ((runsTo_iff_of_begin (begin_table hmode ho)).2 ⟨n, he⟩)
    obtain ⟨last, hlast, hstop⟩ := he
    have hflawless := (written_of_after hmode ho' hlast).1
    rw [(advance_table_stop hmode hflawless hstop).2] at hexceeds
    exact ⟨n, last, hlast, hexceeds⟩

theorem begin_clip (hfits : m.output.taken.size ≤ limit) (refusal : String) :
    (m.clip limit refusal).begin job =
      ((m.noted Table.header).clip limit refusal,
        if (m.noted Table.header).output.taken.size ≤ limit then none else some (.io refusal)) := by
  simp only [begin, hmode, sendLines_clip ho hfits]

/-- An output that takes a limited number of bytes only cuts the table off. If the whole table fits,
the evaluation ends in the same way and leaves the same machine. In every other case it ends with an
I/O error at the counter, and the output has taken the first bytes of the table. If it is the lines
at the head that do not fit, no step has been made; and if it is the row of a step, then the tape is
as this step leaves it, but neither has the counter moved nor has the step been counted. -/
theorem runsTo_clip (hfits : m.output.taken.size ≤ limit) (traced : Bool) (refusal : String) :
    (∀ ending final, m.RunsTo job traced ending final → final.output.taken.size ≤ limit →
      (m.clip limit refusal).RunsTo job traced ending (final.clip limit refusal) ∧
        (final.clip limit refusal).output.taken = final.output.taken) ∧
    ((∀ ending final, m.RunsTo job traced ending final → limit < final.output.taken.size) →
      ∃ last reached,
        (m.clip limit refusal).RunsTo job traced (.failed (.io (job.site last.pc) refusal))
          { reached.clip limit refusal with pc := last.pc, steps := last.steps } ∧
        (∃ least, ∀ n ≥ least, limit < (m.table job n).length ∧
          (reached.clip limit refusal).output.taken.toList = (m.table job n).take limit) ∧
        (last = m ∧ reached = m.noted Table.header ∧ limit < reached.output.taken.size ∨
          ∃ k, Crosses job limit (m.noted Table.header) k last reached ∧
            last.steps = m.steps + k)) := by
  have ho' : (m.noted Table.header).output.Flawless := ho.append _
  have hbegin := begin_clip hmode ho hfits refusal
  constructor
  · intro ending final hrun hle
    obtain ⟨n, last, hlast, hstop⟩ := (runsTo_iff_of_begin (begin_table hmode ho)).1 hrun
    obtain ⟨hflawless, hsize⟩ := written_of_after hmode ho' hlast
    have houtput := (advance_table_stop hmode hflawless hstop).2
    rw [houtput] at hle ⊢
    rw [if_pos (by omega)] at hbegin
    refine ⟨(runsTo_iff_of_begin hbegin).2 ⟨n, last.clip limit refusal, ?_, ?_⟩, ?_⟩
    · exact after_clip hmode ho' hlast hle
    · exact advance_clip_stop hmode hflawless hstop
    · rw [clip, houtput, Output.clip_of_le hle]
  · intro hlong
    by_cases hheader : (m.noted Table.header).output.taken.size ≤ limit
    · rw [if_pos hheader] at hbegin
      obtain ⟨n, m', hafter, hexceeds⟩ := exists_exceeds hmode ho hlong
      obtain ⟨k, last, next, hcross⟩ := exists_crosses hmode ho' hheader hafter hexceeds
      have ⟨hreach, hstep, hfit, hover⟩ := hcross
      have hflawless := (written_of_after hmode ho' hreach).1
      have hsteps := steps_of_after hreach
      refine ⟨last, next, (runsTo_iff_of_begin hbegin).2 ⟨k, last.clip limit refusal, ?_, ?_⟩,
        ⟨k + 1, fun n hn => ?_⟩, .inr ⟨k, hcross, hsteps⟩⟩
      · exact after_clip hmode ho' hreach hfit
      · rw [advance_clip_next hmode hflawless hfit refusal hstep, if_neg (by omega)]
      · exact taken_clip_eq hmode ho ((after_add hreach 1).trans (after_one hstep)) hover hn
    · rw [if_neg hheader] at hbegin
      refine ⟨m, m.noted Table.header, ⟨0, #[], ?_⟩, ⟨0, fun n hn => ?_⟩,
        .inl ⟨rfl, rfl, by omega⟩⟩
      · rw [run, hbegin]
        rfl
      · exact taken_clip_eq hmode ho rfl (by omega) hn

end

/-- Of the table of `+[]`, which has no end, 150 bytes are the head and a part of the first row. -/
theorem runsTo_clip_endless :
    let p : Program := ⟨#[⟨.increment, 0⟩, ⟨.loopOpen, 1⟩, ⟨.loopClose, 2⟩]⟩
    let job : Job := ⟨p, ⟨#[none, some 2, some 1], 1⟩, .table⟩
    let m : Machine := ⟨Tape.new 1 .wrap, 0, 0, [], {}, none⟩
    job.mode = .table ∧ m.output.Flawless ∧ m.output.taken.size ≤ 150 ∧
      (∀ ending final, m.RunsTo job false ending final → 150 < final.output.taken.size) ∧
      ∃ k last reached, Crosses job 150 (m.noted Table.header) k last reached ∧
        (m.clip 150 "full").RunsTo job false (.failed (.io (job.site last.pc) "full"))
          { reached.clip 150 "full" with pc := last.pc, steps := last.steps } := by
  intro p job m
  have ho : m.output.Flawless := ⟨rfl, rfl, rfl, rfl⟩
  have hheader : (m.noted Table.header).output.taken.size = 123 := by decide +kernel
  have hone : ((m.noted Table.header).after job 1).map (·.output.taken.size) = some 187 := by
    decide +kernel
  obtain ⟨m₁, hm₁, hsize⟩ := Option.map_eq_some_iff.1 hone
  have hlong : ∀ ending final, m.RunsTo job false ending final →
      150 < final.output.taken.size := by
    intro ending final hrun
    obtain ⟨n, he⟩ := (runsTo_iff_of_begin (begin_table rfl ho)).1 hrun
    obtain ⟨l, _, hl⟩ := he.drop hm₁
    have hmore := written_of_endsAfter rfl (written_of_after rfl (ho.append _) hm₁).1 hl
    omega
  obtain ⟨last, reached, hrun, _, ⟨_, rfl, hover⟩ | ⟨k, hcross, _⟩⟩ :=
    (runsTo_clip rfl ho (Nat.zero_le 150) false "full").2 hlong
  · omega
  · exact ⟨rfl, ho, Nat.zero_le _, hlong, k, last, reached, hcross, hrun⟩

end Machine

end TapeMachine
