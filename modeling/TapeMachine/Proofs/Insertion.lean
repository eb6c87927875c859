import TapeMachine.Proofs.Acceptance
import TapeMachine.Proofs.Concatenation

/-!
# TapeMachine.Proofs.Insertion

A loop that is put into a program.

* `across`          — where an instruction stands when others are put in.
* `Balanced.insert` — balanced instructions can be put in anywhere.
* `Partners.insert` — brackets that belong together still do.
* `Job.Detour`      — one piece of work is another with a loop put in, right behind a `]` or at the
  beginning.
* `Interpreter.detour_of_read` — so it is with texts of which one has a loop more.
-/

namespace TapeMachine

/-- Where the instruction at `ip` stands when `size` others are put in at `index`. -/
def across (index size ip : Nat) : Nat := if ip < index then ip else size + ip

variable {index size ip i j : Nat}

theorem across_of_lt (h : ip < index) : across index size ip = ip := if_pos h

theorem across_of_le (h : index ≤ ip) : across index size ip = size + ip :=
  if_neg (Nat.not_lt_of_le h)

theorem across_lt_across (h : i < j) : across index size i < across index size j := by
  simp only [across]
  split <;> split <;> omega

/-! ## Sequences -/

theorem getElem?_insert {α : Type} (xs ys zs : List α) (ip : Nat) :
    (xs ++ (ys ++ zs))[across xs.length ys.length ip]? = (xs ++ zs)[ip]? := by
  by_cases h : ip < xs.length
  · rw [across_of_lt h, List.getElem?_append_left h, List.getElem?_append_left h]
  · obtain ⟨n, rfl⟩ := Nat.exists_eq_add_of_le (Nat.le_of_not_lt h)
    rw [across_of_le (Nat.le_add_right _ _), List.getElem?_append_right (by omega),
      List.getElem?_append_right (by omega), List.getElem?_append_right (by omega)]
    congr 1
    omega

theorem segment_append {xs : List Instruction} (h : i ≤ xs.length) (zs : List Instruction)
    (n : Nat) : segment (xs ++ zs) i (xs.length + n) = xs.drop i ++ zs.take n := by
  rw [segment, List.take_length_add_append, List.drop_append_of_le_length h]

variable {xs ys zs : List Instruction}

theorem Balanced.insert (h : Balanced (xs ++ zs)) (hys : Balanced ys) :
    Balanced (xs ++ (ys ++ zs)) where
  settled := by
    have hsettled := h.settled
    rw [excess_append] at hsettled
    rw [excess_append, excess_append, hys.settled]
    omega
  nonneg n := by
    by_cases hn : n ≤ xs.length + ys.length
    · have hfront := h.nonneg (min n xs.length)
      rw [List.take_append_of_le_length (Nat.min_le_right _ _), ← List.take_eq_take_min] at hfront
      have hinside := hys.nonneg (n - xs.length)
      rw [List.take_append, List.take_append_of_le_length (by omega), excess_append]
      omega
    · obtain ⟨k, rfl⟩ := Nat.exists_eq_add_of_le (Nat.le_of_not_le hn)
      have hbehind := h.nonneg (xs.length + k)
      have hsettled := hys.settled
      rw [List.take_length_add_append, excess_append] at hbehind
      rw [Nat.add_assoc, List.take_length_add_append, List.take_length_add_append, excess_append,
        excess_append]
      omega

theorem Paired.insert (h : Paired (xs ++ zs) i j) (hys : Balanced ys) :
    Paired (xs ++ (ys ++ zs)) (across xs.length ys.length i) (across xs.length ys.length j) := by
  refine ⟨?_, ?_, across_lt_across h.before, ?_⟩
  · rw [getElem?_insert, h.opens]
  · rw [getElem?_insert, h.closes]
  · have hinside := h.inside
    have hbefore := h.before
    by_cases hj : j < xs.length
    · rw [segment_append_right (Nat.le_of_lt hj)] at hinside
      rw [across_of_lt hj, across_of_lt (Nat.lt_trans hbefore hj),
        segment_append_right (Nat.le_of_lt hj)]
      exact hinside
    · obtain ⟨n, rfl⟩ := Nat.exists_eq_add_of_le (Nat.le_of_not_lt hj)
      have hlast : across xs.length ys.length (xs.length + n) = xs.length + (ys.length + n) := by
        rw [across_of_le (Nat.le_add_right _ _)]
        omega
      rw [hlast]
      by_cases hi : i < xs.length
      · -- What is put in stands between the two.
        rw [segment_append hi] at hinside
        rw [across_of_lt hi, segment_append hi, List.take_length_add_append]
        exact hinside.insert hys
      · obtain ⟨k, rfl⟩ := Nat.exists_eq_add_of_le (Nat.le_of_not_lt hi)
        have hfirst : across xs.length ys.length (xs.length + k) + 1 =
            xs.length + (ys.length + (k + 1)) := by
          rw [across_of_le (Nat.le_add_right _ _)]
          omega
        rw [Nat.add_assoc, segment_append_left] at hinside
        rw [hfirst, segment_append_left, segment_append_left]
        exact hinside

theorem Partners.insert (h : Partners (xs ++ zs) i j) (hys : Balanced ys) :
    Partners (xs ++ (ys ++ zs)) (across xs.length ys.length i) (across xs.length ys.length j) :=
  h.imp (·.insert hys) (·.insert hys)

theorem paired_loop {is : List Instruction} (h : Balanced is) :
    Paired (.loopOpen :: is ++ [.loopClose]) 0 (is.length + 1) where
  opens := rfl
  closes := by simp
  before := Nat.succ_pos _
  inside := by
    have hsegment : segment (.loopOpen :: is ++ [.loopClose]) 1 (is.length + 1) = is := by
      simp [segment]
    rwa [hsegment]

/-! ## Programs -/

/-- Where the instruction stands that stood at the site, when `size` instructions are put in at
`index` with `chars` characters. -/
def Site.across (index size chars : Nat) (site : Site) : Site :=
  if site.ip < index then site else site.relocated size chars

def Failure.mapSite (f : Site → Site) : Failure → Failure
  | rejected cause => rejected cause
  | overrun site cause => overrun (f site) cause
  | io site text => io (f site) text
  | stepLimit limit => stepLimit limit
  | canceled => canceled

def Ending.mapSite (f : Site → Site) : Ending → Ending
  | finished => finished
  | failed cause => failed (cause.mapSite f)
  | broken fault => broken fault

def Flow.map (f : Nat → Nat) : Flow → Flow
  | onward => onward
  | past closing => past (f closing)
  | back opening => back (f opening)

theorem Trouble.mapSite_failure (f : Site → Site) (site : Site) (trouble : Trouble) :
    (trouble.failure site).mapSite f = trouble.failure (f site) := by
  cases trouble <;> rfl

namespace Program

/-- The text of a loop. -/
def loop (body : List Char) : List Char := '[' :: body ++ [']']

variable {X Y Z : List Char} {p q : Program}

theorem spelled_loop (body : List Char) :
    spelled (loop body) = .loopOpen :: spelled body ++ [.loopClose] := by
  rw [loop, spelled_append, spelled_cons_of_some (i := .loopOpen) rfl]
  rfl

theorem countSymbols_loop (body : List Char) : countSymbols (loop body) = countSymbols body + 2 := by
  rw [← length_spelled, spelled_loop, ← length_spelled]
  simp

theorem length_loop (body : List Char) : (loop body).length = body.length + 2 := by
  simp [loop]

theorem length_placed (text : List Char) : (placed text).length = countSymbols text := by
  rw [← length_spelled, ← map_instruction_placed_eq, List.length_map]

section

variable (hp : p.code.toList = placed (X ++ Z)) (hq : q.code.toList = placed (X ++ (Y ++ Z)))

include hp hq

/-- The instructions behind the characters that are put in are moved by these. -/
theorem getElem?_code_insert (ip : Nat) :
    q.code[across (countSymbols X) (countSymbols Y) ip]? =
      p.code[ip]?.map (if ip < countSymbols X then id else Placed.moved Y.length) := by
  rw [← Array.getElem?_toList, ← Array.getElem?_toList, hp, hq, placed_append, placed_append,
    placed_append, ← length_placed X, ← length_placed Y]
  by_cases h : ip < (placed X).length
  · rw [across_of_lt h, if_pos h, List.getElem?_append_left h, List.getElem?_append_left h,
      Option.map_id]
    rfl
  · obtain ⟨n, rfl⟩ := Nat.exists_eq_add_of_le (Nat.le_of_not_lt h)
    have hplace : (placed Y).length + ((placed X).length + n) - (placed X).length =
        (placed Y).length + n := by omega
    rw [across_of_le (Nat.le_add_right _ _), if_neg h, List.getElem?_append_right (by omega),
      List.getElem?_append_right (by omega), hplace, Nat.add_sub_cancel_left, List.getElem?_map,
      List.getElem?_map, List.getElem?_append_right (by omega), Nat.add_sub_cancel_left,
      List.getElem?_map, Option.map_map, Option.map_map]
    congr 1
    funext placed
    simp only [Function.comp_apply, Placed.moved, Nat.add_left_comm]

theorem instruction?_insert (ip : Nat) :
    q.instruction? (across (countSymbols X) (countSymbols Y) ip) = p.instruction? ip := by
  rw [instruction?, instruction?, getElem?_code_insert hp hq, Option.map_map]
  congr 1
  split <;> rfl

theorem site_insert {jumps jumps' : JumpTable} {mode mode' : Mode} {i : Instruction} {ip : Nat}
    (hi : p.instruction? ip = some i) :
    Job.site ⟨q, jumps', mode'⟩ (across (countSymbols X) (countSymbols Y) ip) =
      (Job.site ⟨p, jumps, mode⟩ ip).across (countSymbols X) (countSymbols Y) Y.length := by
  obtain ⟨placed, hplaced, _⟩ := Option.map_eq_some_iff.1 hi
  simp only [Job.site, locate, offset?, getElem?_code_insert hp hq, hplaced, Site.across]
  by_cases h : ip < countSymbols X
  · simp only [across_of_lt h, if_pos h]
    rfl
  · simp only [across_of_le (Nat.le_of_not_lt h), if_neg h]
    rfl

end

end Program

/-! ## The work on them -/

/-- The work `long` is the work `short` with a loop of `size` instructions put in at `index`, which
takes up `chars` characters. The loop stands at the beginning or behind a `]`. -/
structure Job.Detour (short long : Job) (index size chars : Nat) : Prop where
  shortLive : short.mode = .live
  longLive : long.mode = .live
  instruction : ∀ ip,
    long.program.instruction? (across index size ip) = short.program.instruction? ip
  site : ∀ ip i, short.program.instruction? ip = some i →
    long.site (across index size ip) = (short.site ip).across index size chars
  target : ∀ ip,
    long.jumps.target? (across index size ip) = (short.jumps.target? ip).map (across index size)
  opens : long.program.instruction? index = some .loopOpen
  closes : ∃ closing, long.jumps.target? index = some closing ∧ closing + 1 = size + index
  behind : ∀ ip, ip + 1 = index → short.program.instruction? ip = some .loopClose

/-- The same way, in the longer program. -/
theorem Job.Detour.flow? {short long : Job} {chars : Nat}
    (h : short.Detour long index size chars) (ip : Nat) (cell : UInt8) (i : Instruction) :
    long.flow? (across index size ip) cell i =
      (short.flow? ip cell i).map (Flow.map (across index size)) := by
  have htarget := h.target ip
  cases i with
  | loopOpen =>
    simp only [Job.flow?, htarget]
    split
    · cases short.jumps.target? ip <;> rfl
    · rfl
  | loopClose =>
    simp only [Job.flow?, htarget]
    split
    · rfl
    · cases short.jumps.target? ip <;> rfl
  | _ => rfl

namespace Interpreter

variable {source source' : String} {X B Z : List Char} {p q : Program} {t u : JumpTable}

section

variable (hp : read source = .ok (p, t)) (hsource : source.toList = X ++ Z)
  (hsource' : source'.toList = X ++ (Program.loop B ++ Z)) (hB : Program.Nested B)

include hp hsource hsource' hB

/-- A text remains a program when a loop is put in. -/
theorem exists_read_insert : ∃ q u, read source' = .ok (q, u) := by
  obtain ⟨hpos, hnested⟩ := exists_read_iff.1 ⟨p, t, hp⟩
  have hbalanced := Program.balanced_spelled_iff.2 hnested
  have hloop := (Program.balanced_spelled_iff.2 hB).loop
  rw [← Program.spelled_loop] at hloop
  rw [hsource, ← Program.length_spelled, Program.spelled_append, List.length_append] at hpos
  rw [hsource, Program.spelled_append] at hbalanced
  refine exists_read_iff.2 ⟨?_, Program.balanced_spelled_iff.1 ?_⟩
  · rw [hsource', ← Program.length_spelled, Program.spelled_append, Program.spelled_append,
      List.length_append, List.length_append]
    omega
  · rw [hsource', Program.spelled_append, Program.spelled_append]
    exact hbalanced.insert hloop

/-- Of two texts that are programs, one is the other with a loop put in. -/
theorem detour_of_read (hq : read source' = .ok (q, u))
    (hbehind : ∀ ip, ip + 1 = Program.countSymbols X →
      (Program.spelled X)[ip]? = some .loopClose) :
    Job.Detour ⟨p, t, .live⟩ ⟨q, u, .live⟩ (Program.countSymbols X)
      (Program.countSymbols (Program.loop B)) (Program.loop B).length := by
  obtain ⟨hpsource, ht⟩ := read_eq_ok hp
  obtain ⟨hqsource, hu⟩ := read_eq_ok hq
  have hpcode := (Program.ofSource_eq_ok_iff.1 hpsource).2
  have hqcode := (Program.ofSource_eq_ok_iff.1 hqsource).2
  rw [hsource] at hpcode
  rw [hsource'] at hqcode
  have hpis : p.instructions = Program.spelled X ++ Program.spelled Z := by
    rw [Program.instructions_eq_spelled hpsource, hsource, Program.spelled_append]
  have hqis : q.instructions =
      Program.spelled X ++ (Program.spelled (Program.loop B) ++ Program.spelled Z) := by
    rw [Program.instructions_eq_spelled hqsource, hsource', Program.spelled_append,
      Program.spelled_append]
  have hbody := Program.balanced_spelled_iff.2 hB
  have hloop := hbody.loop
  rw [← Program.spelled_loop] at hloop
  have hat := Program.instruction?_insert hpcode hqcode
  have hpaired : Paired q.instructions (Program.countSymbols X)
      (Program.countSymbols X + (Program.countSymbols B + 1)) := by
    have hown := paired_loop hbody
    rw [← Program.spelled_loop, Program.length_spelled] at hown
    rw [hqis, ← Program.length_spelled X]
    exact (hown.append_right _).append_left _
  refine
    { shortLive := rfl
      longLive := rfl
      instruction := hat
      site := fun ip i hi => Program.site_insert hpcode hqcode hi
      target := fun ip => ?_
      opens := (q.instruction?_eq_getElem? _).trans hpaired.opens
      closes := ⟨_, (JumpTable.ofProgram_target?_iff hu).2 (.inl hpaired), ?_⟩
      behind := fun ip hip => ?_ }
  · refine JumpTable.target?_carry ht hu ?_ fun j hj => ?_
    · rw [← Program.instruction?_eq_getElem?, hat, Program.instruction?_eq_getElem?]
    · rw [hpis] at hj
      rw [hqis, ← Program.length_spelled X, ← Program.length_spelled (Program.loop B)]
      exact hj.insert hloop
  · rw [Program.countSymbols_loop]
    omega
  · have hlt : ip < (Program.spelled X).length := by
      rw [Program.length_spelled]
      omega
    have hfront : (Program.spelled X ++ Program.spelled Z)[ip]? = some .loopClose :=
      (List.getElem?_append_left hlt).trans (hbehind ip hip)
    rw [← hpis, ← Program.instruction?_eq_getElem?] at hfront
    exact hfront

end

end Interpreter

end TapeMachine
