import TapeMachine.Proofs.Lines

/-!
# TapeMachine.Proofs.Assignments

Which assignments of a settings file count, by the places of its lines.

* `AssignsAt`    — a line assigns a value to a key, and the last section that was opened before it
  is the one that is read.
* `LastAssigns`  — the assignment is the last one to its key in the text.
* `IsLast`       — the same of a list of assignments; `lastAssigns_iff` says that it comes to the
  same for the assignments that are read.
* `Visits`       — the entries of a map that holds the last value of every key, in any order.
-/

namespace TapeMachine.Settings.File

def SaysAt (text : String) (n : Nat) (l : Line) : Prop :=
  ∃ line, (text.toList.splitOn '\n')[n]? = some line ∧ Says line l

/-- The last line before the line `n` that opens a section opens the one that is read. -/
def InSection (text : String) (n : Nat) : Prop :=
  ∃ m < n, SaysAt text m (.opens "interpreter".toList) ∧
    ∀ k, m < k → k < n → ∀ name, ¬SaysAt text k (.opens name)

structure AssignsAt (text : String) (n : Nat) (key value : String) : Prop where
  line : SaysAt text n (.assigns key.toList value.toList)
  inside : InSection text n

/-- A line assigns the value to the key, and no later one assigns anything to it. -/
def LastAssigns (text key value : String) : Prop :=
  ∃ n, AssignsAt text n key value ∧ ∀ m value', n < m → ¬AssignsAt text m key value'

/-- The assignment is there, and no assignment behind it is to the same key. -/
def IsLast (as : List Assignment) (a : Assignment) : Prop :=
  ∃ earlier later, as = earlier ++ a :: later ∧ ∀ b ∈ later, b.key ≠ a.key

/-- Every key is visited once, with the value that was assigned to it last. -/
structure Visits (as order : List Assignment) : Prop where
  once : (order.map (·.key)).Nodup
  mem_iff : ∀ a, a ∈ order ↔ IsLast as a

/-- What the lines of a text say. -/
def said (text : String) : List Line := (lines text.toList).map readLine

/-- Whether lines are in the section behind a line, if those before it are or are not. -/
def Line.leads (inside : Bool) : Line → Bool
  | .opens name => name = sectionName
  | _ => inside

/-- The line `n` assigns in the section, where `inside` says whether the first one is in it. -/
def Assigns (inside : Bool) (ls : List Line) (n : Nat) (a : Assignment) : Prop :=
  ls[n]? = some (.assigns a.key.toList a.value.toList) ∧
    (ls.take n).foldl Line.leads inside = true

/-- What the line `n` assigns is not assigned anew by a later one. -/
def LastAt (inside : Bool) (ls : List Line) (n : Nat) (a : Assignment) : Prop :=
  Assigns inside ls n a ∧ ∀ m b, n < m → Assigns inside ls m b → b.key ≠ a.key

variable {text key value : String} {ls : List Line} {l : Line} {inside : Bool} {n : Nat}
  {a b : Assignment} {as : List Assignment}

/-! ## The last of a list -/

theorem isLast_cons : IsLast (b :: as) a ↔ (a = b ∧ ∀ c ∈ as, c.key ≠ a.key) ∨ IsLast as a := by
  constructor
  · rintro ⟨earlier, later, h, hlater⟩
    cases earlier with
    | nil =>
      cases h
      exact .inl ⟨rfl, hlater⟩
    | cons c earlier =>
      cases h
      exact .inr ⟨earlier, later, rfl, hlater⟩
  · rintro (⟨rfl, hlater⟩ | ⟨earlier, later, rfl, hlater⟩)
    · exact ⟨[], as, rfl, hlater⟩
    · exact ⟨b :: earlier, later, rfl, hlater⟩

theorem not_isLast_nil : ¬IsLast [] a := by
  rintro ⟨earlier, later, h, -⟩
  simp at h

theorem IsLast.mem (h : IsLast as a) : a ∈ as := by
  obtain ⟨earlier, later, rfl, -⟩ := h
  exact List.mem_append_right earlier (List.mem_cons_self ..)

theorem mem_finals_iff : a ∈ finals as ↔ IsLast as a := by
  induction as with
  | nil => exact ⟨fun h => (List.not_mem_nil h).elim, fun h => (not_isLast_nil h).elim⟩
  | cons b as ih =>
    have hany : as.any (·.key = b.key) = true ↔ ∃ c ∈ as, c.key = b.key := by simp
    rw [finals, isLast_cons, ← ih]
    split
    · rename_i hlater
      obtain ⟨c, hc, hkey⟩ := hany.1 hlater
      constructor
      · exact .inr
      · rintro (⟨rfl, hnone⟩ | hmem)
        · exact absurd hkey (hnone c hc)
        · exact hmem
    · rename_i hlater
      have hnone : ∀ c ∈ as, c.key ≠ b.key := fun c hc hkey => hlater (hany.2 ⟨c, hc, hkey⟩)
      rw [List.mem_cons]
      constructor
      · rintro (rfl | hmem)
        · exact .inl ⟨rfl, hnone⟩
        · exact .inr hmem
      · rintro (⟨rfl, -⟩ | hmem)
        · exact .inl rfl
        · exact .inr hmem

/-- The order of the visits is of no account. -/
theorem Visits.perm {order order' : List Assignment} (h : Visits as order)
    (hperm : order.Perm order') : Visits as order' where
  once := (hperm.map _).nodup_iff.1 h.once
  mem_iff a := hperm.mem_iff.symm.trans (h.mem_iff a)

/-- The last assignments, in the order in which they stand, are one way to visit them. -/
theorem visits_finals (as : List Assignment) : Visits as (finals as) := by
  refine ⟨?_, fun a => mem_finals_iff⟩
  induction as with
  | nil => exact List.nodup_nil
  | cons b as ih =>
    rw [finals]
    split
    · exact ih
    · rename_i hlater
      rw [List.map_cons, List.nodup_cons]
      refine ⟨fun hmem => hlater ?_, ih⟩
      obtain ⟨c, hc, hkey⟩ := List.mem_map.1 hmem
      simpa using ⟨c, (mem_finals_iff.1 hc).mem, hkey⟩

/-! ## Lines by their places -/

theorem saysAt_iff : SaysAt text n l ↔ (said text)[n]? = some l := by
  rw [SaysAt, said, lines_eq_splitOn, List.getElem?_map, Option.map_eq_some_iff]
  simp only [says_iff]

theorem leads_take_iff :
    (ls.take n).foldl Line.leads false = true ↔
      ∃ m < n, ls[m]? = some (.opens sectionName) ∧
        ∀ k, m < k → k < n → ∀ name, ls[k]? ≠ some (.opens name) := by
  -- By induction on the number of lines. A line that opens a section settles the question, and
  -- every other line leaves the answer as it is.
  induction n with
  | zero => simp
  | succ n ih =>
    rw [List.take_add_one, List.foldl_append]
    by_cases hopens : ∃ name, ls[n]? = some (.opens name)
    · obtain ⟨name, hname⟩ := hopens
      rw [hname]
      constructor
      · intro h
        obtain rfl : name = sectionName := by simpa [Line.leads] using h
        exact ⟨n, Nat.lt_succ_self n, hname, fun k hnk hkn => by omega⟩
      · rintro ⟨m, hm, hopens, hlater⟩
        by_cases hmn : m = n
        · subst hmn
          rw [hname] at hopens
          cases hopens
          simp [Line.leads]
        · exact absurd hname (hlater n (by omega) (Nat.lt_succ_self n) name)
    · have hsame : (ls[n]?.toList).foldl Line.leads ((ls.take n).foldl Line.leads false) =
          (ls.take n).foldl Line.leads false := by
        cases hl : ls[n]? with
        | none => rfl
        | some l =>
          cases l with
          | opens name => exact absurd ⟨name, hl⟩ hopens
          | _ => rfl
      rw [hsame, ih]
      constructor
      · rintro ⟨m, hm, hopen, hlater⟩
        refine ⟨m, Nat.lt_succ_of_lt hm, hopen, fun k hmk hkn name hk => ?_⟩
        by_cases hkn' : k = n
        · subst hkn'
          exact hopens ⟨name, hk⟩
        · exact hlater k hmk (by omega) name hk
      · rintro ⟨m, hm, hopen, hlater⟩
        have hne : m ≠ n := by
          rintro rfl
          exact hopens ⟨_, hopen⟩
        exact ⟨m, by omega, hopen, fun k hmk hkn => hlater k hmk (by omega)⟩

theorem assignsAt_iff : AssignsAt text n key value ↔ Assigns false (said text) n ⟨key, value⟩ := by
  have hinside : InSection text n ↔ ((said text).take n).foldl Line.leads false = true := by
    rw [leads_take_iff, InSection]
    simp only [saysAt_iff]
    rfl
  rw [Assigns, ← hinside, ← saysAt_iff]
  exact ⟨fun h => ⟨h.line, h.inside⟩, fun h => ⟨h.1, h.2⟩⟩

theorem assigns_zero :
    Assigns inside (l :: ls) 0 a ↔ l = .assigns a.key.toList a.value.toList ∧ inside = true := by
  simp [Assigns]

theorem assigns_succ : Assigns inside (l :: ls) (n + 1) a ↔ Assigns (l.leads inside) ls n a :=
  Iff.rfl

/-- What the line assigns in the section, if it assigns anything. -/
def given (inside : Bool) : Line → List Assignment
  | .assigns key value => if inside then [⟨String.ofList key, String.ofList value⟩] else []
  | _ => []

theorem collect_cons (inside : Bool) (l : Line) (ls : List Line) :
    collect inside (l :: ls) = given inside l ++ collect (l.leads inside) ls := by
  cases l <;> cases inside <;> rfl

theorem mem_given_iff :
    a ∈ given inside l ↔ l = .assigns a.key.toList a.value.toList ∧ inside = true := by
  cases l with
  | assigns key value =>
    cases inside with
    | false => simp [given]
    | true =>
      rw [given, if_pos rfl, List.mem_singleton]
      constructor
      · rintro rfl
        simp
      · rintro ⟨h, -⟩
        cases h
        simp
  | _ => simp [given]

theorem isLast_given_append :
    IsLast (given inside l ++ as) a ↔
      (a ∈ given inside l ∧ ∀ b ∈ as, b.key ≠ a.key) ∨ IsLast as a := by
  cases l with
  | assigns key value =>
    cases inside with
    | false => simp [given]
    | true => simp only [given, if_true, List.singleton_append, List.mem_singleton, isLast_cons]
  | _ => simp [given]

theorem mem_collect_iff : a ∈ collect inside ls ↔ ∃ n, Assigns inside ls n a := by
  induction ls generalizing inside with
  | nil => simp [collect, Assigns]
  | cons l ls ih =>
    rw [collect_cons, List.mem_append, mem_given_iff, ih,
      ← Nat.or_exists_add_one (p := fun n => Assigns inside (l :: ls) n a), assigns_zero]
    rfl

theorem lastAt_zero :
    LastAt inside (l :: ls) 0 a ↔
      a ∈ given inside l ∧ ∀ b ∈ collect (l.leads inside) ls, b.key ≠ a.key := by
  rw [LastAt, assigns_zero, mem_given_iff]
  simp only [mem_collect_iff]
  refine and_congr_right fun _ => ⟨?_, ?_⟩
  · rintro h b ⟨m, hb⟩
    exact h (m + 1) b (Nat.succ_pos m) hb
  · rintro h (_ | m) b hpos hb
    · exact absurd hpos (Nat.lt_irrefl 0)
    · exact h b ⟨m, hb⟩

theorem lastAt_succ : LastAt inside (l :: ls) (n + 1) a ↔ LastAt (l.leads inside) ls n a := by
  refine and_congr_right fun _ => ⟨?_, ?_⟩
  · exact fun h m b hlt hb => h (m + 1) b (Nat.succ_lt_succ hlt) hb
  · rintro h (_ | m) b hlt hb
    · exact absurd hlt (Nat.not_lt_zero _)
    · exact h m b (Nat.lt_of_succ_lt_succ hlt) hb

theorem isLast_collect_iff : IsLast (collect inside ls) a ↔ ∃ n, LastAt inside ls n a := by
  induction ls generalizing inside with
  | nil =>
    refine ⟨fun h => (not_isLast_nil h).elim, ?_⟩
    rintro ⟨n, hn, -⟩
    simp [Assigns] at hn
  | cons l ls ih =>
    rw [collect_cons, isLast_given_append, ih, ← lastAt_zero,
      ← Nat.or_exists_add_one (p := fun n => LastAt inside (l :: ls) n a)]
    simp only [lastAt_succ]

theorem lastAssigns_iff : LastAssigns text key value ↔ IsLast (assignments text) ⟨key, value⟩ := by
  rw [assignments, isLast_collect_iff, LastAssigns]
  simp only [assignsAt_iff, LastAt]
  refine exists_congr fun n => and_congr_right fun _ => ?_
  constructor
  · rintro h m ⟨_, value'⟩ hlt hb rfl
    exact h m value' hlt hb
  · exact fun h m value' hlt hb => h m _ hlt hb rfl

end TapeMachine.Settings.File
