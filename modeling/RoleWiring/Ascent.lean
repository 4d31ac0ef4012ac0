import RoleWiring.Session

/-!
# Ascending from a type

A breadth-first walk that gives a type and then every type above it, each once. A
type is looked up only when the walk goes on past it, so a walk that stops at a
type never reads that type. A type without a usable declaration has nothing above
it, and a name that was met before is not entered again, so the walk ends also
where types are above themselves.

* `next_measure` — with every step fewer names are unmet or waiting.
-/

namespace RoleWiring

/-- A walk between two of its names. -/
structure Ascent where
  /-- the names that were met and not given yet, in order -/
  waiting : List String
  /-- all names that were met -/
  met : List String
  /-- the last name given, which is not looked up yet -/
  last : Option String
deriving DecidableEq, Repr

namespace Ascent

/-- The walk that begins with this name. -/
def start (name : String) : Ascent :=
  ⟨[name], [name], none⟩

/-- Enters the names that were not met before. -/
def meet : List String → Ascent → Ascent
  | [], w => w
  | name :: names, w =>
    if name ∈ w.met then meet names w
    else meet names { w with waiting := w.waiting ++ [name], met := name :: w.met }

/-- Looks up the last name given and enters its direct supertypes. -/
def lookAbove (src : Source) (w : Ascent) (s : Session) : Ascent × Session :=
  match w.last with
  | none => (w, s)
  | some name =>
    match s.lookUp src name with
    | (.ok d, s) => (meet d.directSupertypes { w with last := none }, s)
    | (.error _, s) => ({ w with last := none }, s)

/-- Goes on to the next name. -/
def next (src : Source) (w : Ascent) (s : Session) :
    Option String × Ascent × Session :=
  let (w, s) := w.lookAbove src s
  match w.waiting with
  | [] => (none, w, s)
  | name :: rest => (some name, { w with waiting := rest, last := some name }, s)

/-! ## Why walks end -/

/-- Finitely many names that hold the direct supertypes of all types, where there are such. -/
noncomputable def names (answers : String → Except Fault Declaration) : List String :=
  open Classical in
  if h : ∃ names, Session.SupertypesAmong answers names then h.choose else []

theorem supertypesAmong_names (src : Source) (s : Session) :
    Session.SupertypesAmong (s.answer src) (names (s.answer src)) := by
  have h := Session.exists_supertypesAmong src s
  unfold names
  rw [dif_pos h]
  exact h.choose_spec

/-- How many names are unmet or waiting. -/
noncomputable def measure (src : Source) (w : Ascent) (s : Session) : Nat :=
  ((names (s.answer src)).countP fun n => decide (n ∉ w.met)) + w.waiting.length

theorem countP_met_lt {all met : List String} {name : String} (hmem : name ∈ all)
    (hnew : name ∉ met) :
    (all.countP fun n => decide (n ∉ name :: met))
      < all.countP fun n => decide (n ∉ met) := by
  induction all with
  | nil => cases hmem
  | cons a all ih =>
    have hle : (all.countP fun n => decide (n ∉ name :: met))
        ≤ all.countP fun n => decide (n ∉ met) := by
      refine List.countP_mono_left fun n _ h => ?_
      simp only [List.mem_cons, not_or, decide_eq_true_eq] at h ⊢
      exact h.2
    by_cases ha : a = name
    · subst ha
      simp only [List.countP_cons, List.mem_cons, true_or, not_true, decide_false, hnew,
        not_false_eq_true, decide_true, if_true]
      simp only [List.mem_cons] at hle
      simp only [Bool.false_eq_true, if_false]
      omega
    · have hmem' : name ∈ all := by
        rcases List.mem_cons.mp hmem with h | h
        · exact absurd h.symm ha
        · exact h
      have := ih hmem'
      simp only [List.countP_cons, List.mem_cons, ha, false_or] at this ⊢
      omega

/-- Entering names never adds to what is unmet or waiting. -/
theorem countP_meet_le {all : List String} (entered : List String) (w : Ascent)
    (h : ∀ n ∈ entered, n ∈ all) :
    (all.countP fun n => decide (n ∉ (meet entered w).met)) + (meet entered w).waiting.length
      ≤ (all.countP fun n => decide (n ∉ w.met)) + w.waiting.length := by
  induction entered generalizing w with
  | nil => exact Nat.le_refl _
  | cons name rest ih =>
    have hrest : ∀ n ∈ rest, n ∈ all := fun n hn => h n (.tail _ hn)
    rw [meet]
    split
    · exact ih w hrest
    · next hnew =>
      refine Nat.le_trans (ih _ hrest) ?_
      have := countP_met_lt (h name (.head _)) hnew
      simp only [List.length_append, List.length_cons, List.length_nil]
      omega

/-- Looking up the last name never adds to what is unmet or waiting. -/
theorem measure_lookAbove_le (src : Source) (w : Ascent) (s : Session) :
    measure src (w.lookAbove src s).1 (w.lookAbove src s).2 ≤ measure src w s := by
  unfold lookAbove
  split
  · exact Nat.le_refl _
  · next name hname =>
    have hfst := Session.lookUp_fst src name s
    have hanswer := Session.answer_lookUp src name s
    split
    · next d s' hd =>
      rw [hd] at hfst hanswer
      simp only [measure] at hanswer ⊢
      rw [hanswer]
      exact countP_meet_le d.directSupertypes { w with last := none }
        (supertypesAmong_names src s name d hfst.symm)
    · next fault s' hd =>
      rw [hd] at hanswer
      simp only [measure] at hanswer ⊢
      exact Nat.le_of_eq (by rw [hanswer])

/-- With every step fewer names are unmet or waiting. -/
theorem next_measure {src : Source} {w w' : Ascent} {s s' : Session} {name : String}
    (h : w.next src s = (some name, w', s')) : measure src w' s' < measure src w s := by
  have hle := measure_lookAbove_le src w s
  unfold next at h
  generalize w.lookAbove src s = e at h hle
  obtain ⟨w₁, s₁⟩ := e
  simp only at h hle
  split at h
  · cases h
  · next n rest hwaiting =>
    cases h
    refine Nat.lt_of_lt_of_le ?_ hle
    simp only [measure, hwaiting, List.length_cons]
    omega

/-! ## Whole walks -/

/-- The names that the walk gives up to the first one where it is to stop. -/
def climb (src : Source) (stop : String → Bool) (w : Ascent) (s : Session) :
    List String × Session :=
  match _h : w.next src s with
  | (none, _, s) => ([], s)
  | (some name, w', s') =>
    if stop name then ([name], s')
    else
      let (names, s'') := climb src stop w' s'
      (name :: names, s'')
termination_by measure src w s
decreasing_by exact next_measure _h

/-- The names given by at most `n` steps. -/
def take (src : Source) : Nat → Ascent → Session → List String × Session
  | 0, _, s => ([], s)
  | n + 1, w, s =>
    match w.next src s with
    | (none, _, s) => ([], s)
    | (some name, w, s) =>
      let (names, s) := take src n w s
      (name :: names, s)

end Ascent

/-- A type and all types above it, in breadth-first order. -/
def allAbove (src : Source) (name : String) (s : Session) : List String × Session :=
  (Ascent.start name).climb src (fun _ => false) s

/-- The type is the target or has it above itself. The walk stops at the target. -/
def isSubtype (src : Source) (name target : String) (s : Session) : Bool × Session :=
  let (names, s) := (Ascent.start name).climb src (· == target) s
  (names.contains target, s)

end RoleWiring
