import RoleWiring.Ascent
import RoleWiring.Proofs.Session.View

/-!
# Walks that ask the source directly

The walk up from a type, with nothing kept between two look-ups. A walk within a
session gives the same names as a direct walk over what the session shows, and
leaves that as it was. What is proved of direct walks holds of all walks, then,
whatever the session has kept before.

* `climb_fst` — a walk in a session gives the names of the direct walk;
* `view_climb` — and changes no answer;
* `isSubtype_fst`, `view_isSubtype` — the same for the search for one type.
-/

namespace RoleWiring

namespace Ascent

/-! ## Direct walks -/

/-- The walk after it was told what is known of the last name given. -/
def told (answer : Except Fault Declaration) (w : Ascent) : Ascent :=
  match answer with
  | .ok d => meet d.directSupertypes { w with last := none }
  | .error _ => { w with last := none }

/-- The next name that waits, and the walk after it was given. -/
def pop? (w : Ascent) : Option (String × Ascent) :=
  match w.waiting with
  | [] => none
  | name :: rest => some (name, { w with waiting := rest, last := some name })

/-- The walk after the last name given was looked up in the source. -/
def lookAboveDirect (src : Source) (w : Ascent) : Ascent :=
  match w.last with
  | none => w
  | some name => w.told (src.lookUp name)

/-- The next name and the walk after it, if there is one. -/
def nextDirect (src : Source) (w : Ascent) : Option (String × Ascent) :=
  (w.lookAboveDirect src).pop?

/-! ## Walks in a session go the same way -/

theorem lookAbove_fst (src : Source) (w : Ascent) (s : Session) :
    (w.lookAbove src s).1 = w.lookAboveDirect (s.view src) := by
  unfold lookAbove lookAboveDirect
  cases w.last with
  | none => rfl
  | some name =>
    dsimp only
    rw [← Session.lookUp_fst_eq_view]
    rcases s.lookUp src name with ⟨_ | _, _⟩ <;> rfl

/-- Looking above, told by the answer of the session. -/
theorem lookAbove_eq {src : Source} {w : Ascent} {s : Session} {name : String}
    (h : w.last = some name) :
    w.lookAbove src s = (w.told (s.lookUp src name).1, (s.lookUp src name).2) := by
  unfold lookAbove
  rw [h]
  dsimp only
  rcases s.lookUp src name with ⟨_ | _, _⟩ <;> rfl

theorem view_lookAbove (src : Source) (w : Ascent) (s : Session) :
    (w.lookAbove src s).2.view src = s.view src := by
  unfold lookAbove
  split
  · rfl
  · next name _ =>
    have hview := Session.view_lookUp src name s
    split
    · next heq =>
      rw [heq] at hview
      exact hview
    · next heq =>
      rw [heq] at hview
      exact hview

/-- A step in a session, told by the direct step and the session after looking up. -/
theorem next_eq (src : Source) (w : Ascent) (s : Session) :
    w.next src s =
      match w.nextDirect (s.view src) with
      | none => (none, w.lookAboveDirect (s.view src), (w.lookAbove src s).2)
      | some (name, w') => (some name, w', (w.lookAbove src s).2) := by
  have hfst := lookAbove_fst src w s
  unfold next nextDirect pop?
  rw [← hfst]
  generalize w.lookAbove src s = e
  obtain ⟨⟨waiting, met, last⟩, s₁⟩ := e
  cases waiting <;> rfl

/-- A step in a session that gives no name. -/
theorem nextDirect_of_next_none {src : Source} {w w' : Ascent} {s s' : Session}
    (h : w.next src s = (none, w', s')) :
    w.nextDirect (s.view src) = none ∧ s' = (w.lookAbove src s).2 := by
  rw [next_eq] at h
  split at h
  · next hd =>
    cases h
    exact ⟨hd, rfl⟩
  · cases h

/-- A step in a session that gives a name. -/
theorem nextDirect_of_next_some {src : Source} {w w' : Ascent} {s s' : Session} {name : String}
    (h : w.next src s = (some name, w', s')) :
    w.nextDirect (s.view src) = some (name, w') ∧ s' = (w.lookAbove src s).2 := by
  rw [next_eq] at h
  split at h
  · cases h
  · next hd =>
    cases h
    exact ⟨hd, rfl⟩

/-- A direct step is one of a new session. -/
theorem next_of_nextDirect {src : Source} {w w' : Ascent} {name : String}
    (h : w.nextDirect src = some (name, w')) :
    w.next src .empty = (some name, w', (w.lookAbove src .empty).2) := by
  rw [next_eq, Session.view_empty, h]

/-- A step of a walk changes no answer of its session. -/
theorem view_next (src : Source) (w : Ascent) (s : Session) :
    (w.next src s).2.2.view src = s.view src := by
  have hview := view_lookAbove src w s
  rw [next_eq]
  cases w.nextDirect (s.view src) with
  | none => exact hview
  | some step => exact hview

/-- Sessions with the same view measure a walk alike. -/
theorem measure_congr {src : Source} {s s' : Session} (h : s.view src = s'.view src)
    (w : Ascent) : measure src w s = measure src w s' := by
  have hanswer : s.answer src = s'.answer src := congrArg Source.lookUp h
  unfold measure
  rw [hanswer]

/-- With every direct step fewer names are unmet or waiting. -/
theorem nextDirect_measure {src : Source} {w w' : Ascent} {name : String}
    (h : w.nextDirect src = some (name, w')) :
    measure src w' .empty < measure src w .empty := by
  have hlt := next_measure (next_of_nextDirect h)
  have hview : ((w.lookAbove src .empty).2).view src = Session.empty.view src :=
    view_lookAbove src w .empty
  rw [measure_congr hview] at hlt
  exact hlt

/-- The names that the direct walk gives up to the first one where it is to stop. -/
def climbDirect (src : Source) (stop : String → Bool) (w : Ascent) : List String :=
  match _h : w.nextDirect src with
  | none => []
  | some (name, w') => if stop name then [name] else name :: climbDirect src stop w'
termination_by measure src w .empty
decreasing_by exact nextDirect_measure _h

variable {src : Source} {stop : String → Bool} {w w' : Ascent} {name : String}

theorem climbDirect_of_none (h : w.nextDirect src = none) : w.climbDirect src stop = [] := by
  rw [climbDirect]
  split
  · rfl
  · next heq =>
    rw [h] at heq
    cases heq

theorem climbDirect_of_some (h : w.nextDirect src = some (name, w')) :
    w.climbDirect src stop =
      if stop name then [name] else name :: w'.climbDirect src stop := by
  rw [climbDirect]
  split
  · next heq =>
    rw [h] at heq
    cases heq
  · next heq =>
    rw [h] at heq
    cases heq
    rfl

/-- A walk in a session gives the names of the direct walk over what the session shows. -/
theorem climb_fst (src : Source) (stop : String → Bool) (w : Ascent) (s : Session) :
    (w.climb src stop s).1 = w.climbDirect (s.view src) stop := by
  fun_induction climb src stop w s with
  | case1 w s w' s' hnext =>
    obtain ⟨hd, -⟩ := nextDirect_of_next_none hnext
    exact (climbDirect_of_none hd).symm
  | case2 w s name w' s' hnext hstop =>
    obtain ⟨hd, -⟩ := nextDirect_of_next_some hnext
    rw [climbDirect_of_some hd, if_pos hstop]
  | case3 w s name w' s' hnext hstop names s'' hrest ih =>
    obtain ⟨hd, rfl⟩ := nextDirect_of_next_some hnext
    rw [hrest, view_lookAbove] at ih
    rw [climbDirect_of_some hd, if_neg hstop, ← ih]

/-- A walk changes no answer of its session. -/
theorem view_climb (src : Source) (stop : String → Bool) (w : Ascent) (s : Session) :
    (w.climb src stop s).2.view src = s.view src := by
  fun_induction climb src stop w s with
  | case1 w s w' s' hnext =>
    obtain ⟨-, rfl⟩ := nextDirect_of_next_none hnext
    exact view_lookAbove src w s
  | case2 w s name w' s' hnext hstop =>
    obtain ⟨-, rfl⟩ := nextDirect_of_next_some hnext
    exact view_lookAbove src w s
  | case3 w s name w' s' hnext hstop names s'' hrest ih =>
    obtain ⟨-, rfl⟩ := nextDirect_of_next_some hnext
    rw [hrest] at ih
    exact ih.trans (view_lookAbove src w s)

end Ascent

/-! ## The search for one type -/

/-- The type is the target or has it above itself, as a direct walk finds. -/
def isSubtypeDirect (src : Source) (name target : String) : Bool :=
  ((Ascent.start name).climbDirect src (· == target)).contains target

theorem isSubtype_fst (src : Source) (name target : String) (s : Session) :
    (isSubtype src name target s).1 = isSubtypeDirect (s.view src) name target := by
  unfold isSubtypeDirect
  rw [← Ascent.climb_fst]
  rfl

theorem view_isSubtype (src : Source) (name target : String) (s : Session) :
    (isSubtype src name target s).2.view src = s.view src :=
  Ascent.view_climb src (· == target) (Ascent.start name) s

end RoleWiring
