import Mathlib.Algebra.Ring.Nat
import RoleWiring.Proofs.RoleIndex.Direct

/-!
# The check of a candidate between two look-ups

What the check of a candidate has to remember while a look-up of its is under way:
the outcomes of the roles that are done and the walk for the role at hand. The check
asks for one type after the other (`question`) and goes on with each answer
(`resume`); nothing else of it can be seen from outside.

* `outcome_resume` — going on with the answer of the source leaves the outcome that
  the check will come to as it was;
* `work_resume` — and leaves fewer questions to ask.
-/

namespace RoleWiring

/-- A check between two look-ups. -/
inductive Check where
  /-- the candidate itself is to be looked up -/
  | opening
  /-- the walk for `role` is to look up `asked`, with `waiting` and `met` names; the outcomes for
  the roles before it are `found`, and the roles after it are `ahead` -/
  | climbing (kind : Kind) (found : List Bool) (asked : String) (waiting met : List String)
      (role : Role) (ahead : List (Role × Bool))
  /-- the check is over -/
  | done (outcome : Outcome)

namespace Check

variable (src : Source) (roles : List (Role × Bool)) (name : String)

/-! ## Going on -/

/-- The type that is to be looked up next for the candidate `name`. -/
def question : Check → Option String
  | opening => some name
  | climbing _ _ asked _ _ _ _ => some asked
  | done _ => none

/-- Goes on to the next role that needs a look-up. -/
def seek (kind : Kind) (found : List Bool) : List (Role × Bool) → Check
  | [] => done (.placed kind found)
  | (_, false) :: ahead => seek kind (found ++ [false]) ahead
  | (role, true) :: ahead =>
    if name == role.type then seek kind (found ++ [true]) ahead
    else climbing kind found name [] [name] role ahead

/-- Goes on to the next name of the walk for a role, or to the next role if the walk is over. -/
def ascend (kind : Kind) (found : List Bool) (role : Role) (ahead : List (Role × Bool))
    (w : Ascent) : Check :=
  match w.waiting with
  | [] => seek name kind (found ++ [false]) ahead
  | n :: rest =>
    if n == role.type then seek name kind (found ++ [true]) ahead
    else climbing kind found n rest w.met role ahead

/-- Goes on with the answer to the question. -/
def resume (answer : Except Fault Declaration) : Check → Check
  | opening =>
    match answer with
    | .error fault => done (.leftOut fault)
    | .ok d => seek name d.kind [] roles
  | climbing kind found asked waiting met role ahead =>
    ascend name kind found role ahead (Ascent.told answer ⟨waiting, met, some asked⟩)
  | done outcome => done outcome

/-- A walk that has only begun is at the candidate. -/
theorem seek_enabled (kind : Kind) (found : List Bool) (role : Role)
    (ahead : List (Role × Bool)) :
    seek name kind found ((role, true) :: ahead) =
      ascend name kind found role ahead (Ascent.start name) :=
  rfl

/-! ## Where a check leads -/

/-- The names that the walk for a role still gives. -/
def namesLeft (asked : String) (waiting met : List String) (role : Role) : List String :=
  (⟨waiting, met, some asked⟩ : Ascent).climbDirect src (· == role.type)

/-- The outcome that the check of a candidate comes to if it is answered by the source. -/
def outcome (candidate : Artifact) : Check → Outcome
  | opening => RoleIndex.examineDirect src roles candidate
  | climbing kind found asked waiting met role ahead =>
    .placed kind (found ++ (namesLeft src asked waiting met role).contains role.type ::
      ahead.map (RoleIndex.belongsDirect src candidate.name))
  | done outcome => outcome

/-- The names that a walk gives once the last name given is looked up. -/
def climbFrom (stop : String → Bool) (w : Ascent) : List String :=
  match w.pop? with
  | none => []
  | some (n, w') => if stop n then [n] else n :: w'.climbDirect src stop

theorem namesLeft_eq (asked : String) (waiting met : List String) (role : Role) :
    namesLeft src asked waiting met role =
      climbFrom src (· == role.type)
        (Ascent.told (src.lookUp asked) ⟨waiting, met, some asked⟩) := by
  unfold namesLeft climbFrom
  cases hpop : (Ascent.told (src.lookUp asked) ⟨waiting, met, some asked⟩).pop? with
  | none => exact Ascent.climbDirect_of_none hpop
  | some step => exact Ascent.climbDirect_of_some hpop

theorem climbDirect_start (stop : String → Bool) :
    (Ascent.start name).climbDirect src stop = climbFrom src stop (Ascent.start name) :=
  Ascent.climbDirect_of_some rfl

/-- A walk that gives a name first contains the target if the name is it or the rest does. -/
theorem contains_climbFrom (w : Ascent) (target : String) :
    (climbFrom src (· == target) w).contains target =
      match w.pop? with
      | none => false
      | some (n, w') => n == target || (w'.climbDirect src (· == target)).contains target := by
  unfold climbFrom
  rcases w.pop? with _ | ⟨n, w'⟩
  · rfl
  · dsimp only
    split
    · next h => simp [eq_of_beq h]
    · next h =>
      rw [List.contains_cons, Bool.beq_comm (a := target)]

variable (candidate : Artifact)

/-- Going on with a walk leaves the outcome as it was, if going on to the next role does. -/
theorem outcome_ascend {kind : Kind} {ahead : List (Role × Bool)}
    (hseek : ∀ found, (seek candidate.name kind found ahead).outcome src roles candidate =
      .placed kind (found ++ ahead.map (RoleIndex.belongsDirect src candidate.name)))
    (found : List Bool) (role : Role) (w : Ascent) :
    (ascend candidate.name kind found role ahead w).outcome src roles candidate =
      .placed kind (found ++ (climbFrom src (· == role.type) w).contains role.type ::
        ahead.map (RoleIndex.belongsDirect src candidate.name)) := by
  obtain ⟨waiting, met, last⟩ := w
  rw [contains_climbFrom]
  cases waiting with
  | nil =>
    rw [ascend, hseek, List.append_assoc]
    rfl
  | cons n rest =>
    unfold ascend
    cases hn : n == role.type with
    | true =>
      simp only [hn, if_true, hseek, List.append_assoc]
      simp [Ascent.pop?, hn]
    | false =>
      simp only [hn]
      simp [Ascent.pop?, hn, outcome, namesLeft]

/-- Going on to the next role leaves the outcome as it was. -/
theorem outcome_seek (kind : Kind) (found : List Bool) (ahead : List (Role × Bool)) :
    (seek candidate.name kind found ahead).outcome src roles candidate =
      .placed kind (found ++ ahead.map (RoleIndex.belongsDirect src candidate.name)) := by
  induction ahead generalizing found with
  | nil => rw [List.map_nil, List.append_nil]; rfl
  | cons entry ahead ih =>
    obtain ⟨role, enabled⟩ := entry
    cases enabled with
    | false =>
      rw [seek, ih, List.append_assoc]
      rfl
    | true =>
      rw [seek_enabled, outcome_ascend src roles candidate ih, ← climbDirect_start]
      rfl

/-- Going on with the answer of the source leaves the outcome as it was. -/
theorem outcome_resume {c : Check} {asked : String} (h : c.question candidate.name = some asked) :
    (c.resume roles candidate.name (src.lookUp asked)).outcome src roles candidate =
      c.outcome src roles candidate := by
  cases c with
  | opening =>
    cases h
    unfold resume
    show _ = RoleIndex.examineDirect src roles candidate
    unfold RoleIndex.examineDirect
    cases src.lookUp candidate.name with
    | error fault => rfl
    | ok d => exact outcome_seek src roles candidate d.kind [] roles
  | climbing kind found n waiting met role ahead =>
    cases h
    unfold resume
    rw [outcome_ascend src roles candidate
      (fun found => outcome_seek src roles candidate kind found ahead), ← namesLeft_eq]
    rfl
  | done outcome => cases h

/-! ## How much is left to ask -/

/-- How many questions a role takes at most. -/
def roleWork (role : Role × Bool) : Nat :=
  ((Ascent.start name).climbDirect src (· == role.1.type)).length + 1

/-- How many questions a check takes at most if it is answered by the source. -/
def work : Check → Nat
  | opening => 1 + (roles.map (roleWork src name)).sum
  | climbing _ _ asked waiting met role ahead =>
    (namesLeft src asked waiting met role).length + 1 + (ahead.map (roleWork src name)).sum
  | done _ => 0

/-- What is left to ask when a walk goes on, given what is left after it. -/
theorem work_ascend_le {kind : Kind} {ahead : List (Role × Bool)}
    (hseek : ∀ found, (seek name kind found ahead).work src roles name ≤
      (ahead.map (roleWork src name)).sum)
    (found : List Bool) (role : Role) (w : Ascent) :
    (ascend name kind found role ahead w).work src roles name ≤
      (climbFrom src (· == role.type) w).length + (ahead.map (roleWork src name)).sum := by
  obtain ⟨waiting, met, last⟩ := w
  cases waiting with
  | nil => exact Nat.le_trans (hseek _) (Nat.le_add_left _ _)
  | cons n rest =>
    unfold ascend
    cases hn : n == role.type with
    | true =>
      simp only [hn, if_true]
      exact Nat.le_trans (hseek _) (Nat.le_add_left _ _)
    | false =>
      simp only [hn]
      simp [Ascent.pop?, climbFrom, hn, work, namesLeft]

theorem work_seek_le (kind : Kind) (found : List Bool) (ahead : List (Role × Bool)) :
    (seek name kind found ahead).work src roles name ≤ (ahead.map (roleWork src name)).sum := by
  induction ahead generalizing found with
  | nil => exact Nat.zero_le _
  | cons entry ahead ih =>
    obtain ⟨role, enabled⟩ := entry
    rw [List.map_cons, List.sum_cons]
    cases enabled with
    | false => exact Nat.le_trans (ih _) (Nat.le_add_left _ _)
    | true =>
      have hle := work_ascend_le src roles name ih found role (Ascent.start name)
      rw [← climbDirect_start] at hle
      have hwork : roleWork src name (role, true) =
          ((Ascent.start name).climbDirect src (· == role.type)).length + 1 := rfl
      rw [seek_enabled]
      omega

/-- Going on with the answer of the source leaves less to ask. -/
theorem work_resume {c : Check} {asked : String} (h : c.question name = some asked) :
    (c.resume roles name (src.lookUp asked)).work src roles name < c.work src roles name := by
  cases c with
  | opening =>
    cases h
    unfold resume
    show _ < 1 + (roles.map (roleWork src name)).sum
    cases src.lookUp name with
    | error fault => exact Nat.lt_of_lt_of_le Nat.zero_lt_one (Nat.le_add_right _ _)
    | ok d =>
      have hle := work_seek_le src roles name d.kind [] roles
      dsimp only
      omega
  | climbing kind found n waiting met role ahead =>
    cases h
    have hle := work_ascend_le src roles name
      (fun found => work_seek_le src roles name kind found ahead) found role
      (Ascent.told (src.lookUp asked) ⟨waiting, met, some asked⟩)
    rw [← namesLeft_eq] at hle
    unfold resume
    show _ < (namesLeft src asked waiting met role).length + 1 + _
    dsimp only
    omega
  | done outcome => cases h

end Check

end RoleWiring
