import RoleWiring.RoleIndex
import RoleWiring.Proofs.Ascent.Direct

/-!
# Indexing with direct look-ups

The index as it is made by checking the candidates one after the other and asking
the source for every type anew, with nothing kept in between. `indexRoles_fst` says
that a session makes no difference: the report is the direct one over what the
session shows.
-/

namespace RoleWiring

/-! ## Items taken in turn -/

section Turns

variable {V : Type u} {view : Session → V} {step : α → Session → β × Session} {f : V → α → β}

/-- If every step gives what the view has for its item, so do all steps in turn. -/
theorem inTurn_fst (hfst : ∀ item s, (step item s).1 = f (view s) item)
    (hview : ∀ item s, view (step item s).2 = view s) (items : List α) (s : Session) :
    (inTurn step items s).1 = items.map (f (view s)) := by
  induction items generalizing s with
  | nil => rfl
  | cons item items ih =>
    show (step item s).1 :: (inTurn step items (step item s).2).1 = _
    rw [ih, hfst, hview, List.map_cons]

/-- If every step leaves the view as it was, so do all steps in turn. -/
theorem view_inTurn (hview : ∀ item s, view (step item s).2 = view s) (items : List α)
    (s : Session) : view (inTurn step items s).2 = view s := by
  induction items generalizing s with
  | nil => rfl
  | cons item items ih =>
    show view (inTurn step items (step item s).2).2 = _
    rw [ih, hview]

end Turns

namespace RoleIndex

/-! ## The parts of the index -/

/-- What the source says about the type of a role. -/
def activateDirect (src : Source) (scanned : List String) (role : Role) : Activation :=
  match src.lookUp role.type with
  | .ok _ => ⟨true, none⟩
  | .error (.typeMissing _) => ⟨false, some (.roleTypeMissing role.name role.type)⟩
  | .error fault => ⟨true, if role.type ∈ scanned then none else some fault⟩

/-- Whether a class belongs to a role, which needs to be enabled. -/
def belongsDirect (src : Source) (name : String) (role : Role × Bool) : Bool :=
  role.2 && isSubtypeDirect src name role.1.type

/-- The check of a candidate against all roles. -/
def examineDirect (src : Source) (roles : List (Role × Bool)) (candidate : Artifact) : Outcome :=
  match src.lookUp candidate.name with
  | .error fault => .leftOut fault
  | .ok d => .placed d.kind (roles.map (belongsDirect src candidate.name))

/-- The roles, each with whether the source lets it have members. -/
def enabledDirect (src : Source) (scanned : List String) (roles : List Role) :
    List (Role × Bool) :=
  roles.zip ((roles.map (activateDirect src scanned)).map Activation.enabled)

end RoleIndex

/-- The report that the source gives when it is asked for every type anew. -/
def indexDirect (src : Source) (roles : List Role) (candidates : List Artifact) : Report :=
  let scanned := candidates.map Artifact.name
  let enabled := RoleIndex.enabledDirect src scanned roles
  RoleIndex.report roles (roles.map (RoleIndex.activateDirect src scanned))
    (candidates.zip (candidates.map (RoleIndex.examineDirect src enabled)))

namespace RoleIndex

variable (src : Source)

/-! ## A session makes no difference -/

theorem activate_fst (scanned : List String) (role : Role) (s : Session) :
    (activate src scanned role s).1 = activateDirect (s.view src) scanned role := by
  unfold activate activateDirect
  rw [← Session.lookUp_fst_eq_view]
  rcases s.lookUp src role.type with ⟨fault | d, s'⟩
  · cases fault <;> rfl
  · rfl

theorem view_activate (scanned : List String) (role : Role) (s : Session) :
    (activate src scanned role s).2.view src = s.view src := by
  have hview := Session.view_lookUp src role.type s
  unfold activate
  rcases hl : s.lookUp src role.type with ⟨fault | d, s'⟩
  · rw [hl] at hview
    cases fault <;> exact hview
  · rw [hl] at hview
    exact hview

theorem belongs_fst (name : String) (role : Role × Bool) (s : Session) :
    (belongs src name role s).1 = belongsDirect (s.view src) name role := by
  unfold belongs belongsDirect
  split
  · next h => rw [h, Bool.true_and, isSubtype_fst]
  · next h => rw [Bool.eq_false_iff.mpr h, Bool.false_and]

theorem view_belongs (name : String) (role : Role × Bool) (s : Session) :
    (belongs src name role s).2.view src = s.view src := by
  unfold belongs
  split
  · exact view_isSubtype src name role.1.type s
  · rfl

theorem examine_fst (roles : List (Role × Bool)) (candidate : Artifact) (s : Session) :
    (examine src roles candidate s).1 = examineDirect (s.view src) roles candidate := by
  have hview := Session.view_lookUp src candidate.name s
  unfold examine examineDirect
  rw [← Session.lookUp_fst_eq_view]
  rcases hl : s.lookUp src candidate.name with ⟨fault | d, s'⟩
  · rfl
  · rw [hl] at hview
    have hroles := inTurn_fst (f := fun v => belongsDirect v candidate.name)
      (belongs_fst src candidate.name) (view_belongs src candidate.name) roles s'
    rw [hview] at hroles
    exact congrArg (Outcome.placed d.kind) hroles

theorem view_examine (roles : List (Role × Bool)) (candidate : Artifact) (s : Session) :
    (examine src roles candidate s).2.view src = s.view src := by
  have hview := Session.view_lookUp src candidate.name s
  unfold examine
  rcases hl : s.lookUp src candidate.name with ⟨fault | d, s'⟩
  · rw [hl] at hview
    exact hview
  · rw [hl] at hview
    exact (view_inTurn (view_belongs src candidate.name) roles s').trans hview

end RoleIndex

open RoleIndex

/-- A session gives the direct report over what it shows. -/
theorem indexRoles_fst (src : Source) (roles : List Role) (candidates : List Artifact)
    (s : Session) :
    (indexRoles src roles candidates s).1 = indexDirect (s.view src) roles candidates := by
  have hfst := inTurn_fst (f := fun v => activateDirect v (candidates.map Artifact.name))
    (activate_fst src (candidates.map Artifact.name))
    (view_activate src (candidates.map Artifact.name)) roles s
  have hview := view_inTurn (view_activate src (candidates.map Artifact.name)) roles s
  unfold indexRoles
  rcases hroles : inTurn (activate src (candidates.map Artifact.name)) roles s
    with ⟨activations, s'⟩
  rw [hroles] at hfst hview
  dsimp only at hfst hview ⊢
  rw [inTurn_fst (f := fun v => examineDirect v _) (examine_fst src _) (view_examine src _),
    hview, hfst]
  rfl

end RoleWiring
