import Mathlib.Data.List.Basic
import RoleWiring.Proofs.Ascent.Above
import RoleWiring.Proofs.RoleIndex.Direct
import RoleWiring.Proofs.Roster

/-!
# What the index holds

Under every role the index holds exactly the candidates that implement it, in their
order and as often as they are candidates: those with a declaration from which the
type of the role is reached by going up. The type itself needs no declaration to be
reached; only where it is not on the class path at all does the role stay empty.

* `implementations_indexDirect` — the roster of a direct index, spelled out;
* `indexRoles_implementations` — names and sets of every index, whatever its session
  has kept.
-/

namespace RoleWiring

open Classical in
/-- The implementation of a type that a candidate is. It needs a declaration, and the type must
be it or above it. -/
noncomputable def implementationOf? (src : Source) (type : String) (c : Artifact) :
    Option Implementation :=
  match src.lookUp c.name with
  | .ok d => if src.Above c.name type then some ⟨c, d.kind⟩ else none
  | .error _ => none

open Classical in
/-- The candidates that implement a role, in their order. There are none where the type of the
role is not on the class path. -/
noncomputable def implementationsOf (src : Source) (candidates : List Artifact) (role : Role) :
    Implementations :=
  ⟨if src.Lacks role.type then [] else candidates.filterMap (implementationOf? src role.type)⟩

/-- A type that is declared is not missing. -/
theorem not_lacks_of_lookUp {src : Source} {name : String} {d : Declaration}
    (h : src.lookUp name = .ok d) : ¬ src.Lacks name := by
  rintro ⟨n, hn⟩
  cases h.symm.trans hn

/-- What it takes to implement a type. -/
theorem implementationOf?_eq_some {src : Source} {type : String} {c : Artifact}
    {i : Implementation} :
    implementationOf? src type c = some i ↔
      ∃ d, src.lookUp c.name = .ok d ∧ src.Above c.name type ∧ i = ⟨c, d.kind⟩ := by
  unfold implementationOf?
  cases hl : src.lookUp c.name with
  | error fault => simp
  | ok d =>
    by_cases habove : src.Above c.name type
    · simp [habove, eq_comm]
    · simp [habove]

/-- What it takes to be in the set of a role. -/
theorem mem_implementationsOf {src : Source} {candidates : List Artifact} {role : Role}
    {i : Implementation} :
    i ∈ (implementationsOf src candidates role).members ↔
      ¬ src.Lacks role.type ∧ i.artifact ∈ candidates ∧
        ∃ d, src.lookUp i.name = .ok d ∧ src.Above i.name role.type ∧ i.kind = d.kind := by
  unfold implementationsOf
  by_cases hlacks : src.Lacks role.type
  · simp [hlacks]
  · simp only [hlacks, if_false, List.mem_filterMap, implementationOf?_eq_some, not_false_eq_true,
      true_and]
    refine ⟨?_, ?_⟩
    · rintro ⟨c, hc, d, hl, habove, rfl⟩
      exact ⟨hc, d, hl, habove, rfl⟩
    · rintro ⟨hc, d, hl, habove, hkind⟩
      obtain ⟨c, kind⟩ := i
      cases hkind
      exact ⟨c, hc, d, hl, habove, rfl⟩

namespace RoleIndex

variable {src : Source} {scanned : List String} {roles : List Role} {role : Role}

/-! ## From positions to roles -/

/-- A role can have members unless its type is not on the class path. -/
theorem enabled_activateDirect :
    (activateDirect src scanned role).enabled = true ↔ ¬ src.Lacks role.type := by
  unfold activateDirect Source.Lacks
  rcases src.lookUp role.type with fault | d
  · cases fault <;> simp
  · simp

theorem enabledDirect_eq (src : Source) (scanned : List String) (roles : List Role) :
    enabledDirect src scanned roles =
      roles.map fun role => (role, (activateDirect src scanned role).enabled) := by
  unfold enabledDirect
  rw [List.map_map, List.map_prod_left_eq_zip]
  rfl

/-- The kind of a candidate at the position of a role. -/
theorem kindIn?_examineDirect {i : Nat} (hi : roles[i]? = some role) (c : Artifact) :
    (examineDirect src (enabledDirect src scanned roles) c).kindIn? i =
      match src.lookUp c.name with
      | .ok d =>
        if belongsDirect src c.name (role, (activateDirect src scanned role).enabled)
        then some d.kind else none
      | .error _ => none := by
  unfold examineDirect
  rcases src.lookUp c.name with fault | d
  · rfl
  · simp [Outcome.kindIn?, enabledDirect_eq, hi]

/-- The members at the position of a role are the implementations of the role. -/
theorem members_examineDirect {i : Nat} (hi : roles[i]? = some role) (candidates : List Artifact) :
    members i (candidates.zip
      (candidates.map (examineDirect src (enabledDirect src scanned roles)))) =
      (implementationsOf src candidates role).members := by
  unfold members implementationsOf
  rw [← List.map_prod_left_eq_zip, List.filterMap_map]
  split
  · next hlacks =>
    have hdisabled : (activateDirect src scanned role).enabled = false :=
      Bool.eq_false_iff.mpr fun h => enabled_activateDirect.mp h hlacks
    refine List.filterMap_eq_nil_iff.mpr fun c _ => ?_
    rw [Function.comp_apply, kindIn?_examineDirect hi, hdisabled]
    cases src.lookUp c.name <;> rfl
  · next hlacks =>
    have henabled : (activateDirect src scanned role).enabled = true :=
      enabled_activateDirect.mpr hlacks
    refine List.filterMap_congr fun c _ => ?_
    rw [Function.comp_apply, kindIn?_examineDirect hi, henabled]
    unfold implementationOf? belongsDirect
    cases src.lookUp c.name with
    | error fault => rfl
    | ok d =>
      dsimp only
      rw [Bool.true_and]
      by_cases habove : src.Above c.name role.type
      · rw [if_pos (isSubtypeDirect_iff.mpr habove), if_pos habove]
        rfl
      · rw [if_neg (mt isSubtypeDirect_iff.mp habove), if_neg habove]
        rfl

end RoleIndex

/-- The roster of a direct index holds the implementations of every role. -/
theorem implementations_indexDirect (src : Source) (roles : List Role)
    (candidates : List Artifact) :
    (indexDirect src roles candidates).implementations =
      Roster.ofList (roles.map fun role => (role.name, implementationsOf src candidates role)) := by
  unfold indexDirect RoleIndex.report
  refine congrArg Roster.ofList ?_
  -- the sets are made by position, which says more than the role alone
  have hroles : roles.map (fun role => (role.name, implementationsOf src candidates role)) =
      roles.zipIdx.map fun r => (r.1.name, implementationsOf src candidates r.1) := by
    rw [← List.zipIdx_map_fst 0 roles, List.map_map, List.zipIdx_map_fst]
    rfl
  rw [hroles]
  refine List.map_congr_left fun r hr => ?_
  rw [RoleIndex.members_examineDirect (List.mem_zipIdx_iff_getElem?.mp hr)]

/-- The index holds every role once, in the order in which the roles first occur, and under a
name the implementations of the last role of that name: the candidates with a declaration from
which the type of the role is reached, unless that type is not on the class path. -/
theorem indexRoles_implementations (src : Source) (roles : List Role)
    (candidates : List Artifact) (s : Session) :
    (indexRoles src roles candidates s).1.implementations.names =
        (roles.map Role.name).eraseDups ∧
      ∀ name, (indexRoles src roles candidates s).1.implementations.get? name =
        (roles.filter fun role => role.name = name).getLast?.map
          (implementationsOf (s.view src) candidates) := by
  rw [indexRoles_fst, implementations_indexDirect]
  refine ⟨?_, ?_⟩
  · rw [Roster.names_ofList, List.map_map]
    rfl
  · intro name
    rw [Roster.get?_ofList, List.filter_map, List.getLast?_map, Option.map_map]
    rfl

end RoleWiring
