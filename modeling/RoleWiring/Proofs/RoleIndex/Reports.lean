import Mathlib.Data.List.Perm.Basic
import RoleWiring.Proofs.RoleIndex.Direct

/-!
# What an index warns about

An index warns once about every role whose type is not there, and once about every candidate without
a usable declaration, whether or not it is the type of roles as well. The type of a role that is
malformed and no candidate is warned about with the role: once for every role that has it.

* `warnings_indexDirect` — all warnings in their order;
* `warnings_perm` — the same warnings, by what they are about;
* `indexRoles_reports` — how often every type is reported;
* `warnings_sharedType` — two roles of one type, which is reported twice.
-/

namespace RoleWiring

variable {src : Source} {name : String} {fault : Fault}

/-- The fault that a look-up in the source ends in. -/
def Source.fault? (src : Source) (name : String) : Option Fault :=
  match src.lookUp name with
  | .ok _ => none
  | .error fault => some fault

theorem Source.fault?_eq_some : src.fault? name = some fault ↔ src.lookUp name = .error fault := by
  rw [Source.fault?]
  cases src.lookUp name <;> simp

/-- The warnings of a direct index. -/
theorem warnings_indexDirect (src : Source) (roles : List Role) (candidates : List Artifact) :
    (indexDirect src roles candidates).warnings =
      roles.filterMap (fun role =>
        (RoleIndex.activateDirect src (candidates.map Artifact.name) role).warning) ++
        candidates.filterMap fun c => src.fault? c.name := by
  rw [indexDirect, RoleIndex.report]
  dsimp only
  rw [List.filterMap_map, ← List.map_prod_left_eq_zip, List.filterMap_map]
  congr 1
  apply List.filterMap_congr
  intro c _
  rw [Function.comp_apply, RoleIndex.examineDirect, Source.fault?]
  cases src.lookUp c.name <;> rfl

namespace RoleIndex

open Classical in
/-- The warnings about roles whose types are not there. -/
noncomputable def missingTypes (src : Source) (roles : List Role) : List Fault :=
  (roles.filter fun role => src.Lacks role.type).map fun role =>
    .roleTypeMissing role.name role.type

open Classical in
/-- The types of roles that are there and are no candidates. -/
noncomputable def typesApart (src : Source) (roles : List Role) (scanned : List String) :
    List String :=
  (roles.map Role.type).filter fun type => ¬ src.Lacks type ∧ type ∉ scanned

/-- The names that an index reports if they have no usable declaration. -/
noncomputable def watched (src : Source) (roles : List Role) (candidates : List Artifact) :
    List String :=
  typesApart src roles (candidates.map Artifact.name) ++ candidates.map Artifact.name

/-- These names among them that are reported, with their faults. -/
noncomputable def reported (src : Source) (roles : List Role) (candidates : List Artifact) :
    List (String × Fault) :=
  (watched src roles candidates).filterMap fun name => (src.fault? name).map (name, ·)

variable {roles : List Role} {candidates : List Artifact} {scanned : List String} {role : Role}

theorem warning_of_lacks (h : src.Lacks role.type) :
    (activateDirect src scanned role).warning = some (.roleTypeMissing role.name role.type) := by
  obtain ⟨n, hn⟩ := h
  rw [activateDirect, hn]

theorem warning_of_not_lacks (h : ¬ src.Lacks role.type) :
    (activateDirect src scanned role).warning =
      if role.type ∈ scanned then none else src.fault? role.type := by
  unfold activateDirect Source.fault?
  cases hl : src.lookUp role.type with
  | ok d => exact (ite_self none).symm
  | error fault =>
    cases fault with
    | typeMissing n => exact absurd ⟨n, hl⟩ h
    | _ => rfl

/-- The warnings about roles are those about missing types and those about malformed ones. -/
theorem filterMap_warning_perm (src : Source) (roles : List Role) (scanned : List String) :
    (roles.filterMap fun role => (activateDirect src scanned role).warning).Perm
      (missingTypes src roles ++ (typesApart src roles scanned).filterMap src.fault?) := by
  classical
  refine ((List.filter_append_perm (fun role => decide (src.Lacks role.type)) roles).symm.filterMap
    _).trans (.of_eq ?_)
  have hmissing : (roles.filter fun role => decide (src.Lacks role.type)).filterMap
      (fun role => (activateDirect src scanned role).warning) = missingTypes src roles := by
    rw [missingTypes, ← List.filterMap_eq_map']
    refine List.filterMap_congr fun role hrole => ?_
    exact warning_of_lacks (of_decide_eq_true (List.mem_filter.mp hrole).2)
  have hapart : (roles.filter fun role => !decide (src.Lacks role.type)).filterMap
      (fun role => (activateDirect src scanned role).warning) =
      (typesApart src roles scanned).filterMap src.fault? := by
    rw [typesApart, List.filter_map, List.filterMap_map, List.filterMap_filter,
      List.filterMap_filter]
    refine List.filterMap_congr fun role _ => ?_
    by_cases hlacks : src.Lacks role.type
    · simp [hlacks]
    · by_cases hscanned : role.type ∈ scanned <;>
        simp [hlacks, hscanned, warning_of_not_lacks hlacks]
  rw [List.filterMap_append, hmissing, hapart]

/-- The warnings of an index, by what they are about. -/
theorem warnings_perm (src : Source) (roles : List Role) (candidates : List Artifact) :
    (indexDirect src roles candidates).warnings.Perm
      (missingTypes src roles ++ (reported src roles candidates).map Prod.snd) := by
  have hreported : (reported src roles candidates).map Prod.snd =
      (watched src roles candidates).filterMap src.fault? := by
    rw [reported, List.map_filterMap]
    refine List.filterMap_congr fun name _ => ?_
    cases src.fault? name <;> rfl
  rw [warnings_indexDirect, hreported, watched, List.filterMap_append, List.filterMap_map,
    ← List.append_assoc]
  exact (filterMap_warning_perm src roles _).append_right _

/-- A type without a usable declaration is reported as often as its name is watched. -/
theorem count_reported (h : src.lookUp name = .error fault) :
    ((reported src roles candidates).map Prod.fst).count name =
      (watched src roles candidates).count name := by
  have hnames : (reported src roles candidates).map Prod.fst =
      (watched src roles candidates).filter fun name => (src.fault? name).isSome := by
    rw [reported, List.map_filterMap, ← List.filterMap_eq_filter]
    refine List.filterMap_congr fun name _ => ?_
    cases hfault : src.fault? name <;> simp [Option.guard, hfault]
  rw [hnames, List.count_filter]
  rw [Source.fault?_eq_some.mpr h]
  rfl

open Classical in
/-- How often a name is watched. -/
theorem count_watched (h : (candidates.map Artifact.name).Nodup) :
    (watched src roles candidates).count name =
      if name ∈ candidates.map Artifact.name then 1
      else if src.Lacks name then 0 else (roles.map Role.type).count name := by
  rw [watched, List.count_append, h.count]
  generalize candidates.map Artifact.name = scanned
  by_cases hcandidate : name ∈ scanned
  · have hnone : (typesApart src roles scanned).count name = 0 :=
      List.count_eq_zero_of_not_mem fun hmem =>
        (of_decide_eq_true (List.mem_filter.mp hmem).2).2 hcandidate
    rw [if_pos hcandidate, if_pos hcandidate, hnone]
  · rw [if_neg hcandidate, if_neg hcandidate, Nat.add_zero]
    by_cases hlacks : src.Lacks name
    · rw [if_pos hlacks]
      exact List.count_eq_zero_of_not_mem fun hmem =>
        (of_decide_eq_true (List.mem_filter.mp hmem).2).1 hlacks
    · rw [if_neg hlacks]
      exact List.count_filter (decide_eq_true ⟨hlacks, hcandidate⟩)

end RoleIndex

open Classical in
/-- Where roles and candidates have different names, the warnings of an index are one for every role
whose type is not there, and those of certain types, which have no usable declaration. Among these
every candidate without one is found once, even if it is the type of any number of roles. Any other
type is found as often as it is the type of a role, unless it is not there at all. -/
theorem indexRoles_reports (src : Source) (roles : List Role) (candidates : List Artifact)
    (s : Session) (hroles : (roles.map Role.name).Nodup)
    (hcandidates : (candidates.map Artifact.name).Nodup) :
    ∃ reported : List (String × Fault),
      (indexRoles src roles candidates s).1.warnings.Perm
          (RoleIndex.missingTypes (s.view src) roles ++ reported.map Prod.snd) ∧
        (RoleIndex.missingTypes (s.view src) roles).Nodup ∧
        (∀ r ∈ reported, (s.view src).lookUp r.1 = .error r.2) ∧
        ∀ name fault, (s.view src).lookUp name = .error fault →
          (reported.map Prod.fst).count name =
            if name ∈ candidates.map Artifact.name then 1
            else if (s.view src).Lacks name then 0 else (roles.map Role.type).count name := by
  refine ⟨RoleIndex.reported (s.view src) roles candidates, ?_, ?_, fun r hr => ?_,
    fun name fault hfault => ?_⟩
  · rw [indexRoles_fst]
    exact RoleIndex.warnings_perm (s.view src) roles candidates
  · rw [List.Nodup, List.pairwise_map] at hroles
    rw [RoleIndex.missingTypes, List.Nodup, List.pairwise_map]
    refine (hroles.sublist List.filter_sublist).imp fun hne heq => hne ?_
    exact (Fault.roleTypeMissing.inj heq).1
  · obtain ⟨name, -, hr⟩ := List.mem_filterMap.mp hr
    obtain ⟨fault, hfault, rfl⟩ := Option.map_eq_some_iff.mp hr
    exact Source.fault?_eq_some.mp hfault
  · rw [RoleIndex.count_reported hfault, RoleIndex.count_watched hcandidates]

/-! ## Types that several roles share -/

/-- The fault of the first type of `brokenTypes`. -/
def brokenFault : Fault :=
  .typeMalformed "io.Broken" (.ofString "/cp/io.Broken.class") (.other "bad magic")

/-- Two types whose artifacts are malformed. -/
def brokenTypes : Source :=
  .ofAnswers [("io.Broken", .error brokenFault),
    ("io.Cut", .error (.typeMalformed "io.Cut" (.ofString "/cp/io.Cut.class") (.other "cut off")))]

/-- The type of two roles that is a candidate as well is reported once, and so is that of one role
which is no candidate. -/
theorem indexRoles_reports_scanned :
    ∃ reported : List (String × Fault),
      (∀ r ∈ reported, brokenTypes.lookUp r.1 = .error r.2) ∧
        (reported.map Prod.fst).count "io.Broken" = 1 ∧
        (reported.map Prod.fst).count "io.Cut" = 1 := by
  obtain ⟨reported, -, -, hfaults, hcount⟩ := indexRoles_reports brokenTypes
    [⟨"Parser", "io.Broken"⟩, ⟨"Writer", "io.Broken"⟩, ⟨"Reader", "io.Cut"⟩]
    [⟨"io.Broken", .ofString "/cp/io.Broken.class"⟩] .empty (by decide) (by decide)
  have hcut : ¬ brokenTypes.Lacks "io.Cut" := by
    rintro ⟨n, hn⟩
    cases hn
  refine ⟨reported, hfaults, (hcount "io.Broken" _ rfl).trans (if_pos (by decide)), ?_⟩
  refine (hcount "io.Cut" _ rfl).trans ((if_neg (by decide)).trans ((if_neg hcut).trans ?_))
  decide

/-- The type of two roles that is no candidate is reported twice. -/
theorem warnings_sharedType :
    (indexRoles brokenTypes [⟨"Parser", "io.Broken"⟩, ⟨"Writer", "io.Broken"⟩] [] .empty).1.warnings
      = [brokenFault, brokenFault] := by
  rfl

end RoleWiring
