import RoleWiring.Proofs.RoleIndex.Exact
import RoleWiring.Search

/-!
# What a run reports

A run of its own looks everything up anew, so its report is the direct one over its
class path, with the faults of the roots in front. A configuration holds every role
once, so the report holds the implementations of every role in its place
(`entries_run`, `get?_run`).
-/

namespace RoleWiring

namespace Search

/-- A search has the configuration that it was made of. -/
theorem config_of_ofConfig {config : Configuration} {search : Search}
    (h : ofConfig config = .ok search) : search.config = config := by
  unfold ofConfig at h
  split at h
  · cases h
    rfl
  · cases h

/-- A valid configuration can be run. -/
theorem ofConfig_eq_ok {config : Configuration} (h : config.accept = .ok ()) :
    ofConfig config = .ok ⟨config, h⟩ := by
  unfold ofConfig
  split
  · rfl
  · next hfault => cases h.symm.trans hfault

variable (search : Search) (t : FileTree)

/-- A run reports what direct look-ups give. -/
theorem run_eq :
    search.run t =
      { indexDirect (search.classPath t).asSource search.config.roleList
          (search.classPath t).classes.1 with
        warnings := (search.classPath t).classes.2 ++
          (indexDirect (search.classPath t).asSource search.config.roleList
            (search.classPath t).classes.1).warnings } := by
  have hindex := indexRoles_fst (search.classPath t).asSource search.config.roleList
    (search.classPath t).classes.1 .empty
  rw [Session.view_empty] at hindex
  show (search.runWithin t .empty).1 = _
  unfold runWithin
  rw [← hindex]

/-- Every role of the configuration stands in the report, in its place and with its
implementations. -/
theorem entries_run :
    (search.run t).implementations.entries =
      search.config.roles.entries.map fun e =>
        (e.1, implementationsOf (search.classPath t).asSource (search.classPath t).classes.1
          ⟨e.1, e.2⟩) := by
  rw [run_eq]
  show (indexDirect (search.classPath t).asSource search.config.roleList
    (search.classPath t).classes.1).implementations.entries = _
  rw [implementations_indexDirect, Roster.entries_ofList]
  · unfold Configuration.roleList
    rw [List.map_map]
    rfl
  · unfold Configuration.roleList
    rw [List.map_map, List.map_map]
    exact search.config.roles.nodup

/-- Under a role of the configuration the report has the implementations of its type. -/
theorem get?_run (role : String) :
    (search.run t).implementations.get? role =
      (search.config.roles.get? role).map fun type =>
        implementationsOf (search.classPath t).asSource (search.classPath t).classes.1
          ⟨role, type⟩ :=
  Roster.get?_of_entries_eq_map
    (f := fun role type => implementationsOf (search.classPath t).asSource
      (search.classPath t).classes.1 ⟨role, type⟩) (entries_run search t) role

variable {search t}

/-- The set of a role is that of the implementations of its type. -/
theorem eq_implementationsOf_of_get? {role : String} {set : Implementations}
    (h : (search.run t).implementations.get? role = some set) :
    ∃ type, search.config.roles.get? role = some type ∧
      set = implementationsOf (search.classPath t).asSource (search.classPath t).classes.1
        ⟨role, type⟩ := by
  have hmem := Roster.mem_entries_of_get? h
  rw [entries_run] at hmem
  obtain ⟨⟨name, type⟩, he, heq⟩ := List.mem_map.mp hmem
  cases heq
  exact ⟨type, Roster.get?_of_mem_entries he, rfl⟩

end Search

end RoleWiring
