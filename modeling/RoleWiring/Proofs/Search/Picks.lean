import RoleWiring.Proofs.CommandLine.Arguments
import RoleWiring.Proofs.CommandLine.Emit
import RoleWiring.Proofs.Configuration
import RoleWiring.Proofs.Name.Artifact

/-!
# Picking a member for every role

Where a role has several members that can be instantiated, the program asks for one of
them with a selection `ROLE=TYPE`. Whatever members are picked, these selections make the
choice succeed with them, as long as the names of the roles are keys of assignments. A
configuration file may have other names: one that holds an equals sign or has white space
at an end is valid, but nothing selects for it.

* `picks_resolve` — what the arguments resolve, and which roles they cannot reach;
* `picks_not_resolve_misread` — a role that is asked for and cannot be selected.
-/

namespace RoleWiring

/-- A type that is found has no white space in its name, and the name is not empty. -/
theorem ClassPath.trimmed_of_lookUp {cp : ClassPath} {name : String} {d : Declaration}
    (h : cp.lookUp name = .ok d) : Trimmed name.toList ∧ name ≠ "" := by
  obtain ⟨artifact, -, hfind, -⟩ := ClassPath.exists_read_of_lookUp h
  obtain ⟨below, hbelow, -⟩ := Option.bind_eq_some_iff.mp hfind
  obtain ⟨segments, hspells, -⟩ := artifactPath?_eq_some.mp hbelow
  refine ⟨hspells.trimmed, ?_⟩
  rintro rfl
  have hnone : typeSegments? "" = none := by decide
  cases hnone.symm.trans (typeSegments?_eq_some.mpr hspells)

namespace Report

/-- The function picks a member that can be instantiated for every role. -/
def IsPick (report : Report) (pick : String → String) : Prop :=
  ∀ role set, report.implementations.get? role = some set → pick role ∈ set.instantiable.names

end Report

/-- The text that selects the picked member for a role. -/
def pickText (pick : String → String) (role : String) : String :=
  role ++ "=" ++ pick role

namespace Search

variable {search : Search} {t : FileTree}

/-- The names of the roles of a valid configuration are not empty. -/
theorem ne_empty_of_mem_names {role : String} (h : role ∈ search.config.roles.names) :
    role ≠ "" := by
  obtain ⟨⟨name, type⟩, hentry, rfl⟩ := List.mem_map.mp h
  obtain ⟨-, hroles⟩ := Configuration.accept_eq_ok.mp search.valid
  rintro rfl
  obtain ⟨hblank, -⟩ := hroles ⟨"", type⟩ (List.mem_map.mpr ⟨_, hentry, rfl⟩)
  cases hblank

theorem isSome_get?_run {role : String} :
    ((search.run t).implementations.get? role).isSome ↔ role ∈ search.config.roles.names := by
  rw [get?_run, Option.isSome_map]
  exact lookup_isSome_iff

/-- The members of a role have names without white space at the ends. -/
theorem trimmed_of_mem_names {role name : String} {set : Implementations}
    (h : (search.run t).implementations.get? role = some set)
    (hname : name ∈ set.instantiable.names) : Trimmed name.toList ∧ name ≠ "" := by
  obtain ⟨type, -, rfl⟩ := eq_implementationsOf_of_get? h
  obtain ⟨m, hm, rfl, -⟩ := mem_names_instantiable.mp hname
  obtain ⟨-, -, d, hlookUp, -⟩ := mem_implementationsOf.mp hm
  exact ClassPath.trimmed_of_lookUp hlookUp

/-- The text for a pick is read as the selection of it. -/
theorem ofAssignment_pickText {pick : String → String} (hpick : (search.run t).IsPick pick)
    {role : String} (hrole : role ∈ search.config.roles.names) (hkey : IsKey role) :
    Role.ofAssignment (pickText pick role) = .ok ⟨role, pick role⟩ := by
  obtain ⟨set, hset⟩ := Option.isSome_iff_exists.mp (isSome_get?_run.mpr hrole)
  obtain ⟨htrimmed, hne⟩ := trimmed_of_mem_names hset (hpick role set hset)
  exact ofAssignment_of_isKey hkey (ne_empty_of_mem_names hrole) htrimmed hne

/-- Every pick can be asked for: if the names of the roles are keys, then for every pick and every
list of the roles the arguments `--select=ROLE=TYPE` are read as these selections, and the choice
succeeds with exactly the picked members. A role with another name that has several members to
pick from is not resolved by any selections that can be written. -/
theorem picks_resolve (search : Search) (t : FileTree) :
    (∀ (pick : String → String) (order : List String),
      (∀ role ∈ search.config.roles.names, IsKey role) →
      (search.run t).IsPick pick →
      (∀ role, role ∈ order ↔ role ∈ search.config.roles.names) →
        ∃ selections chosen,
          (order.map (pickText pick)).mapM Role.ofAssignment = .ok selections ∧
          Request.ofArguments
              ("emit" :: (order.map (pickText pick)).map Switch.select.argument) =
            .ok (.run (.emit ⟨Configuration.presetFile, [], []⟩ selections none)) ∧
          (search.run t).choose selections = .ok chosen ∧
          chosen.entries = search.config.roles.names.map fun role => (role, pick role)) ∧
    ∀ role set, (search.run t).implementations.get? role = some set →
      2 ≤ set.instantiable.names.length → ¬ IsKey role →
        ∀ (texts : List String) selections, texts.mapM Role.ofAssignment = .ok selections →
          ∀ chosen, (search.run t).choose selections ≠ .ok chosen := by
  refine ⟨fun pick order hkeys hpick horder => ?_, ?_⟩
  · have hnames : (search.run t).implementations.names = search.config.roles.names := by
      rw [Roster.names, entries_run, List.map_map]
      rfl
    have hread : (order.map (pickText pick)).mapM Role.ofAssignment =
        .ok (order.map fun role => ⟨role, pick role⟩) := by
      rw [mapM_eq_ok, List.forall₂_map_left_iff, List.forall₂_map_right_iff, List.forall₂_same]
      intro role hrole
      exact ofAssignment_pickText hpick ((horder role).mp hrole)
        (hkeys role ((horder role).mp hrole))
    obtain ⟨chosen, hchosen, hentries⟩ : ∃ chosen,
        (search.run t).choose (order.map fun role => ⟨role, pick role⟩) = .ok chosen ∧
          chosen.entries =
            (search.run t).implementations.names.map fun role => (role, pick role) := by
      refine exists_choose_of_picks hpick (fun s hs => ?_) fun role hrole => ?_
      · obtain ⟨role, hrole, rfl⟩ := List.mem_map.mp hs
        exact ⟨isSome_get?_run.mpr ((horder role).mp hrole), rfl⟩
      · rw [hnames] at hrole
        exact List.mem_map.mpr ⟨role, (horder role).mpr hrole, rfl⟩
    exact ⟨_, chosen, hread, ofArguments_emit_select hread, hchosen, hnames ▸ hentries⟩
  · intro role set hset hseveral hkey texts selections hread
    refine choose_ne_ok hset hseveral fun s hs => ?_
    rintro rfl
    -- what is selected for was read as the key of some text
    obtain ⟨text, -, htext⟩ := exists_of_mem_mapM hread hs
    exact hkey (isKey_of_ofAssignment htext)

/-! ## Two classes to pick from -/

/-- A tree with the artifacts of a class and of one that extends it. -/
def twoClassTree : FileTree :=
  ⟨.dir [(utf8Bytes "c", .dir [
    (utf8Bytes "X.class", .file bareClassFile),
    (utf8Bytes "Y.class", .file derivedClassFile)])], []⟩

/-- A search of the tree, for roles whose names are keys. -/
def keyedSearch : Search where
  config := ⟨[.ofString "c"], .ofList [("in out", "X"), ("Sink", "X")], .ofString "o"⟩
  valid := by rfl

/-- A search of the tree, for a role whose name is read as something else. -/
def misreadSearch : Search where
  config := ⟨[.ofString "c"], .ofList [("in=out", "X")], .ofString "o"⟩
  valid := by rfl

/-- The members that are found. -/
def twoClasses : Implementations :=
  ⟨[⟨⟨"X", .ofString "c/X.class"⟩, .concreteClass⟩, ⟨⟨"Y", .ofString "c/Y.class"⟩, .concreteClass⟩]⟩

/-- Both classes are members of every role of the first one. -/
theorem implementationsOf_twoClassTree (role : String) :
    implementationsOf (⟨twoClassTree, [.ofString "c"]⟩ : ClassPath).asSource
      (⟨twoClassTree, [.ofString "c"]⟩ : ClassPath).classes.1 ⟨role, "X"⟩ = twoClasses :=
  implementationsOf_base_pair rfl role

theorem get?_run_keyedSearch {role : String} {set : Implementations}
    (h : (keyedSearch.run twoClassTree).implementations.get? role = some set) :
    set = twoClasses := by
  obtain ⟨type, htype, rfl⟩ := eq_implementationsOf_of_get? h
  have hmem := Roster.mem_entries_of_get? htype
  have hentries : keyedSearch.config.roles.entries = [("in out", "X"), ("Sink", "X")] := rfl
  have htype : type = "X" := by
    rw [hentries] at hmem
    simp only [List.mem_cons, Prod.mk.injEq, List.not_mem_nil, or_false] at hmem
    obtain ⟨-, rfl⟩ | ⟨-, rfl⟩ := hmem <;> rfl
  rw [htype]
  exact implementationsOf_twoClassTree role

/-- A pick of another class for each of the two roles. -/
def crossPick (role : String) : String :=
  if role = "Sink" then "X" else "Y"

theorem isPick_crossPick : (keyedSearch.run twoClassTree).IsPick crossPick := by
  intro role set hset
  rw [get?_run_keyedSearch hset, crossPick]
  split <;> decide

theorem get?_run_misreadSearch :
    (misreadSearch.run twoClassTree).implementations.get? "in=out" = some twoClasses := by
  rw [get?_run]
  exact congrArg some (implementationsOf_twoClassTree "in=out")

/-- Another class is picked for each of two roles, and the roles are given the other way round. The
role that is misread is not resolved by any texts. -/
theorem picks_resolve_twoClassTree :
    (∃ selections chosen,
      ["Sink=X", "in out=Y"].mapM Role.ofAssignment = .ok selections ∧
        (keyedSearch.run twoClassTree).choose selections = .ok chosen ∧
        chosen.entries = [("in out", "Y"), ("Sink", "X")]) ∧
      ∀ (texts : List String) selections, texts.mapM Role.ofAssignment = .ok selections →
        ∀ chosen, (misreadSearch.run twoClassTree).choose selections ≠ .ok chosen := by
  have hnames : keyedSearch.config.roles.names = ["in out", "Sink"] := rfl
  refine ⟨?_, (picks_resolve misreadSearch twoClassTree).2 "in=out" twoClasses
    get?_run_misreadSearch (by decide) fun h => h.noEquals (by decide)⟩
  obtain ⟨selections, chosen, hread, -, hchosen, hentries⟩ :=
    (picks_resolve keyedSearch twoClassTree).1 crossPick ["Sink", "in out"]
      (by
        rw [hnames]
        decide)
      isPick_crossPick
      (fun role => by
        rw [hnames]
        simp [or_comm])
  exact ⟨selections, chosen, hread, hchosen, hentries⟩

/-- The role that is misread: both classes can be picked for it and without a selection the choice
asks for one of them, but the text that picks `Y` is read as a selection for another role, which
ends in a fault. -/
theorem picks_not_resolve_misread :
    misreadSearch.config.accept = .ok () ∧
      misreadSearch.config.roles.names = ["in=out"] ∧
      (misreadSearch.run twoClassTree).IsPick (fun _ => "Y") ∧
      (misreadSearch.run twoClassTree).choose [] =
        .error (.config (.ambiguous "in=out" ["X", "Y"])) ∧
      [pickText (fun _ => "Y") "in=out"].mapM Role.ofAssignment = .ok [⟨"in", "out=Y"⟩] ∧
      (misreadSearch.run twoClassTree).choose [⟨"in", "out=Y"⟩] =
        .error (.config (.unknownRole "in")) := by
  have hentries : (misreadSearch.run twoClassTree).implementations.entries =
      [("in=out", twoClasses)] := by
    rw [entries_run]
    exact congrArg (fun set => [("in=out", set)]) (implementationsOf_twoClassTree "in=out")
  refine ⟨misreadSearch.valid, rfl, ?_, ?_, by decide, ?_⟩
  · intro role set hset
    have hmem := Roster.mem_entries_of_get? hset
    rw [hentries] at hmem
    cases List.mem_singleton.mp hmem
    decide
  · rw [Report.choose, hentries]
    decide
  · have hunknown : (misreadSearch.run twoClassTree).implementations.get? "in" = none := by
      rw [Roster.get?, hentries]
      decide
    rw [Report.choose, List.find?_cons_of_pos (by rw [hunknown]; rfl)]

end Search

end RoleWiring
