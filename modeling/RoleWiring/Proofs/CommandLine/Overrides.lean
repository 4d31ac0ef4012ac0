import RoleWiring.CommandLine.Run
import RoleWiring.Proofs.Assignment
import RoleWiring.Proofs.Configuration
import RoleWiring.Proofs.FileTree.Root
import RoleWiring.Proofs.Roster
import RoleWiring.Proofs.Search
import RoleWiring.Proofs.Selection

/-!
# Options over a configuration

A command is run with the configuration of its file and with its options over it. Roots in the
options replace all those of the file, and a role replaces the type of the same role or comes
behind the others. Only then does the configuration have to be valid. So options can mend
what is wrong in a file, and since no role with a blank half is read from a command line they
never spoil anything.

* `overrides_iff` — what the options make of a configuration;
* `configuration_eq_ok` — when a command gets a configuration, and which;
* `accept_overridden` — when the configuration is valid, said of the file and the options;
* `configuration_overridden` — the configuration of a command, how the options determine it, and
  when there is one.
-/

namespace RoleWiring

/-! ## The file -/

namespace Configuration

variable {t : FileTree} {path : Path} {file c : Configuration}

/-- The path stands for this configuration: the file there holds it, or no file is there and it is
the default one. -/
def IsGivenBy (t : FileTree) (path : Path) (c : Configuration) : Prop :=
  (t.status path = .error .notFound ∧ c = preset) ∨ read t path = .ok c

/-- That no file is there comes only of the path. -/
theorem read_eq_notFound_iff :
    read t path = .error (.io .notFound) ↔ t.status path = .error .notFound := by
  rw [read, FileTree.read]
  cases hstatus : t.status path with
  | error e => simp
  | ok node =>
    cases node with
    | file content =>
      dsimp only
      cases utf8Text? content with
      | none => simp
      | some text =>
        dsimp only [readJson]
        split <;> simp
    | dir entries => simp
    | link target => simp

theorem readOrPreset_eq_ok : readOrPreset t path = .ok c ↔ IsGivenBy t path c := by
  rw [readOrPreset, IsGivenBy, ← read_eq_notFound_iff]
  split
  · next hmissing => simp [hmissing, eq_comm]
  · next hother => exact (or_iff_right fun h => hother h.1).symm

/-- A path stands for one configuration at most. -/
theorem IsGivenBy.unique {c' : Configuration} (h : IsGivenBy t path c) (h' : IsGivenBy t path c') :
    c = c' :=
  Except.ok.inj ((readOrPreset_eq_ok.mpr h).symm.trans (readOrPreset_eq_ok.mpr h'))

/-- A role is in the list exactly if its name has its type. -/
theorem mem_roleList_iff {role : Role} :
    role ∈ c.roleList ↔ c.roles.get? role.name = some role.type := by
  rw [roleList, List.mem_map]
  refine ⟨?_, ?_⟩
  · rintro ⟨e, he, rfl⟩
    exact Roster.get?_of_mem_entries he
  · intro h
    exact ⟨_, Roster.mem_entries_of_get? h, rfl⟩

/-- Roots replace the roots and nothing else. -/
theorem replaceRoots_eq (roots : List Path) (c : Configuration) :
    c.replaceRoots roots =
      { c with classPath := if roots = [] then c.classPath else roots } := by
  rw [replaceRoots]
  split <;> rfl

end Configuration

/-! ## The options -/

namespace SourceOptions

variable {t : FileTree} {o : SourceOptions} {file c c' : Configuration}

/-- The configuration of the file with the options over it. -/
structure Overrides (o : SourceOptions) (file c : Configuration) : Prop where
  /-- the roots are those of the options, and without any those of the file -/
  classPath : c.classPath = if o.classPath = [] then file.classPath else o.classPath
  /-- the roles of the file come first, then the new ones in the order in which they first occur -/
  names : c.roles.names =
    file.roles.names ++ ((o.roles.map Role.name).removeAll file.roles.names).eraseDups
  /-- a role has the type of the last option for it, and without one that of the file -/
  types : ∀ name, c.roles.get? name = (lastSelected? o.roles name).or (file.roles.get? name)
  /-- the output is that of the file -/
  output : c.output = file.output

/-- There is only one such configuration. -/
theorem Overrides.unique (h : o.Overrides file c) (h' : o.Overrides file c') : c = c' := by
  have hroots : c.classPath = c'.classPath := h.classPath.trans h'.classPath.symm
  have hroles : c.roles = c'.roles :=
    Roster.ext_get? (h.names.trans h'.names.symm) fun name =>
      (h.types name).trans (h'.types name).symm
  have houtput : c.output = c'.output := h.output.trans h'.output.symm
  cases c
  cases c'
  simp_all

theorem overrides_self (o : SourceOptions) (file : Configuration) :
    o.Overrides file ((file.replaceRoots o.classPath).addRoles o.roles) := by
  rw [Configuration.replaceRoots_eq, Configuration.addRoles]
  refine ⟨rfl, ?_, ?_, rfl⟩
  · rw [Roster.names_insertAll_eq_append, List.map_map]
    rfl
  · intro name
    rw [Roster.get?_insertAll, lastSelected?_eq, List.filter_map, List.getLast?_map,
      Option.map_map]
    rfl

/-- What the options make of a configuration. -/
theorem overrides_iff :
    o.Overrides file c ↔ c = (file.replaceRoots o.classPath).addRoles o.roles := by
  refine ⟨fun h => h.unique (overrides_self o file), ?_⟩
  rintro rfl
  exact overrides_self o file

/-- A command gets a configuration if the path stands for one and it is valid with the options over
it. -/
theorem configuration_eq_ok : o.configuration t = .ok c ↔
    ∃ file, Configuration.IsGivenBy t o.config file ∧ o.Overrides file c ∧ c.accept = .ok () := by
  rw [configuration, bind_eq_ok]
  simp only [Configuration.readOrPreset_eq_ok, bind_eq_ok, overrides_iff]
  refine ⟨?_, ?_⟩
  · rintro ⟨file, hfile, _, haccept, hc⟩
    cases hc
    exact ⟨file, hfile, rfl, haccept⟩
  · rintro ⟨file, hfile, rfl, haccept⟩
    exact ⟨file, hfile, (), haccept, rfl⟩

/-- No role with a blank name or type comes from a command line. -/
theorem not_blank_of_ofGiven {given : List Given} (h : ofGiven given = .ok o) {role : Role}
    (hrole : role ∈ o.roles) : isBlank role.name = false ∧ isBlank role.type = false := by
  obtain ⟨config, -, h⟩ := bind_eq_ok.mp h
  obtain ⟨classPath, -, h⟩ := bind_eq_ok.mp h
  obtain ⟨roles, hroles, h⟩ := bind_eq_ok.mp h
  cases h
  obtain ⟨text, -, htext⟩ := exists_of_mem_mapM hroles hrole
  rw [roleValue] at htext
  split at htext
  · next hrole =>
    cases htext
    exact not_blank_of_ofAssignment hrole
  · cases htext

/-- With options from a command line, a configuration is valid if the file or the options have a
root, no role of the file has a blank name, and an option gives a type to those with a blank one. -/
theorem accept_overridden {given : List Given} (hgiven : ofGiven given = .ok o)
    (h : o.Overrides file c) :
    c.accept = .ok () ↔ (file.classPath ≠ [] ∨ o.classPath ≠ []) ∧
      ∀ role ∈ file.roleList, isBlank role.name = false ∧
        (isBlank role.type = false ∨ role.name ∈ o.roles.map Role.name) := by
  have hroots : c.classPath ≠ [] ↔ file.classPath ≠ [] ∨ o.classPath ≠ [] := by
    rw [h.classPath]
    split <;> simp_all
  rw [Configuration.accept_eq_ok, hroots]
  refine and_congr_right fun _ => ⟨?_, ?_⟩
  · intro hvalid role hrole
    rw [Configuration.mem_roleList_iff] at hrole
    have hget := h.types role.name
    cases hlast : lastSelected? o.roles role.name with
    | none =>
      -- the role is still the one of the file
      rw [hlast, Option.none_or, hrole] at hget
      obtain ⟨hname, htype⟩ := hvalid role (Configuration.mem_roleList_iff.mpr hget)
      exact ⟨hname, .inl htype⟩
    | some type =>
      rw [hlast, Option.some_or] at hget
      have hmem := List.mem_map_of_mem (f := Role.name) (mem_of_lastSelected? hlast)
      exact ⟨(hvalid ⟨role.name, type⟩ (Configuration.mem_roleList_iff.mpr hget)).1, .inr hmem⟩
  · intro hfile role hrole
    rw [Configuration.mem_roleList_iff, h.types] at hrole
    rcases Option.or_eq_some_iff.mp hrole with hlast | ⟨hnone, hget⟩
    · exact not_blank_of_ofGiven hgiven (mem_of_lastSelected? hlast)
    · obtain ⟨hname, htype⟩ := hfile role (Configuration.mem_roleList_iff.mpr hget)
      have hnot : role.name ∉ o.roles.map Role.name := by
        simpa using lastSelected?_eq_none_iff.mp hnone
      exact ⟨hname, htype.resolve_right hnot⟩

/-- Roles that are given twice count once. -/
theorem configuration_repeated (o : SourceOptions) (t : FileTree) :
    configuration { o with roles := o.roles ++ o.roles } t = o.configuration t := by
  have hroles : ∀ file : Configuration,
      file.addRoles (o.roles ++ o.roles) = file.addRoles o.roles := by
    intro file
    rw [Configuration.addRoles, List.map_append, Roster.insertAll_append, Roster.insertAll_idem,
      ← Configuration.addRoles]
  simp only [configuration, hroles]

end SourceOptions

/-- A command gets a configuration exactly if a file holds one or is missing and, with the options
over it, there is a root and no role has a blank name or type. The options say of every
configuration what it becomes, and giving the same roles twice says no more. What a command gets
can be searched with.

Where the options are read from a command line, success comes down to this: the file or the options
have a root, no role of the file has a blank name, and an option gives a type to those that have a
blank one. So options never make a valid configuration invalid. -/
theorem configuration_overridden (o : SourceOptions) (t : FileTree) :
    (∀ c, o.configuration t = .ok c ↔
      ∃ file, Configuration.IsGivenBy t o.config file ∧ o.Overrides file c ∧ c.classPath ≠ [] ∧
        ∀ role ∈ c.roleList, isBlank role.name = false ∧ isBlank role.type = false) ∧
    (∀ file, ∃! c, o.Overrides file c) ∧
    (∀ c, o.configuration t = .ok c → ∃ search, Search.ofConfig c = .ok search ∧
      search.config = c) ∧
    SourceOptions.configuration { o with roles := o.roles ++ o.roles } t = o.configuration t ∧
    ∀ given, SourceOptions.ofGiven given = .ok o →
      ((∃ c, o.configuration t = .ok c) ↔
        ∃ file, Configuration.IsGivenBy t o.config file ∧
          (file.classPath ≠ [] ∨ o.classPath ≠ []) ∧
          ∀ role ∈ file.roleList, isBlank role.name = false ∧
            (isBlank role.type = false ∨ role.name ∈ o.roles.map Role.name)) ∧
      ∀ file, Configuration.IsGivenBy t o.config file → file.accept = .ok () →
        ∃ c, o.configuration t = .ok c := by
  refine ⟨?_, ?_, ?_, SourceOptions.configuration_repeated o t, ?_⟩
  · intro c
    simp only [SourceOptions.configuration_eq_ok, Configuration.accept_eq_ok]
  · intro file
    exact ⟨_, SourceOptions.overrides_self o file, fun c h =>
      h.unique (SourceOptions.overrides_self o file)⟩
  · intro c h
    obtain ⟨file, -, -, haccept⟩ := SourceOptions.configuration_eq_ok.mp h
    exact ⟨⟨c, haccept⟩, Search.ofConfig_eq_ok haccept, rfl⟩
  · intro given hgiven
    have hsuccess : (∃ c, o.configuration t = .ok c) ↔
        ∃ file, Configuration.IsGivenBy t o.config file ∧
          (file.classPath ≠ [] ∨ o.classPath ≠ []) ∧
          ∀ role ∈ file.roleList, isBlank role.name = false ∧
            (isBlank role.type = false ∨ role.name ∈ o.roles.map Role.name) := by
      simp only [SourceOptions.configuration_eq_ok]
      refine ⟨?_, ?_⟩
      · rintro ⟨c, file, hfile, hc, haccept⟩
        exact ⟨file, hfile, (SourceOptions.accept_overridden hgiven hc).mp haccept⟩
      · rintro ⟨file, hfile, hvalid⟩
        have hc := SourceOptions.overrides_self o file
        exact ⟨_, file, hfile, hc, (SourceOptions.accept_overridden hgiven hc).mpr hvalid⟩
    refine ⟨hsuccess, ?_⟩
    intro file hfile haccept
    obtain ⟨hroots, hroles⟩ := Configuration.accept_eq_ok.mp haccept
    refine hsuccess.mpr ⟨file, hfile, .inl hroots, ?_⟩
    intro role hrole
    exact ⟨(hroles role hrole).1, .inl (hroles role hrole).2⟩

/-! ## A file that is mended -/

/-- A configuration without roots and with a role without a type. -/
def faultyConfig : Configuration :=
  ⟨[], .ofList [("R", " "), ("S", "Y")], .ofString "o"⟩

/-- The file of this configuration. -/
def faultyText : String :=
  "\x7b\"classpath\":[],\"roles\":\x7b\"R\":\" \",\"S\":\"Y\"\x7d,\"output\":\"o\"\x7d"

/-- A tree with this file only. -/
def faultyTree : FileTree :=
  ⟨.dir [(utf8Bytes "svcwire.json", .file (utf8Bytes faultyText))], []⟩

/-- Options that mend the file and add a role. -/
def mendingOptions : SourceOptions :=
  ⟨Configuration.presetFile, [.ofString "c"], [⟨"T", "Z"⟩, ⟨"R", "X"⟩]⟩

theorem ofGiven_mendingOptions :
    SourceOptions.ofGiven [⟨.role, "T = Z"⟩, ⟨.classpath, "c"⟩, ⟨.role, " R=X"⟩] =
      .ok mendingOptions := by
  decide

theorem read_faultyTree :
    Configuration.read faultyTree Configuration.presetFile = .ok faultyConfig := by
  have hread : faultyTree.read Configuration.presetFile = .ok (utf8Bytes faultyText) :=
    FileTree.read_of_at? [utf8Bytes "svcwire.json"] rfl rfl rfl
  have htext : faultyText = faultyConfig.toJson.compact := by decide
  have hparse : Json.parse? faultyText = some faultyConfig.toJson := by
    rw [htext, Json.parse?_compact faultyConfig.textual_toJson]
  exact Configuration.read_of_text hread hparse rfl

/-- The file alone would be refused, and with the options there is a configuration, in which the
role with the new type keeps its place. -/
theorem configuration_overridden_faultyTree :
    faultyConfig.accept = .error .noRoots ∧
      ∃ c, mendingOptions.configuration faultyTree = .ok c ∧ c.classPath = [.ofString "c"] ∧
        c.roles.names = ["R", "S", "T"] ∧ c.roles.get? "R" = some "X" ∧
        c.roles.get? "S" = some "Y" := by
  obtain ⟨hwhich, -, -, -, hwhen⟩ := configuration_overridden mendingOptions faultyTree
  obtain ⟨hsuccess, -⟩ := hwhen _ ofGiven_mendingOptions
  obtain ⟨c, hc⟩ := hsuccess.mpr ⟨faultyConfig, .inr read_faultyTree, .inr (by decide), by decide⟩
  obtain ⟨file, hfile, hover, -⟩ := (hwhich c).mp hc
  obtain rfl := hfile.unique (.inr read_faultyTree)
  refine ⟨rfl, c, hc, hover.classPath, hover.names.trans ?_, (hover.types "R").trans ?_,
    (hover.types "S").trans ?_⟩ <;> rfl

end RoleWiring
