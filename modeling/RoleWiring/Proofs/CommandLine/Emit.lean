import Mathlib.Data.List.Forall2
import RoleWiring.CommandLine.Run
import RoleWiring.Proofs.ClassPath.Roots
import RoleWiring.Proofs.Configuration
import RoleWiring.Proofs.Except
import RoleWiring.Proofs.Scan
import RoleWiring.Proofs.Search
import RoleWiring.Proofs.Selection
import RoleWiring.Proofs.Wiring

/-!
# What a service file says

A command line that asks for the service file ends with the exit code 0 only if every
stage went well: the configuration, the run, the choice and the write. What the file
says then holds on the files as they were before the write.

* `runEmit_success` — the stages;
* `emit_sound` — the file and what it says.
-/

namespace RoleWiring

/-- The stages of a command that wrote the service file. -/
theorem runEmit_success {t : FileTree} {source : SourceOptions} {selections : List Role}
    {output : Option Path} (h : (runEmit t source selections output).code = 0) :
    ∃ (config : Configuration) (search : Search) (chosen : Roster String),
      source.configuration t = .ok config ∧
        search.config = config.replaceOutput output ∧
        (search.run t).choose selections = .ok chosen ∧
        (Wiring.ofChosen chosen).write t (config.replaceOutput output).output =
          ((runEmit t source selections output).tree, none) := by
  unfold runEmit at h ⊢
  split at h
  · cases h
  · next search hsearch =>
    obtain ⟨config, hconfig, hofConfig⟩ := bind_eq_ok.mp hsearch
    have hreplaced := Search.config_of_ofConfig hofConfig
    dsimp only at h
    split at h
    · cases h
    · next chosen hchosen =>
      split at h
      · next t' hwrite =>
        refine ⟨config, search, chosen, hconfig, hreplaced, hchosen, ?_⟩
        dsimp only
        rw [hchosen]
        dsimp only
        rw [← hreplaced, hwrite]
        rfl
      · cases h

/-- The class path of a configuration in a file tree. -/
def Configuration.classPathIn (config : Configuration) (t : FileTree) : ClassPath :=
  ⟨t, config.classPath⟩

/-- A class may fill a role of this type: it was scanned, it declares itself a concrete class, the
type is on the class path, and it is reached from the class. -/
structure Fills (cp : ClassPath) (type className : String) : Prop where
  /-- the scan yields the class -/
  scanned : ∃ path, ⟨className, path⟩ ∈ cp.classes.1
  /-- the artifact of the class declares it and makes it a concrete class -/
  declared : ∃ d, cp.lookUp className = .ok d ∧ d.name = className ∧ d.kind = .concreteClass
  /-- the type of the role is on the class path -/
  found : ¬ cp.asSource.Lacks type
  /-- the type is the class or above it -/
  above : cp.asSource.Above className type

/-- What is chosen for a role may fill it, and it is what was selected last, if anything was. -/
theorem fills_of_choose {search : Search} {t : FileTree} {selections : List Role}
    {chosen : Roster String} (h : (search.run t).choose selections = .ok chosen) :
    chosen.names = search.config.roles.names ∧
      ∀ role className, (role, className) ∈ chosen.entries →
        ∃ type, search.config.roles.get? role = some type ∧
          Fills (search.classPath t) type className ∧
          ∀ s, lastSelected? selections role = some s → s = className := by
  obtain ⟨-, hall⟩ := choose_eq_ok.mp h
  rw [Search.entries_run] at hall
  obtain ⟨hnames, hchoices⟩ := choices_of_forall₂ hall
  rw [List.map_map] at hnames
  refine ⟨hnames, fun role className hmem => ?_⟩
  obtain ⟨set, hset, hmember⟩ := hchoices _ hmem
  obtain ⟨⟨name, type⟩, htype, hentry⟩ := List.mem_map.mp hset
  cases hentry
  obtain ⟨⟨m, hm, hname, hkind⟩, hselected⟩ := exists_member_of_chooseMember hmember
  obtain ⟨hfound, hscanned, d, hlookUp, habove, hsame⟩ := mem_implementationsOf.mp hm
  dsimp only at hname hselected hfound habove
  subst hname
  refine ⟨type, Roster.get?_of_mem_entries htype, ⟨⟨_, hscanned⟩, ⟨d, hlookUp, ?_, ?_⟩, hfound,
    habove⟩, hselected⟩
  · exact (ClassPath.exists_content_of_lookUp hlookUp).1
  · rw [← hsame, hkind]

/-- If a command line that asks for the service file ends with the exit code 0, the output file
holds a JSON object with the roles of the effective configuration, each once and in order. The
value of a role is a list of one service, whose identifier is the name of the role in lower case.
Its class may fill the role, on the files as they were before, and it is the one that was selected
last for the role, if any was. -/
theorem emit_sound {t : FileTree} {arguments : List String} {source : SourceOptions}
    {selections : List Role} {output : Option Path}
    (hrequest : Request.ofArguments arguments = .ok (.run (.emit source selections output)))
    (hcode : (runArguments t arguments).code = 0) :
    ∃ (config : Configuration) (chosen : List (String × String)) (text : String),
      source.configuration t = .ok config ∧
        (runArguments t arguments).tree.read (config.replaceOutput output).output =
          .ok (utf8Bytes text) ∧
        Json.parse? text = some (.ofMembers (chosen.map fun e =>
          (e.1, .array [.ofMembers
            [("class", .ofString e.2), ("id", .ofString (lowerCase e.1))]]))) ∧
        chosen.map Prod.fst = config.roles.names ∧ config.roles.names.Nodup ∧
        ∀ role className, (role, className) ∈ chosen →
          ∃ type, config.roles.get? role = some type ∧
            Fills (config.classPathIn t) type className ∧
            ∀ s, (selections.filter fun s => s.name == role).getLast? = some s →
              s.type = className := by
  have hrun : runArguments t arguments = runEmit t source selections output := by
    unfold runArguments
    rw [hrequest]
    rfl
  rw [hrun] at hcode ⊢
  obtain ⟨config, search, chosen, hconfig, hsearch, hchosen, hwrite⟩ := runEmit_success hcode
  obtain ⟨hnames, hfills⟩ := fills_of_choose hchosen
  -- a replaced output leaves the roles and the class path as they were
  have hroles : search.config.roles = config.roles := by
    rw [hsearch]
    rfl
  have hpath : search.classPath t = config.classPathIn t := by
    unfold Search.classPath
    rw [hsearch]
    rfl
  rw [hroles] at hnames
  refine ⟨config, chosen.entries, _, hconfig, Wiring.read_of_write hwrite, ?_, hnames,
    config.roles.nodup, fun role className hmem => ?_⟩
  · rw [Wiring.parse?_text, Wiring.toJson_ofChosen]
  · obtain ⟨type, htype, hfill, hselected⟩ := hfills role className hmem
    rw [hroles] at htype
    rw [hpath] at hfill
    refine ⟨type, htype, hfill, fun s hs => hselected s.type ?_⟩
    rw [lastSelected?_eq, hs]
    rfl

/-! ## A project of two classes -/

/-- The artifact of a class `X` without supertypes. -/
def bareClassFile : Bytes :=
  [0xca, 0xfe, 0xba, 0xbe, 0, 0, 0, 52, 0, 3, 1, 0, 1, 88, 7, 0, 1, 0, 0x21, 0, 2, 0, 0, 0, 0, 0, 0,
    0, 0, 0, 0]

/-- The artifact of a class `Y` that extends `X`. -/
def derivedClassFile : Bytes :=
  [0xca, 0xfe, 0xba, 0xbe, 0, 0, 0, 52, 0, 5, 1, 0, 1, 89, 7, 0, 1, 1, 0, 1, 88, 7, 0, 3, 0, 0x21,
    0, 2, 0, 4, 0, 0, 0, 0, 0, 0, 0, 0]

/-- A directory with both artifacts. -/
def pairDirectory : Node :=
  .dir [(utf8Bytes "X.class", .file bareClassFile), (utf8Bytes "Y.class", .file derivedClassFile)]

/-- A class path over one directory `c`. -/
def onePath (es : List (Bytes × Node)) : ClassPath :=
  ⟨⟨.dir es, []⟩, [.ofString "c"]⟩

section Pair

variable {es : List (Bytes × Node)}
  (h : (Node.dir es).child? (utf8Bytes "c") = some pairDirectory)

include h

/-- The scan finds both classes. -/
theorem classes_pair :
    (onePath es).classes.1 =
      [⟨"X", .ofString "c/X.class"⟩, ⟨"Y", .ofString "c/Y.class"⟩] := by
  have hat : (Node.dir es).at? [utf8Bytes "c"] = some pairDirectory := by
    rw [Node.at?, h]
    rfl
  have henter : enterRoot ⟨.dir es, []⟩ (.ofString "c") = .ok ⟨maxLinks, [utf8Bytes "c"]⟩ :=
    FileTree.enterRoot_of_at? [utf8Bytes "c"] rfl rfl hat
  rw [classes_fst]
  show unshadowed [] ([Path.ofString "c"].flatMap (artifactsUnder ⟨.dir es, []⟩)) = _
  rw [List.flatMap_singleton, artifactsUnder_of_enterRoot henter hat (FileTree.filesBelow_eq ..)]
  rfl

theorem lookUp_base_pair :
    (onePath es).lookUp "X" = .ok ⟨"X", .concreteClass, none, []⟩ := by
  have hat : (Node.dir es).at? [utf8Bytes "c", utf8Bytes "X.class"] =
      some (.file bareClassFile) := by
    rw [Node.at?, h]
    rfl
  have hread : (⟨.dir es, []⟩ : FileTree).read (.ofString "c/X.class") = .ok bareClassFile :=
    FileTree.read_of_at? [utf8Bytes "c", utf8Bytes "X.class"] rfl rfl hat
  have hparse : Declaration.ofBytes bareClassFile = .ok ⟨"X", .concreteClass, none, []⟩ := by
    decide +kernel
  have hbelow : artifactPath? "X" = some (.ofString "X.class") := by decide
  exact ClassPath.lookUp_of_declares hread hparse (ClassPath.find?_cons_of_read [] hbelow hread)

theorem lookUp_derived_pair :
    (onePath es).lookUp "Y" = .ok ⟨"Y", .concreteClass, some "X", []⟩ := by
  have hat : (Node.dir es).at? [utf8Bytes "c", utf8Bytes "Y.class"] =
      some (.file derivedClassFile) := by
    rw [Node.at?, h]
    rfl
  have hread : (⟨.dir es, []⟩ : FileTree).read (.ofString "c/Y.class") = .ok derivedClassFile :=
    FileTree.read_of_at? [utf8Bytes "c", utf8Bytes "Y.class"] rfl rfl hat
  have hparse : Declaration.ofBytes derivedClassFile =
      .ok ⟨"Y", .concreteClass, some "X", []⟩ := by
    decide +kernel
  have hbelow : artifactPath? "Y" = some (.ofString "Y.class") := by decide
  exact ClassPath.lookUp_of_declares hread hparse (ClassPath.find?_cons_of_read [] hbelow hread)

/-- Nothing is above the class without supertypes. -/
theorem not_above_base_pair : ¬ (onePath es).asSource.Above "X" "Y" := by
  intro habove
  rcases Relation.ReflTransGen.cases_head habove with heq | ⟨p, ⟨d, hd, hp⟩, -⟩
  · exact absurd heq (by decide)
  · cases (lookUp_base_pair h).symm.trans hd
    simp at hp

/-- Both classes may fill a role of the first one. -/
theorem implementationsOf_base_pair (role : String) :
    implementationsOf (onePath es).asSource (onePath es).classes.1 ⟨role, "X"⟩ =
      ⟨[⟨⟨"X", .ofString "c/X.class"⟩, .concreteClass⟩,
        ⟨⟨"Y", .ofString "c/Y.class"⟩, .concreteClass⟩]⟩ := by
  have hbase : implementationOf? (onePath es).asSource "X" ⟨"X", .ofString "c/X.class"⟩ =
      some ⟨⟨"X", .ofString "c/X.class"⟩, .concreteClass⟩ :=
    implementationOf?_eq_some.mpr ⟨_, lookUp_base_pair h, .refl, rfl⟩
  have hderived : implementationOf? (onePath es).asSource "X" ⟨"Y", .ofString "c/Y.class"⟩ =
      some ⟨⟨"Y", .ofString "c/Y.class"⟩, .concreteClass⟩ :=
    implementationOf?_eq_some.mpr ⟨_, lookUp_derived_pair h,
      .single ⟨_, lookUp_derived_pair h, .inl rfl⟩, rfl⟩
  rw [implementationsOf, if_neg (not_lacks_of_lookUp (lookUp_base_pair h)), classes_pair h,
    List.filterMap_cons, hbase, List.filterMap_cons, hderived]
  rfl

/-- One of them may fill a role of the second one. -/
theorem implementationsOf_derived_pair (role : String) :
    implementationsOf (onePath es).asSource (onePath es).classes.1 ⟨role, "Y"⟩ =
      ⟨[⟨⟨"Y", .ofString "c/Y.class"⟩, .concreteClass⟩]⟩ := by
  have hbase : implementationOf? (onePath es).asSource "Y" ⟨"X", .ofString "c/X.class"⟩ =
      none := by
    have hlookUp : (onePath es).asSource.lookUp "X" = _ := lookUp_base_pair h
    rw [implementationOf?, hlookUp]
    exact if_neg (not_above_base_pair h)
  have hderived : implementationOf? (onePath es).asSource "Y" ⟨"Y", .ofString "c/Y.class"⟩ =
      some ⟨⟨"Y", .ofString "c/Y.class"⟩, .concreteClass⟩ :=
    implementationOf?_eq_some.mpr ⟨_, lookUp_derived_pair h, .refl, rfl⟩
  rw [implementationsOf, if_neg (not_lacks_of_lookUp (lookUp_derived_pair h)), classes_pair h,
    List.filterMap_cons, hbase, List.filterMap_cons, hderived]
  rfl

end Pair

/-- A configuration with one root and one role. -/
def oneRoleConfig : Configuration :=
  ⟨[.ofString "c"], .ofList [("R", "X")], .ofString "o"⟩

/-- The file of this configuration. -/
def oneRoleText : String :=
  "\x7b\"classpath\":[\"c\"],\"roles\":\x7b\"R\":\"X\"\x7d,\"output\":\"o\"\x7d"

/-- A tree with the file of this configuration and the artifacts of the classes. -/
def pairTree : FileTree :=
  ⟨.dir [
    (utf8Bytes "svcwire.json", .file (utf8Bytes oneRoleText)),
    (utf8Bytes "c", pairDirectory)], []⟩

/-- A command line that adds a role, selects for the other one and writes elsewhere. -/
def pairArguments : List String :=
  ["emit", "--role", "S=Y", "--select", "R=Y", "-o", "p"]

/-- Where the command line has its configuration from. -/
def pairSource : SourceOptions :=
  ⟨Configuration.presetFile, [], [⟨"S", "Y"⟩]⟩

/-- The configuration that takes effect. -/
def pairConfig : Configuration :=
  ⟨[.ofString "c"], .ofList [("R", "X"), ("S", "Y")], .ofString "o"⟩

theorem ofArguments_pairArguments :
    Request.ofArguments pairArguments =
      .ok (.run (.emit pairSource [⟨"R", "Y"⟩] (some (.ofString "p")))) := by
  decide

theorem configuration_pairTree : pairSource.configuration pairTree = .ok pairConfig := by
  have hread : pairTree.read Configuration.presetFile = .ok (utf8Bytes oneRoleText) :=
    FileTree.read_of_at? [utf8Bytes "svcwire.json"] rfl rfl rfl
  have htext : oneRoleText = oneRoleConfig.toJson.compact := by decide
  have hparse : Json.parse? oneRoleText = some oneRoleConfig.toJson := by
    rw [htext, Json.parse?_compact oneRoleConfig.textual_toJson]
  have hfile : Configuration.read pairTree Configuration.presetFile = .ok oneRoleConfig :=
    Configuration.read_of_text hread hparse rfl
  rw [SourceOptions.configuration, Configuration.readOrPreset, pairSource, hfile]
  decide

/-- The class path that takes effect. -/
theorem classPathIn_pairTree : ∃ es, pairConfig.classPathIn pairTree = onePath es ∧
    (Node.dir es).child? (utf8Bytes "c") = some pairDirectory :=
  ⟨_, rfl, rfl⟩

/-- The run finds both classes for the first role, and one of them for the second. -/
theorem entries_run_pairTree (search : Search)
    (h : search.config = pairConfig.replaceOutput (some (.ofString "p"))) :
    (search.run pairTree).implementations.entries =
      [("R", ⟨[⟨⟨"X", .ofString "c/X.class"⟩, .concreteClass⟩,
          ⟨⟨"Y", .ofString "c/Y.class"⟩, .concreteClass⟩]⟩),
        ("S", ⟨[⟨⟨"Y", .ofString "c/Y.class"⟩, .concreteClass⟩]⟩)] := by
  obtain ⟨es, hcp, hc⟩ := classPathIn_pairTree
  have hpath : search.classPath pairTree = onePath es := by
    rw [← hcp, Search.classPath, h]
    rfl
  rw [Search.entries_run, hpath, h]
  show [("R", implementationsOf _ _ ⟨"R", "X"⟩), ("S", implementationsOf _ _ ⟨"S", "Y"⟩)] = _
  rw [implementationsOf_base_pair hc, implementationsOf_derived_pair hc]

theorem code_pairTree : (runArguments pairTree pairArguments).code = 0 := by
  have haccept : (pairConfig.replaceOutput (some (.ofString "p"))).accept = .ok () := rfl
  have hchoose : ((⟨_, haccept⟩ : Search).run pairTree).choose [⟨"R", "Y"⟩] =
      .ok (.ofList [("R", "Y"), ("S", "Y")]) := by
    have hentries := entries_run_pairTree ⟨_, haccept⟩ rfl
    refine choose_eq_ok.mpr ⟨?_, ?_⟩
    · simp only [Roster.get?, hentries]
      decide
    · rw [hentries]
      exact .cons rfl (.cons rfl .nil)
  have hsource : (pairSource.configuration pairTree >>= fun config =>
      Search.ofConfig (config.replaceOutput (some (.ofString "p")))) = .ok ⟨_, haccept⟩ :=
    bind_eq_ok.mpr ⟨pairConfig, configuration_pairTree, Search.ofConfig_eq_ok haccept⟩
  obtain ⟨t', hwritten⟩ : ∃ t', (Wiring.ofChosen (.ofList [("R", "Y"), ("S", "Y")])).write pairTree
      (.ofString "p") = (t', none) := by
    obtain ⟨t', hwrite⟩ : ∃ t', pairTree.write (.ofString "p") _ = .ok t' :=
      FileTree.exists_write_of_entryAt rfl rfl rfl _
    have habove : (Path.ofString "p").parent? = some (.ofString "") := by decide
    have hparents : pairTree.createParents (.ofString "p") = (pairTree, none) := by
      rw [FileTree.createParents, habove]
      dsimp only
      rw [FileTree.createDirs]
      rfl
    refine ⟨t', ?_⟩
    rw [Wiring.write, hparents]
    dsimp only
    rw [hwrite]
  have houtput : (pairConfig.replaceOutput (some (.ofString "p"))).output = .ofString "p" := rfl
  rw [runArguments, ofArguments_pairArguments]
  show (runEmit pairTree pairSource [⟨"R", "Y"⟩] (some (.ofString "p"))).code = 0
  rw [runEmit, hsource]
  dsimp only
  rw [hchoose]
  dsimp only
  rw [houtput, hwritten]
  rfl

/-- In a project of two classes, one of which extends the other, the service file is written. It has
both roles: the selected class for the first one, and for the second the one class that may fill
it. -/
theorem emit_sound_pairTree :
    (runArguments pairTree pairArguments).code = 0 ∧
      ∃ text, (runArguments pairTree pairArguments).tree.read (.ofString "p") =
          .ok (utf8Bytes text) ∧
        Json.parse? text = some (.ofMembers [
          ("R", .array [.ofMembers [("class", .ofString "Y"), ("id", .ofString "r")]]),
          ("S", .array [.ofMembers [("class", .ofString "Y"), ("id", .ofString "s")]])]) := by
  obtain ⟨config, chosen, text, hconfig, hread, hparse, hnames, -, hfills⟩ :=
    emit_sound ofArguments_pairArguments code_pairTree
  cases configuration_pairTree.symm.trans hconfig
  obtain ⟨⟨first, c⟩, rest, rfl, hfirst, hrest⟩ := List.map_eq_cons_iff.mp hnames
  obtain ⟨⟨second, c'⟩, rest', rfl, hsecond, hrest'⟩ := List.map_eq_cons_iff.mp hrest
  cases hfirst
  cases hsecond
  cases List.map_eq_nil_iff.mp hrest'
  -- the first role has what was selected
  obtain ⟨_, -, -, hselected⟩ := hfills "R" c (List.mem_cons_self ..)
  cases hselected ⟨"R", "Y"⟩ rfl
  -- the second one has a class of the scan that has the type above it
  obtain ⟨type, htype, hfill, -⟩ := hfills "S" c' (by simp)
  cases Option.some.inj htype
  obtain ⟨es, hcp, hc⟩ := classPathIn_pairTree
  rw [hcp] at hfill
  obtain ⟨path, hscanned⟩ := hfill.scanned
  rw [classes_pair hc] at hscanned
  simp only [List.mem_cons, Artifact.mk.injEq, List.not_mem_nil, or_false] at hscanned
  obtain ⟨rfl, -⟩ | ⟨rfl, -⟩ := hscanned
  · exact absurd hfill.above (not_above_base_pair hc)
  · have hids : lowerCase "R" = "r" ∧ lowerCase "S" = "s" := by decide
    simp only [List.map_cons, List.map_nil, hids] at hparse
    exact ⟨code_pairTree, text, hread, hparse⟩

end RoleWiring
