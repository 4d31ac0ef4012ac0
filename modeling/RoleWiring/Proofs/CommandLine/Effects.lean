import RoleWiring.CommandLine.Run
import RoleWiring.Proofs.FileTree.Directories
import RoleWiring.Proofs.Search
import RoleWiring.Proofs.Wiring

/-!
# What a command line changes

Only two commands change files, and each changes one file at most: the one to which its output path
leads. The command that writes the service file also makes the directories above it. A command line
that fails leaves every file as it was, since the write comes last.

* `Command.Effect` — what each command may change;
* `Command.effect_run`, `Command.addsDirs_run` — it changes nothing else, and no file if it fails;
* `runArguments_effect` — the same for all command lines.
-/

namespace RoleWiring

variable {t t' : FileTree}

/-! ## Writing the service file -/

namespace Wiring

variable {w : Wiring} {p : Path} {fault : Fault}

/-- A write of the service file is in two parts. -/
theorem write_eq_ok (h : w.write t p = (t', none)) :
    ∃ made content, t.createParents p = (made, none) ∧ made.write p content = .ok t' := by
  unfold write at h
  split at h
  · cases h
  · next made hmade =>
    split at h
    · cases h
    · next hwrite =>
      cases h
      exact ⟨made, _, hmade, hwrite⟩

/-- A write of the service file that fails may have made directories. -/
theorem addsDirs_of_write (h : w.write t p = (t', some fault)) :
    FileTree.AddsDirs t t' p.Inside := by
  have hparents := FileTree.addsDirs_createParents t p
  unfold write at h
  split at h
  · next made e hmade =>
    cases h
    rw [hmade] at hparents
    exact hparents
  · next made hmade =>
    rw [hmade] at hparents
    split at h
    · cases h
      exact hparents
    · cases h

/-- A write of the service file changes what is to be seen where the file is, and where directories
above it are new. -/
theorem same_or_changed (h : w.write t p = (t', none)) (place : Location) :
    t'.sightAt place = t.sightAt place ∨
      t.FileWritten t' p place ∨ t.DirMade t' p.Inside place := by
  obtain ⟨made, content, hmade, hwrite⟩ := write_eq_ok h
  have hdirs := FileTree.addsDirs_createParents t p
  rw [hmade] at hdirs
  have hgrows := FileTree.grows_of_write hwrite
  rcases FileTree.same_or_fileWritten hwrite place with hsame | ⟨hwritten, -⟩
  · rcases hdirs.same place with hsame' | ⟨hbefore, hafter, q, hq, hleads⟩
    · exact .inl (hsame.trans hsame')
    · exact .inr (.inr ⟨hbefore, hsame.trans hafter, q, hq, hgrows.leadsTo hleads⟩)
  · refine .inr (.inl ⟨fun sight hsight => ?_, hwritten.after, hwritten.leads⟩)
    exact hwritten.before sight (hdirs.sightAt hsight)

/-- The service file is there after a write, and the directory that its path is in. -/
theorem isFile_of_write (h : w.write t p = (t', none)) :
    t'.isFile p = true ∧
      ∀ parent, p.parent? = some parent → parent.bytes ≠ [] → t'.isDir parent = true := by
  obtain ⟨made, content, hmade, hwrite⟩ := write_eq_ok h
  refine ⟨FileTree.isFile_of_write hwrite, fun parent hparent hne => ?_⟩
  have hdirs : t.createDirs parent = (made, none) := by
    rw [← hmade, FileTree.createParents, hparent]
  have hdir := FileTree.isDir_createDirs hne (congrArg Prod.snd hdirs)
  rw [hdirs] at hdir
  exact (FileTree.grows_of_write hwrite).isDir hdir

end Wiring

/-! ## Commands -/

/-- What a command may have changed when it ended with this response. -/
def Command.Effect (t : FileTree) (response : Response) : Command → Prop
  | .init output force =>
    (∀ place, response.tree.sightAt place = t.sightAt place ∨
        t.FileWritten response.tree output place ∧ (force = false → t.sightAt place = none)) ∧
      (response.code = 0 → response.tree.isFile output = true)
  | .scan _ => response.tree = t
  | .list _ _ _ => response.tree = t
  | .emit source _ output =>
    match source.configuration t with
    | .error _ => response.tree = t
    | .ok config =>
      (∀ place, response.tree.sightAt place = t.sightAt place ∨
          t.FileWritten response.tree (config.replaceOutput output).output place ∨
            t.DirMade response.tree (config.replaceOutput output).output.Inside place) ∧
        (response.code = 0 → response.tree.isFile (config.replaceOutput output).output = true ∧
          ∀ parent, (config.replaceOutput output).output.parent? = some parent →
            parent.bytes ≠ [] → response.tree.isDir parent = true)

/-- The default configuration is written by one write, and if it is not forced, only where the path
did not exist. -/
theorem write_of_writePreset {output : Path} {force : Bool}
    (h : writePreset t output force = .ok t') :
    t.write output Configuration.preset.fileContent = .ok t' ∧
      (force = false → t.pathExists output = false) := by
  unfold writePreset Configuration.write at h
  split at h
  · cases h
  · next hallowed =>
    split at h
    · cases h
    · next hwrite =>
      cases h
      refine ⟨hwrite, ?_⟩
      rintro rfl
      simpa using hallowed

/-- The command that writes the service file leaves everything unless it comes to the write, which
then says how it ends. -/
theorem runEmit_cases (t : FileTree) (source : SourceOptions) (selections : List Role)
    (output : Option Path) :
    (runEmit t source selections output).tree = t ∧
        (runEmit t source selections output).code = 1 ∨
      ∃ (config : Configuration) (w : Wiring) (ending : Option Fault),
        source.configuration t = .ok config ∧
        w.write t (config.replaceOutput output).output =
          ((runEmit t source selections output).tree, ending) ∧
        ((runEmit t source selections output).code = 0 ↔ ending = none) := by
  unfold runEmit
  cases hsearch : source.configuration t >>= fun config =>
      Search.ofConfig (config.replaceOutput output) with
  | error fault => exact .inl ⟨rfl, rfl⟩
  | ok search =>
    dsimp only
    cases (search.run t).choose selections with
    | error fault => exact .inl ⟨rfl, rfl⟩
    | ok chosen =>
      obtain ⟨config, hconfig, hofConfig⟩ := bind_eq_ok.mp hsearch
      have hreplaced := Search.config_of_ofConfig hofConfig
      refine .inr ⟨config, .ofChosen chosen, ?_⟩
      rw [← hreplaced]
      dsimp only
      rcases (Wiring.ofChosen chosen).write t search.config.output with ⟨t', _ | fault⟩
      · exact ⟨none, hconfig, rfl, iff_of_true rfl rfl⟩
      · exact ⟨some fault, hconfig, rfl, iff_of_false nofun nofun⟩

namespace Command

/-- A command changes nothing but what it is for. -/
theorem effect_run (t : FileTree) (command : Command) : command.Effect t (command.run t) := by
  cases command with
  | init output force =>
    rw [Command.Effect, run, runInit]
    cases hwrite : writePreset t output force with
    | error fault =>
      refine ⟨fun _ => .inl rfl, fun h => ?_⟩
      cases h
    | ok t' =>
      obtain ⟨hwrite, hfree⟩ := write_of_writePreset hwrite
      refine ⟨fun place => ?_, fun _ => FileTree.isFile_of_write hwrite⟩
      rcases FileTree.same_or_fileWritten hwrite place with hsame | ⟨hwritten, hnone⟩
      · exact .inl hsame
      · exact .inr ⟨hwritten, fun hforce => hnone (hfree hforce)⟩
  | scan source =>
    show (runScan t source).tree = t
    unfold runScan
    split <;> rfl
  | list source concreteOnly json =>
    show (runList t source concreteOnly json).tree = t
    unfold runList
    split <;> rfl
  | emit source selections output =>
    rw [Command.Effect]
    rcases runEmit_cases t source selections output with
      ⟨htree, hcode⟩ | ⟨config, w, ending, hconfig, hwrite, hcode⟩
    · cases source.configuration t with
      | error fault => exact htree
      | ok config =>
        refine ⟨fun place => .inl ?_, fun h => ?_⟩
        · exact congrArg (FileTree.sightAt · place) htree
        · cases hcode.symm.trans h
    · rw [hconfig]
      cases ending with
      | none => exact ⟨Wiring.same_or_changed hwrite, fun _ => Wiring.isFile_of_write hwrite⟩
      | some fault =>
        refine ⟨fun place => ?_, fun h => ?_⟩
        · exact ((Wiring.addsDirs_of_write hwrite).same place).imp_right .inr
        · cases hcode.mp h

/-- A command that fails has made directories at most. -/
theorem addsDirs_run {command : Command} (h : (command.run t).code ≠ 0) :
    ∃ paths, FileTree.AddsDirs t (command.run t).tree paths := by
  have hsame : (command.run t).tree = t → ∃ paths, FileTree.AddsDirs t (command.run t).tree paths :=
    fun htree => ⟨fun _ => False, htree.symm ▸ .refl t _⟩
  cases command with
  | init output force =>
    change (runInit t output force).code ≠ 0 at h
    refine hsame ?_
    change (runInit t output force).tree = t
    unfold runInit at h ⊢
    cases hwrite : writePreset t output force with
    | error fault => rfl
    | ok t' =>
      rw [hwrite] at h
      exact absurd rfl h
  | scan source => exact hsame (effect_run t (.scan source))
  | list source concreteOnly json => exact hsame (effect_run t (.list source concreteOnly json))
  | emit source selections output =>
    rcases runEmit_cases t source selections output with
      ⟨htree, -⟩ | ⟨config, w, ending, -, hwrite, hcode⟩
    · exact hsame htree
    · cases ending with
      | none => exact absurd (hcode.mpr rfl) h
      | some fault => exact ⟨_, Wiring.addsDirs_of_write hwrite⟩

end Command

/-- A command line that fails has made directories at most. -/
theorem addsDirs_runArguments {arguments : List String} (h : (runArguments t arguments).code ≠ 0) :
    ∃ paths, FileTree.AddsDirs t (runArguments t arguments).tree paths := by
  unfold runArguments at h ⊢
  split at h
  · exact ⟨fun _ => False, .refl t _⟩
  · exact ⟨fun _ => False, .refl t _⟩
  · exact ⟨fun _ => False, .refl t _⟩
  · exact Command.addsDirs_run h

/-- A command line changes what its command is for, and nothing if there is no command to carry out.
If it ends with an exit code other than 0, no file is new, gone or changed, and all files are read
as before. -/
theorem runArguments_effect (t : FileTree) (arguments : List String) :
    (match Request.ofArguments arguments with
      | .ok (.run command) => command.Effect t (runArguments t arguments)
      | _ => (runArguments t arguments).tree = t) ∧
      ((runArguments t arguments).code ≠ 0 →
        (∀ place content, (runArguments t arguments).tree.sightAt place = some (.file content) ↔
            t.sightAt place = some (.file content)) ∧
          ∀ p content, t.read p = .ok content →
            (runArguments t arguments).tree.read p = .ok content) := by
  refine ⟨?_, fun h => ?_⟩
  · unfold runArguments
    cases Request.ofArguments arguments with
    | error e => rfl
    | ok request =>
      cases request with
      | version => rfl
      | help name => rfl
      | run command => exact Command.effect_run t command
  · obtain ⟨paths, hdirs⟩ := addsDirs_runArguments h
    exact ⟨fun _ _ => hdirs.sightAt_file_iff, fun _ _ => hdirs.read⟩

end RoleWiring
