import RoleWiring.CommandLine.Arguments
import RoleWiring.Proofs.Assignment

/-!
# Reading a command line

A switch that is given by its long name with an equals sign has all that follows the sign
as its value, whatever that is: `--select=A=b.C` selects by the text `A=b.C`, and so it
does where the value begins with a dash. A list of such arguments gives the switch once for
each of them, in order.

* `readSwitches_long` — the switches that such arguments give;
* `ofArguments_emit_select` — a command line that makes selections.
-/

namespace RoleWiring

namespace Switch

/-- The argument that gives the switch by its long name, with a value. -/
def argument (s : Switch) (value : String) : String :=
  "--" ++ s.long ++ "=" ++ value

theorem long_injective {s s' : Switch} (h : s.long = s'.long) : s = s' := by
  cases s <;> cases s' <;> first | rfl | exact absurd h (by decide)

theorem equals_not_mem_long (s : Switch) : '=' ∉ s.long.toList := by
  cases s <;> decide

theorem toList_argument (s : Switch) (value : String) :
    (s.argument value).toList = '-' :: '-' :: (s.long.toList ++ '=' :: value.toList) := by
  simp [argument, String.toList_append]

end Switch

variable {accepted : List Switch} {s : Switch}

/-- A switch that is accepted is known by its long name, and its value is all that follows the
first equals sign. -/
theorem ofArgument_argument (hs : s ∈ accepted) (value : String) :
    Word.ofArgument accepted (s.argument value) = .switch s (some value) := by
  have hsplit : splitAssignment? (s.long.toList ++ '=' :: value.toList) =
      some (s.long.toList, value.toList) :=
    splitAssignment?_eq_some.mpr ⟨s.equals_not_mem_long, rfl⟩
  have hfind : (accepted.find? fun s' => s'.long.toList == s.long.toList) = some s := by
    have hfound : (accepted.find? fun s' => s'.long.toList == s.long.toList).isSome := by
      rw [List.find?_isSome]
      exact ⟨s, hs, beq_self_eq_true _⟩
    obtain ⟨s', hs'⟩ := Option.isSome_iff_exists.mp hfound
    have hlong : s'.long.toList = s.long.toList :=
      eq_of_beq (List.find?_some (p := fun s' : Switch => s'.long.toList == s.long.toList) hs')
    rw [hs', Switch.long_injective (String.toList_injective hlong)]
  -- the argument goes on after its two dashes, so it does not end the switches
  obtain ⟨c, body, hbody⟩ : ∃ c body, s.long.toList ++ '=' :: value.toList = c :: body :=
    List.exists_cons_of_ne_nil (by simp)
  rw [hbody] at hsplit
  simp only [Word.ofArgument, Switch.toList_argument, hbody, hsplit, hfind, String.ofList_toList]

/-- Arguments that give one switch, which takes a value, give it once for each. -/
theorem readSwitches_long (hs : s ∈ accepted) (hvalue : s.takesValue = true)
    (texts : List String) :
    readSwitches accepted (texts.map s.argument) = .ok (texts.map (⟨s, ·⟩)) := by
  induction texts with
  | nil => rfl
  | cons text texts ih =>
    rw [List.map_cons, readSwitches.eq_def]
    simp only [ofArgument_argument hs, hvalue, if_true, ih]
    rfl

theorem values_self (s : Switch) (texts : List String) :
    values (texts.map (⟨s, ·⟩)) s = texts := by
  simp [values, List.filter_map, Function.comp_def]

theorem values_of_ne {s s' : Switch} (h : s ≠ s') (texts : List String) :
    values (texts.map (⟨s, ·⟩)) s' = [] := by
  simp [values, List.filter_map, Function.comp_def, h]

theorem pathOption_eq_none {given : List Given} (h : values given s = []) :
    pathOption given s = .ok none := by
  rw [pathOption, atMostOnce, h]
  rfl

/-- A command line that makes selections, one for each text, asks for the service file with these
selections. -/
theorem ofArguments_emit_select {texts : List String} {selections : List Role}
    (h : texts.mapM Role.ofAssignment = .ok selections) :
    Request.ofArguments ("emit" :: texts.map Switch.select.argument) =
      .ok (.run (.emit ⟨Configuration.presetFile, [], []⟩ selections none)) := by
  have hread : readSwitches CommandName.emit.switches (texts.map Switch.select.argument) =
      .ok (texts.map (⟨.select, ·⟩)) :=
    readSwitches_long (by decide) rfl texts
  have hothers : ∀ s', .select ≠ s' → values (texts.map (⟨.select, ·⟩)) s' = [] :=
    fun s' hs' => values_of_ne hs' texts
  have hsource : SourceOptions.ofGiven (texts.map (⟨.select, ·⟩)) =
      .ok ⟨Configuration.presetFile, [], []⟩ := by
    rw [SourceOptions.ofGiven, pathOption_eq_none (hothers .config nofun),
      hothers .classpath nofun, hothers .role nofun]
    rfl
  have hselect : (values (texts.map (⟨.select, ·⟩)) .select).mapM (roleValue .select) =
      .ok selections := by
    rw [values_self]
    refine mapM_eq_ok.mpr ((mapM_eq_ok.mp h).imp fun text role htext => ?_)
    rw [roleValue, htext]
  have hcommand : Command.ofGiven .emit (texts.map (⟨.select, ·⟩)) =
      .ok (.emit ⟨Configuration.presetFile, [], []⟩ selections none) :=
    bind_eq_ok.mpr ⟨_, hsource, bind_eq_ok.mpr ⟨_, hselect,
      bind_eq_ok.mpr ⟨_, pathOption_eq_none (hothers _ nofun), rfl⟩⟩⟩
  have hemit : Request.ofCommand .emit (texts.map Switch.select.argument) =
      .ok (.run (.emit ⟨Configuration.presetFile, [], []⟩ selections none)) := by
    refine bind_eq_ok.mpr ⟨_, hread, bind_eq_ok.mpr ⟨_, hcommand, ?_⟩⟩
    rw [hothers .help nofun]
    rfl
  exact hemit

end RoleWiring
