import RoleWiring.Proofs.Selection

/-!
# When a choice can be made

A choice can be made if and only if every selection is for a role of the report and every role is
settled: the type that is selected last for it is the name of a concrete class in its set, or
nothing is selected for it and its set has one concrete class. All else is refused with a complaint.

* `IsChoice` — what settles a role;
* `choose_eq_ok_iff` — what a choice consists of, role by role;
* `choose_law` — when there is one, and what it does not depend on.
-/

namespace RoleWiring

variable {selections : List Role} {role type : String} {set : Implementations}

/-! ## What settles a role -/

/-- The type that a role is filled with. -/
inductive IsChoice (selections : List Role) (role : String) (set : Implementations) : String → Prop
  /-- the last selection for the role names a member that is a concrete class -/
  | selected {s : Role} {m : Implementation}
      (last : (selections.filter fun s => s.name == role).getLast? = some s)
      (member : m ∈ set.members) (named : m.name = s.type) (kind : m.kind = .concreteClass) :
      IsChoice selections role set s.type
  /-- nothing is selected for the role, and one member is a concrete class -/
  | only {m : Implementation} (unselected : ∀ s ∈ selections, s.name ≠ role)
      (sole : (set.members.filter fun m => m.kind = .concreteClass) = [m]) :
      IsChoice selections role set m.name

/-- The members that can be instantiated are the concrete classes. -/
theorem members_instantiable (set : Implementations) :
    set.instantiable.members = set.members.filter fun m => m.kind = .concreteClass := by
  refine List.filter_congr fun m _ => ?_
  rw [Bool.eq_iff_iff, Kind.hasInstances_iff, decide_eq_true_eq]

theorem names_instantiable_eq_singleton :
    set.instantiable.names = [type] ↔
      ∃ m, (set.members.filter fun m => m.kind = .concreteClass) = [m] ∧ m.name = type := by
  rw [Implementations.names, members_instantiable, List.map_eq_singleton_iff]

/-- The member that fills a role is its choice. -/
theorem chooseMember_lastSelected? :
    chooseMember role set (lastSelected? selections role) = .ok type ↔
      IsChoice selections role set type := by
  rw [chooseMember_eq_ok]
  refine ⟨fun h => ?_, fun h => ?_⟩
  · cases hlast : lastSelected? selections role with
    | some selected =>
      rw [hlast] at h
      obtain ⟨rfl, m, hm, hname, hkind⟩ := h
      rw [lastSelected?_eq] at hlast
      obtain ⟨s, hs, rfl⟩ := Option.map_eq_some_iff.mp hlast
      exact .selected hs hm hname hkind
    | none =>
      rw [hlast] at h
      obtain ⟨m, hsole, rfl⟩ := names_instantiable_eq_singleton.mp h
      exact .only (lastSelected?_eq_none_iff.mp hlast) hsole
  · cases h with
    | @selected s m hlast hm hname hkind =>
      rw [lastSelected?_eq, hlast]
      exact ⟨rfl, m, hm, hname, hkind⟩
    | @only m hnone hsole =>
      rw [lastSelected?_eq_none_iff.mpr hnone]
      exact names_instantiable_eq_singleton.mpr ⟨m, hsole, rfl⟩

/-- What settles a role is settled among its concrete classes. -/
theorem isChoice_instantiable :
    IsChoice selections role set.instantiable type ↔ IsChoice selections role set type := by
  have hidem : set.instantiable.instantiable = set.instantiable := by
    rw [Implementations.instantiable, Implementations.keep, Implementations.instantiable,
      Implementations.keep, List.filter_filter]
    simp only [Bool.and_self]
  rw [← chooseMember_lastSelected?, ← chooseMember_lastSelected?, chooseMember_eq_ok,
    chooseMember_eq_ok]
  cases lastSelected? selections role with
  | none =>
    dsimp only
    rw [hidem]
  | some s =>
    dsimp only
    rw [← mem_names_instantiable, hidem, mem_names_instantiable]

/-! ## Whole choices -/

variable {report : Report} {chosen : Roster String}

/-- A choice gives every role of the report its choice, in the order of the report, where all
selections are for roles of the report. -/
theorem choose_eq_ok_iff :
    report.choose selections = .ok chosen ↔
      (∀ s ∈ selections, s.name ∈ report.implementations.names) ∧
        chosen.names = report.implementations.names ∧
        ∀ role set, report.implementations.get? role = some set →
          ∃ type, chosen.get? role = some type ∧ IsChoice selections role set type := by
  simp only [choose_eq_ok_byRole, chooseMember_lastSelected?]

/-- All selections are for roles of the report, and every role is settled. -/
structure Report.Settled (report : Report) (selections : List Role) : Prop where
  /-- the roles for which something is selected are in the report -/
  known : ∀ s ∈ selections, s.name ∈ report.implementations.names
  /-- every role has something to be filled with -/
  settled : ∀ role set, report.implementations.get? role = some set →
    ∃ type, IsChoice selections role set type

/-- Where every role is settled a choice is made. -/
theorem Report.Settled.exists_choose (h : report.Settled selections) :
    ∃ chosen, report.choose selections = .ok chosen := by
  have hsettled := h.settled
  choose! pick hpick using hsettled
  obtain ⟨chosen, hchosen, -⟩ := exists_choose_of_members pick h.known fun role set hset =>
    chooseMember_lastSelected?.mpr (hpick role set hset)
  exact ⟨chosen, hchosen⟩

/-- What is refused is refused with a complaint. -/
theorem config_of_choose_eq_error {fault : Fault} (h : report.choose selections = .error fault) :
    ∃ complaint, fault = .config complaint := by
  unfold Report.choose at h
  split at h
  · cases h
    exact ⟨_, rfl⟩
  · rcases bind_eq_error.mp h with hentries | ⟨_, -, hdone⟩
    · obtain ⟨entry, -, hentry⟩ := exists_of_mapM_eq_error hentries
      unfold chooseEntry at hentry
      split at hentry
      · cases hentry
      · cases hentry
        exact ⟨_, rfl⟩
    · cases hdone

/-! ## What a choice does not depend on -/

/-- A selection that a later one for the same role overrides is not the last one for any role. -/
theorem lastSelected?_override {before after : List Role} {s s' : Role} (hs' : s' ∈ after)
    (hname : s'.name = s.name) (role : String) :
    lastSelected? (before ++ s :: after) role = lastSelected? (before ++ after) role := by
  rw [lastSelected?_eq, lastSelected?_eq, List.filter_append, List.filter_append, List.filter_cons]
  by_cases hrole : s.name = role
  · rw [if_pos (beq_iff_eq.mpr hrole)]
    have hmem : s' ∈ after.filter fun s => s.name == role :=
      List.mem_filter.mpr ⟨hs', beq_iff_eq.mpr (hname.trans hrole)⟩
    obtain ⟨first, rest, hafter⟩ := List.exists_cons_of_ne_nil (List.ne_nil_of_mem hmem)
    rw [hafter, List.getLast?_append, List.getLast?_append, List.getLast?_cons_cons]
  · rw [if_neg (mt beq_iff_eq.mp hrole)]

/-- A selection that a later one for the same role overrides could as well not be there, if it is
for a role of the report. -/
theorem choose_override {before after : List Role} {s s' : Role} (hs' : s' ∈ after)
    (hname : s'.name = s.name) (hknown : s.name ∈ report.implementations.names) :
    report.choose (before ++ s :: after) = report.choose (before ++ after) := by
  have hsome : (report.implementations.get? s.name).isSome := lookup_isSome_iff.mpr hknown
  have hfind : (s :: after).find? (fun s => (report.implementations.get? s.name).isNone) =
      after.find? fun s => (report.implementations.get? s.name).isNone :=
    List.find?_cons_of_neg (by rw [← Option.not_isSome, hsome]; exact Bool.false_ne_true)
  have hentry : chooseEntry (before ++ s :: after) = chooseEntry (before ++ after) := by
    funext entry
    rw [chooseEntry, chooseEntry, lastSelected?_override hs' hname]
  rw [Report.choose, Report.choose, List.find?_append, List.find?_append, hfind, hentry]

/-- A report and its concrete classes leave the same choices. -/
theorem choose_instantiable :
    report.instantiable.choose selections = .ok chosen ↔
      report.choose selections = .ok chosen := by
  have hnames : report.instantiable.implementations.names = report.implementations.names :=
    Roster.names_mapValues _ _
  have hget (role : String) : report.instantiable.implementations.get? role =
      (report.implementations.get? role).map Implementations.instantiable :=
    Roster.get?_of_entries_eq_map (f := fun _ => Implementations.instantiable) rfl role
  rw [choose_eq_ok_iff, choose_eq_ok_iff, hnames]
  refine and_congr_right fun _ => and_congr_right fun _ => forall_congr' fun role => ?_
  rw [hget]
  cases report.implementations.get? role with
  | none => exact iff_of_true nofun nofun
  | some set => simp [isChoice_instantiable]

/-- The selections that spell out a choice. -/
def Roster.asSelections (chosen : Roster String) : List Role :=
  chosen.entries.map fun entry => ⟨entry.1, entry.2⟩

/-- The selections that spell out a choice select what was chosen. -/
theorem lastSelected?_asSelections (h : chosen.get? role = some type) :
    lastSelected? chosen.asSelections role = some type := by
  have hmem : (⟨role, type⟩ : Role) ∈ chosen.asSelections :=
    List.mem_map.mpr ⟨_, Roster.mem_entries_of_get? h, rfl⟩
  refine lastSelected?_eq_some hmem fun s hs hname => ?_
  obtain ⟨entry, hentry, rfl⟩ := List.mem_map.mp hs
  have hvalue := Roster.get?_of_mem_entries hentry
  rw [show entry.1 = role from hname, h] at hvalue
  exact (Option.some.inj hvalue).symm

/-- A choice that is spelled out is made again. -/
theorem choose_asSelections (h : report.choose selections = .ok chosen) :
    report.choose chosen.asSelections = .ok chosen := by
  obtain ⟨-, hnames, hfilled⟩ := choose_eq_ok_iff.mp h
  refine choose_eq_ok_iff.mpr ⟨fun s hs => ?_, hnames, fun role set hset => ?_⟩
  · obtain ⟨entry, hentry, rfl⟩ := List.mem_map.mp hs
    exact hnames ▸ List.mem_map_of_mem hentry
  · obtain ⟨type, htype, hchoice⟩ := hfilled role set hset
    obtain ⟨hmember, -⟩ := exists_member_of_chooseMember (chooseMember_lastSelected?.mpr hchoice)
    refine ⟨type, htype, chooseMember_lastSelected?.mp ?_⟩
    rw [lastSelected?_asSelections htype, chooseMember_eq_ok]
    exact ⟨rfl, hmember⟩

/-- A choice is made exactly where every selection is for a role of the report and every role is
settled; it fills the roles in the order of the report, each with its choice, and all else is
refused with a complaint. A selection that a later one for the same role overrides makes no
difference, if it is for a role of the report, and neither do members that cannot be instantiated.
A choice that is spelled out as selections is made again. -/
theorem choose_law (report : Report) (selections : List Role) :
    (report.Settled selections ∧
          (∃ chosen, report.choose selections = .ok chosen ∧
            chosen.names = report.implementations.names ∧
            ∀ role set, report.implementations.get? role = some set →
              ∃ type, chosen.get? role = some type ∧ IsChoice selections role set type) ∨
        ¬ report.Settled selections ∧
          ∃ complaint, report.choose selections = .error (.config complaint)) ∧
      (∀ before s after, selections = before ++ s :: after → (∃ s' ∈ after, s'.name = s.name) →
        s.name ∈ report.implementations.names →
          report.choose selections = report.choose (before ++ after)) ∧
      (∀ chosen, report.instantiable.choose selections = .ok chosen ↔
        report.choose selections = .ok chosen) ∧
      ∀ chosen, report.choose selections = .ok chosen →
        report.choose chosen.asSelections = .ok chosen := by
  refine ⟨?_, ?_, fun chosen => choose_instantiable, fun chosen => choose_asSelections⟩
  · cases hchoose : report.choose selections with
    | ok chosen =>
      obtain ⟨hknown, hnames, hfilled⟩ := choose_eq_ok_iff.mp hchoose
      refine .inl ⟨⟨hknown, fun role set hset => ?_⟩, chosen, rfl, hnames, hfilled⟩
      obtain ⟨type, -, hchoice⟩ := hfilled role set hset
      exact ⟨type, hchoice⟩
    | error fault =>
      obtain ⟨complaint, rfl⟩ := config_of_choose_eq_error hchoose
      refine .inr ⟨fun hsettled => ?_, complaint, rfl⟩
      obtain ⟨chosen, hchosen⟩ := hsettled.exists_choose
      cases hchosen.symm.trans hchoose
  · rintro before s after rfl ⟨s', hs', hname⟩ hknown
    exact choose_override hs' hname hknown

/-- A role with two concrete classes, one of which has the name of an interface too, and a role with
one. -/
def mixedReport : Report where
  implementations := .ofList
    [("In", ⟨[⟨⟨"a.A", .ofString "c/a/A.class"⟩, .interface⟩,
      ⟨⟨"a.A", .ofString "d/a/A.class"⟩, .concreteClass⟩,
      ⟨⟨"a.B", .ofString "c/a/B.class"⟩, .concreteClass⟩]⟩),
    ("Out", ⟨[⟨⟨"b.C", .ofString "c/b/C.class"⟩, .concreteClass⟩]⟩)]
  warnings := []

/-- The last selection counts, the role with one concrete class needs none, and the choice that this
leaves is made again from what it consists of. -/
theorem choose_law_mixedReport :
    ∃ chosen, chosen.entries = [("In", "a.A"), ("Out", "b.C")] ∧
      mixedReport.choose [⟨"In", "a.B"⟩, ⟨"In", "a.A"⟩] = .ok chosen ∧
      mixedReport.choose [⟨"In", "a.A"⟩] = .ok chosen ∧
      mixedReport.choose chosen.asSelections = .ok chosen := by
  have hlaw := choose_law mixedReport [⟨"In", "a.B"⟩, ⟨"In", "a.A"⟩]
  have hchosen : mixedReport.choose [⟨"In", "a.B"⟩, ⟨"In", "a.A"⟩] =
      .ok (.ofList [("In", "a.A"), ("Out", "b.C")]) := by decide
  have hsame : mixedReport.choose [⟨"In", "a.B"⟩, ⟨"In", "a.A"⟩] =
      mixedReport.choose [⟨"In", "a.A"⟩] :=
    hlaw.2.1 [] ⟨"In", "a.B"⟩ [⟨"In", "a.A"⟩] rfl ⟨_, .head _, rfl⟩ (by decide)
  exact ⟨_, by decide, hchosen, hsame.symm.trans hchosen, hlaw.2.2.2 _ hchosen⟩

end RoleWiring
