import RoleWiring.Proofs.Except
import RoleWiring.Proofs.Roster
import RoleWiring.Selection

/-!
# Which classes are chosen

A role is filled by a member that can be instantiated: the one that was selected last,
or else the only one there is. A choice fills every role of the report.

* `chooseMember_eq_ok` — what fills a role;
* `choose_eq_ok` — what a whole choice fills, entry by entry;
* `choose_eq_ok_byRole` — the same role by role.
-/

namespace RoleWiring

/-! ## One role -/

/-- The last selection for a role. -/
theorem lastSelected?_eq (selections : List Role) (role : String) :
    lastSelected? selections role =
      (selections.filter fun s => s.name == role).getLast?.map Role.type := by
  unfold lastSelected?
  rw [← List.head?_filter, List.filter_reverse, List.head?_reverse]

/-- The last selection is one of them. -/
theorem mem_of_lastSelected? {selections : List Role} {role type : String}
    (h : lastSelected? selections role = some type) : ⟨role, type⟩ ∈ selections := by
  rw [lastSelected?_eq, Option.map_eq_some_iff] at h
  obtain ⟨s, hlast, rfl⟩ := h
  obtain ⟨hmem, hname⟩ := List.mem_filter.mp (List.mem_of_getLast? hlast)
  rwa [← eq_of_beq hname]

/-- Where all selections for a role agree, the last one is any of them. -/
theorem lastSelected?_eq_some {selections : List Role} {s : Role} (hs : s ∈ selections)
    (hall : ∀ s' ∈ selections, s'.name = s.name → s'.type = s.type) :
    lastSelected? selections s.name = some s.type := by
  unfold lastSelected?
  have hfound : (selections.reverse.find? fun s' => s'.name == s.name).isSome := by
    rw [List.find?_isSome]
    exact ⟨s, List.mem_reverse.mpr hs, beq_self_eq_true _⟩
  obtain ⟨s', hlast⟩ := Option.isSome_iff_exists.mp hfound
  have hname : s'.name = s.name :=
    eq_of_beq (List.find?_some (p := fun s' : Role => s'.name == s.name) hlast)
  have hmem := List.mem_reverse.mp (List.mem_of_find?_eq_some hlast)
  rw [hlast, Option.map_some, hall s' hmem hname]

/-- Nothing is selected last for a role for which nothing is selected. -/
theorem lastSelected?_eq_none_iff {selections : List Role} {role : String} :
    lastSelected? selections role = none ↔ ∀ s ∈ selections, s.name ≠ role := by
  rw [lastSelected?_eq, Option.map_eq_none_iff, List.getLast?_eq_none_iff, List.filter_eq_nil_iff]
  simp only [beq_iff_eq]

theorem has_eq_true {set : Implementations} {name : String} :
    set.has name = true ↔ name ∈ set.names := by
  simp [Implementations.has, Implementations.find?, Implementations.names]

/-- The members that can be instantiated are those of concrete classes. -/
theorem mem_names_instantiable {set : Implementations} {name : String} :
    name ∈ set.instantiable.names ↔
      ∃ m ∈ set.members, m.name = name ∧ m.kind = .concreteClass := by
  refine ⟨fun h => ?_, ?_⟩
  · obtain ⟨m, hm, rfl⟩ := List.mem_map.mp h
    obtain ⟨hmem, hkind⟩ := List.mem_filter.mp hm
    exact ⟨m, hmem, rfl, Kind.hasInstances_iff.mp hkind⟩
  · rintro ⟨m, hmem, rfl, hkind⟩
    have hm : m ∈ set.instantiable.members :=
      List.mem_filter.mpr ⟨hmem, Kind.hasInstances_iff.mpr hkind⟩
    exact List.mem_map.mpr ⟨m, hm, rfl⟩

/-- A set has an instance of a name if some member of this name is a concrete class. -/
theorem has_instantiable {set : Implementations} {name : String} :
    set.instantiable.has name = true ↔
      ∃ m ∈ set.members, m.name = name ∧ m.kind = .concreteClass :=
  has_eq_true.trans mem_names_instantiable

/-- What fills a role: what is selected, if it is a member that can be instantiated, and without
a selection the only such member. -/
theorem chooseMember_eq_ok {role : String} {set : Implementations} {selected : Option String}
    {type : String} :
    chooseMember role set selected = .ok type ↔
      match selected with
      | some s => s = type ∧ ∃ m ∈ set.members, m.name = type ∧ m.kind = .concreteClass
      | none => set.instantiable.names = [type] := by
  unfold chooseMember
  cases selected with
  | some s =>
    dsimp only
    by_cases hhas : set.instantiable.has s = true
    · rw [if_pos hhas]
      refine ⟨?_, ?_⟩
      · intro h
        cases h
        exact ⟨rfl, has_instantiable.mp hhas⟩
      · rintro ⟨rfl, -⟩
        rfl
    · rw [if_neg hhas]
      refine iff_of_false (fun h => ?_) ?_
      · split at h <;> cases h
      · rintro ⟨rfl, hmember⟩
        exact hhas (has_instantiable.mpr hmember)
  | none =>
    dsimp only
    rcases set.instantiable.names with _ | ⟨n, _ | ⟨n', names⟩⟩
    · exact iff_of_false nofun nofun
    · simp
    · exact iff_of_false nofun nofun

/-- What fills a role is a member that is a concrete class. -/
theorem exists_member_of_chooseMember {role : String} {set : Implementations}
    {selected : Option String} {type : String} (h : chooseMember role set selected = .ok type) :
    (∃ m ∈ set.members, m.name = type ∧ m.kind = .concreteClass) ∧
      ∀ s, selected = some s → s = type := by
  have hcases := chooseMember_eq_ok.mp h
  cases selected with
  | some s =>
    obtain ⟨rfl, hmember⟩ := hcases
    exact ⟨hmember, fun s' hs' => (Option.some.inj hs').symm⟩
  | none =>
    refine ⟨?_, nofun⟩
    have hmem : type ∈ set.instantiable.names := by
      rw [show set.instantiable.names = [type] from hcases]
      exact List.mem_singleton_self type
    exact mem_names_instantiable.mp hmem

/-! ## All roles -/

theorem chooseEntry_eq_ok {selections : List Role} {entry : String × Implementations}
    {chosen : String × String} :
    chooseEntry selections entry = .ok chosen ↔
      chosen.1 = entry.1 ∧
        chooseMember entry.1 entry.2 (lastSelected? selections entry.1) = .ok chosen.2 := by
  obtain ⟨role, type⟩ := chosen
  unfold chooseEntry
  cases chooseMember entry.1 entry.2 (lastSelected? selections entry.1) with
  | error complaint => exact iff_of_false nofun nofun
  | ok t =>
    refine ⟨?_, ?_⟩
    · intro h
      cases h
      exact ⟨rfl, rfl⟩
    · rintro ⟨rfl, h⟩
      cases h
      rfl

/-- Choices that were made for the entries of a report in turn: every entry has its choice, and
every choice belongs to an entry. -/
theorem choices_of_forall₂ {selections : List Role} {entries : List (String × Implementations)}
    {choices : List (String × String)}
    (h : List.Forall₂ (fun entry choice => chooseEntry selections entry = .ok choice) entries
      choices) :
    choices.map Prod.fst = entries.map Prod.fst ∧
      ∀ choice ∈ choices, ∃ set, (choice.1, set) ∈ entries ∧
        chooseMember choice.1 set (lastSelected? selections choice.1) = .ok choice.2 := by
  induction h with
  | nil => exact ⟨rfl, fun _ h => absurd h List.not_mem_nil⟩
  | @cons entry choice entries choices hhead _ ih =>
    obtain ⟨hnames, hchoices⟩ := ih
    obtain ⟨hname, hmember⟩ := chooseEntry_eq_ok.mp hhead
    refine ⟨by rw [List.map_cons, List.map_cons, hnames, hname], List.forall_mem_cons.mpr ⟨?_, ?_⟩⟩
    · refine ⟨entry.2, ?_, ?_⟩
      · rw [hname]
        exact List.mem_cons_self ..
      · rw [hname]
        exact hmember
    · intro c hc
      obtain ⟨set, hset, hchosen⟩ := hchoices c hc
      exact ⟨set, List.mem_cons_of_mem _ hset, hchosen⟩

/-- A choice fills the roles of the report, in their order and each on its own, and every
selection is for one of them. -/
theorem choose_eq_ok {report : Report} {selections : List Role} {chosen : Roster String} :
    report.choose selections = .ok chosen ↔
      (∀ s ∈ selections, (report.implementations.get? s.name).isSome) ∧
        List.Forall₂ (fun entry choice => chooseEntry selections entry = .ok choice)
          report.implementations.entries chosen.entries := by
  unfold Report.choose
  cases hunknown : selections.find? fun s => (report.implementations.get? s.name).isNone with
  | some s =>
    refine iff_of_false nofun fun h => ?_
    have hnone := List.find?_some hunknown
    have hsome := h.1 s (List.mem_of_find?_eq_some hunknown)
    rw [Option.isNone_iff_eq_none.mp hnone] at hsome
    cases hsome
  | none =>
    have hknown : ∀ s ∈ selections, (report.implementations.get? s.name).isSome := by
      intro s hs
      have hnot := List.find?_eq_none.mp hunknown s hs
      rw [Option.isNone_iff_eq_none] at hnot
      exact Option.isSome_iff_ne_none.mpr hnot
    dsimp only
    rw [bind_eq_ok]
    refine ⟨?_, ?_⟩
    · rintro ⟨choices, hchosen, hroster⟩
      cases hroster
      have hall := mapM_eq_ok.mp hchosen
      -- the names of the choices are those of the report, so none replaces another
      have hnodup : (choices.map Prod.fst).Nodup := by
        rw [(choices_of_forall₂ hall).1]
        exact report.implementations.nodup
      rw [Roster.entries_ofList hnodup]
      exact ⟨hknown, hall⟩
    · rintro ⟨-, hall⟩
      exact ⟨chosen.entries, mapM_eq_ok.mpr hall,
        congrArg Except.ok (Roster.ext (Roster.entries_ofList chosen.nodup))⟩

/-- What a choice is, role by role: all selections are for roles of the report, and every role of
the report has what fills it. -/
theorem choose_eq_ok_byRole {report : Report} {selections : List Role} {chosen : Roster String} :
    report.choose selections = .ok chosen ↔
      (∀ s ∈ selections, s.name ∈ report.implementations.names) ∧
        chosen.names = report.implementations.names ∧
        ∀ role set, report.implementations.get? role = some set →
          ∃ type, chosen.get? role = some type ∧
            chooseMember role set (lastSelected? selections role) = .ok type := by
  have hknown : (∀ s ∈ selections, (report.implementations.get? s.name).isSome) ↔
      ∀ s ∈ selections, s.name ∈ report.implementations.names :=
    forall₂_congr fun s _ => lookup_isSome_iff
  rw [choose_eq_ok, hknown]
  refine and_congr_right fun _ => ⟨fun hall => ?_, ?_⟩
  · obtain ⟨hnames, hchoices⟩ := choices_of_forall₂ hall
    refine ⟨hnames, fun role set hset => ?_⟩
    have hrole : role ∈ chosen.entries.map Prod.fst := by
      rw [hnames]
      exact List.mem_map_of_mem (Roster.mem_entries_of_get? hset)
    obtain ⟨choice, hchoice, rfl⟩ := List.mem_map.mp hrole
    obtain ⟨set', hset', hmember⟩ := hchoices choice hchoice
    obtain rfl : set' = set :=
      Option.some.inj ((Roster.get?_of_mem_entries hset').symm.trans hset)
    exact ⟨choice.2, Roster.get?_of_mem_entries hchoice, hmember⟩
  · rintro ⟨hnames, hfilled⟩
    -- entries and choices stand in the same places under the same names
    have hsame : List.Forall₂ (fun (entry : String × Implementations) (choice : String × String) =>
        entry.1 = choice.1) report.implementations.entries chosen.entries := by
      rw [← List.forall₂_map_left_iff (f := Prod.fst) (R := fun name (choice : String × String) =>
        name = choice.1), ← List.forall₂_map_right_iff (f := Prod.fst), List.forall₂_eq_eq_eq]
      exact hnames.symm
    rw [List.forall₂_iff_zip] at hsame ⊢
    refine ⟨hsame.1, fun {entry choice} hmem => ?_⟩
    obtain ⟨hentry, hchoice⟩ := List.of_mem_zip hmem
    have hname := hsame.2 hmem
    obtain ⟨type, htype, hchosen⟩ := hfilled entry.1 entry.2 (Roster.get?_of_mem_entries hentry)
    rw [hname, Roster.get?_of_mem_entries hchoice] at htype
    cases htype
    exact chooseEntry_eq_ok.mpr ⟨hname.symm, hchosen⟩

/-- If all selections are for roles of the report and every role has what fills it, this is
chosen. -/
theorem exists_choose_of_members {report : Report} {selections : List Role}
    (pick : String → Implementations → String)
    (hknown : ∀ s ∈ selections, s.name ∈ report.implementations.names)
    (hmember : ∀ role set, report.implementations.get? role = some set →
      chooseMember role set (lastSelected? selections role) = .ok (pick role set)) :
    ∃ chosen, report.choose selections = .ok chosen ∧
      chosen.entries = report.implementations.entries.map fun entry =>
        (entry.1, pick entry.1 entry.2) := by
  have hnames : (report.implementations.entries.map fun entry =>
      (entry.1, pick entry.1 entry.2)).map Prod.fst = report.implementations.names := by
    rw [List.map_map]
    rfl
  refine ⟨⟨_, hnames ▸ report.implementations.nodup⟩, choose_eq_ok_byRole.mpr
    ⟨hknown, hnames, fun role set hset => ⟨pick role set, ?_, hmember role set hset⟩⟩, rfl⟩
  exact Roster.get?_of_mem_entries (List.mem_map_of_mem (Roster.mem_entries_of_get? hset))

/-- If every role has a selection and all selections for it are the same member of its set, one
that can be instantiated, these members are chosen. -/
theorem exists_choose_of_picks {report : Report} {selections : List Role} {pick : String → String}
    (hpick : ∀ role set, report.implementations.get? role = some set →
      pick role ∈ set.instantiable.names)
    (hselections : ∀ s ∈ selections,
      (report.implementations.get? s.name).isSome ∧ s.type = pick s.name)
    (hroles : ∀ role ∈ report.implementations.names, ⟨role, pick role⟩ ∈ selections) :
    ∃ chosen, report.choose selections = .ok chosen ∧
      chosen.entries = report.implementations.names.map fun role => (role, pick role) := by
  have hmember : ∀ role set, report.implementations.get? role = some set →
      chooseMember role set (lastSelected? selections role) = .ok (pick role) := by
    intro role set hset
    have hrole : role ∈ report.implementations.names :=
      List.mem_map_of_mem (Roster.mem_entries_of_get? hset)
    have hlast : lastSelected? selections role = some (pick role) :=
      lastSelected?_eq_some (hroles role hrole) fun s hs hname => by
        rw [(hselections s hs).2, hname]
    rw [hlast, chooseMember_eq_ok]
    exact ⟨rfl, mem_names_instantiable.mp (hpick role set hset)⟩
  obtain ⟨chosen, hchosen, hentries⟩ := exists_choose_of_members (fun role _ => pick role)
    (fun s hs => lookup_isSome_iff.mp (hselections s hs).1) hmember
  refine ⟨chosen, hchosen, hentries.trans ?_⟩
  rw [Roster.names, List.map_map]
  rfl

/-- A role with several members that can be instantiated is not resolved by selections for other
roles. -/
theorem choose_ne_ok {report : Report} {selections : List Role} {role : String}
    {set : Implementations} (hset : report.implementations.get? role = some set)
    (hseveral : 2 ≤ set.instantiable.names.length) (hnone : ∀ s ∈ selections, s.name ≠ role)
    (chosen : Roster String) : report.choose selections ≠ .ok chosen := by
  intro h
  obtain ⟨-, -, hfilled⟩ := choose_eq_ok_byRole.mp h
  obtain ⟨type, -, hmember⟩ := hfilled role set hset
  rw [lastSelected?_eq_none_iff.mpr hnone, chooseMember_eq_ok] at hmember
  dsimp only at hmember
  rw [hmember] at hseveral
  exact absurd hseveral (by simp)

end RoleWiring
