import RoleWiring.Json.Domain
import RoleWiring.Proofs.Json.RoundTrip
import RoleWiring.Proofs.Roster

/-!
# Values of the domain in JSON

Every value of the domain is read back from both spellings of its JSON value. Two things
are needed for it: the JSON value has no numbers, and it gives the value back before anything
is spelled. For records the second one comes from one law, that the members of an object whose
names differ are its fields (`fields?_ofMembers`).

A path is kept as a text, so paths that no text spells are left out (`Path.IsText`).
-/

namespace RoleWiring

open Json (Textual)

/-- Both spellings of a value are read as this value. -/
def ReadsBack (toJson : α → Json) (ofJson? : Json → Option α) (v : α) : Prop :=
  readJson ofJson? (toJson v).compact = .ok v ∧ readJson ofJson? (toJson v).pretty = .ok v

theorem readJson_of_parse? {ofJson? : Json → Option α} {text : String} {j : Json} {v : α}
    (hparse : Json.parse? text = some j) (hv : ofJson? j = some v) :
    readJson ofJson? text = .ok v := by
  simp only [readJson, hparse, Option.bind_eq_bind, Option.bind_some, hv]

theorem readsBack_of_textual {toJson : α → Json} {ofJson? : Json → Option α} {v : α}
    (htextual : Textual (toJson v)) (hv : ofJson? (toJson v) = some v) :
    ReadsBack toJson ofJson? v :=
  ⟨readJson_of_parse? (Json.parse?_compact htextual) hv,
    readJson_of_parse? (Json.parse?_pretty htextual) hv⟩

/-- Items that are all accepted give the list of the results. -/
theorem mapM_eq_some_map {f : α → Option β} {g : α → β} {xs : List α}
    (h : ∀ x ∈ xs, f x = some (g x)) : xs.mapM f = some (xs.map g) := by
  induction xs with
  | nil => rfl
  | cons x xs ih =>
    obtain ⟨hx, hxs⟩ := List.forall_mem_cons.mp h
    simp [hx, ih hxs]

/-! ## Records -/

namespace Json

theorem string?_ofString (s : String) : string? (.ofString s) = some s :=
  Units.toString?_ofString s

/-- An array of texts gives the texts. -/
theorem strings?_map (f : α → String) (xs : List α) :
    strings? (.array (xs.map fun x => .ofString (f x))) = some (xs.map f) := by
  rw [strings?, List.mapM_map]
  exact mapM_eq_some_map fun x _ => string?_ofString (f x)

theorem strings?_ofStrings (texts : List String) :
    strings? (.array (texts.map .ofString)) = some texts :=
  (strings?_map id texts).trans (congrArg some (List.map_id texts))

theorem textual_ofStrings (texts : List String) : Textual (.array (texts.map .ofString)) := by
  refine .array fun item hitem => ?_
  obtain ⟨s, -, rfl⟩ := List.mem_map.mp hitem
  exact .text s

/-- The members of an object have their names. -/
theorem namedMembers?_ofMembers (members : List (String × Json)) :
    namedMembers? (members.map fun m => (Units.ofString m.1, m.2)) = some members := by
  rw [namedMembers?, List.mapM_map]
  refine (mapM_eq_some_map fun m _ => ?_).trans (congrArg some (List.map_id members))
  simp [Units.toString?_ofString]

/-- Where the names differ, every member is the only one of its name. -/
theorem uniqueMember?_of_mem {members : List (String × Json)} {name : String} {value : Json}
    (hnodup : (members.map Prod.fst).Nodup) (h : (name, value) ∈ members) :
    uniqueMember? members name = some (some value) := by
  have hfilter : members.filter (fun m => m.1 == name) = [(name, value)] := by
    induction members with
    | nil => cases h
    | cons m members ih =>
      obtain ⟨hm, hrest⟩ := List.nodup_cons.mp hnodup
      rcases List.mem_cons.mp h with rfl | hmem
      · have hnone : members.filter (fun m => m.1 == name) = [] := by
          refine List.filter_eq_nil_iff.mpr fun n hn heq => hm ?_
          exact List.mem_map.mpr ⟨n, hn, eq_of_beq heq⟩
        simp [hnone]
      · have hne : m.1 ≠ name := by
          intro heq
          exact hm (List.mem_map.mpr ⟨(name, value), hmem, heq.symm⟩)
        simp [hne, ih hrest hmem]
  rw [uniqueMember?, hfilter]

/-- Where the names differ, the members of an object are its fields. -/
theorem fields?_ofMembers (members : List (String × Json)) (required : Nat)
    (hnodup : (members.map Prod.fst).Nodup) :
    fields? (members.map Prod.fst) required (.ofMembers members) =
      some (members.map fun m => some m.2) := by
  simp only [fields?, ofMembers, namedMembers?_ofMembers, Option.bind_eq_bind, Option.bind_some]
  rw [List.mapM_map]
  exact mapM_eq_some_map fun m hm => uniqueMember?_of_mem hnodup hm

/-- A text can be set aside anywhere. -/
theorem canSetAside_ofString (room : Nat) (s : String) : canSetAside room (.ofString s) = true := by
  simp [ofString, canSetAside, Units.toString?_ofString]

end Json

open Json

/-! ## Paths and kinds -/

/-- The path is spelled by a text. -/
def Path.IsText (p : Path) : Prop :=
  ∃ s, p = .ofString s

theorem Path.ofString_display {p : Path} (h : p.IsText) : ofString p.display = p := by
  obtain ⟨s, rfl⟩ := h
  rw [display_ofString]

theorem Path.ofJson?_toJson {p : Path} (h : p.IsText) : ofJson? p.toJson = some p := by
  rw [ofJson?, toJson, string?_ofString, Option.map_some, ofString_display h]

theorem Path.textual_toJson (p : Path) : Textual p.toJson :=
  .text p.display

theorem Kind.ofJson?_toJson (k : Kind) : ofJson? k.toJson = some k := by
  show (Units.ofString k.tag).toString? >>= ofTag? = some k
  rw [Units.toString?_ofString]
  exact ofTag?_tag k

theorem Kind.textual_toJson (k : Kind) : Textual k.toJson :=
  .text k.tag

/-! ## Classes, roles and declarations -/

theorem Artifact.ofJson?_toJson {c : Artifact} (h : c.path.IsText) :
    ofJson? c.toJson = some c := by
  have hfields : fields? ["fqn", "path"] 2 c.toJson =
      some [some (.ofString c.name), some c.path.toJson] :=
    fields?_ofMembers [("fqn", .ofString c.name), ("path", c.path.toJson)] 2
      (show ["fqn", "path"].Nodup by decide)
  simp [ofJson?, hfields, string?_ofString, Path.ofJson?_toJson h]

theorem Artifact.textual_toJson (c : Artifact) : Textual c.toJson :=
  .ofMembers (List.forall_mem_cons.mpr
    ⟨.text c.name, List.forall_mem_singleton.mpr c.path.textual_toJson⟩)

theorem Role.ofJson?_toJson (r : Role) : ofJson? r.toJson = some r := by
  have hfields : fields? ["name", "fqn"] 2 r.toJson =
      some [some (.ofString r.name), some (.ofString r.type)] :=
    fields?_ofMembers [("name", .ofString r.name), ("fqn", .ofString r.type)] 2
      (show ["name", "fqn"].Nodup by decide)
  simp [ofJson?, hfields, string?_ofString]

theorem Role.textual_toJson (r : Role) : Textual r.toJson :=
  .ofMembers (List.forall_mem_cons.mpr ⟨.text r.name, List.forall_mem_singleton.mpr (.text r.type)⟩)

namespace Declaration

/-- A superclass as a value: null for none. -/
def superClassToJson : Option String → Json
  | none => .null
  | some s => .ofString s

theorem superClassOfJson?_toJson (superClass : Option String) :
    superClassOfJson? (superClassToJson superClass) = some superClass := by
  cases superClass with
  | none => rfl
  | some s =>
    show (string? (.ofString s)).map some = _
    rw [string?_ofString]
    rfl

/-- The members of a declaration. -/
def members (d : Declaration) : List (String × Json) :=
  [("fqn", .ofString d.name), ("kind", d.kind.toJson),
    ("super_class", superClassToJson d.superClass),
    ("interfaces", .array (d.interfaces.map .ofString))]

theorem toJson_eq (d : Declaration) : d.toJson = .ofMembers d.members := by
  obtain ⟨name, kind, superClass, interfaces⟩ := d
  cases superClass <;> rfl

theorem ofJson?_toJson (d : Declaration) : ofJson? d.toJson = some d := by
  have hfields : fields? ["fqn", "kind", "super_class", "interfaces"] 4 (.ofMembers d.members) =
      some [some (.ofString d.name), some d.kind.toJson, some (superClassToJson d.superClass),
        some (.array (d.interfaces.map .ofString))] :=
    fields?_ofMembers d.members 4
      (show ["fqn", "kind", "super_class", "interfaces"].Nodup by decide)
  simp [ofJson?, toJson_eq, hfields, string?_ofString, Kind.ofJson?_toJson,
    superClassOfJson?_toJson, strings?_ofStrings]

theorem textual_toJson (d : Declaration) : Textual d.toJson := by
  rw [toJson_eq]
  refine .ofMembers (List.forall_mem_cons.mpr ⟨.text d.name, List.forall_mem_cons.mpr
    ⟨d.kind.textual_toJson, List.forall_mem_cons.mpr ⟨?_, List.forall_mem_singleton.mpr ?_⟩⟩⟩)
  · cases d.superClass with
    | none => exact .null
    | some s => exact .text s
  · exact textual_ofStrings d.interfaces

end Declaration

/-! ## Implementations -/

namespace Implementation

theorem ofJsonAt?_toJson {i : Implementation} (h : i.artifact.path.IsText) (depth : Nat) :
    ofJsonAt? depth i.toJson = some i := by
  obtain ⟨⟨name, path⟩, kind⟩ := i
  let others : List (String × Json) := [("fqn", .ofString name), ("path", path.toJson)]
  let members := others ++ [("kind", kind.toJson)]
  have hnodup : (members.map Prod.fst).Nodup := show ["fqn", "path", "kind"].Nodup by decide
  have hothers : (others.map Prod.fst).Nodup := show ["fqn", "path"].Nodup by decide
  have hkind : uniqueMember? members "kind" = some (some kind.toJson) :=
    uniqueMember?_of_mem hnodup (by simp [members])
  have hname : uniqueMember? others "fqn" = some (some (.ofString name)) :=
    uniqueMember?_of_mem hothers (by simp [others])
  have hpath : uniqueMember? others "path" = some (some path.toJson) :=
    uniqueMember?_of_mem hothers (by simp [others])
  have hfilter : members.filter (fun m => m.1 != "kind") = others := rfl
  have haside : others.all (fun m => canSetAside (maxDepth - depth) m.2) = true := by
    simp [others, canSetAside_ofString, Path.toJson]
  show ofJsonAt? depth (.ofMembers members) = _
  simp only [ofJsonAt?, ofMembers, namedMembers?_ofMembers, Option.bind_eq_bind, Option.bind_some,
    hfilter, haside, hkind, hname, hpath]
  simp [string?_ofString, Path.ofJson?_toJson h, Kind.ofJson?_toJson]

theorem textual_toJson (i : Implementation) : Textual i.toJson :=
  .ofMembers (List.forall_mem_cons.mpr ⟨.text i.artifact.name, List.forall_mem_cons.mpr
    ⟨i.artifact.path.textual_toJson, List.forall_mem_singleton.mpr i.kind.textual_toJson⟩⟩)

end Implementation

namespace Implementations

theorem ofJson?_toJson {s : Implementations} (h : ∀ i ∈ s.members, i.artifact.path.IsText) :
    ofJson? s.toJson = some s := by
  have hmembers : s.members.mapM (Implementation.ofJsonAt? 2 ∘ Implementation.toJson) =
      some (s.members.map id) :=
    mapM_eq_some_map fun i hi => Implementation.ofJsonAt?_toJson (h i hi) 2
  simp [toJson, ofJson?, List.mapM_map, hmembers]

theorem textual_toJson (s : Implementations) : Textual s.toJson := by
  refine .array fun item hitem => ?_
  obtain ⟨i, -, rfl⟩ := List.mem_map.mp hitem
  exact i.textual_toJson

end Implementations

namespace Roster

/-- A roster of texts has its names in order. -/
theorem ofJson?_toJson (r : Roster String) : ofJson? (r.toJson .ofString) = some r := by
  simp only [toJson, ofMembers, ofJson?, List.map_map, List.mapM_map]
  rw [mapM_eq_some_map (g := id) fun e _ => by simp [Units.toString?_ofString, string?_ofString]]
  simp [Roster.ext (entries_ofList r.nodup)]

theorem textual_toJson (r : Roster String) : Textual (r.toJson .ofString) := by
  refine .ofMembers fun m hm => ?_
  obtain ⟨e, -, rfl⟩ := List.mem_map.mp hm
  exact .text e.2

end Roster

end RoleWiring
