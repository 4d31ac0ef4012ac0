import RoleWiring.Name.Artifact
import RoleWiring.Proofs.Path
import RoleWiring.Proofs.Text.Utf8
import RoleWiring.Proofs.Text.WhiteSpace

/-!
# Names of types and of artifacts

The name of a type and the names on the way to its artifact say the same: each is
found from the other, and nothing else is.

* `Spells` — the segments of the name of a type that can have an artifact;
* `nameBelow?_eq_some` — which names define which type;
* `artifactPath?_eq` — the path of an artifact joins these names;
* `artifactName?_descend` — an artifact below a root is named as it is without the root;
* `artifactName?_eq_some`, `artifactPath?_eq_some` — both directions, segment by segment.
-/

namespace RoleWiring

/-! ## Segments -/

/-- The bytes that spell a segment. -/
def spelling (segment : List Char) : Bytes :=
  utf8Bytes (String.ofList segment)

theorem not_mem_identifier {cs : List Char} (h : isIdentifierChars cs = true) {c : Char}
    (hc : isIdentifierPart c = false) : c ∉ cs := by
  intro hmem
  rw [all_isIdentifierPart h c hmem] at hc
  cases hc

theorem dot_not_mem_identifier {cs : List Char} (h : isIdentifierChars cs = true) : '.' ∉ cs :=
  not_mem_identifier h (by decide +kernel)

theorem slash_not_mem_spelling {cs : List Char} (h : isIdentifierChars cs = true) :
    slash ∉ spelling cs := by
  intro hmem
  have hslash : '/' ∈ cs := mem_of_mem_utf8Bytes (by decide) (by decide) hmem
  exact not_mem_identifier h (by decide +kernel) hslash

theorem dot_not_mem_spelling {cs : List Char} (h : isIdentifierChars cs = true) :
    dot ∉ spelling cs := by
  intro hmem
  have hdot : '.' ∈ cs := mem_of_mem_utf8Bytes (by decide) (by decide) hmem
  exact dot_not_mem_identifier h hdot

theorem spelling_ne_nil {cs : List Char} (h : isIdentifierChars cs = true) :
    spelling cs ≠ [] := by
  refine utf8Bytes_ofList_ne_nil ?_
  rintro rfl
  cases h

/-- The identifier that is spelled is the one that is read. -/
theorem identifier?_eq_some {bs : Bytes} {cs : List Char} :
    identifier? bs = some cs ↔ isIdentifierChars cs = true ∧ bs = spelling cs := by
  unfold identifier? isIdentifier spelling
  refine ⟨?_, ?_⟩
  · intro h
    split at h
    · next s hs =>
      split at h
      · next hid =>
        cases h
        rw [String.ofList_toList, utf8Bytes_of_utf8Text? hs]
        exact ⟨hid, rfl⟩
      · cases h
    · cases h
  · rintro ⟨hid, rfl⟩
    rw [utf8Text?_utf8Bytes]
    dsimp only
    rw [String.toList_ofList, if_pos hid]

/-- Segments that are read one by one are the spelled ones. -/
theorem mapM_identifier?_eq_some {names : List Bytes} {segments : List (List Char)} :
    names.mapM identifier? = some segments ↔
      (∀ s ∈ segments, isIdentifierChars s = true) ∧ names = segments.map spelling := by
  induction names generalizing segments with
  | nil =>
    simp only [List.mapM_nil, Option.pure_def, Option.some.injEq]
    refine ⟨?_, ?_⟩
    · rintro rfl
      exact ⟨fun s hs => absurd hs List.not_mem_nil, rfl⟩
    · rintro ⟨-, h⟩
      exact (List.map_eq_nil_iff.mp h.symm).symm
  | cons n names ih =>
    rw [List.mapM_cons]
    refine ⟨?_, ?_⟩
    · intro h
      obtain ⟨s, hs, htail⟩ := Option.bind_eq_some_iff.mp h
      obtain ⟨rest, hrest, hsegments⟩ := Option.bind_eq_some_iff.mp htail
      cases hsegments
      obtain ⟨hid, rfl⟩ := identifier?_eq_some.mp hs
      obtain ⟨hids, rfl⟩ := ih.mp hrest
      exact ⟨List.forall_mem_cons.mpr ⟨hid, hids⟩, rfl⟩
    · rintro ⟨hids, hnames⟩
      cases segments with
      | nil => cases hnames
      | cons s rest =>
        obtain ⟨rfl, hrest⟩ := List.cons.inj hnames
        obtain ⟨hid, hids⟩ := List.forall_mem_cons.mp hids
        rw [identifier?_eq_some.mpr ⟨hid, rfl⟩, ih.mpr ⟨hids, hrest⟩]
        rfl

/-! ## File names -/

/-- The file name of an artifact with this stem. -/
def artifactFile (stem : Bytes) : Bytes :=
  stem ++ dot :: classExtension

theorem dot_not_mem_classExtension : dot ∉ classExtension := by
  decide

/-- A file name is divided at its last dot. -/
theorem splitExtension?_append {stem extension : Bytes} (hstem : stem ≠ [])
    (h : dot ∉ extension) :
    splitExtension? (stem ++ dot :: extension) = some (stem, extension) := by
  have hreverse :
      (stem ++ dot :: extension).reverse = extension.reverse ++ dot :: stem.reverse := by
    simp
  have hne : ∀ b ∈ extension.reverse, decide (b ≠ dot) = true := by
    intro b hb
    refine decide_eq_true ?_
    rintro rfl
    exact h (List.mem_reverse.mp hb)
  unfold splitExtension?
  rw [hreverse, List.takeWhile_append_of_pos hne, List.dropWhile_append_of_pos hne]
  simp [hstem]

/-- What a file name is divided into makes it up again. -/
theorem eq_of_splitExtension? {name stem extension : Bytes}
    (h : splitExtension? name = some (stem, extension)) :
    stem ≠ [] ∧ name = stem ++ dot :: extension := by
  unfold splitExtension? at h
  dsimp only at h
  split at h
  · next b rest hdrop =>
    split at h
    · cases h
    · next hrest =>
      cases h
      -- read backwards, the name goes on with a dot where the extension ends
      have hb : b = dot := by
        have hhead := List.head?_dropWhile_not (fun b => decide (b ≠ dot)) name.reverse
        rw [hdrop] at hhead
        simpa using hhead
      have hwhole := List.takeWhile_append_dropWhile (p := fun b => decide (b ≠ dot))
        (l := name.reverse)
      refine ⟨fun hnil => hrest (List.reverse_eq_nil_iff.mp hnil), ?_⟩
      rw [hdrop, hb] at hwhole
      have hname := congrArg List.reverse hwhole
      rw [List.reverse_reverse, List.reverse_append, List.reverse_cons, List.append_assoc] at hname
      exact hname.symm
  · cases h

theorem artifactStem?_eq_some {file stem : Bytes} :
    artifactStem? file = some stem ↔ stem ≠ [] ∧ file = artifactFile stem := by
  unfold artifactStem? artifactFile
  refine ⟨?_, ?_⟩
  · intro h
    split at h
    · next s e hsplit =>
      split at h
      · next hext =>
        cases h
        cases hext
        exact eq_of_splitExtension? hsplit
      · cases h
    · cases h
  · rintro ⟨hne, rfl⟩
    rw [splitExtension?_append hne dot_not_mem_classExtension]
    exact if_pos rfl

/-! ## The names on the way to an artifact -/

/-- The names below a root that lead to the artifact of the type with these segments. -/
def artifactNames (segments : List (List Char)) : List Bytes :=
  segments.dropLast.map spelling ++
    segments.getLast?.toList.map fun s => artifactFile (spelling s)

/-- The segments of the name of a type that can have an artifact. -/
def typeSegments? (name : String) : Option (List (List Char)) :=
  if (nameSegments name).all isIdentifierChars then some (nameSegments name) else none

/-- The name consists of these segments, at least one, and all of them are identifiers. -/
structure Spells (segments : List (List Char)) (name : String) : Prop where
  /-- there is a segment -/
  ne_nil : segments ≠ []
  /-- the segments are identifiers -/
  identifiers : ∀ s ∈ segments, isIdentifierChars s = true
  /-- the name has them with dots between them -/
  dotted : name = qualifiedName segments

theorem typeSegments?_eq_some {name : String} {segments : List (List Char)} :
    typeSegments? name = some segments ↔ Spells segments name := by
  unfold typeSegments?
  refine ⟨?_, ?_⟩
  · intro h
    obtain ⟨hall, hsegments⟩ := Option.ite_none_right_eq_some.mp h
    cases hsegments
    exact ⟨List.splitOn_ne_nil _ _, List.all_eq_true.mp hall,
      (qualifiedName_nameSegments name).symm⟩
  · rintro ⟨hne, hall, rfl⟩
    rw [nameSegments_qualifiedName hne fun s hs => dot_not_mem_identifier (hall s hs)]
    exact if_pos (List.all_eq_true.mpr hall)

/-- A name has its segments in one way only. -/
theorem Spells.unique {name : String} {segments segments' : List (List Char)}
    (h : Spells segments name) (h' : Spells segments' name) : segments = segments' :=
  Option.some.inj ((typeSegments?_eq_some.mpr h).symm.trans (typeSegments?_eq_some.mpr h'))

theorem eq_or_mem_of_mem_intercalate {α : Type u} {separator c : α} {segments : List (List α)}
    (h : c ∈ [separator].intercalate segments) : c = separator ∨ ∃ s ∈ segments, c ∈ s := by
  induction segments with
  | nil => cases h
  | cons s segments ih =>
    cases segments with
    | nil => exact .inr ⟨s, List.mem_cons_self .., by simpa using h⟩
    | cons s' segments =>
      rw [List.intercalate_cons_cons, List.mem_append, List.mem_append, List.mem_singleton] at h
      rcases h with (hs | rfl) | hrest
      · exact .inr ⟨s, List.mem_cons_self .., hs⟩
      · exact .inl rfl
      · exact (ih hrest).imp_right fun ⟨s'', hmem, hc⟩ => ⟨s'', List.mem_cons_of_mem _ hmem, hc⟩

/-- There is no white space in the name of a type that can have an artifact. -/
theorem Spells.trimmed {name : String} {segments : List (List Char)} (h : Spells segments name) :
    Trimmed name.toList := by
  obtain ⟨-, hids, rfl⟩ := h
  refine .of_forall fun c hc => ?_
  rw [qualifiedName, String.toList_ofList] at hc
  obtain rfl | ⟨s, hs, hmem⟩ := eq_or_mem_of_mem_intercalate hc
  · decide
  · exact isWhiteSpace_of_isIdentifierPart (all_isIdentifierPart (hids s hs) c hmem)

/-- The names that define a type are those that lead to its artifact. -/
theorem nameBelow?_eq_some {names : List Bytes} {name : String} :
    nameBelow? names = some name ↔
      ∃ segments, Spells segments name ∧ names = artifactNames segments := by
  unfold nameBelow?
  refine ⟨?_, ?_⟩
  · intro h
    split at h
    · cases h
    · next file hfile =>
      obtain ⟨dirs, rfl⟩ := List.getLast?_eq_some_iff.mp hfile
      obtain ⟨stem, hstem, h⟩ := Option.bind_eq_some_iff.mp h
      obtain ⟨segments, hsegments, h⟩ := Option.bind_eq_some_iff.mp h
      cases h
      obtain ⟨-, rfl⟩ := artifactStem?_eq_some.mp hstem
      rw [List.dropLast_concat] at hsegments
      obtain ⟨hids, hspelled⟩ := mapM_identifier?_eq_some.mp hsegments
      obtain ⟨front, back, rfl, hfront, hback⟩ := List.map_eq_append_iff.mp hspelled.symm
      obtain ⟨last, rfl, hlast⟩ := List.map_eq_singleton_iff.mp hback
      refine ⟨front ++ [last], ⟨by simp, hids, rfl⟩, ?_⟩
      unfold artifactNames
      rw [List.dropLast_concat, List.getLast?_concat, hfront]
      exact congrArg (dirs ++ [artifactFile ·]) hlast.symm
  · rintro ⟨segments, ⟨hne, hids, rfl⟩, rfl⟩
    obtain ⟨front, last, rfl⟩ := List.eq_nil_or_concat' segments |>.resolve_left hne
    have hlast := hids last (List.mem_append_right _ (List.mem_singleton_self _))
    have hnames : artifactNames (front ++ [last]) =
        front.map spelling ++ [artifactFile (spelling last)] := by
      unfold artifactNames
      rw [List.dropLast_concat, List.getLast?_concat]
      rfl
    have hread : (front.map spelling ++ [spelling last]).mapM identifier? =
        some (front ++ [last]) :=
      mapM_identifier?_eq_some.mpr ⟨hids, by rw [List.map_append]; rfl⟩
    rw [hnames, List.getLast?_concat, List.dropLast_concat]
    dsimp only
    rw [artifactStem?_eq_some.mpr ⟨spelling_ne_nil hlast, rfl⟩]
    show ((front.map spelling ++ [spelling last]).mapM identifier?).bind _ = _
    rw [hread]
    rfl

theorem plain_spelling {cs : List Char} (h : isIdentifierChars cs = true) :
    Plain (spelling cs) := by
  refine ⟨spelling_ne_nil h, ?_, ?_, slash_not_mem_spelling h⟩
  · intro heq
    exact dot_not_mem_spelling h (heq ▸ List.mem_cons_self ..)
  · intro heq
    exact dot_not_mem_spelling h (heq ▸ List.mem_cons_self ..)

theorem plain_artifactFile {cs : List Char} (h : isIdentifierChars cs = true) :
    Plain (artifactFile (spelling cs)) := by
  -- with the extension the name is too long to be a dot or two
  have hlength : 5 < (artifactFile (spelling cs)).length := by
    have hext : classExtension.length = 5 := by decide
    unfold artifactFile
    rw [List.length_append, List.length_cons, hext]
    omega
  refine ⟨?_, ?_, ?_, ?_⟩
  · intro heq
    rw [heq] at hlength
    cases hlength
  · intro heq
    rw [heq] at hlength
    exact absurd hlength (by decide)
  · intro heq
    rw [heq] at hlength
    exact absurd hlength (by decide)
  · intro hmem
    rcases List.mem_append.mp hmem with hstem | hext
    · exact slash_not_mem_spelling h hstem
    · exact absurd hext (by decide)

/-- All names on the way to an artifact are plain. -/
theorem plain_artifactNames {segments : List (List Char)}
    (h : ∀ s ∈ segments, isIdentifierChars s = true) :
    ∀ n ∈ artifactNames segments, Plain n := by
  intro n hn
  rcases List.mem_append.mp hn with hdir | hfile
  · obtain ⟨s, hs, rfl⟩ := List.mem_map.mp hdir
    exact plain_spelling (h s ((List.dropLast_sublist _).subset hs))
  · obtain ⟨s, hs, rfl⟩ := List.mem_map.mp hfile
    exact plain_artifactFile (h s (List.mem_of_getLast? (Option.mem_toList.mp hs)))

theorem artifactNames_ne_nil {segments : List (List Char)} (h : segments ≠ []) :
    artifactNames segments ≠ [] := by
  obtain ⟨s, hs⟩ := Option.isSome_iff_exists.mp (List.getLast?_isSome.mpr h)
  unfold artifactNames
  rw [hs]
  simp

/-! ## Paths -/

theorem intercalate_slash_concat (dirs : List Bytes) (stem extension : Bytes) :
    [slash].intercalate (dirs ++ [stem ++ extension]) =
      [slash].intercalate (dirs ++ [stem]) ++ extension := by
  cases dirs with
  | nil => simp
  | cons d dirs =>
    rw [List.cons_append, List.cons_append, Path.intercalate_slash_cons,
      Path.intercalate_slash_cons]
    simp

/-- The path of an artifact joins the names on the way to it. -/
theorem artifactPath?_eq (name : String) :
    artifactPath? name =
      (typeSegments? name).map fun segments => ⟨[slash].intercalate (artifactNames segments)⟩ := by
  unfold artifactPath? typeSegments?
  dsimp only
  by_cases hall : (nameSegments name).all isIdentifierChars
  · rw [if_pos hall, if_pos hall]
    refine congrArg (fun bs => some (⟨bs⟩ : Path)) ?_
    obtain ⟨front, last, hsegments⟩ :=
      List.eq_nil_or_concat' (nameSegments name) |>.resolve_left (List.splitOn_ne_nil _ _)
    unfold artifactNames artifactFile
    rw [hsegments, List.dropLast_concat, List.getLast?_concat, List.map_append]
    exact (intercalate_slash_concat (front.map spelling) (spelling last) _).symm
  · rw [if_neg hall, if_neg hall]
    rfl

theorem componentsBelow?_append (root rest : List Component) :
    componentsBelow? root (root ++ rest) = some rest := by
  induction root with
  | nil => rfl
  | cons c root ih =>
    rw [List.cons_append, componentsBelow?, if_pos rfl, ih]

theorem mapM_name? (names : List Bytes) :
    (names.map Component.name).mapM Component.name? = some names := by
  induction names with
  | nil => rfl
  | cons n names ih =>
    rw [List.map_cons, List.mapM_cons, ih]
    rfl

/-- An artifact below a root is named by the names that lead to it from there. -/
theorem artifactName?_descend (root : Path) {names : List Bytes}
    (hnames : ∀ n ∈ names, Plain n) :
    artifactName? root (root.descend names) = nameBelow? names := by
  unfold artifactName?
  rw [Path.components_descend root hnames, componentsBelow?_append]
  show ((names.map Component.name).mapM Component.name?).bind nameBelow? = _
  rw [mapM_name?]
  rfl

/-! ## Both directions -/

variable {root p : Path} {names : List Bytes} {name : String} {segments : List (List Char)}

/-- Plain names below a root define a type if they are its segments, with the extension of artifacts
after the last one. -/
theorem artifactName?_eq_some (root : Path) (hnames : ∀ n ∈ names, Plain n) :
    artifactName? root (root.descend names) = some name ↔
      ∃ segments, Spells segments name ∧ names = artifactNames segments := by
  rw [artifactName?_descend root hnames, nameBelow?_eq_some]

/-- The path of an artifact has the segments of the type, with the extension after the last one. -/
theorem artifactPath?_eq_some :
    artifactPath? name = some p ↔
      ∃ segments, Spells segments name ∧ p = ⟨[slash].intercalate (artifactNames segments)⟩ := by
  simp only [artifactPath?_eq, Option.map_eq_some_iff, typeSegments?_eq_some, eq_comm (a := p)]

namespace Spells

theorem plain (h : Spells segments name) : ∀ n ∈ artifactNames segments, Plain n :=
  plain_artifactNames h.identifiers

theorem names_ne_nil (h : Spells segments name) : artifactNames segments ≠ [] :=
  artifactNames_ne_nil h.ne_nil

/-- Below any root the path of an artifact leads down the names on the way to it. -/
theorem join (h : Spells segments name) (root : Path) :
    root.join ⟨[slash].intercalate (artifactNames segments)⟩ =
      root.descend (artifactNames segments) :=
  (root.descend_eq_join h.plain h.names_ne_nil).symm

/-- Below the empty path this is the path of the artifact itself. -/
theorem join_of_nil (h : Spells segments name) (hroot : root.bytes = []) :
    root.join ⟨[slash].intercalate (artifactNames segments)⟩ =
      ⟨[slash].intercalate (artifactNames segments)⟩ :=
  Path.join_of_nil hroot (Path.isAbsolute_intercalate h.plain h.names_ne_nil)

/-- The path of an artifact says the names on the way to it, and nothing else. -/
theorem components (h : Spells segments name) :
    (⟨[slash].intercalate (artifactNames segments)⟩ : Path).components =
      (artifactNames segments).map .name := by
  have hempty : (⟨[]⟩ : Path).bytes = [] := rfl
  rw [← h.join_of_nil hempty, h.join, Path.components_descend _ h.plain]
  rfl

end Spells

end RoleWiring
