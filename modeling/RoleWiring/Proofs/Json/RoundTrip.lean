import RoleWiring.Json.Reader
import RoleWiring.Json.Writer

/-!
# What is written is read back

Values without numbers whose texts are strings are read back from both spellings. The
writer and the reader meet in the tokens of a value: the spelling is cut into them
(`tokens?_render`), and they drive the machine to the value (`foldlM_tokens`).

* `parse?_render` — a spelling denotes the value, also with white space after it.
-/

namespace RoleWiring.Json

/-! ## Texts -/

theorem textBody?_quote (cs : List Char) : textBody? ('"' :: cs) = some ([], cs) := by
  rw [textBody?.eq_def]
  exact if_pos rfl

theorem textBody?_short {e x : Char} (h : shortEscape? e = some x) (cs : List Char) :
    textBody? ('\\' :: e :: cs) = (textBody? cs).map fun (us, rest) => (.char x :: us, rest) := by
  have hu : e ≠ 'u' := by
    rintro rfl
    cases h
  rw [textBody?.eq_def]
  dsimp only
  rw [if_neg (by decide), if_pos rfl, if_neg hu, h]

theorem textBody?_hex {a b c d : Char} {u : TextUnit} (h : hexUnit? a b c d = some u)
    (cs : List Char) :
    textBody? ('\\' :: 'u' :: a :: b :: c :: d :: cs) =
      (textBody? cs).map fun (us, rest) => (u :: us, rest) := by
  rw [textBody?.eq_def]
  dsimp only
  rw [if_neg (by decide), if_pos rfl, if_pos rfl, h]

theorem textBody?_plain {c : Char} (hquote : c ≠ '"') (hbackslash : c ≠ '\\')
    (hcontrol : ¬ c.toNat < 0x20) (cs : List Char) :
    textBody? (c :: cs) = (textBody? cs).map fun (us, rest) => (.char c :: us, rest) := by
  rw [textBody?.eq_def]
  dsimp only
  rw [if_neg hquote, if_neg hbackslash, if_neg hcontrol]

/-- The escape of a control character stands for it. -/
theorem hexUnit?_of_lt {c : Char} (h : c.toNat < 0x20) :
    hexUnit? (hexDigit (c.toNat / 4096 % 16)) (hexDigit (c.toNat / 256 % 16))
      (hexDigit (c.toNat / 16 % 16)) (hexDigit (c.toNat % 16)) = some (.char c) := by
  have hall : ∀ n < 0x20, hexUnit? (hexDigit (n / 4096 % 16)) (hexDigit (n / 256 % 16))
      (hexDigit (n / 16 % 16)) (hexDigit (n % 16)) = some (.char (Char.ofNat n)) := by
    decide
  have hc := hall c.toNat h
  rw [Char.ofNat_toNat] at hc
  exact hc

/-- A character that was written is read back. -/
theorem textBody?_escapeChar (c : Char) (cs : List Char) :
    textBody? (escapeChar c ++ cs) =
      (textBody? cs).map fun (us, rest) => (.char c :: us, rest) := by
  unfold escapeChar
  split
  · next h =>
    subst h
    exact textBody?_short rfl cs
  split
  · next h =>
    subst h
    exact textBody?_short rfl cs
  split
  · next h =>
    subst h
    exact textBody?_short rfl cs
  split
  · next h =>
    subst h
    exact textBody?_short rfl cs
  split
  · next h =>
    subst h
    exact textBody?_short rfl cs
  split
  · next h =>
    subst h
    exact textBody?_short rfl cs
  split
  · next h =>
    subst h
    exact textBody?_short rfl cs
  split
  · next h => exact textBody?_hex (hexUnit?_of_lt h) cs
  · next hquote hbackslash _ _ _ _ _ hcontrol =>
    exact textBody?_plain hquote hbackslash hcontrol cs

/-- A text that was written is read back, up to its closing quote. -/
theorem textBody?_escaped (s : List Char) (rest : List Char) :
    textBody? ((s.map TextUnit.char).flatMap escapeUnit ++ '"' :: rest) =
      some (s.map .char, rest) := by
  induction s with
  | nil => exact textBody?_quote rest
  | cons c s ih =>
    rw [List.map_cons, List.flatMap_cons, List.append_assoc]
    show textBody? (escapeChar c ++ _) = _
    rw [textBody?_escapeChar, ih]
    rfl

/-! ## Tokens -/

/-- White space before a token is dropped. -/
theorem tokens?_blanks {blanks : List Char} (h : ∀ c ∈ blanks, isBlankChar c = true)
    (cs : List Char) : tokens? (blanks ++ cs) = tokens? cs := by
  induction blanks with
  | nil => rfl
  | cons c blanks ih =>
    obtain ⟨hc, hrest⟩ := List.forall_mem_cons.mp h
    rw [List.cons_append, tokens?, if_pos hc, ih hrest]

/-- A token is taken off. -/
theorem tokens?_of_token? {c : Char} {cs rest : List Char} {token : Token}
    (hblank : isBlankChar c = false) (h : token? c cs = some (token, rest)) :
    tokens? (c :: cs) = (tokens? rest).map (token :: ·) := by
  rw [tokens?, if_neg (Bool.eq_false_iff.mp hblank)]
  split
  · next heq =>
    rw [h] at heq
    cases heq
    rfl
  · next heq =>
    rw [h] at heq
    cases heq

/-- A bracket, a comma or a colon is a token of its own. -/
theorem tokens?_mark (token : Token) {c : Char} (h : mark? c = some token) (cs : List Char) :
    tokens? (c :: cs) = (tokens? cs).map (token :: ·) := by
  have hblank : isBlankChar c = false := by
    refine Bool.eq_false_iff.mpr fun hblank => ?_
    simp only [isBlankChar, Bool.or_eq_true, beq_iff_eq] at hblank
    rcases hblank with ((rfl | rfl) | rfl) | rfl <;> cases h
  refine tokens?_of_token? hblank ?_
  unfold token?
  rw [h]

/-- A text in quotes is a token. -/
theorem tokens?_quoted (s : String) (rest : List Char) :
    tokens? (quoted (Units.ofString s) ++ rest) =
      (tokens? rest).map (.text (Units.ofString s) :: ·) := by
  have hbody := textBody?_escaped s.toList rest
  unfold quoted
  rw [List.cons_append, List.append_assoc]
  refine tokens?_of_token? (by decide) ?_
  unfold token?
  rw [show mark? '"' = none from by decide]
  dsimp only
  rw [if_pos rfl]
  exact congrArg (Option.map _) hbody

theorem tokens?_lineBreak (pretty : Bool) (depth : Nat) (cs : List Char) :
    tokens? (lineBreak pretty depth ++ cs) = tokens? cs := by
  refine tokens?_blanks (fun c hc => ?_) cs
  unfold lineBreak at hc
  split at hc
  · rcases List.mem_cons.mp hc with rfl | hc
    · rfl
    · rw [List.eq_of_mem_replicate hc]
      rfl
  · cases hc

theorem tokens?_nameBreak (pretty : Bool) (cs : List Char) :
    tokens? (nameBreak pretty ++ cs) = (tokens? cs).map (.colon :: ·) := by
  cases pretty with
  | false => exact tokens?_mark .colon rfl cs
  | true =>
    have hspace : ∀ c ∈ [' '], isBlankChar c = true := List.forall_mem_singleton.mpr rfl
    refine (tokens?_mark .colon rfl (' ' :: cs)).trans ?_
    exact congrArg (Option.map _) (tokens?_blanks hspace cs)

/-- Values without numbers, all of whose texts are strings. -/
inductive Textual : Json → Prop
  | null : Textual .null
  | bool (b : Bool) : Textual (.bool b)
  | text (s : String) : Textual (.ofString s)
  | array {items : List Json} (h : ∀ item ∈ items, Textual item) : Textual (.array items)
  | object {members : List (Units × Json)} (hname : ∀ m ∈ members, ∃ s, m.1 = Units.ofString s)
      (hvalue : ∀ m ∈ members, Textual m.2) : Textual (.object members)

theorem Textual.ofMembers {members : List (String × Json)} (h : ∀ m ∈ members, Textual m.2) :
    Textual (.ofMembers members) := by
  refine .object (fun m hm => ?_) fun m hm => ?_
  · obtain ⟨n, -, rfl⟩ := List.mem_map.mp hm
    exact ⟨n.1, rfl⟩
  · obtain ⟨n, hn, rfl⟩ := List.mem_map.mp hm
    exact h n hn

mutual

/-- The tokens of a value. -/
def tokens : Json → List Token
  | .text u => [.text u]
  | .array [] => [.beginArray, .endArray]
  | .array (item :: items) => .beginArray :: (tokens item ++ itemTokens items)
  | .object [] => [.beginObject, .endObject]
  | .object ((name, value) :: members) =>
    .beginObject :: .text name :: .colon :: (tokens value ++ memberTokens members)
  | j => [.scalar j]

/-- The tokens of the items after the first, up to the closing bracket. -/
def itemTokens : List Json → List Token
  | [] => [.endArray]
  | item :: items => .comma :: (tokens item ++ itemTokens items)

/-- The tokens of the members after the first, up to the closing bracket. -/
def memberTokens : List (Units × Json) → List Token
  | [] => [.endObject]
  | (name, value) :: members =>
    .comma :: .text name :: .colon :: (tokens value ++ memberTokens members)

end

section Cutting

variable {pretty : Bool}

/-- The spelling of the value `j` is cut into its tokens, whatever comes after it. -/
def IsCut (pretty : Bool) (j : Json) : Prop :=
  ∀ depth rest, tokens? (render pretty depth j ++ rest) = (tokens? rest).map (tokens j ++ ·)

theorem tokens?_renderItems {items : List Json} (h : ∀ item ∈ items, IsCut pretty item)
    (depth : Nat) (rest : List Char) :
    tokens? (renderItems pretty depth items ++ rest) =
      (tokens? rest).map (itemTokens items ++ ·) := by
  induction items with
  | nil =>
    rw [renderItems, List.append_assoc, tokens?_lineBreak]
    exact tokens?_mark .endArray rfl rest
  | cons item items ih =>
    obtain ⟨hitem, hitems⟩ := List.forall_mem_cons.mp h
    rw [renderItems, List.cons_append, tokens?_mark .comma rfl, List.append_assoc,
      List.append_assoc, tokens?_lineBreak, hitem, ih hitems, Option.map_map, Option.map_map]
    refine congrArg (fun f => (tokens? rest).map f) (funext fun ts => ?_)
    simp [itemTokens]

theorem tokens?_renderMembers {members : List (Units × Json)}
    (hname : ∀ m ∈ members, ∃ s, m.1 = Units.ofString s)
    (hvalue : ∀ m ∈ members, IsCut pretty m.2) (depth : Nat) (rest : List Char) :
    tokens? (renderMembers pretty depth members ++ rest) =
      (tokens? rest).map (memberTokens members ++ ·) := by
  induction members with
  | nil =>
    rw [renderMembers, List.append_assoc, tokens?_lineBreak]
    exact tokens?_mark .endObject rfl rest
  | cons member members ih =>
    obtain ⟨hmember, hmembers⟩ := List.forall_mem_cons.mp hname
    obtain ⟨hcut, hcuts⟩ := List.forall_mem_cons.mp hvalue
    obtain ⟨name, value⟩ := member
    obtain ⟨s, rfl⟩ := hmember
    rw [renderMembers, List.cons_append, tokens?_mark .comma rfl]
    simp only [List.append_assoc]
    rw [tokens?_lineBreak, tokens?_quoted, tokens?_nameBreak, hcut, ih hmembers hcuts]
    simp only [Option.map_map]
    refine congrArg (fun f => (tokens? rest).map f) (funext fun ts => ?_)
    simp [memberTokens]

/-- A spelling is cut into the tokens of the value. -/
theorem tokens?_render {j : Json} (h : Textual j) : IsCut pretty j := by
  induction h with
  | null =>
    intro depth rest
    exact tokens?_of_token? rfl rfl
  | bool b =>
    intro depth rest
    cases b <;> exact tokens?_of_token? rfl rfl
  | text s =>
    intro depth rest
    exact tokens?_quoted s rest
  | @array items h ih =>
    intro depth rest
    cases items with
    | nil =>
      refine (tokens?_mark .beginArray rfl (']' :: rest)).trans ?_
      rw [tokens?_mark .endArray rfl, Option.map_map]
      rfl
    | cons item items =>
      obtain ⟨hitem, hitems⟩ := List.forall_mem_cons.mp ih
      rw [render, List.cons_append, tokens?_mark .beginArray rfl, List.append_assoc,
        List.append_assoc, tokens?_lineBreak, hitem, tokens?_renderItems hitems]
      simp only [Option.map_map]
      refine congrArg (fun f => (tokens? rest).map f) (funext fun ts => ?_)
      simp [tokens]
  | @object members hname hvalue ih =>
    intro depth rest
    cases members with
    | nil =>
      refine (tokens?_mark .beginObject rfl ('}' :: rest)).trans ?_
      rw [tokens?_mark .endObject rfl, Option.map_map]
      rfl
    | cons member members =>
      obtain ⟨⟨s, hs⟩, hnames⟩ := List.forall_mem_cons.mp hname
      obtain ⟨hcut, hcuts⟩ := List.forall_mem_cons.mp ih
      obtain ⟨name, value⟩ := member
      dsimp only at hs hcut
      subst hs
      rw [render, List.cons_append, tokens?_mark .beginObject rfl]
      simp only [List.append_assoc]
      rw [tokens?_lineBreak, tokens?_quoted, tokens?_nameBreak, hcut,
        tokens?_renderMembers hnames hcuts]
      simp only [Option.map_map]
      refine congrArg (fun f => (tokens? rest).map f) (funext fun ts => ?_)
      simp [tokens]

end Cutting

/-! ## The machine -/

/-- The tokens of `j` drive the machine to the value `j` where a value is expected. -/
def IsRead (j : Json) : Prop :=
  ∀ stack, (tokens j).foldlM step (.value, stack) = some (.finished j, stack)

/-- Where the first item of an array may stand, only the end of the array is taken otherwise than
where a value is expected. -/
theorem step_firstItem {t : Token} (h : t ≠ .endArray) (stack : List Frame) :
    step (.firstItem, stack) t = step (.value, stack) t := by
  show _ = startValue stack t
  unfold step
  split <;> simp_all

/-- No value begins with the end of an array. -/
theorem exists_tokens_eq_cons (j : Json) : ∃ t ts, tokens j = t :: ts ∧ t ≠ .endArray := by
  cases j with
  | array items => cases items <;> exact ⟨_, _, rfl, nofun⟩
  | object members => cases members <;> exact ⟨_, _, rfl, nofun⟩
  | _ => exact ⟨_, _, rfl, nofun⟩

/-- Where the first item of an array may stand, a value is read as it is elsewhere. -/
theorem IsRead.firstItem {j : Json} (h : IsRead j) (stack : List Frame) :
    (tokens j).foldlM step (.firstItem, stack) = some (.finished j, stack) := by
  rw [← h stack]
  obtain ⟨t, ts, htokens, ht⟩ := exists_tokens_eq_cons j
  rw [htokens, List.foldlM_cons, List.foldlM_cons, step_firstItem ht]

/-- The items after the first are read into the array. -/
theorem foldlM_itemTokens {items : List Json} (h : ∀ item ∈ items, IsRead item)
    (value : Json) (before : List Json) (stack : List Frame) :
    (itemTokens items).foldlM step (.finished value, .array before :: stack) =
      some (.finished (.array (before.reverse ++ value :: items)), stack) := by
  induction items generalizing value before with
  | nil =>
    rw [← List.reverse_cons]
    rfl
  | cons item items ih =>
    obtain ⟨hitem, hitems⟩ := List.forall_mem_cons.mp h
    show ((tokens item ++ itemTokens items).foldlM step
      (.value, .array (value :: before) :: stack)) = _
    rw [List.foldlM_append, hitem]
    refine (ih hitems item (value :: before)).trans ?_
    simp

/-- The members after the first are read into the object. -/
theorem foldlM_memberTokens {members : List (Units × Json)} (h : ∀ m ∈ members, IsRead m.2)
    (value : Json) (name : Units) (before : List (Units × Json)) (stack : List Frame) :
    (memberTokens members).foldlM step (.finished value, .member before name :: stack) =
      some (.finished (.object (before.reverse ++ (name, value) :: members)), stack) := by
  induction members generalizing value name before with
  | nil =>
    rw [← List.reverse_cons]
    rfl
  | cons member members ih =>
    obtain ⟨hmember, hmembers⟩ := List.forall_mem_cons.mp h
    obtain ⟨n, v⟩ := member
    show ((tokens v ++ memberTokens members).foldlM step
      (.value, .member ((name, value) :: before) n :: stack)) = _
    rw [List.foldlM_append, hmember]
    refine (ih hmembers v n ((name, value) :: before)).trans ?_
    simp

/-- The tokens of a value drive the machine to it. -/
theorem foldlM_tokens {j : Json} (h : Textual j) : IsRead j := by
  induction h with
  | null => exact fun _ => rfl
  | bool b => exact fun _ => rfl
  | text s => exact fun _ => rfl
  | @array items h ih =>
    intro stack
    cases items with
    | nil => rfl
    | cons item items =>
      obtain ⟨hitem, hitems⟩ := List.forall_mem_cons.mp ih
      show ((tokens item ++ itemTokens items).foldlM step (.firstItem, .array [] :: stack)) = _
      -- the first item is read where the end of the array could stand as well
      rw [List.foldlM_append, hitem.firstItem]
      exact foldlM_itemTokens hitems item [] stack
  | @object members hname hvalue ih =>
    intro stack
    cases members with
    | nil => rfl
    | cons member members =>
      obtain ⟨hmember, hmembers⟩ := List.forall_mem_cons.mp ih
      obtain ⟨name, value⟩ := member
      show ((tokens value ++ memberTokens members).foldlM step
        (.value, .member [] name :: stack)) = _
      rw [List.foldlM_append, hmember]
      exact foldlM_memberTokens hmembers value name [] stack

/-! ## Both together -/

/-- A spelling of a value denotes it, also with white space after it. -/
theorem parse?_render {j : Json} (h : Textual j) (pretty : Bool) {blanks : List Char}
    (hblanks : ∀ c ∈ blanks, isBlankChar c = true) :
    parse? (String.ofList (render pretty 0 j ++ blanks)) = some j := by
  have hend : tokens? blanks = some [] := by
    have hall := tokens?_blanks hblanks []
    rw [List.append_nil] at hall
    rw [hall, tokens?]
  unfold parse?
  rw [String.toList_ofList, tokens?_render h, hend]
  show ofTokens? (tokens j ++ []) = _
  unfold ofTokens?
  rw [List.append_nil, foldlM_tokens h]

/-- The compact spelling of a value denotes it. -/
theorem parse?_compact {j : Json} (h : Textual j) : parse? j.compact = some j := by
  have hparse := parse?_render h false (List.forall_mem_nil (isBlankChar · = true))
  rw [List.append_nil] at hparse
  exact hparse

/-- The pretty spelling of a value denotes it. -/
theorem parse?_pretty {j : Json} (h : Textual j) : parse? j.pretty = some j := by
  have hparse := parse?_render h true (List.forall_mem_nil (isBlankChar · = true))
  rw [List.append_nil] at hparse
  exact hparse

/-- The pretty spelling of a value denotes it, also with the line break that ends a file. -/
theorem parse?_pretty_line {j : Json} (h : Textual j) : parse? (j.pretty ++ "\n") = some j := by
  have hspelling : j.pretty ++ "\n" = String.ofList (render true 0 j ++ ['\n']) := by
    rw [String.ofList_append]
    rfl
  rw [hspelling]
  exact parse?_render h true (List.forall_mem_singleton.mpr rfl)

end RoleWiring.Json
