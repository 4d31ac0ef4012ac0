import RoleWiring.Json.Value

/-!
# The tokens of a JSON text

A JSON text is cut into brackets, commas, colons, texts and plain values; the
white space between them is dropped. A text or number that does not end properly,
an unknown escape, a control character inside quotes and anything else that starts
no token make the whole text ill-formed.
-/

namespace RoleWiring.Json

/-- A token of a JSON text. -/
inductive Token where
  | beginArray
  | endArray
  | beginObject
  | endObject
  | comma
  | colon
  /-- a text in quotes -/
  | text (units : Units)
  /-- `null`, `true`, `false` or a number -/
  | scalar (value : Json)
deriving Repr

/-- White space between tokens. -/
def isBlankChar (c : Char) : Bool :=
  c == ' ' || c == '\n' || c == '\r' || c == '\t'

/-- The value of a hexadecimal digit. -/
def hexValue? (c : Char) : Option Nat :=
  if '0' ≤ c ∧ c ≤ '9' then some (c.toNat - 48)
  else if 'a' ≤ c ∧ c ≤ 'f' then some (c.toNat - 87)
  else if 'A' ≤ c ∧ c ≤ 'F' then some (c.toNat - 55)
  else none

/-- The unit of an escape by four hexadecimal digits. -/
def hexUnit? (a b c d : Char) : Option TextUnit := do
  let high := (← hexValue? a) * 16 + (← hexValue? b)
  let low := (← hexValue? c) * 16 + (← hexValue? d)
  let code := high * 256 + low
  if isSurrogate code then some (.surrogate code) else some (.char (Char.ofNat code))

/-- The character of a short escape. -/
def shortEscape? (c : Char) : Option Char :=
  if c = '"' then some '"'
  else if c = '\\' then some '\\'
  else if c = '/' then some '/'
  else if c = 'b' then some '\x08'
  else if c = 'f' then some '\x0c'
  else if c = 'n' then some '\n'
  else if c = 'r' then some '\r'
  else if c = 't' then some '\t'
  else none

/-- The units up to the closing quote, and what follows it. -/
def textBody? : List Char → Option (Units × List Char)
  | [] => none
  | c :: cs =>
    if c = '"' then some ([], cs)
    else if c = '\\' then
      match cs with
      | [] => none
      | e :: cs =>
        if e = 'u' then
          match cs with
          | a :: b :: c :: d :: cs =>
            match hexUnit? a b c d with
            | some u => (textBody? cs).map fun (us, rest) => (u :: us, rest)
            | none => none
          | _ => none
        else
          match shortEscape? e with
          | some x => (textBody? cs).map fun (us, rest) => (.char x :: us, rest)
          | none => none
    else if c.toNat < 0x20 then none
    else (textBody? cs).map fun (us, rest) => (.char c :: us, rest)

/-- The number that a list of digits spells. -/
def digitsValue (ds : List Char) : Nat :=
  ds.foldl (fun n d => n * 10 + (d.toNat - 48)) 0

/-- The digits after a decimal point, if there is one, and what follows them. -/
def fraction? : List Char → Option (List Char × List Char)
  | '.' :: cs =>
    if cs.takeWhile Char.isDigit = [] then none
    else some (cs.takeWhile Char.isDigit, cs.dropWhile Char.isDigit)
  | cs => some ([], cs)

/-- A sign, if there is one, and what follows it. -/
def sign : List Char → Bool × List Char
  | '-' :: cs => (true, cs)
  | '+' :: cs => (false, cs)
  | cs => (false, cs)

/-- The exponent, if there is one, and what follows it. -/
def exponent? : List Char → Option (Int × List Char)
  | [] => some (0, [])
  | c :: cs =>
    if c = 'e' ∨ c = 'E' then
      let (negative, cs) := sign cs
      let ds := cs.takeWhile Char.isDigit
      if ds = [] then none
      else
        some (if negative then -(digitsValue ds : Int) else digitsValue ds,
          cs.dropWhile Char.isDigit)
    else some (0, c :: cs)

/-- The number at the front of the characters, its sign already taken, and what follows it. A
leading zero stands alone. -/
def unsigned? (negative : Bool) (cs : List Char) : Option (Decimal × List Char) := do
  let whole := cs.takeWhile Char.isDigit
  if whole = [] ∨ (whole.head? = some '0' ∧ whole ≠ ['0']) then none
  else
    let (fraction, rest) ← fraction? (cs.dropWhile Char.isDigit)
    let (exponent, rest) ← exponent? rest
    some (⟨negative, digitsValue (whole ++ fraction), exponent - fraction.length⟩, rest)

/-- The number at the front of the characters, and what follows it. -/
def number? : List Char → Option (Decimal × List Char)
  | '-' :: cs => unsigned? true cs
  | cs => unsigned? false cs

/-- The rest of the characters after `word`, if they start with it. -/
def after? : List Char → List Char → Option (List Char)
  | [], cs => some cs
  | w :: word, c :: cs => if w = c then after? word cs else none
  | _ :: _, [] => none

/-- The token that a character is on its own. -/
def mark? (c : Char) : Option Token :=
  if c = '[' then some .beginArray
  else if c = ']' then some .endArray
  else if c = '{' then some .beginObject
  else if c = '}' then some .endObject
  else if c = ',' then some .comma
  else if c = ':' then some .colon
  else none

/-- The value that is spelled by a word with this first letter, and the letters after it. -/
def word? (c : Char) : Option (Json × List Char) :=
  if c = 'n' then some (.null, ['u', 'l', 'l'])
  else if c = 't' then some (.bool true, ['r', 'u', 'e'])
  else if c = 'f' then some (.bool false, ['a', 'l', 's', 'e'])
  else none

/-- The value that starts with `c` and is no text, and what follows it. -/
def scalar? (c : Char) (cs : List Char) : Option (Json × List Char) :=
  match word? c with
  | some (v, letters) => (after? letters cs).map fun rest => (v, rest)
  | none => (number? (c :: cs)).map fun (n, rest) => (.number n, rest)

/-- The token that starts with `c`, and what follows it. -/
def token? (c : Char) (cs : List Char) : Option (Token × List Char) :=
  match mark? c with
  | some t => some (t, cs)
  | none =>
    if c = '"' then (textBody? cs).map fun (u, rest) => (.text u, rest)
    else (scalar? c cs).map fun (v, rest) => (.scalar v, rest)

/-! ## Every token takes something -/

theorem textBody?_length {cs : List Char} {u : Units} {rest : List Char}
    (h : textBody? cs = some (u, rest)) : rest.length ≤ cs.length := by
  fun_induction textBody? cs generalizing u rest <;>
    simp_all [Option.map_eq_some_iff] <;> grind

theorem after?_length {word cs rest : List Char} (h : after? word cs = some rest) :
    rest.length ≤ cs.length := by
  fun_induction after? word cs <;> simp_all
  omega

theorem fraction?_length {cs ds rest : List Char} (h : fraction? cs = some (ds, rest)) :
    rest.length ≤ cs.length := by
  unfold fraction? at h
  split at h
  · next cs =>
    split at h
    · cases h
    · cases h
      have := (List.dropWhile_sublist Char.isDigit (l := cs)).length_le
      simp only [List.length_cons]
      omega
  · cases h
    exact Nat.le_refl _

theorem sign_length (cs : List Char) : (sign cs).2.length ≤ cs.length := by
  unfold sign
  split <;> simp

theorem exponent?_length {cs rest : List Char} {e : Int} (h : exponent? cs = some (e, rest)) :
    rest.length ≤ cs.length := by
  unfold exponent? at h
  split at h
  · cases h
    exact Nat.le_refl _
  · next c cs =>
    split at h
    · dsimp only at h
      split at h
      · cases h
      · cases h
        have h₁ := (List.dropWhile_sublist Char.isDigit (l := (sign cs).2)).length_le
        have h₂ := sign_length cs
        simp only [List.length_cons]
        omega
    · cases h
      exact Nat.le_refl _

theorem unsigned?_length {negative : Bool} {cs rest : List Char} {n : Decimal}
    (h : unsigned? negative cs = some (n, rest)) : rest.length < cs.length := by
  simp only [unsigned?] at h
  split at h
  · cases h
  · next hw =>
    simp only [Option.bind_eq_bind, Option.bind_eq_some_iff, Prod.exists, Option.some.injEq,
      Prod.mk.injEq] at h
    obtain ⟨ds, r₁, h₁, e, r₂, h₂, -, rfl⟩ := h
    have l₁ := fraction?_length h₁
    have l₂ := exponent?_length h₂
    have l₃ : (cs.dropWhile Char.isDigit).length < cs.length := by
      cases cs with
      | nil => simp at hw
      | cons c cs =>
        cases hc : c.isDigit
        · simp [hc] at hw
        · have := (List.dropWhile_sublist Char.isDigit (l := cs)).length_le
          simp only [List.dropWhile_cons, hc, if_true, List.length_cons]
          omega
    omega

theorem number?_length {cs rest : List Char} {n : Decimal} (h : number? cs = some (n, rest)) :
    rest.length < cs.length := by
  unfold number? at h
  split at h
  · have := unsigned?_length h
    simp only [List.length_cons]
    omega
  · exact unsigned?_length h

theorem scalar?_length {c : Char} {cs rest : List Char} {v : Json}
    (h : scalar? c cs = some (v, rest)) : rest.length ≤ cs.length := by
  unfold scalar? at h
  split at h
  · next letters _ =>
    obtain ⟨r, hr, he⟩ := Option.map_eq_some_iff.mp h
    cases he
    exact after?_length hr
  · obtain ⟨r, hr, he⟩ := Option.map_eq_some_iff.mp h
    cases he
    exact Nat.le_of_lt_succ (number?_length hr)

theorem token?_length {c : Char} {cs rest : List Char} {t : Token}
    (h : token? c cs = some (t, rest)) : rest.length ≤ cs.length := by
  unfold token? at h
  split at h
  · cases h
    exact Nat.le_refl _
  · split at h
    · obtain ⟨r, hr, he⟩ := Option.map_eq_some_iff.mp h
      cases he
      exact textBody?_length hr
    · obtain ⟨r, hr, he⟩ := Option.map_eq_some_iff.mp h
      cases he
      exact scalar?_length hr

/-! ## Cutting a text -/

/-- The tokens of the characters, in order. -/
def tokens? : List Char → Option (List Token)
  | [] => some []
  | c :: cs =>
    if isBlankChar c then tokens? cs
    else
      match _h : token? c cs with
      | some (t, rest) => (tokens? rest).map (t :: ·)
      | none => none
termination_by cs => cs.length
decreasing_by
  · simp
  · have := token?_length _h
    simp only [List.length_cons]
    omega

end RoleWiring.Json
