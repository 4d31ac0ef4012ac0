import RoleWiring.Text.Utf8

/-!
# Reading and writing words

A reader takes what it needs from the front of the bytes and leaves the rest, or
fails where the bytes end too early. Words are written with the most significant
byte first. Every reader here is paired with a writer, and reading what was
written, in front of any rest, gives the word back and leaves that rest.
-/

namespace RoleWiring

/-- A reader of values from the front of a sequence of bytes. -/
abbrev Reader := StateT Bytes Option

namespace Reader

/-- One byte. -/
def byte : Reader UInt8
  | [] => none
  | b :: rest => some (b, rest)

/-- A word of two bytes. -/
def word16 : Reader UInt16 := do
  let high ← byte
  let low ← byte
  return UInt16.ofNat (high.toNat * 256 + low.toNat)

/-- A word of four bytes. -/
def word32 : Reader UInt32 := do
  let high ← word16
  let low ← word16
  return UInt32.ofNat (high.toNat * 65536 + low.toNat)

/-- The next `n` bytes. -/
def take (n : Nat) : Reader Bytes := fun bs =>
  if (bs.take n).length = n then some (bs.take n, bs.drop n) else none

/-- As many values as said. -/
def repeated (reader : Reader α) : Nat → Reader (List α)
  | 0 => return []
  | n + 1 => do
    let x ← reader
    let xs ← repeated reader n
    return x :: xs

/-- A table: the number of its values in two bytes, then the values. -/
def counted (reader : Reader α) : Reader (List α) := do
  let n ← word16
  repeated reader n.toNat

/-- The value that takes up all of the bytes, if there is one. -/
def whole? (reader : Reader α) (bs : Bytes) : Option α :=
  match reader bs with
  | some (x, []) => some x
  | _ => none

end Reader

/-- The two bytes of a word. -/
def word16Bytes (w : UInt16) : Bytes :=
  [UInt8.ofNat (w.toNat / 256), UInt8.ofNat w.toNat]

/-- The four bytes of a word. -/
def word32Bytes (w : UInt32) : Bytes :=
  word16Bytes (UInt16.ofNat (w.toNat / 65536)) ++ word16Bytes (UInt16.ofNat w.toNat)

/-- A table of values: their number in two bytes, then the values. -/
def countedBytes (write : α → Bytes) (values : List α) : Bytes :=
  word16Bytes (UInt16.ofNat values.length) ++ values.flatMap write

namespace Reader

/-- A word of two bytes is read back. -/
theorem word16_word16Bytes (w : UInt16) (rest : Bytes) :
    word16 (word16Bytes w ++ rest) = some (w, rest) := by
  have h : UInt16.ofNat ((UInt8.ofNat (w.toNat / 256)).toNat * 256 + (UInt8.ofNat w.toNat).toNat)
      = w := by
    apply UInt16.toNat.inj
    have := w.toNat_lt
    simp only [UInt16.toNat_ofNat', UInt8.toNat_ofNat']
    omega
  show some (UInt16.ofNat _, rest) = _
  rw [h]

/-- A word of four bytes is read back. -/
theorem word32_word32Bytes (w : UInt32) (rest : Bytes) :
    word32 (word32Bytes w ++ rest) = some (w, rest) := by
  have h : UInt32.ofNat ((UInt16.ofNat (w.toNat / 65536)).toNat * 65536
      + (UInt16.ofNat w.toNat).toNat) = w := by
    apply UInt32.toNat.inj
    have := w.toNat_lt
    simp only [UInt32.toNat_ofNat', UInt16.toNat_ofNat']
    omega
  simp only [word32, word32Bytes, List.append_assoc, bind, StateT.bind, word16_word16Bytes,
    Option.bind]
  show some (UInt32.ofNat _, rest) = _
  rw [h]

/-- As many bytes as asked for are taken from the front. -/
theorem take_append (bs rest : Bytes) : take bs.length (bs ++ rest) = some (bs, rest) := by
  simp [take]

/-! ## What readers leave -/

/-- Two readers in turn succeed exactly if the second one does on what the first one leaves. -/
theorem bind_eq_some {r : Reader α} {f : α → Reader β} {bs rest : Bytes} {y : β} :
    (r >>= f) bs = some (y, rest) ↔
      ∃ x between, r bs = some (x, between) ∧ f x between = some (y, rest) := by
  simp only [bind, StateT.bind, Option.bind_eq_some_iff, Prod.exists]

/-- A reader that only gives a value leaves everything. -/
theorem pure_eq_some {x y : α} {bs rest : Bytes} :
    (pure x : Reader α) bs = some (y, rest) ↔ x = y ∧ bs = rest := by
  show some (x, bs) = some (y, rest) ↔ _
  rw [Option.some.injEq, Prod.mk.injEq]

theorem length_of_byte {b : UInt8} {bs rest : Bytes} (h : byte bs = some (b, rest)) :
    rest.length + 1 = bs.length := by
  cases bs with
  | nil => cases h
  | cons c cs =>
    cases h
    rfl

theorem length_of_word16 {w : UInt16} {bs rest : Bytes} (h : word16 bs = some (w, rest)) :
    rest.length + 2 = bs.length := by
  obtain ⟨_, _, h₁, h⟩ := bind_eq_some.mp h
  obtain ⟨_, _, h₂, h⟩ := bind_eq_some.mp h
  obtain ⟨-, rfl⟩ := pure_eq_some.mp h
  have := length_of_byte h₁
  have := length_of_byte h₂
  omega

theorem length_of_word32 {w : UInt32} {bs rest : Bytes} (h : word32 bs = some (w, rest)) :
    rest.length + 4 = bs.length := by
  obtain ⟨_, _, h₁, h⟩ := bind_eq_some.mp h
  obtain ⟨_, _, h₂, h⟩ := bind_eq_some.mp h
  obtain ⟨-, rfl⟩ := pure_eq_some.mp h
  have := length_of_word16 h₁
  have := length_of_word16 h₂
  omega

theorem length_of_take {n : Nat} {bs taken rest : Bytes} (h : take n bs = some (taken, rest)) :
    taken.length + rest.length = bs.length := by
  unfold take at h
  split at h
  · cases h
    rw [← List.length_append, List.take_append_drop]
  · cases h

/-- What holds of every value read one by one, in bytes no longer than `n`, holds of the values
of a table. -/
theorem forall_of_repeated {r : Reader α} {P : α → Prop} {n : Nat}
    (h : ∀ bs x rest, bs.length ≤ n → r bs = some (x, rest) → rest.length ≤ n ∧ P x)
    {count : Nat} {bs rest : Bytes} {xs : List α} (hn : bs.length ≤ n)
    (hr : repeated r count bs = some (xs, rest)) : rest.length ≤ n ∧ ∀ x ∈ xs, P x := by
  induction count generalizing bs xs with
  | zero =>
    obtain ⟨rfl, rfl⟩ := pure_eq_some.mp hr
    exact ⟨hn, by simp⟩
  | succ count ih =>
    obtain ⟨x, between, hx, hr⟩ := bind_eq_some.mp hr
    obtain ⟨xs', last, hxs, hr⟩ := bind_eq_some.mp hr
    obtain ⟨rfl, rfl⟩ := pure_eq_some.mp hr
    obtain ⟨hbetween, hP⟩ := h bs x between hn hx
    obtain ⟨hlast, hPs⟩ := ih hbetween hxs
    exact ⟨hlast, List.forall_mem_cons.mpr ⟨hP, hPs⟩⟩

/-- What holds of every value read one by one holds of the values of a table after its number. -/
theorem forall_of_counted {r : Reader α} {P : α → Prop} {n : Nat}
    (h : ∀ bs x rest, bs.length ≤ n → r bs = some (x, rest) → rest.length ≤ n ∧ P x)
    {bs rest : Bytes} {xs : List α} (hn : bs.length ≤ n)
    (hr : counted r bs = some (xs, rest)) : rest.length ≤ n ∧ ∀ x ∈ xs, P x := by
  obtain ⟨count, between, hc, hr⟩ := bind_eq_some.mp hr
  have := length_of_word16 hc
  exact forall_of_repeated h (by omega) hr

theorem eq_some_of_whole? {r : Reader α} {bs : Bytes} {x : α} (h : whole? r bs = some x) :
    r bs = some (x, []) := by
  unfold whole? at h
  split at h
  · next hr =>
    cases h
    exact hr
  · cases h

end Reader

end RoleWiring
