import RoleWiring.ClassFile.Bytes

/-!
# Reading what was written

That a reader takes certain bytes for a value, whatever follows them, composes: a reader
made of stages takes what its stages take, one after the other. So every layout is read
back by reading its parts back.

The other way round, what a reader succeeds on has such bytes at its front. This composes as
well, and it is why a reader does not mind more bytes and never makes do with fewer.

* `Reads.bind` — stages in turn;
* `reads_counted` — tables;
* `TakesFront.append`, `TakesFront.eq_none` — more bytes, and fewer.
-/

namespace RoleWiring

namespace Reader

/-- The reader takes exactly these bytes and gives the value, whatever follows. -/
def Reads (r : Reader α) (bs : Bytes) (x : α) : Prop :=
  ∀ rest, r (bs ++ rest) = some (x, rest)

variable {r : Reader α} {bs bs' : Bytes} {x : α} {y : β}

theorem reads_pure (x : α) : Reads (pure x) [] x := fun _ => rfl

/-- Stages take what they take in turn. -/
theorem Reads.bind {f : α → Reader β} (h : r.Reads bs x) (hf : (f x).Reads bs' y) :
    (r >>= f).Reads (bs ++ bs') y := by
  intro rest
  rw [List.append_assoc]
  exact bind_eq_some.mpr ⟨x, bs' ++ rest, h (bs' ++ rest), hf rest⟩

/-- A value that is made of what was read. -/
theorem Reads.map (h : r.Reads bs x) (f : α → β) :
    Reads (r >>= fun x => pure (f x)) bs (f x) := by
  have hbind : Reads (r >>= fun x => pure (f x)) (bs ++ []) (f x) := h.bind (reads_pure (f x))
  rwa [List.append_nil] at hbind

/-- A value that is made of two in turn. -/
theorem Reads.map₂ {s : Reader β} (h : r.Reads bs x) (hs : s.Reads bs' y) (f : α → β → γ) :
    Reads (r >>= fun x => s >>= fun y => pure (f x y)) (bs ++ bs') (f x y) :=
  h.bind (hs.map (f x))

theorem reads_byte (b : UInt8) : byte.Reads [b] b := fun _ => rfl

theorem reads_word16 (w : UInt16) : word16.Reads (word16Bytes w) w :=
  word16_word16Bytes w

theorem reads_word32 (w : UInt32) : word32.Reads (word32Bytes w) w :=
  word32_word32Bytes w

theorem reads_take {n : Nat} (h : bs.length = n) : (Reader.take n).Reads bs bs := by
  subst h
  exact take_append bs

/-- Values that are each taken for what is written for an item are taken one after the other. -/
theorem reads_repeated {write : ι → Bytes} {value : ι → α} {items : List ι}
    (h : ∀ i ∈ items, r.Reads (write i) (value i)) :
    (repeated r items.length).Reads (items.flatMap write) (items.map value) := by
  induction items with
  | nil => exact reads_pure []
  | cons i items ih =>
    obtain ⟨hi, hitems⟩ := List.forall_mem_cons.mp h
    rw [List.flatMap_cons]
    exact hi.map₂ (ih hitems) (· :: ·)

/-- So is a table of items, as long as their number has a place in front. -/
theorem reads_counted_map {write : ι → Bytes} {value : ι → α} {items : List ι}
    (h : ∀ i ∈ items, r.Reads (write i) (value i)) (hlength : items.length < 65536) :
    (counted r).Reads (countedBytes write items) (items.map value) := by
  have hcount : (UInt16.ofNat items.length).toNat = items.length :=
    UInt16.toNat_ofNat_of_lt' hlength
  refine (reads_word16 _).bind ?_
  rw [hcount]
  exact reads_repeated h

theorem reads_counted {write : α → Bytes} {xs : List α} (h : ∀ x ∈ xs, r.Reads (write x) x)
    (hlength : xs.length < 65536) : (counted r).Reads (countedBytes write xs) xs := by
  have hmap : (counted r).Reads (countedBytes write xs) (xs.map id) := reads_counted_map h hlength
  rwa [List.map_id] at hmap

/-- What is taken with nothing following is the whole. -/
theorem Reads.whole? (h : r.Reads bs x) : whole? r bs = some x := by
  have hbs : r bs = some (x, []) := by simpa using h []
  rw [Reader.whole?, hbs]

/-! ## What is at the front -/

/-- Where the reader succeeds, there are bytes at the front that it takes for the value, whatever
follows. -/
def TakesFront (r : Reader α) : Prop :=
  ∀ ⦃bs x rest⦄, r bs = some (x, rest) → ∃ taken, bs = taken ++ rest ∧ r.Reads taken x

theorem takesFront_pure (x : α) : TakesFront (pure x) := by
  intro bs y rest h
  obtain ⟨rfl, rfl⟩ := pure_eq_some.mp h
  exact ⟨[], rfl, reads_pure x⟩

/-- A reader that never succeeds. -/
theorem takesFront_none : TakesFront (fun _ => none : Reader α) := by
  intro bs x rest h
  cases h

/-- Stages in turn take what they take. -/
theorem TakesFront.bind {f : α → Reader β} (h : r.TakesFront) (hf : ∀ x, (f x).TakesFront) :
    (r >>= f).TakesFront := by
  intro bs y rest hy
  rw [bind_eq_some] at hy
  obtain ⟨x, between, hx, hy⟩ := hy
  obtain ⟨taken', rfl, htaken'⟩ := hf x hy
  obtain ⟨taken, rfl, htaken⟩ := h hx
  exact ⟨taken ++ taken', (List.append_assoc ..).symm, htaken.bind htaken'⟩

/-- A value that is made of what was read. -/
theorem TakesFront.map (h : r.TakesFront) (f : α → β) : TakesFront (r >>= fun x => pure (f x)) :=
  h.bind fun x => takesFront_pure (f x)

/-- A value that is made of two in turn. -/
theorem TakesFront.map₂ {s : Reader β} (h : r.TakesFront) (hs : s.TakesFront) (f : α → β → γ) :
    TakesFront (r >>= fun x => s >>= fun y => pure (f x y)) :=
  h.bind fun x => hs.map (f x)

theorem takesFront_byte : byte.TakesFront := by
  intro bs b rest h
  cases bs with
  | nil => cases h
  | cons b' rest' =>
    cases h
    exact ⟨[b], rfl, reads_byte b⟩

theorem takesFront_word16 : word16.TakesFront :=
  takesFront_byte.map₂ takesFront_byte _

theorem takesFront_word32 : word32.TakesFront :=
  takesFront_word16.map₂ takesFront_word16 _

theorem takesFront_take (n : Nat) : (Reader.take n).TakesFront := by
  intro bs taken rest h
  rw [Reader.take] at h
  obtain ⟨hlength, h⟩ := Option.ite_none_right_eq_some.mp h
  cases h
  exact ⟨bs.take n, (List.take_append_drop n bs).symm, reads_take hlength⟩

theorem takesFront_repeated (h : r.TakesFront) (n : Nat) : (repeated r n).TakesFront := by
  induction n with
  | zero => exact takesFront_pure []
  | succ n ih => exact h.map₂ ih _

theorem takesFront_counted (h : r.TakesFront) : (counted r).TakesFront :=
  takesFront_word16.bind fun n => takesFront_repeated h n.toNat

/-- More bytes change nothing but what is left. -/
theorem TakesFront.append (h : r.TakesFront) {rest : Bytes} (hr : r bs = some (x, rest))
    (more : Bytes) : r (bs ++ more) = some (x, rest ++ more) := by
  obtain ⟨taken, rfl, htaken⟩ := h hr
  rw [List.append_assoc]
  exact htaken (rest ++ more)

/-- The reader succeeds just as well on the bytes that it takes alone. -/
theorem TakesFront.exists_front (h : r.TakesFront) {rest : Bytes} (hr : r bs = some (x, rest)) :
    ∃ taken, bs = taken ++ rest ∧ r taken = some (x, []) := by
  obtain ⟨taken, rfl, htaken⟩ := h hr
  exact ⟨taken, rfl, by simpa using htaken []⟩

/-- Where all bytes are taken, fewer are not enough. -/
theorem TakesFront.eq_none (h : r.TakesFront) (hr : r bs = some (x, [])) {front : Bytes}
    (hfront : front <+: bs) (hne : front ≠ bs) : r front = none := by
  obtain ⟨more, rfl⟩ := hfront
  cases hless : r front with
  | none => rfl
  | some read =>
    -- the bytes that were cut off would be left
    obtain ⟨y, rest⟩ := read
    have hleft := (h.append hless more).symm.trans hr
    simp only [Option.some.injEq, Prod.mk.injEq, List.append_eq_nil_iff] at hleft
    obtain ⟨-, -, rfl⟩ := hleft
    exact absurd (List.append_nil front).symm hne

end Reader

end RoleWiring
