import RoleWiring.ClassFile.Constant

/-!
# Attributes

Named pieces of further information about a class or about one of its members.
Their content is kept as bytes, and most of it is not looked into. An attribute is
*legal* when

* its name is a text;
* its content has the length, and where it is a text the spelling, that goes with
  the name;
* the attributes inside it, of which code and the components of a record may have
  some, are legal in turn.

Attributes are inside each other to any depth, but what is inside an attribute is smaller than
it (`length_lt_of_inside`).
-/

namespace RoleWiring

/-- A named piece of further information. -/
structure Attribute where
  /-- the number of the name -/
  name : UInt16
  /-- the content as it is spelled -/
  content : Bytes
deriving DecidableEq, Repr

namespace Attribute

open Reader

/-- One attribute. -/
def read : Reader Attribute := do
  let name ← word16
  let size ← word32
  let content ← Reader.take size.toNat
  return ⟨name, content⟩

/-- The bytes of an attribute. -/
def encode (a : Attribute) : Bytes :=
  word16Bytes a.name ++ word32Bytes (UInt32.ofNat a.content.length) ++ a.content

/-! ## Attributes inside attributes -/

/-- The attributes of code. They follow the limits of the stack and the locals, the
instructions, and the handlers of eight bytes each. -/
def readCode : Reader (List Attribute) := do
  let _limits ← Reader.take 4
  let size ← word32
  let _instructions ← Reader.take size.toNat
  let handlers ← word16
  let _handlers ← Reader.take (8 * handlers.toNat)
  counted read

/-- The attributes of one component of a record. They follow the numbers of its name and of the
text that describes its type. -/
def readComponent : Reader (List Attribute) := do
  let _name ← word16
  let _descriptor ← word16
  counted read

/-- The attributes of all components of a record. -/
def readRecord : Reader (List Attribute) := do
  let components ← counted readComponent
  return components.flatten

/-- The attributes inside the content of an attribute of this name, if the content is laid out
as the name wants. -/
def inside? (name : String) (content : Bytes) : Option (List Attribute) :=
  if name = "Code" then whole? readCode content
  else if name = "Record" then whole? readRecord content
  else some []

theorem length_of_read {bs rest : Bytes} {a : Attribute} (h : read bs = some (a, rest)) :
    a.content.length + rest.length + 6 = bs.length := by
  obtain ⟨_, _, h₁, h⟩ := bind_eq_some.mp h
  obtain ⟨_, _, h₂, h⟩ := bind_eq_some.mp h
  obtain ⟨_, _, h₃, h⟩ := bind_eq_some.mp h
  obtain ⟨rfl, rfl⟩ := pure_eq_some.mp h
  have := length_of_word16 h₁
  have := length_of_word32 h₂
  have := length_of_take h₃
  simp only
  omega

/-- The attributes of a table in bytes no longer than `n` have contents shorter than `n`. -/
theorem length_lt_of_counted {n : Nat} {bs rest : Bytes} {as : List Attribute}
    (hn : bs.length ≤ n) (h : counted read bs = some (as, rest)) :
    rest.length ≤ n ∧ ∀ a ∈ as, a.content.length < n := by
  refine forall_of_counted (fun bs a rest hn ha => ?_) hn h
  have := length_of_read ha
  omega

theorem length_lt_of_readCode {bs rest : Bytes} {as : List Attribute}
    (h : readCode bs = some (as, rest)) : ∀ a ∈ as, a.content.length < bs.length := by
  obtain ⟨_, _, h₁, h⟩ := bind_eq_some.mp h
  obtain ⟨_, _, h₂, h⟩ := bind_eq_some.mp h
  obtain ⟨_, _, h₃, h⟩ := bind_eq_some.mp h
  obtain ⟨_, _, h₄, h⟩ := bind_eq_some.mp h
  obtain ⟨_, _, h₅, h⟩ := bind_eq_some.mp h
  have := length_of_take h₁
  have := length_of_word32 h₂
  have := length_of_take h₃
  have := length_of_word16 h₄
  have := length_of_take h₅
  exact (length_lt_of_counted (by omega) h).2

theorem length_lt_of_readRecord {bs rest : Bytes} {as : List Attribute}
    (h : readRecord bs = some (as, rest)) : ∀ a ∈ as, a.content.length < bs.length := by
  obtain ⟨components, _, hc, h⟩ := bind_eq_some.mp h
  obtain ⟨rfl, rfl⟩ := pure_eq_some.mp h
  have hall : ∀ as ∈ components, ∀ a ∈ as, a.content.length < bs.length := by
    refine (forall_of_counted (fun bs' as rest hn hr => ?_) (Nat.le_refl _) hc).2
    obtain ⟨_, _, h₁, hr⟩ := bind_eq_some.mp hr
    obtain ⟨_, _, h₂, hr⟩ := bind_eq_some.mp hr
    have := length_of_word16 h₁
    have := length_of_word16 h₂
    exact length_lt_of_counted (by omega) hr
  intro a ha
  obtain ⟨as, has, ha⟩ := List.mem_flatten.mp ha
  exact hall as has a ha

/-- What is inside an attribute is smaller than it. -/
theorem length_lt_of_inside {name : String} {content : Bytes} {as : List Attribute}
    (h : inside? name content = some as) : ∀ a ∈ as, a.content.length < content.length := by
  unfold inside? at h
  split at h
  · exact length_lt_of_readCode (eq_some_of_whole? h)
  · split at h
    · exact length_lt_of_readRecord (eq_some_of_whole? h)
    · cases h
      simp

/-! ## Legality -/

/-- The length that the content of an attribute of this name must have, if the name fixes it. -/
def lengthOf? (name : String) : Option Nat :=
  if name ∈ ["ConstantValue", "Signature", "SourceFile", "NestHost", "ModuleMainClass"] then some 2
  else if name = "EnclosingMethod" then some 4
  else if name ∈ ["Synthetic", "Deprecated"] then some 0
  else none

/-- The content goes with the name, whatever is inside it. -/
def suits (name : String) (content : Bytes) : Bool :=
  match lengthOf? name with
  | some n => content.length == n
  | none => name ≠ "SourceDebugExtension" || (modifiedUtf8Text? content).isSome

/-- The attribute is named, its content goes with the name, and so it is with all attributes
inside it. -/
def isLegal (pool : ConstantPool) (a : Attribute) : Bool :=
  match pool.text a.name with
  | .error _ => false
  | .ok name =>
    suits name a.content &&
      match _inside : inside? name a.content with
      | none => false
      | some as => as.attach.all fun b => isLegal pool b.1
termination_by a.content.length
decreasing_by exact length_lt_of_inside _inside b.1 b.2

/-- A named attribute is legal exactly if its content goes with the name and all attributes inside
it are legal. -/
theorem isLegal_iff {pool : ConstantPool} {a : Attribute} {name : String}
    (hname : pool.text a.name = .ok name) :
    a.isLegal pool = true ↔ suits name a.content = true ∧
      ∃ as, inside? name a.content = some as ∧ ∀ b ∈ as, b.isLegal pool = true := by
  rw [isLegal, hname]
  simp only [Bool.and_eq_true]
  refine and_congr_right fun _ => ?_
  split
  · next hinside => simp [hinside]
  · next as hinside => simp [hinside]

end Attribute

end RoleWiring
