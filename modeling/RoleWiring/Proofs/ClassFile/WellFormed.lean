import Mathlib.Data.List.Forall2
import RoleWiring.Proofs.ClassFile.Layout

/-!
# Well-formed class files

What makes a class file well-formed, said of the class file as a value and not of how it
is checked. A number of the pool holds the constant that stands after as many numbers;
names and types are texts that are held somewhere. Attributes hold further attributes only
inside code and inside the components of a record, to any depth.

* `ConstantPool.constant_eq_ok` — a constant is found behind the number that holds it;
* `ClassFile.isLegal_of_wellFormed` — a well-formed class file passes all checks.
-/

namespace RoleWiring

open Reader

/-! ## What a pool holds -/

namespace ConstantPool

/-- The constant has this number: it comes after the constants that take the numbers below, of
which the first is one. -/
def Holds (pool : ConstantPool) (number : UInt16) (c : Constant) : Prop :=
  ∃ before after, pool = before ++ c :: after ∧ number.toNat = (slots before).length + 1

/-- The constant with this number spells the text. -/
def Spells (pool : ConstantPool) (number : UInt16) (s : String) : Prop :=
  ∃ spelling, pool.Holds number (.utf8 spelling) ∧ modifiedUtf8Text? spelling = some s

/-- The constant with this number is a class of this name. -/
def Names (pool : ConstantPool) (number : UInt16) (name : String) : Prop :=
  ∃ text, pool.Holds number (.classInfo text) ∧ pool.Spells text name

variable {pool : ConstantPool} {number : UInt16}

theorem slots_append (first second : ConstantPool) :
    slots (first ++ second) = slots first ++ slots second :=
  List.flatMap_append

theorem Holds.ne_zero {c : Constant} (h : pool.Holds number c) : number ≠ 0 := by
  obtain ⟨before, after, -, hnumber⟩ := h
  rintro rfl
  cases hnumber

theorem constant_eq_ok {c : Constant} (h : pool.Holds number c) : pool.constant number = .ok c := by
  rw [constant, if_neg h.ne_zero]
  obtain ⟨before, after, rfl, hnumber⟩ := h
  have hslots : slots (before ++ c :: after) = slots before ++ (c.slots ++ slots after) :=
    slots_append before (c :: after)
  have hfirst : c.slots.head? = some (some c) := by
    rw [Constant.slots]
    split <;> rfl
  have hfound : constantAfter? (before ++ c :: after) (number.toNat - 1) = some c := by
    rw [constantAfter?_eq, hslots, hnumber, Nat.add_sub_cancel,
      List.getElem?_append_right (Nat.le_refl _), Nat.sub_self, ← List.head?_eq_getElem?,
      List.head?_append, hfirst]
    rfl
  rw [hfound]

theorem text_eq_ok {s : String} (h : pool.Spells number s) : pool.text number = .ok s := by
  obtain ⟨spelling, hholds, hspelling⟩ := h
  rw [text, constant_eq_ok hholds]
  dsimp only [bind, Except.bind]
  rw [hspelling]
  rfl

theorem className_eq_ok {name : String} (h : pool.Names number name) :
    pool.className number = .ok name := by
  obtain ⟨text, hholds, hspells⟩ := h
  rw [className, constant_eq_ok hholds]
  exact text_eq_ok hspells

end ConstantPool

/-! ## Constants and types -/

/-- Texts are spelled readably, and method handles are of one of the nine kinds. -/
def Constant.WellFormed : Constant → Prop
  | utf8 spelling => ∃ s, modifiedUtf8Text? spelling = some s
  | methodHandle kind _ => 1 ≤ kind ∧ kind ≤ 9
  | _ => True

theorem Constant.isLegal_of_wellFormed {c : Constant} (h : c.WellFormed) : c.isLegal = true := by
  cases c with
  | utf8 spelling => exact Option.isSome_iff_exists.mpr h
  | methodHandle kind reference =>
    exact Bool.and_eq_true_iff.mpr ⟨decide_eq_true h.1, decide_eq_true h.2⟩
  | _ => rfl

/-- The characters describe the type of a field. -/
inductive IsFieldType : List Char → Prop
  /-- a primitive type, by its letter -/
  | primitive {c : Char} (hc : c ∈ ['B', 'C', 'D', 'F', 'I', 'J', 'S', 'Z']) : IsFieldType [c]
  /-- a class, by its name -/
  | object {name : List Char} (hname : name ≠ []) : IsFieldType ('L' :: name ++ [';'])
  /-- an array -/
  | array {item : List Char} (hitem : IsFieldType item) : IsFieldType ('[' :: item)

theorem isFieldDescriptor_of_isFieldType {cs : List Char} (h : IsFieldType cs) :
    isFieldDescriptor cs = true := by
  induction h with
  | primitive hc =>
    simp only [List.mem_cons, List.not_mem_nil, or_false] at hc
    rcases hc with rfl | rfl | rfl | rfl | rfl | rfl | rfl | rfl <;> rfl
  | @object name hname =>
    have hlength : 2 ≤ (name ++ [';']).length := by
      have hpos := List.length_pos_iff.mpr hname
      rw [List.length_append, List.length_singleton]
      omega
    rw [List.cons_append, isFieldDescriptor, if_neg (by decide), if_pos rfl, decide_eq_true hlength,
      List.getLast?_concat]
    rfl
  | array _ ih => rw [isFieldDescriptor, if_pos rfl, ih]

/-! ## Attributes -/

namespace Attribute

/-- The content of an attribute that holds code. -/
structure Code where
  /-- the limits of the stack and of the locals -/
  limits : Bytes
  /-- the instructions -/
  instructions : Bytes
  /-- the handlers of exceptions -/
  handlers : List Bytes
  /-- the attributes inside -/
  attributes : List Attribute

/-- The bytes of code. -/
def Code.encode (code : Code) : Bytes :=
  code.limits ++ word32Bytes (UInt32.ofNat code.instructions.length) ++ code.instructions ++
    word16Bytes (UInt16.ofNat code.handlers.length) ++ code.handlers.flatten ++
    countedBytes Attribute.encode code.attributes

/-- The parts of the code have the sizes they must have, and the others have places for theirs. -/
structure Code.Fits (code : Code) : Prop where
  /-- the limits are two words -/
  limits : code.limits.length = 4
  /-- the number of the instructions has a place -/
  instructions : code.instructions.length < 4294967296
  /-- the number of the handlers has a place -/
  handlers : code.handlers.length < 65536
  /-- a handler is four words -/
  handler : ∀ h ∈ code.handlers, h.length = 8
  /-- the attributes have places -/
  attributes : TableFits code.attributes

/-- A component of a record. -/
structure Component where
  /-- the number of the name -/
  name : UInt16
  /-- the number of the text that describes the type -/
  descriptor : UInt16
  /-- the attributes inside -/
  attributes : List Attribute

/-- The bytes of a component. -/
def Component.encode (k : Component) : Bytes :=
  word16Bytes k.name ++ word16Bytes k.descriptor ++ countedBytes Attribute.encode k.attributes

/-- The content goes with the name, if there is nothing inside it. -/
structure Suits (name : String) (content : Bytes) : Prop where
  /-- it has the length that the name fixes -/
  length : ∀ n, lengthOf? name = some n → content.length = n
  /-- it is a text where the name wants one -/
  text : name = "SourceDebugExtension" → ∃ s, modifiedUtf8Text? content = some s

/-- The attribute is named, its content goes with the name, and so it is with all attributes inside
it. -/
inductive WellFormed (pool : ConstantPool) : Attribute → Prop
  /-- an attribute with nothing inside it -/
  | plain {number : UInt16} {content : Bytes} {name : String} (hname : pool.Spells number name)
      (hcode : name ≠ "Code") (hrecord : name ≠ "Record") (hsuits : Suits name content) :
      WellFormed pool ⟨number, content⟩
  /-- code -/
  | code {number : UInt16} {code : Code} (hname : pool.Spells number "Code") (hfits : code.Fits)
      (hinside : ∀ a ∈ code.attributes, WellFormed pool a) : WellFormed pool ⟨number, code.encode⟩
  /-- a record -/
  | record {number : UInt16} {components : List Component} (hname : pool.Spells number "Record")
      (hcount : components.length < 65536)
      (hfits : ∀ k ∈ components, TableFits k.attributes)
      (hinside : ∀ k ∈ components, ∀ a ∈ k.attributes, WellFormed pool a) :
      WellFormed pool ⟨number, countedBytes Component.encode components⟩

theorem suits_eq_true {name : String} {content : Bytes} (h : Suits name content) :
    suits name content = true := by
  unfold suits
  split
  · next n hn => exact beq_iff_eq.mpr (h.length n hn)
  · by_cases hname : name = "SourceDebugExtension"
    · obtain ⟨s, hs⟩ := h.text hname
      simp [hs]
    · simp [hname]

theorem reads_readCode {code : Code} (h : code.Fits) :
    readCode.Reads code.encode code.attributes := by
  have hsize : (UInt32.ofNat code.instructions.length).toNat = code.instructions.length :=
    UInt32.toNat_ofNat_of_lt' h.instructions
  have hcount : (UInt16.ofNat code.handlers.length).toNat = code.handlers.length :=
    UInt16.toNat_ofNat_of_lt' h.handlers
  have hhandlers : code.handlers.flatten.length =
      8 * (UInt16.ofNat code.handlers.length).toNat := by
    rw [hcount, List.length_flatten, List.map_congr_left h.handler, List.map_const',
      List.sum_replicate_nat, Nat.mul_comm]
  simp only [Code.encode, List.append_assoc]
  exact (reads_take h.limits).bind ((reads_word32 _).bind ((reads_take hsize.symm).bind
    ((reads_word16 _).bind ((reads_take hhandlers).bind (reads_table h.attributes)))))

theorem reads_readComponent {k : Component} (h : TableFits k.attributes) :
    readComponent.Reads k.encode k.attributes := by
  rw [Component.encode, List.append_assoc]
  exact (reads_word16 _).bind ((reads_word16 _).bind (reads_table h))

/-- The attributes of a record are those of its components, in order. -/
theorem reads_readRecord {components : List Component} (hcount : components.length < 65536)
    (hfits : ∀ k ∈ components, TableFits k.attributes) :
    readRecord.Reads (countedBytes Component.encode components)
      (components.flatMap Component.attributes) := by
  rw [List.flatMap_def]
  exact (reads_counted_map (fun k hk => reads_readComponent (hfits k hk)) hcount).map List.flatten

/-- A well-formed attribute is legal. The induction is on what is inside. -/
theorem isLegal_of_wellFormed {pool : ConstantPool} {a : Attribute} (h : a.WellFormed pool) :
    a.isLegal pool = true := by
  induction h with
  | @plain number content name hname hcode hrecord hsuits =>
    refine (isLegal_iff (ConstantPool.text_eq_ok hname)).mpr ⟨suits_eq_true hsuits, [], ?_, nofun⟩
    rw [inside?, if_neg hcode, if_neg hrecord]
  | @code number code hname hfits hinside ih =>
    refine (isLegal_iff (ConstantPool.text_eq_ok hname)).mpr ⟨rfl, code.attributes, ?_, ih⟩
    rw [inside?, if_pos rfl]
    exact (reads_readCode hfits).whole?
  | @record number components hname hcount hfits hinside ih =>
    refine (isLegal_iff (ConstantPool.text_eq_ok hname)).mpr
      ⟨rfl, components.flatMap Component.attributes, ?_, fun a ha => ?_⟩
    · rw [inside?, if_neg (by decide), if_pos rfl]
      exact (reads_readRecord hcount hfits).whole?
    · obtain ⟨k, hk, hmem⟩ := List.mem_flatMap.mp ha
      exact ih k hk a hmem

end Attribute

/-! ## Class files -/

/-- The descriptor is a text that describes a type. -/
def Member.IsField (pool : ConstantPool) (m : Member) : Prop :=
  ∃ s, pool.Spells m.descriptor s ∧ IsFieldType s.toList

theorem Member.hasFieldDescriptor_of_isField {pool : ConstantPool} {m : Member}
    (h : m.IsField pool) : m.hasFieldDescriptor pool = true := by
  obtain ⟨s, hspells, htype⟩ := h
  rw [hasFieldDescriptor, ConstantPool.text_eq_ok hspells]
  exact isFieldDescriptor_of_isFieldType htype

namespace ClassFile

/-- The class file is well-formed and of a supported version. -/
structure WellFormed (c : ClassFile) : Prop where
  /-- all counts and sizes have places -/
  fits : c.Fits
  /-- the major version is supported -/
  major : 45 ≤ c.majorVersion ∧ c.majorVersion ≤ 69
  /-- the minor version goes with it -/
  minor : c.majorVersion < 56 ∨ c.minorVersion = 0 ∨ c.minorVersion = 65535
  /-- all constants are well-formed -/
  constants : ∀ k ∈ c.constants, k.WellFormed
  /-- all fields have a type -/
  fields : ∀ m ∈ c.fields, m.IsField c.constants
  /-- the attributes of the fields are well-formed -/
  fieldAttributes : ∀ m ∈ c.fields, ∀ a ∈ m.attributes, a.WellFormed c.constants
  /-- the attributes of the methods are -/
  methodAttributes : ∀ m ∈ c.methods, ∀ a ∈ m.attributes, a.WellFormed c.constants
  /-- the attributes of the class are -/
  attributes : ∀ a ∈ c.attributes, a.WellFormed c.constants

/-- The class file refers to these names: its own, that of its superclass if it has one, and those
of its interfaces in order. -/
structure RefersTo (c : ClassFile) (name : String) (superName : Option String)
    (interfaceNames : List String) : Prop where
  /-- its own name -/
  this : c.constants.Names c.thisClass name
  /-- no superclass is the number zero -/
  super : match superName with
    | none => c.superClass = 0
    | some s => c.constants.Names c.superClass s
  /-- the interfaces -/
  interfaces : List.Forall₂ c.constants.Names c.interfaces interfaceNames

theorem isLegal_of_wellFormed {c : ClassFile} (h : c.WellFormed) : c.isLegal = true := by
  have hversion : isLegalVersion c.minorVersion c.majorVersion = true := by
    rw [isLegalVersion, Bool.or_eq_true, Bool.or_eq_true, decide_eq_true_eq, beq_iff_eq,
      beq_iff_eq, or_assoc]
    exact h.minor
  simp only [isLegal, Bool.and_eq_true, List.all_eq_true]
  refine ⟨⟨⟨⟨hversion, fun k hk => Constant.isLegal_of_wellFormed (h.constants k hk)⟩, ?_⟩, ?_⟩, ?_⟩
  · intro m hm
    exact ⟨Member.hasFieldDescriptor_of_isField (h.fields m hm),
      fun a ha => Attribute.isLegal_of_wellFormed (h.fieldAttributes m hm a ha)⟩
  · intro m hm a ha
    exact Attribute.isLegal_of_wellFormed (h.methodAttributes m hm a ha)
  · intro a ha
    exact Attribute.isLegal_of_wellFormed (h.attributes a ha)

/-- A well-formed class file is found at the front of its bytes, whatever follows. -/
theorem ofBytes?_encode {c : ClassFile} (h : c.WellFormed) (rest : Bytes) :
    ofBytes? (c.encode ++ rest) = some c := by
  rw [ofBytes?, reads_read h.fits rest]
  exact if_pos (isLegal_of_wellFormed h)

end ClassFile

end RoleWiring
