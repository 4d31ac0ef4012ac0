import RoleWiring.ClassFile.Attribute

/-!
# The layout of class files

A class file as a value, how it is read from bytes and how it is written. Reading
takes the layout from the front of the bytes and leaves what follows it alone;
`ClassFile.isLegal` then holds the value against the rules that the layout alone
does not enforce:

* from major version 56 on the minor version is 0 or 65535;
* the constants are legal ones;
* the descriptor of each field is a text that describes a type;
* the attributes are legal ones, wherever they stand.
-/

namespace RoleWiring

/-- A field or method. -/
structure Member where
  access : UInt16
  /-- the number of the name -/
  name : UInt16
  /-- the number of the text that describes the type -/
  descriptor : UInt16
  attributes : List Attribute
deriving DecidableEq, Repr

/-- A class file. -/
structure ClassFile where
  minorVersion : UInt16
  majorVersion : UInt16
  constants : ConstantPool
  access : UInt16
  /-- the number of the declared class -/
  thisClass : UInt16
  /-- the number of the superclass, zero for none -/
  superClass : UInt16
  /-- the numbers of the interfaces, in order -/
  interfaces : List UInt16
  fields : List Member
  methods : List Member
  attributes : List Attribute
deriving DecidableEq, Repr

/-- The four bytes at the start of every class file. -/
def magic : Bytes := [0xCA, 0xFE, 0xBA, 0xBE]

/-! ## Reading and writing -/

open Reader

/-- One field or method. -/
def Member.read : Reader Member := do
  let access ← word16
  let name ← word16
  let descriptor ← word16
  let attributes ← counted Attribute.read
  return ⟨access, name, descriptor, attributes⟩

/-- The bytes of a field or method. -/
def Member.encode (m : Member) : Bytes :=
  word16Bytes m.access ++ word16Bytes m.name ++ word16Bytes m.descriptor ++
    countedBytes Attribute.encode m.attributes

namespace ClassFile

/-- The pool with the count before it, which is one more than the numbers it gives out. -/
def readPool : Reader ConstantPool := do
  let count ← word16
  if count = 0 then fun _ => none
  else ConstantPool.read false (count.toNat - 1)

/-- The bytes of the pool. -/
def poolBytes (pool : ConstantPool) : Bytes :=
  word16Bytes (UInt16.ofNat (pool.slots.length + 1)) ++ pool.flatMap Constant.encode

/-- A class file, magic included. -/
def read : Reader ClassFile := do
  let start ← Reader.take 4
  if start ≠ magic then fun _ => none
  else
    let minorVersion ← word16
    let majorVersion ← word16
    let constants ← readPool
    let access ← word16
    let thisClass ← word16
    let superClass ← word16
    let interfaces ← counted word16
    let fields ← counted Member.read
    let methods ← counted Member.read
    let attributes ← counted Attribute.read
    return {
      minorVersion, majorVersion, constants, access, thisClass, superClass, interfaces, fields,
      methods, attributes }

/-- The bytes of a class file. -/
def encode (c : ClassFile) : Bytes :=
  magic ++ word16Bytes c.minorVersion ++ word16Bytes c.majorVersion ++ poolBytes c.constants ++
    word16Bytes c.access ++ word16Bytes c.thisClass ++ word16Bytes c.superClass ++
    countedBytes word16Bytes c.interfaces ++ countedBytes Member.encode c.fields ++
    countedBytes Member.encode c.methods ++ countedBytes Attribute.encode c.attributes

end ClassFile

/-! ## Legality -/

/-- The text describes the type of a field: a primitive type by its letter, a class by its
name between `L` and a semicolon, or an array of such. -/
def isFieldDescriptor : List Char → Bool
  | [] => false
  | c :: rest =>
    if c = '[' then isFieldDescriptor rest
    else if c = 'L' then 2 ≤ rest.length && rest.getLast? == some ';'
    else c ∈ ['B', 'C', 'D', 'F', 'I', 'J', 'S', 'Z']

/-- The type of the field is described by a text of the pool. -/
def Member.hasFieldDescriptor (pool : ConstantPool) (m : Member) : Bool :=
  match pool.text m.descriptor with
  | .error _ => false
  | .ok s => isFieldDescriptor s.toList

namespace ClassFile

/-- The two parts of the version go together. -/
def isLegalVersion (minor major : UInt16) : Bool :=
  major < 56 || minor == 0 || minor == 65535

/-- The class file keeps the rules that its layout does not enforce. -/
def isLegal (c : ClassFile) : Bool :=
  isLegalVersion c.minorVersion c.majorVersion &&
  c.constants.all Constant.isLegal &&
  c.fields.all (fun m => m.hasFieldDescriptor c.constants &&
    m.attributes.all (Attribute.isLegal c.constants)) &&
  c.methods.all (fun m => m.attributes.all (Attribute.isLegal c.constants)) &&
  c.attributes.all (Attribute.isLegal c.constants)

/-- The class file at the front of the bytes, if a legal one is there. -/
def ofBytes? (bs : Bytes) : Option ClassFile :=
  match read bs with
  | some (c, _) => if c.isLegal then some c else none
  | none => none

end ClassFile

end RoleWiring
