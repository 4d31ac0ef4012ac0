import RoleWiring.ClassFile.Layout
import RoleWiring.Declaration
import RoleWiring.Name.Qualified

/-!
# The declaration in a class file

The declaration of the type that a class file declares: its own name, the kind
that its access flags give, and the names behind its superclass and interface
numbers. The header is looked at first, so that what is no class file at all, or
one of an unsupported version, is refused as such.
-/

namespace RoleWiring

/-- The lowest supported major version. -/
def minMajorVersion : Nat := 45

/-- The highest supported major version. -/
def maxMajorVersion : Nat := 69

/-- The kind of type that access flags give: an annotation before an interface, that before an
enumeration, that before an abstract class. Other flags do not matter. -/
def Kind.ofAccess (flags : UInt16) : Kind :=
  if flags &&& 0x2000 ≠ 0 then .annotationType
  else if flags &&& 0x0200 ≠ 0 then .interface
  else if flags &&& 0x4000 ≠ 0 then .enum
  else if flags &&& 0x0400 ≠ 0 then .abstractClass
  else .concreteClass

/-- The major version that a header states. -/
def majorVersionOf (bs : Bytes) : Nat :=
  (bs[6]?.getD 0).toNat * 256 + (bs[7]?.getD 0).toNat

/-- Accepts bytes that start like a class file of a supported version. -/
def acceptHeader (bs : Bytes) : Except Refusal Unit :=
  if bs.length < 10 then .error (.truncatedHeader bs.length)
  else if bs.take 4 ≠ magic then .error .badMagic
  else if majorVersionOf bs < minMajorVersion ∨ maxMajorVersion < majorVersionOf bs then
    .error (.unsupportedVersion (majorVersionOf bs))
  else .ok ()

namespace ClassFile

/-- The qualified name of the class with this number, or the refusal made of the fault. -/
def nameOf (c : ClassFile) (refuse : PoolFault → Refusal) (number : UInt16) :
    Except Refusal String :=
  match c.constants.className number with
  | .ok name => .ok (ofInternalName name)
  | .error fault => .error (refuse fault)

/-- The declaration of the declared type. -/
def declaration (c : ClassFile) : Except Refusal Declaration := do
  let name ← c.nameOf .badThisClass c.thisClass
  let superClass ←
    if c.superClass = 0 then pure none
    else some <$> c.nameOf .badSuperClass c.superClass
  let interfaces ← c.interfaces.mapM (c.nameOf .badInterface)
  return { name, kind := Kind.ofAccess c.access, superClass, interfaces }

end ClassFile

/-- The declaration of the type that the bytes declare. -/
def Declaration.ofBytes (bs : Bytes) : Except Refusal Declaration := do
  acceptHeader bs
  match ClassFile.ofBytes? bs with
  | some c => c.declaration
  | none => throw .illFormed

end RoleWiring
