/-!
# Refused class files

Why bytes are not accepted as the declaration of a type.
-/

namespace RoleWiring

/-- Why an index into a constant pool leads nowhere. -/
inductive PoolFault where
  /-- no constant has this index -/
  | noConstant (index : Nat)
  /-- the constant with this index is of another kind -/
  | otherKind (index : Nat)
deriving DecidableEq, Repr

/-- The words for a fault of the pool. -/
def PoolFault.message : PoolFault → String
  | noConstant n => s!"InvalidConstantPoolIndex({n})"
  | otherKind n => s!"InvalidConstantPoolIndexType({n})"

/-- Why bytes are refused as a class file. -/
inductive Refusal where
  /-- fewer bytes than a header has -/
  | truncatedHeader (size : Nat)
  /-- the bytes do not start as a class file does -/
  | badMagic
  /-- a version outside the supported ones -/
  | unsupportedVersion (major : Nat)
  /-- the bytes after the header are not laid out as a class file -/
  | illFormed
  /-- the index of the declared name leads nowhere -/
  | badThisClass (fault : PoolFault)
  /-- the index of the superclass leads nowhere -/
  | badSuperClass (fault : PoolFault)
  /-- the index of an interface leads nowhere -/
  | badInterface (fault : PoolFault)
deriving DecidableEq, Repr

/-- The words for a refusal. -/
def Refusal.message : Refusal → String
  | truncatedHeader n => s!"truncated header ({n} bytes)"
  | badMagic => "not a class file (bad magic)"
  | unsupportedVersion n => s!"unsupported class file version {n}"
  | illFormed => "failed to parse class"
  | badThisClass f => s!"invalid this_class: {f.message}"
  | badSuperClass f => s!"invalid super_class: {f.message}"
  | badInterface f => s!"invalid interface entry: {f.message}"

end RoleWiring
