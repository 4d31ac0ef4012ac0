import RoleWiring.ClassFile.Bytes
import RoleWiring.ClassFile.ModifiedUtf8
import RoleWiring.ClassFile.Refusal

/-!
# The constant pool

A class file names everything through a table of constants. Constants are
numbered from one; a long or double takes two numbers, of which the second
belongs to no constant.
-/

namespace RoleWiring

/-- One constant of a class file. Other constants are referred to by their number. -/
inductive Constant where
  /-- a text in modified UTF-8, as spelled -/
  | utf8 (spelling : Bytes)
  | integer (bits : UInt32)
  | float (bits : UInt32)
  | long (high low : UInt32)
  | double (high low : UInt32)
  /-- a class or interface of the named text -/
  | classInfo (name : UInt16)
  | string (text : UInt16)
  | fieldRef (owner nameAndType : UInt16)
  | methodRef (owner nameAndType : UInt16)
  | interfaceMethodRef (owner nameAndType : UInt16)
  | nameAndType (name descriptor : UInt16)
  | methodHandle (kind : UInt8) (reference : UInt16)
  | methodType (descriptor : UInt16)
  | dynamic (bootstrap nameAndType : UInt16)
  | invokeDynamic (bootstrap nameAndType : UInt16)
  | moduleInfo (name : UInt16)
  | packageInfo (name : UInt16)
deriving DecidableEq, Repr

namespace Constant

/-- The constant takes two numbers. -/
def isWide : Constant → Bool
  | long .. | double .. => true
  | _ => false

/-- The numbers the constant takes, the second one of a wide constant without a constant. -/
def slots (c : Constant) : List (Option Constant) :=
  if c.isWide then [some c, none] else [some c]

/-- The constant can stand in a class file: texts are spelled readably and method handles
are of one of the nine kinds. -/
def isLegal : Constant → Bool
  | utf8 spelling => (modifiedUtf8Text? spelling).isSome
  | methodHandle kind _ => 1 ≤ kind && kind ≤ 9
  | _ => true

open Reader

/-- The constant after the byte that tells its kind. -/
def readBody (tag : UInt8) : Reader Constant :=
  match tag.toNat with
  | 1 => do
    let size ← word16
    let spelling ← Reader.take size.toNat
    return utf8 spelling
  | 3 => return integer (← word32)
  | 4 => return float (← word32)
  | 5 => return long (← word32) (← word32)
  | 6 => return double (← word32) (← word32)
  | 7 => return classInfo (← word16)
  | 8 => return string (← word16)
  | 9 => return fieldRef (← word16) (← word16)
  | 10 => return methodRef (← word16) (← word16)
  | 11 => return interfaceMethodRef (← word16) (← word16)
  | 12 => return nameAndType (← word16) (← word16)
  | 15 => return methodHandle (← byte) (← word16)
  | 16 => return methodType (← word16)
  | 17 => return dynamic (← word16) (← word16)
  | 18 => return invokeDynamic (← word16) (← word16)
  | 19 => return moduleInfo (← word16)
  | 20 => return packageInfo (← word16)
  | _ => fun _ => none

/-- One constant. -/
def read : Reader Constant := do
  let tag ← byte
  readBody tag

/-- The bytes of a constant. -/
def encode : Constant → Bytes
  | utf8 spelling => 1 :: word16Bytes (UInt16.ofNat spelling.length) ++ spelling
  | integer bits => 3 :: word32Bytes bits
  | float bits => 4 :: word32Bytes bits
  | long high low => 5 :: word32Bytes high ++ word32Bytes low
  | double high low => 6 :: word32Bytes high ++ word32Bytes low
  | classInfo name => 7 :: word16Bytes name
  | string text => 8 :: word16Bytes text
  | fieldRef a b => 9 :: word16Bytes a ++ word16Bytes b
  | methodRef a b => 10 :: word16Bytes a ++ word16Bytes b
  | interfaceMethodRef a b => 11 :: word16Bytes a ++ word16Bytes b
  | nameAndType a b => 12 :: word16Bytes a ++ word16Bytes b
  | methodHandle kind a => 15 :: kind :: word16Bytes a
  | methodType a => 16 :: word16Bytes a
  | dynamic a b => 17 :: word16Bytes a ++ word16Bytes b
  | invokeDynamic a b => 18 :: word16Bytes a ++ word16Bytes b
  | moduleInfo a => 19 :: word16Bytes a
  | packageInfo a => 20 :: word16Bytes a

end Constant

/-- The constants of a class file in the order of their numbers. -/
abbrev ConstantPool := List Constant

namespace ConstantPool

/-- What stands behind each number, the first number being one. -/
def slots (pool : ConstantPool) : List (Option Constant) :=
  pool.flatMap Constant.slots

/-- The constant so many numbers after the first one. -/
def constantAfter? : ConstantPool → Nat → Option Constant
  | [], _ => none
  | c :: _, 0 => some c
  | c :: pool, n + 1 =>
    if c.isWide then
      match n with
      | 0 => none
      | n + 1 => constantAfter? pool n
    else constantAfter? pool n

/-- Constants are found behind their numbers. -/
theorem constantAfter?_eq (pool : ConstantPool) (n : Nat) :
    pool.constantAfter? n = pool.slots[n]?.join := by
  induction pool generalizing n with
  | nil => rfl
  | cons c pool ih =>
    have hslots : slots (c :: pool) = c.slots ++ slots pool := List.flatMap_cons
    rw [hslots]
    by_cases hwide : c.isWide = true
    · rw [Constant.slots, if_pos hwide]
      match n with
      | 0 => rfl
      | 1 => simp [constantAfter?, hwide]
      | n + 2 => simp [constantAfter?, hwide, ih]
    · rw [Constant.slots, if_neg hwide]
      match n with
      | 0 => rfl
      | n + 1 => simp [constantAfter?, hwide, ih]

/-- Constants that take the given count of numbers. After a wide constant (`wide`) one number
is passed over; a wide constant in the last place runs one number past the count. -/
def read (wide : Bool) : Nat → Reader ConstantPool
  | 0 => return []
  | n + 1 =>
    if wide then read false n
    else do
      let c ← Constant.read
      let rest ← read c.isWide n
      return c :: rest

/-- The constant with this number. -/
def constant (pool : ConstantPool) (number : UInt16) : Except PoolFault Constant :=
  if number = 0 then .error (.noConstant 0)
  else
    match pool.constantAfter? (number.toNat - 1) with
    | some c => .ok c
    | none => .error (.noConstant number.toNat)

/-- The text with this number. -/
def text (pool : ConstantPool) (number : UInt16) : Except PoolFault String := do
  match ← pool.constant number with
  | .utf8 spelling =>
    match modifiedUtf8Text? spelling with
    | some s => return s
    | none => throw (.otherKind number.toNat)
  | _ => throw (.otherKind number.toNat)

/-- The name, with slashes, of the class with this number. -/
def className (pool : ConstantPool) (number : UInt16) : Except PoolFault String := do
  match ← pool.constant number with
  | .classInfo name => pool.text name
  | _ => throw (.otherKind number.toNat)

end ConstantPool

end RoleWiring
