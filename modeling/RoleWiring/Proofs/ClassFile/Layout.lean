import RoleWiring.ClassFile.Layout
import RoleWiring.Proofs.ClassFile.Bytes

/-!
# Class files are read back

A class file whose tables and texts are small enough for the counts in front of them is
read back from its bytes as it was written, and what follows it is left. The numbers of
the pool are counted on both sides: a wide constant takes two of them and is written once.

* `ConstantPool.reads_readPool` — the pool;
* `ClassFile.reads_read` — the whole class file.
-/

namespace RoleWiring

open Reader

/-! ## Constants -/

namespace Constant

/-- A text is no longer than its length field can say. -/
def Fits : Constant → Prop
  | utf8 spelling => spelling.length < 65536
  | _ => True

theorem reads_of_readBody {tag : UInt8} {body : Bytes} {c : Constant}
    (h : (readBody tag).Reads body c) : read.Reads (tag :: body) c :=
  (reads_byte tag).bind h

/-- A constant is read back. -/
theorem reads_read {c : Constant} (h : c.Fits) : read.Reads c.encode c := by
  cases c with
  | utf8 spelling =>
    have hsize : (UInt16.ofNat spelling.length).toNat = spelling.length :=
      UInt16.toNat_ofNat_of_lt' h
    exact reads_of_readBody ((reads_word16 _).bind ((reads_take hsize.symm).map utf8))
  | integer bits => exact reads_of_readBody ((reads_word32 bits).map integer)
  | float bits => exact reads_of_readBody ((reads_word32 bits).map float)
  | long high low =>
    exact reads_of_readBody ((reads_word32 high).map₂ (reads_word32 low) long)
  | double high low =>
    exact reads_of_readBody ((reads_word32 high).map₂ (reads_word32 low) double)
  | classInfo name => exact reads_of_readBody ((reads_word16 name).map classInfo)
  | string text => exact reads_of_readBody ((reads_word16 text).map string)
  | fieldRef owner nameAndType =>
    exact reads_of_readBody ((reads_word16 owner).map₂ (reads_word16 nameAndType) fieldRef)
  | methodRef owner nameAndType =>
    exact reads_of_readBody ((reads_word16 owner).map₂ (reads_word16 nameAndType) methodRef)
  | interfaceMethodRef owner nameAndType =>
    exact reads_of_readBody
      ((reads_word16 owner).map₂ (reads_word16 nameAndType) interfaceMethodRef)
  | nameAndType name descriptor =>
    exact reads_of_readBody ((reads_word16 name).map₂ (reads_word16 descriptor) nameAndType)
  | methodHandle kind reference =>
    exact reads_of_readBody ((reads_byte kind).map₂ (reads_word16 reference) methodHandle)
  | methodType descriptor => exact reads_of_readBody ((reads_word16 descriptor).map methodType)
  | dynamic bootstrap nameAndType =>
    exact reads_of_readBody ((reads_word16 bootstrap).map₂ (reads_word16 nameAndType) dynamic)
  | invokeDynamic bootstrap nameAndType =>
    exact reads_of_readBody
      ((reads_word16 bootstrap).map₂ (reads_word16 nameAndType) invokeDynamic)
  | moduleInfo name => exact reads_of_readBody ((reads_word16 name).map moduleInfo)
  | packageInfo name => exact reads_of_readBody ((reads_word16 name).map packageInfo)

end Constant

namespace ConstantPool

/-- Constants are read back as long as numbers are left, and they use up just the numbers they
take. -/
theorem reads_read {pool : ConstantPool} (h : ∀ c ∈ pool, c.Fits) :
    (read false pool.slots.length).Reads (pool.flatMap Constant.encode) pool := by
  induction pool with
  | nil => exact reads_pure []
  | cons c pool ih =>
    obtain ⟨hc, hpool⟩ := List.forall_mem_cons.mp h
    have hslots : (slots (c :: pool)).length = c.slots.length + (slots pool).length := by
      rw [slots, List.flatMap_cons, List.length_append]
      rfl
    -- after a wide constant its second number is passed over
    have hrest : (read c.isWide (c.slots.length - 1 + (slots pool).length)).Reads
        (pool.flatMap Constant.encode) pool := by
      cases hwide : c.isWide with
      | false => simpa [Constant.slots, hwide] using ih hpool
      | true => simpa [Constant.slots, hwide, Nat.add_comm 1, read] using ih hpool
    have hcount : (slots (c :: pool)).length =
        c.slots.length - 1 + (slots pool).length + 1 := by
      have hpos : 0 < c.slots.length := by
        rw [Constant.slots]
        split <;> simp
      omega
    rw [hcount, List.flatMap_cons]
    exact (Constant.reads_read hc).bind (hrest.map (c :: ·))

end ConstantPool

namespace ClassFile

/-- A pool is read back, as long as its count has a place in front. -/
theorem reads_readPool {pool : ConstantPool} (h : ∀ c ∈ pool, c.Fits)
    (hslots : pool.slots.length < 65535) : readPool.Reads (poolBytes pool) pool := by
  have hcount : (UInt16.ofNat (pool.slots.length + 1)).toNat = pool.slots.length + 1 :=
    UInt16.toNat_ofNat_of_lt' (Nat.succ_lt_succ hslots)
  have hne : UInt16.ofNat (pool.slots.length + 1) ≠ 0 := by
    intro hzero
    rw [hzero] at hcount
    cases hcount
  refine (reads_word16 _).bind ?_
  rw [if_neg hne, hcount]
  exact ConstantPool.reads_read h

end ClassFile

/-! ## Attributes and members -/

/-- The content is no longer than its length field can say. -/
def Attribute.Fits (a : Attribute) : Prop :=
  a.content.length < 4294967296

theorem Attribute.reads_read {a : Attribute} (h : a.Fits) : read.Reads a.encode a := by
  have hsize : (UInt32.ofNat a.content.length).toNat = a.content.length :=
    UInt32.toNat_ofNat_of_lt' h
  rw [encode, List.append_assoc]
  exact (reads_word16 _).bind ((reads_word32 _).bind ((reads_take hsize.symm).map _))

/-- A table of attributes has a place for their number and for every size. -/
structure Attribute.TableFits (as : List Attribute) : Prop where
  /-- the number has a place -/
  count : as.length < 65536
  /-- the sizes have places -/
  each : ∀ a ∈ as, a.Fits

theorem Attribute.reads_table {as : List Attribute} (h : TableFits as) :
    (counted read).Reads (countedBytes encode as) as :=
  reads_counted (fun a ha => reads_read (h.each a ha)) h.count

theorem Member.reads_read {m : Member} (h : Attribute.TableFits m.attributes) :
    read.Reads m.encode m := by
  rw [encode, List.append_assoc, List.append_assoc]
  exact (reads_word16 _).bind ((reads_word16 _).bind ((reads_word16 _).bind
    ((Attribute.reads_table h).map _)))

/-- A table of fields or methods has a place for their number and for their attributes. -/
structure Member.TableFits (ms : List Member) : Prop where
  /-- the number has a place -/
  count : ms.length < 65536
  /-- the attributes have places -/
  each : ∀ m ∈ ms, Attribute.TableFits m.attributes

theorem Member.reads_table {ms : List Member} (h : TableFits ms) :
    (counted read).Reads (countedBytes encode ms) ms :=
  reads_counted (fun m hm => reads_read (h.each m hm)) h.count

/-! ## Class files -/

namespace ClassFile

/-- All counts and sizes of the class file have places. -/
structure Fits (c : ClassFile) : Prop where
  /-- the texts of the pool have -/
  constants : ∀ k ∈ c.constants, k.Fits
  /-- the numbers of the pool have, with the one that is given to nothing -/
  slots : c.constants.slots.length < 65535
  /-- the interfaces have -/
  interfaces : c.interfaces.length < 65536
  /-- the fields have -/
  fields : Member.TableFits c.fields
  /-- the methods have -/
  methods : Member.TableFits c.methods
  /-- the attributes have -/
  attributes : Attribute.TableFits c.attributes

/-- A class file is read back. -/
theorem reads_read {c : ClassFile} (h : c.Fits) : read.Reads c.encode c := by
  simp only [encode, List.append_assoc]
  refine (reads_take (n := 4) rfl).bind ?_
  rw [if_neg (not_not_intro rfl)]
  exact (reads_word16 _).bind ((reads_word16 _).bind ((reads_readPool h.constants h.slots).bind
    ((reads_word16 _).bind ((reads_word16 _).bind ((reads_word16 _).bind
      ((reads_counted (fun w _ => reads_word16 w) h.interfaces).bind
        ((Member.reads_table h.fields).bind ((Member.reads_table h.methods).bind
          ((Attribute.reads_table h.attributes).map _)))))))))

end ClassFile

end RoleWiring
