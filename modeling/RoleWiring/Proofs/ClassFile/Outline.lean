import RoleWiring.Name.Qualified
import RoleWiring.Proofs.ClassFile.ModifiedUtf8
import RoleWiring.Proofs.ClassFile.WellFormed

/-!
# The simplest class files

A class file without members or attributes, whose pool has nothing but a text and a class
for each name that is referred to. It is what one writes to have a type declared.

* `Outline.wellFormed_classFile` — such a class file is well-formed;
* `Outline.refersTo_classFile` — it refers to the names it was made for.
-/

namespace RoleWiring

/-- A type that is to be declared. Its names are written with dots. -/
structure Outline where
  /-- the major version of the class file -/
  majorVersion : UInt16
  /-- the access flags -/
  access : UInt16
  /-- the name of the type -/
  name : String
  /-- the superclass, if it has one -/
  superName : Option String
  /-- the interfaces in order -/
  interfaceNames : List String

namespace Outline

/-- The name as class files spell it. -/
def internalName (name : String) : String :=
  String.ofList (name.toList.map fun c => if c = '.' then '/' else c)

/-- A text and a class for each name, where so many numbers are taken before. -/
def entries (taken : Nat) : List String → ConstantPool
  | [] => []
  | name :: names =>
    .utf8 (utf8Bytes (internalName name)) :: .classInfo (UInt16.ofNat (taken + 1)) ::
      entries (taken + 2) names

/-- The numbers of the classes among these entries. -/
def classNumbers (taken : Nat) : List String → List UInt16
  | [] => []
  | _ :: names => UInt16.ofNat (taken + 2) :: classNumbers (taken + 2) names

/-- All names in the order of their entries. -/
def names (o : Outline) : List String :=
  o.name :: (o.superName.toList ++ o.interfaceNames)

/-- The class file that declares the type. -/
def classFile (o : Outline) : ClassFile where
  minorVersion := 0
  majorVersion := o.majorVersion
  constants := entries 0 o.names
  access := o.access
  thisClass := 2
  superClass := if o.superName.isSome then 4 else 0
  interfaces := classNumbers (2 + 2 * o.superName.toList.length) o.interfaceNames
  fields := []
  methods := []
  attributes := []

/-- The bytes of this class file. -/
def bytes (o : Outline) : Bytes :=
  o.classFile.encode

/-- The version is supported, and the names can be written. -/
structure Fits (o : Outline) : Prop where
  /-- the major version is supported -/
  major : 45 ≤ o.majorVersion ∧ o.majorVersion ≤ 69
  /-- there are numbers for all names -/
  count : 2 * o.names.length < 65535
  /-- the length of every name has a place -/
  size : ∀ name ∈ o.names, (utf8Bytes (internalName name)).length < 65536
  /-- all characters of the names are in the basic plane -/
  basic : ∀ name ∈ o.names, IsBasic name

/-- A name is read from its internal spelling as it would be from itself. -/
theorem ofInternalName_internalName (name : String) :
    ofInternalName (internalName name) = ofInternalName name := by
  rw [ofInternalName, internalName, String.toList_ofList, List.map_map, ofInternalName]
  refine congrArg String.ofList (List.map_congr_left fun c _ => ?_)
  by_cases hc : c = '.' <;> simp [hc]

theorem isBasic_internalName {name : String} (h : IsBasic name) : IsBasic (internalName name) := by
  intro x hx
  rw [internalName, String.toList_ofList] at hx
  obtain ⟨c, hc, rfl⟩ := List.mem_map.mp hx
  split
  · decide
  · exact h c hc

theorem length_slots_entries (taken : Nat) (names : List String) :
    (entries taken names).slots.length = 2 * names.length := by
  induction names generalizing taken with
  | nil => rfl
  | cons name names ih =>
    have hslots : (entries taken (name :: names)).slots =
        some (.utf8 (utf8Bytes (internalName name))) ::
          some (.classInfo (UInt16.ofNat (taken + 1))) :: (entries (taken + 2) names).slots :=
      rfl
    rw [hslots, List.length_cons, List.length_cons, ih, List.length_cons]
    omega

theorem length_classNumbers (taken : Nat) (names : List String) :
    (classNumbers taken names).length = names.length := by
  induction names generalizing taken with
  | nil => rfl
  | cons name names ih => rw [classNumbers, List.length_cons, ih, List.length_cons]

/-- An entry is a text of one of the names or a class. -/
theorem eq_of_mem_entries {taken : Nat} {names : List String} {c : Constant}
    (h : c ∈ entries taken names) :
    (∃ name ∈ names, c = .utf8 (utf8Bytes (internalName name))) ∨ ∃ text, c = .classInfo text := by
  induction names generalizing taken with
  | nil => cases h
  | cons name names ih =>
    rw [entries, List.mem_cons, List.mem_cons] at h
    rcases h with rfl | rfl | hrest
    · exact .inl ⟨name, List.mem_cons_self .., rfl⟩
    · exact .inr ⟨_, rfl⟩
    · exact (ih hrest).imp_left fun ⟨name', hname', hc⟩ =>
        ⟨name', List.mem_cons_of_mem _ hname', hc⟩

/-- The classes among the entries are named as they were meant to be. The induction is on the
names; the entries before them move into the front of the pool. -/
theorem forall₂_names_classNumbers {pool : ConstantPool} (before : ConstantPool)
    {names : List String} (hpool : pool = before ++ entries before.slots.length names)
    (hcount : before.slots.length + 2 * names.length < 65536)
    (hbasic : ∀ name ∈ names, IsBasic name) :
    List.Forall₂ pool.Names (classNumbers before.slots.length names) (names.map internalName) := by
  induction names generalizing before with
  | nil => exact .nil
  | cons name names ih =>
    rw [List.length_cons] at hcount
    obtain ⟨hname, hnames⟩ := List.forall_mem_cons.mp hbasic
    have htext : pool.Holds (UInt16.ofNat (before.slots.length + 1))
        (.utf8 (utf8Bytes (internalName name))) :=
      ⟨before, _, hpool, UInt16.toNat_ofNat_of_lt' (show _ < 65536 by omega)⟩
    have hclass : pool.Holds (UInt16.ofNat (before.slots.length + 2))
        (.classInfo (UInt16.ofNat (before.slots.length + 1))) := by
      refine ⟨before ++ [.utf8 (utf8Bytes (internalName name))],
        entries (before.slots.length + 2) names, ?_, ?_⟩
      · rw [hpool, entries, List.append_assoc]
        rfl
      · rw [ConstantPool.slots_append, List.length_append,
          UInt16.toNat_ofNat_of_lt' (show _ < 65536 by omega)]
        rfl
    refine .cons ⟨_, hclass, _, htext, modifiedUtf8Text?_utf8Bytes (isBasic_internalName hname)⟩ ?_
    have hfront : (ConstantPool.slots (before ++ [.utf8 (utf8Bytes (internalName name)),
        .classInfo (UInt16.ofNat (before.slots.length + 1))])).length =
        before.slots.length + 2 := by
      rw [ConstantPool.slots_append, List.length_append]
      rfl
    rw [← hfront]
    refine ih _ ?_ ?_ hnames
    · rw [hfront, hpool, entries, List.append_assoc]
      rfl
    · rw [hfront]
      omega

variable {o : Outline}

/-- There are places for all numbers and lengths in the class file. -/
structure HasRoom (o : Outline) : Prop where
  /-- there are numbers for all names -/
  count : 2 * o.names.length < 65535
  /-- the length of every name has a place -/
  size : ∀ name ∈ o.names, (utf8Bytes (internalName name)).length < 65536

theorem Fits.hasRoom (h : o.Fits) : o.HasRoom :=
  ⟨h.count, h.size⟩

theorem fits_classFile (h : o.HasRoom) : o.classFile.Fits where
  constants := by
    intro c hc
    obtain ⟨name, hname, rfl⟩ | ⟨text, rfl⟩ := eq_of_mem_entries hc
    · exact h.size name hname
    · trivial
  slots := by
    show (entries 0 o.names).slots.length < 65535
    rw [length_slots_entries]
    exact h.count
  interfaces := by
    show (classNumbers _ o.interfaceNames).length < 65536
    rw [length_classNumbers]
    have hcount := h.count
    rw [names, List.length_cons, List.length_append] at hcount
    omega
  fields := ⟨Nat.zero_lt_succ _, nofun⟩
  methods := ⟨Nat.zero_lt_succ _, nofun⟩
  attributes := ⟨Nat.zero_lt_succ _, nofun⟩

theorem wellFormed_classFile (h : o.Fits) : o.classFile.WellFormed where
  fits := fits_classFile h.hasRoom
  major := h.major
  minor := .inr (.inl rfl)
  constants := by
    intro c hc
    obtain ⟨name, hname, rfl⟩ | ⟨text, rfl⟩ := eq_of_mem_entries hc
    · exact ⟨_, modifiedUtf8Text?_utf8Bytes (isBasic_internalName (h.basic name hname))⟩
    · trivial
  fields := nofun
  fieldAttributes := nofun
  methodAttributes := nofun
  attributes := nofun

theorem refersTo_classFile (h : o.Fits) :
    o.classFile.RefersTo (internalName o.name) (o.superName.map internalName)
      (o.interfaceNames.map internalName) := by
  have hall : List.Forall₂ (entries 0 o.names).Names (classNumbers 0 o.names)
      (o.names.map internalName) := by
    have hcount : 0 + 2 * o.names.length < 65536 := by
      have := h.count
      omega
    exact forall₂_names_classNumbers [] rfl hcount h.basic
  obtain ⟨majorVersion, access, name, superName, interfaceNames⟩ := o
  cases superName with
  | none =>
    obtain ⟨hthis, hinterfaces⟩ := List.forall₂_cons.mp hall
    exact ⟨hthis, rfl, hinterfaces⟩
  | some s =>
    obtain ⟨hthis, hrest⟩ := List.forall₂_cons.mp hall
    obtain ⟨hsuper, hinterfaces⟩ := List.forall₂_cons.mp hrest
    exact ⟨hthis, hsuper, hinterfaces⟩

end Outline

end RoleWiring
