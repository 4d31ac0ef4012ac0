import Mathlib.Data.Nat.Bitwise
import RoleWiring.ClassFile.Declared
import RoleWiring.Proofs.ClassFile.Outline
import RoleWiring.Proofs.Except

/-!
# What a class file declares

A well-formed class file of a supported version declares the type that it refers to by
name: the kind is the one that the bits of the access flags give, and the names are the
ones behind the numbers of the class, of its superclass and of its interfaces, with dots
for slashes. Nothing else in the class file matters, and nothing that follows it.

* `givenBy_iff`, `dotted_iff` — the kind and the names of a declaration, bit by bit and
  character by character;
* `ofBytes_encode` — the declaration is read from the bytes.
-/

namespace RoleWiring

/-! ## Kinds and names -/

/-- What flags say of a type. The bits 13, 9, 14 and 10 mark annotations, interfaces, enumerations
and abstract classes. The first of these that is set counts, and no other bit does. -/
inductive Kind.GivenBy (flags : UInt16) : Kind → Prop
  | annotationType (h : flags.toNat.testBit 13 = true) : GivenBy flags .annotationType
  | interface (h₁₃ : flags.toNat.testBit 13 = false) (h : flags.toNat.testBit 9 = true) :
    GivenBy flags .interface
  | enum (h₁₃ : flags.toNat.testBit 13 = false) (h₉ : flags.toNat.testBit 9 = false)
      (h : flags.toNat.testBit 14 = true) : GivenBy flags .enum
  | abstractClass (h₁₃ : flags.toNat.testBit 13 = false) (h₉ : flags.toNat.testBit 9 = false)
      (h₁₄ : flags.toNat.testBit 14 = false) (h : flags.toNat.testBit 10 = true) :
    GivenBy flags .abstractClass
  | concreteClass (h₁₃ : flags.toNat.testBit 13 = false) (h₉ : flags.toNat.testBit 9 = false)
      (h₁₄ : flags.toNat.testBit 14 = false) (h₁₀ : flags.toNat.testBit 10 = false) :
    GivenBy flags .concreteClass

/-- A mask of one bit leaves something of the flags exactly if they have the bit. -/
theorem and_ne_zero_iff {flags mask : UInt16} {bit : Nat} (h : mask.toNat = 2 ^ bit) :
    flags &&& mask ≠ 0 ↔ flags.toNat.testBit bit = true := by
  rw [ne_eq, ← UInt16.toNat_inj, UInt16.toNat_and, h, Nat.and_two_pow]
  cases flags.toNat.testBit bit <;> simp

/-- The kind by the bits in turn. -/
theorem Kind.ofAccess_eq (flags : UInt16) :
    ofAccess flags =
      if flags.toNat.testBit 13 then .annotationType
      else if flags.toNat.testBit 9 then .interface
      else if flags.toNat.testBit 14 then .enum
      else if flags.toNat.testBit 10 then .abstractClass
      else .concreteClass := by
  have h₁₃ : (0x2000 : UInt16).toNat = 2 ^ 13 := rfl
  have h₉ : (0x0200 : UInt16).toNat = 2 ^ 9 := rfl
  have h₁₄ : (0x4000 : UInt16).toNat = 2 ^ 14 := rfl
  have h₁₀ : (0x0400 : UInt16).toNat = 2 ^ 10 := rfl
  simp only [ofAccess, and_ne_zero_iff h₁₃, and_ne_zero_iff h₉, and_ne_zero_iff h₁₄,
    and_ne_zero_iff h₁₀]

/-- Flags give one kind. -/
theorem Kind.givenBy_iff {flags : UInt16} {kind : Kind} :
    GivenBy flags kind ↔ kind = ofAccess flags := by
  rw [ofAccess_eq]
  constructor
  · intro h
    cases h <;> simp [*]
  · rintro rfl
    cases h₁₃ : flags.toNat.testBit 13 with
    | true => exact .annotationType h₁₃
    | false =>
      cases h₉ : flags.toNat.testBit 9 with
      | true => exact .interface h₁₃ h₉
      | false =>
        cases h₁₄ : flags.toNat.testBit 14 with
        | true => exact .enum h₁₃ h₉ h₁₄
        | false =>
          cases h₁₀ : flags.toNat.testBit 10 with
          | true => exact .abstractClass h₁₃ h₉ h₁₄ h₁₀
          | false => exact .concreteClass h₁₃ h₉ h₁₄ h₁₀

/-- The second name has a dot where the first one has a slash, and every other character as it
is. -/
def Dotted (internal qualified : String) : Prop :=
  List.Forall₂ (fun c c' => c = '/' ∧ c' = '.' ∨ c ≠ '/' ∧ c' = c) internal.toList
    qualified.toList

/-- Lists that are related item by item, where each item is related to one only. -/
theorem forall₂_iff_eq_map {R : α → β → Prop} {f : α → β} (h : ∀ a b, R a b ↔ b = f a)
    {l : List α} {l' : List β} : List.Forall₂ R l l' ↔ l' = l.map f := by
  have hR : R = fun a b => f a = b := funext₂ fun a b => propext ((h a b).trans eq_comm)
  rw [hR, ← List.forall₂_map_left_iff (R := fun a b => a = b), List.forall₂_eq_eq_eq, eq_comm]

/-- A name has one spelling with dots. -/
theorem dotted_iff {internal qualified : String} :
    Dotted internal qualified ↔ qualified = ofInternalName internal := by
  rw [Dotted, forall₂_iff_eq_map (f := fun c => if c = '/' then '.' else c), ofInternalName]
  · rw [← String.toList_inj, String.toList_ofList]
  · intro c c'
    by_cases hc : c = '/' <;> simp [hc]

/-- A declaration of a type with these access flags and these names, which a class file spells with
slashes. -/
structure Declaration.States (d : Declaration) (flags : UInt16) (name : String)
    (superName : Option String) (interfaceNames : List String) : Prop where
  /-- the name has dots for slashes -/
  name : Dotted name d.name
  /-- the flags give the kind -/
  kind : Kind.GivenBy flags d.kind
  /-- there is a superclass exactly if one is referred to -/
  superClass : Option.Rel Dotted superName d.superClass
  /-- the interfaces are the ones that are referred to, in their order -/
  interfaces : List.Forall₂ Dotted interfaceNames d.interfaces

/-- There is one such declaration. -/
theorem Declaration.states_iff {d : Declaration} {flags : UInt16} {name : String}
    {superName : Option String} {interfaceNames : List String} :
    d.States flags name superName interfaceNames ↔
      d = ⟨ofInternalName name, Kind.ofAccess flags, superName.map ofInternalName,
        interfaceNames.map ofInternalName⟩ := by
  have hsuper : ∀ superClass, Option.Rel Dotted superName superClass ↔
      superClass = superName.map ofInternalName := by
    intro superClass
    cases superName <;> cases superClass <;> simp [dotted_iff]
  have hinterfaces : ∀ interfaces, List.Forall₂ Dotted interfaceNames interfaces ↔
      interfaces = interfaceNames.map ofInternalName :=
    fun _ => forall₂_iff_eq_map (R := Dotted) (f := ofInternalName) fun _ _ => dotted_iff
  obtain ⟨n, kind, superClass, interfaces⟩ := d
  rw [mk.injEq, ← dotted_iff, ← Kind.givenBy_iff, ← hsuper, ← hinterfaces]
  exact ⟨fun h => ⟨h.name, h.kind, h.superClass, h.interfaces⟩,
    fun ⟨hname, hkind, hsuper, hinterfaces⟩ => ⟨hname, hkind, hsuper, hinterfaces⟩⟩

/-! ## The header -/

/-- The header states the major version in its last two bytes. -/
theorem majorVersionOf_header (minor major : UInt16) (rest : Bytes) :
    majorVersionOf (magic ++ (word16Bytes minor ++ (word16Bytes major ++ rest))) = major.toNat := by
  show (UInt8.ofNat (major.toNat / 256)).toNat * 256 + (UInt8.ofNat major.toNat).toNat = _
  have hmajor := major.toNat_lt
  rw [UInt8.toNat_ofNat', UInt8.toNat_ofNat']
  omega

theorem acceptHeader_encode {c : ClassFile} (h : 45 ≤ c.majorVersion ∧ c.majorVersion ≤ 69)
    (rest : Bytes) : acceptHeader (c.encode ++ rest) = .ok () := by
  obtain ⟨low, high⟩ := h
  rw [UInt16.le_iff_toNat_le] at low high
  have hversion : ¬ (c.majorVersion.toNat < minMajorVersion ∨
      maxMajorVersion < c.majorVersion.toNat) := by
    rw [minMajorVersion, maxMajorVersion, not_or, Nat.not_lt, Nat.not_lt]
    exact ⟨low, high⟩
  simp only [ClassFile.encode, List.append_assoc]
  rw [acceptHeader, majorVersionOf_header, if_neg hversion]
  rw [if_neg, if_neg]
  · exact not_not_intro rfl
  · simp [magic, word16Bytes, ClassFile.poolBytes]

/-! ## The declaration -/

namespace ClassFile

variable {c : ClassFile} {name : String} {superName : Option String}
  {interfaceNames : List String}

theorem nameOf_eq_ok {refuse : PoolFault → Refusal} {number : UInt16}
    (h : c.constants.Names number name) : c.nameOf refuse number = .ok (ofInternalName name) := by
  rw [nameOf, ConstantPool.className_eq_ok h]

/-- A class file has no superclass exactly if the number of the superclass is zero. -/
theorem RefersTo.superName_eq_none_iff (h : c.RefersTo name superName interfaceNames) :
    superName = none ↔ c.superClass = 0 := by
  have hsuper := h.super
  cases superName with
  | none => exact iff_of_true rfl hsuper
  | some s =>
    obtain ⟨text, hholds, -⟩ := hsuper
    exact iff_of_false nofun hholds.ne_zero

/-- What is declared are the names that are referred to, with dots for slashes. -/
theorem declaration_eq_ok (h : c.RefersTo name superName interfaceNames) :
    c.declaration = .ok ⟨ofInternalName name, Kind.ofAccess c.access,
      superName.map ofInternalName, interfaceNames.map ofInternalName⟩ := by
  have hinterfaces : c.interfaces.mapM (c.nameOf .badInterface) =
      .ok (interfaceNames.map ofInternalName) := by
    rw [mapM_eq_ok, List.forall₂_map_right_iff]
    exact h.interfaces.imp fun number name hname => nameOf_eq_ok hname
  refine bind_eq_ok.mpr ⟨_, nameOf_eq_ok h.this, ?_⟩
  have hsuper := h.super
  cases superName with
  | none =>
    dsimp only at hsuper ⊢
    rw [if_pos hsuper]
    exact bind_eq_ok.mpr ⟨none, rfl, bind_eq_ok.mpr ⟨_, hinterfaces, rfl⟩⟩
  | some s =>
    have hne : c.superClass ≠ 0 := mt h.superName_eq_none_iff.mpr nofun
    have hsome : some <$> c.nameOf .badSuperClass c.superClass = .ok (some (ofInternalName s)) := by
      rw [nameOf_eq_ok hsuper]
      rfl
    dsimp only
    rw [if_neg hne]
    exact bind_eq_ok.mpr ⟨_, hsome, bind_eq_ok.mpr ⟨_, hinterfaces, rfl⟩⟩

end ClassFile

/-- A well-formed class file is read from its bytes, whatever follows them, as the declaration of
the names that it refers to. -/
theorem Declaration.ofBytes_append {c : ClassFile} {name : String} {superName : Option String}
    {interfaceNames : List String} (h : c.WellFormed)
    (hrefers : c.RefersTo name superName interfaceNames) (rest : Bytes) :
    ofBytes (c.encode ++ rest) = .ok ⟨ofInternalName name, Kind.ofAccess c.access,
      superName.map ofInternalName, interfaceNames.map ofInternalName⟩ := by
  refine bind_eq_ok.mpr ⟨(), acceptHeader_encode h.major rest, ?_⟩
  rw [ClassFile.ofBytes?_encode h]
  exact ClassFile.declaration_eq_ok hrefers

/-- The declaration of a type is recovered from the bytes of a class file. Whatever the constants,
the members and the attributes of a well-formed class file are, the declaration has the names it
refers to, with dots for slashes: the interfaces in their order, repeated ones too, and a
superclass exactly if its number is not zero. The bits of the access flags give the kind. Class
files that agree in these names and in the flags declare the same. The simplest class files declare
what they were made for. -/
theorem ofBytes_encode :
    (∀ (c : ClassFile) name superName interfaceNames, c.WellFormed →
      c.RefersTo name superName interfaceNames →
        ∃ d, Declaration.ofBytes c.encode = .ok d ∧
          d.States c.access name superName interfaceNames ∧
          (d.superClass = none ↔ c.superClass = 0)) ∧
    (∀ (c c' : ClassFile) name superName interfaceNames, c.WellFormed → c'.WellFormed →
      c.RefersTo name superName interfaceNames → c'.RefersTo name superName interfaceNames →
        c.access = c'.access → Declaration.ofBytes c.encode = Declaration.ofBytes c'.encode) ∧
    ∀ o : Outline, o.Fits →
      ∃ d, Declaration.ofBytes o.bytes = .ok d ∧
        d.States o.access o.name o.superName o.interfaceNames := by
  have hread : ∀ (c : ClassFile) name superName interfaceNames, c.WellFormed →
      c.RefersTo name superName interfaceNames →
        Declaration.ofBytes c.encode = .ok ⟨ofInternalName name, Kind.ofAccess c.access,
          superName.map ofInternalName, interfaceNames.map ofInternalName⟩ := by
    intro c name superName interfaceNames h hrefers
    have happend := Declaration.ofBytes_append h hrefers []
    rwa [List.append_nil] at happend
  refine ⟨fun c name superName interfaceNames h hrefers => ?_, ?_, fun o h => ?_⟩
  · refine ⟨_, hread c _ _ _ h hrefers, Declaration.states_iff.mpr rfl, ?_⟩
    rw [← hrefers.superName_eq_none_iff, Option.map_eq_none_iff]
  · intro c c' name superName interfaceNames h h' hrefers hrefers' haccess
    rw [hread c _ _ _ h hrefers, hread c' _ _ _ h' hrefers', haccess]
  · have hread := hread o.classFile _ _ _ (Outline.wellFormed_classFile h)
      (Outline.refersTo_classFile h)
    rw [Option.map_map, List.map_map, Outline.ofInternalName_internalName] at hread
    have hdots : ofInternalName ∘ Outline.internalName = ofInternalName :=
      funext Outline.ofInternalName_internalName
    rw [hdots] at hread
    exact ⟨_, hread, Declaration.states_iff.mpr rfl⟩

/-! ## An intricate class file -/

/-- Code with a handler and an attribute inside. -/
def intricateCode : Attribute.Code where
  limits := [0, 1, 0, 1]
  instructions := [0xB1]
  handlers := [[0, 0, 0, 1, 0, 0, 0, 0]]
  attributes := [⟨9, [1, 2, 3]⟩]

/-- A class file whose names stand behind wide constants, before and after the classes that have
them, with a field, a method with code, and an interface that is repeated. -/
def intricateClassFile : ClassFile where
  minorVersion := 65535
  majorVersion := 69
  constants := [.long 1 2, .utf8 (utf8Bytes "a/B"), .classInfo 3, .double 3 4,
    .utf8 (utf8Bytes "Code"), .classInfo 9, .utf8 (utf8Bytes "I")]
  access := 0x0421
  thisClass := 4
  superClass := 8
  interfaces := [8, 4, 8]
  fields := [⟨0, 3, 9, []⟩]
  methods := [⟨0, 3, 7, [⟨7, intricateCode.encode⟩]⟩]
  attributes := []

/-- The same type in the simplest form. -/
def plainOutline : Outline :=
  ⟨45, 0x0421, "a.B", some "I", ["I", "a.B", "I"]⟩

theorem spells_intricateClassFile :
    intricateClassFile.constants.Spells 3 "a/B" ∧
      intricateClassFile.constants.Spells 7 "Code" ∧
      intricateClassFile.constants.Spells 9 "I" :=
  ⟨⟨_, ⟨[.long 1 2], _, rfl, rfl⟩, modifiedUtf8Text?_utf8Bytes (by decide)⟩,
    ⟨_, ⟨[.long 1 2, .utf8 (utf8Bytes "a/B"), .classInfo 3, .double 3 4], _, rfl, rfl⟩,
      modifiedUtf8Text?_utf8Bytes (by decide)⟩,
    ⟨_, ⟨[.long 1 2, .utf8 (utf8Bytes "a/B"), .classInfo 3, .double 3 4,
        .utf8 (utf8Bytes "Code"), .classInfo 9], _, rfl, rfl⟩,
      modifiedUtf8Text?_utf8Bytes (by decide)⟩⟩

theorem refersTo_intricateClassFile :
    intricateClassFile.RefersTo "a/B" (some "I") ["I", "a/B", "I"] := by
  obtain ⟨hB, -, hI⟩ := spells_intricateClassFile
  have hthis : intricateClassFile.constants.Names 4 "a/B" :=
    ⟨3, ⟨[.long 1 2, .utf8 (utf8Bytes "a/B")], _, rfl, rfl⟩, hB⟩
  have hsuper : intricateClassFile.constants.Names 8 "I" :=
    ⟨9, ⟨[.long 1 2, .utf8 (utf8Bytes "a/B"), .classInfo 3, .double 3 4,
      .utf8 (utf8Bytes "Code")], _, rfl, rfl⟩, hI⟩
  exact ⟨hthis, hsuper, .cons hsuper (.cons hthis (.cons hsuper .nil))⟩

theorem fits_intricateCode : intricateCode.Fits where
  limits := rfl
  instructions := by decide
  handlers := by decide
  handler := List.forall_mem_singleton.mpr rfl
  attributes := ⟨by decide, List.forall_mem_singleton.mpr (show 3 < 4294967296 by decide)⟩

theorem fits_intricateClassFile : intricateClassFile.Fits where
  constants := by
    simp only [intricateClassFile, List.forall_mem_cons, Constant.Fits, true_and]
    exact ⟨by decide, by decide, by decide, nofun⟩
  slots := by decide
  interfaces := by decide
  fields := ⟨by decide, List.forall_mem_singleton.mpr ⟨by decide, nofun⟩⟩
  methods := by
    have hcode : Attribute.Fits ⟨7, intricateCode.encode⟩ :=
      show intricateCode.encode.length < 4294967296 by decide
    exact ⟨by decide,
      List.forall_mem_singleton.mpr ⟨by decide, List.forall_mem_singleton.mpr hcode⟩⟩
  attributes := ⟨by decide, nofun⟩

theorem wellFormed_intricateClassFile : intricateClassFile.WellFormed where
  fits := fits_intricateClassFile
  major := by decide
  minor := .inr (.inr rfl)
  constants := by
    have htext : ∀ s, IsBasic s → Constant.WellFormed (.utf8 (utf8Bytes s)) :=
      fun s hs => ⟨s, modifiedUtf8Text?_utf8Bytes hs⟩
    simp only [intricateClassFile, List.forall_mem_cons]
    exact ⟨trivial, htext _ (by decide), trivial, trivial, htext _ (by decide), trivial,
      htext _ (by decide), nofun⟩
  fields := by
    obtain ⟨-, -, hI⟩ := spells_intricateClassFile
    exact List.forall_mem_singleton.mpr ⟨"I", hI, .primitive (by decide)⟩
  fieldAttributes := List.forall_mem_singleton.mpr nofun
  methodAttributes := by
    obtain ⟨-, hCode, hI⟩ := spells_intricateClassFile
    have hinside : Attribute.WellFormed intricateClassFile.constants ⟨9, [1, 2, 3]⟩ :=
      .plain hI (by decide) (by decide) ⟨nofun, nofun⟩
    have hcode : Attribute.WellFormed intricateClassFile.constants ⟨7, intricateCode.encode⟩ :=
      .code hCode fits_intricateCode (List.forall_mem_singleton.mpr hinside)
    exact List.forall_mem_singleton.mpr (List.forall_mem_singleton.mpr hcode)
  attributes := nofun

/-- The intricate class file declares the type, and so does the simplest one. With other flags the
type is of another kind. -/
theorem ofBytes_encode_intricate :
    Declaration.ofBytes intricateClassFile.encode =
        .ok ⟨"a.B", .abstractClass, some "I", ["I", "a.B", "I"]⟩ ∧
      Declaration.ofBytes intricateClassFile.encode = Declaration.ofBytes plainOutline.bytes ∧
      ∀ e ∈ [(0x6600, Kind.annotationType), (0x4600, .interface), (0x4411, .enum),
          (0x0421, .abstractClass), (0x9031, .concreteClass)],
        Declaration.ofBytes { plainOutline with access := e.1 }.bytes =
          .ok ⟨"a.B", e.2, some "I", ["I", "a.B", "I"]⟩ := by
  obtain ⟨hread, hsame, houtline⟩ := ofBytes_encode
  have hfits : plainOutline.Fits := ⟨by decide, by decide, by decide, by decide⟩
  have hkinds : ∀ e ∈ [((0x6600 : UInt16), Kind.annotationType), (0x4600, .interface),
      (0x4411, .enum), (0x0421, .abstractClass), (0x9031, .concreteClass)],
      Kind.ofAccess e.1 = e.2 := by decide
  have hB : ofInternalName "a.B" = "a.B" := rfl
  have hI : ofInternalName "I" = "I" := rfl
  refine ⟨?_, ?_, fun e he => ?_⟩
  · obtain ⟨d, hd, hstates, -⟩ :=
      hread _ _ _ _ wellFormed_intricateClassFile refersTo_intricateClassFile
    rw [hd, Declaration.states_iff.mp hstates]
    rfl
  · exact hsame _ _ _ _ _ wellFormed_intricateClassFile (Outline.wellFormed_classFile hfits)
      refersTo_intricateClassFile (Outline.refersTo_classFile hfits) rfl
  · obtain ⟨d, hd, hstates⟩ := houtline { plainOutline with access := e.1 }
      ⟨hfits.major, hfits.count, hfits.size, hfits.basic⟩
    rw [hd, Declaration.states_iff.mp hstates, ← hkinds e he]
    simp only [plainOutline, Option.map, List.map, hB, hI]

end RoleWiring
