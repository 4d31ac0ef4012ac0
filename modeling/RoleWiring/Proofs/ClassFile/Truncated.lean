import RoleWiring.Proofs.ClassFile.Declared
import RoleWiring.Proofs.ClassPath.Roots

/-!
# Class files that are cut off

A class file ends where its own counts and sizes say. What follows the end is not looked at,
and if anything in front of it is missing, then some table, text or number is cut off and the
whole is refused. So no beginning of a class file declares a type, and least of all one with
fewer interfaces.

* `ClassFile.takesFront_read` — a class file is at the front of the bytes;
* `ofBytes_eq_ok` — what bytes that declare a type go through;
* `ofBytes_cutOff` — more bytes, and fewer.
-/

namespace RoleWiring

open Reader

/-! ## Every part is at the front -/

namespace Constant

theorem takesFront_readBody (tag : UInt8) : (readBody tag).TakesFront := by
  rw [readBody]
  -- the kinds of constant in the order of their tags, and at last all other tags
  split
  · exact takesFront_word16.bind fun size => (takesFront_take size.toNat).map utf8
  · exact takesFront_word32.map integer
  · exact takesFront_word32.map float
  · exact takesFront_word32.map₂ takesFront_word32 long
  · exact takesFront_word32.map₂ takesFront_word32 double
  · exact takesFront_word16.map classInfo
  · exact takesFront_word16.map string
  · exact takesFront_word16.map₂ takesFront_word16 fieldRef
  · exact takesFront_word16.map₂ takesFront_word16 methodRef
  · exact takesFront_word16.map₂ takesFront_word16 interfaceMethodRef
  · exact takesFront_word16.map₂ takesFront_word16 nameAndType
  · exact takesFront_byte.map₂ takesFront_word16 methodHandle
  · exact takesFront_word16.map methodType
  · exact takesFront_word16.map₂ takesFront_word16 dynamic
  · exact takesFront_word16.map₂ takesFront_word16 invokeDynamic
  · exact takesFront_word16.map moduleInfo
  · exact takesFront_word16.map packageInfo
  · exact takesFront_none

theorem takesFront_read : read.TakesFront :=
  takesFront_byte.bind takesFront_readBody

end Constant

/-- The induction is on the numbers that are left; a wide constant uses up two of them. -/
theorem ConstantPool.takesFront_read (wide : Bool) (n : Nat) : (read wide n).TakesFront := by
  induction n generalizing wide with
  | zero => exact takesFront_pure []
  | succ n ih =>
    rw [read]
    split
    · exact ih false
    · exact Constant.takesFront_read.bind fun c => (ih c.isWide).map (c :: ·)

theorem Attribute.takesFront_read : read.TakesFront :=
  takesFront_word16.bind fun _ => takesFront_word32.bind fun size =>
    (takesFront_take size.toNat).map _

theorem Member.takesFront_read : read.TakesFront :=
  takesFront_word16.bind fun _ => takesFront_word16.bind fun _ => takesFront_word16.bind fun _ =>
    (takesFront_counted Attribute.takesFront_read).map _

namespace ClassFile

theorem takesFront_readPool : readPool.TakesFront := by
  apply takesFront_word16.bind
  intro count
  split
  · exact takesFront_none
  · exact ConstantPool.takesFront_read false _

/-- A class file is at the front of the bytes that it is read from. -/
theorem takesFront_read : read.TakesFront := by
  apply (takesFront_take 4).bind
  intro start
  split
  · exact takesFront_none
  · exact takesFront_word16.bind fun _ => takesFront_word16.bind fun _ =>
      takesFront_readPool.bind fun _ => takesFront_word16.bind fun _ =>
        takesFront_word16.bind fun _ => takesFront_word16.bind fun _ =>
          (takesFront_counted takesFront_word16).bind fun _ =>
            (takesFront_counted Member.takesFront_read).bind fun _ =>
              (takesFront_counted Member.takesFront_read).bind fun _ =>
                (takesFront_counted Attribute.takesFront_read).map _

/-- A class file ends where the bytes end. -/
def Complete (bs : Bytes) : Prop :=
  ∃ c, read bs = some (c, [])

/-- A class file has a header, of ten bytes. -/
theorem ten_le_length_of_read {c : ClassFile} {bs rest : Bytes} (h : read bs = some (c, rest)) :
    10 ≤ bs.length := by
  obtain ⟨start, _, hstart, h⟩ := bind_eq_some.mp h
  split at h
  · cases h
  · next hmagic =>
    obtain ⟨_, _, hminor, h⟩ := bind_eq_some.mp h
    obtain ⟨_, _, hmajor, h⟩ := bind_eq_some.mp h
    obtain ⟨_, _, hpool, -⟩ := bind_eq_some.mp h
    obtain ⟨_, _, hcount, -⟩ := bind_eq_some.mp hpool
    have hfour : start.length = 4 := by
      rw [not_not.mp hmagic]
      rfl
    have := length_of_take hstart
    have := length_of_word16 hminor
    have := length_of_word16 hmajor
    have := length_of_word16 hcount
    omega

end ClassFile

/-- The simplest class files are complete, as long as there is room for their names. -/
theorem Outline.complete_bytes {o : Outline} (h : o.HasRoom) : ClassFile.Complete o.bytes := by
  have hread := ClassFile.reads_read (fits_classFile h) []
  rw [List.append_nil] at hread
  exact ⟨o.classFile, hread⟩

/-! ## Headers -/

variable {bs : Bytes} {d : Declaration}

theorem ten_le_length_of_acceptHeader (h : acceptHeader bs = .ok ()) : 10 ≤ bs.length := by
  rw [acceptHeader] at h
  split at h
  · cases h
  · next hlength => exact Nat.not_lt.mp hlength

/-- Just the ten bytes of a header are looked at. -/
theorem acceptHeader_append (h : 10 ≤ bs.length) (more : Bytes) :
    acceptHeader (bs ++ more) = acceptHeader bs := by
  have hlength : ¬ bs.length < 10 := Nat.not_lt.mpr h
  have hlength' : ¬ (bs ++ more).length < 10 := by
    rw [List.length_append]
    omega
  have hmajor : majorVersionOf (bs ++ more) = majorVersionOf bs := by
    rw [majorVersionOf, List.getElem?_append_left (by omega), List.getElem?_append_left (by omega),
      majorVersionOf]
  rw [acceptHeader, acceptHeader, if_neg hlength, if_neg hlength', hmajor,
    List.take_append_of_le_length (by omega)]

/-! ## Declarations -/

namespace Declaration

/-- Bytes declare a type if they have a header, a legal class file is at their front, and its names
are there. -/
theorem ofBytes_eq_ok : ofBytes bs = .ok d ↔
    acceptHeader bs = .ok () ∧ ∃ c rest, ClassFile.read bs = some (c, rest) ∧ c.isLegal = true ∧
      c.declaration = .ok d := by
  rw [ofBytes, bind_eq_ok, ClassFile.ofBytes?]
  refine ⟨?_, ?_⟩
  · rintro ⟨_, hheader, h⟩
    cases hread : ClassFile.read bs with
    | none =>
      rw [hread] at h
      cases h
    | some read =>
      obtain ⟨c, rest⟩ := read
      simp only [hread] at h
      by_cases hlegal : c.isLegal = true
      · rw [if_pos hlegal] at h
        exact ⟨hheader, c, rest, rfl, hlegal, h⟩
      · rw [if_neg hlegal] at h
        cases h
  · rintro ⟨hheader, c, rest, hread, hlegal, hdeclaration⟩
    refine ⟨(), hheader, ?_⟩
    simp only [hread, if_pos hlegal]
    exact hdeclaration

/-- Where no class file can be read, the bytes are refused, if not for their header. -/
theorem exists_refusal (h : ClassFile.read bs = none) : ∃ refusal, ofBytes bs = .error refusal := by
  cases hbytes : ofBytes bs with
  | error refusal => exact ⟨refusal, rfl⟩
  | ok d =>
    obtain ⟨-, c, rest, hread, -⟩ := ofBytes_eq_ok.mp hbytes
    cases h.symm.trans hread

/-- More bytes do not matter. -/
theorem ofBytes_append_eq_ok (h : ofBytes bs = .ok d) (more : Bytes) :
    ofBytes (bs ++ more) = .ok d := by
  obtain ⟨hheader, c, rest, hread, hlegal, hdeclaration⟩ := ofBytes_eq_ok.mp h
  have hlength := ten_le_length_of_acceptHeader hheader
  exact ofBytes_eq_ok.mpr ⟨(acceptHeader_append hlength more).trans hheader, c, rest ++ more,
    ClassFile.takesFront_read.append hread more, hlegal, hdeclaration⟩

/-- It is a complete class file at the front that matters. -/
theorem exists_complete (h : ofBytes bs = .ok d) :
    ∃ whole more, bs = whole ++ more ∧ ClassFile.Complete whole ∧ ofBytes whole = .ok d := by
  obtain ⟨hheader, c, rest, hread, hlegal, hdeclaration⟩ := ofBytes_eq_ok.mp h
  obtain ⟨whole, rfl, hwhole⟩ := ClassFile.takesFront_read.exists_front hread
  have hlength := ClassFile.ten_le_length_of_read hwhole
  rw [acceptHeader_append hlength] at hheader
  exact ⟨whole, rest, rfl, ⟨c, hwhole⟩,
    ofBytes_eq_ok.mpr ⟨hheader, c, [], hwhole, hlegal, hdeclaration⟩⟩

end Declaration

/-- A refused artifact makes the type malformed. -/
theorem ClassPath.lookUp_of_refused {cp : ClassPath} {name : String} {artifact : Path}
    {refusal : Refusal} (hfind : cp.find? name = some artifact)
    (hread : cp.tree.read artifact = .ok bs) (hrefused : Declaration.ofBytes bs = .error refusal) :
    cp.lookUp name = .error (.typeMalformed name artifact (.refused refusal)) := by
  simp only [lookUp, hfind, hread, hrefused]

open ClassFile (Complete)

/-- What bytes declare they declare whatever follows them, and it is a complete class file at
their front that declares it. Of a complete class file, on the other hand, nothing may be missing:
if the bytes end anywhere before its end they are refused, and on a class path a type with such an
artifact is malformed. The simplest class files are complete where there is room for their names,
and they declare a type if these are written in basic characters and the version is supported. -/
theorem ofBytes_cutOff :
    (∀ bs d, Declaration.ofBytes bs = .ok d →
      (∀ more, Declaration.ofBytes (bs ++ more) = .ok d) ∧
      ∃ whole more, bs = whole ++ more ∧ Complete whole ∧
        Declaration.ofBytes whole = .ok d) ∧
    (∀ whole front, Complete whole → front <+: whole → front ≠ whole →
      ∃ refusal, Declaration.ofBytes front = .error refusal ∧
        ∀ (cp : ClassPath) name artifact, cp.find? name = some artifact →
          cp.tree.read artifact = .ok front →
            cp.lookUp name = .error (.typeMalformed name artifact (.refused refusal))) ∧
    ∀ o : Outline, o.HasRoom →
      Complete o.bytes ∧ (o.Fits → ∃ d, Declaration.ofBytes o.bytes = .ok d) := by
  refine ⟨fun bs d h => ⟨Declaration.ofBytes_append_eq_ok h, Declaration.exists_complete h⟩, ?_, ?_⟩
  · rintro whole front ⟨c, hwhole⟩ hfront hne
    have hnone := ClassFile.takesFront_read.eq_none hwhole hfront hne
    obtain ⟨refusal, hrefused⟩ := Declaration.exists_refusal hnone
    refine ⟨refusal, hrefused, ?_⟩
    intro cp name artifact hfind hread
    exact ClassPath.lookUp_of_refused hfind hread hrefused
  · intro o hroom
    refine ⟨Outline.complete_bytes hroom, ?_⟩
    intro hfits
    have hread := Declaration.ofBytes_append (Outline.wellFormed_classFile hfits)
      (Outline.refersTo_classFile hfits) []
    rw [List.append_nil] at hread
    exact ⟨_, hread⟩

/-- All but the last byte of a class file, where the file is looked for. -/
def cutClassPath : ClassPath where
  tree := ⟨.dir [(utf8Bytes "cp", .dir [(utf8Bytes "a",
    .dir [(utf8Bytes "B.class", .file plainOutline.bytes.dropLast)])])], []⟩
  roots := [.ofString "cp"]

/-- The whole file declares its type, with further bytes too, and without its last byte the type is
malformed. -/
theorem ofBytes_cutOff_cutClassPath :
    ∃ d refusal, Declaration.ofBytes plainOutline.bytes = .ok d ∧
      Declaration.ofBytes (plainOutline.bytes ++ [0xCA, 0xFE]) = .ok d ∧
      Declaration.ofBytes plainOutline.bytes.dropLast = .error refusal ∧
      cutClassPath.lookUp "a.B" =
        .error (.typeMalformed "a.B" (.ofString "cp/a/B.class") (.refused refusal)) := by
  obtain ⟨hdeclared, hcut, houtline⟩ := ofBytes_cutOff
  have hfits : plainOutline.Fits := ⟨by decide, by decide, by decide, by decide⟩
  obtain ⟨hcomplete, hread⟩ := houtline plainOutline hfits.hasRoom
  obtain ⟨d, hd⟩ := hread hfits
  obtain ⟨refusal, hrefused, hlookUp⟩ := hcut plainOutline.bytes plainOutline.bytes.dropLast
    hcomplete (List.dropLast_prefix _) (by decide)
  have hbelow : artifactPath? "a.B" = some (.ofString "a/B.class") := by decide
  have hfile : cutClassPath.tree.read (.ofString "cp/a/B.class") =
      .ok plainOutline.bytes.dropLast :=
    FileTree.read_of_at? [utf8Bytes "cp", utf8Bytes "a", utf8Bytes "B.class"] rfl rfl rfl
  have hfind : cutClassPath.find? "a.B" = some (.ofString "cp/a/B.class") :=
    ClassPath.find?_cons_of_read [] hbelow hfile
  exact ⟨d, refusal, hd, (hdeclared _ d hd).1 [0xCA, 0xFE], hrefused,
    hlookUp cutClassPath "a.B" _ hfind hfile⟩

end RoleWiring
