import RoleWiring.Text.Display

/-!
# Paths

A path keeps the spelling it was given, byte for byte; what it means is read off
its *components*. Repeated slashes, a trailing slash and inner dots are spelling
only and give no component; a leading dot does, and so does the leading slash of
an absolute path. Two paths are the same place in name exactly when their
components agree.
-/

namespace RoleWiring

/-- The byte that separates the segments of a path. -/
def slash : UInt8 := 47

/-- The byte that separates a file name from its extension. -/
def dot : UInt8 := 46

/-- A path as it is spelled. -/
structure Path where
  /-- the spelling -/
  bytes : Bytes
deriving DecidableEq, Inhabited, Repr

/-- What one significant part of a path says. -/
inductive Component where
  /-- the root of the file tree, at the start of an absolute path -/
  | root
  /-- the directory the path starts from, at the start of a relative path -/
  | current
  /-- the enclosing directory -/
  | parent
  /-- the entry of that name -/
  | name (n : Bytes)
deriving DecidableEq, Repr

/-- The component that a segment between slashes stands for, other than at the start. -/
def Component.ofSegment? (segment : Bytes) : Option Component :=
  if segment = [] ∨ segment = [dot] then none
  else if segment = [dot, dot] then some .parent
  else some (.name segment)

/-- The entry that a component names. -/
def Component.name? : Component → Option Bytes
  | .name n => some n
  | _ => none

namespace Path

/-- The path spelled by a text. -/
def ofString (s : String) : Path :=
  ⟨utf8Bytes s⟩

/-- The path as it is shown to a reader. -/
def display (p : Path) : String :=
  displayText p.bytes

theorem display_ofString (s : String) : (ofString s).display = s :=
  displayText_utf8Bytes s

/-- The path starts at the root of the file tree. -/
def isAbsolute (p : Path) : Bool :=
  p.bytes.head? == some slash

/-- The segments between the slashes, empty ones included. -/
def segments (p : Path) : List Bytes :=
  p.bytes.splitOn slash

/-- What the path says, part by part. -/
def components (p : Path) : List Component :=
  let start :=
    if p.isAbsolute then [Component.root]
    else if p.segments.head? = some [dot] then [Component.current]
    else []
  start ++ p.segments.filterMap Component.ofSegment?

/-- `p` followed by `q`; an absolute `q` replaces `p`. The spellings of both are kept, with
one slash between them where there is none. -/
def join (p q : Path) : Path :=
  if q.isAbsolute then q
  else if p.bytes = [] ∨ p.bytes.getLast? = some slash then ⟨p.bytes ++ q.bytes⟩
  else ⟨p.bytes ++ slash :: q.bytes⟩

/-- The entry `n` of the directory `p`. -/
def child (p : Path) (n : Bytes) : Path :=
  p.join ⟨n⟩

/-- The entry reached from the directory `p` by the names in turn. -/
def descend (p : Path) (names : List Bytes) : Path :=
  names.foldl child p

/-- The name of the entry the path leads to, if it ends in one. -/
def fileName? (p : Path) : Option Bytes :=
  p.components.getLast? >>= Component.name?

/-- The segment, with its place in the path, gives no component. -/
def isSpelling (p : Path) (segment : Bytes × Nat) : Bool :=
  segment.1 = [] || (segment.1 = [dot] && (p.isAbsolute || segment.2 ≠ 0))

/-- The path without its last component, if it has one besides the root. -/
def parent? (p : Path) : Option Path :=
  match p.segments.zipIdx.reverse.dropWhile p.isSpelling with
  | [] => none
  | _ :: before =>
    let kept := ((before.dropWhile p.isSpelling).reverse.map Prod.fst)
    if kept = [] ∧ p.isAbsolute then some ⟨[slash]⟩
    else some ⟨[slash].intercalate kept⟩

/-- The bytes of joined segments: those of the segments and the slashes between them. -/
theorem length_intercalate_slash (segments : List Bytes) :
    ([slash].intercalate segments).length = segments.flatten.length + (segments.length - 1) := by
  induction segments with
  | nil => rfl
  | cons s rest ih =>
    cases rest with
    | nil => simp [List.intercalate]
    | cons r rest =>
      have h : [slash].intercalate (s :: r :: rest)
          = s ++ slash :: [slash].intercalate (r :: rest) := by
        simp [List.intercalate, List.intersperse]
      rw [h, List.length_append, List.length_cons, ih]
      simp only [List.flatten_cons, List.length_append, List.length_cons]
      omega

theorem intercalate_segments (p : Path) : [slash].intercalate p.segments = p.bytes := by
  simp [segments, List.intercalate_splitOn]

/-- A path is longer than its parent. -/
theorem length_parent? {p q : Path} (h : p.parent? = some q) : q.bytes.length < p.bytes.length := by
  unfold parent? at h
  split at h
  · cases h
  · next last before hlast =>
    have hspell : p.isSpelling last = false := by
      have := List.head?_dropWhile_not p.isSpelling p.segments.zipIdx.reverse
      simpa [hlast] using this
    have hne : last.1 ≠ [] := by
      intro e
      simp [isSpelling, e] at hspell
    have hpos : 0 < last.1.length := List.length_pos_iff.mpr hne
    -- the segments are the kept ones, the last one, and what both have around them
    obtain ⟨tail, htail⟩ := List.dropWhile_suffix p.isSpelling (l := p.segments.zipIdx.reverse)
    obtain ⟨mid, hmid⟩ := List.dropWhile_suffix p.isSpelling (l := before)
    rw [hlast, ← hmid] at htail
    have hsegs : p.segments = (before.dropWhile p.isSpelling).reverse.map Prod.fst
        ++ (mid.reverse.map Prod.fst ++ last.1 :: tail.reverse.map Prod.fst) := by
      have := congrArg (fun l => (l.reverse).map Prod.fst) htail
      simpa [List.zipIdx_map_fst] using this.symm
    have hlen : p.bytes.length
        = p.segments.flatten.length + (p.segments.length - 1) := by
      rw [← length_intercalate_slash, intercalate_segments]
    simp only at h
    generalize (before.dropWhile p.isSpelling).reverse.map Prod.fst = kept at h hsegs
    rw [hsegs] at hlen
    simp only [List.flatten_append, List.flatten_cons, List.length_append,
      List.length_cons] at hlen
    split at h
    · next habs =>
      cases h
      -- an absolute path begins with an empty segment, which is not the last one
      obtain ⟨rfl, habs⟩ := habs
      have hhead : p.segments.head? = some [] := by
        unfold isAbsolute at habs
        unfold segments
        cases hb : p.bytes with
        | nil => simp [hb] at habs
        | cons b bs =>
          have : b = slash := by simpa [hb] using habs
          subst this
          simp [List.splitOn, List.splitOnP_cons_eq_if_modifyHead]
      have hmid : mid.length ≠ 0 := by
        intro e
        rw [List.length_eq_zero_iff.mp e] at hsegs
        rw [hsegs] at hhead
        simp at hhead
        exact hne hhead
      simp only [List.length_map, List.length_reverse] at hlen
      simp only [List.length_cons, List.length_nil]
      omega
    · cases h
      show ([slash].intercalate kept).length < _
      rw [length_intercalate_slash]
      omega

end Path

/-- A file name divided at its last dot into stem and extension. A dot that begins the name
divides nothing. -/
def splitExtension? (name : Bytes) : Option (Bytes × Bytes) :=
  let extension := (name.reverse.takeWhile (· ≠ dot)).reverse
  match name.reverse.dropWhile (· ≠ dot) with
  | _ :: stem => if stem = [] then none else some (stem.reverse, extension)
  | [] => none

end RoleWiring
