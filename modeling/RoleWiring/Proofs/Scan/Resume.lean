import RoleWiring.Proofs.ClassPath.Roots

/-!
# Scans that are stopped and taken up again

A scan can be asked for a few classes first and for the rest later, and gives the same
classes and the same warnings. Each class comes from the first root below which there is an
artifact of its name, and when it is given, the roots in front of that one have been
reported, if they cannot be walked, and no others.

* `unshadowed_take` — no class is lost between two calls;
* `Progress.next`, `Progress.take` — where a scan stands after a call, and after some calls;
* `scan_resumed` — what calls and the rest of a scan give together, and which roots are reported by
  the time a class is given.
-/

namespace RoleWiring

variable {t : FileTree} {root : Path} {fault : Fault}

/-! ## Roots that cannot be walked -/

/-- Just the directories can be walked. -/
theorem rootFault?_eq_none_iff : rootFault? t root = none ↔ t.isDir root = true := by
  simp only [rootFault?, enterRoot, FileTree.isDir, FileTree.status]
  cases t.follow root with
  | error e => cases e <;> simp
  | ok position => rcases hat : t.top.at? position.place with _ | (_ | _ | _) <;> simp [hat]

/-- Anything else has one fault, which says what root it is about. -/
theorem exists_rootFault? (h : t.isDir root = false) :
    ∃ fault, rootFault? t root = some fault ∧ fault.root? = some root := by
  cases hfault : rootFault? t root with
  | none =>
    rw [rootFault?_eq_none_iff.mp hfault] at h
    cases h
  | some fault => exact ⟨fault, rfl, root?_of_rootFault? hfault⟩

namespace Scan

/-! ## A scan after some calls -/

/-- The classes that the next `n` calls give, and where the scan stands after them. A call at the
end of the scan gives nothing. -/
def take (t : FileTree) : Nat → Scan → List Artifact × Scan
  | 0, s => ([], s)
  | n + 1, s =>
    let (c, s) := s.next t
    let (classes, s) := take t n s
    (c.toList ++ classes, s)

variable {s s' : Scan} {c : Artifact} {roots opened : List Path}

/-- A scan that is over has nothing in store. -/
theorem unshadowed_pending_of_over (h : s.ahead = [] ∧ s.roots = []) :
    unshadowed s.seen (s.pending t) = [] := by
  simp [pending, h, unshadowed]

/-- The next class is the first one that is in store, and the others stay there. -/
theorem unshadowed_next (t : FileTree) (s : Scan) :
    unshadowed s.seen (s.pending t) =
      (s.next t).1.toList ++ unshadowed (s.next t).2.seen ((s.next t).2.pending t) := by
  rw [unshadowed_pending]
  rcases hnext : s.next t with ⟨_ | c, s'⟩
  · simp [unshadowed_pending_of_over (over_of_next_eq_none hnext)]
  · rfl

/-- No class is lost between two calls. -/
theorem unshadowed_take (t : FileTree) (n : Nat) (s : Scan) :
    (take t n s).1 ++ unshadowed (take t n s).2.seen ((take t n s).2.pending t) =
      unshadowed s.seen (s.pending t) := by
  induction n generalizing s with
  | zero => rfl
  | succ n ih => simp only [take, List.append_assoc, ih, ← unshadowed_next]

/-- Calls neither lose nor add a fault. -/
theorem faults_take (t : FileTree) (n : Nat) (s : Scan) :
    (take t n s).2.faults t = s.faults t := by
  induction n generalizing s with
  | zero => rfl
  | succ n ih => simp only [take, ih, faults_next]

/-- As many calls as there are classes give one each. -/
theorem take_fst (t : FileTree) (n : Nat) (s : Scan) :
    (take t n s).1 = (s.drain t).1.take n := by
  induction n generalizing s with
  | zero => simp [take]
  | succ n ih =>
    simp only [take, ih, drain_fst]
    rw [unshadowed_next t s]
    rcases hnext : s.next t with ⟨_ | c, s'⟩
    · simp [unshadowed_pending_of_over (over_of_next_eq_none hnext)]
    · simp

/-- A further call goes on from where the calls before it came to. -/
theorem take_succ (t : FileTree) (n : Nat) (s : Scan) :
    take t (n + 1) s =
      ((take t n s).1 ++ ((take t n s).2.next t).1.toList, ((take t n s).2.next t).2) := by
  induction n generalizing s with
  | zero => simp [take]
  | succ n ih =>
    have hleft : take t (n + 1 + 1) s =
        ((s.next t).1.toList ++ (take t (n + 1) (s.next t).2).1,
          (take t (n + 1) (s.next t).2).2) := rfl
    have hright : take t (n + 1) s =
        ((s.next t).1.toList ++ (take t n (s.next t).2).1, (take t n (s.next t).2).2) := rfl
    rw [hleft, hright, ih, List.append_assoc]

/-- After `i` calls the next one gives the class with this index. -/
theorem next_take (t : FileTree) (i : Nat) (s : Scan) :
    ((take t i s).2.next t).1 = (s.drain t).1[i]? := by
  have hsucc := take_fst t (i + 1) s
  rw [take_succ, List.take_add_one, take_fst] at hsucc
  have hlist := List.append_cancel_left hsucc
  cases hnext : ((take t i s).2.next t).1 <;> cases hindex : (s.drain t).1[i]? <;>
    simp_all

/-! ## Where a scan stands -/

/-- How far a scan of the roots has come when it has opened some of them. -/
structure Progress (t : FileTree) (roots opened : List Path) (s : Scan) : Prop where
  /-- the other roots are still to be opened -/
  roots : roots = opened ++ s.roots
  /-- what is below the roots was looked at, and its names were seen, or is ahead -/
  looked : ∃ looked, opened.flatMap (artifactsUnder t) = looked ++ s.ahead ∧
    ∀ d ∈ looked, d.name ∈ s.seen
  /-- what is ahead is below the last root that was opened -/
  last : s.ahead ≠ [] → ∃ before root, opened = before ++ [root] ∧
    s.ahead <:+ artifactsUnder t root

/-- The class comes from the root: an artifact of its name is below the root and below none of those
in front of it. -/
structure ComesFrom (t : FileTree) (before : List Path) (root : Path) (c : Artifact) : Prop where
  /-- the class is below the root -/
  mem : c ∈ artifactsUnder t root
  /-- its name is not below the roots in front -/
  first : ∀ d ∈ before.flatMap (artifactsUnder t), d.name ≠ c.name

theorem progress_start (t : FileTree) (roots : List Path) : Progress t roots [] (start roots) where
  roots := rfl
  looked := ⟨[], rfl, nofun⟩
  last := fun h => absurd rfl h

namespace Progress

/-- An artifact that is shadowed is passed over. -/
theorem skip {rest : List Artifact} (h : Progress t roots opened s) (hahead : s.ahead = c :: rest)
    (hseen : c.name ∈ s.seen) : Progress t roots opened { s with ahead := rest } where
  roots := h.roots
  looked := by
    obtain ⟨looked, hlooked, hnames⟩ := h.looked
    refine ⟨looked ++ [c], by simp [hlooked, hahead], ?_⟩
    intro d hd
    rcases List.mem_append.mp hd with hd | hd
    · exact hnames d hd
    · rwa [List.mem_singleton.mp hd]
  last := by
    intro _
    obtain ⟨before, root, hopened, hsuffix⟩ := h.last (by simp [hahead])
    rw [hahead] at hsuffix
    exact ⟨before, root, hopened, (List.suffix_cons c rest).trans hsuffix⟩

/-- A root is opened when nothing is ahead. -/
theorem enter {rest : List Path} (h : Progress t roots opened s) (hahead : s.ahead = [])
    (hroots : s.roots = root :: rest) (warnings : List Fault) :
    Progress t roots (opened ++ [root]) ⟨rest, artifactsUnder t root, s.seen, warnings⟩ where
  roots := by simp [h.roots, hroots]
  looked := by
    obtain ⟨looked, hlooked, hnames⟩ := h.looked
    exact ⟨looked, by simp [hlooked, hahead], hnames⟩
  last := fun _ => ⟨opened, root, rfl, List.suffix_refl _⟩

/-- The class that is given comes from the root that was opened last. -/
theorem give {rest : List Artifact} (h : Progress t roots opened s) (hahead : s.ahead = c :: rest)
    (hseen : c.name ∉ s.seen) :
    ∃ before root, opened = before ++ [root] ∧ ComesFrom t before root c ∧
      Progress t roots (before ++ [root]) { s with ahead := rest, seen := c.name :: s.seen } := by
  obtain ⟨before, root, rfl, hsuffix⟩ := h.last (by simp [hahead])
  obtain ⟨looked, hlooked, hnames⟩ := h.looked
  refine ⟨before, root, rfl, ⟨hsuffix.subset (by simp [hahead]), ?_⟩, h.roots, ?_, ?_⟩
  · -- what is below the roots in front was looked at, so its names were seen
    intro d hd hname
    obtain ⟨passed, hpassed⟩ := hsuffix
    have hfront : before.flatMap (artifactsUnder t) ++ passed = looked := by
      apply (List.append_left_inj s.ahead).mp
      rw [← hlooked, List.append_assoc, hpassed]
      simp
    exact hseen (hname ▸ hnames d (by simp [← hfront, hd]))
  · refine ⟨looked ++ [c], by simp [hlooked, hahead], ?_⟩
    intro d hd
    rcases List.mem_append.mp hd with hd | hd
    · exact List.mem_cons_of_mem _ (hnames d hd)
    · rw [List.mem_singleton.mp hd]
      exact List.mem_cons_self
  · intro _
    rw [hahead] at hsuffix
    exact ⟨before, root, rfl, (List.suffix_cons c rest).trans hsuffix⟩

/-- After a call the scan has come further, and the class that it gives comes from the root that was
opened last. -/
theorem next (h : Progress t roots opened s) :
    ∃ opened', Progress t roots opened' (s.next t).2 ∧
      ∀ c, (s.next t).1 = some c →
        ∃ before root, opened' = before ++ [root] ∧ ComesFrom t before root c := by
  fun_induction Scan.next t s generalizing opened with
  | case1 s c rest hahead hseen ih => exact ih (h.skip hahead hseen)
  | case2 s c rest hahead hseen =>
    obtain ⟨before, root, rfl, hfrom, hprogress⟩ := h.give hahead hseen
    refine ⟨_, hprogress, ?_⟩
    rintro c' ⟨⟩
    exact ⟨before, root, rfl, hfrom⟩
  | case3 s hahead hroots =>
    refine ⟨opened, h, ?_⟩
    intro c hc
    cases hc
  | case4 s hahead root rest hroots fault hopen ih =>
    have hnone : artifactsUnder t root = [] := by simp [artifactsUnder, hopen]
    have hprogress := h.enter hahead hroots (s.warnings ++ [fault])
    rw [hnone, ← hahead] at hprogress
    exact ih hprogress
  | case5 s hahead root rest hroots position hopen ih =>
    have hbelow : artifactsUnder t root = artifactsBelow t root position := by
      simp [artifactsUnder, hopen]
    have hprogress := h.enter hahead hroots s.warnings
    rw [hbelow] at hprogress
    exact ih hprogress

/-- After some calls the scan has come somewhere. -/
theorem take (h : Progress t roots opened s) (n : Nat) :
    ∃ opened', Progress t roots opened' (take t n s).2 := by
  induction n generalizing s opened with
  | zero => exact ⟨opened, h⟩
  | succ n ih =>
    obtain ⟨opened', hnext, -⟩ := h.next
    exact ih hnext

/-- The roots that were opened are reported, as far as they cannot be walked. -/
theorem warnings (h : Progress t roots opened s) (hfaults : s.faults t = (start roots).faults t) :
    s.warnings = opened.filterMap (rootFault? t) := by
  have hall : s.warnings ++ s.roots.filterMap (rootFault? t) = roots.filterMap (rootFault? t) :=
    hfaults
  rw [h.roots, List.filterMap_append] at hall
  exact List.append_cancel_right hall

end Progress

/-- The root that a class comes from can be walked. -/
theorem ComesFrom.rootFault?_eq_none {before : List Path} (h : ComesFrom t before root c) :
    rootFault? t root = none := by
  cases hfault : rootFault? t root with
  | none => rfl
  | some fault =>
    have hmem := h.mem
    rw [artifactsUnder_of_rootFault? hfault] at hmem
    cases hmem

end Scan

open Scan (start take ComesFrom)

/-- A scan may be stopped after any number of calls, and nothing is lost. The calls give the first
classes of the whole scan and the rest of the scan gives the others; the warnings at its end are
those of the whole scan, and those that are there already are the first of them. When a class is
given there is one warning for each time that a root in front of the one it comes from is listed
and cannot be walked, in the order of the roots; at the end it is so for all roots. A root can be
walked if it is a directory; otherwise its fault is about this root. -/
theorem scan_resumed (t : FileTree) (roots : List Path) :
    (∀ n, (take t n (start roots)).1 = ((start roots).drain t).1.take n ∧
      (take t n (start roots)).1 ++ ((take t n (start roots)).2.drain t).1 =
        ((start roots).drain t).1 ∧
      ((take t n (start roots)).2.drain t).2 = ((start roots).drain t).2 ∧
      (take t n (start roots)).2.warnings <+: ((start roots).drain t).2) ∧
    (∀ i c, ((start roots).drain t).1[i]? = some c →
      ∃ before root after, roots = before ++ root :: after ∧ ComesFrom t before root c ∧
        (take t (i + 1) (start roots)).2.warnings = before.filterMap (rootFault? t)) ∧
    ((start roots).drain t).2 = roots.filterMap (rootFault? t) ∧
    ∀ root, (t.isDir root = true → rootFault? t root = none) ∧
      (t.isDir root = false →
        ∃ fault, rootFault? t root = some fault ∧ fault.root? = some root) := by
  refine ⟨fun n => ⟨Scan.take_fst t n _, ?_, ?_, ?_⟩, ?_, Scan.drain_snd t _,
    fun root => ⟨rootFault?_eq_none_iff.mpr, exists_rootFault?⟩⟩
  · rw [Scan.drain_fst, Scan.drain_fst, Scan.unshadowed_take]
  · rw [Scan.drain_snd, Scan.drain_snd, Scan.faults_take]
  · rw [Scan.drain_snd, ← Scan.faults_take t n]
    exact List.prefix_append _ _
  · intro i c hc
    obtain ⟨opened, hprogress⟩ := (Scan.progress_start t roots).take i
    obtain ⟨opened', hnext, hgiven⟩ := hprogress.next
    obtain ⟨before, root, rfl, hfrom⟩ := hgiven c (by rw [Scan.next_take, hc])
    have hwarnings := hnext.warnings (by rw [Scan.faults_next, Scan.faults_take])
    have hroots := hnext.roots
    rw [List.append_assoc] at hroots
    refine ⟨before, root, _, hroots, hfrom, ?_⟩
    rw [Scan.take_succ, hwarnings, List.filterMap_append,
      List.filterMap_cons_none hfrom.rootFault?_eq_none, List.filterMap_nil, List.append_nil]

/-- Two directories that both hold an artifact of the first name, and a file beside them. -/
def twoRootsTree : FileTree :=
  ⟨.dir [(utf8Bytes "a", .dir [(utf8Bytes "X.class", .file [])]),
    (utf8Bytes "b", .dir [(utf8Bytes "X.class", .file []), (utf8Bytes "Y.class", .file [])]),
    (utf8Bytes "f", .file [])], []⟩

/-- The directories with roots in front of each and behind them that cannot be walked. -/
def mixedRoots : List Path :=
  [.ofString "gone", .ofString "a", .ofString "f", .ofString "b", .ofString "gone"]

theorem artifactsUnder_a_twoRootsTree :
    artifactsUnder twoRootsTree (.ofString "a") = [⟨"X", .ofString "a/X.class"⟩] := by
  have henter : enterRoot twoRootsTree (.ofString "a") = .ok ⟨maxLinks, [utf8Bytes "a"]⟩ :=
    FileTree.enterRoot_of_at? [utf8Bytes "a"] rfl rfl rfl
  exact artifactsUnder_of_enterRoot henter rfl (FileTree.filesBelow_eq ..)

theorem artifactsUnder_b_twoRootsTree :
    artifactsUnder twoRootsTree (.ofString "b") =
      [⟨"X", .ofString "b/X.class"⟩, ⟨"Y", .ofString "b/Y.class"⟩] := by
  have henter : enterRoot twoRootsTree (.ofString "b") = .ok ⟨maxLinks, [utf8Bytes "b"]⟩ :=
    FileTree.enterRoot_of_at? [utf8Bytes "b"] rfl rfl rfl
  exact artifactsUnder_of_enterRoot henter rfl (FileTree.filesBelow_eq ..)

theorem artifactsUnder_gone_twoRootsTree :
    artifactsUnder twoRootsTree (.ofString "gone") = [] :=
  artifactsUnder_of_follow_error (FileTree.follow_of_none [] rfl rfl rfl rfl rfl)

theorem artifactsUnder_file_twoRootsTree :
    artifactsUnder twoRootsTree (.ofString "f") = [] := by
  have hfollow : twoRootsTree.follow (.ofString "f") = .ok ⟨maxLinks, [utf8Bytes "f"]⟩ :=
    FileTree.follow_of_at? [utf8Bytes "f"] rfl rfl rfl fun target h => by cases h
  rw [artifactsUnder, enterRoot, hfollow]
  rfl

/-- The second class is not the shadowed one, and the roots in front of its root are reported. -/
theorem scan_resumed_mixedRoots :
    ((start mixedRoots).drain twoRootsTree).1[1]? = some ⟨"Y", .ofString "b/Y.class"⟩ ∧
      ∃ before root after, mixedRoots = before ++ root :: after ∧
        ComesFrom twoRootsTree before root ⟨"Y", .ofString "b/Y.class"⟩ ∧
        (take twoRootsTree 2 (start mixedRoots)).2.warnings =
          before.filterMap (rootFault? twoRootsTree) := by
  have hclass : ((start mixedRoots).drain twoRootsTree).1[1]? =
      some ⟨"Y", .ofString "b/Y.class"⟩ := by
    rw [Scan.drain_fst]
    show (unshadowed [] ([] ++ mixedRoots.flatMap (artifactsUnder twoRootsTree)))[1]? = _
    simp only [mixedRoots, List.flatMap_cons, List.flatMap_nil, artifactsUnder_a_twoRootsTree,
      artifactsUnder_b_twoRootsTree, artifactsUnder_gone_twoRootsTree,
      artifactsUnder_file_twoRootsTree]
    rfl
  exact ⟨hclass, (scan_resumed twoRootsTree mixedRoots).2.1 1 _ hclass⟩

end RoleWiring
