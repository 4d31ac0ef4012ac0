import Mathlib.Data.List.Basic
import RoleWiring.ClassPath
import RoleWiring.Proofs.FileTree.Root

/-!
# What a scan yields

A scan that is carried to its end yields what is below the roots in turn, without the
artifacts whose name was found before. So it yields every name at most once, and with
the first artifact of that name.

* `drain_fst`, `drain_snd` — the classes and the warnings of a scan, spelled out;
* `mem_unshadowed`, `nodup_unshadowed` — which artifacts are not shadowed;
* `unshadowed_append` — later artifacts shadow none of those before them.
-/

namespace RoleWiring

/-- The artifacts without those of a name that was seen before. -/
def unshadowed (seen : List String) : List Artifact → List Artifact
  | [] => []
  | c :: rest =>
    if c.name ∈ seen then unshadowed seen rest else c :: unshadowed (c.name :: seen) rest

/-- The artifacts that are not shadowed are the first of their names, where the name was not seen
before. -/
theorem mem_unshadowed {seen : List String} {artifacts : List Artifact} {c : Artifact} :
    c ∈ unshadowed seen artifacts ↔
      c.name ∉ seen ∧ artifacts.find? (fun d => d.name == c.name) = some c := by
  induction artifacts generalizing seen with
  | nil => simp [unshadowed]
  | cons d rest ih =>
    rw [unshadowed, List.find?_cons]
    by_cases hseen : d.name ∈ seen
    · rw [if_pos hseen, ih]
      cases hname : d.name == c.name with
      | true =>
        -- the name was seen, so neither the first artifact nor a later one counts
        have hc : c.name ∈ seen := eq_of_beq hname ▸ hseen
        exact iff_of_false (fun h => h.1 hc) (fun h => h.1 hc)
      | false => rfl
    · -- the first artifact counts, and it hides the later ones of its name
      rw [if_neg hseen, List.mem_cons, ih]
      cases hname : d.name == c.name with
      | true =>
        have heq : c.name = d.name := (eq_of_beq hname).symm
        refine ⟨?_, ?_⟩
        · rintro (rfl | ⟨hnot, -⟩)
          · exact ⟨hseen, rfl⟩
          · exact absurd (heq ▸ List.mem_cons_self ..) hnot
        · rintro ⟨-, h⟩
          exact .inl (Option.some.inj h).symm
      | false =>
        have hne : c.name ≠ d.name := fun h => by simp [h] at hname
        refine ⟨?_, ?_⟩
        · rintro (rfl | ⟨hnot, h⟩)
          · exact absurd rfl hne
          · exact ⟨fun h => hnot (List.mem_cons_of_mem _ h), h⟩
        · rintro ⟨hnot, h⟩
          refine .inr ⟨fun hmem => ?_, h⟩
          rcases List.mem_cons.mp hmem with heq | hmem
          · exact hne heq
          · exact hnot hmem

/-- No name is left twice. -/
theorem nodup_unshadowed (seen : List String) (artifacts : List Artifact) :
    ((unshadowed seen artifacts).map Artifact.name).Nodup := by
  induction artifacts generalizing seen with
  | nil => exact List.nodup_nil
  | cons c rest ih =>
    rw [unshadowed]
    split
    · exact ih seen
    · rw [List.map_cons, List.nodup_cons]
      refine ⟨fun hmem => ?_, ih _⟩
      obtain ⟨d, hd, hname⟩ := List.mem_map.mp hmem
      exact (mem_unshadowed.mp hd).1 (hname ▸ List.mem_cons_self ..)

/-- Of two lists in turn the first hides the names that it yields in the second. -/
theorem unshadowed_append (seen : List String) (first second : List Artifact) :
    unshadowed seen (first ++ second) =
      unshadowed seen first ++
        unshadowed ((unshadowed seen first).reverse.map Artifact.name ++ seen) second := by
  induction first generalizing seen with
  | nil => rfl
  | cons c rest ih =>
    rw [List.cons_append, unshadowed, unshadowed]
    by_cases hseen : c.name ∈ seen
    · rw [if_pos hseen, if_pos hseen]
      exact ih seen
    · rw [if_neg hseen, if_neg hseen, ih, List.cons_append]
      simp

/-- Where no name stands twice, only what was seen before is hidden. -/
theorem unshadowed_of_nodup {artifacts : List Artifact} (seen : List String)
    (h : (artifacts.map Artifact.name).Nodup) :
    unshadowed seen artifacts = artifacts.filter fun c => c.name ∉ seen := by
  induction artifacts generalizing seen with
  | nil => rfl
  | cons c rest ih =>
    obtain ⟨hc, hrest⟩ := List.nodup_cons.mp h
    rw [unshadowed, List.filter_cons]
    by_cases hseen : c.name ∈ seen
    · simp only [hseen, if_true, not_true, decide_false, Bool.false_eq_true, if_false]
      exact ih seen hrest
    · simp only [hseen, if_false, not_false_eq_true, decide_true, if_true, ih _ hrest]
      -- the name of the first artifact does not come again
      refine congrArg (c :: ·) (List.filter_congr fun d hd => ?_)
      have hne : d.name ≠ c.name := fun heq => hc (heq ▸ List.mem_map_of_mem hd)
      simp [hne]

/-- The fault that keeps a root from being walked, if there is one. -/
def rootFault? (t : FileTree) (root : Path) : Option Fault :=
  match enterRoot t root with
  | .error fault => some fault
  | .ok _ => none

namespace Scan

variable {t : FileTree} {s s' : Scan} {c : Artifact}

/-- The artifacts that a scan has not looked at yet, those of roots to be opened included. -/
def pending (t : FileTree) (s : Scan) : List Artifact :=
  s.ahead ++ s.roots.flatMap (artifactsUnder t)

/-- What the next class is. -/
theorem unshadowed_pending (t : FileTree) (s : Scan) :
    unshadowed s.seen (s.pending t) =
      match s.next t with
      | (none, _) => []
      | (some c, s') => c :: unshadowed s'.seen (s'.pending t) := by
  fun_induction next t s with
  | case1 s c rest hahead hseen ih =>
    rw [← ih]
    unfold pending
    rw [hahead, List.cons_append, unshadowed, if_pos hseen]
  | case2 s c rest hahead hseen =>
    unfold pending
    rw [hahead, List.cons_append, unshadowed, if_neg hseen]
  | case3 s hahead hroots =>
    unfold pending
    rw [hahead, hroots]
    rfl
  | case4 s hahead root rest hroots fault hopen ih =>
    rw [← ih]
    unfold pending
    have hnone : artifactsUnder t root = [] := by
      unfold artifactsUnder
      rw [hopen]
    rw [hahead, hroots, List.flatMap_cons, hnone]
    rfl
  | case5 s hahead root rest hroots position hopen ih =>
    rw [← ih]
    unfold pending
    have hbelow : artifactsUnder t root = artifactsBelow t root position := by
      unfold artifactsUnder
      rw [hopen]
    rw [hahead, hroots, List.flatMap_cons, hbelow]
    rfl

/-- The classes of a scan are the artifacts ahead that are not shadowed. -/
theorem drain_fst (t : FileTree) (s : Scan) :
    (s.drain t).1 = unshadowed s.seen (s.pending t) := by
  fun_induction drain t s with
  | case1 s s' hnext => rw [unshadowed_pending, hnext]
  | case2 s c s' hnext classes warnings hrest ih =>
    rw [hrest] at ih
    rw [unshadowed_pending, hnext]
    exact congrArg (c :: ·) ih

/-- The faults that a scan has found and those that are ahead of it. -/
def faults (t : FileTree) (s : Scan) : List Fault :=
  s.warnings ++ s.roots.filterMap (rootFault? t)

/-- Going on to the next class neither loses nor adds a fault. -/
theorem faults_next (t : FileTree) (s : Scan) : (s.next t).2.faults t = s.faults t := by
  fun_induction next t s with
  | case1 s c rest hahead hseen ih => exact ih
  | case2 s c rest hahead hseen => rfl
  | case3 s hahead hroots => rfl
  | case4 s hahead root rest hroots fault hopen ih =>
    have hfault : rootFault? t root = some fault := by rw [rootFault?, hopen]
    rw [ih, faults, faults, hroots, List.filterMap_cons_some hfault, List.append_assoc]
    rfl
  | case5 s hahead root rest hroots position hopen ih =>
    have hnone : rootFault? t root = none := by rw [rootFault?, hopen]
    rw [ih, faults, faults, hroots, List.filterMap_cons_none hnone]

/-- Where no class is left, neither artifacts nor roots are left. -/
theorem over_of_next_eq_none (h : s.next t = (none, s')) : s'.ahead = [] ∧ s'.roots = [] := by
  fun_induction next t s with
  | case1 s c rest hahead hseen ih => exact ih h
  | case2 s c rest hahead hseen => cases h
  | case3 s hahead hroots =>
    cases h
    exact ⟨hahead, hroots⟩
  | case4 s hahead root rest hroots fault hopen ih => exact ih h
  | case5 s hahead root rest hroots position hopen ih => exact ih h

/-- The warnings of a scan are the faults of its roots, in their order. -/
theorem drain_snd (t : FileTree) (s : Scan) : (s.drain t).2 = s.faults t := by
  fun_induction drain t s with
  | case1 s s' hnext =>
    have hfaults := faults_next t s
    rw [hnext] at hfaults
    rw [← hfaults, faults, (over_of_next_eq_none hnext).2, List.filterMap_nil, List.append_nil]
  | case2 s c s' hnext classes warnings hrest ih =>
    have hfaults := faults_next t s
    rw [hnext] at hfaults
    rw [hrest] at ih
    exact ih.trans hfaults

end Scan

/-- The classes on a class path are what is below its roots, as far as it is not shadowed. -/
theorem classes_fst (cp : ClassPath) :
    cp.classes.1 = unshadowed [] (cp.roots.flatMap (artifactsUnder cp.tree)) :=
  Scan.drain_fst cp.tree (Scan.start cp.roots)

/-- The warnings of a scan of a class path are the faults of its roots, one for each time that the
root is listed. -/
theorem classes_snd (cp : ClassPath) : cp.classes.2 = cp.roots.filterMap (rootFault? cp.tree) :=
  Scan.drain_snd cp.tree (Scan.start cp.roots)

end RoleWiring
