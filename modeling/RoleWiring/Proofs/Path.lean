import Mathlib.Data.List.Basic
import RoleWiring.FileTree.Walk

/-!
# Descending by name

What a path says after it was continued by the names of entries. Nothing that it said
before is lost, and every name adds what it stands for.

* `components_descend` — a component for every name;
* `steps_descend` — a step for every name, and no step that closes the path;
* `descend_eq_join` — descending is joining with all names at once.
-/

namespace RoleWiring

/-- A name that stands for the entry of that name, as one segment of a path. -/
structure Plain (n : Bytes) : Prop where
  /-- it is not empty -/
  ne_nil : n ≠ []
  /-- it is not the name of the directory itself -/
  ne_current : n ≠ [dot]
  /-- it is not the name of the enclosing directory -/
  ne_parent : n ≠ [dot, dot]
  /-- it is one segment -/
  one : slash ∉ n

/-- What directories can hold has a plain name. -/
theorem plain_of_isEntryName {n : Bytes} (h : isEntryName n = true) : Plain n := by
  simp only [isEntryName, Bool.and_eq_true, decide_eq_true_eq, ne_eq] at h
  obtain ⟨⟨⟨⟨⟨hnil, hcurrent⟩, hparent⟩, hone⟩, -⟩, -⟩ := h
  exact ⟨hnil, hcurrent, hparent, hone⟩

theorem Plain.component {n : Bytes} (h : Plain n) : Component.ofSegment? n = some (.name n) := by
  unfold Component.ofSegment?
  rw [if_neg (not_or.mpr ⟨h.ne_nil, h.ne_current⟩), if_neg h.ne_parent]

theorem Plain.step {n : Bytes} (h : Plain n) : Step.ofSegment? n = some (.enter n) := by
  unfold Step.ofSegment?
  rw [if_neg h.ne_nil, if_neg h.ne_current, if_neg h.ne_parent]

/-- A plain name does not end in a slash. -/
theorem Plain.getLast? {n : Bytes} (h : Plain n) : n.getLast? ≠ some slash := by
  intro hlast
  exact h.one (List.mem_of_getLast? hlast)

/-- A plain name does not make a path absolute. -/
theorem Plain.isAbsolute {n : Bytes} (h : Plain n) : (⟨n⟩ : Path).isAbsolute = false := by
  obtain ⟨hnil, -, -, hone⟩ := h
  cases n with
  | nil => exact absurd rfl hnil
  | cons b bs =>
    refine Bool.eq_false_iff.mpr fun habs => hone ?_
    have hb : b = slash := by simpa [Path.isAbsolute] using habs
    rw [hb]
    exact List.mem_cons_self ..

namespace Path

/-- Paths that are spelled alike are equal. -/
theorem eq_of_bytes {p q : Path} (h : p.bytes = q.bytes) : p = q := by
  cases p
  cases q
  cases h
  rfl

variable {p : Path} {n : Bytes}

/-! ## One name -/

/-- The bytes of an entry: a slash comes between where there is none. -/
theorem bytes_child (hp : p.bytes ≠ []) (hn : Plain n) :
    (p.child n).bytes =
      if p.bytes.getLast? = some slash then p.bytes ++ n else p.bytes ++ slash :: n := by
  unfold child join
  rw [hn.isAbsolute]
  by_cases hslash : p.bytes.getLast? = some slash
  · simp [hslash]
  · simp [hslash, hp]

theorem bytes_child_ne_nil (hp : p.bytes ≠ []) (hn : Plain n) : (p.child n).bytes ≠ [] := by
  rw [bytes_child hp hn]
  split <;> simp [hp]

/-- An entry is spelled by what spells the directory and more. -/
theorem prefix_child (hp : p.bytes ≠ []) (hn : Plain n) : p.bytes <+: (p.child n).bytes := by
  rw [bytes_child hp hn]
  split
  · exact List.prefix_append ..
  · exact List.prefix_append ..

/-- The path of an entry is longer than that of the directory. -/
theorem length_lt_child (hp : p.bytes ≠ []) (hn : Plain n) :
    p.bytes.length < (p.child n).bytes.length := by
  have hpos := List.length_pos_iff.mpr hn.ne_nil
  rw [bytes_child hp hn]
  split
  · rw [List.length_append]
    omega
  · rw [List.length_append, List.length_cons]
    omega

/-- An entry does not end in a slash. -/
theorem getLast?_child (hp : p.bytes ≠ []) (hn : Plain n) :
    (p.child n).bytes.getLast? ≠ some slash := by
  have hlast := hn.getLast?
  have hnil := hn.ne_nil
  rw [bytes_child hp hn]
  obtain ⟨b, hb⟩ := Option.isSome_iff_exists.mp (List.getLast?_isSome.mpr hnil)
  rw [hb] at hlast
  split
  · rw [List.getLast?_append, hb]
    exact hlast
  · rw [List.getLast?_append, List.getLast?_cons, hb]
    exact hlast

/-- The segments of an entry are those of the directory and one more. An empty segment at the
end of the directory gives way. -/
theorem segments_child (hp : p.bytes ≠ []) (hn : Plain n) :
    ∃ front back, front ≠ [] ∧ p.segments = front ++ back ∧ (∀ s ∈ back, s = []) ∧
      (p.child n).segments = front ++ [n] := by
  have hone : n.splitOn slash = [n] := List.splitOn_eq_singleton hn.one
  unfold segments
  rw [bytes_child hp hn]
  split
  · next hslash =>
    obtain ⟨front, hfront⟩ := List.getLast?_eq_some_iff.mp hslash
    refine ⟨front.splitOn slash, [[]], List.splitOn_ne_nil _ _, ?_, ?_, ?_⟩
    · rw [hfront, List.splitOn_append_cons_self, List.splitOn_nil]
    · intro s hs
      exact List.mem_singleton.mp hs
    · rw [hfront, List.append_assoc, List.singleton_append, List.splitOn_append_cons_self, hone]
  · refine ⟨p.bytes.splitOn slash, [], List.splitOn_ne_nil _ _, ?_, ?_, ?_⟩
    · rw [List.append_nil]
    · intro s hs
      cases hs
    · rw [List.splitOn_append_cons_self, hone]

theorem head?_segments_child (hp : p.bytes ≠ []) (hn : Plain n) :
    (p.child n).segments.head? = p.segments.head? := by
  obtain ⟨front, back, hne, hsegments, -, hchild⟩ := segments_child hp hn
  rw [hchild, hsegments, List.head?_append_of_ne_nil _ hne, List.head?_append_of_ne_nil _ hne]

/-- What the segments of an entry stand for, where empty segments stand for nothing. -/
theorem filterMap_segments_child {f : Bytes → Option α} (hf : f [] = none) (hp : p.bytes ≠ [])
    (hn : Plain n) :
    (p.child n).segments.filterMap f = p.segments.filterMap f ++ (f n).toList := by
  obtain ⟨front, back, -, hsegments, hback, hchild⟩ := segments_child hp hn
  have hnone : back.filterMap f = [] :=
    List.filterMap_eq_nil_iff.mpr fun s hs => by rw [hback s hs, hf]
  rw [hchild, hsegments, List.filterMap_append, List.filterMap_append, hnone, List.append_nil]
  cases hfn : f n <;> simp [hfn]

theorem isAbsolute_child (hp : p.bytes ≠ []) (hn : Plain n) :
    (p.child n).isAbsolute = p.isAbsolute := by
  unfold isAbsolute
  rw [bytes_child hp hn]
  split
  · rw [List.head?_append_of_ne_nil _ hp]
  · rw [List.head?_append_of_ne_nil _ hp]

/-- The empty path adds nothing to a path that follows it. -/
theorem join_of_nil {q : Path} (hp : p.bytes = []) (hq : q.isAbsolute = false) : p.join q = q := by
  rw [join, hq, if_neg Bool.false_ne_true, if_pos (.inl hp), hp]
  rfl

/-- Below the empty path an entry is spelled by its name alone. -/
theorem child_of_nil (hp : p.bytes = []) (hn : Plain n) : p.child n = ⟨n⟩ :=
  join_of_nil hp hn.isAbsolute

/-- A plain name is a component in its own right. -/
theorem components_name (hn : Plain n) : (⟨n⟩ : Path).components = [.name n] := by
  have hhead : ¬ (some n = some [dot]) := fun heq => hn.ne_current (Option.some.inj heq)
  rw [components, hn.isAbsolute, segments, List.splitOn_eq_singleton hn.one, List.head?_cons,
    if_neg Bool.false_ne_true, if_neg hhead, List.filterMap_cons_some hn.component]
  rfl

/-- An entry has the components of the directory and one more. -/
theorem components_child (p : Path) (hn : Plain n) :
    (p.child n).components = p.components ++ [.name n] := by
  by_cases hp : p.bytes = []
  · have hempty : p.components = [] := by
      rw [eq_of_bytes (q := ⟨[]⟩) hp]
      rfl
    rw [child_of_nil hp hn, components_name hn, hempty, List.nil_append]
  · unfold components
    rw [filterMap_segments_child (f := Component.ofSegment?) rfl hp hn, isAbsolute_child hp hn,
      head?_segments_child hp hn, hn.component, List.append_assoc]
    rfl

/-- The steps of a path apart from the one that closes it. -/
def bareSteps (p : Path) : List Step :=
  p.segments.filterMap Step.ofSegment?

/-- Slashes at the end of a path ask for no step. -/
theorem bareSteps_append_slashes (bs : Bytes) (k : Nat) :
    (⟨bs ++ List.replicate k slash⟩ : Path).bareSteps = (⟨bs⟩ : Path).bareSteps := by
  induction k with
  | zero => rw [List.replicate_zero, List.append_nil]
  | succ k ih =>
    rw [← ih, List.replicate_succ', ← List.append_assoc, bareSteps, bareSteps, segments, segments,
      List.splitOn_append_cons_self, List.filterMap_append, List.splitOn_nil]
    simp [Step.ofSegment?]

theorem bareSteps_child (hp : p.bytes ≠ []) (hn : Plain n) :
    (p.child n).bareSteps = p.bareSteps ++ [.enter n] := by
  unfold bareSteps
  rw [filterMap_segments_child (f := Step.ofSegment?) rfl hp hn, hn.step]
  rfl

/-! ## Any number of names -/

variable {names : List Bytes}

theorem descend_cons (p : Path) (n : Bytes) (names : List Bytes) :
    p.descend (n :: names) = (p.child n).descend names :=
  rfl

/-- Descending keeps the spelling and adds to it. -/
theorem prefix_descend (hp : p.bytes ≠ []) (hnames : ∀ n ∈ names, Plain n) :
    p.bytes <+: (p.descend names).bytes := by
  induction names generalizing p with
  | nil => exact List.prefix_refl _
  | cons n names ih =>
    obtain ⟨hn, hrest⟩ := List.forall_mem_cons.mp hnames
    exact (prefix_child hp hn).trans (ih (bytes_child_ne_nil hp hn) hrest)

/-- A path spells nothing but what it was given. -/
theorem mem_bytes_descend {b : UInt8} (hp : p.bytes ≠ []) (hnames : ∀ n ∈ names, Plain n)
    (h : b ∈ (p.descend names).bytes) : b ∈ p.bytes ∨ b = slash ∨ ∃ n ∈ names, b ∈ n := by
  induction names generalizing p with
  | nil => exact .inl h
  | cons n names ih =>
    obtain ⟨hn, hrest⟩ := List.forall_mem_cons.mp hnames
    rcases ih (bytes_child_ne_nil hp hn) hrest h with hchild | hslash | ⟨m, hm, hb⟩
    · have hbytes : b ∈ p.bytes ++ slash :: n := by
        rw [bytes_child hp hn] at hchild
        split at hchild
        · rcases List.mem_append.mp hchild with hb | hb
          · exact List.mem_append_left _ hb
          · exact List.mem_append_right _ (List.mem_cons_of_mem _ hb)
        · exact hchild
      rcases List.mem_append.mp hbytes with hb | hb
      · exact .inl hb
      · rcases List.mem_cons.mp hb with hb | hb
        · exact .inr (.inl hb)
        · exact .inr (.inr ⟨n, List.mem_cons_self .., hb⟩)
    · exact .inr (.inl hslash)
    · exact .inr (.inr ⟨m, List.mem_cons_of_mem _ hm, hb⟩)

theorem isAbsolute_descend (hp : p.bytes ≠ []) (hnames : ∀ n ∈ names, Plain n) :
    (p.descend names).isAbsolute = p.isAbsolute := by
  induction names generalizing p with
  | nil => rfl
  | cons n names ih =>
    obtain ⟨hn, hrest⟩ := List.forall_mem_cons.mp hnames
    rw [descend_cons, ih (bytes_child_ne_nil hp hn) hrest, isAbsolute_child hp hn]

/-- Every name adds a component. -/
theorem components_descend (p : Path) (hnames : ∀ n ∈ names, Plain n) :
    (p.descend names).components = p.components ++ names.map .name := by
  induction names generalizing p with
  | nil => rw [List.map_nil, List.append_nil]; rfl
  | cons n names ih =>
    obtain ⟨hn, hrest⟩ := List.forall_mem_cons.mp hnames
    rw [descend_cons, ih (p.child n) hrest, components_child p hn, List.append_assoc]
    rfl

theorem bareSteps_descend (hp : p.bytes ≠ []) (hnames : ∀ n ∈ names, Plain n) :
    (p.descend names).bareSteps = p.bareSteps ++ names.map .enter := by
  induction names generalizing p with
  | nil => rw [List.map_nil, List.append_nil]; rfl
  | cons n names ih =>
    obtain ⟨hn, hrest⟩ := List.forall_mem_cons.mp hnames
    rw [descend_cons, ih (bytes_child_ne_nil hp hn) hrest, bareSteps_child hp hn,
      List.append_assoc]
    rfl

/-- After a name no slash ends the path. -/
theorem getLast?_descend (hp : p.bytes ≠ []) (hnames : ∀ n ∈ names, Plain n)
    (hne : names ≠ []) : (p.descend names).bytes.getLast? ≠ some slash := by
  induction names generalizing p with
  | nil => exact absurd rfl hne
  | cons n names ih =>
    obtain ⟨hn, hrest⟩ := List.forall_mem_cons.mp hnames
    cases names with
    | nil => exact getLast?_child hp hn
    | cons m names => exact ih (bytes_child_ne_nil hp hn) hrest (List.cons_ne_nil _ _)

/-- Every name adds a step. -/
theorem steps_descend (hp : p.bytes ≠ []) (hnames : ∀ n ∈ names, Plain n) (hne : names ≠ []) :
    (p.descend names).steps = p.bareSteps ++ names.map .enter := by
  rw [← bareSteps_descend hp hnames]
  unfold steps
  rw [if_neg (getLast?_descend hp hnames hne), List.append_nil]
  rfl

/-- Descending from a path without a slash at its end. -/
theorem bytes_descend_of_getLast? (hp : p.bytes ≠ []) (hslash : p.bytes.getLast? ≠ some slash)
    (hnames : ∀ n ∈ names, Plain n) :
    (p.descend names).bytes = p.bytes ++ names.flatMap (slash :: ·) := by
  induction names generalizing p with
  | nil => rw [List.flatMap_nil, List.append_nil]; rfl
  | cons n names ih =>
    obtain ⟨hn, hrest⟩ := List.forall_mem_cons.mp hnames
    rw [descend_cons, ih (bytes_child_ne_nil hp hn) (getLast?_child hp hn) hrest,
      bytes_child hp hn, if_neg hslash, List.flatMap_cons, List.append_assoc]

theorem intercalate_slash_cons (n : Bytes) (names : List Bytes) :
    [slash].intercalate (n :: names) = n ++ names.flatMap (slash :: ·) := by
  induction names generalizing n with
  | nil => simp [List.intercalate]
  | cons m names ih =>
    have hcons : [slash].intercalate (n :: m :: names) =
        n ++ slash :: [slash].intercalate (m :: names) := by
      simp [List.intercalate, List.intersperse]
    rw [hcons, ih, List.flatMap_cons, List.cons_append]

/-- A path of names is relative. -/
theorem isAbsolute_intercalate (hnames : ∀ n ∈ names, Plain n) (hne : names ≠ []) :
    (⟨[slash].intercalate names⟩ : Path).isAbsolute = false := by
  obtain ⟨n, names, rfl⟩ := List.exists_cons_of_ne_nil hne
  have hn := hnames n (List.mem_cons_self ..)
  rw [← hn.isAbsolute]
  unfold isAbsolute
  rw [intercalate_slash_cons, List.head?_append_of_ne_nil _ hn.ne_nil]

/-- A path of names has a step for each of them. -/
theorem steps_intercalate (hnames : ∀ n ∈ names, Plain n) (hne : names ≠ []) :
    (⟨[slash].intercalate names⟩ : Path).steps = names.map .enter := by
  obtain ⟨n, names, rfl⟩ := List.exists_cons_of_ne_nil hne
  obtain ⟨hn, hrest⟩ := List.forall_mem_cons.mp hnames
  have hfirst : (⟨n⟩ : Path).bareSteps = [.enter n] := by
    rw [bareSteps, segments, List.splitOn_eq_singleton hn.one, List.filterMap_cons_some hn.step]
    rfl
  have hdescend : (⟨[slash].intercalate (n :: names)⟩ : Path) = (⟨n⟩ : Path).descend names :=
    eq_of_bytes (by rw [bytes_descend_of_getLast? hn.ne_nil hn.getLast? hrest,
      intercalate_slash_cons])
  rw [hdescend]
  cases names with
  | nil =>
    have hsteps : (⟨n⟩ : Path).steps =
        (⟨n⟩ : Path).bareSteps ++ if n.getLast? = some slash then [.close] else [] := rfl
    show (⟨n⟩ : Path).steps = [.enter n]
    rw [hsteps, if_neg hn.getLast?, hfirst]
    rfl
  | cons m names =>
    rw [steps_descend hn.ne_nil hrest (List.cons_ne_nil _ _), hfirst]
    rfl

/-- Descending is joining with all names at once. -/
theorem descend_eq_join (p : Path) (hnames : ∀ n ∈ names, Plain n) (hne : names ≠ []) :
    p.descend names = p.join ⟨[slash].intercalate names⟩ := by
  have habs := isAbsolute_intercalate hnames hne
  obtain ⟨n, names, rfl⟩ := List.exists_cons_of_ne_nil hne
  obtain ⟨hn, hrest⟩ := List.forall_mem_cons.mp hnames
  have hjoin : (p.join ⟨[slash].intercalate (n :: names)⟩).bytes =
      (p.child n).bytes ++ names.flatMap (slash :: ·) := by
    unfold child join
    rw [habs, hn.isAbsolute, intercalate_slash_cons]
    by_cases hslash : p.bytes = [] ∨ p.bytes.getLast? = some slash
    · simp [hslash]
    · simp [hslash]
  have hchild : (p.child n).bytes ≠ [] ∧ (p.child n).bytes.getLast? ≠ some slash := by
    by_cases hp : p.bytes = []
    · rw [child_of_nil hp hn]
      exact ⟨hn.ne_nil, hn.getLast?⟩
    · exact ⟨bytes_child_ne_nil hp hn, getLast?_child hp hn⟩
  exact eq_of_bytes ((bytes_descend_of_getLast? hchild.1 hchild.2 hrest).trans hjoin.symm)

end Path

end RoleWiring
