import Mathlib.Order.Lattice.Nat
import RoleWiring.Proofs.Ascent.Above
import RoleWiring.Proofs.FirstOccurrences

/-!
# A walk goes breadth first

The names that a walk gives come in the order of their distance from its start, and at each
distance in the order in which the types one step nearer name them. Behind this is one equation
(`climbDirect_eq_eraseDups`): the names that are given are the first occurrences in the list of the
start and of the supertypes of all that is given.

* `Ordered` — the invariant of the steps that the equation comes from;
* `pairwise_distance`, `filter_distance` — what the equation says about distances;
* `answers_eq` — step by step a walk gives its names, and nothing once it is over;
* `allAbove_breadthFirst` — in any session a walk gives the start first, whatever is above it once,
  by distance, and at each distance in the order of first mention.
-/

namespace RoleWiring

/-! ## Distances -/

namespace Source

variable {src : Source} {x y : String}

/-- The superclass of a type, if it has one, and then its interfaces in order; nothing where it has
no declaration. -/
def supertypes (src : Source) (name : String) : List String :=
  match src.lookUp name with
  | .error _ => []
  | .ok d =>
    match d.superClass with
    | none => d.interfaces
    | some superClass => superClass :: d.interfaces

theorem supertypes_of_error {fault : Fault} (h : src.lookUp x = .error fault) :
    src.supertypes x = [] := by
  rw [supertypes, h]

/-- These are the direct supertypes of the declaration. -/
theorem supertypes_of_ok {d : Declaration} (h : src.lookUp x = .ok d) :
    src.supertypes x = d.directSupertypes := by
  rw [supertypes, h]
  obtain ⟨-, -, superClass, interfaces⟩ := d
  cases superClass <;> rfl

theorem mem_supertypes : y ∈ src.supertypes x ↔ src.Below x y := by
  cases h : src.lookUp x with
  | error fault =>
    rw [supertypes_of_error h]
    exact iff_of_false List.not_mem_nil (not_below_of_error h)
  | ok d => rw [supertypes_of_ok h, below_iff h]

/-- `y` is reached from `x` by going up exactly `n` times. -/
def AboveBy (src : Source) : Nat → String → String → Prop
  | 0, x, y => x = y
  | n + 1, x, y => ∃ p, src.AboveBy n x p ∧ src.Below p y

/-- How many times one has to go up from `x` at least to reach `y`; 0 where `y` is not above. -/
noncomputable def distance (src : Source) (x y : String) : Nat :=
  sInf {n | src.AboveBy n x y}

theorem above_iff_exists_aboveBy : src.Above x y ↔ ∃ n, src.AboveBy n x y := by
  constructor
  · intro h
    induction h with
    | refl => exact ⟨0, rfl⟩
    | tail _ hbelow ih =>
      obtain ⟨n, hn⟩ := ih
      exact ⟨n + 1, _, hn, hbelow⟩
  · rintro ⟨n, hn⟩
    induction n generalizing y with
    | zero => exact hn ▸ .refl
    | succ n ih =>
      obtain ⟨p, hp, hbelow⟩ := hn
      exact (ih hp).tail hbelow

theorem aboveBy_distance (h : src.Above x y) : src.AboveBy (src.distance x y) x y :=
  Nat.sInf_mem (above_iff_exists_aboveBy.mp h)

theorem distance_le {n : Nat} (h : src.AboveBy n x y) : src.distance x y ≤ n :=
  Nat.sInf_le h

theorem distance_self (src : Source) (x : String) : src.distance x x = 0 :=
  Nat.le_zero.mp (distance_le (n := 0) rfl)

/-- A supertype is at most one step further away. -/
theorem distance_le_succ {p : String} (hp : src.Above x p) (hy : y ∈ src.supertypes p) :
    src.distance x y ≤ src.distance x p + 1 :=
  distance_le ⟨p, aboveBy_distance hp, mem_supertypes.mp hy⟩

/-- A type that is not the start has a type one step nearer whose supertype it is. -/
theorem exists_nearer {d : Nat} (hy : src.Above x y) (hd : src.distance x y = d + 1) :
    ∃ p, src.Above x p ∧ src.distance x p = d ∧ y ∈ src.supertypes p := by
  have hsteps := aboveBy_distance hy
  rw [hd] at hsteps
  obtain ⟨p, hp, hbelow⟩ := hsteps
  have habove : src.Above x p := above_iff_exists_aboveBy.mpr ⟨d, hp⟩
  have hy' := distance_le_succ habove (mem_supertypes.mpr hbelow)
  have hle := distance_le hp
  exact ⟨p, habove, by omega, mem_supertypes.mpr hbelow⟩

end Source

namespace Ascent

variable {src : Source} {w w' : Ascent} {name : String} {given : List String}

/-! ## The order of what is met -/

/-- What is met for the first time waits behind the others, in the order in which it is met. -/
theorem waiting_meet (names : List String) (w : Ascent) :
    (meet names w).waiting = w.waiting ++ (names.removeAll w.met).eraseDups := by
  induction names generalizing w with
  | nil => simp [meet, List.removeAll]
  | cons a names ih =>
    rw [meet]
    split
    · next hmet => simp [ih, List.removeAll, hmet]
    · next hmet =>
      have hrest : names.removeAll (a :: w.met) = (names.removeAll w.met).filter (!· == a) := by
        simp only [List.removeAll, List.filter_filter]
        refine List.filter_congr fun b _ => ?_
        by_cases hb : b = a <;> simp [hb]
      have hfirst : (a :: names).removeAll w.met = a :: names.removeAll w.met := by
        simp [List.removeAll, hmet]
      rw [ih, hrest, hfirst, List.eraseDups_cons, List.append_assoc, List.singleton_append]

/-- The walk from `name` has given these names. Together with those that wait they are the first
occurrences in the list of the start and of the supertypes of all that were looked up. -/
structure Ordered (src : Source) (name : String) (given : List String) (w : Ascent) : Prop where
  /-- the last name given is not looked up yet -/
  last : w.last = given.getLast?
  /-- what was given, then what waits -/
  order : given ++ w.waiting = (name :: given.dropLast.flatMap src.supertypes).eraseDups
  /-- this is what was met -/
  met : ∀ n, n ∈ w.met ↔ n ∈ given ++ w.waiting

theorem ordered_start (src : Source) (name : String) : Ordered src name [] (start name) where
  last := rfl
  order := rfl
  met := fun _ => Iff.rfl

/-- Once the last name given is looked up, the supertypes of all names given count. -/
theorem Ordered.lookAboveDirect (h : Ordered src name given w) :
    given ++ (w.lookAboveDirect src).waiting =
      (name :: given.flatMap src.supertypes).eraseDups := by
  rcases List.eq_nil_or_concat' given with rfl | ⟨before, x, rfl⟩
  · have hlast : w.last = none := h.last
    rw [Ascent.lookAboveDirect, hlast]
    exact h.order
  · have hlast : w.last = some x := by rw [h.last, List.getLast?_concat]
    have horder := h.order
    rw [List.dropLast_concat] at horder
    have hmet : ∀ n, n ∈ w.met ↔ n ∈ name :: before.flatMap src.supertypes := by
      intro n
      rw [h.met, horder, List.mem_eraseDups]
    rw [List.flatMap_append, List.flatMap_singleton, ← List.cons_append, List.eraseDups_append,
      ← horder, ← removeAll_congr hmet, Ascent.lookAboveDirect, hlast]
    cases hx : src.lookUp x with
    | error fault => simp [told, hx, Source.supertypes_of_error hx, List.removeAll]
    | ok d => simp [told, hx, Source.supertypes_of_ok hx, waiting_meet]

/-- A step keeps the order. -/
theorem Ordered.next {n : String} (h : Ordered src name given w)
    (hnext : w.nextDirect src = some (n, w')) : Ordered src name (given ++ [n]) w' := by
  obtain ⟨hwaiting, hmet, hlast⟩ := nextDirect_eq_some hnext
  have horder := h.lookAboveDirect
  refine ⟨?_, ?_, fun m => ?_⟩
  · rw [hlast, List.getLast?_concat]
  · rw [List.dropLast_concat, ← horder, hwaiting, List.append_assoc, List.singleton_append]
  · rw [hmet, mem_met_lookAboveDirect, List.append_assoc, List.singleton_append, ← hwaiting,
      List.mem_append, mem_waiting_lookAboveDirect, h.met, List.mem_append]
    tauto

/-- What was given and what the walk goes on to give, in the order of first occurrence. -/
theorem Ordered.append_climbDirect (h : Ordered src name given w) :
    given ++ w.climbDirect src (fun _ => false) =
      (name :: (given ++ w.climbDirect src fun _ => false).flatMap src.supertypes).eraseDups := by
  fun_induction climbDirect src (fun _ => false) w generalizing given with
  | case1 w hnext =>
    have horder := h.lookAboveDirect
    rw [nextDirect_eq_none hnext, List.append_nil] at horder
    rw [List.append_nil]
    exact horder
  | case2 w n w' hnext hstop => cases hstop
  | case3 w n w' hnext hstop ih =>
    have hnames := ih (h.next hnext)
    rw [List.append_assoc, List.singleton_append] at hnames
    exact hnames

/-! ## The names of a whole walk -/

section Names

variable (src name)

/-- All names that the walk from a type gives. -/
def namesAbove : List String :=
  (start name).climbDirect src fun _ => false

/-- The names that are given are the first occurrences in the list of the start and of the
supertypes of all that is given. -/
theorem climbDirect_eq_eraseDups :
    namesAbove src name = (name :: (namesAbove src name).flatMap src.supertypes).eraseDups :=
  (ordered_start src name).append_climbDirect

theorem nodup_namesAbove : (namesAbove src name).Nodup := by
  rw [climbDirect_eq_eraseDups]
  exact nodup_eraseDups _

variable {src name}

theorem mem_namesAbove {x : String} : x ∈ namesAbove src name ↔ src.Above name x :=
  ⟨above_of_mem_climbDirect, fun h => mem_climbDirect_start h fun _ _ => rfl⟩

/-! ## Distances along a walk -/

/-- The names at most `d` steps away from the start, in the order in which they are given. -/
def namesWithin (src : Source) (name : String) : Nat → List String
  | 0 => [name]
  | d + 1 => (name :: (namesWithin src name d).flatMap src.supertypes).eraseDups

theorem mem_namesWithin {d : Nat} {x : String} :
    x ∈ namesWithin src name d ↔ src.Above name x ∧ src.distance name x ≤ d := by
  induction d generalizing x with
  | zero =>
    rw [namesWithin, List.mem_singleton]
    constructor
    · rintro rfl
      exact ⟨.refl, Nat.le_of_eq (src.distance_self x)⟩
    · rintro ⟨habove, hd⟩
      have hsteps := Source.aboveBy_distance habove
      rw [Nat.le_zero.mp hd] at hsteps
      exact hsteps.symm
  | succ d ih =>
    rw [namesWithin, List.mem_eraseDups, List.mem_cons, List.mem_flatMap]
    constructor
    · rintro (rfl | ⟨p, hp, hx⟩)
      · exact ⟨.refl, Nat.le_trans (Nat.le_of_eq (src.distance_self x)) (Nat.zero_le _)⟩
      · obtain ⟨habove, hd⟩ := ih.mp hp
        have hx' := Source.distance_le_succ habove hx
        exact ⟨habove.tail (Source.mem_supertypes.mp hx), by omega⟩
    · rintro ⟨habove, hd⟩
      cases hdistance : src.distance name x with
      | zero =>
        have hsteps := Source.aboveBy_distance habove
        rw [hdistance] at hsteps
        exact .inl hsteps.symm
      | succ e =>
        obtain ⟨p, hp, he, hx⟩ := Source.exists_nearer habove hdistance
        exact .inr ⟨p, ih.mpr ⟨hp, by omega⟩, hx⟩

/-- The names near the start are given first. -/
theorem namesWithin_prefix (src : Source) (name : String) (d : Nat) :
    namesWithin src name d <+: namesAbove src name := by
  have hmore : ∀ {first second : List String}, first <+: second →
      (name :: first.flatMap src.supertypes).eraseDups <+:
        (name :: second.flatMap src.supertypes).eraseDups := by
    rintro first second ⟨later, rfl⟩
    rw [List.flatMap_append, ← List.cons_append]
    exact prefix_eraseDups_append _ _
  induction d with
  | zero =>
    have hnil := hmore (List.nil_prefix (l := namesAbove src name))
    rw [← climbDirect_eq_eraseDups] at hnil
    exact hnil
  | succ d ih =>
    have hstep := hmore ih
    rw [← climbDirect_eq_eraseDups] at hstep
    exact hstep

/-- The names come in the order of their distance from the start. -/
theorem pairwise_distance (src : Source) (name : String) :
    (namesAbove src name).Pairwise fun x y => src.distance name x ≤ src.distance name y := by
  rw [List.pairwise_iff_getElem]
  intro i j hi hj hij
  -- the names as near as the later one are a first part of the walk that has it and what is before
  have hfirst := namesWithin_prefix src name (src.distance name (namesAbove src name)[j])
  obtain ⟨k, hk, hlater⟩ := List.getElem_of_mem
    (mem_namesWithin.mpr ⟨mem_namesAbove.mp (List.getElem_mem hj), Nat.le_refl _⟩)
  rw [hfirst.getElem hk, (nodup_namesAbove src name).getElem_inj_iff] at hlater
  have hi' : i < (namesWithin src name (src.distance name (namesAbove src name)[j])).length := by
    omega
  have hmem := List.getElem_mem hi'
  rw [hfirst.getElem hi'] at hmem
  exact (mem_namesWithin.mp hmem).2

/-- The names at distance `d` from the start, in the order in which they are given. -/
noncomputable def namesAt (src : Source) (name : String) (d : Nat) : List String :=
  (namesAbove src name).filter fun x => src.distance name x = d

/-- In a list that is sorted by a key come the items with a smaller key, those with the key, and
those with a larger one. -/
theorem eq_filter_append_of_pairwise {key : String → Nat} {items : List String}
    (h : items.Pairwise fun x y => key x ≤ key y) (d : Nat) :
    items = (items.filter fun x => key x < d) ++
      ((items.filter fun x => key x = d) ++ items.filter fun x => d < key x) := by
  induction items with
  | nil => rfl
  | cons x rest ih =>
    obtain ⟨hx, hrest⟩ := List.pairwise_cons.mp h
    -- the items after the first one have no smaller key
    have hnone : ∀ p : String → Bool, (∀ y, p y = true → key y < key x) → rest.filter p = [] := by
      intro p hp
      rw [List.filter_eq_nil_iff]
      intro y hy hpy
      exact absurd (hp y hpy) (Nat.not_lt.mpr (hx y hy))
    have ih := ih hrest
    rcases Nat.lt_trichotomy (key x) d with hlt | heq | hgt
    · rw [List.filter_cons_of_pos (by simpa using hlt), List.filter_cons_of_neg (by simp; omega),
        List.filter_cons_of_neg (by simp; omega), List.cons_append, ← ih]
    · have hless := hnone (fun y => key y < d) fun y hy => by simpa [heq] using hy
      rw [hless, List.nil_append] at ih
      rw [List.filter_cons_of_neg (by simp; omega), List.filter_cons_of_pos (by simpa using heq),
        List.filter_cons_of_neg (by simp; omega), hless, List.nil_append, List.cons_append, ← ih]
    · have hless := hnone (fun y => key y < d) fun y hy => (of_decide_eq_true hy).trans hgt
      have hsame := hnone (fun y => key y = d) fun y hy => (of_decide_eq_true hy).trans_lt hgt
      rw [hless, hsame, List.nil_append, List.nil_append] at ih
      rw [List.filter_cons_of_neg (by simp; omega), List.filter_cons_of_neg (by simp; omega),
        List.filter_cons_of_pos (by simpa using hgt), hless, hsame, List.nil_append,
        List.nil_append, ← ih]

/-- The names one step further away come in the order in which the names at a distance name them
first. -/
theorem namesAt_succ (src : Source) (name : String) (d : Nat) :
    namesAt src name (d + 1) =
      ((namesAt src name d).flatMap src.supertypes).eraseDups.filter fun x =>
        src.distance name x = d + 1 := by
  have hstart : ¬ decide (src.distance name name = d + 1) = true := by
    rw [src.distance_self]
    simp
  have hparts := eq_filter_append_of_pairwise (pairwise_distance src name) d
  -- the supertypes of nearer names are not that far away
  have hnearer : (((namesAbove src name).filter fun x => src.distance name x < d).flatMap
      src.supertypes).filter (fun x => src.distance name x = d + 1) = [] := by
    rw [List.filter_eq_nil_iff]
    intro y hy heq
    obtain ⟨x, hx, hy⟩ := List.mem_flatMap.mp hy
    obtain ⟨hx, hlt⟩ := List.mem_filter.mp hx
    have hle := Source.distance_le_succ (mem_namesAbove.mp hx) hy
    have := of_decide_eq_true hlt
    have := of_decide_eq_true heq
    omega
  -- and what is that far away is a supertype of a name at the distance
  have hfurther : ∀ y ∈ (((namesAbove src name).filter fun x => d < src.distance name x).flatMap
      src.supertypes).filter (fun x => src.distance name x = d + 1),
      y ∈ (((namesAt src name d).flatMap src.supertypes).filter fun x =>
        src.distance name x = d + 1) := by
    intro y hy
    obtain ⟨hy, heq⟩ := List.mem_filter.mp hy
    obtain ⟨x, hx, hy⟩ := List.mem_flatMap.mp hy
    have habove := (mem_namesAbove.mp (List.mem_filter.mp hx).1).tail (Source.mem_supertypes.mp hy)
    obtain ⟨p, hp, hd, hy⟩ := Source.exists_nearer habove (of_decide_eq_true heq)
    refine List.mem_filter.mpr ⟨List.mem_flatMap.mpr ⟨p, List.mem_filter.mpr ⟨?_, ?_⟩, hy⟩, heq⟩
    · exact mem_namesAbove.mpr hp
    · exact decide_eq_true hd
  calc namesAt src name (d + 1)
      = (name :: (namesAbove src name).flatMap src.supertypes).eraseDups.filter fun x =>
          src.distance name x = d + 1 := congrArg _ (climbDirect_eq_eraseDups src name)
    _ = (((namesAbove src name).flatMap src.supertypes).filter fun x =>
          src.distance name x = d + 1).eraseDups := by
        rw [filter_eraseDups, List.filter_cons, if_neg hstart]
    _ = (((namesAt src name d).flatMap src.supertypes).filter fun x =>
          src.distance name x = d + 1).eraseDups := by
        rw [hparts, List.flatMap_append, List.flatMap_append, List.filter_append,
          List.filter_append, hnearer, List.nil_append]
        exact eraseDups_append_of_subset hfurther
    _ = _ := (filter_eraseDups _ _).symm

end Names

/-! ## Steps one after the other -/

/-- What the next `n` steps of a walk give. -/
def answers (src : Source) : Nat → Ascent → Session → List (Option String)
  | 0, _, _ => []
  | n + 1, w, s => (w.next src s).1 :: answers src n (w.next src s).2.1 (w.next src s).2.2

theorem last_meet (names : List String) (w : Ascent) : (meet names w).last = w.last := by
  induction names generalizing w with
  | nil => rfl
  | cons a names ih =>
    rw [meet]
    split
    · exact ih w
    · exact ih _

/-- The last name given is looked up only once. -/
theorem last_lookAboveDirect (src : Source) (w : Ascent) : (w.lookAboveDirect src).last = none := by
  unfold lookAboveDirect told
  split
  · assumption
  · split
    · exact last_meet _ _
    · rfl

/-- A walk that is over stays over. -/
theorem nextDirect_of_over (h : w.nextDirect src = none) :
    (w.lookAboveDirect src).nextDirect src = none := by
  have hwaiting := nextDirect_eq_none h
  have hlast := last_lookAboveDirect src w
  generalize w.lookAboveDirect src = ended at hwaiting hlast
  unfold nextDirect pop? lookAboveDirect
  rw [hlast]
  dsimp only
  rw [hwaiting]

/-- The steps of a walk give its names, and nothing from then on. -/
theorem answers_eq (src : Source) (n : Nat) (w : Ascent) (s : Session) :
    answers src n w s =
      ((w.climb src (fun _ => false) s).1.map some ++ List.replicate n none).take n := by
  induction n generalizing w s with
  | zero => rfl
  | succ n ih =>
    have hnext := next_eq src w s
    have hview := view_next src w s
    rw [answers, ih, climb_fst, climb_fst, hview, hnext]
    cases hd : w.nextDirect (s.view src) with
    | none =>
      dsimp only
      rw [climbDirect_of_none hd, climbDirect_of_none (nextDirect_of_over hd)]
      simp [List.replicate_succ]
    | some step =>
      obtain ⟨name, w'⟩ := step
      dsimp only
      rw [climbDirect_of_some hd, if_neg Bool.false_ne_true, List.map_cons, List.cons_append,
        List.take_succ_cons, List.take_append, List.take_append, List.take_replicate,
        List.take_replicate]
      have hmin : ∀ m, min (n - m) (n + 1) = min (n - m) n := by omega
      rw [hmin]

end Ascent

/-- However a session is used, a walk in it goes up from a type breadth first, over what the session
answers, and ends. Its steps give its names one after the other, and nothing from then on. The names
are the start and all that is above it, each once, in the order of their distance from the start. At
each distance they come in the order in which the supertypes of the names one step nearer have
them first. -/
theorem allAbove_breadthFirst (src : Source) (s : Session) (name : String) :
    (∀ n, (Ascent.start name).answers src n s =
        ((allAbove src name s).1.map some ++ List.replicate n none).take n) ∧
      (allAbove src name s).1.head? = some name ∧
      (allAbove src name s).1.Nodup ∧
      (∀ x, x ∈ (allAbove src name s).1 ↔ (s.view src).Above name x) ∧
      ((allAbove src name s).1.Pairwise fun x y =>
        (s.view src).distance name x ≤ (s.view src).distance name y) ∧
      ∀ d, ((allAbove src name s).1.filter fun x => (s.view src).distance name x = d + 1) =
        (((allAbove src name s).1.filter fun x => (s.view src).distance name x = d).flatMap
          (s.view src).supertypes).eraseDups.filter fun x =>
            (s.view src).distance name x = d + 1 := by
  have hnames : (allAbove src name s).1 = Ascent.namesAbove (s.view src) name :=
    Ascent.climb_fst src (fun _ => false) (Ascent.start name) s
  refine ⟨fun n => Ascent.answers_eq src n (Ascent.start name) s, ?_⟩
  rw [hnames]
  refine ⟨?_, Ascent.nodup_namesAbove _ name, fun x => Ascent.mem_namesAbove,
    Ascent.pairwise_distance _ name, Ascent.namesAt_succ _ name⟩
  rw [Ascent.climbDirect_eq_eraseDups, List.eraseDups_cons]
  rfl

end RoleWiring
