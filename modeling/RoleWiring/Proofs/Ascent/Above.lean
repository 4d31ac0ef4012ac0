import Mathlib.Logic.Relation
import RoleWiring.Proofs.Ascent.Direct

/-!
# A walk gives what is above

The names that a walk gives are those that are reached from its start by going from
types with a declaration to their direct supertypes, any number of times. Nothing
else is given (`climbDirect_of_closed`), and a walk that is not stopped leaves
nothing out (`climbDirect_closed`), also where types are above themselves.

The second half rests on an invariant, `Settled`: whatever was met is still to be
given, or is the last name given, or has all its direct supertypes met.

* `isSubtypeDirect_iff` — the search for one type finds it exactly if it is above.
-/

namespace RoleWiring

/-- `y` is reached from `x` by going up any number of times, none included. -/
def Source.Above (src : Source) : String → String → Prop :=
  Relation.ReflTransGen src.Below

namespace Ascent

variable {src : Source} {stop : String → Bool} {w w' : Ascent} {name : String}

/-! ## What a step does -/

theorem mem_met_meet {names : List String} {n : String} {w : Ascent} :
    n ∈ (meet names w).met ↔ n ∈ w.met ∨ n ∈ names := by
  induction names generalizing w with
  | nil => simp [meet]
  | cons a names ih =>
    rw [meet]
    split
    · next hmet =>
      rw [ih, List.mem_cons]
      refine ⟨?_, ?_⟩
      · rintro (h | h)
        · exact .inl h
        · exact .inr (.inr h)
      · rintro (h | rfl | h)
        · exact .inl h
        · exact .inl hmet
        · exact .inr h
    · rw [ih, List.mem_cons, List.mem_cons, or_assoc, or_left_comm]

theorem mem_waiting_meet {names : List String} {n : String} {w : Ascent} :
    n ∈ (meet names w).waiting ↔ n ∈ w.waiting ∨ n ∈ names ∧ n ∉ w.met := by
  induction names generalizing w with
  | nil => simp [meet]
  | cons a names ih =>
    rw [meet]
    split
    · next hmet =>
      rw [ih, List.mem_cons]
      refine ⟨?_, ?_⟩
      · rintro (h | ⟨h, hnew⟩)
        · exact .inl h
        · exact .inr ⟨.inr h, hnew⟩
      · rintro (h | ⟨rfl | h, hnew⟩)
        · exact .inl h
        · exact absurd hmet hnew
        · exact .inr ⟨h, hnew⟩
    · next hmet =>
      rw [ih, List.mem_append, List.mem_singleton, List.mem_cons, List.mem_cons]
      refine ⟨?_, ?_⟩
      · rintro ((h | rfl) | ⟨h, hnew⟩)
        · exact .inl h
        · exact .inr ⟨.inl rfl, hmet⟩
        · exact .inr ⟨.inr h, fun hm => hnew (.inr hm)⟩
      · rintro (h | ⟨rfl | h, hnew⟩)
        · exact .inl (.inl h)
        · exact .inl (.inr rfl)
        · by_cases hna : n = a
          · exact .inl (.inr hna)
          · exact .inr ⟨h, fun hm => hm.elim hna hnew⟩

/-- Looking up meets what is directly above the last name given. -/
theorem mem_met_lookAboveDirect {n : String} :
    n ∈ (w.lookAboveDirect src).met ↔ n ∈ w.met ∨ ∃ x, w.last = some x ∧ src.Below x n := by
  unfold lookAboveDirect
  cases w.last with
  | none => simp
  | some x =>
    cases hx : src.lookUp x with
    | error fault => simp [told, hx, Source.not_below_of_error hx]
    | ok d => simp [told, hx, Source.below_iff hx, mem_met_meet]

/-- What is met for the first time waits. -/
theorem mem_waiting_lookAboveDirect {n : String} :
    n ∈ (w.lookAboveDirect src).waiting ↔
      n ∈ w.waiting ∨ n ∉ w.met ∧ ∃ x, w.last = some x ∧ src.Below x n := by
  unfold lookAboveDirect
  cases w.last with
  | none => simp
  | some x =>
    cases hx : src.lookUp x with
    | error fault => simp [told, hx, Source.not_below_of_error hx]
    | ok d => simp [told, hx, Source.below_iff hx, mem_waiting_meet, and_comm]

/-- A step gives the first name that waits and takes it away. -/
theorem nextDirect_eq_some (h : w.nextDirect src = some (name, w')) :
    (w.lookAboveDirect src).waiting = name :: w'.waiting ∧
      w'.met = (w.lookAboveDirect src).met ∧ w'.last = some name := by
  unfold nextDirect pop? at h
  split at h
  · cases h
  · next n rest hwaiting =>
    cases h
    exact ⟨hwaiting, rfl, rfl⟩

/-- The walk is over when nothing waits. -/
theorem nextDirect_eq_none (h : w.nextDirect src = none) :
    (w.lookAboveDirect src).waiting = [] := by
  unfold nextDirect pop? at h
  split at h
  · assumption
  · cases h

/-! ## Nothing else is given -/

/-- What holds of the names at hand and passes upwards holds of all names given. -/
theorem climbDirect_of_closed {P : String → Prop} (hup : ∀ x y, P x → src.Below x y → P y)
    (hwaiting : ∀ n ∈ w.waiting, P n) (hlast : ∀ n, w.last = some n → P n) :
    ∀ n ∈ w.climbDirect src stop, P n := by
  -- the names that wait after looking up are at hand or directly above the last one
  have hstep : ∀ w : Ascent, (∀ n ∈ w.waiting, P n) → (∀ n, w.last = some n → P n) →
      ∀ n ∈ (w.lookAboveDirect src).waiting, P n := by
    intro w hwaiting hlast n hn
    rcases mem_waiting_lookAboveDirect.mp hn with hn | ⟨-, x, hx, hbelow⟩
    · exact hwaiting n hn
    · exact hup x n (hlast x hx) hbelow
  fun_induction climbDirect src stop w with
  | case1 => intro n hn; cases hn
  | case2 w name w' hnext hstop =>
    obtain ⟨hw, -, -⟩ := nextDirect_eq_some hnext
    intro n hn
    obtain rfl := List.mem_singleton.mp hn
    exact hstep w hwaiting hlast n (hw ▸ List.mem_cons_self ..)
  | case3 w name w' hnext hstop ih =>
    obtain ⟨hw, -, hl⟩ := nextDirect_eq_some hnext
    have hall := hstep w hwaiting hlast
    rw [hw] at hall
    have hname : P name := hall name (List.mem_cons_self ..)
    intro n hn
    rcases List.mem_cons.mp hn with rfl | hn
    · exact hname
    · refine ih (fun m hm => hall m (List.mem_cons_of_mem _ hm)) (fun m hm => ?_) n hn
      rw [hl] at hm
      cases hm
      exact hname

/-! ## Nothing is left out -/

/-- Whatever was met is to be given, or was given last, or has its direct supertypes met. -/
structure Settled (src : Source) (w : Ascent) : Prop where
  /-- what waits was met -/
  met_of_waiting : ∀ n ∈ w.waiting, n ∈ w.met
  /-- so was the last name given -/
  met_of_last : ∀ n, w.last = some n → n ∈ w.met
  /-- what was given before has everything directly above it met -/
  done : ∀ n ∈ w.met, n ∈ w.waiting ∨ w.last = some n ∨ ∀ p, src.Below n p → p ∈ w.met

theorem settled_start (src : Source) (name : String) : Settled src (start name) where
  met_of_waiting := fun _ hn => hn
  met_of_last := fun _ hn => by cases hn
  done := fun _ hn => .inl hn

/-- What was met is to be given, or has its direct supertypes met, once the last name given is
looked up. -/
theorem Settled.lookAboveDirect (h : Settled src w) {n : String} (hn : n ∈ w.met) :
    n ∈ w.waiting ∨ ∀ p, src.Below n p → p ∈ (w.lookAboveDirect src).met := by
  rcases h.done n hn with hwait | hlast | hdone
  · exact .inl hwait
  · exact .inr fun p hp => mem_met_lookAboveDirect.mpr (.inr ⟨n, hlast, hp⟩)
  · exact .inr fun p hp => mem_met_lookAboveDirect.mpr (.inl (hdone p hp))

/-- A step keeps the walk settled. -/
theorem Settled.next (h : Settled src w) (hnext : w.nextDirect src = some (name, w')) :
    Settled src w' := by
  obtain ⟨hw, hm, hl⟩ := nextDirect_eq_some hnext
  have hsub : ∀ n ∈ (w.lookAboveDirect src).waiting, n ∈ w'.met := by
    intro n hn
    rw [hm]
    rcases mem_waiting_lookAboveDirect.mp hn with hn | ⟨-, hbelow⟩
    · exact mem_met_lookAboveDirect.mpr (.inl (h.met_of_waiting n hn))
    · exact mem_met_lookAboveDirect.mpr (.inr hbelow)
  rw [hw] at hsub
  refine ⟨fun n hn => hsub n (List.mem_cons_of_mem _ hn), fun n hn => ?_, fun n hn => ?_⟩
  · rw [hl] at hn
    cases hn
    exact hsub name (List.mem_cons_self ..)
  · -- a name that waits after looking up is the one given now, or still waits
    have hcases : n ∈ (w.lookAboveDirect src).waiting → n ∈ w'.waiting ∨ w'.last = some n := by
      intro hn
      rw [hw] at hn
      rcases List.mem_cons.mp hn with rfl | hn
      · exact .inr hl
      · exact .inl hn
    rw [hm] at hn
    by_cases hold : n ∈ w.met
    · rcases h.lookAboveDirect hold with hwait | hdone
      · rcases hcases (mem_waiting_lookAboveDirect.mpr (.inl hwait)) with h | h
        · exact .inl h
        · exact .inr (.inl h)
      · exact .inr (.inr fun p hp => hm ▸ hdone p hp)
    · have hbelow := (mem_met_lookAboveDirect.mp hn).resolve_left hold
      rcases hcases (mem_waiting_lookAboveDirect.mpr (.inr ⟨hold, hbelow⟩)) with h | h
      · exact .inl h
      · exact .inr (.inl h)

/-- What waits is given, unless the walk is stopped. -/
theorem mem_climbDirect_of_waiting (hstop : ∀ n ∈ w.climbDirect src stop, stop n = false) :
    ∀ n ∈ (w.lookAboveDirect src).waiting, n ∈ w.climbDirect src stop := by
  fun_induction climbDirect src stop w with
  | case1 w hnext =>
    intro n hn
    rw [nextDirect_eq_none hnext] at hn
    cases hn
  | case2 w name w' hnext hname =>
    rw [hstop name (List.mem_cons_self ..)] at hname
    cases hname
  | case3 w name w' hnext hname ih =>
    obtain ⟨hw, -, -⟩ := nextDirect_eq_some hnext
    intro n hn
    rw [hw] at hn
    rcases List.mem_cons.mp hn with rfl | hn
    · exact List.mem_cons_self ..
    · refine List.mem_cons_of_mem _ (ih (fun m hm => hstop m (List.mem_cons_of_mem _ hm)) n ?_)
      exact mem_waiting_lookAboveDirect.mpr (.inl hn)

/-- What is met when the last name given is looked up was met before or is given. -/
theorem met_or_given (hstop : ∀ n ∈ w.climbDirect src stop, stop n = false) {y : String}
    (hy : y ∈ (w.lookAboveDirect src).met) : y ∈ w.met ∨ y ∈ w.climbDirect src stop := by
  by_cases hold : y ∈ w.met
  · exact .inl hold
  · have hbelow := (mem_met_lookAboveDirect.mp hy).resolve_left hold
    have hwaits := mem_waiting_lookAboveDirect.mpr (.inr ⟨hold, hbelow⟩)
    exact .inr (mem_climbDirect_of_waiting hstop y hwaits)

/-- A walk that is not stopped has met or gives all that is above what it has met or gives. -/
theorem climbDirect_closed (h : Settled src w)
    (hstop : ∀ n ∈ w.climbDirect src stop, stop n = false) :
    ∀ x y, x ∈ w.met ∨ x ∈ w.climbDirect src stop → src.Below x y →
      y ∈ w.met ∨ y ∈ w.climbDirect src stop := by
  fun_induction climbDirect src stop w with
  | case1 w hnext =>
    intro x y hx hbelow
    -- the walk is over, so nothing waits and whatever was met is settled
    have hx : x ∈ w.met := hx.resolve_right List.not_mem_nil
    rcases h.lookAboveDirect hx with hwait | hdone
    · have hmem : x ∈ (w.lookAboveDirect src).waiting :=
        mem_waiting_lookAboveDirect.mpr (.inl hwait)
      rw [nextDirect_eq_none hnext] at hmem
      cases hmem
    · have hclimb : w.climbDirect src stop = [] := climbDirect_of_none hnext
      rw [← hclimb] at hstop ⊢
      exact met_or_given hstop (hdone y hbelow)
  | case2 w name w' hnext hname =>
    rw [hstop name (List.mem_cons_self ..)] at hname
    cases hname
  | case3 w name w' hnext hname ih =>
    have hsettled := h.next hnext
    obtain ⟨hw, hm, hl⟩ := nextDirect_eq_some hnext
    have hclimb : w.climbDirect src stop = name :: w'.climbDirect src stop := by
      rw [climbDirect_of_some hnext, if_neg hname]
    rw [← hclimb] at hstop ⊢
    intro x y hx hbelow
    -- what was met or is given now is met or given from the next step on
    have hx' : x ∈ w'.met ∨ x ∈ w'.climbDirect src stop := by
      rw [hclimb] at hx
      rcases hx with hx | hx
      · exact .inl (hm ▸ mem_met_lookAboveDirect.mpr (.inl hx))
      · rcases List.mem_cons.mp hx with rfl | hx
        · exact .inl (hsettled.met_of_last x hl)
        · exact .inr hx
    have hstop' : ∀ n ∈ w'.climbDirect src stop, stop n = false :=
      fun n hn => hstop n (hclimb ▸ List.mem_cons_of_mem _ hn)
    rcases ih hsettled hstop' x y hx' hbelow with hy | hy
    · exact met_or_given hstop (hm ▸ hy)
    · exact .inr (hclimb ▸ List.mem_cons_of_mem _ hy)

/-! ## Walks from their start -/

/-- A walk that is not stopped gives everything above its start. -/
theorem mem_climbDirect_start {x : String} (hx : src.Above name x)
    (hstop : ∀ n ∈ (start name).climbDirect src stop, stop n = false) :
    x ∈ (start name).climbDirect src stop := by
  have hstart : name ∈ (start name).climbDirect src stop :=
    mem_climbDirect_of_waiting hstop name (List.mem_cons_self ..)
  have hreach : x ∈ (start name).met ∨ x ∈ (start name).climbDirect src stop := by
    induction hx with
    | refl => exact .inr hstart
    | tail _ hbelow ih => exact climbDirect_closed (settled_start src name) hstop _ _ ih hbelow
  rcases hreach with hmet | hgiven
  · obtain rfl := List.mem_singleton.mp hmet
    exact hstart
  · exact hgiven

/-- Everything that a walk gives is above its start. -/
theorem above_of_mem_climbDirect {x : String} (hx : x ∈ (start name).climbDirect src stop) :
    src.Above name x := by
  refine climbDirect_of_closed (P := src.Above name) (fun x y h hbelow => h.tail hbelow)
    (fun n hn => ?_) (fun n hn => ?_) x hx
  · rw [List.mem_singleton.mp hn]
    exact .refl
  · cases hn

end Ascent

/-- The search for one type finds it exactly if it is above. -/
theorem isSubtypeDirect_iff {src : Source} {name target : String} :
    isSubtypeDirect src name target = true ↔ src.Above name target := by
  unfold isSubtypeDirect
  rw [List.contains_iff_mem]
  refine ⟨Ascent.above_of_mem_climbDirect, fun h => ?_⟩
  -- a search that misses the target is not stopped, so it gives everything above
  refine Classical.byContradiction fun hmiss => ?_
  refine hmiss (Ascent.mem_climbDirect_start h fun n hn => ?_)
  rw [beq_eq_false_iff_ne]
  rintro rfl
  exact hmiss hn

end RoleWiring
