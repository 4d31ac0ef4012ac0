import Mathlib.Data.List.TakeWhile
import RoleWiring.Proofs.Ascent.BreadthFirst
import RoleWiring.Proofs.Session.Uses

/-!
# What a walk loads

A walk looks up a type only when it goes on past it. So after some steps it has loaded all names
that it gave but the last one, in their order, apart from those whose declarations were kept
already. A search for one type loads nothing from that type on.

* `lookups_lookUpAll` — what look-ups of different names load;
* `steps_snd` — the look-ups that the first steps of a walk are;
* `take_eq` — and what these steps give;
* `filter_climbDirect` — the look-ups that a walk is that stops;
* `walk_lookups` — what is loaded, for walks and searches in any session.
-/

namespace RoleWiring

variable {src : Source} {s : Session} {name : String}

/-! ## Look-ups of different names -/

namespace Session

variable {load : String → Except Fault Declaration}

/-- The names among these for which nothing is kept. -/
def unkept (s : Session) (names : List String) : List String :=
  names.filter fun name => (s.kept? name).isNone

/-- A look-up keeps nothing for other names. -/
theorem kept?_lookUpBy_of_ne {n : String} (h : n ≠ name) :
    (s.lookUpBy load name).2.kept? n = s.kept? n := by
  cases hk : s.kept? name with
  | some d => rw [lookUpBy_of_kept hk]
  | none =>
    cases hl : load name with
    | error fault =>
      rw [lookUpBy_of_error hk hl]
      rfl
    | ok d =>
      rw [lookUpBy_of_ok hk hl]
      refine (kept?_append name n d s).trans ?_
      rw [if_neg h, Option.or_none]

/-- A look-up loads the type if nothing is kept for it. -/
theorem lookups_lookUpBy (load : String → Except Fault Declaration) (name : String) (s : Session) :
    (s.lookUpBy load name).2.lookups = s.lookups ++ s.unkept [name] := by
  cases hk : s.kept? name with
  | some d =>
    rw [lookUpBy_of_kept hk, unkept, List.filter_cons_of_neg (by rw [hk]; exact Bool.false_ne_true),
      List.filter_nil, List.append_nil]
  | none =>
    rw [unkept, List.filter_cons_of_pos (by rw [hk]; rfl), List.filter_nil]
    cases hl : load name with
    | error fault => rw [lookUpBy_of_error hk hl]
    | ok d => rw [lookUpBy_of_ok hk hl]

/-- Look-ups of different names load those for which nothing was kept, in their order. -/
theorem lookups_lookUpAll {names : List String} (h : names.Nodup) (s : Session) :
    (lookUpAll load names s).2.lookups = s.lookups ++ s.unkept names := by
  induction names generalizing s with
  | nil => exact (List.append_nil _).symm
  | cons name names ih =>
    obtain ⟨hname, hnames⟩ := List.nodup_cons.mp h
    have hsame : (s.lookUpBy load name).2.unkept names = s.unkept names := by
      refine List.filter_congr fun n hn => ?_
      rw [kept?_lookUpBy_of_ne (by
        rintro rfl
        exact hname hn)]
    show (lookUpAll load names (s.lookUpBy load name).2).2.lookups = _
    rw [ih hnames, hsame, lookups_lookUpBy, List.append_assoc, unkept, unkept, unkept,
      ← List.filter_append, List.singleton_append]

end Session

open Session

namespace Ascent

/-! ## Steps -/

/-- A walk and its session after the next `n` steps. -/
def steps (src : Source) : Nat → Ascent → Session → Ascent × Session
  | 0, w, s => (w, s)
  | n + 1, w, s => steps src n (w.next src s).2.1 (w.next src s).2.2

/-- The next steps of a walk look up the last name given, if there is one, and then what they give
but the last of it. -/
theorem steps_snd (n : Nat) (w : Ascent) (s : Session) :
    (steps src n w s).2 =
      (lookUpAll src.lookUp ((w.last.toList ++ w.climbDirect (s.view src) fun _ => false).take
        (n + w.last.toList.length - 1)) s).2 := by
  induction n generalizing w s with
  | zero => cases hlast : w.last <;> rfl
  | succ n ih =>
    have hnext := next_eq src w s
    rw [steps, ih, next_snd, view_lookUpAll]
    cases hd : w.nextDirect (s.view src) with
    | none =>
      rw [hd] at hnext
      have hwhole : w.last.toList.take (n + 1 + w.last.toList.length - 1) = w.last.toList :=
        List.take_of_length_le (by omega)
      rw [hnext, climbDirect_of_none hd, List.append_nil, hwhole]
      dsimp only
      rw [last_lookAboveDirect, climbDirect_of_none (nextDirect_of_over hd), Option.toList_none,
        List.append_nil, List.take_nil]
      rfl
    | some step =>
      obtain ⟨given, w'⟩ := step
      obtain ⟨-, -, hlast⟩ := nextDirect_eq_some hd
      rw [hd] at hnext
      rw [hnext, climbDirect_of_some hd, if_neg Bool.false_ne_true, hlast, ← lookUpAll_append_snd]
      have hlength : n + 1 + w.last.toList.length - 1 = w.last.toList.length + n := by omega
      rw [hlength, List.take_length_add_append]
      rfl

/-- Taking steps gives what the walk gives first, and leaves the session that these steps leave. -/
theorem take_eq (src : Source) (n : Nat) (w : Ascent) (s : Session) :
    take src n w s =
      ((w.climbDirect (s.view src) fun _ => false).take n, (steps src n w s).2) := by
  induction n generalizing w s with
  | zero => rfl
  | succ n ih =>
    have hnext := next_eq src w s
    have hview := view_next src w s
    cases hd : w.nextDirect (s.view src) with
    | none =>
      rw [hd] at hnext
      -- a walk that is over looks up nothing more
      have hover : (steps src n (w.lookAboveDirect (s.view src)) (w.lookAbove src s).2).2 =
          (w.lookAbove src s).2 := by
        rw [steps_snd, view_lookAbove, last_lookAboveDirect,
          climbDirect_of_none (nextDirect_of_over hd), Option.toList_none, List.append_nil,
          List.take_nil]
        rfl
      rw [take, steps, hnext, climbDirect_of_none hd, List.take_nil, hover]
    | some step =>
      obtain ⟨given, w'⟩ := step
      rw [hd] at hnext
      rw [hnext] at hview
      rw [take, steps, hnext, climbDirect_of_some hd, if_neg Bool.false_ne_true,
        List.take_succ_cons]
      dsimp only
      rw [ih, hview]

/-! ## Searches -/

/-- What a walk goes on past is what a walk that is not stopped gives before the first name where
it was to stop. -/
theorem filter_climbDirect (src : Source) (stop : String → Bool) (w : Ascent) :
    (w.climbDirect src stop).filter (fun name => !stop name) =
      (w.climbDirect src fun _ => false).takeWhile fun name => !stop name := by
  fun_induction climbDirect src stop w with
  | case1 w hnext => rw [climbDirect_of_none hnext, List.filter_nil, List.takeWhile_nil]
  | case2 w name w' hnext hstop =>
    rw [climbDirect_of_some hnext, if_neg Bool.false_ne_true,
      List.filter_cons_of_neg (by simp [hstop]), List.takeWhile_cons_of_neg (by simp [hstop]),
      List.filter_nil]
  | case3 w name w' hnext hstop ih =>
    rw [climbDirect_of_some hnext, if_neg Bool.false_ne_true,
      List.filter_cons_of_pos (by simp [hstop]), List.takeWhile_cons_of_pos (by simp [hstop]), ih]

end Ascent

/-- A search for a type looks up what a walk gives before that type. -/
theorem isSubtype_snd (src : Source) (name target : String) (s : Session) :
    (isSubtype src name target s).2 =
      (lookUpAll src.lookUp
        ((Ascent.namesAbove (s.view src) name).takeWhile fun x => !x == target) s).2 := by
  show ((Ascent.start name).climb src (· == target) s).2 = _
  rw [Ascent.climb_snd, Ascent.asks, Ascent.filter_climbDirect]
  rfl

/-- A search finds what a walk gives. -/
theorem isSubtype_fst_iff {target : String} :
    (isSubtype src name target s).1 = true ↔ target ∈ Ascent.namesAbove (s.view src) name := by
  rw [isSubtype_fst, isSubtypeDirect_iff, Ascent.mem_namesAbove]

/-- However a session was used before, the first steps of a walk give its first names, none twice.
They load these names but the last one, and after the end of the walk all of them: each once, in
the order of the walk, and only where nothing was kept. A search that finds its target has loaded
what comes before the target in the walk and nothing from it on; a search that does not find it has
loaded the whole walk. -/
theorem walk_lookups (src : Source) (s : Session) (name : String) :
    (allAbove src name s).1.Nodup ∧
      (∀ n, (Ascent.start name).take src n s =
        ((allAbove src name s).1.take n, ((Ascent.start name).steps src n s).2)) ∧
      (∀ n, ((Ascent.start name).steps src (n + 1) s).2.lookups =
        s.lookups ++ s.unkept ((allAbove src name s).1.take n)) ∧
      ∀ target,
        ((isSubtype src name target s).1 = true ∧
            ∃ before after, (allAbove src name s).1 = before ++ target :: after ∧
              (isSubtype src name target s).2.lookups = s.lookups ++ s.unkept before) ∨
          ((isSubtype src name target s).1 = false ∧ target ∉ (allAbove src name s).1 ∧
            (isSubtype src name target s).2.lookups =
              s.lookups ++ s.unkept (allAbove src name s).1) := by
  have hnames : (allAbove src name s).1 = Ascent.namesAbove (s.view src) name :=
    Ascent.climb_fst src (fun _ => false) (Ascent.start name) s
  have hnodup := Ascent.nodup_namesAbove (s.view src) name
  rw [hnames]
  refine ⟨hnodup, fun n => Ascent.take_eq src n _ s, fun n => ?_, fun target => ?_⟩
  · rw [Ascent.steps_snd]
    exact lookups_lookUpAll (hnodup.sublist (List.take_sublist _ _)) s
  · rw [isSubtype_snd, lookups_lookUpAll (hnodup.sublist (List.takeWhile_sublist _))]
    by_cases hmem : target ∈ Ascent.namesAbove (s.view src) name
    · refine .inl ⟨isSubtype_fst_iff.mpr hmem, ?_⟩
      obtain ⟨before, after, hwalk⟩ := List.append_of_mem hmem
      refine ⟨before, after, hwalk, ?_⟩
      -- no name stands twice, so the walk has the target only there
      have hbefore : ∀ x ∈ before, (!x == target) = true := by
        intro x hx
        rw [hwalk, List.nodup_append] at hnodup
        simpa using hnodup.2.2 x hx target (List.mem_cons_self ..)
      rw [hwalk, List.takeWhile_append_of_pos hbefore, List.takeWhile_cons_of_neg (by simp),
        List.append_nil]
    · refine .inr ⟨Bool.eq_false_iff.mpr (mt isSubtype_fst_iff.mp hmem), hmem, ?_⟩
      rw [List.takeWhile_eq_self_iff.mpr]
      intro x hx
      simpa using fun heq : x = target => hmem (heq ▸ hx)

end RoleWiring
