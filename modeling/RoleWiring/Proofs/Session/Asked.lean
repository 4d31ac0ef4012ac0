import Mathlib.Data.Finset.Card
import RoleWiring.Proofs.FirstOccurrences
import RoleWiring.Proofs.RoleIndex.Direct

/-!
# What a session asks its source for

A session that was new and was then asked for types in turn keeps the declarations of those that
have one, and no others. For such a type it asked the source once, when the type was asked for
first; for any other type it asked the source every time.

A look-up wants to know of its source only what it gives for one type. So this holds wherever
declarations come from, also where there is no end of them.

* `lookUp_eq_lookUpBy` — a look-up, with the source as a mere function;
* `Remembers.lookUpBy` — what one more look-up leaves true;
* `remembers_lookUpAll`, `lookUpAll_fst` — what any number of look-ups leave and answer.
-/

namespace RoleWiring

/-- What is entered for a name that was listed is what the function gives, if it gives something. -/
theorem lookup_filterMap_entries [BEq κ] [LawfulBEq κ] [DecidableEq κ] (f : κ → Option α)
    (keys : List κ) (key : κ) :
    (keys.filterMap fun k => (f k).map (k, ·)).lookup key =
      if key ∈ keys then f key else none := by
  induction keys with
  | nil => rfl
  | cons k keys ih =>
    cases hk : f k with
    | none =>
      rw [List.filterMap_cons_none (by rw [hk]; rfl), ih]
      by_cases heq : key = k
      · simp [heq, hk]
      · simp [heq]
    | some value =>
      rw [List.filterMap_cons_some (by rw [hk]; rfl), lookup_entry_cons, ih]
      by_cases heq : key = k
      · simp [heq, hk]
      · simp [heq]

variable {src : Source} {s : Session} {name : String} {d : Declaration} {fault : Fault}
  {load : String → Except Fault Declaration}

namespace Session

/-! ## One look-up -/

/-- Looks up a type where a function loads declarations, from wherever it does. -/
def lookUpBy (load : String → Except Fault Declaration) (name : String) :
    Session → Except Fault Declaration × Session :=
  lookUp (.ofAnswers [(name, load name)]) name

theorem lookUp_ofAnswers (name : String) (answer : Except Fault Declaration) :
    (Source.ofAnswers [(name, answer)]).lookUp name = answer := by
  simp [Source.ofAnswers]

/-- A look-up asks the source for the type itself, and for nothing else. -/
theorem lookUp_eq_lookUpBy (src : Source) : lookUp src = lookUpBy src.lookUp := by
  funext name s
  simp only [lookUpBy, lookUp, lookUpAfresh, lookUp_ofAnswers]

theorem lookUpBy_of_kept (h : s.kept? name = some d) : s.lookUpBy load name = (.ok d, s) := by
  rw [lookUpBy, lookUp, h]

/-- A look-up that fails asks the source and keeps nothing. -/
theorem lookUpBy_of_error (h : s.kept? name = none) (hl : load name = .error fault) :
    s.lookUpBy load name = (.error fault, { s with lookups := s.lookups ++ [name] }) := by
  simp only [lookUpBy, lookUp, h, lookUpAfresh, lookUp_ofAnswers, hl]

/-- A look-up that finds something new asks the source and keeps what it gives. -/
theorem lookUpBy_of_ok (h : s.kept? name = none) (hl : load name = .ok d) :
    s.lookUpBy load name = (.ok d, ⟨s.memory ++ [(name, d)], s.lookups ++ [name]⟩) := by
  have hnone : kept? { s with lookups := s.lookups ++ [name] } name = none := h
  simp only [lookUpBy, lookUp, h, lookUpAfresh, lookUp_ofAnswers, hl, keep, hnone]

/-! ## Look-ups in turn -/

/-- Looks up types in turn. -/
def lookUpAll (load : String → Except Fault Declaration) (names : List String) (s : Session) :
    List (Except Fault Declaration) × Session :=
  inTurn (lookUpBy load) names s

theorem lookUpAll_append_snd (load : String → Except Fault Declaration)
    (first second : List String) (s : Session) :
    (lookUpAll load (first ++ second) s).2 =
      (lookUpAll load second (lookUpAll load first s).2).2 := by
  induction first generalizing s with
  | nil => rfl
  | cons name first ih => exact ih (s.lookUpBy load name).2

theorem lookUpAll_append_fst (load : String → Except Fault Declaration)
    (first second : List String) (s : Session) :
    (lookUpAll load (first ++ second) s).1 =
      (lookUpAll load first s).1 ++ (lookUpAll load second (lookUpAll load first s).2).1 := by
  induction first generalizing s with
  | nil => rfl
  | cons name first ih => exact congrArg (List.cons _) (ih (s.lookUpBy load name).2)

/-- In a source the types are looked up as ever. -/
theorem lookUpAll_cons_snd (src : Source) (name : String) (names : List String) (s : Session) :
    (lookUpAll src.lookUp (name :: names) s).2 =
      (lookUpAll src.lookUp names (s.lookUp src name).2).2 := by
  rw [lookUp_eq_lookUpBy]
  rfl

/-- Looking up any number of types changes no answer of the session. -/
theorem view_lookUpAll (src : Source) (names : List String) (s : Session) :
    (lookUpAll src.lookUp names s).2.view src = s.view src := by
  rw [lookUpAll, ← lookUp_eq_lookUpBy]
  exact view_inTurn (view_lookUp src) names s

/-! ## What is kept and what was asked for -/

/-- The names among these that have a declaration, in the order in which they first occur. -/
def found (load : String → Except Fault Declaration)
    (asked : List String) : List String :=
  (asked.filter fun name => (load name).isOk).eraseDups

/-- The look-ups of names without a declaration. -/
def failed (load : String → Except Fault Declaration)
    (asked : List String) : List String :=
  asked.filter fun name => !(load name).isOk

section Concat

variable (asked : List String)

theorem found_concat_of_error (h : load name = .error fault) :
    found load (asked ++ [name]) = found load asked := by
  rw [found, List.filter_append, List.filter_cons_of_neg (by rw [h]; exact Bool.false_ne_true),
    List.filter_nil, List.append_nil]
  rfl

theorem failed_concat_of_error (h : load name = .error fault) :
    failed load (asked ++ [name]) = failed load asked ++ [name] := by
  rw [failed, List.filter_append, List.filter_cons_of_pos (by rw [h]; rfl), List.filter_nil]
  rfl

theorem found_concat_of_ok (h : load name = .ok d) :
    found load (asked ++ [name]) = found load asked ++ if name ∈ asked then [] else [name] := by
  have hok : (load name).isOk = true := by
    rw [h]
    rfl
  have hlast : [name].filter (fun name => (load name).isOk) = [name] :=
    List.filter_cons_of_pos hok
  rw [found, List.filter_append, hlast, eraseDups_concat]
  simp [found, hok]

theorem failed_concat_of_ok (h : load name = .ok d) :
    failed load (asked ++ [name]) = failed load asked := by
  rw [failed, List.filter_append, List.filter_cons_of_neg (by rw [h]; exact Bool.false_ne_true),
    List.filter_nil, List.append_nil]
  rfl

end Concat

theorem mem_found {asked : List String} :
    name ∈ found load asked ↔ name ∈ asked ∧ (load name).isOk = true := by
  rw [found, List.mem_eraseDups, List.mem_filter]

theorem nodup_found (load : String → Except Fault Declaration)
    (asked : List String) : (found load asked).Nodup :=
  nodup_eraseDups _

/-- The types of these names were looked up, one after the other, in a session that was new. -/
structure Remembers (load : String → Except Fault Declaration)
    (asked : List String) (s : Session) : Prop where
  /-- the declarations that were found are kept -/
  memory : s.memory = (found load asked).filterMap fun name =>
    (load name).toOption.map (name, ·)
  /-- the source was asked once for what it declares, and each time for what it does not -/
  lookups : s.lookups.Perm (found load asked ++ failed load asked)

theorem remembers_empty (load : String → Except Fault Declaration) : Remembers load [] .empty where
  memory := rfl
  lookups := .nil

namespace Remembers

variable {asked : List String}

/-- What is kept is what was asked for and has a declaration. -/
theorem kept?_eq (h : Remembers load asked s) (name : String) :
    s.kept? name = if name ∈ asked then (load name).toOption else none := by
  have hkept : s.kept? name =
      if name ∈ found load asked then (load name).toOption else none := by
    rw [kept?, h.memory]
    exact lookup_filterMap_entries (fun name => (load name).toOption) _ name
  rw [hkept]
  cases hl : load name with
  | error fault => simp [Except.toOption]
  | ok d => simp [mem_found, hl, Except.isOk, Except.toBool]

theorem kept?_eq_some (h : Remembers load asked s) :
    s.kept? name = some d ↔ name ∈ asked ∧ load name = .ok d := by
  rw [h.kept?_eq, Option.ite_none_right_eq_some]
  refine and_congr_right fun _ => ?_
  cases load name <;> simp [Except.toOption]

/-- A look-up that fails asks the source, whatever was asked before. -/
theorem lookUpBy_of_error (h : Remembers load asked s) (hl : load name = .error fault) :
    s.lookUpBy load name = (.error fault, { s with lookups := s.lookups ++ [name] }) := by
  refine Session.lookUpBy_of_error ?_ hl
  rw [h.kept?_eq, hl]
  exact ite_self none

/-- One more look-up leaves what the look-ups with it leave. -/
theorem lookUpBy (h : Remembers load asked s) (name : String) :
    Remembers load (asked ++ [name]) (s.lookUpBy load name).2 := by
  cases hl : load name with
  | error fault =>
    rw [h.lookUpBy_of_error hl]
    refine ⟨?_, ?_⟩
    · rw [found_concat_of_error asked hl]
      exact h.memory
    · rw [found_concat_of_error asked hl, failed_concat_of_error asked hl, ← List.append_assoc]
      exact h.lookups.append_right [name]
  | ok d =>
    have hkept := h.kept?_eq name
    rw [hl] at hkept
    by_cases hasked : name ∈ asked
    · -- it was found when it was asked for first
      have hfound := found_concat_of_ok asked hl
      rw [if_pos hasked, List.append_nil] at hfound
      rw [if_pos hasked] at hkept
      rw [lookUpBy_of_kept hkept]
      refine ⟨?_, ?_⟩
      · rw [hfound]
        exact h.memory
      · rw [hfound, failed_concat_of_ok asked hl]
        exact h.lookups
    · have hfound := found_concat_of_ok asked hl
      rw [if_neg hasked] at hfound hkept
      rw [lookUpBy_of_ok hkept hl]
      refine ⟨?_, ?_⟩
      · rw [hfound, List.filterMap_append, ← h.memory,
          List.filterMap_cons_some (by rw [hl]; rfl), List.filterMap_nil]
      · rw [hfound, failed_concat_of_ok asked hl, List.append_assoc]
        refine (h.lookups.append_right [name]).trans ?_
        rw [List.append_assoc]
        exact List.perm_append_comm.append_left _

/-- A look-up answers what is loaded, whatever was looked up before. -/
theorem lookUpBy_fst (h : Remembers load asked s) (name : String) :
    (s.lookUpBy load name).1 = load name := by
  cases hk : s.kept? name with
  | some d => rw [lookUpBy_of_kept hk, (h.kept?_eq_some.mp hk).2]
  | none =>
    cases hl : load name with
    | error fault => rw [h.lookUpBy_of_error hl]
    | ok d => rw [lookUpBy_of_ok hk hl]

/-- Every name that was found has one entry. -/
theorem map_fst_memory (h : Remembers load asked s) : s.memory.map Prod.fst = found load asked := by
  rw [h.memory, List.map_filterMap]
  refine (List.filterMap_congr fun name hname => ?_).trans List.filterMap_some
  have hok := (mem_found.mp hname).2
  cases hl : load name with
  | error fault =>
    rw [hl] at hok
    cases hok
  | ok d => rfl

/-- There are as many entries as different names that were found. -/
theorem length_memory (h : Remembers load asked s) :
    s.memory.length = (asked.toFinset.filter fun name => (load name).isOk).card := by
  have hset : (found load asked).toFinset =
      asked.toFinset.filter fun name => (load name).isOk := by
    ext name
    rw [List.mem_toFinset, mem_found, Finset.mem_filter, List.mem_toFinset]
  rw [← hset, List.toFinset_card_of_nodup (nodup_found load asked), ← h.map_fst_memory,
    List.length_map]

/-- How often the source was asked for a type: once if it has a declaration, and as often as there
were look-ups if it has none. -/
theorem count_lookups (h : Remembers load asked s) (name : String) :
    s.lookups.count name =
      if (load name).isOk then (if name ∈ asked then 1 else 0) else asked.count name := by
  rw [h.lookups.count_eq, List.count_append, (nodup_found load asked).count]
  cases hok : (load name).isOk with
  | false =>
    have hnot : name ∉ found load asked := by simp [mem_found, hok]
    rw [if_neg hnot, Nat.zero_add, failed, List.count_filter (by rw [hok]; rfl)]
    rfl
  | true =>
    have hnot : name ∉ failed load asked := by simp [failed, hok]
    rw [List.count_eq_zero_of_not_mem hnot]
    simp [mem_found, hok]

/-- How often the source was asked for certain types of which only this one can have a declaration:
once for it and each time for the others. -/
theorem countP_lookups (h : Remembers load asked s) {p : String → Bool} {only : String}
    (honly : ∀ name, p name = true → ((load name).isOk = true ↔ name = only)) :
    s.lookups.countP p =
      (if only ∈ asked ∧ p only = true then 1 else 0) +
        asked.countP fun name => p name && decide (name ≠ only) := by
  have hfailed : (failed load asked).countP p =
      asked.countP fun name => p name && decide (name ≠ only) := by
    rw [failed, List.countP_filter]
    refine List.countP_congr fun name _ => ?_
    simp only [Bool.and_eq_true, Bool.not_eq_true', decide_eq_true_eq, Bool.eq_false_iff]
    exact and_congr_right fun hp => not_congr (honly name hp)
  have hfound : (found load asked).countP p = if only ∈ asked ∧ p only = true then 1 else 0 := by
    by_cases hp : p only = true
    · have hone : (found load asked).countP p = (found load asked).count only := by
        refine List.countP_congr fun name hname => ⟨fun hpn => ?_, fun heq => ?_⟩
        · exact beq_iff_eq.mpr ((honly name hpn).mp (mem_found.mp hname).2)
        · rwa [eq_of_beq heq]
      rw [hone, (nodup_found load asked).count]
      simp [mem_found, hp, (honly only hp).mpr rfl]
    · rw [if_neg fun h => hp h.2, List.countP_eq_zero]
      intro name hname hpn
      exact hp ((honly name hpn).mp (mem_found.mp hname).2 ▸ hpn)
  rw [h.lookups.countP_eq, List.countP_append, hfound, hfailed]

end Remembers

/-- Look-ups in turn leave what each of them leaves. -/
theorem remembers_lookUpAll (load : String → Except Fault Declaration) (names : List String) :
    Remembers load names (lookUpAll load names .empty).2 := by
  induction names using List.reverseRecOn with
  | nil => exact remembers_empty load
  | append_singleton names name ih =>
    rw [lookUpAll_append_snd]
    exact ih.lookUpBy name

/-- Look-ups in turn answer what is loaded. -/
theorem lookUpAll_fst (load : String → Except Fault Declaration) (names : List String) :
    (lookUpAll load names .empty).1 = names.map load := by
  induction names using List.reverseRecOn with
  | nil => rfl
  | append_singleton names name ih =>
    rw [lookUpAll_append_fst, ih, List.map_append]
    exact congrArg (fun answer => names.map load ++ [answer])
      ((remembers_lookUpAll load names).lookUpBy_fst name)

end Session

end RoleWiring
