import Mathlib.Data.List.Perm.Subperm
import RoleWiring.Proofs.Except
import RoleWiring.Proofs.Session.Asked
import RoleWiring.Proofs.Session.Race

/-!
# Look-ups that overlap

Parties that share a session need not wait for each other: look-ups begin while others are under
way, and the steps of all of them follow on each other in any order. Declarations are loaded by a
function here, so no look-up can tell that others are there. But all that find nothing kept load the
type, and a type that has a declaration may be loaded more than once: at least once, and not more
often than it was looked up. A type that has none is loaded for every look-up of it.

* `Balanced.move` — what a step leaves true of the session and of the look-ups under way;
* `Balanced.reckons` — whether a type is kept and how often it was loaded, whenever no look-up of it
  is under way;
* `answer_of_leads` — every look-up answers what is loaded;
* `count_lookups_of_kept` — what is kept is not loaded again.
-/

namespace RoleWiring

open Session

variable {load : String → Except Fault Declaration} {name : String} {s s' : Session}

namespace Session

variable {d : Declaration}

theorem lookups_keep (name : String) (d : Declaration) (s : Session) :
    (s.keep name d).2.lookups = s.lookups := by
  rw [keep]
  cases s.kept? name <;> rfl

/-- Keeping a declaration changes what is kept for no other name. -/
theorem kept?_keep_of_ne {n : String} (h : n ≠ name) :
    (s.keep name d).2.kept? n = s.kept? n := by
  rw [keep]
  cases s.kept? name with
  | some d' => rfl
  | none =>
    refine (kept?_append name n d s).trans ?_
    rw [if_neg h, Option.or_none]

/-- What is kept was kept before, or it is the declaration that is to be kept. -/
theorem kept_or_eq_of_kept?_keep {d' : Declaration}
    (h : (s.keep name d).2.kept? name = some d') : s.kept? name = some d' ∨ d' = d := by
  rw [kept?_keep] at h
  obtain rfl := Option.some.inj h
  rw [keep]
  cases s.kept? name with
  | some d' => exact .inl rfl
  | none => exact .inr rfl

/-- What look-ups of these types leave of one type, once no look-up of it is under way. -/
structure Reckons (load : String → Except Fault Declaration) (asked : List String) (s : Session)
    (name : String) : Prop where
  /-- the type is kept exactly if it was looked up and has a declaration -/
  kept : ∀ d, s.kept? name = some d ↔ name ∈ asked ∧ load name = .ok d
  /-- it was loaded if it was looked up -/
  least : name ∈ asked → 1 ≤ s.lookups.count name
  /-- but at most once for each look-up -/
  most : s.lookups.count name ≤ asked.count name
  /-- and for every look-up if it has no declaration -/
  failed : (load name).isOk = false → s.lookups.count name = asked.count name

/-- The order of the look-ups does not matter. -/
theorem Reckons.perm {asked asked' : List String} (h : Reckons load asked s name)
    (hperm : asked.Perm asked') : Reckons load asked' s name where
  kept := fun d => by rw [← hperm.mem_iff, h.kept]
  least := fun hname => h.least (hperm.mem_iff.mpr hname)
  most := hperm.count_eq name ▸ h.most
  failed := fun hl => hperm.count_eq name ▸ h.failed hl

end Session

/-! ## Steps -/

namespace Call

/-- One step of the look-up of a name where a function loads declarations, from wherever it
does. -/
def stepBy (load : String → Except Fault Declaration) (name : String) :
    Call → Session → (Call ⊕ Except Fault Declaration) × Session :=
  step (.ofAnswers [(name, load name)]) name

/-- A step asks the source for the type itself, and for nothing else. -/
theorem step_eq_stepBy (src : Source) : step src = stepBy src.lookUp := by
  funext name call s
  cases call with
  | consult => rfl
  | ask => simp only [stepBy, step, lookUpAfresh, lookUp_ofAnswers]
  | keep d => rfl

/-- The look-up may still load its type. -/
def mayLoad : Call → Bool
  | keep _ => false
  | _ => true

/-- What is left of a look-up after a step. -/
def left (name : String) : Call ⊕ Except Fault Declaration → List (String × Call)
  | .inl call => [(name, call)]
  | .inr _ => []

/-- How many of these look-ups may still load a type. -/
def pending (underWay : List (String × Call)) (name : String) : Nat :=
  underWay.countP fun e => e.1 = name ∧ e.2.mayLoad

theorem pending_append (first second : List (String × Call)) (name : String) :
    pending (first ++ second) name = pending first name + pending second name :=
  List.countP_append

theorem pending_cons (n : String) (call : Call) (underWay : List (String × Call)) (name : String) :
    pending ((n, call) :: underWay) name = pending [(n, call)] name + pending underWay name :=
  pending_append [(n, call)] underWay name

/-- All that a step of a look-up does, where a function loads declarations. -/
abbrev MoveBy (load : String → Except Fault Declaration) (name : String) :=
  Move (.ofAnswers [(name, load name)]) name

theorem moveBy_stepBy (load : String → Except Fault Declaration) (name : String) (s : Session)
    (call : Call) :
    MoveBy load name s call (call.stepBy load name s).1 (call.stepBy load name s).2 :=
  move_step _ name s call

variable {call : Call} {result : Call ⊕ Except Fault Declaration}

theorem MoveBy.lookups (h : MoveBy load name s call result s') : s.lookups <+: s'.lookups := by
  cases h with
  | found => exact List.prefix_rfl
  | missed => exact List.prefix_rfl
  | failed => exact List.prefix_append _ _
  | loaded => exact List.prefix_append _ _
  | kept d => rw [lookups_keep]

/-- What is kept after a step was kept before, or the look-up was about to keep it. -/
theorem MoveBy.kept_or_kept (h : MoveBy load name s call result s') {n : String} {d : Declaration}
    (hk : s'.kept? n = some d) : s.kept? n = some d ∨ n = name ∧ call = .keep d := by
  cases h with
  | found => exact .inl hk
  | missed => exact .inl hk
  | failed => exact .inl hk
  | loaded => exact .inl hk
  | kept d' =>
    by_cases hn : n = name
    · subst hn
      rcases kept_or_eq_of_kept?_keep hk with hk | rfl
      · exact .inl hk
      · exact .inr ⟨rfl, rfl⟩
    · exact .inl ((kept?_keep_of_ne hn).symm.trans hk)

/-- What a look-up is about to keep after a step was loaded by the step. -/
theorem MoveBy.loaded_of_left (h : MoveBy load name s call result s') {n : String}
    {d : Declaration} (hleft : (n, keep d) ∈ left name result) :
    load n = .ok d ∧ n ∈ s'.lookups := by
  cases h with
  | found => cases hleft
  | missed => cases List.mem_singleton.mp hleft
  | failed => cases hleft
  | loaded hl =>
    cases List.mem_singleton.mp hleft
    have hload : load name = .ok d := (lookUp_ofAnswers name (load name)).symm.trans hl
    exact ⟨hload, List.mem_append_right _ (List.mem_singleton.mpr rfl)⟩
  | kept => cases hleft

/-- A step loads a type at most once, and the look-up does not load it again. -/
theorem MoveBy.count_le (h : MoveBy load name s call result s') (n : String) :
    s'.lookups.count n + pending (left name result) n ≤
      s.lookups.count n + pending [(name, call)] n := by
  cases h with
  | found => exact Nat.add_le_add_left (Nat.zero_le _) _
  | missed => exact Nat.le_refl _
  | failed => simp [lookUpAfresh, left, pending, mayLoad, List.count_append, List.count_singleton]
  | loaded => simp [lookUpAfresh, left, pending, mayLoad, List.count_append, List.count_singleton]
  | kept d => simp [lookups_keep, left, pending, mayLoad]

/-- A look-up that finds nothing kept loads its type. -/
theorem MoveBy.count_eq (h : MoveBy load name s call result s') {n : String}
    (hn : s.kept? n = none) :
    s'.lookups.count n + pending (left name result) n =
      s.lookups.count n + pending [(name, call)] n := by
  cases h with
  | found hk =>
    have hne : name ≠ n := by
      rintro rfl
      cases hk.symm.trans hn
    simp [left, pending, hne]
  | missed => rfl
  | failed => simp [lookUpAfresh, left, pending, mayLoad, List.count_append, List.count_singleton]
  | loaded => simp [lookUpAfresh, left, pending, mayLoad, List.count_append, List.count_singleton]
  | kept d => simp [lookups_keep, left, pending, mayLoad]

end Call

open Call

/-- Look-ups in a session that overlap. -/
structure Traffic where
  /-- the types that are being looked up, and how far each look-up has come -/
  underWay : List (String × Call)
  /-- the session -/
  session : Session
  /-- the types that were looked up so far, those that are being looked up included -/
  asked : List String

namespace Traffic

/-- Nothing was looked up yet. -/
def start : Traffic :=
  ⟨[], .empty, []⟩

section Steps

variable (load)

/-- Some look-up begins, or one that is under way takes its next step. -/
inductive Step : Traffic → Traffic → Prop
  /-- a look-up begins -/
  | began {before after : List (String × Call)} {s : Session} {asked : List String}
      (name : String) :
    Step ⟨before ++ after, s, asked⟩ ⟨before ++ (name, consult) :: after, s, asked ++ [name]⟩
  /-- a look-up goes on, or gives its answer -/
  | moved {before after : List (String × Call)} {s : Session} {asked : List String}
      (name : String) (call : Call) :
    Step ⟨before ++ (name, call) :: after, s, asked⟩
      ⟨before ++ (left name (call.stepBy load name s).1 ++ after), (call.stepBy load name s).2,
        asked⟩

/-- One traffic leads to another by steps of its look-ups, in any order. -/
abbrev Leads : Traffic → Traffic → Prop :=
  Relation.ReflTransGen (Step load)

end Steps

/-! ## What stays true -/

/-- What is true of all traffic. -/
structure Balanced (load : String → Except Fault Declaration) (t : Traffic) : Prop where
  /-- nothing is kept twice -/
  nodup : (t.session.memory.map Prod.fst).Nodup
  /-- what is kept was loaded -/
  kept : ∀ name d, t.session.kept? name = some d → load name = .ok d ∧ name ∈ t.session.lookups
  /-- so was what a look-up is about to keep -/
  carried : ∀ name d, (name, Call.keep d) ∈ t.underWay →
    load name = .ok d ∧ name ∈ t.session.lookups
  /-- what was looked up and has a declaration is kept, or being looked up -/
  settled : ∀ name ∈ t.asked, (load name).isOk = true →
    (t.session.kept? name).isSome = true ∨ ∃ call, (name, call) ∈ t.underWay
  /-- a type was loaded and may still be loaded at most once for each look-up of it -/
  most : ∀ name, t.session.lookups.count name + pending t.underWay name ≤ t.asked.count name
  /-- and exactly so often where it has no declaration -/
  failed : ∀ name, (load name).isOk = false →
    t.session.lookups.count name + pending t.underWay name = t.asked.count name

namespace Balanced

variable {underWay underWay' : List (String × Call)} {asked : List String} {call : Call}
  {result : Call ⊕ Except Fault Declaration}

theorem start : Balanced load start where
  nodup := List.nodup_nil
  kept := fun _ _ h => by cases h
  carried := fun _ _ h => by cases h
  settled := fun _ h => by cases h
  most := fun _ => Nat.le_refl 0
  failed := fun _ _ => rfl

/-- The order of the look-ups under way does not matter. -/
theorem perm (h : Balanced load ⟨underWay, s, asked⟩) (hperm : underWay.Perm underWay') :
    Balanced load ⟨underWay', s, asked⟩ where
  nodup := h.nodup
  kept := h.kept
  carried := fun name d hd => h.carried name d (hperm.mem_iff.mpr hd)
  settled := fun name hname hok =>
    (h.settled name hname hok).imp_right fun ⟨call, hcall⟩ => ⟨call, hperm.mem_iff.mp hcall⟩
  most := fun name => by
    rw [pending, ← hperm.countP_eq]
    exact h.most name
  failed := fun name hl => by
    rw [pending, ← hperm.countP_eq]
    exact h.failed name hl

/-- A look-up begins. -/
theorem began (h : Balanced load ⟨underWay, s, asked⟩) (name : String) :
    Balanced load ⟨(name, consult) :: underWay, s, asked ++ [name]⟩ where
  nodup := h.nodup
  kept := h.kept
  carried := fun n d hd => by
    rcases List.mem_cons.mp hd with heq | hd
    · cases heq
    · exact h.carried n d hd
  settled := fun n hn hok => by
    rcases List.mem_append.mp hn with hn | hn
    · exact (h.settled n hn hok).imp_right fun ⟨call, hcall⟩ =>
        ⟨call, List.mem_cons_of_mem _ hcall⟩
    · exact .inr ⟨consult, List.mem_singleton.mp hn ▸ List.mem_cons_self ..⟩
  most := fun n => by
    have hmost := h.most n
    by_cases hn : name = n <;>
      simp [pending, mayLoad, List.count_append, hn] at hmost ⊢ <;> omega
  failed := fun n hl => by
    have hfailed := h.failed n hl
    by_cases hn : name = n <;>
      simp [pending, mayLoad, List.count_append, hn] at hfailed ⊢ <;> omega

/-- What has no declaration is not kept. -/
theorem kept?_eq_none {t : Traffic} (h : Balanced load t) (hl : (load name).isOk = false) :
    t.session.kept? name = none := by
  cases hk : t.session.kept? name with
  | none => rfl
  | some d =>
    rw [(h.kept name d hk).1] at hl
    cases hl

/-- A look-up that is done answers what is loaded. -/
theorem answer {answer : Except Fault Declaration}
    (h : Balanced load ⟨(name, call) :: underWay, s, asked⟩)
    (hmove : MoveBy load name s call (.inr answer) s') : answer = load name := by
  cases hmove with
  | found hk => exact (h.kept name _ hk).1.symm
  | failed hl => exact hl.symm.trans (lookUp_ofAnswers name (load name))
  | kept d =>
    have hkept : (s.keep name d).2.kept? name = some _ := kept?_keep
    rcases kept_or_eq_of_kept?_keep hkept with hk | heq
    · exact (h.kept name _ hk).1.symm
    · rw [heq]
      exact (h.carried name d (List.mem_cons_self ..)).1.symm

/-- A step of a look-up leaves true what is true of all traffic. -/
theorem move (h : Balanced load ⟨(name, call) :: underWay, s, asked⟩)
    (hmove : MoveBy load name s call result s') :
    Balanced load ⟨left name result ++ underWay, s', asked⟩ where
  nodup := hmove.nodup h.nodup
  kept := by
    intro n d hk
    rcases hmove.kept_or_kept hk with hold | ⟨rfl, rfl⟩
    · exact (h.kept n d hold).imp_right fun hn => hmove.lookups.subset hn
    · exact (h.carried n d (List.mem_cons_self ..)).imp_right fun hn => hmove.lookups.subset hn
  carried := by
    intro n d hd
    rcases List.mem_append.mp hd with hleft | hrest
    · exact hmove.loaded_of_left hleft
    · exact (h.carried n d (List.mem_cons_of_mem _ hrest)).imp_right fun hn =>
        hmove.lookups.subset hn
  settled := by
    intro n hn hok
    rcases h.settled n hn hok with hk | ⟨other, hother⟩
    · obtain ⟨d, hk⟩ := Option.isSome_iff_exists.mp hk
      exact .inl (Option.isSome_iff_exists.mpr ⟨d, kept?_of_isPrefix hmove.isPrefix hk⟩)
    · rcases List.mem_cons.mp hother with heq | hother
      · cases heq
        -- the look-up that takes the step goes on, or has found the declaration
        rcases result with call' | answer
        · exact .inr ⟨call', List.mem_append_left _ (List.mem_singleton.mpr rfl)⟩
        · obtain ⟨d, hl⟩ := isOk_iff_exists.mp hok
          rw [h.answer hmove, hl] at hmove
          exact .inl (Option.isSome_iff_exists.mpr ⟨d, hmove.kept?⟩)
      · exact .inr ⟨other, List.mem_append_right _ hother⟩
  most := by
    intro n
    have hmost := h.most n
    have hcount := hmove.count_le n
    dsimp only at hmost ⊢
    rw [pending_cons] at hmost
    rw [pending_append]
    omega
  failed := by
    intro n hl
    have hfailed := h.failed n hl
    have hcount := hmove.count_eq (h.kept?_eq_none hl)
    dsimp only at hfailed ⊢
    rw [pending_cons] at hfailed
    rw [pending_append]
    omega

/-- A step leaves true what is true of all traffic. -/
theorem step {t t' : Traffic} (h : Balanced load t) (hstep : Step load t t') :
    Balanced load t' := by
  cases hstep with
  | began name => exact (h.began name).perm List.perm_middle.symm
  | @moved before after s asked name call =>
    refine ((h.perm List.perm_middle).move (call.moveBy_stepBy load name s)).perm ?_
    rw [← List.append_assoc, ← List.append_assoc]
    exact List.perm_append_comm.append_right after

/-- And so do any number of steps. -/
theorem leads {t t' : Traffic} (h : Balanced load t) (hleads : Leads load t t') :
    Balanced load t' := by
  induction hleads with
  | refl => exact h
  | tail _ hstep ih => exact ih.step hstep

/-- What is left of a type when no look-up of it is under way. -/
theorem reckons {t : Traffic} (h : Balanced load t)
    (hdone : ∀ call, (name, call) ∉ t.underWay) : Reckons load t.asked t.session name := by
  have hpending : pending t.underWay name = 0 := by
    refine List.countP_eq_zero.mpr ?_
    rintro ⟨n, call⟩ hcall hn
    obtain ⟨rfl, -⟩ := of_decide_eq_true hn
    exact hdone call hcall
  have hmost := h.most name
  have hfailed := h.failed name
  rw [hpending, Nat.add_zero] at hmost hfailed
  have hsome : name ∈ t.asked → (load name).isOk = true → (t.session.kept? name).isSome = true :=
    fun hname hok => (h.settled name hname hok).resolve_right fun ⟨call, hcall⟩ => hdone call hcall
  refine ⟨fun d => ⟨fun hk => ?_, fun ⟨hname, hl⟩ => ?_⟩, fun hname => ?_, hmost, hfailed⟩
  · obtain ⟨hl, hname⟩ := h.kept name d hk
    exact ⟨List.count_pos_iff.mp (Nat.lt_of_lt_of_le (List.count_pos_iff.mpr hname) hmost), hl⟩
  · obtain ⟨d', hk⟩ := Option.isSome_iff_exists.mp (hsome hname (isOk_iff_exists.mpr ⟨d, hl⟩))
    cases (h.kept name d' hk).1.symm.trans hl
    exact hk
  · cases hok : (load name).isOk with
    | true =>
      obtain ⟨d, hk⟩ := Option.isSome_iff_exists.mp (hsome hname hok)
      exact List.count_pos_iff.mpr (h.kept name d hk).2
    | false =>
      rw [hfailed hok]
      exact List.count_pos_iff.mpr hname

/-- When no look-up is under way there are as many entries as different types that were looked up
and have a declaration. -/
theorem length_memory (h : Balanced load ⟨[], s, asked⟩) :
    s.memory.length = (asked.toFinset.filter fun name => (load name).isOk).card := by
  have hset : (s.memory.map Prod.fst).toFinset =
      asked.toFinset.filter fun name => (load name).isOk := by
    ext name
    have hreckons : Reckons load asked s name := h.reckons fun _ hcall => by cases hcall
    rw [List.mem_toFinset, Finset.mem_filter, List.mem_toFinset, ← lookup_isSome_iff,
      Option.isSome_iff_exists, isOk_iff_exists]
    exact (exists_congr hreckons.kept).trans exists_and_left
  rw [← hset, List.toFinset_card_of_nodup h.nodup, List.length_map]

end Balanced

/-- However look-ups overlap, each of them answers what is loaded. -/
theorem answer_of_leads {t : Traffic} (h : Leads load start t) {call : Call}
    {answer : Except Fault Declaration} (hcall : (name, call) ∈ t.underWay)
    (hstep : call.stepBy load name t.session = (.inr answer, s')) : answer = load name := by
  obtain ⟨underWay, s, asked⟩ := t
  obtain ⟨before, after, rfl⟩ := List.append_of_mem hcall
  have hmove := call.moveBy_stepBy load name s
  rw [show call.stepBy load name s = _ from hstep] at hmove
  exact ((Balanced.start.leads h).perm List.perm_middle).answer hmove

section Kept

variable {t t' : Traffic} {d : Declaration}

/-- A step loads no type that is kept, unless a look-up was about to load it before. -/
theorem Step.of_kept (h : Step load t t') (hk : t.session.kept? name = some d)
    (hask : (name, ask) ∉ t.underWay) :
    t'.session.kept? name = some d ∧ (name, ask) ∉ t'.underWay ∧
      t'.session.lookups.count name = t.session.lookups.count name := by
  cases h with
  | @began before after s asked n =>
    refine ⟨hk, fun hmem => hask ?_, rfl⟩
    rcases List.mem_append.mp hmem with hbefore | hrest
    · exact List.mem_append_left _ hbefore
    · rcases List.mem_cons.mp hrest with heq | hafter
      · cases heq
      · exact List.mem_append_right _ hafter
  | @moved before after s asked n call =>
    have hmove := call.moveBy_stepBy load n s
    have hne : call = ask → n ≠ name := by
      rintro rfl rfl
      exact hask (List.mem_append_right _ (List.mem_cons_self ..))
    dsimp only at hk hask ⊢
    generalize call.stepBy load n s = next at hmove ⊢
    obtain ⟨result, s'⟩ := next
    refine ⟨kept?_of_isPrefix hmove.isPrefix hk, fun hmem => ?_, ?_⟩
    · rcases List.mem_append.mp hmem with hbefore | hrest
      · exact hask (List.mem_append_left _ hbefore)
      · rcases List.mem_append.mp hrest with hleft | hafter
        · -- only a look-up that finds nothing kept goes on to load
          cases hmove with
          | found => cases hleft
          | missed hn =>
            cases List.mem_singleton.mp hleft
            cases hn.symm.trans hk
          | failed => cases hleft
          | loaded => cases List.mem_singleton.mp hleft
          | kept => cases hleft
        · exact hask (List.mem_append_right _ (List.mem_cons_of_mem _ hafter))
    · cases hmove with
      | found => rfl
      | missed => rfl
      | failed => simp [List.count_append, hne rfl]
      | loaded => simp [List.count_append, hne rfl]
      | kept d => rw [lookups_keep]

/-- What is kept is not loaded any more, unless a look-up is about to load it. -/
theorem count_lookups_of_kept (h : Leads load t t') (hk : t.session.kept? name = some d)
    (hask : (name, ask) ∉ t.underWay) :
    t'.session.lookups.count name = t.session.lookups.count name := by
  have hstays : t'.session.kept? name = some d ∧ (name, ask) ∉ t'.underWay ∧
      t'.session.lookups.count name = t.session.lookups.count name := by
    induction h with
    | refl => exact ⟨hk, hask, rfl⟩
    | tail _ hstep ih =>
      obtain ⟨hk', hask', hcount⟩ := ih
      obtain ⟨hk'', hask'', hcount'⟩ := hstep.of_kept hk' hask'
      exact ⟨hk'', hask'', hcount'.trans hcount⟩
  exact hstays.2.2

end Kept

section Runs

variable (load)

/-- Any look-ups may begin at any time. -/
theorem leads_began (names : List String) (before after : List (String × Call)) (s : Session)
    (asked : List String) :
    Leads load ⟨before ++ after, s, asked⟩
      ⟨before ++ (names.map (·, consult) ++ after), s, asked ++ names⟩ := by
  induction names generalizing before asked with
  | nil =>
    rw [List.append_nil]
    exact .refl
  | cons name names ih =>
    have hrest := ih (before ++ [(name, consult)]) (asked ++ [name])
    simp only [List.append_assoc, List.singleton_append] at hrest
    exact .head (.began name) hrest

/-- A look-up that is left alone, from when it begins until it is done. -/
theorem leads_lookUpBy (name : String) (s : Session) (asked : List String) :
    Leads load ⟨[], s, asked⟩ ⟨[], (s.lookUpBy load name).2, asked ++ [name]⟩ := by
  have hmoved : ∀ (call : Call) (s : Session) result s',
      call.step (.ofAnswers [(name, load name)]) name s = (result, s') →
      Step load ⟨[(name, call)], s, asked ++ [name]⟩ ⟨left name result, s', asked ++ [name]⟩ := by
    intro call s result s' heq
    have hstep := @Step.moved load [] [] s (asked ++ [name]) name call
    rw [stepBy, heq, List.append_nil] at hstep
    exact hstep
  have hbegan : Leads load ⟨[], s, asked⟩ ⟨[(name, consult)], s, asked ++ [name]⟩ :=
    .single (@Step.began load [] [] s asked name)
  cases hk : s.kept? name with
  | some d =>
    rw [lookUpBy_of_kept hk]
    exact hbegan.tail (hmoved _ _ _ _ (step_consult_of_kept hk))
  | none =>
    have hasking := hbegan.tail (hmoved _ _ _ _ (step_consult_of_not_kept hk))
    cases hl : load name with
    | error fault =>
      have hgiven := (lookUp_ofAnswers name (load name)).trans hl
      rw [lookUpBy_of_error hk hl]
      exact hasking.tail (hmoved _ _ _ _ (step_ask_of_error hgiven))
    | ok d =>
      have hgiven := (lookUp_ofAnswers name (load name)).trans hl
      have hnone : kept? { s with lookups := s.lookups ++ [name] } name = none := hk
      have hkept := hmoved (.keep d) { s with lookups := s.lookups ++ [name] } _ _ step_keep
      rw [Session.keep, hnone] at hkept
      rw [lookUpBy_of_ok hk hl]
      exact (hasking.tail (hmoved _ _ _ _ (step_ask_of_ok hgiven))).tail hkept

/-- Look-ups that wait for each other are traffic too. -/
theorem leads_lookUpAll (names : List String) (s : Session) (asked : List String) :
    Leads load ⟨[], s, asked⟩ ⟨[], (lookUpAll load names s).2, asked ++ names⟩ := by
  induction names generalizing s asked with
  | nil =>
    rw [List.append_nil]
    exact .refl
  | cons name names ih =>
    have hrest := ih (s.lookUpBy load name).2 (asked ++ [name])
    rw [List.append_assoc, List.singleton_append] at hrest
    exact (leads_lookUpBy load name s asked).trans hrest

end Runs

end Traffic

end RoleWiring
