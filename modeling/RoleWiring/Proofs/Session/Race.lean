import Mathlib.Data.List.Nodup
import Mathlib.Data.List.Perm.Subperm
import Mathlib.Logic.Function.Basic
import Mathlib.Logic.Relation
import RoleWiring.Proofs.Session.Call

/-!
# Look-ups that race for a session

Any number of look-ups share a session that held nothing at first, and the source need not be a
fixed one: asked twice for a name, it may give two declarations, or a declaration once and
a fault the next time. So every step is taken with a source of its own, and what the sources
gave is written down.

* `Sound.step` — what a step leaves true of the session and of all look-ups;
* `kept_of_leads` — what is kept stays as it is, through all later steps;
* `race_agrees` — look-ups of one name that succeed give one declaration.
-/

namespace RoleWiring

namespace Session

variable {name : String} {d : Declaration} {s : Session}

/-! ## Keeping a declaration -/

/-- What keeping a declaration gives is kept from then on. -/
theorem kept?_keep : (s.keep name d).2.kept? name = some (s.keep name d).1 := by
  unfold keep
  cases hk : s.kept? name with
  | some d' => exact hk
  | none =>
    have happend := kept?_append name name d s
    rw [hk, if_pos rfl] at happend
    exact happend

/-- Keeping a declaration adds it at the end, unless something is kept for the name already. -/
theorem memory_keep (name : String) (d : Declaration) (s : Session) :
    (s.keep name d).2.memory = s.memory ∨
      s.kept? name = none ∧ (s.keep name d).2.memory = s.memory ++ [(name, d)] := by
  unfold keep
  cases hk : s.kept? name with
  | some d' => exact .inl rfl
  | none => exact .inr ⟨rfl, rfl⟩

/-- A name for which nothing is kept was not entered. -/
theorem not_mem_memory_of_kept? (h : s.kept? name = none) : name ∉ s.memory.map Prod.fst := by
  intro hmem
  have hsome : (s.kept? name).isSome := lookup_isSome_iff.mpr hmem
  rw [h] at hsome
  cases hsome

/-- What is kept is not touched by further entries. -/
theorem kept?_of_isPrefix {s' : Session} (h : s.memory <+: s'.memory) (hk : s.kept? name = some d) :
    s'.kept? name = some d := by
  obtain ⟨later, hlater⟩ := h
  have hfound : s.memory.lookup name = some d := hk
  show s'.memory.lookup name = some d
  rw [← hlater, lookup_append, hfound]
  rfl

end Session

namespace Call

variable {src : Source} {name : String} {s s' : Session} {call : Call} {d : Declaration}
  {result : Call ⊕ Except Fault Declaration}

/-- What the source gives when the look-up of a name takes its next step. -/
def given (src : Source) (name : String) : Call → List (String × Except Fault Declaration)
  | ask => [(name, src.lookUp name)]
  | _ => []

/-- All that a step of a look-up can do: where it stands afterwards, and the session. -/
inductive Move (src : Source) (name : String) (s : Session) :
    Call → Call ⊕ Except Fault Declaration → Session → Prop
  /-- a declaration was kept -/
  | found {d : Declaration} (h : s.kept? name = some d) : Move src name s consult (.inr (.ok d)) s
  /-- none was kept -/
  | missed (h : s.kept? name = none) : Move src name s consult (.inl ask) s
  /-- the source gave no declaration -/
  | failed {fault : Fault} (h : src.lookUp name = .error fault) :
    Move src name s ask (.inr (.error fault)) (s.lookUpAfresh src name).2
  /-- the source gave a declaration -/
  | loaded {d : Declaration} (h : src.lookUp name = .ok d) :
    Move src name s ask (.inl (.keep d)) (s.lookUpAfresh src name).2
  /-- the declaration that the source gave is kept, or the one that is kept already stays -/
  | kept (d : Declaration) :
    Move src name s (keep d) (.inr (.ok (s.keep name d).1)) (s.keep name d).2

theorem move_step (src : Source) (name : String) (s : Session) (call : Call) :
    Move src name s call (call.step src name s).1 (call.step src name s).2 := by
  cases call with
  | consult =>
    cases hk : s.kept? name with
    | some d =>
      rw [step_consult_of_kept hk]
      exact .found hk
    | none =>
      rw [step_consult_of_not_kept hk]
      exact .missed hk
  | ask =>
    cases hl : src.lookUp name with
    | error fault =>
      rw [step_ask_of_error hl]
      exact .failed hl
    | ok d =>
      rw [step_ask_of_ok hl]
      exact .loaded hl
  | keep d => exact .kept d

/-- A step adds to what is kept only what the look-up carries along, and that under a name for
which nothing was kept. -/
theorem Move.memory (h : Move src name s call result s') :
    s'.memory = s.memory ∨ ∃ d, call = .keep d ∧ name ∉ s.memory.map Prod.fst ∧
      s'.memory = s.memory ++ [(name, d)] := by
  cases h with
  | found => exact .inl rfl
  | missed => exact .inl rfl
  | failed => exact .inl rfl
  | loaded => exact .inl rfl
  | kept d =>
    rcases Session.memory_keep name d s with heq | ⟨hk, heq⟩
    · exact .inl heq
    · exact .inr ⟨d, rfl, Session.not_mem_memory_of_kept? hk, heq⟩

theorem Move.isPrefix (h : Move src name s call result s') : s.memory <+: s'.memory := by
  rcases h.memory with heq | ⟨d, -, -, heq⟩
  · exact ⟨[], by rw [heq, List.append_nil]⟩
  · exact ⟨[(name, d)], heq.symm⟩

/-- A step does not enter a name twice. -/
theorem Move.nodup (h : Move src name s call result s') (hs : (s.memory.map Prod.fst).Nodup) :
    (s'.memory.map Prod.fst).Nodup := by
  rcases h.memory with heq | ⟨d, -, hnew, heq⟩
  · rw [heq]
    exact hs
  · have hnodup := List.Nodup.concat hnew hs
    rw [List.concat_eq_append] at hnodup
    rw [heq, List.map_append]
    exact hnodup

/-- A look-up goes on to keep a declaration only if the source has just given it. -/
theorem Move.mem_given (h : Move src name s call (.inl (.keep d)) s') :
    (name, .ok d) ∈ call.given src name := by
  cases h with
  | loaded hl => exact List.mem_singleton.mpr (congrArg (Prod.mk name) hl.symm)

/-- A look-up that succeeds gives what is kept then. -/
theorem Move.kept? (h : Move src name s call (.inr (.ok d)) s') : s'.kept? name = some d := by
  cases h with
  | found hk => exact hk
  | kept => exact Session.kept?_keep

end Call

/-- Look-ups that share a session. -/
structure Race (ι : Type u) where
  /-- the next step of every look-up, or the answer that it gave -/
  standing : ι → Call ⊕ Except Fault Declaration
  /-- the session -/
  session : Session
  /-- what the source was asked for and what it gave, in order -/
  given : List (String × Except Fault Declaration)

namespace Race

variable {ι : Type u}

/-- The race before any look-up has begun. -/
def start : Race ι :=
  ⟨fun _ => .inl .consult, .empty, []⟩

section Steps

variable [DecidableEq ι] (names : ι → String)

/-- The race after the next step of one look-up, taken with this source. -/
def advance (src : Source) (i : ι) (call : Call) (r : Race ι) : Race ι where
  standing := Function.update r.standing i (call.step src (names i) r.session).1
  session := (call.step src (names i) r.session).2
  given := r.given ++ call.given src (names i)

/-- Some look-up that has not given its answer takes its next step. -/
inductive Step (r : Race ι) : Race ι → Prop
  /-- the look-up takes it with whatever source there is now -/
  | of {i : ι} {call : Call} (src : Source) (h : r.standing i = .inl call) :
    Step r (r.advance names src i call)

/-- One race leads to another by steps of its look-ups, in any order. -/
abbrev Leads : Race ι → Race ι → Prop :=
  Relation.ReflTransGen (Step names)

end Steps

/-! ## What stays true -/

variable (names : ι → String)

/-- What is true of every race. -/
structure Sound (r : Race ι) : Prop where
  /-- nothing is kept twice -/
  nodup : (r.session.memory.map Prod.fst).Nodup
  /-- the source gave what is kept -/
  given : ∀ e ∈ r.session.memory, (e.1, .ok e.2) ∈ r.given
  /-- the source gave what a look-up is about to keep -/
  carried : ∀ i d, r.standing i = .inl (.keep d) → (names i, .ok d) ∈ r.given
  /-- a look-up that succeeded gave what is kept -/
  answered : ∀ i d, r.standing i = .inr (.ok d) → r.session.kept? (names i) = some d

theorem sound_start : Sound names (start : Race ι) where
  nodup := List.nodup_nil
  given := fun _ h => absurd h List.not_mem_nil
  carried := fun _ _ h => by cases h
  answered := fun _ _ h => by cases h

variable {names}

/-- There are no more entries than declarations that the source gave: they have different names,
and for each of them the source gave a declaration. -/
theorem Sound.length_memory_le {r : Race ι} (hr : Sound names r) :
    r.session.memory.length ≤ r.given.countP fun g => g.2.isOk := by
  have hsub : r.session.memory.map Prod.fst ⊆
      (r.given.filter fun g => g.2.isOk).map Prod.fst := by
    intro name hname
    obtain ⟨e, he, rfl⟩ := List.mem_map.mp hname
    exact List.mem_map.mpr ⟨_, List.mem_filter.mpr ⟨hr.given e he, rfl⟩, rfl⟩
  have hle := (hr.nodup.subperm hsub).length_le
  rwa [List.length_map, List.length_map, ← List.countP_eq_length_filter] at hle

variable [DecidableEq ι]

/-- A step leaves true what is true of every race. -/
theorem Sound.step {r r' : Race ι} (hr : Sound names r) (h : Step names r r') :
    Sound names r' := by
  obtain @⟨i, call, src, hi⟩ := h
  have hmove := call.move_step src (names i) r.session
  refine ⟨?_, fun e he => ?_, fun j d hj => ?_, fun j d hj => ?_⟩
  · exact hmove.nodup hr.nodup
  · change e ∈ (call.step src (names i) r.session).2.memory at he
    refine List.mem_append_left _ ?_
    rcases hmove.memory with heq | ⟨d, rfl, -, heq⟩
    · rw [heq] at he
      exact hr.given e he
    · rw [heq] at he
      rcases List.mem_append.mp he with hold | hnew
      · exact hr.given e hold
      · rw [List.mem_singleton.mp hnew]
        exact hr.carried i d hi
  · change Function.update r.standing i _ j = _ at hj
    by_cases hji : j = i
    · subst hji
      rw [Function.update_self] at hj
      rw [hj] at hmove
      exact List.mem_append_right _ hmove.mem_given
    · rw [Function.update_of_ne hji] at hj
      exact List.mem_append_left _ (hr.carried j d hj)
  · change Function.update r.standing i _ j = _ at hj
    by_cases hji : j = i
    · subst hji
      rw [Function.update_self] at hj
      rw [hj] at hmove
      exact hmove.kept?
    · rw [Function.update_of_ne hji] at hj
      exact Session.kept?_of_isPrefix hmove.isPrefix (hr.answered j d hj)

/-- What is true of every race stays true in a run. -/
theorem Sound.leads {r r' : Race ι} (hr : Sound names r) (h : Leads names r r') :
    Sound names r' := by
  induction h with
  | refl => exact hr
  | tail _ hstep ih => exact ih.step hstep

/-- What is kept stays as it is, whatever the look-ups do. -/
theorem kept_of_leads {r r' : Race ι} (h : Leads names r r') {name : String} {d : Declaration}
    (hk : r.session.kept? name = some d) : r'.session.kept? name = some d := by
  induction h with
  | refl => exact hk
  | tail _ hstep ih =>
    obtain @⟨i, call, src, -⟩ := hstep
    exact Session.kept?_of_isPrefix (call.move_step src (names i) _).isPrefix ih

/-! ## Agreement -/

/-- However the steps of the look-ups follow on each other, and whatever the source gives from
time to time: what is kept stays as it is, and the source gave it. Two look-ups of one name that
succeed give the same declaration, whenever they end. Nothing is kept twice, and no more is kept
than the source gave. -/
theorem race_agrees {r r' : Race ι} (hr : Leads names start r) (hlater : Leads names r r') :
    (∀ name d, r.session.kept? name = some d → r'.session.kept? name = some d) ∧
      (∀ e ∈ r.session.memory, (e.1, .ok e.2) ∈ r.given) ∧
      (∀ i j d d', names i = names j → r.standing i = .inr (.ok d) →
        r'.standing j = .inr (.ok d') → d = d') ∧
      (r.session.memory.map Prod.fst).Nodup ∧
      r.session.memory.length ≤ r.given.countP fun g => g.2.isOk := by
  have hsound := (sound_start names).leads hr
  refine ⟨fun name d => kept_of_leads hlater, hsound.given, fun i j d d' hname hi hj => ?_,
    hsound.nodup, hsound.length_memory_le⟩
  have hfirst := kept_of_leads hlater (hsound.answered i d hi)
  have hsecond := (hsound.leads hlater).answered j d' hj
  rw [hname, hsecond] at hfirst
  exact (Option.some.inj hfirst).symm

/-- Three look-ups of one name. The source gives the first one a class, the second one
an interface and the third one nothing, and the second one is done before the first. -/
def overtaking : Race (Fin 3) :=
  let answering (a : Except Fault Declaration) := Source.ofAnswers [("A", a)]
  let first := answering (.ok ⟨"A", .concreteClass, none, []⟩)
  let second := answering (.ok ⟨"A", .interface, none, []⟩)
  let third := answering (.error (.typeMissing "A"))
  let names := fun _ => "A"
  let begun := ((start.advance names first 0 .consult).advance names first 1 .consult).advance
    names first 2 .consult
  let asked := ((begun.advance names first 0 .ask).advance names second 1 .ask).advance
    names third 2 .ask
  (asked.advance names second 1 (.keep ⟨"A", .interface, none, []⟩)).advance
    names first 0 (.keep ⟨"A", .concreteClass, none, []⟩)

theorem leads_overtaking : Leads (fun _ => "A") start overtaking :=
  ((((((((Relation.ReflTransGen.refl.tail (.of _ rfl)).tail (.of _ rfl)).tail (.of _ rfl)).tail
    (.of _ rfl)).tail (.of _ rfl)).tail (.of _ rfl)).tail (.of _ rfl)).tail (.of _ rfl))

/-- The race is run that way, and the first look-up gives the interface that the second one
kept. -/
theorem race_agrees_overtaking :
    Leads (fun _ => "A") start overtaking ∧
      overtaking.standing 1 = .inr (.ok ⟨"A", .interface, none, []⟩) ∧
      overtaking.given.map Prod.snd =
        [.ok ⟨"A", .concreteClass, none, []⟩, .ok ⟨"A", .interface, none, []⟩,
          .error (.typeMissing "A")] ∧
      ∀ d, overtaking.standing 0 = .inr (.ok d) → d = ⟨"A", .interface, none, []⟩ := by
  refine ⟨leads_overtaking, rfl, rfl, fun d h => ?_⟩
  obtain ⟨-, -, hagree, -, -⟩ := race_agrees leads_overtaking .refl
  exact hagree 0 1 d _ rfl h rfl

end Race

end RoleWiring
