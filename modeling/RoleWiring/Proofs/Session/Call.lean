import RoleWiring.Proofs.Session.View

/-!
# Look-ups step by step

A look-up is not done at once. What is kept is consulted first; where nothing is
kept the source is asked; and what the source gave is kept, unless something is
kept for the name by then. Each of these steps is atomic, and where several parties
share a session others may act between them.

* `gives_lookUp` — a look-up that is left alone gives what looking up at once gives;
* `step_of_faithful` — what a step does in a faithful session, whatever others do in
  between.
-/

namespace RoleWiring

/-- How far a look-up has come. -/
inductive Call where
  /-- what is kept is to be consulted -/
  | consult
  /-- nothing was kept, and the source is to be asked -/
  | ask
  /-- the source gave a declaration, which is to be kept -/
  | keep (d : Declaration)
deriving DecidableEq, Repr

namespace Call

/-- One step of the look-up of a name. The look-up goes on from there or gives its answer. -/
def step (src : Source) (name : String) :
    Call → Session → (Call ⊕ Except Fault Declaration) × Session
  | consult, s =>
    match s.kept? name with
    | some d => (.inr (.ok d), s)
    | none => (.inl .ask, s)
  | ask, s =>
    match s.lookUpAfresh src name with
    | (.error fault, s) => (.inr (.error fault), s)
    | (.ok d, s) => (.inl (.keep d), s)
  | keep d, s =>
    let (d, s) := s.keep name d
    (.inr (.ok d), s)

section Steps

variable {src : Source} {name : String} {s : Session} {d : Declaration}

theorem step_consult_of_kept (h : s.kept? name = some d) :
    step src name consult s = (.inr (.ok d), s) := by
  simp only [step, h]

theorem step_consult_of_not_kept (h : s.kept? name = none) :
    step src name consult s = (.inl .ask, s) := by
  simp only [step, h]

theorem step_ask_of_error {fault : Fault} (h : src.lookUp name = .error fault) :
    step src name ask s = (.inr (.error fault), (s.lookUpAfresh src name).2) := by
  simp only [step, Session.lookUpAfresh, h]

theorem step_ask_of_ok (h : src.lookUp name = .ok d) :
    step src name ask s = (.inl (.keep d), (s.lookUpAfresh src name).2) := by
  simp only [step, Session.lookUpAfresh, h]

theorem step_keep : step src name (keep d) s = (.inr (.ok (s.keep name d).1), (s.keep name d).2) :=
  rfl

end Steps

/-- The look-up, left alone, gives this answer and leaves this session. -/
inductive Gives (src : Source) (name : String) :
    Call → Session → Except Fault Declaration → Session → Prop
  /-- the next step gives the answer -/
  | now {call : Call} {s s' : Session} {answer : Except Fault Declaration}
      (h : call.step src name s = (.inr answer, s')) : Gives src name call s answer s'
  /-- a later step gives it -/
  | later {call call' : Call} {s s' s'' : Session} {answer : Except Fault Declaration}
      (h : call.step src name s = (.inl call', s')) (hrest : Gives src name call' s' answer s'') :
      Gives src name call s answer s''

/-- A look-up that is left alone gives what looking up at once gives. -/
theorem gives_lookUp (src : Source) (name : String) (s : Session) :
    Gives src name consult s (s.lookUp src name).1 (s.lookUp src name).2 := by
  unfold Session.lookUp
  cases hk : s.kept? name with
  | some d => exact .now (step_consult_of_kept hk)
  | none =>
    refine .later (step_consult_of_not_kept hk) ?_
    cases hl : src.lookUp name with
    | error fault =>
      simp only [Session.lookUpAfresh, hl]
      exact .now (step_ask_of_error hl)
    | ok d =>
      simp only [Session.lookUpAfresh, hl]
      exact .later (step_ask_of_ok hl) (.now step_keep)

/-! ## Steps in a faithful session -/

/-- How many steps a look-up may still take, apart from the next one. -/
def rank : Call → Nat
  | consult => 2
  | ask => 1
  | keep _ => 0

/-- What the look-up of a name carries along was given by the source. -/
def Sound (src : Source) (name : String) (call : Call) : Prop :=
  ∀ d, call = keep d → src.lookUp name = .ok d

/-- A look-up that has only begun carries nothing along. -/
theorem sound_consult (src : Source) (name : String) : Sound src name consult := by
  intro d h
  cases h

/-- What a step of a look-up may come to. -/
inductive Advance (src : Source) (name : String) (call : Call) :
    Call ⊕ Except Fault Declaration → Prop
  /-- the look-up gives the answer of the source -/
  | answer {a : Except Fault Declaration} (h : a = src.lookUp name) :
      Advance src name call (.inr a)
  /-- the look-up goes on and is still sound -/
  | onward {call' : Call} (hsound : call'.Sound src name) (hrank : call'.rank < call.rank) :
      Advance src name call (.inl call')

/-- Keeping what the source gives keeps a session faithful, and what is kept then is what the
source gives. -/
theorem faithful_keep {src : Source} {name : String} {s : Session} {d : Declaration}
    (h : s.Faithful src) (hd : src.lookUp name = .ok d) :
    (s.keep name d).2.Faithful src ∧ src.lookUp name = .ok (s.keep name d).1 := by
  unfold Session.keep
  split
  · next d' hk => exact ⟨h, h name d' hk⟩
  · refine ⟨fun n d' hn => ?_, hd⟩
    have happend : (s.kept? n).or (if n = name then some d else none) = some d' :=
      (Session.kept?_append name n d s).symm.trans hn
    rcases Option.or_eq_some_iff.mp happend with hold | ⟨-, hnew⟩
    · exact h n d' hold
    · obtain ⟨heq, hgiven⟩ := Option.ite_none_right_eq_some.mp hnew
      rw [heq, hd, Option.some.inj hgiven]

/-- In a faithful session a sound look-up advances, and the session stays faithful. -/
theorem step_of_faithful {src : Source} {name : String} {s : Session} (h : s.Faithful src)
    {call : Call} (hcall : call.Sound src name) :
    Advance src name call (call.step src name s).1 ∧ (call.step src name s).2.Faithful src := by
  cases call with
  | consult =>
    cases hk : s.kept? name with
    | some d =>
      rw [step_consult_of_kept hk]
      exact ⟨.answer (h name d hk).symm, h⟩
    | none =>
      rw [step_consult_of_not_kept hk]
      exact ⟨.onward (fun d hd => by cases hd) (Nat.lt_succ_self 1), h⟩
  | ask =>
    cases hl : src.lookUp name with
    | error fault =>
      rw [step_ask_of_error hl]
      exact ⟨.answer hl.symm, h⟩
    | ok d =>
      rw [step_ask_of_ok hl]
      refine ⟨.onward (fun d' hd => ?_) (Nat.lt_succ_self 0), h⟩
      cases hd
      exact hl
  | keep d =>
    obtain ⟨hfaithful, hgiven⟩ := faithful_keep h (hcall d rfl)
    exact ⟨.answer hgiven.symm, hfaithful⟩

end Call

end RoleWiring
