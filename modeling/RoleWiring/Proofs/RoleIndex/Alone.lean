import RoleWiring.Proofs.RoleIndex.Pool

/-!
# Checks one after the other

A worker that is left alone carries its check out as it would be carried out at once,
and so do workers that are left alone one after the other. The index that is made in
turn is therefore one of those that a pool can make.

* `alone_examine` — a worker that is left alone;
* `run_inTurn` — workers that begin in turn, each when the one before it is done.
-/

namespace RoleWiring

/-! ## Walks as checks see them -/

namespace Check

variable (name : String) (kind : Kind) (found : List Bool) (role : Role)
  (ahead : List (Role × Bool)) {src : Source} {w w' : Ascent} {s s' : Session} {n : String}

/-- Where the walk is over, so is the role. -/
theorem ascend_of_next_none (h : w.next src s = (none, w', s')) :
    ascend name kind found role ahead (w.lookAbove src s).1 =
        seek name kind (found ++ [false]) ahead ∧ (w.lookAbove src s).2 = s' := by
  unfold Ascent.next at h
  generalize w.lookAbove src s = e at h ⊢
  obtain ⟨⟨waiting, met, last⟩, s₁⟩ := e
  cases waiting with
  | nil =>
    cases h
    exact ⟨rfl, rfl⟩
  | cons => cases h

/-- Where the walk gives a name, the check is done with the role or looks the name up. -/
theorem ascend_of_next_some (h : w.next src s = (some n, w', s')) :
    ascend name kind found role ahead (w.lookAbove src s).1 =
        (if n == role.type then seek name kind (found ++ [true]) ahead
        else climbing kind found n w'.waiting w'.met role ahead) ∧
      w'.last = some n ∧ (w.lookAbove src s).2 = s' := by
  unfold Ascent.next at h
  generalize w.lookAbove src s = e at h ⊢
  obtain ⟨⟨waiting, met, last⟩, s₁⟩ := e
  cases waiting with
  | nil => cases h
  | cons =>
    cases h
    exact ⟨rfl, rfl, rfl⟩

end Check

/-! ## A worker alone -/

namespace Worker

variable (src : Source) (roles : List (Role × Bool))

/-- A step of a worker that is left alone with a session. -/
inductive Alone : Worker × Session → Worker × Session → Prop
  /-- the worker has a question -/
  | act {k : Worker} {s : Session} {name : String} (h : k.question = some name) :
      Alone (k, s) (k.step src roles name s)

/-- Any number of steps of a worker that is left alone. -/
def Alones : Worker × Session → Worker × Session → Prop :=
  Relation.ReflTransGen (Alone src roles)

variable {src roles} {c : Artifact}

/-- Where the look-up comes to an answer, the check goes on with it. -/
theorem alone_gives {check : Check} {name : String} (hname : check.question c.name = some name)
    {call : Call} {s s' : Session} {answer : Except Fault Declaration}
    (h : call.Gives src name s answer s') :
    Alones src roles (⟨c, check, call⟩, s)
      (⟨c, check.resume roles c.name answer, .consult⟩, s') := by
  induction h with
  | @now call s s' answer hstep =>
    have hact : Alone src roles (⟨c, check, call⟩, s) (step src roles name ⟨c, check, call⟩ s) :=
      .act hname
    unfold step at hact
    rw [hstep] at hact
    exact .single hact
  | @later call call' s s' s'' answer hstep _ ih =>
    have hact : Alone src roles (⟨c, check, call⟩, s) (step src roles name ⟨c, check, call⟩ s) :=
      .act hname
    unfold step at hact
    rw [hstep] at hact
    exact .head hact ih

/-- The look-up of a type at once is one in steps. -/
theorem alone_lookUp {check : Check} {name : String} (hname : check.question c.name = some name)
    (s : Session) :
    Alones src roles (⟨c, check, .consult⟩, s)
      (⟨c, check.resume roles c.name (s.lookUp src name).1, .consult⟩, (s.lookUp src name).2) :=
  alone_gives hname (Call.gives_lookUp src name s)

variable (src roles)

/-- A worker that climbs finds what the walk finds and goes on to the next role. -/
theorem alone_climb (c : Artifact) (kind : Kind) (found : List Bool) (role : Role)
    (ahead : List (Role × Bool)) (w : Ascent) (s : Session) :
    Alones src roles
      (⟨c, .ascend c.name kind found role ahead (w.lookAbove src s).1, .consult⟩,
        (w.lookAbove src s).2)
      (⟨c, .seek c.name kind
          (found ++ [(w.climb src (· == role.type) s).1.contains role.type]) ahead, .consult⟩,
        (w.climb src (· == role.type) s).2) := by
  fun_induction Ascent.climb src (· == role.type) w s with
  | case1 w s w' s' hnext =>
    obtain ⟨hcheck, hs⟩ := Check.ascend_of_next_none c.name kind found role ahead hnext
    rw [hcheck, hs]
    exact .refl
  | case2 w s n w' s' hnext hstop =>
    obtain ⟨hcheck, -, hs⟩ := Check.ascend_of_next_some c.name kind found role ahead hnext
    rw [hcheck, hs, if_pos hstop, eq_of_beq hstop]
    simp only [List.contains_cons, beq_self_eq_true, Bool.true_or]
    exact .refl
  | case3 w s n w' s' hnext hstop names s'' hrest ih =>
    obtain ⟨hcheck, hlast, hs⟩ := Check.ascend_of_next_some c.name kind found role ahead hnext
    rw [hcheck, hs, if_neg hstop]
    rw [hrest] at ih
    have hcontains : (n :: names).contains role.type = names.contains role.type := by
      rw [List.contains_cons, Bool.beq_comm, Bool.eq_false_iff.mpr hstop, Bool.false_or]
    rw [hcontains]
    -- the name given is looked up, which is where the rest of the walk begins
    refine .trans (alone_lookUp rfl s') ?_
    obtain ⟨waiting, met, last⟩ := w'
    cases hlast
    rw [Ascent.lookAbove_eq rfl] at ih
    exact ih

/-- A worker that is between two roles takes the roles ahead in turn. -/
theorem alone_seek (c : Artifact) (kind : Kind) (found : List Bool)
    (ahead : List (Role × Bool)) (s : Session) :
    Alones src roles (⟨c, .seek c.name kind found ahead, .consult⟩, s)
      (⟨c, .done (.placed kind (found ++ (inTurn (RoleIndex.belongs src c.name) ahead s).1)),
        .consult⟩, (inTurn (RoleIndex.belongs src c.name) ahead s).2) := by
  induction ahead generalizing found s with
  | nil =>
    show Alones src roles _ (⟨c, .done (.placed kind (found ++ [])), .consult⟩, s)
    rw [List.append_nil]
    exact .refl
  | cons entry ahead ih =>
    obtain ⟨role, enabled⟩ := entry
    cases enabled with
    | false =>
      have hrest := ih (found ++ [false]) s
      rw [List.append_assoc] at hrest
      exact hrest
    | true =>
      -- the walk for this role, then the roles after it in the session that the walk left
      refine .trans (alone_climb src roles c kind found role ahead (Ascent.start c.name) s) ?_
      have hrest := ih (found ++ [(isSubtype src c.name role.type s).1])
        (isSubtype src c.name role.type s).2
      rw [List.append_assoc] at hrest
      exact hrest

/-- A worker that is left alone comes to what the check of its candidate at once comes to. -/
theorem alone_examine (c : Artifact) (s : Session) :
    Alones src roles (ofCandidate c, s)
      (⟨c, .done (RoleIndex.examine src roles c s).1, .consult⟩,
        (RoleIndex.examine src roles c s).2) := by
  refine .trans (alone_lookUp rfl s) ?_
  unfold RoleIndex.examine
  rcases s.lookUp src c.name with ⟨fault | d, s'⟩
  · exact .refl
  · exact alone_seek src roles c d.kind [] roles s'

end Worker

/-! ## Workers in turn -/

namespace Pool

variable {src : Source} {roles : List (Role × Bool)}

/-- The other workers of a pool may stand still. -/
theorem run_of_alones (before after : List Worker) {k k' : Worker} {s s' : Session}
    (h : Worker.Alones src roles (k, s) (k', s')) :
    Run src roles ⟨before ++ k :: after, s⟩ ⟨before ++ k' :: after, s'⟩ := by
  refine Relation.ReflTransGen.lift
    (fun p : Worker × Session => (⟨before ++ p.1 :: after, p.2⟩ : Pool)) ?_ _ _ h
  rintro _ _ ⟨hname⟩
  exact .act hname

/-- Checking the candidates in turn is a run of the pool. -/
theorem run_inTurn (src : Source) (roles : List (Role × Bool)) (candidates : List Artifact)
    (before : List Worker) (s : Session) :
    ∃ workers,
      Run src roles ⟨before ++ candidates.map Worker.ofCandidate, s⟩
        ⟨before ++ workers, (inTurn (RoleIndex.examine src roles) candidates s).2⟩ ∧
      workers.map Worker.outcome? =
        (inTurn (RoleIndex.examine src roles) candidates s).1.map some := by
  induction candidates generalizing before s with
  | nil => exact ⟨[], .refl, rfl⟩
  | cons c candidates ih =>
    have hfirst := run_of_alones before (candidates.map Worker.ofCandidate)
      (Worker.alone_examine src roles c s)
    obtain ⟨workers, hrun, hdone⟩ := ih
      (before ++ [⟨c, .done (RoleIndex.examine src roles c s).1, .consult⟩])
      (RoleIndex.examine src roles c s).2
    rw [List.append_assoc, List.append_assoc] at hrun
    exact ⟨_ :: workers, hfirst.trans hrun, congrArg (some _ :: ·) hdone⟩

end Pool

end RoleWiring
