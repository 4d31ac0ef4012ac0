import Mathlib.Algebra.BigOperators.Group.List.Basic
import Mathlib.Logic.Relation
import RoleWiring.Proofs.RoleIndex.Check
import RoleWiring.Proofs.Session.Call

/-!
# Checks that share a session

Every candidate has a worker, and all workers share one session. A step of the pool
is one atomic step of the look-up that some worker is about, any worker, so the runs
of a pool are all the orders in which the checks can be carried out.

* `Sound.step` — a step keeps the session faithful and every worker on the way to the
  outcome that direct look-ups give;
* `weight_step` — and leaves less to do, so no run goes on forever;
* `outcomes_of_sound` — what the workers came to is what direct look-ups give.
-/

namespace RoleWiring

/-- The check of one candidate, with the look-up that it is about. -/
structure Worker where
  /-- the candidate -/
  candidate : Artifact
  /-- how far its check has come -/
  check : Check
  /-- how far the look-up of the type asked for has come -/
  call : Call

namespace Worker

variable (src : Source) (roles : List (Role × Bool))

/-- The worker that has not begun. -/
def ofCandidate (c : Artifact) : Worker :=
  ⟨c, .opening, .consult⟩

/-- The type that the worker looks up. -/
def question (k : Worker) : Option String :=
  k.check.question k.candidate.name

/-- What the check came to, if it is over. -/
def outcome? (k : Worker) : Option Outcome :=
  match k.check with
  | .done outcome => some outcome
  | _ => none

/-- One atomic step of looking up `name`. With the answer the check goes on. -/
def step (name : String) (k : Worker) (s : Session) : Worker × Session :=
  match k.call.step src name s with
  | (.inl call, s) => ({ k with call := call }, s)
  | (.inr answer, s) =>
    (⟨k.candidate, k.check.resume roles k.candidate.name answer, .consult⟩, s)

/-- The worker is on the way to the outcome that direct look-ups give. -/
structure Sound (k : Worker) : Prop where
  /-- the check leads there -/
  outcome : k.check.outcome src roles k.candidate =
    RoleIndex.examineDirect src roles k.candidate
  /-- the look-up is sound -/
  call : ∀ name, k.question = some name → k.call.Sound src name

/-- How many steps the worker takes at most. -/
def weight (k : Worker) : Nat :=
  -- a look-up takes three steps at most, and `rank` counts those that are left of it
  3 * k.check.work src roles k.candidate.name + k.call.rank

/-- A worker without a question is done. -/
theorem outcome?_of_question_eq_none {k : Worker} (h : k.question = none) :
    ∃ outcome, k.outcome? = some outcome := by
  obtain ⟨c, check, call⟩ := k
  cases check with
  | opening => cases h
  | climbing => cases h
  | done outcome => exact ⟨outcome, rfl⟩

/-- A worker that has not begun is on the way. -/
theorem sound_ofCandidate (c : Artifact) : Sound src roles (ofCandidate c) where
  outcome := rfl
  call := fun name _ => Call.sound_consult src name

variable {src roles}

/-- What a worker that is done came to is what direct look-ups give. -/
theorem Sound.eq_of_outcome? {k : Worker} (h : k.Sound src roles) {outcome : Outcome}
    (hdone : k.outcome? = some outcome) :
    outcome = RoleIndex.examineDirect src roles k.candidate := by
  obtain ⟨c, check, call⟩ := k
  cases check with
  | opening => cases hdone
  | climbing => cases hdone
  | done o =>
    cases hdone
    exact h.outcome

theorem candidate_step (name : String) (k : Worker) (s : Session) :
    (k.step src roles name s).1.candidate = k.candidate := by
  unfold step
  rcases k.call.step src name s with ⟨_ | _, _⟩ <;> rfl

/-- In a faithful session a step keeps the worker on the way and the session faithful, and leaves
the worker less to do. -/
theorem Sound.step {k : Worker} (h : k.Sound src roles) {s : Session} (hs : s.Faithful src)
    {name : String} (hname : k.question = some name) :
    (k.step src roles name s).1.Sound src roles ∧ (k.step src roles name s).2.Faithful src ∧
      (k.step src roles name s).1.weight src roles < k.weight src roles := by
  obtain ⟨hadvance, hfaithful⟩ := Call.step_of_faithful hs (h.call name hname)
  unfold Worker.step
  rcases hstep : k.call.step src name s with ⟨call' | answer, s'⟩
  · rw [hstep] at hadvance hfaithful
    cases hadvance with
    | onward hsound hrank =>
      refine ⟨⟨h.outcome, fun n hn => ?_⟩, hfaithful, Nat.add_lt_add_left hrank _⟩
      obtain rfl := Option.some.inj (hname.symm.trans hn)
      exact hsound
  · rw [hstep] at hadvance hfaithful
    cases hadvance with
    | answer hanswer =>
      subst hanswer
      refine ⟨⟨?_, fun n _ => Call.sound_consult src n⟩, hfaithful, ?_⟩
      · exact (Check.outcome_resume src roles k.candidate hname).trans h.outcome
      · have hwork := Check.work_resume src roles k.candidate.name hname
        have hrank : Call.rank .consult = 2 := rfl
        unfold weight
        dsimp only
        omega

end Worker

/-- Workers that share a session. -/
structure Pool where
  /-- the workers, in the order of their candidates -/
  workers : List Worker
  /-- the session -/
  session : Session

namespace Pool

variable (src : Source) (roles : List (Role × Bool))

/-- The pool in which no worker has begun. -/
def start (candidates : List Artifact) (s : Session) : Pool :=
  ⟨candidates.map Worker.ofCandidate, s⟩

/-- Some worker that looks a type up takes one atomic step. -/
inductive Step : Pool → Pool → Prop
  /-- the worker `k`, with others before and after it -/
  | act {before after : List Worker} {k : Worker} {s : Session} {name : String}
      (h : k.question = some name) :
      Step ⟨before ++ k :: after, s⟩
        ⟨before ++ (k.step src roles name s).1 :: after, (k.step src roles name s).2⟩

/-- Any number of steps. -/
def Run : Pool → Pool → Prop :=
  Relation.ReflTransGen (Step src roles)

/-- The session is faithful, and the workers check the candidates and are on the way to the
outcomes that direct look-ups give. -/
structure Sound (candidates : List Artifact) (pool : Pool) : Prop where
  /-- the session is faithful -/
  faithful : pool.session.Faithful src
  /-- every candidate has its worker -/
  candidates : pool.workers.map Worker.candidate = candidates
  /-- all workers are on the way -/
  workers : ∀ k ∈ pool.workers, k.Sound src roles

/-- How many steps the pool takes at most. -/
def weight (pool : Pool) : Nat :=
  (pool.workers.map (Worker.weight src roles)).sum

variable {src roles} {candidates : List Artifact} {pool pool' : Pool}

theorem sound_start {s : Session} (hs : s.Faithful src) :
    (start candidates s).Sound src roles candidates where
  faithful := hs
  candidates := by
    show (candidates.map Worker.ofCandidate).map Worker.candidate = candidates
    rw [List.map_map]
    exact List.map_id candidates
  workers := by
    intro k hk
    obtain ⟨c, -, rfl⟩ := List.mem_map.mp hk
    exact Worker.sound_ofCandidate src roles c

/-- A step keeps a pool sound. -/
theorem Sound.step (h : pool.Sound src roles candidates) (hstep : Step src roles pool pool') :
    pool'.Sound src roles candidates := by
  obtain ⟨hname⟩ := hstep
  next before after k s name =>
  have hk := h.workers k (List.mem_append_right _ (List.mem_cons_self ..))
  obtain ⟨hsound, hfaithful, -⟩ := hk.step h.faithful hname
  refine ⟨hfaithful, ?_, fun k' hk' => ?_⟩
  · -- only the acting worker changes, and it keeps its candidate
    have hcandidates := h.candidates
    simp only [List.map_append, List.map_cons, Worker.candidate_step] at hcandidates ⊢
    exact hcandidates
  · rcases List.mem_append.mp hk' with hbefore | hrest
    · exact h.workers k' (List.mem_append_left _ hbefore)
    · rcases List.mem_cons.mp hrest with rfl | hafter
      · exact hsound
      · exact h.workers k' (List.mem_append_right _ (List.mem_cons_of_mem _ hafter))

/-- Any number of steps keep a pool sound. -/
theorem Sound.run (h : pool.Sound src roles candidates) (hrun : Run src roles pool pool') :
    pool'.Sound src roles candidates := by
  induction hrun with
  | refl => exact h
  | tail _ hstep ih => exact ih.step hstep

/-- With every step the workers have less to do. -/
theorem weight_step (h : pool.Sound src roles candidates) (hstep : Step src roles pool pool') :
    pool'.weight src roles < pool.weight src roles := by
  obtain ⟨hname⟩ := hstep
  next before after k s name =>
  have hk := h.workers k (List.mem_append_right _ (List.mem_cons_self ..))
  obtain ⟨-, -, hlt⟩ := hk.step h.faithful hname
  dsimp only at hlt
  unfold weight
  simp only [List.map_append, List.map_cons, List.sum_append, List.sum_cons]
  omega

/-- No run of a sound pool goes on forever. -/
theorem not_endless (h : pool.Sound src roles candidates) (run : Nat → Pool)
    (hstart : run 0 = pool) : ¬ ∀ n, Step src roles (run n) (run (n + 1)) := by
  intro hstep
  have hsound : ∀ n, (run n).Sound src roles candidates := by
    intro n
    induction n with
    | zero => exact hstart ▸ h
    | succ n ih => exact ih.step (hstep n)
  -- the weight falls with every step, so it bounds the number of steps
  have hbound : ∀ n, (run n).weight src roles + n ≤ pool.weight src roles := by
    intro n
    induction n with
    | zero => exact Nat.le_of_eq (by rw [hstart, Nat.add_zero])
    | succ n ih =>
      have hlt := weight_step (hsound n) (hstep n)
      omega
  have htoo := hbound (pool.weight src roles + 1)
  omega

/-- A pool that cannot take a step is done. -/
theorem exists_outcomes_of_stuck (h : ∀ next, ¬ Step src roles pool next) :
    ∃ outcomes : List Outcome, pool.workers.map Worker.outcome? = outcomes.map some := by
  obtain ⟨workers, s⟩ := pool
  have hdone : ∀ k ∈ workers, ∃ outcome, k.outcome? = some outcome := by
    intro k hk
    obtain ⟨before, after, rfl⟩ := List.append_of_mem hk
    cases hname : k.question with
    | none => exact Worker.outcome?_of_question_eq_none hname
    | some name => exact absurd (.act hname) (h _)
  clear h
  induction workers with
  | nil => exact ⟨[], rfl⟩
  | cons k workers ih =>
    obtain ⟨outcome, houtcome⟩ := hdone k (List.mem_cons_self ..)
    obtain ⟨outcomes, houtcomes⟩ := ih fun k' hk' => hdone k' (List.mem_cons_of_mem _ hk')
    refine ⟨outcome :: outcomes, ?_⟩
    show k.outcome? :: workers.map Worker.outcome? = some outcome :: outcomes.map some
    rw [houtcome]
    exact congrArg _ houtcomes

/-- What the workers of a sound pool came to is what direct look-ups give. -/
theorem outcomes_of_sound (h : pool.Sound src roles candidates) {outcomes : List Outcome}
    (hdone : pool.workers.map Worker.outcome? = outcomes.map some) :
    outcomes = candidates.map (RoleIndex.examineDirect src roles) := by
  obtain ⟨workers, s⟩ := pool
  obtain ⟨-, hcandidates, hworkers⟩ := h
  dsimp only at hdone hcandidates hworkers
  rw [← hcandidates]
  clear hcandidates
  induction workers generalizing outcomes with
  | nil => exact List.map_eq_nil_iff.mp hdone.symm
  | cons k workers ih =>
    cases outcomes with
    | nil => cases hdone
    | cons outcome outcomes =>
      obtain ⟨hhead, htail⟩ := List.cons.inj hdone
      have hk := (hworkers k (List.mem_cons_self ..)).eq_of_outcome? hhead
      rw [List.map_cons, List.map_cons, hk,
        ih htail fun k' hk' => hworkers k' (List.mem_cons_of_mem _ hk')]

end Pool

end RoleWiring
