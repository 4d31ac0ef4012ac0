import RoleWiring.Proofs.RoleIndex.Alone
import RoleWiring.Proofs.Search

/-!
# Every schedule gives the same report

The types of the roles are looked up in turn; then the candidates are checked by
workers that share the session, in any order and with their look-ups mixed in any
way. The session may have been used before, for look-ups, walks and other indexes.
The report of the index depends on none of that: it is the one that direct look-ups
give in turn.

* `Indexes` — the reports that some schedule gives;
* `Reached` — the sessions that use of a source leads to;
* `schedule_immaterial` — every schedule ends, and with the direct report.
-/

namespace RoleWiring

/-! ## Indexes and runs on any schedule -/

section Schedules

variable (src : Source) (roles : List Role) (candidates : List Artifact)

/-- The activations of the roles, looked up in turn. -/
def activations (s : Session) : List Activation × Session :=
  inTurn (RoleIndex.activate src (candidates.map Artifact.name)) roles s

/-- The roles with whether they can have members, as the session has it. -/
def enabledRoles (s : Session) : List (Role × Bool) :=
  roles.zip ((activations src roles candidates s).1.map Activation.enabled)

/-- The workers that check the candidates, once the types of the roles were looked up. -/
def workers (s : Session) : Pool :=
  .start candidates (activations src roles candidates s).2

/-- Some schedule of the checks gives this report and leaves this session. -/
def Indexes (s : Session) (report : Report) (s' : Session) : Prop :=
  ∃ pool outcomes,
    Pool.Run src (enabledRoles src roles candidates s) (workers src roles candidates s) pool ∧
      pool.workers.map Worker.outcome? = outcomes.map some ∧
      report = RoleIndex.report roles (activations src roles candidates s).1
        (candidates.zip outcomes) ∧
      s' = pool.session

end Schedules

/-- Some schedule of the checks gives the report of this run within a session. -/
def Search.RunsWithin (search : Search) (t : FileTree) (s : Session) (report : Report)
    (s' : Session) : Prop :=
  ∃ r, Indexes (search.classPath t).asSource search.config.roleList
      (search.classPath t).classes.1 s r s' ∧
    report = { r with warnings := (search.classPath t).classes.2 ++ r.warnings }

/-- The sessions that use of a source leads to. -/
inductive Reached (src : Source) : Session → Prop
  /-- nothing was asked yet -/
  | empty : Reached src .empty
  /-- a type was looked up -/
  | lookUp {s : Session} (name : String) (h : Reached src s) : Reached src (s.lookUp src name).2
  /-- some walk went on by a step -/
  | next {s : Session} (w : Ascent) (h : Reached src s) : Reached src (w.next src s).2.2
  /-- the search for one type was carried out -/
  | isSubtype {s : Session} (name target : String) (h : Reached src s) :
    Reached src (isSubtype src name target s).2
  /-- an index was made, on some schedule -/
  | index {s s' : Session} {roles : List Role} {candidates : List Artifact} {report : Report}
      (hindex : Indexes src roles candidates s report s') (h : Reached src s) : Reached src s'

/-! ## The parts in a faithful session -/

variable {src : Source} {roles : List Role} {candidates : List Artifact} {s s' : Session}

theorem activations_fst (hs : s.Faithful src) :
    (activations src roles candidates s).1 =
      roles.map (RoleIndex.activateDirect src (candidates.map Artifact.name)) := by
  have hfst := inTurn_fst (f := fun v => RoleIndex.activateDirect v (candidates.map Artifact.name))
    (RoleIndex.activate_fst src (candidates.map Artifact.name))
    (RoleIndex.view_activate src (candidates.map Artifact.name)) roles s
  rw [Session.view_of_faithful hs] at hfst
  exact hfst

theorem faithful_activations (hs : s.Faithful src) :
    (activations src roles candidates s).2.Faithful src := by
  have hview := view_inTurn (RoleIndex.view_activate src (candidates.map Artifact.name)) roles s
  exact Session.faithful_of_view (hview.trans (Session.view_of_faithful hs))

theorem enabledRoles_eq (hs : s.Faithful src) :
    enabledRoles src roles candidates s =
      RoleIndex.enabledDirect src (candidates.map Artifact.name) roles := by
  unfold enabledRoles RoleIndex.enabledDirect
  rw [activations_fst hs]

/-- The workers begin on the way to the direct outcomes. -/
theorem sound_workers (hs : s.Faithful src) (enabled : List (Role × Bool)) :
    (workers src roles candidates s).Sound src enabled candidates :=
  Pool.sound_start (faithful_activations hs)

/-- Every schedule gives the direct report and leaves a faithful session. -/
theorem Indexes.eq_indexDirect (hs : s.Faithful src) {report : Report}
    (h : Indexes src roles candidates s report s') :
    report = indexDirect src roles candidates ∧ s'.Faithful src := by
  obtain ⟨pool, outcomes, hrun, hdone, rfl, rfl⟩ := h
  have hsound := (sound_workers hs _).run hrun
  have houtcomes := Pool.outcomes_of_sound hsound hdone
  rw [enabledRoles_eq hs] at houtcomes
  refine ⟨?_, hsound.faithful⟩
  rw [activations_fst hs, houtcomes]
  rfl

/-- Checking the candidates in turn is one of the schedules. -/
theorem indexes_indexRoles (src : Source) (roles : List Role) (candidates : List Artifact)
    (s : Session) :
    Indexes src roles candidates s (indexRoles src roles candidates s).1
      (indexRoles src roles candidates s).2 := by
  obtain ⟨workers, hrun, hdone⟩ := Pool.run_inTurn src
    (enabledRoles src roles candidates s) candidates [] (activations src roles candidates s).2
  exact ⟨_, _, hrun, hdone, rfl, rfl⟩

/-- Use of a source leads to faithful sessions only. -/
theorem Reached.faithful (h : Reached src s) : s.Faithful src := by
  induction h with
  | empty => exact Session.faithful_empty src
  | lookUp name _ ih => exact ih.lookUp name
  | next w _ ih =>
    exact Session.faithful_of_view
      ((Ascent.view_next src w _).trans (Session.view_of_faithful ih))
  | isSubtype name target _ ih =>
    exact Session.faithful_of_view
      ((view_isSubtype src name target _).trans (Session.view_of_faithful ih))
  | index hindex _ ih => exact (hindex.eq_indexDirect ih).2

/-- A run on any schedule gives the report of a run of its own. -/
theorem Search.RunsWithin.eq_run {search : Search} {t : FileTree}
    (hs : s.Faithful (search.classPath t).asSource) {report : Report}
    (h : search.RunsWithin t s report s') : report = search.run t := by
  obtain ⟨r, hindex, rfl⟩ := h
  obtain ⟨rfl, -⟩ := hindex.eq_indexDirect hs
  exact (Search.run_eq search t).symm

/-! ## The report of every schedule -/

/-- From every session that use of a source leads to, all schedules of an index end, and all of
them with the report that direct look-ups give in turn; checking the candidates in turn is one of
them. The session that is left is again one that use leads to, so runs over one class path may
share it, and all of them give the report of a run of its own. -/
theorem schedule_immaterial (hs : Reached src s) (roles : List Role)
    (candidates : List Artifact) :
    Indexes src roles candidates s (indexRoles src roles candidates s).1
        (indexRoles src roles candidates s).2 ∧
      (∀ report s', Indexes src roles candidates s report s' →
        report = indexDirect src roles candidates ∧ Reached src s') ∧
      (¬ ∃ run : Nat → Pool, run 0 = workers src roles candidates s ∧
        ∀ n, Pool.Step src (enabledRoles src roles candidates s) (run n) (run (n + 1))) ∧
      (∀ pool, Pool.Run src (enabledRoles src roles candidates s)
          (workers src roles candidates s) pool →
        (∀ next, ¬ Pool.Step src (enabledRoles src roles candidates s) pool next) →
        ∃ outcomes : List Outcome,
          pool.workers.map Worker.outcome? = outcomes.map some) ∧
      ∀ (search : Search) (t : FileTree), (search.classPath t).asSource = src →
        ∀ report s', search.RunsWithin t s report s' →
          report = search.run t ∧ Reached src s' := by
  refine ⟨indexes_indexRoles src roles candidates s, ?_, ?_, ?_, ?_⟩
  · intro report s' h
    exact ⟨(h.eq_indexDirect hs.faithful).1, .index h hs⟩
  · rintro ⟨run, hstart, hstep⟩
    exact Pool.not_endless (sound_workers hs.faithful _) run hstart hstep
  · intro pool _ hstuck
    exact Pool.exists_outcomes_of_stuck hstuck
  · rintro search t rfl report s' h
    refine ⟨h.eq_run hs.faithful, ?_⟩
    obtain ⟨r, hindex, -⟩ := h
    exact .index hindex hs

/-- A session that keeps a class already, and an index of the class and of one that is missing. -/
theorem schedule_immaterial_of_kept :
    ∃ src s, Reached src s ∧
      s.kept? "A" = some ⟨"A", .concreteClass, none, ["I"]⟩ ∧
      ∀ report s', Indexes src [⟨"R", "I"⟩] [⟨"A", ⟨[97]⟩⟩, ⟨"B", ⟨[98]⟩⟩] s report s' →
        report = indexDirect src [⟨"R", "I"⟩] [⟨"A", ⟨[97]⟩⟩, ⟨"B", ⟨[98]⟩⟩] := by
  let src := Source.ofAnswers [("A", .ok ⟨"A", .concreteClass, none, ["I"]⟩),
    ("I", .ok ⟨"I", .interface, none, []⟩)]
  have hs : Reached src (Session.empty.lookUp src "A").2 := .lookUp "A" .empty
  refine ⟨src, _, hs, by decide, fun report s' h => ?_⟩
  exact ((schedule_immaterial hs _ _).2.1 report s' h).1

end RoleWiring
