import RoleWiring.Proofs.RoleIndex.Schedule
import RoleWiring.Proofs.Session.Overlap
import RoleWiring.Proofs.Session.Uses

/-!
# What overlapping checks look up

The check of a candidate looks up the same types on every schedule, since it goes on with the same
answers. An index therefore looks up what it would if its checks were carried out in turn. Only the
order in which it does depends on the schedule, and how often it loads what more than one check
looks up.

* `Check.toAsk_of_question` — what a check still looks up, when it goes on with an answer;
* `Pool.leads_run` — the look-ups that a pool has begun, and those that are still ahead of it;
* `Indexes.leads` — the look-ups of an index on any schedule;
* `Follows.leads` — and those of any uses of a session.
-/

namespace RoleWiring

open Session

variable {src : Source} {roles : List (Role × Bool)}

/-! ## Checks -/

namespace Check

variable (src roles) (candidate : Artifact)

/-- What the check still looks up if the source answers. -/
def toAsk : Check → List String
  | opening => RoleIndex.examineAsks roles src candidate
  | climbing _ _ asked waiting met role ahead =>
    (⟨waiting, met, some asked⟩ : Ascent).asks (· == role.type) src ++
      ahead.flatMap (RoleIndex.belongsAsks candidate.name src)
  | done _ => []

/-- What is left to look up when a walk goes on, given what is left after it. -/
theorem toAsk_ascend {kind : Kind} {ahead : List (Role × Bool)}
    (hseek : ∀ found, (seek candidate.name kind found ahead).toAsk src roles candidate =
      ahead.flatMap (RoleIndex.belongsAsks candidate.name src))
    (found : List Bool) (role : Role) (w : Ascent) :
    (ascend candidate.name kind found role ahead w).toAsk src roles candidate =
      (climbFrom src (· == role.type) w).filter (fun n => !(n == role.type)) ++
        ahead.flatMap (RoleIndex.belongsAsks candidate.name src) := by
  obtain ⟨waiting, met, last⟩ := w
  cases waiting with
  | nil => exact hseek _
  | cons n rest =>
    rw [ascend]
    cases hn : n == role.type with
    | true => simp [hn, hseek, climbFrom, Ascent.pop?]
    | false => simp [hn, toAsk, Ascent.asks, climbFrom, Ascent.pop?]

theorem toAsk_seek (kind : Kind) (found : List Bool) (ahead : List (Role × Bool)) :
    (seek candidate.name kind found ahead).toAsk src roles candidate =
      ahead.flatMap (RoleIndex.belongsAsks candidate.name src) := by
  induction ahead generalizing found with
  | nil => rfl
  | cons entry ahead ih =>
    obtain ⟨role, enabled⟩ := entry
    cases enabled with
    | false =>
      rw [seek, ih]
      rfl
    | true =>
      rw [seek_enabled, toAsk_ascend src roles candidate ih, ← climbDirect_start]
      rfl

/-- A check that asks for a type goes on with the answer to look up what is left. -/
theorem toAsk_of_question {c : Check} {asked : String}
    (h : c.question candidate.name = some asked) :
    c.toAsk src roles candidate =
      asked :: (c.resume roles candidate.name (src.lookUp asked)).toAsk src roles candidate := by
  cases c with
  | opening =>
    cases h
    rw [toAsk, RoleIndex.examineAsks]
    simp only [resume]
    cases src.lookUp candidate.name with
    | error fault => rfl
    | ok d => exact congrArg _ (toAsk_seek src roles candidate d.kind [] roles).symm
  | climbing kind found n waiting met role ahead =>
    cases h
    have hseek := fun found => toAsk_seek src roles candidate kind found ahead
    rw [resume, toAsk_ascend src roles candidate hseek, ← namesLeft_eq]
    rfl
  | done outcome => cases h

/-- A check that asks for nothing is over. -/
theorem toAsk_of_no_question {c : Check} (h : c.question candidate.name = none) :
    c.toAsk src roles candidate = [] := by
  cases c with
  | opening => cases h
  | climbing => cases h
  | done => rfl

end Check

/-! ## Pools -/

namespace Worker

/-- The look-up that the worker is about. -/
def underWay (k : Worker) : List (String × Call) :=
  (k.question.map (·, k.call)).toList

variable (src roles)

/-- What the worker looks up later on. -/
def ahead (k : Worker) : List String :=
  (k.check.toAsk src roles k.candidate).tail

/-- A worker is about a look-up, and then does those that are ahead of it. -/
theorem question_append_ahead (k : Worker) :
    k.question.toList ++ k.ahead src roles = k.check.toAsk src roles k.candidate := by
  rw [ahead]
  cases hname : k.question with
  | none =>
    rw [Check.toAsk_of_no_question src roles k.candidate hname]
    rfl
  | some name =>
    rw [Check.toAsk_of_question src roles k.candidate hname]
    rfl

theorem underWay_of_question {k : Worker} {name : String} (h : k.question = some name) :
    k.underWay = [(name, k.call)] := by
  rw [underWay, h]
  rfl

variable {src roles}

/-- A step of a worker is one of its look-up. If that is done, the worker begins the next one. -/
theorem Sound.leads_step {k : Worker} (h : k.Sound src roles) {s : Session}
    (hs : s.Faithful src) {name : String} (hname : k.question = some name)
    (before after : List (String × Call)) (asked : List String) :
    ∃ begun,
      Traffic.Leads src.lookUp ⟨before ++ (k.underWay ++ after), s, asked⟩
        ⟨before ++ ((k.step src roles name s).1.underWay ++ after), (k.step src roles name s).2,
          asked ++ begun⟩ ∧
      begun ++ (k.step src roles name s).1.ahead src roles = k.ahead src roles := by
  have hmoved := @Traffic.Step.moved src.lookUp before after s asked name k.call
  obtain ⟨hadvance, -⟩ := Call.step_of_faithful hs (h.call name hname)
  rw [← Call.step_eq_stepBy] at hmoved
  rw [underWay_of_question hname, Worker.step]
  rcases hstep : k.call.step src name s with ⟨call' | answer, s'⟩
  · rw [hstep] at hmoved
    refine ⟨[], ?_, rfl⟩
    rw [underWay_of_question (k := { k with call := call' }) hname, List.append_nil]
    exact .single hmoved
  · rw [hstep] at hmoved hadvance
    cases hadvance with
    | answer hanswer =>
      subst hanswer
      have hnext := question_append_ahead src roles
        ⟨k.candidate, k.check.resume roles k.candidate.name (src.lookUp name), .consult⟩
      refine ⟨_, Relation.ReflTransGen.head hmoved ?_, hnext.trans ?_⟩
      · have hbegan := Traffic.leads_began src.lookUp (Worker.question ⟨k.candidate,
          k.check.resume roles k.candidate.name (src.lookUp name), .consult⟩).toList before after
          s' asked
        rw [← Option.toList_map] at hbegan
        exact hbegan
      · rw [ahead, Check.toAsk_of_question src roles k.candidate hname]
        rfl

end Worker

namespace Pool

/-- The look-ups that the workers are about. -/
def underWay (pool : Pool) : List (String × Call) :=
  pool.workers.flatMap Worker.underWay

variable (src roles)

/-- What the workers look up later on. -/
def ahead (pool : Pool) : List String :=
  pool.workers.flatMap (Worker.ahead src roles)

variable {src roles} {candidates : List Artifact} {pool pool' : Pool}

/-- What a step begins to look up is no longer ahead. -/
theorem Sound.leads_step (h : pool.Sound src roles candidates) (hstep : Step src roles pool pool')
    (asked : List String) :
    ∃ begun,
      Traffic.Leads src.lookUp ⟨pool.underWay, pool.session, asked⟩
        ⟨pool'.underWay, pool'.session, asked ++ begun⟩ ∧
      (begun ++ pool'.ahead src roles).Perm (pool.ahead src roles) := by
  obtain ⟨hname⟩ := hstep
  next before after k s name =>
  have hk := h.workers k (List.mem_append_right _ (List.mem_cons_self ..))
  obtain ⟨begun, hleads, hahead⟩ := hk.leads_step h.faithful hname
    (before.flatMap Worker.underWay) (after.flatMap Worker.underWay) asked
  refine ⟨begun, ?_, ?_⟩
  · simp only [underWay, List.flatMap_append, List.flatMap_cons]
    exact hleads
  · simp only [ahead, List.flatMap_append, List.flatMap_cons, ← hahead, List.append_assoc]
    exact List.perm_append_comm_assoc _ _ _

/-- What a run begins to look up is no longer ahead. -/
theorem Sound.leads_run (h : pool.Sound src roles candidates) (hrun : Run src roles pool pool')
    (asked : List String) :
    ∃ begun,
      Traffic.Leads src.lookUp ⟨pool.underWay, pool.session, asked⟩
        ⟨pool'.underWay, pool'.session, asked ++ begun⟩ ∧
      (begun ++ pool'.ahead src roles).Perm (pool.ahead src roles) := by
  induction hrun with
  | refl =>
    refine ⟨[], ?_, .rfl⟩
    rw [List.append_nil]
  | tail hrun hstep ih =>
    obtain ⟨begun, hleads, hperm⟩ := ih
    obtain ⟨more, hmore, hperm'⟩ := (h.run hrun).leads_step hstep (asked ++ begun)
    refine ⟨begun ++ more, ?_, ?_⟩
    · rw [← List.append_assoc]
      exact hleads.trans hmore
    · rw [List.append_assoc]
      exact (hperm'.append_left begun).trans hperm

theorem underWay_start (candidates : List Artifact) (s : Session) :
    (start candidates s).underWay = (candidates.map Artifact.name).map (·, .consult) := by
  rw [underWay, start, List.flatMap_map, List.map_map, List.map_eq_flatMap]
  rfl

theorem perm_ahead_start (candidates : List Artifact) (s : Session) :
    (candidates.map Artifact.name ++ (start candidates s).ahead src roles).Perm
      (candidates.flatMap (RoleIndex.examineAsks roles src)) := by
  rw [ahead, start, List.flatMap_map]
  induction candidates with
  | nil => exact .nil
  | cons c candidates ih =>
    rw [List.map_cons, List.flatMap_cons, List.flatMap_cons]
    refine .cons c.name ?_
    exact (List.perm_append_comm_assoc _ _ _).trans (ih.append_left _)

/-- Workers that have come to an outcome are about no look-up and have none ahead of them. -/
theorem done_of_outcomes {outcomes : List Outcome}
    (h : pool.workers.map Worker.outcome? = outcomes.map some) :
    pool.underWay = [] ∧ pool.ahead src roles = [] := by
  have hdone : ∀ k ∈ pool.workers, k.question = none := by
    intro k hk
    have houtcome : k.outcome? ∈ outcomes.map some := h ▸ List.mem_map_of_mem hk
    obtain ⟨outcome, -, heq⟩ := List.mem_map.mp houtcome
    obtain ⟨c, check, call⟩ := k
    cases check with
    | opening => cases heq
    | climbing => cases heq
    | done => rfl
  refine ⟨List.flatMap_eq_nil_iff.mpr fun k hk => ?_, List.flatMap_eq_nil_iff.mpr fun k hk => ?_⟩
  · rw [Worker.underWay, hdone k hk]
    rfl
  · rw [Worker.ahead, Check.toAsk_of_no_question src roles k.candidate (hdone k hk)]
    rfl

end Pool

/-! ## Indexes -/

/-- On any schedule an index looks up what it would if its checks were carried out in turn. -/
theorem Indexes.leads {roles : List Role} {candidates : List Artifact} {s s' : Session}
    {report : Report} (hs : s.Faithful src) (h : Indexes src roles candidates s report s')
    (asked : List String) :
    ∃ begun, begun.Perm (indexAsks roles candidates src) ∧
      Traffic.Leads src.lookUp ⟨[], s, asked⟩ ⟨[], s', asked ++ begun⟩ := by
  obtain ⟨pool, outcomes, hrun, hdone, -, rfl⟩ := h
  have hroles : (activations src roles candidates s).2 =
      (lookUpAll src.lookUp (roles.map Role.type) s).2 := by
    have hsnd := inTurn_snd (f := fun _ role => [role.type])
      (RoleIndex.activate_snd src (candidates.map Artifact.name)) roles s
    rw [← List.map_eq_flatMap] at hsnd
    exact hsnd
  have hinTurn := Traffic.leads_lookUpAll src.lookUp (roles.map Role.type) s asked
  rw [← hroles] at hinTurn
  have hbegan := Traffic.leads_began src.lookUp (candidates.map Artifact.name) [] []
    (activations src roles candidates s).2 (asked ++ roles.map Role.type)
  rw [List.nil_append, List.nil_append, List.append_nil, ← Pool.underWay_start] at hbegan
  obtain ⟨begun, hleads, hperm⟩ := (sound_workers hs _).leads_run hrun
    (asked ++ roles.map Role.type ++ candidates.map Artifact.name)
  obtain ⟨hunderWay, hahead⟩ :=
    @Pool.done_of_outcomes src (enabledRoles src roles candidates s) _ _ hdone
  rw [hunderWay] at hleads
  rw [hahead, List.append_nil] at hperm
  have hall := (hinTurn.trans hbegan).trans hleads
  rw [List.append_assoc, List.append_assoc] at hall
  refine ⟨_, ?_, hall⟩
  rw [indexAsks, ← enabledRoles_eq hs]
  exact ((hperm.append_left _).trans (Pool.perm_ahead_start candidates _)).append_left _

/-! ## Uses -/

/-- A use of a session may leave this one. The checks of an index may overlap in any way; otherwise
nothing does. -/
inductive Use.MayLeave (src : Source) (s : Session) : Use → Session → Prop
  /-- the look-ups of the use wait for each other -/
  | inTurn (use : Use) : MayLeave src s use (use.leaves src s)
  /-- an index is made on some schedule -/
  | index {roles : List Role} {candidates : List Artifact} {report : Report} {s' : Session}
    (h : Indexes src roles candidates s report s') : MayLeave src s (.index roles candidates) s'

/-- Uses of a session that follow each other may lead to this one. -/
inductive Follows (src : Source) (s : Session) : List Use → Session → Prop
  | nil : Follows src s [] s
  | concat {uses : List Use} {use : Use} {s' s'' : Session} (h : Follows src s uses s')
    (huse : use.MayLeave src s' s'') : Follows src s (uses ++ [use]) s''

/-- A use looks up the same types however its look-ups overlap. -/
theorem Use.MayLeave.leads {use : Use} {s s' : Session} (hs : s.Faithful src)
    (h : use.MayLeave src s s') (asked : List String) :
    ∃ begun, begun.Perm (use.asks src) ∧
      Traffic.Leads src.lookUp ⟨[], s, asked⟩ ⟨[], s', asked ++ begun⟩ := by
  cases h with
  | inTurn use =>
    refine ⟨use.asks src, .rfl, ?_⟩
    rw [use.leaves_eq, view_of_faithful hs]
    exact Traffic.leads_lookUpAll src.lookUp _ s asked
  | index hindex => exact hindex.leads hs asked

theorem Use.MayLeave.faithful {use : Use} {s s' : Session} (hs : s.Faithful src)
    (h : use.MayLeave src s s') : s'.Faithful src := by
  cases h with
  | inTurn use =>
    refine faithful_of_view ?_
    rw [use.leaves_eq, view_lookUpAll, view_of_faithful hs]
  | index hindex => exact (hindex.eq_indexDirect hs).2

namespace Follows

variable {uses : List Use} {s s' : Session}

theorem faithful (hs : s.Faithful src) (h : Follows src s uses s') : s'.Faithful src := by
  induction h with
  | nil => exact hs
  | concat _ huse ih => exact huse.faithful ih

/-- Uses look up the same types however their look-ups overlap. -/
theorem leads (hs : s.Faithful src) (h : Follows src s uses s') (asked : List String) :
    ∃ begun, begun.Perm (uses.flatMap (Use.asks src)) ∧
      Traffic.Leads src.lookUp ⟨[], s, asked⟩ ⟨[], s', asked ++ begun⟩ := by
  induction h with
  | nil =>
    refine ⟨[], .nil, ?_⟩
    rw [List.append_nil]
  | concat h huse ih =>
    obtain ⟨begun, hperm, hleads⟩ := ih
    obtain ⟨more, hperm', hmore⟩ := huse.leads (h.faithful hs) (asked ++ begun)
    refine ⟨begun ++ more, ?_, ?_⟩
    · rw [List.flatMap_append, List.flatMap_singleton]
      exact hperm.append hperm'
    · rw [← List.append_assoc]
      exact hleads.trans hmore

/-- Uses that follow each other with look-ups that wait for each other. -/
theorem after (src : Source) (uses : List Use) : Follows src .empty uses (after src uses) := by
  induction uses using List.reverseRecOn with
  | nil => exact .nil
  | append_singleton uses use ih =>
    rw [Session.after, List.foldl_concat]
    exact ih.concat (.inTurn use)

/-- What uses of a new session leave, however their look-ups overlapped. -/
theorem reckons (h : Follows src .empty uses s) (name : String) :
    Reckons src.lookUp (uses.flatMap (Use.asks src)) s name := by
  obtain ⟨begun, hperm, hleads⟩ := h.leads (faithful_empty src) []
  exact ((Traffic.Balanced.start.leads hleads).reckons fun _ hcall => by cases hcall).perm hperm

theorem length_memory (h : Follows src .empty uses s) :
    s.memory.length =
      ((uses.flatMap (Use.asks src)).toFinset.filter fun name => (src.lookUp name).isOk).card := by
  obtain ⟨begun, hperm, hleads⟩ := h.leads (faithful_empty src) []
  rw [← List.toFinset_eq_of_perm _ _ hperm]
  exact (Traffic.Balanced.start.leads hleads).length_memory

/-- What a session keeps is not loaded again by further uses of it. -/
theorem count_lookups (hs : s.Faithful src) (h : Follows src s uses s') {name : String}
    {d : Declaration} (hk : s.kept? name = some d) :
    s'.lookups.count name = s.lookups.count name := by
  obtain ⟨begun, -, hleads⟩ := h.leads hs []
  exact Traffic.count_lookups_of_kept hleads hk List.not_mem_nil

end Follows

/-! ## Checks of one candidate -/

section Twice

variable {c : Artifact} {d : Declaration}

theorem step_ask_of_ok (h : src.lookUp c.name = .ok d) (s : Session) :
    Worker.step src [] c.name ⟨c, .opening, .ask⟩ s =
      (⟨c, .opening, .keep d⟩, (s.lookUpAfresh src c.name).2) := by
  simp only [Worker.step, Call.step_ask_of_ok h]

theorem step_keep_of_eq {s s' : Session} (h : s.keep c.name d = (d, s')) :
    Worker.step src [] c.name ⟨c, .opening, .keep d⟩ s =
      (⟨c, .done (.placed d.kind []), .consult⟩, s') := by
  simp only [Worker.step, Call.step_keep, h]
  rfl

/-- Two checks of one candidate may overlap so that both of them load it: each consults the session
before the other one has the declaration kept. -/
theorem exists_follows_twice (h : src.lookUp c.name = .ok d) :
    ∃ s, Follows src .empty [.index [] [c, c]] s ∧ s.lookups = [c.name, c.name] := by
  have hsame : Session.keep c.name d ⟨[(c.name, d)], [c.name, c.name]⟩ =
      (d, ⟨[(c.name, d)], [c.name, c.name]⟩) := by
    simp [Session.keep, kept?]
  have hact := fun before after call s =>
    @Pool.Step.act src [] before after ⟨c, .opening, call⟩ s c.name rfl
  have hconsulting := hact [] [.ofCandidate c] .consult .empty
  have hconsulted := hact [⟨c, .opening, .ask⟩] [] .consult .empty
  have hloading := hact [] [⟨c, .opening, .ask⟩] .ask .empty
  have hloaded := hact [⟨c, .opening, .keep d⟩] [] .ask ⟨[], [c.name]⟩
  have hkeeping := hact [] [⟨c, .opening, .keep d⟩] (.keep d) ⟨[], [c.name, c.name]⟩
  have hkept := hact [⟨c, .done (.placed d.kind []), .consult⟩] [] (.keep d)
    ⟨[(c.name, d)], [c.name, c.name]⟩
  rw [step_ask_of_ok h] at hloading hloaded
  rw [step_keep_of_eq rfl] at hkeeping
  rw [step_keep_of_eq hsame] at hkept
  have hrun : Pool.Run src [] (.start [c, c] .empty) _ :=
    (((((Relation.ReflTransGen.single hconsulting).tail hconsulted).tail hloading).tail
      hloaded).tail hkeeping).tail hkept
  exact ⟨_, .concat .nil (.index ⟨_, [.placed d.kind [], .placed d.kind []], hrun, rfl, rfl, rfl⟩),
    rfl⟩

end Twice

end RoleWiring
