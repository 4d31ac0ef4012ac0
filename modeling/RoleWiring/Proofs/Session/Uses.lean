import RoleWiring.Proofs.Ascent.Above
import RoleWiring.Proofs.Session.Asked

/-!
# What uses of a session look up

Walks, searches for a type and indexes use a session only by looking up types. Which types these
are depends only on what the session shows. Here no look-ups overlap, and an index carries out its
checks one after the other: a use is then the look-ups that it asks for, in their order.

* `climb_snd`, `indexRoles_snd` — what the single uses ask for;
* `Use.leaves_eq` — every use leaves what its look-ups leave;
* `after_eq` — and so do uses that follow each other.
-/

namespace RoleWiring

open Session

variable {src : Source}

/-- Steps in turn, each of which is look-ups, are all these look-ups. -/
theorem inTurn_snd {step : α → Session → β × Session} {f : Source → α → List String}
    (hsnd : ∀ item s, (step item s).2 = (lookUpAll src.lookUp (f (s.view src) item) s).2)
    (items : List α) (s : Session) :
    (inTurn step items s).2 = (lookUpAll src.lookUp (items.flatMap (f (s.view src))) s).2 := by
  induction items generalizing s with
  | nil => rfl
  | cons item items ih =>
    show (inTurn step items (step item s).2).2 = _
    rw [ih, hsnd, view_lookUpAll, List.flatMap_cons, lookUpAll_append_snd]

/-! ## Walks -/

namespace Ascent

/-- What a walk looks up until it stops: the last name that was given before, and then every name
that it gives but the one where it stops. -/
def asks (stop : String → Bool) (w : Ascent) (src : Source) : List String :=
  w.last.toList ++ (w.climbDirect src stop).filter fun name => !stop name

theorem lookAbove_snd (src : Source) (w : Ascent) (s : Session) :
    (w.lookAbove src s).2 = (lookUpAll src.lookUp w.last.toList s).2 := by
  cases hlast : w.last with
  | none =>
    rw [lookAbove, hlast]
    rfl
  | some name =>
    rw [lookAbove_eq hlast, Option.toList_some, lookUpAll_cons_snd]
    rfl

/-- A step of a walk looks up the last name that was given. -/
theorem next_snd (src : Source) (w : Ascent) (s : Session) :
    (w.next src s).2.2 = (lookUpAll src.lookUp w.last.toList s).2 := by
  rw [next_eq, ← lookAbove_snd]
  cases w.nextDirect (s.view src) <;> rfl

/-- A walk looks up what it goes on past. -/
theorem climb_snd (src : Source) (stop : String → Bool) (w : Ascent) (s : Session) :
    (w.climb src stop s).2 = (lookUpAll src.lookUp (w.asks stop (s.view src)) s).2 := by
  fun_induction climb src stop w s with
  | case1 w s w' s' hnext =>
    obtain ⟨hd, rfl⟩ := nextDirect_of_next_none hnext
    rw [asks, climbDirect_of_none hd, List.filter_nil, List.append_nil, lookAbove_snd]
  | case2 w s name w' s' hnext hstop =>
    obtain ⟨hd, rfl⟩ := nextDirect_of_next_some hnext
    rw [asks, climbDirect_of_some hd, if_pos hstop, List.filter_cons_of_neg (by simp [hstop]),
      List.filter_nil, List.append_nil, lookAbove_snd]
  | case3 w s name w' s' hnext hstop names s'' hrest ih =>
    -- the rest of the walk looks up the name that is given now before any other
    obtain ⟨hd, rfl⟩ := nextDirect_of_next_some hnext
    obtain ⟨-, -, hlast⟩ := nextDirect_eq_some hd
    rw [hrest, view_lookAbove, asks, hlast] at ih
    rw [asks, climbDirect_of_some hd, if_neg hstop, List.filter_cons_of_pos (by simp [hstop]),
      lookUpAll_append_snd, ← lookAbove_snd]
    exact ih

end Ascent

/-! ## Indexes -/

namespace RoleIndex

/-- What the check of a candidate against a role looks up. -/
def belongsAsks (name : String) (src : Source) (role : Role × Bool) : List String :=
  if role.2 then (Ascent.start name).asks (· == role.1.type) src else []

/-- What the check of a candidate looks up. -/
def examineAsks (roles : List (Role × Bool)) (src : Source) (candidate : Artifact) : List String :=
  candidate.name ::
    if (src.lookUp candidate.name).isOk then roles.flatMap (belongsAsks candidate.name src) else []

variable (src : Source)

theorem activate_snd (scanned : List String) (role : Role) (s : Session) :
    (activate src scanned role s).2 = (lookUpAll src.lookUp [role.type] s).2 := by
  rw [lookUpAll_cons_snd]
  unfold activate
  rcases s.lookUp src role.type with ⟨fault | d, s'⟩
  · cases fault <;> rfl
  · rfl

theorem belongs_snd (name : String) (role : Role × Bool) (s : Session) :
    (belongs src name role s).2 =
      (lookUpAll src.lookUp (belongsAsks name (s.view src) role) s).2 := by
  unfold belongs belongsAsks
  split
  · exact Ascent.climb_snd src (· == role.1.type) (Ascent.start name) s
  · rfl

theorem examine_snd (roles : List (Role × Bool)) (candidate : Artifact) (s : Session) :
    (examine src roles candidate s).2 =
      (lookUpAll src.lookUp (examineAsks roles (s.view src) candidate) s).2 := by
  have hview := view_lookUp src candidate.name s
  rw [examineAsks, lookUpAll_cons_snd]
  unfold examine
  rw [← lookUp_fst_eq_view]
  rcases hl : s.lookUp src candidate.name with ⟨fault | d, s'⟩
  · rfl
  · rw [hl] at hview
    rw [← hview]
    exact inTurn_snd (belongs_snd src candidate.name) roles s'

end RoleIndex

open RoleIndex

/-- What an index looks up: the types of the roles, and then what the checks of the candidates
do. -/
def indexAsks (roles : List Role) (candidates : List Artifact) (src : Source) : List String :=
  roles.map Role.type ++
    candidates.flatMap
      (examineAsks (enabledDirect src (candidates.map Artifact.name) roles) src)

theorem indexRoles_snd (src : Source) (roles : List Role) (candidates : List Artifact)
    (s : Session) :
    (indexRoles src roles candidates s).2 =
      (lookUpAll src.lookUp (indexAsks roles candidates (s.view src)) s).2 := by
  have hfst := inTurn_fst (f := fun v => activateDirect v (candidates.map Artifact.name))
    (activate_fst src (candidates.map Artifact.name))
    (view_activate src (candidates.map Artifact.name)) roles s
  have hsnd := inTurn_snd (f := fun _ role => [role.type])
    (activate_snd src (candidates.map Artifact.name)) roles s
  have hview := view_inTurn (view_activate src (candidates.map Artifact.name)) roles s
  unfold indexRoles
  rcases hroles : inTurn (activate src (candidates.map Artifact.name)) roles s
    with ⟨activations, s'⟩
  rw [hroles] at hfst hsnd hview
  rw [← List.map_eq_flatMap] at hsnd
  dsimp only at hfst hsnd hview ⊢
  rw [inTurn_snd (examine_snd src _), indexAsks, lookUpAll_append_snd, ← hsnd, hview, hfst]
  rfl

/-! ## All uses -/

/-- What is done with a session. -/
inductive Use where
  /-- a type is looked up -/
  | lookUp (name : String)
  /-- a walk takes its next step -/
  | next (w : Ascent)
  /-- a walk goes on until it is to stop, as in the search for one type -/
  | climb (stop : String → Bool) (w : Ascent)
  /-- candidates are indexed by role, as in a run -/
  | index (roles : List Role) (candidates : List Artifact)

namespace Use

/-- The session that a use leaves if its look-ups wait for each other. -/
def leaves (src : Source) (s : Session) : Use → Session
  | lookUp name => (s.lookUp src name).2
  | next w => (w.next src s).2.2
  | climb stop w => (w.climb src stop s).2
  | index roles candidates => (indexRoles src roles candidates s).2

/-- What a use looks up. -/
def asks (src : Source) : Use → List String
  | lookUp name => [name]
  | next w => w.last.toList
  | climb stop w => w.asks stop src
  | index roles candidates => indexAsks roles candidates src

/-- A use leaves what its look-ups leave. -/
theorem leaves_eq (src : Source) (s : Session) (use : Use) :
    use.leaves src s = (lookUpAll src.lookUp (use.asks (s.view src)) s).2 := by
  cases use with
  | lookUp name => exact (lookUpAll_cons_snd src name [] s).symm
  | next w => exact w.next_snd src s
  | climb stop w => exact w.climb_snd src stop s
  | index roles candidates => exact indexRoles_snd src roles candidates s

end Use

namespace Session

/-- A session that was new, after these uses of it, none of whose look-ups overlap. -/
def after (src : Source) (uses : List Use) : Session :=
  uses.foldl (Use.leaves src) empty

/-- Uses that follow each other leave what their look-ups leave. -/
theorem after_eq (src : Source) (uses : List Use) :
    after src uses = (lookUpAll src.lookUp (uses.flatMap (Use.asks src)) empty).2 := by
  induction uses using List.reverseRecOn with
  | nil => rfl
  | append_singleton uses use ih =>
    have hview : (after src uses).view src = src := by
      rw [ih, view_lookUpAll, view_empty]
    rw [after, List.foldl_concat]
    show use.leaves src (after src uses) = _
    rw [use.leaves_eq, hview, ih, ← lookUpAll_append_snd, List.flatMap_append,
      List.flatMap_singleton]

end Session

end RoleWiring
