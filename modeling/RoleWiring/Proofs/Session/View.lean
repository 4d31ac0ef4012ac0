import RoleWiring.Session

/-!
# What a session shows

A session answers from what it keeps and otherwise from its source, and asking it
changes none of its answers. Its answers are therefore those of a source in their
own right, the *view* of the session. A session is *faithful* when it keeps nothing
but what the source gives; then its view is the source itself.

* `view_lookUp` — asking leaves the view as it was;
* `view_of_faithful` — a faithful session cannot be told from its source;
* `Faithful.lookUp` — and stays faithful, whatever it is asked.
-/

namespace RoleWiring

/-- `x` has a declaration, in which `y` is the superclass or one of the interfaces. -/
def Source.Below (src : Source) (x y : String) : Prop :=
  ∃ d, src.lookUp x = .ok d ∧ (d.superClass = some y ∨ y ∈ d.interfaces)

/-- Nothing is directly above a type without a declaration. -/
theorem Source.not_below_of_error {src : Source} {x y : String} {fault : Fault}
    (h : src.lookUp x = .error fault) : ¬ src.Below x y := by
  rintro ⟨d, hd, -⟩
  cases h.symm.trans hd

/-- What is directly above a type are the direct supertypes of its declaration. -/
theorem Source.below_iff {src : Source} {x y : String} {d : Declaration}
    (h : src.lookUp x = .ok d) : src.Below x y ↔ y ∈ d.directSupertypes := by
  rw [Declaration.mem_directSupertypes]
  constructor
  · rintro ⟨d', hd', hy⟩
    cases h.symm.trans hd'
    exact hy
  · exact fun hy => ⟨d, h, hy⟩

/-- The source finds no artifact of the type. -/
def Source.Lacks (src : Source) (name : String) : Prop :=
  ∃ n, src.lookUp name = .error (.typeMissing n)

/-- Sources that give the same answers are equal. -/
theorem Source.ext {a b : Source} (h : a.lookUp = b.lookUp) : a = b := by
  cases a
  cases b
  cases h
  rfl

namespace Session

variable (src : Source)

/-- Only finitely many types have a declaration in a session. -/
theorem finite_answer (s : Session) :
    ∃ names : List String, ∀ name d, s.answer src name = .ok d → name ∈ names := by
  obtain ⟨loadable, hloadable⟩ := src.finite
  refine ⟨s.memory.map Prod.fst ++ loadable, fun name d h => List.mem_append.mpr ?_⟩
  unfold answer at h
  split at h
  · next hk => exact .inl (List.mem_map_of_mem (mem_memory_of_kept? hk))
  · exact .inr (hloadable name d h)

/-- The answers of a session, as a source. -/
def view (s : Session) : Source where
  lookUp := s.answer src
  finite := finite_answer src s

/-- A new session shows its source. -/
theorem view_empty : view src empty = src :=
  rfl

/-- Looking up gives the answer in view. -/
theorem lookUp_fst_eq_view (name : String) (s : Session) :
    (s.lookUp src name).1 = (s.view src).lookUp name :=
  lookUp_fst src name s

/-- Looking up leaves the view as it was. -/
theorem view_lookUp (name : String) (s : Session) :
    view src (s.lookUp src name).2 = s.view src :=
  Source.ext (answer_lookUp src name s)

/-! ## Faithful sessions -/

/-- Everything that is kept is what the source gives. -/
def Faithful (s : Session) : Prop :=
  ∀ name d, s.kept? name = some d → src.lookUp name = .ok d

/-- The session before anything was asked is faithful. -/
theorem faithful_empty : Faithful src empty := by
  intro name d h
  cases h

variable {src}

/-- A faithful session shows its source. -/
theorem view_of_faithful {s : Session} (h : s.Faithful src) : s.view src = src := by
  refine Source.ext (funext fun name => ?_)
  show s.answer src name = src.lookUp name
  unfold answer
  split
  · next d hk => exact (h name d hk).symm
  · rfl

/-- What a session shows is what it keeps, where it keeps something. -/
theorem view_of_kept? {s : Session} {name : String} {d : Declaration}
    (h : s.kept? name = some d) : (s.view src).lookUp name = .ok d := by
  show s.answer src name = .ok d
  rw [answer, h]

/-- A session that shows the source is faithful. -/
theorem faithful_of_view {s : Session} (h : s.view src = src) : s.Faithful src := by
  intro name d hk
  have hview : (s.view src).lookUp name = .ok d := view_of_kept? hk
  rw [h] at hview
  exact hview

/-- A faithful session stays faithful when it is asked. -/
theorem Faithful.lookUp {s : Session} (h : s.Faithful src) (name : String) :
    (s.lookUp src name).2.Faithful src :=
  faithful_of_view ((view_lookUp src name s).trans (view_of_faithful h))

end Session

end RoleWiring
