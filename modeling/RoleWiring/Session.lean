import RoleWiring.Declaration
import RoleWiring.Entries
import RoleWiring.Fault

/-!
# Sources and sessions

A *source* gives the declarations of types by reading their artifacts. A *session*
remembers what it was told: a type that was found once is not looked up again,
while a failure is not remembered. What a session answers therefore depends on the
source and on what the session holds, and asking never changes it:

* `lookUp_fst` — looking up gives the answer of the session;
* `answer_lookUp` — and leaves all its answers as they were.
-/

namespace RoleWiring

/-- Where declarations come from. Only finitely many types have one. -/
structure Source where
  /-- the declaration of the type of that name, or why there is none -/
  lookUp : String → Except Fault Declaration
  /-- finitely many names have declarations -/
  finite : ∃ names : List String, ∀ name d, lookUp name = .ok d → name ∈ names

/-- The source with the given answers, where the last answer for a name counts. All other
types are not found. -/
def Source.ofAnswers (answers : List (String × Except Fault Declaration)) : Source where
  lookUp name := (answers.reverse.lookup name).getD (.error (.typeMissing name))
  finite := by
    refine ⟨answers.reverse.map Prod.fst, fun name d h => ?_⟩
    rw [← lookup_isSome_iff]
    cases hl : answers.reverse.lookup name with
    | none =>
      rw [hl] at h
      cases h
    | some _ => rfl

/-- The declarations found so far, and the names that the source was asked for. -/
structure Session where
  /-- the declarations that are kept, oldest first -/
  memory : List (String × Declaration)
  /-- the names that the source was asked for, in order -/
  lookups : List String
deriving Inhabited

namespace Session

/-- The session before anything was asked. -/
def empty : Session :=
  ⟨[], []⟩

/-- The declaration that is kept for a name. -/
def kept? (s : Session) (name : String) : Option Declaration :=
  s.memory.lookup name

/-- Asks the source for a type, whatever is kept. -/
def lookUpAfresh (src : Source) (name : String) (s : Session) :
    Except Fault Declaration × Session :=
  (src.lookUp name, { s with lookups := s.lookups ++ [name] })

/-- Keeps a declaration unless one is kept for this name already; gives the one that is kept
then. -/
def keep (name : String) (d : Declaration) (s : Session) : Declaration × Session :=
  match s.kept? name with
  | some d' => (d', s)
  | none => (d, { s with memory := s.memory ++ [(name, d)] })

/-- Looks up a type: the kept declaration if there is one, else that of the source, which is
kept from then on. -/
def lookUp (src : Source) (name : String) (s : Session) :
    Except Fault Declaration × Session :=
  match s.kept? name with
  | some d => (.ok d, s)
  | none =>
    match s.lookUpAfresh src name with
    | (.error fault, s) => (.error fault, s)
    | (.ok d, s) =>
      let (d, s) := s.keep name d
      (.ok d, s)

/-- What the session answers for a name. -/
def answer (src : Source) (s : Session) (name : String) : Except Fault Declaration :=
  match s.kept? name with
  | some d => .ok d
  | none => src.lookUp name

/-- Looking up gives the answer of the session. -/
theorem lookUp_fst (src : Source) (name : String) (s : Session) :
    (s.lookUp src name).1 = s.answer src name := by
  unfold lookUp answer
  cases hk : s.kept? name with
  | some d => rfl
  | none =>
    cases hl : src.lookUp name with
    | error fault => simp [lookUpAfresh, hl]
    | ok d =>
      have : kept? { s with lookups := s.lookups ++ [name] } name = none := hk
      simp [lookUpAfresh, hl, keep, this]

/-- What is kept with one more declaration at the end. -/
theorem kept?_append (name n : String) (d : Declaration) (s : Session) :
    kept? { s with memory := s.memory ++ [(name, d)] } n
      = (s.kept? n).or (if n = name then some d else none) := by
  simp only [kept?, lookup_append, lookup_entry_cons, List.lookup_nil]

/-- Looking up leaves all answers as they were. -/
theorem answer_lookUp (src : Source) (name : String) (s : Session) :
    answer src (s.lookUp src name).2 = answer src s := by
  funext n
  unfold lookUp
  cases hk : s.kept? name with
  | some d => rfl
  | none =>
    cases hl : src.lookUp name with
    | error fault => simp [lookUpAfresh, hl, answer, kept?]
    | ok d =>
      have hk' : kept? { s with lookups := s.lookups ++ [name] } name = none := hk
      simp only [lookUpAfresh, hl, keep, hk', answer]
      have hadd : kept? { memory := s.memory ++ [(name, d)], lookups := s.lookups ++ [name] } n
          = (s.kept? n).or (if n = name then some d else none) := kept?_append name n d s
      rw [hadd]
      cases hn : s.kept? n with
      | some d' => rfl
      | none =>
        by_cases h : n = name
        · simp [h, hl]
        · simp [h]

/-- The direct supertypes of all types with declarations are among these names. -/
def SupertypesAmong (answers : String → Except Fault Declaration) (names : List String) : Prop :=
  ∀ name d, answers name = .ok d → ∀ p ∈ d.directSupertypes, p ∈ names

/-- What is kept was entered. -/
theorem mem_memory_of_kept? {s : Session} {name : String} {d : Declaration}
    (h : s.kept? name = some d) : (name, d) ∈ s.memory :=
  mem_of_lookup h

/-- The direct supertypes of all types with declarations are finitely many. -/
theorem exists_supertypesAmong (src : Source) (s : Session) :
    ∃ names, SupertypesAmong (s.answer src) names := by
  obtain ⟨loadable, hloadable⟩ := src.finite
  let ofSource := loadable.flatMap fun name =>
    match src.lookUp name with
    | .ok d => d.directSupertypes
    | .error _ => []
  refine ⟨s.memory.flatMap (fun e => e.2.directSupertypes) ++ ofSource, fun name d h p hp => ?_⟩
  rw [List.mem_append, List.mem_flatMap, List.mem_flatMap]
  unfold answer at h
  split at h
  · next hk =>
    cases h
    exact .inl ⟨(name, d), mem_memory_of_kept? hk, hp⟩
  · exact .inr ⟨name, hloadable name d h, by rw [h]; exact hp⟩

end Session

end RoleWiring
