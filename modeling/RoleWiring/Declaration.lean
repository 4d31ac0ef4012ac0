/-!
# Declarations

What is known of a type without running it: its name, its kind and the names of
its direct supertypes, not looked up any further.
-/

namespace RoleWiring

/-- The kinds of type. -/
inductive Kind where
  | concreteClass
  | abstractClass
  | interface
  | enum
  | annotationType
deriving DecidableEq, Repr

namespace Kind

/-- Only plain concrete classes can be instantiated by name. -/
def hasInstances : Kind → Bool
  | concreteClass => true
  | _ => false

/-- The words for a kind in tables and messages. -/
def display : Kind → String
  | concreteClass => "class"
  | abstractClass => "abstract class"
  | interface => "interface"
  | enum => "enum"
  | annotationType => "annotation"

theorem hasInstances_iff {k : Kind} : k.hasInstances = true ↔ k = concreteClass := by
  cases k <;> simp [hasInstances]

end Kind

/-- The declaration of one type. -/
structure Declaration where
  /-- the qualified name -/
  name : String
  /-- the kind of type -/
  kind : Kind
  /-- the superclass, which only the root of all classes lacks -/
  superClass : Option String
  /-- the interfaces in the order of their declaration -/
  interfaces : List String
deriving DecidableEq, Repr

/-- The direct supertypes: the superclass first, then the interfaces as declared. -/
def Declaration.directSupertypes (d : Declaration) : List String :=
  d.superClass.toList ++ d.interfaces

/-- A direct supertype is the superclass or one of the interfaces. -/
theorem Declaration.mem_directSupertypes {d : Declaration} {name : String} :
    name ∈ d.directSupertypes ↔ d.superClass = some name ∨ name ∈ d.interfaces := by
  rw [directSupertypes, List.mem_append, Option.mem_toList]

end RoleWiring
