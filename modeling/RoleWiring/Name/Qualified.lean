/-!
# Qualified names

The name of a type is a dotted text such as `com.example.Outer$Inner`. Class
files write the same name with slashes.
-/

namespace RoleWiring

/-- The segments of a qualified name, from the outermost package inwards. -/
def nameSegments (name : String) : List (List Char) :=
  name.toList.splitOn '.'

/-- The qualified name with the given segments. -/
def qualifiedName (segments : List (List Char)) : String :=
  String.ofList (['.'].intercalate segments)

/-- The last segment of a name, the type without its packages. -/
def shortName (name : String) : String :=
  String.ofList ((nameSegments name).getLast?.getD [])

/-- The qualified name that a class file spells with slashes. -/
def ofInternalName (name : String) : String :=
  String.ofList (name.toList.map fun c => if c = '/' then '.' else c)

/-- Splitting a name loses nothing. -/
theorem qualifiedName_nameSegments (name : String) :
    qualifiedName (nameSegments name) = name := by
  simp [qualifiedName, nameSegments, List.intercalate_splitOn]

/-- Joined segments that hold no dot are found again. -/
theorem nameSegments_qualifiedName {segments : List (List Char)} (hne : segments ≠ [])
    (h : ∀ s ∈ segments, '.' ∉ s) : nameSegments (qualifiedName segments) = segments := by
  simp [qualifiedName, nameSegments, List.splitOn_intercalate '.' h hne]

end RoleWiring
