import RoleWiring.FileTree.Node

/-!
# The difference between two trees

What has to be written to turn one file tree into another that has grown out of
it: new directories before what is in them, and files whose content is new.
-/

namespace RoleWiring

namespace Node

/-- The directory with nothing in it, or the file with its content. -/
def bare : Node → Node
  | dir _ => dir []
  | node => node

/-- The entry that was there before is to be kept as it is, apart from what is below it. -/
def keeps : Option Node → Node → Bool
  | some (file old), file new => old = new
  | some (dir _), dir _ => true
  | some (link old), link new => old = new
  | _, _ => false

/-- The places in `new`, itself at `place`, where `old` has something else, with what to put
there. -/
def growth (old : Option Node) (place : Location) (new : Node) : List (Location × Node) :=
  (if keeps old new then [] else [(place, new.bare)]) ++
    new.names.flatMap fun name =>
      match _h : new.child? name with
      | none => []
      | some child => growth (old >>= (·.child? name)) (place ++ [name]) child
termination_by sizeOf new
decreasing_by exact sizeOf_child? _h

end Node

end RoleWiring
