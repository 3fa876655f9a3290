import PlanOrbits.Text.Blank

/-!
# Files

What the commands do with files, and the paths that they make for it. `Files` is a parameter of
all that reads or writes: a statement about a command holds for every computation with these
operations, whatever files there are and whatever becomes of them.
-/

namespace PlanOrbits

/-!
## Paths

The names on the way to a file, from the root or from the directory where relative paths
begin.
-/

namespace Path

/-- The parts of a path between slashes. -/
def parts (path : String) : List String :=
  (Text.pieces (· == '/') path.toList).map String.ofList

/-- Does the path begin at the root? -/
def isAbsolute (path : String) : Bool := path.toList.head? == some '/'

/-- The parts of a path that name something. A dot counts only at the beginning of
a relative path. -/
def components (path : String) : List String :=
  let named := (parts path).filter fun part => part != "" && part != "."
  if (parts path).head? == some "." then "." :: named else named

/-- The path with the given components, at the root if `isAbsolute` holds. -/
def ofComponents (isAbsolute : Bool) (names : List String) : String :=
  (if isAbsolute then "/" else "") ++ "/".intercalate names

/-- The path of the directory in which a path ends; the root has none. It is empty
for a path of one component. -/
def parent? (path : String) : Option String :=
  if (components path).isEmpty then none
  else some (ofComponents (isAbsolute path) (components path).dropLast)

/-- The path of a file in a directory. -/
def join (directory file : String) : String :=
  if directory.toList.getLast? == some '/' then directory ++ file else directory ++ "/" ++ file

end Path

/-! ## Access to files -/

/-- Computations with access to files. -/
class Files (m : Type → Type) where
  /-- The bytes of a file, if it can be read. -/
  read? : String → m (Option (List UInt8))
  /-- Give a file new content. Tells whether it was possible. -/
  write : String → List UInt8 → m Bool
  /-- Make a directory, and the directories around it, if they are not there. Tells
  whether it is there afterwards. -/
  createDirectory : String → m Bool

end PlanOrbits
