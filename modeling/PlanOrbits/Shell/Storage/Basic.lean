import PlanOrbits.Shell.Storage.Register

/-!
# Storage

What scripts may do with files, which is more than the commands of the program do: they list
directories, remove files and make links. Scripts are run by any computation with these few
operations, so that they can be run on the files of a machine as well as on a tree of files
that is a value. Such a computation has access to files, too, in the sense of `Files`.

Paths may go through links. A link at the end of a path stands for the file to which it
leads, which may only come to be by that; but nothing can be made where a link leads nowhere,
if it has to be a directory.
-/

namespace PlanOrbits

/-- Computations with access to the entries of directories. -/
class Storage (m : Type → Type) where
  /-- The path of the directory where relative paths begin, from the root on. -/
  workingDirectory : m String
  /-- The bytes of a file, if it can be read. -/
  read? : String → m (Option (List UInt8))
  /-- Give a file new content. Tells whether it was possible. -/
  write : String → List UInt8 → m Bool
  /-- Make a directory, and the directories around it, if they are not there. Tells
  whether it is there afterwards. -/
  createDirectory : String → m Bool
  /-- The names in a directory, if there is one. -/
  entries? : String → m (Option (List String))
  /-- Remove a file or an empty directory. Tells whether it was possible. -/
  remove : String → m Bool
  /-- What is known of files and directories besides their content. -/
  register : m Register
  setRegister : Register → m Unit

end PlanOrbits

namespace PlanOrbits.Storage

variable {m : Type → Type} [Monad m] [Storage m]

/-- A path from the root on. -/
def fullPath (path : String) : m String := do
  if Path.isAbsolute path then return path
  else return Path.join (← workingDirectory) path

/-- A path to the same file that goes through no link. -/
def plainPath? (path : String) : m (Option String) := do
  let register ← register
  if register.notes.isEmpty then return some path
  else return register.plainPath? (← fullPath path)

/-- The bytes of the file to which a path leads. -/
def readBehind? (path : String) : m (Option (List UInt8)) := do
  match ← plainPath? path with
  | some path => read? path
  | none => return none

/-- Give the file to which a path leads new content. Tells whether it was possible. -/
def writeBehind (path : String) (bytes : List UInt8) : m Bool := do
  match ← plainPath? path with
  | some path => write path bytes
  | none => return false

/-- Does a path lead to a directory? -/
def isDirectory (path : String) : m Bool := do
  match ← plainPath? path with
  | some path => return (← entries? path).isSome
  | none => return false

/-- Is there a link at a path? -/
def isLink (path : String) : m Bool := do
  let register ← register
  let place? := register.entryPlace? (← fullPath path)
  return place?.any fun place => (register.link? place).isSome

/-- Make the first of some directories, where the others are those around it, if it is not
there. -/
def makeBehind : List String → m Bool
  | [] => return true
  | path :: around => do
      if ← isDirectory path then return true
      else if ← isLink path then return false
      else if ← makeBehind around then
        match ← plainPath? path with
        | some path => createDirectory path
        | none => return false
      else return false

/-- Make a directory and those around it. Tells whether it is there afterwards. -/
def createDirectoryBehind (path : String) : m Bool := do
  if (← register).notes.isEmpty then createDirectory path
  else makeBehind (path :: Path.ancestors path)

/-- What the commands of the program read and write is behind the links that scripts made. -/
instance : Files m where
  read? := readBehind?
  write := writeBehind
  createDirectory := createDirectoryBehind

end PlanOrbits.Storage
