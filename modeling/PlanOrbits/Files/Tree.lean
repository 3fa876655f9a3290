import PlanOrbits.Shell.Evaluation
import Std.Data.ExtTreeMap
import Std.Data.ExtTreeSet

/-!
# Trees of files

Files and directories as a value, on which the shell can run scripts. A place in the tree
is the list of names that lead to it from the root; relative paths start at the working
directory.

A path may go through a directory only if it is there. The two names with dots
mean what they always mean, and a path that ends in one of them, or in a slash,
can only be a directory. So a path that ends in a dot names no directory that
could be made, though the directories around it can be.
-/

namespace PlanOrbits

open Std (ExtTreeMap ExtTreeSet)

/-- Files and directories. -/
structure FileTree where
  workingDirectory : List String
  /-- The content of the files by their places. -/
  files : ExtTreeMap String (List UInt8)
  /-- The places of directories other than the root. -/
  directories : ExtTreeSet String
  /-- What is known of entries besides that. -/
  register : Register

namespace FileTree

/-- The path of a place. -/
def pathOf (place : List String) : String := "/".intercalate place

/-- The device that swallows everything. -/
def nullDevice : List String := ["dev", "null"]

/-- The directories that are there on every machine. -/
def usualDirectories : List String :=
  ["bin", "boot", "dev", "etc", "home", "lib", "media", "mnt", "opt", "proc", "root", "run", "sbin",
    "srv", "sys", "tmp", "usr", "usr/bin", "usr/lib", "usr/local", "usr/local/bin", "usr/sbin",
    "usr/share", "var", "var/lib", "var/log", "var/tmp"]

/-- A tree without files, in which nothing but the working directory is unusual. -/
def empty : FileTree where
  workingDirectory := ["tmp", "work"]
  files := ∅
  directories := .ofList ("tmp/work" :: usualDirectories)
  register := .empty

variable (t : FileTree)

/-- Is there a directory? -/
def isDirectory (place : List String) : Bool :=
  place.isEmpty || t.directories.contains (pathOf place)

/-- Is there a file? -/
def isFile (place : List String) : Bool := t.files.contains (pathOf place)

/-- The place where a path begins. -/
def startOf (path : String) : List String :=
  if Path.isAbsolute path then [] else t.workingDirectory

/-- The place that a path leads to, and whether it can only be a directory. -/
def follow? (place : List String) : List String → Option (List String × Bool)
  | [] => some (place, true)
  | part :: parts =>
      if part == "" || part == "." then follow? place parts
      else if part == ".." then follow? place.dropLast parts
      else if parts.isEmpty then some (place ++ [part], false)
      else if t.isDirectory (place ++ [part]) then follow? (place ++ [part]) parts
      else none

/-- The place of a file, which may be there or not. -/
def filePlace? (path : String) : Option (List String) :=
  match t.follow? (t.startOf path) (Path.parts path) with
  | some (place, false) =>
      if t.isDirectory place || !Path.isInLimits path then none else some place
  | _ => none

/-- The content of a file. -/
def read? (path : String) : Option (List UInt8) := do
  let place ← t.filePlace? path
  if place = nullDevice then some [] else t.files[pathOf place]?

/-- The tree after a file was written. -/
def write? (path : String) (bytes : List UInt8) : Option FileTree := do
  let place ← t.filePlace? path
  if place = nullDevice then some t
  else some { t with files := t.files.insert (pathOf place) bytes }

/-- What becomes of an attempt to make one directory. -/
inductive Making where
  | made (t : FileTree)
  /-- There is a directory already. -/
  | there
  /-- There is no directory in which it could be made. -/
  | missing
  /-- A file is in the way, or the path is too long. -/
  | blocked

/-- Make a directory at the end of parts of a path, which begin at a place. Nothing
can be made at a name with dots. -/
def makeAt (t : FileTree) (place : List String) : List String → Making
  | [] => .there
  | part :: parts =>
      let next := place ++ [part]
      if part == "" || part == "." then makeAt t place parts
      else if part == ".." then makeAt t place.dropLast parts
      else if t.isDirectory next then makeAt t next parts
      else if t.isFile next || next == nullDevice then .blocked
      else if parts.all (· == "") then
        .made { t with directories := t.directories.insert (pathOf next) }
      else .missing

/-- Make one directory. -/
def make (path : String) : Making :=
  if Path.isInLimits path then t.makeAt (t.startOf path) (Path.parts path) else .blocked

/-- Make the first of the directories; where the one around it is missing, make the
others before. -/
def makeWithin? (t : FileTree) : List String → Option FileTree
  | [] => some t
  | path :: around =>
      match t.make path with
      | .made t => some t
      | .there => some t
      | .blocked => none
      | .missing => do
          let t ← makeWithin? t around
          match t.make path with
          | .made t => some t
          | .there => some t
          | _ => none

/-- The tree with a directory and those around it. -/
def createDirectory? (path : String) : Option FileTree :=
  t.makeWithin? (path :: Path.ancestors path)

/-- The tree with a file and the directories around it, unless something is in the
way. -/
def addFile (path : String) (bytes : List UInt8) : FileTree :=
  ((t.makeWithin? (Path.ancestors path)).bind (·.write? path bytes)).getD t

/-- The tree with the given files, whose paths start at the working directory. -/
def ofFiles (files : List (String × List UInt8)) : FileTree :=
  files.foldl (fun t (path, bytes) => t.addFile path bytes) empty

/-- The places of files and directories. -/
def places : List String := t.files.keys ++ t.directories.toList

/-- The names in the directory at a place. -/
def namesAt (place : List String) : List String :=
  let start := (pathOf place ++ (if place.isEmpty then "" else "/")).toList
  t.places.filterMap fun path =>
    let name := path.toList.drop start.length
    if start.isPrefixOf path.toList && !name.contains '/' then some (String.ofList name) else none

/-- The names in a directory. -/
def entries? (path : String) : Option (List String) := do
  let (place, _) ← t.follow? (t.startOf path) (Path.parts path)
  if t.isDirectory place then some (t.namesAt place) else none

/-- The tree without a file or an empty directory. -/
def remove? (path : String) : Option FileTree := do
  let (place, _) ← t.follow? (t.startOf path) (Path.parts path)
  let name := pathOf place
  if t.isFile place then some { t with files := t.files.erase name }
  else if t.isDirectory place && (t.namesAt place).isEmpty then
    some { t with directories := t.directories.erase name }
  else none

/-- The files in a directory and in those in it, through links, too; `path` is the path of
the directory, and `name` what stands in front of the names of its entries. -/
def filesIn : (depth : Nat) → (path name : String) → List (String × List UInt8)
  | 0, _, _ => []
  | depth + 1, path, name =>
      let names := (t.entries? ((t.register.plainPath? path).getD path)).getD [] ++
        (t.register.filePlace? path).elim [] t.register.namesIn
      names.eraseDups.flatMap fun entry =>
        let inner := Path.join path entry
        match t.register.plainPath? inner with
        | none => []
        | some plain =>
            match t.read? plain with
            | some bytes => [(name ++ entry, bytes)]
            | none => filesIn depth inner (name ++ entry ++ "/")

/-- The files below the working directory, with paths that start there. -/
def filesBelow : List (String × List UInt8) :=
  t.filesIn (Register.linkLimit + 1) ("/" ++ pathOf t.workingDirectory) ""

/-- The files below the working directory that are new, or have another content
than in `before`. -/
def changesSince (before : FileTree) : List (String × List UInt8) :=
  let old := before.filesBelow
  t.filesBelow.filter fun file => !old.contains file

/-- Change the tree, if that is possible. -/
def attempt (change : FileTree → Option FileTree) : StateM FileTree Bool := fun t =>
  match change t with
  | some changed => (true, changed)
  | none => (false, t)

instance : Storage (StateM FileTree) where
  workingDirectory := return "/" ++ pathOf (← get).workingDirectory
  read? path := return (← get).read? path
  write path bytes := attempt (·.write? path bytes)
  createDirectory path := attempt (·.createDirectory? path)
  entries? path := return (← get).entries? path
  remove path := attempt (·.remove? path)
  register := return (← get).register
  setRegister register := modify fun t => { t with register }

end FileTree

end PlanOrbits
