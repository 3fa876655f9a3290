import PlanOrbits.Shell.Entry
import PlanOrbits.Shell.Utility.Input

/-!
# Programs about paths

Taking paths apart, finding the places to which they lead, and finding the programs that are
called by their names.
-/

namespace PlanOrbits.Shell.Action

variable {m : Type → Type} [Monad m] [Storage m]

/-! ## Parts of paths -/

/-- A path without slashes at its end. -/
def dropSlashes (cs : List Char) : List Char := (cs.reverse.dropWhile (· == '/')).reverse

/-- The last component of a path. -/
def baseName (path : List Char) : List Char :=
  let cs := dropSlashes path
  if cs.isEmpty then (if path.isEmpty then [] else ['/'])
  else (cs.reverse.takeWhile (· != '/')).reverse

/-- A path without its last component. -/
def directoryName (path : List Char) : List Char :=
  let cs := dropSlashes path
  if cs.isEmpty then (if path.isEmpty then ['.'] else ['/'])
  else if cs.contains '/' then
    let front := dropSlashes (cs.reverse.dropWhile (· != '/')).reverse
    if front.isEmpty then ['/'] else front
  else ['.']

/-- A text without a suffix that is not all of it. -/
def dropSuffix (suffix cs : List Char) : List Char :=
  if suffix.reverse.isPrefixOf cs.reverse && suffix != cs then cs.take (cs.length - suffix.length)
  else cs

/-- The path of an entry of a directory. -/
def inDirectory (directory name : List Char) : List Char :=
  if directory.getLast? == some '/' then directory ++ name else directory ++ '/' :: name

/-- What ends the answers of a program: a null character if a flag asks for it. -/
def endMark (f : Flags) : Char := if f.has 'z' then '\x00' else '\n'

/-- Write the last components of paths. -/
def writeBaseNames (args : List (List Char)) : Action m Unit := do
  let table : FlagTable :=
    { plain := "az", valued := "s", isMixed := false
      long := [("multiple", 'a'), ("suffix", 's'), ("zero", 'z')] }
  match Flags.ofArgs? table args with
  | none => finish 1
  | some f =>
      let names := fun (suffix : List Char) (paths : List (List Char)) =>
        let names := paths.map fun path => dropSuffix suffix (baseName path)
        answer (Line.joinEndedBy (endMark f) names)
      if f.has 'a' || f.has 's' then
        if f.operands.isEmpty then finish 1 else names ((f.value? 's').getD []) f.operands
      else
        match f.operands with
        | [path] => names [] [path]
        | [path, suffix] => names suffix [path]
        | [] =>
            report "basename" "missing operand"
            finish 1
        | _ :: _ :: extra :: _ =>
            report "basename" ("extra operand '" ++ shown extra ++ "'")
            finish 1

/-- Write paths without their last components. -/
def writeDirectoryNames (args : List (List Char)) : Action m Unit := do
  let table : FlagTable :=
    { plain := "z", valued := "", long := [("zero", 'z')], isMixed := true }
  match Flags.ofArgs? table args with
  | some f =>
      if f.operands.isEmpty then
        report "dirname" "missing operand"
        finish 1
      else answer (Line.joinEndedBy (endMark f) (f.operands.map directoryName))
  | none => finish 1

/-! ## Places -/

/-- How much of a path has to be there. -/
inductive Presence where
  | all
  /-- All but the last component. -/
  | front
  | none
  deriving DecidableEq, Repr

/-- The path from the root to the place to which a path leads, if what has to be there
is there. -/
def realPath? (presence : Presence) (followsLinks : Bool) (path : List Char) :
    Action m (Option (List Char)) := do
  if path.isEmpty then return none
  let place? ←
    if followsLinks then filePlace? path
    else pure ((← fullPath? path).map Location.ofPath)
  match place? with
  | none => return none
  | some place =>
      let names := if place.head? == some "/" then place.tail else place
      let real := '/' :: List.intercalate ['/'] (names.map Bytes.charsOfText)
      let isGood ←
        match presence with
        | .all => isThere path
        | .none => pure true
        | .front => do
            if ← isThere path then pure true
            else isDirectory (Bytes.charsOfText (Location.toPath place.dropLast))
      return if isGood then some real else none

/-- The path from one directory to a place, both given from the root. -/
def relativePath (place directory : List Char) : List Char :=
  let names := fun (path : List Char) => (Text.pieces (· == '/') path).filter (!·.isEmpty)
  go (names place) (names directory)
where
  /-- Drop what both have in front. -/
  go : List (List Char) → List (List Char) → List Char
    | a :: as, b :: bs => if a == b then go as bs else spell (a :: as) (b :: bs)
    | as, bs => spell as bs
  /-- Go up as often as there are names, and then down. -/
  spell (down up : List (List Char)) : List Char :=
    let names := up.map (fun _ => ['.', '.']) ++ down
    if names.isEmpty then ['.'] else List.intercalate ['/'] names

/-- Does a path lead to a directory or what is in it? Both begin at the root. -/
def isWithin (directory path : List Char) : Bool :=
  path == directory || directory == ['/'] || (directory ++ ['/']).isPrefixOf path

/-- Write the paths from the root to the places of files. -/
def writeRealPaths (args : List (List Char)) : Action m Unit := do
  let table : FlagTable :=
    { plain := "emLPqsz", valued := "tb", isMixed := true
      long := [("canonicalize-existing", 'e'), ("canonicalize-missing", 'm'), ("logical", 'L'),
        ("physical", 'P'), ("quiet", 'q'), ("strip", 's'), ("no-symlinks", 's'), ("zero", 'z'),
        ("relative-to", 't'), ("relative-base", 'b')] }
  match Flags.ofArgs? table args with
  | none => finish 1
  | some f =>
      let presence :=
        if f.has 'e' then Presence.all else if f.has 'm' then Presence.none else Presence.front
      let real := realPath? presence (!f.has 's')
      let place? := fun (value : Option (List Char)) =>
        match value with
        | some path => real path
        | none => pure none
      let start? ← place? (f.value? 't')
      let base? ← place? (f.value? 'b')
      let results ← f.operands.mapM fun path => do
        match ← real path with
        | some place =>
            let isBelow := base?.all fun base =>
              isWithin base place && start?.all fun start => isWithin base start
            let text :=
              match if isBelow then start?.or base? else none with
              | some start => relativePath place start
              | none => place
            say (text ++ [endMark f])
            return true
        | none =>
            if !f.has 'q' then report "realpath" (shown path ++ ": No such file or directory")
            return false
      if f.operands.isEmpty then report "realpath" "missing operand"
      succeed (!f.operands.isEmpty && results.all (·))

/-- Write where links lead. -/
def writeLinks (args : List (List Char)) : Action m Unit := do
  let table : FlagTable :=
    { plain := "femnqsvz", valued := "", isMixed := true
      long := [("canonicalize", 'f'), ("canonicalize-existing", 'e'),
        ("canonicalize-missing", 'm'), ("no-newline", 'n'), ("quiet", 'q'), ("silent", 's'),
        ("verbose", 'v'), ("zero", 'z')] }
  match Flags.ofArgs? table args with
  | none => finish 1
  | some f =>
      let presence? :=
        if f.has 'e' then some Presence.all
        else if f.has 'm' then some Presence.none
        else if f.has 'f' then some Presence.front
        else none
      let results ← f.operands.mapM fun path => do
        let text? ←
          match presence? with
          | some presence => realPath? presence true path
          | none => do
              match (← entry? false path).map Entry.kind with
              | some (.link target) => pure (some target)
              | _ => pure none
        match text? with
        | some text =>
            say (if f.has 'n' && f.operands.length == 1 then text else text ++ [endMark f])
            return true
        | none =>
            if f.has 'v' then
              let reason :=
                if ← isThere path then "Invalid argument" else "No such file or directory"
              report "readlink" (shown path ++ ": " ++ reason)
            return false
      if f.operands.isEmpty then report "readlink" "missing operand"
      succeed (!f.operands.isEmpty && results.all (·))

/-- The program about paths with a name, if there is one. -/
def pathProgram? (name : String) : Option (List (List Char) → Action m Unit) :=
  match name with
  | "basename" => some writeBaseNames
  | "dirname" => some writeDirectoryNames
  | "realpath" => some writeRealPaths
  | "readlink" => some writeLinks
  | _ => none

/-! ## Looking for programs

A program is called by its name, and lies in one of the directories that a variable
names; or it is called by its path. -/

/-- The name of the program at a path, if it is one of those that are always there. -/
def programAt? (path : List Char) : Action m (Option String) := do
  return (← filePlace? path).bind fun place =>
    if Entry.isProgram place then place.getLast? else none

/-- The path of the program with a name. Nothing between two colons is the present
directory. -/
def programPath? (name : List Char) : Action m (Option (List Char)) := do
  if name.contains '/' then return if ← isExecutable name then some name else none
  match (← get).located.lookup name with
  | some path => return some path
  | none =>
      let directories := Text.pieces (· == ':') ((← get).value "PATH".toList)
      let paths := directories.map fun directory =>
        if directory.isEmpty then name else inDirectory directory name
      let found ← paths.filterM isExecutable
      if let path :: _ := found then
        modify fun s => { s with located := s.located ++ [(name, path)] }
      return found.head?

/-- Tell where programs lie. -/
def which (args : List (List Char)) : Action m Unit := do
  let names := args.filter (·.head? != some '-')
  let before := (← get).located
  let results ← names.mapM fun name => do
    match ← programPath? name with
    | some path =>
        say (Line.ended path)
        return true
    | none => return false
  modify fun s => { s with located := before }
  succeed (!names.isEmpty && results.all (·))

end PlanOrbits.Shell.Action
