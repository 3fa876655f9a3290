import PlanOrbits.Shell.Number.Rounded
import PlanOrbits.Shell.Amount
import PlanOrbits.Shell.Utility.Clock
import PlanOrbits.Shell.Utility.Paths

/-!
# Programs that change files

Making, linking, copying, moving and removing files and directories, and changing
their rights, their times and their sizes.
-/

namespace PlanOrbits.Shell.Action

variable {m : Type → Type} [Monad m] [Storage m]

/-- Complain about a file. -/
def complainAbout (program doing : String) (path : List Char) (reason : String) :
    Action m Unit :=
  report program (doing ++ " '" ++ shown path ++ "': " ++ reason)

/-- The reason for what fails most often. -/
def isMissing : String := "No such file or directory"

/-- The names in a directory. -/
def entries (path : List Char) : Action m (List (List Char)) := do
  return (← entryNames? path).getD []

/-- Is there a directory, but no link to one? -/
def isRealDirectory (path : List Char) : Action m Bool := do
  return (← entry? false path).any (·.kind == .directory)

/-! ## Making -/

/-- Note that a directory was made. -/
def noteDirectory (path : List Char) (mode : Nat) : Action m Unit := do
  let time := (← get).clock
  noteFile path fun note => { note with mode := some mode, time := some time }

/-- The directories on a path, the outermost first. -/
def pathPrefixes (path : List Char) : List (List Char) :=
  ((List.range (path.length + 1)).map path.take).filter fun front =>
    (front.length == path.length || path[front.length]? == some '/') &&
      front.getLast?.any (· != '/')

/-- Make a directory. Tells whether it was possible. -/
def makeDirectory (withParents : Bool) (path : List Char) : Action m Bool := do
  let isThere ← isThere path
  if isThere && withParents then isDirectory path
  else if isThere then
    complainAbout "mkdir" "cannot create directory" path "File exists"
    return false
  else if !withParents && !(← isDirectory (directoryName path)) then
    complainAbout "mkdir" "cannot create directory" path isMissing
    return false
  else
    match ← pathOf? path with
    | none => return false
    | some name =>
        let missing ← (pathPrefixes (dropSlashes path)).filterM fun path => do
          return !(← Action.isThere path)
        let isMade ← (Storage.createDirectory name : m Bool)
        let rights := Rights.ofNewDirectory (← get).mask
        if isMade then missing.forM fun path => noteDirectory path rights
        return isMade

/-- The flags of the program that makes directories. -/
def makeTable : FlagTable where
  plain := "pv"
  valued := "m"
  long := [("parents", 'p'), ("mode", 'm'), ("verbose", 'v')]
  isMixed := true

/-- Make directories. -/
def makeDirectories (args : List (List Char)) : Action m Unit := do
  match Flags.ofArgs? makeTable args with
  | none => finish 1
  | some f =>
      let mode? := (f.value? 'm').bind (Rights.change? true 0 0o777)
      let results ← f.operands.mapM fun path => do
        let missing ←
          if f.has 'p' then (pathPrefixes (dropSlashes path)).filterM fun path => do
            return !(← isThere path)
          else pure [path]
        let isMade ← makeDirectory (f.has 'p') path
        if isMade && f.has 'v' then
          missing.forM fun path =>
            say (Bytes.charsOfText ("mkdir: created directory '" ++ shown path ++ "'\n"))
        if let (true, some mode) := (isMade && !missing.isEmpty, mode?) then noteDirectory path mode
        return isMade
      if f.operands.isEmpty then report "mkdir" "missing operand"
      succeed (!f.operands.isEmpty && results.all (·))

/-- Make pipes. -/
def makePipes (args : List (List Char)) : Action m Unit := do
  let table : FlagTable :=
    { plain := "", valued := "m", long := [("mode", 'm')], isMixed := true }
  match Flags.ofArgs? table args with
  | none => finish 1
  | some f =>
      let results ← f.operands.mapM fun path => do
        if ← isThere path then
          complainAbout "mkfifo" "cannot create fifo" path "File exists"
          return false
        else
          let isMade ← writeFile path []
          let mode? := (f.value? 'm').bind (Rights.change? false 0 0o666)
          noteFile path fun note => { note with isPipe := true, mode := mode?.or note.mode }
          return isMade
      succeed (!f.operands.isEmpty && results.all (·))

/-! ## Removing -/

/-- Remove one entry, unless it is a directory that is not empty. Tells whether it was
possible. A file that has another name is still there by that. -/
def removeEntry (path : List Char) : Action m Bool := do
  let register ← (Storage.register : m Register)
  if 2 ≤ path.length && path.getLast? == some '/' &&
      (← entry? false (dropSlashes path)).any (·.kind != .directory) then return false
  match ← entryPlace? path, ← fullPath? path with
  | some place, some full =>
      let note := register.note place
      if note.link.isSome || note.twin.isSome then
        changeRegister (·.forget place)
        return true
      else
        let name := (register.plainPath? full).getD full
        match register.handOver? place with
        | some (heir, register) =>
            let content ← (Storage.read? name : m (Option (List UInt8)))
            let isRemoved ← (Storage.remove name : m Bool)
            let _ ← (Storage.write heir.toPath (content.getD []) : m Bool)
            (Storage.setRegister register : m Unit)
            return isRemoved
        | none =>
            if (← entryNames? path).any (!·.isEmpty) then return false
            let isRemoved ← (Storage.remove name : m Bool)
            if isRemoved then changeRegister (·.forget place)
            return isRemoved
  | _, _ => return false

/-- Remove an entry with all that is in it; `tells` is called for each that is gone. -/
def removeAll (tells : Bool → List Char → Action m Unit) : Nat → List Char → Action m Bool
  | 0, _ => return false
  | fuel + 1, path => do
      let isDirectory ← isRealDirectory path
      let results ←
        if isDirectory then
          (← entries path).mapM fun name => removeAll tells fuel (inDirectory path name)
        else pure []
      let isRemoved ← removeEntry path
      if isRemoved then tells isDirectory path
      return isRemoved && results.all (·)

/-- How deep directories may be. -/
def treeDepth : Nat := 64

/-- The flags of the program that removes. -/
def removeTable : FlagTable where
  plain := "frRvidI"
  valued := ""
  long := [("force", 'f'), ("recursive", 'r'), ("verbose", 'v'), ("dir", 'd'),
    ("no-preserve-root", 'P'), ("preserve-root", 'P'), ("one-file-system", 'P'),
    ("interactive", 'i')]
  isMixed := true

/-- Ask whether something shall be done, and read the answer. -/
def asksLeave (question : String) : Action m Bool := do
  let _ ← put 2 (Bytes.charsOfText question)
  let (line, _) ← takeLine
  return line.head? == some 'y' || line.head? == some 'Y'

/-- Remove files and directories. -/
def remove (args : List (List Char)) : Action m Unit := do
  match Flags.ofArgs? removeTable args with
  | none => finish 1
  | some f =>
      let isDeep := f.has 'r' || f.has 'R'
      let tells := fun (isDirectory : Bool) (path : List Char) =>
        if f.has 'v' then
          let kind := if isDirectory then "directory " else ""
          say (Bytes.charsOfText ("removed " ++ kind ++ "'" ++ shown path ++ "'\n"))
        else pure ()
      let results ← f.operands.mapM fun path => do
        match ← entry? false path with
        | none =>
            if !f.has 'f' then complainAbout "rm" "cannot remove" path isMissing
            return f.has 'f'
        | some e =>
            let name := baseName path
            if isDeep && (name == ['.'] || name == ['.', '.']) then
              report "rm" ("refusing to remove '.' or '..' directory: skipping '" ++
                shown path ++ "'")
              return false
            else if e.kind == .directory && !isDeep &&
                !(f.has 'd' && (← entries path).isEmpty) then
              complainAbout "rm" "cannot remove" path
                (if f.has 'd' then "Directory not empty" else "Is a directory")
              return false
            else if f.has 'i' && !f.has 'f' then
              let kind := if e.size = 0 then "regular empty file" else "regular file"
              if ← asksLeave ("rm: remove " ++ kind ++ " '" ++ shown path ++ "'? ") then
                removeAll tells treeDepth path
              else return true
            else removeAll tells treeDepth path
      if f.operands.isEmpty && !f.has 'f' then report "rm" "missing operand"
      succeed (results.all (·) && (f.has 'f' || !f.operands.isEmpty))

/-- Remove an empty directory, and then those around it if `withParents` holds. -/
def removeDirectory (f : Flags) : Nat → List Char → Action m Bool
  | 0, _ => return false
  | fuel + 1, path => do
      if f.has 'v' then
        say (Bytes.charsOfText ("rmdir: removing directory, '" ++ shown path ++ "'\n"))
      let isEmpty := (← entries path).isEmpty
      if (← isRealDirectory path) && isEmpty then
        let isRemoved ← removeEntry path
        let around := directoryName path
        if f.has 'p' && isRemoved && around != ['.'] && around != ['/'] then
          removeDirectory f fuel around
        else return isRemoved
      else
        let reason :=
          match (← entry? false path).map Entry.kind with
          | some .directory => "Directory not empty"
          | some _ => "Not a directory"
          | none => isMissing
        if f.has 'I' && !isEmpty then return true
        complainAbout "rmdir" "failed to remove" path reason
        return false

/-- Remove empty directories. -/
def removeDirectories (args : List (List Char)) : Action m Unit := do
  let table : FlagTable :=
    { plain := "pv", valued := "", isMixed := true
      long := [("parents", 'p'), ("verbose", 'v'), ("ignore-fail-on-non-empty", 'I')] }
  match Flags.ofArgs? table args with
  | none => finish 1
  | some f =>
      let results ← f.operands.mapM fun path => removeDirectory f treeDepth (dropSlashes path)
      if f.operands.isEmpty then report "rmdir" "missing operand"
      succeed (!f.operands.isEmpty && results.all (·))

/-- Remove the name of one file. -/
def unlink (args : List (List Char)) : Action m Unit := do
  match args with
  | [path] =>
      match ← entry? false path with
      | some e =>
          if e.kind == .directory then
            complainAbout "unlink" "cannot unlink" path "Is a directory"
            finish 1
          else succeed (← removeEntry path)
      | none =>
          complainAbout "unlink" "cannot unlink" path isMissing
          finish 1
  | _ => finish 1

/-! ## Targets -/

/-- The sources with their targets, where the last operand is the target, or the
directory that takes all others. `one?` holds where a target is no directory to put
things in. -/
def targets? (program : String) (f : Flags) : Action m (Option (List (List Char × List Char))) := do
  let inside := fun (directory : List Char) (sources : List (List Char)) =>
    some (sources.map fun source => (source, inDirectory directory (baseName source)))
  match f.value? 't' with
  | some directory =>
      if ← isDirectory directory then return inside directory f.operands
      report program ("target directory '" ++ shown directory ++ "': " ++ isMissing)
      return none
  | none =>
      match f.operands.reverse with
      | target :: source :: more =>
          let sources := (source :: more).reverse
          if !f.has 'T' && (← isDirectory target) then return inside target sources
          else if more.isEmpty then return some [(source, target)]
          else
            report program ("target '" ++ shown target ++ "' is not a directory")
            return none
      | [source] =>
          report program ("missing destination file operand after '" ++ shown source ++ "'")
          return none
      | [] =>
          report program "missing file operand"
          return none

/-- Write a line about a source and its target. -/
def tellPair (front joint : String) (source target : List Char) : Action m Unit :=
  say (Bytes.charsOfText
    (front ++ "'" ++ shown source ++ "' " ++ joint ++ " '" ++ shown target ++ "'\n"))

/-! ## Links -/

/-- Make a link at a path. -/
def noteLink (path target : List Char) : Action m Bool := do
  match ← entryPlace? path, Bytes.textOfChars? target with
  | some place, some target =>
      let time := (← get).clock
      changeRegister (·.update place fun _ => { link := some target, time := some time })
      return true
  | _, _ => return false

/-- Let a file go by another name, too. -/
def noteTwin (source target : List Char) : Action m Bool := do
  match ← entryPlace? target, ← filePlace? source with
  | some place, some file =>
      changeRegister (·.update place fun _ => { twin := some file })
      return true
  | _, _ => return false

/-- Make one link. -/
def linkOne (f : Flags) (source target : List Char) : Action m Bool := do
  let isSymbolic := f.has 's'
  let doing := if isSymbolic then "failed to create symbolic link" else "failed to create hard link"
  if !isSymbolic && !(← isThere source) then
    complainAbout "ln" "failed to access" source isMissing
    return false
  if !isSymbolic && (← isDirectory source) then
    report "ln" (shown source ++ ": hard link not allowed for directory")
    return false
  if !(← isDirectory (directoryName target)) then
    complainAbout "ln" doing target isMissing
    return false
  if (← entry? false target).isSome then
    if f.has 'f' && !(← isRealDirectory target) then
      let _ ← removeEntry target
    else
      complainAbout "ln" doing target "File exists"
      return false
  let source ←
    if isSymbolic && f.has 'r' then
      match ← realPath? .none true source, ← realPath? .none true (directoryName target) with
      | some place, some directory => pure (relativePath place directory)
      | _, _ => pure source
    else pure source
  let isMade ← if isSymbolic then noteLink target source else noteTwin source target
  if isMade && f.has 'v' then tellPair "" (if isSymbolic then "->" else "=>") target source
  return isMade

/-- Make links. -/
def makeLinks (args : List (List Char)) : Action m Unit := do
  let table : FlagTable :=
    { plain := "sfnvrTLPi", valued := "t", isMixed := true
      long := [("symbolic", 's'), ("force", 'f'), ("no-dereference", 'n'), ("verbose", 'v'),
        ("relative", 'r'), ("no-target-directory", 'T'), ("target-directory", 't'),
        ("logical", 'L'), ("physical", 'P')] }
  match Flags.ofArgs? table args with
  | none => finish 1
  | some f =>
      let isLinkKept ←
        match f.has 'n', f.operands with
        | true, [_, target] => pure !(← isRealDirectory target)
        | _, _ => pure false
      let pairs? ←
        match f.operands with
        | [source] =>
            if f.has 't' then targets? "ln" f else pure (some [(source, baseName source)])
        | _ => targets? "ln" (if isLinkKept then { f with given := ('T', []) :: f.given } else f)
      match pairs? with
      | none => finish 1
      | some pairs =>
          let results ← pairs.mapM fun (source, target) => linkOne f source target
          succeed (results.all (·))

/-! ## Copying -/

/-- The flags of the programs that copy and move. -/
def copyTable : FlagTable where
  plain := "rRafpvnTudilsPLH"
  valued := "t"
  long := [("recursive", 'r'), ("archive", 'a'), ("force", 'f'), ("verbose", 'v'),
    ("no-clobber", 'n'), ("no-target-directory", 'T'), ("target-directory", 't'),
    ("update", 'u'), ("link", 'l'), ("symbolic-link", 's'), ("no-dereference", 'P'),
    ("dereference", 'L'), ("parents", 'N'), ("interactive", 'i'), ("preserve", 'p')]
  isMixed := true
  optional := ""

/-- Are the rights and times of what is copied kept? -/
def keepsNotes (f : Flags) : Bool := f.has 'p' || f.has 'a'

/-- Are links copied as links? -/
def keepsLinks (f : Flags) : Bool :=
  !f.has 'L' && (f.has 'P' || f.has 'd' || f.has 'a' || f.has 'r' || f.has 'R')

/-- Is a target to be left alone, as it is there already, or is newer? -/
def isLeftAlone (f : Flags) (source target : Option Entry) : Bool :=
  match source, target with
  | some source, some target => f.has 'n' || f.has 'u' && source.time ≤ target.time
  | _, _ => false

/-- Copy an entry, and all that is in it. -/
def copyTo (f : Flags) : Nat → (source target : List Char) → Action m Bool
  | 0, _, _ => return false
  | fuel + 1, source, target => do
      match ← entry? (!keepsLinks f) source with
      | none =>
          complainAbout "cp" "cannot stat" source isMissing
          return false
      | some e =>
          let there ← entry? true target
          let note := fun (mode : Nat) => do
            let mask := (← get).mask
            noteFile target fun note =>
              if keepsNotes f then { note with mode := some e.rights, time := some e.time }
              else if there.isNone then { note with mode := some (Rights.without mask mode) }
              else note
          match e.kind with
          | .directory =>
              if !(f.has 'r' || f.has 'R' || f.has 'a') then
                report "cp" ("-r not specified; omitting directory '" ++ shown source ++ "'")
                return false
              let names ← entries source
              if there.any (·.kind != .directory) then
                report "cp" ("cannot overwrite non-directory '" ++ shown target ++
                  "' with directory '" ++ shown source ++ "'")
                return false
              let isMade ← makeDirectory true target
              if f.has 'v' && there.isNone then tellPair "" "->" source target
              let results ← names.mapM fun name =>
                copyTo f fuel (inDirectory source name) (inDirectory target name)
              note e.rights
              return isMade && results.all (·)
          | .link path =>
              let _ ← removeEntry target
              if f.has 'v' then tellPair "" "->" source target
              noteLink target path
          | _ =>
              if isLeftAlone f (some e) there then return true
              if (← filePlace? source) == (← filePlace? target) then
                report "cp" ("'" ++ shown source ++ "' and '" ++ shown target ++
                  "' are the same file")
                return false
              if there.any (·.kind == .directory) then
                report "cp" ("cannot overwrite directory '" ++ shown target ++
                  "' with non-directory")
                return false
              let isWritten ←
                if f.has 's' then noteLink target source
                else if f.has 'l' then noteTwin source target
                else do
                  let text := (← readFile? source).getD []
                  let isWritten ← writeFile target text
                  if !isWritten then
                    complainAbout "cp" "cannot create regular file" target isMissing
                  else note e.rights
                  pure isWritten
              if isWritten && f.has 'v' then tellPair "" "->" source target
              return isWritten

/-- Copy files. -/
def copyAll (args : List (List Char)) : Action m Unit := do
  match Flags.ofArgs? copyTable args with
  | none => finish 1
  | some f =>
      match ← targets? "cp" f with
      | none => finish 1
      | some pairs =>
          let results ← pairs.mapM fun (source, target) => do
            if f.has 'N' then
              -- The directories on the path of the source are made in the target, too.
              let target := inDirectory (directoryName target) source
              let _ ← makeDirectory true (directoryName target)
              copyTo f treeDepth source target
            else copyTo f treeDepth source target
          succeed (results.all (·))

/-! ## Moving -/

/-- Carry the content of a file, or of a directory with all that is in it, to another
path. -/
def carry : Nat → (source target : String) → Action m Bool
  | 0, _, _ => return false
  | fuel + 1, source, target => do
      match ← (Storage.entries? source : m (Option (List String))) with
      | some names =>
          let isMade ← (Storage.createDirectory target : m Bool)
          let results ← names.mapM fun name =>
            carry fuel (Path.join source name) (Path.join target name)
          return isMade && results.all (·) && (← (Storage.remove source : m Bool))
      | none =>
          match ← (Storage.read? source : m (Option (List UInt8))) with
          | some bytes =>
              return (← (Storage.write target bytes : m Bool)) &&
                (← (Storage.remove source : m Bool))
          | none => return true

/-- Move an entry. -/
def moveOne (f : Flags) (source target : List Char) : Action m Bool := do
  let there ← entry? false target
  match ← entry? false source with
  | none =>
      complainAbout "mv" "cannot stat" source isMissing
      return false
  | some e =>
      if isLeftAlone f (some e) there then return true
      let isInto := there.any (·.kind == .directory)
      match ← entryPlace? source, ← entryPlace? target with
      | some place, some goal =>
          if place == goal then
            report "mv" ("'" ++ shown source ++ "' and '" ++ shown target ++ "' are the same file")
            return false
          else if place.isPrefixOf goal then
            report "mv" ("cannot move '" ++ shown source ++ "' to a subdirectory of itself, '" ++
              shown target ++ "'")
            return false
          else if isInto && e.kind != .directory then
            report "mv" ("cannot overwrite directory '" ++ shown target ++ "' with non-directory")
            return false
          else if there.isSome && !isInto && e.kind == .directory then
            report "mv" ("cannot overwrite non-directory '" ++ shown target ++
              "' with directory '" ++ shown source ++ "'")
            return false
          else if isInto && !(← entries target).isEmpty then
            report "mv" ("cannot move '" ++ shown source ++ "' to '" ++ shown target ++
              "': Directory not empty")
            return false
          else if !(← isDirectory (directoryName target)) then
            report "mv" ("cannot move '" ++ shown source ++ "' to '" ++ shown target ++ "': " ++
              isMissing)
            return false
          else
            if there.isSome then
              let _ ← removeEntry target
            let isMoved ← carry treeDepth place.toPath goal.toPath
            changeRegister (·.move place goal)
            if f.has 'v' then tellPair "renamed " "->" source target
            return isMoved
      | _, _ => return false

/-- Move files. -/
def moveAll (args : List (List Char)) : Action m Unit := do
  match Flags.ofArgs? copyTable args with
  | none => finish 1
  | some f =>
      match ← targets? "mv" f with
      | none => finish 1
      | some pairs =>
          let results ← pairs.mapM fun (source, target) =>
            moveOne f (if 1 < source.length then dropSlashes source else source) target
          succeed (results.all (·))

/-! ## Installing -/

/-- Copy files and set their rights, or make directories. -/
def install (args : List (List Char)) : Action m Unit := do
  let table : FlagTable :=
    { plain := "dDvTpsC", valued := "mtog", isMixed := true
      long := [("directory", 'd'), ("mode", 'm'), ("target-directory", 't'), ("verbose", 'v'),
        ("no-target-directory", 'T'), ("owner", 'o'), ("group", 'g')] }
  match Flags.ofArgs? table args with
  | none => finish 1
  | some f =>
      let mode? :=
        match f.value? 'm' with
        | some text => Rights.change? (f.has 'd') 0 0 text
        | none => some 0o755
      match mode? with
      | none => finish 1
      | some mode =>
          if f.has 'd' then
            let results ← f.operands.mapM fun path => do
              let isMade ← makeDirectory true path
              noteDirectory path mode
              return isMade
            succeed (results.all (·))
          else
            if let (true, some target) := (f.has 'D', f.operands.getLast?) then
              let _ ← makeDirectory true (directoryName target)
            match ← targets? "install" f with
            | none => finish 1
            | some pairs =>
                let results ← pairs.mapM fun (source, target) => do
                  let isCopied ← copyTo Flags.empty treeDepth source target
                  if isCopied then
                    noteFile target fun note => { note with mode := some mode }
                    if f.has 'v' then tellPair "" "->" source target
                  return isCopied
                succeed (results.all (·))

/-! ## Times, rights and sizes -/

/-- The flags of the program that sets times. -/
def touchTable : FlagTable where
  plain := "acmhf"
  valued := "dtr"
  long := [("no-create", 'c'), ("date", 'd'), ("reference", 'r'), ("time", 'T')]
  isMixed := true

/-- Set the times of files, and make those that are not there. -/
def touch (args : List (List Char)) : Action m Unit := do
  match Flags.ofArgs? touchTable args with
  | none => finish 1
  | some f =>
      let zone ← zone
      let now ← now zone
      let time? ←
        match f.value? 'd', f.value? 't', f.value? 'r' with
        | some text, _, _ =>
            pure ((Time.described? now text).map fun (seconds, nanos) => timeOf seconds nanos)
        | none, some text, _ => pure ((Time.ofDigits? now text).map (timeOf · 0))
        | none, none, some path => pure ((← entry? true path).map Entry.time)
        | none, none, none => pure (some ((← get).clock : Int))
      match time? with
      | none =>
          match f.value? 'd' with
          | some text => report "touch" ("invalid date format '" ++ shown text ++ "'")
          | none => report "touch" "invalid date"
          finish 1
      | some time =>
          let results ← f.operands.mapM fun path => do
            let isThere ← isThere path
            if !isThere && f.has 'c' then return true
            else
              let isGood ← if isThere then pure true else writeFile path []
              if isGood then noteFile path fun note => { note with time := some time }
              else complainAbout "touch" "cannot touch" path isMissing
              return isGood
          succeed (!f.operands.isEmpty && results.all (·))

/-- The arguments of the program that changes rights: flags, and the rest, in which the
change may begin with a dash. -/
def readRightsArgs (args : List (List Char)) : List Char × List (List Char) :=
  let isFlag := fun (arg : List Char) =>
    match arg with
    | '-' :: c :: cs => (c :: cs).all ['R', 'v', 'c', 'f'].contains
    | _ => false
  ((args.filter isFlag).flatMap List.tail, (args.filter fun arg =>
    !isFlag arg && arg != ['-', '-']))

/-- Change the rights of an entry, and of all that is in it if a flag asks for that. -/
def changeRights (flags change : List Char) : Nat → List Char → Action m Bool
  | 0, _ => return false
  | fuel + 1, path => do
      match ← entry? true path with
      | none =>
          complainAbout "chmod" "cannot access" path isMissing
          if flags.contains 'v' then
            say (Bytes.charsOfText ("'" ++ shown path ++ "' could not be accessed\n"))
          return false
      | some e =>
          let isDirectory := e.kind == .directory
          match Rights.change? isDirectory (← get).mask e.rights change with
          | none =>
              report "chmod" ("invalid mode: '" ++ shown change ++ "'")
              return false
          | some rights =>
              noteFile path fun note => { note with mode := some rights }
              let describe := fun (rights : Nat) =>
                let digits := Rights.digits rights
                String.ofList (List.replicate (4 - digits.length) '0' ++ digits ++ [' ', '('] ++
                  Rights.letters rights ++ [')'])
              let isChanged := rights != e.rights
              if flags.contains 'v' || flags.contains 'c' && isChanged then
                let front := "mode of '" ++ shown path ++ "' "
                say (Bytes.charsOfText <|
                  if isChanged then
                    front ++ "changed from " ++ describe e.rights ++ " to " ++ describe rights ++
                      "\n"
                  else front ++ "retained as " ++ describe rights ++ "\n")
              if flags.contains 'R' && isDirectory then
                let results ← (← entries path).mapM fun name =>
                  changeRights flags change fuel (inDirectory path name)
                return results.all (·)
              else return true

/-- Change the rights of files. -/
def changeMode (args : List (List Char)) : Action m Unit := do
  match args.partition fun arg => "--reference=".toList.isPrefixOf arg with
  | (reference :: _, paths) =>
      match ← entry? true (reference.drop 12) with
      | none => finish 1
      | some e =>
          let results ← paths.mapM fun path =>
            changeRights [] (Rights.digits e.rights) treeDepth path
          succeed (results.all (·))
  | _ =>
      match readRightsArgs args with
      | (flags, change :: path :: paths) =>
          let results ← (path :: paths).mapM (changeRights flags change treeDepth)
          succeed (results.all (·))
      | _ =>
          report "chmod" "missing operand"
          finish 1

/-- Change the owners of files, which all belong to the same one. -/
def changeOwner (program : String) (args : List (List Char)) : Action m Unit := do
  match args.filter (·.head? != some '-') with
  | _ :: path :: paths =>
      let results ← (path :: paths).mapM fun path => do
        let isThere ← isThere path
        if !isThere then complainAbout program "cannot access" path isMissing
        return isThere
      succeed (results.all (·))
  | _ => finish 1

/-- The size that an argument asks for, given the present one. -/
def newSize? (old : Nat) (text : List Char) : Option Nat := do
  match text with
  | '+' :: rest => return old + (← Amount.read? rest)
  | '-' :: rest => return old - (← Amount.read? rest)
  | '<' :: rest => return min old (← Amount.read? rest)
  | '>' :: rest => return max old (← Amount.read? rest)
  | '/' :: rest =>
      let n ← Amount.read? rest
      if n = 0 then none else return old / n * n
  | '%' :: rest =>
      let n ← Amount.read? rest
      if n = 0 then none else return (old + n - 1) / n * n
  | rest => Amount.read? rest

/-- Cut files short, or fill them up with null characters. -/
def truncate (args : List (List Char)) : Action m Unit := do
  let table : FlagTable :=
    { plain := "co", valued := "sr", isMixed := true
      long := [("no-create", 'c'), ("size", 's'), ("reference", 'r')] }
  match Flags.ofArgs? table args with
  | none => finish 1
  | some f =>
      let base? ←
        match f.value? 'r' with
        | some path => pure ((← entry? true path).map Entry.size)
        | none => pure none
      let results ← f.operands.mapM fun path => do
        let old? ← readFile? path
        if old?.isNone && f.has 'c' then return true
        let old := old?.getD []
        let size? :=
          match f.value? 's' with
          | some text => newSize? (base?.getD old.length) text
          | none => base?
        match size? with
        | some size =>
            writeFile path (old.take size ++ List.replicate (size - old.length) '\x00')
        | none => return false
      succeed (!f.operands.isEmpty && results.all (·))

/-! ## Temporary files -/

/-- The flags of the program that makes temporary files. -/
def temporaryTable : FlagTable where
  plain := "duqt"
  valued := "ps"
  optional := "D"
  long := [("directory", 'd'), ("dry-run", 'u'), ("quiet", 'q'), ("suffix", 's'),
    ("tmpdir", 'D')]
  isMixed := true

/-- What is in front of the last run of three or more times the letter `X`, how many
they are, and what is behind them. -/
def template? (cs : List Char) : Option (List Char × Nat × List Char) :=
  let back := cs.reverse
  let behind := back.takeWhile (· != 'X')
  let marks := (back.drop behind.length).takeWhile (· == 'X')
  if marks.length < 3 then none
  else some ((back.drop (behind.length + marks.length)).reverse, marks.length, behind.reverse)

/-- Make an empty file, or a directory, with a name that is not taken. -/
def makeTemporary (args : List (List Char)) : Action m Unit := do
  match Flags.ofArgs? temporaryTable args with
  | none => finish 1
  | some f =>
      let wanted := f.operands.headD "tmp.XXXXXXXXXX".toList ++ (f.value? 's').getD []
      let isHere := !f.operands.isEmpty && !f.has 'p' && !f.has 'D' && !f.has 't'
      let usual := ((← get).value? "TMPDIR".toList).getD "/tmp".toList
      let directory :=
        match (f.value? 'p').or ((f.value? 'D').filter (!·.isEmpty)) with
        | some directory => directory
        | none => usual
      match template? wanted with
      | none =>
          report "mktemp" ("too few X's in template '" ++ shown wanted ++ "'")
          finish 1
      | some (front, count, behind) =>
          let candidates := (List.range 1000).map fun n =>
            let name := front ++ Rounded.padded count n ++ behind
            if isHere then name else inDirectory directory name
          let free ← candidates.filterM fun path => return (← entry? false path).isNone
          match free with
          | [] => finish 1
          | path :: _ =>
              let isDirectory := f.has 'd'
              let isMade ←
                if f.has 'u' then pure true
                else if !(← Action.isDirectory (directoryName path)) then pure false
                else if isDirectory then makeDirectory true path
                else writeFile path []
              if isMade then
                if !f.has 'u' then
                  noteFile path fun note =>
                    { note with mode := some (if isDirectory then 0o700 else 0o600) }
                answer (Line.ended path)
              else
                if !f.has 'q' then
                  report "mktemp" ("failed to create " ++
                    (if isDirectory then "directory" else "file") ++ " via template '" ++
                    shown wanted ++ "': " ++ isMissing)
                finish 1

/-! ## All of them -/

/-- The program that changes files with a name, if there is one. -/
def fileProgram? (name : String) : Option (List (List Char) → Action m Unit) :=
  match name with
  | "mkdir" => some makeDirectories
  | "mkfifo" => some makePipes
  | "rmdir" => some removeDirectories
  | "rm" => some remove
  | "unlink" => some unlink
  | "ln" => some makeLinks
  | "link" => some makeLinks
  | "cp" => some copyAll
  | "mv" => some moveAll
  | "install" => some install
  | "touch" => some touch
  | "truncate" => some truncate
  | "mktemp" => some makeTemporary
  | "chmod" => some changeMode
  | "chown" | "chgrp" => some (changeOwner name)
  | "sync" => some fun _ => finish 0
  | _ => none

end PlanOrbits.Shell.Action
