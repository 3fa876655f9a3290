import PlanOrbits.Shell.Edit.Editor
import PlanOrbits.Shell.Subshell
import PlanOrbits.Shell.Utility.Input

/-!
# The program that edits texts

What its arguments say, where its scripts come from, which files it edits, and what
becomes of the texts: they go to the output, or in the place of the files.

Lines are read when they are needed. What is written is held back until there is much of
it, or until the end.
-/

namespace PlanOrbits.Shell.Edit

/-- From where the lines of an editing come. -/
structure Supply where
  /-- The files that have not been opened yet. -/
  paths : List (List Char)
  /-- The beginning of a line of the input, if the input is being read. -/
  line? : Option (List Char)
  /-- Could all files be read, and could all be written? -/
  isRead : Bool
  isWritten : Bool

/-- The lines of some files. -/
def Supply.ofPaths (paths : List (List Char)) : Supply :=
  { paths := if paths.isEmpty then [['-']] else paths, line? := none, isRead := true
    isWritten := true }

/-- An editing with what it is supplied with. -/
structure Desk where
  editor : Editor
  supply : Supply

/-- What was read of the input but not used. -/
def Desk.unused (d : Desk) : List Char :=
  if d.supply.line?.isSome || d.editor.rest.any (·.file == ['-']) then
    d.editor.rest.flatMap (Row.whole d.editor.settings.mark) ++ d.supply.line?.getD []
  else []

/-- How many commands are run at most. -/
def stepLimit : Nat := 1000000000

/-- So many commands take a millisecond. -/
def stepsPerTick : Nat := 20000

end PlanOrbits.Shell.Edit

namespace PlanOrbits.Shell.Action

variable {m : Type → Type} [Monad m] [Storage m]

/-- The flags of the program that edits texts. -/
def editTable : FlagTable where
  plain := "nErsuzb"
  valued := "efl"
  long := [("quiet", 'n'), ("silent", 'n'), ("regexp-extended", 'E'), ("expression", 'e'),
    ("file", 'f'), ("separate", 's'), ("unbuffered", 'u'), ("null-data", 'z'),
    ("zero-terminated", 'z'), ("line-length", 'l'), ("in-place", 'i'), ("posix", 'P'),
    ("debug", 'D'), ("sandbox", 'S'), ("follow-symlinks", 'F'), ("binary", 'b')]
  isMixed := true
  optional := "i"

/-- The parts of the script that flags give, in their order. -/
def scriptParts (f : Flags) : Action m (List (Option (List Char))) :=
  (f.given.filter fun (c, _) => c == 'e' || c == 'f').mapM fun (c, value) => do
    if c == 'e' then return some value
    else if value == ['-'] then return some (← takeInput)
    else readFile? value

/-- Does a script say at its beginning that only commands print? -/
def isQuietScript (script : List Char) : Bool := ['#', 'n'].isPrefixOf script

/-- The name of the copy that is kept of a file. A star in the suffix stands for the name of
the file. -/
def keptName (suffix path : List Char) : List Char :=
  if suffix.contains '*' then
    let front := (path.reverse.dropWhile (· != '/')).reverse
    let name := path.drop front.length
    let kept := suffix.flatMap fun c => if c == '*' then name else [c]
    if kept.contains '/' then kept else front ++ kept
  else path ++ suffix

/-- Write what an editing wrote to other places than the output, unless it is held back. -/
def writeSheets (isDirect : Bool) (e : Edit.Editor) : Action m Bool := do
  let results ← e.sheets.mapM fun (sink, sheet) => do
    let text := sheet.text.take (sheet.countReleased isDirect)
    match sink with
    | .output => return true
    | .complaints => put 2 text
    | .file path => writeFile path text
  return results.all (·)

/-- The state in front of an editing, with the contents of the files that its commands may
read. Files that are written are empty then. -/
def editor (commands : List Edit.Command) (settings : Edit.Settings) : Action m Edit.Editor := do
  let _ ← writeSheets false (Edit.Editor.start commands settings [])
  let paths := (commands.filterMap (·.operation.source?)).eraseDups
  let sources ← paths.mapM fun path => return (path, (← readFile? path).getD [])
  return Edit.Editor.start commands settings sources

/-- Run a script for an editing. -/
def executed (i : Interpreter m) (script : List Char) : Action m (List Char) :=
  captured i do
    modify fun s => { s with isAlone := true }
    i.program "sh".toList ["-c".toList, script]

/-- Write what is not held back any more. -/
def release (d : Edit.Desk) : Action m Edit.Desk := do
  let isDirect := d.editor.settings.isDirect
  let sheets := d.editor.sheets
  if sheets.any fun (sink, sheet) => sink != .complaints && sheet.countReleased isDirect != 0 then
    let _ ← writeSheets isDirect { d.editor with sheets := sheets.filter (·.1 != .complaints) }
  let count := d.editor.output.countReleased isDirect
  if count = 0 then return d
  let text := d.editor.output.text
  let isWritten ← tell (text.take count)
  let output := { d.editor.output with pieces := [text.drop count] }
  return { editor := { d.editor with output }, supply := { d.supply with isWritten } }

/-- Read a piece of the input. -/
def takePiece (isLine : Bool) : Action m (Option (List Char)) := do
  if isLine then
    let (line, isEnded) ← takeLine
    return if isEnded then some (Line.ended line) else if line.isEmpty then none else some line
  else takeBlock 0 Edit.Sheet.heldSize

/-- Read on until there is a line, or until there are no more. -/
def readOn : Nat → Edit.Desk → Action m Edit.Desk
  | 0, d => return d
  | tries + 1, d => do
      let supply := d.supply
      let mark := d.editor.settings.mark
      match supply.line?, supply.paths with
      | some line, _ =>
          let d ← release d
          let piece? ←
            if d.supply.isWritten then takePiece d.editor.settings.isDirect else pure none
          let (rows, line?) :=
            match piece? with
            | none => (Edit.Row.ofEnd ['-'] line, none)
            | some text =>
                let (rows, line) := Edit.Row.ofText mark ['-'] (line ++ text)
                (rows, some line)
          let d : Edit.Desk :=
            { editor := d.editor.extend rows, supply := { d.supply with line? } }
          if rows.isEmpty then readOn tries d else return d
      | none, [] => return { d with editor := { d.editor with isComplete := true } }
      | none, path :: paths =>
          if path == ['-'] then
            readOn tries { d with supply := { supply with paths, line? := some [] } }
          else
            let text? ← operandText? "sed" path
            let isRead := supply.isRead && text?.isSome
            let rows := text?.elim [] (Edit.Row.ofFile mark path)
            let d : Edit.Desk :=
              { editor := d.editor.extend rows, supply := { supply with paths, isRead } }
            if rows.isEmpty then readOn tries d else return d

/-- Run the script from a place on, line after line, until the lines are used up. Tells
whether the editing is over then, even if there are other files. -/
def editFrom (i : Interpreter m) : Nat → (place : Nat) → Edit.Desk → Action m (Edit.Desk × Bool)
  | 0, _, d => return (d, true)
  | fuel + 1, place, d =>
      if fuel % Edit.stepsPerTick = 0 then do
        linger
        editFrom i fuel place d
      else if d.editor.needsLine place then do
        editFrom i fuel place (← readOn patience d)
      else
        match d.editor.step place with
        | (editor, .goOn place) => editFrom i fuel place { d with editor }
        | (editor, .restart) => editFrom i fuel 0 { d with editor := editor.flush }
        | (_, .execute script use place) => do
            let text ← executed i script
            editFrom i fuel place { d with editor := use text }
        | (editor, .stop isPrinting isFinal) =>
            return ({ d with editor := editor.settled (.stop isPrinting isFinal) }, isFinal)
        | (editor, continuation) =>
            let d := { d with editor := editor.settled continuation }
            match d.editor.beginCycle? with
            | some editor => editFrom i fuel 0 { d with editor }
            | none => do
                let d ← readOn patience d
                match d.editor.beginCycle? with
                | some editor => editFrom i fuel 0 { d with editor }
                | none => return (d, !d.supply.isWritten)

/-- Edit all lines from the first one on. -/
def editLines (i : Interpreter m) (d : Edit.Desk) : Action m (Edit.Desk × Bool) := do
  let d ← readOn patience { d with editor := d.editor.flush.restart }
  match d.editor.beginCycle? with
  | some editor => editFrom i Edit.stepLimit 0 { d with editor }
  | none => return (d, false)

/-- Edit files one after the other; what is written to the output can be taken away behind
each of them. Gives the outputs that were taken away with the names of the files. -/
def editApart (i : Interpreter m) (isTaken : Bool) : List (List Char) → Edit.Desk →
    Action m (List (List Char × List Char) × Edit.Desk)
  | [], d => return ([], d)
  | path :: paths, d => do
      let (d, isOver) ← editLines i { d with supply := { d.supply with paths := [path] } }
      let taken :=
        if isTaken && d.editor.line != 0 then [(path, d.editor.output.text)] else []
      let d := if isTaken then { d with editor := { d.editor with output := .empty } } else d
      if isOver then return (taken, d)
      let (others, d) ← editApart i isTaken paths d
      return (taken ++ others, d)

/-- The status behind an editing. -/
def editStatus (d : Edit.Desk) (isWritten : Bool) : Nat :=
  if !isWritten then 4 else if d.supply.isRead then d.editor.status else 2

/-- Edit files in their place. -/
def editInPlace (i : Interpreter m) (suffix : List Char) (paths : List (List Char))
    (editor : Edit.Editor) : Action m Unit := do
  let (edited, d) ← editApart i true paths { editor, supply := .ofPaths [] }
  let results ← edited.mapM fun (path, text) => do
    if !suffix.isEmpty then
      let _ ← writeFile (keptName suffix path) ((← readFile? path).getD [])
    writeFile path text
  let isWritten ← writeSheets true d.editor
  finish (editStatus d (isWritten && results.all (·)))

/-- Edit files, and write the text to the output. What is left of an input that is a file
can be read by others. -/
def editToOutput (i : Interpreter m) (isApart : Bool) (paths : List (List Char))
    (editor : Edit.Editor) : Action m Unit := do
  let d : Edit.Desk := { editor, supply := .ofPaths paths }
  let d ←
    if isApart then do
      let (_, d) ← editApart i false d.supply.paths d
      pure d
    else do
      let (d, _) ← editLines i d
      pure d
  giveBack d.unused
  let isWritten ← tell d.editor.output.text
  let isAllWritten ← writeSheets true d.editor
  finish (editStatus d (d.supply.isWritten && isWritten && isAllWritten))

/-- Edit files. -/
def edit (i : Interpreter m) (args : List (List Char)) : Action m Unit := do
  match Flags.ofArgs? editTable args with
  | none => finish 1
  | some f =>
      let given ← scriptParts f
      let (parts, paths) :=
        if given.isEmpty then (f.operands.head?.toList.map some, f.operands.drop 1)
        else (given, f.operands)
      match parts.mapM id, f.number? 'l' 70 with
      | some (first :: others), some width =>
          let settings : Edit.Settings := {
            isQuiet := f.has 'n' || isQuietScript first
            mark := if f.has 'z' then '\x00' else '\n'
            width
            isDirect := f.has 'u' }
          match Edit.ofScript (f.has 'E' || f.has 'r') 
              (List.intercalate ['\n'] (first :: others)) with
          | .error .malformed =>
              report "sed" "-e expression #1, char 0: unknown command"
              finish 1
          | .error .missingLabel =>
              report "sed" "can't find label for jump"
              finish 4
          | .ok commands =>
              if f.has 'S' && commands.any (·.operation.reachesOut) then finish 1
              else
                let e ← editor commands settings
                match f.value? 'i' with
                | some suffix => editInPlace i suffix paths e
                | none => editToOutput i (f.has 's') paths e
      | _, _ => finish 1

end PlanOrbits.Shell.Action
