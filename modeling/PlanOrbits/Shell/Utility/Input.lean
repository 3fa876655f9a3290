import PlanOrbits.Shell.Flags
import PlanOrbits.Shell.Line
import PlanOrbits.Shell.Machine

/-!
# Reading for utilities

What the programs that go through texts have in common: they read the files that
their operands name, or else the input, and complain about those that cannot be
read.
-/

namespace PlanOrbits.Shell.Action

variable {m : Type → Type} [Monad m] [Storage m]

/-- Write a message of a program. -/
def report (program message : String) : Action m Unit := do
  let _ ← put 2 (Bytes.charsOfText (program ++ ": " ++ message ++ "\n"))

/-- A text for a message. -/
def shown (cs : List Char) : String := String.ofList cs

/-- What is wrong with a file that cannot be read. -/
def reason (path : List Char) : Action m String := do
  return if ← isDirectory path then "Is a directory" else "No such file or directory"

/-- The text of a file, or of the input for a dash; complains if it cannot be
read. -/
def operandText? (program : String) (path : List Char) : Action m (Option (List Char)) := do
  if path == ['-'] then return some (← takeInput)
  match ← readFile? path with
  | some text => return some text
  | none =>
      let reason ← reason path
      let path := shown path
      report program <|
        match program with
        | "head" | "tail" => "cannot open '" ++ path ++ "' for reading: " ++ reason
        | "tac" => "failed to open '" ++ path ++ "' for reading: " ++ reason
        | "sed" => "can't read " ++ path ++ ": " ++ reason
        | "sort" => "cannot read: " ++ path ++ ": " ++ reason
        | _ => path ++ ": " ++ reason
      return none

/-- The names and texts of files, and whether all could be read; of the input if no
file is named. -/
def inputs (program : String) (paths : List (List Char)) :
    Action m (List (List Char × List Char) × Bool) := do
  let paths := if paths.isEmpty then [['-']] else paths
  let texts ← paths.mapM fun path => return (← operandText? program path).map (path, ·)
  return (texts.filterMap id, texts.all Option.isSome)

/-- The texts of files, one behind the other, and whether all could be read. -/
def gathered (program : String) (paths : List (List Char)) : Action m (List Char × Bool) := do
  let (texts, isRead) ← inputs program paths
  return (texts.flatMap Prod.snd, isRead)

/-- Run a filter on files or the input. `failure` is the status if a file cannot be
read or the filter cannot be used. -/
def filtered (program : String) (failure : Nat) (paths : List (List Char))
    (filter? : List Char → Option Filtered) : Action m Unit := do
  let (text, isRead) ← gathered program paths
  match filter? text with
  | none => finish failure
  | some (output, isFound) =>
      let isWritten ← tell output
      if isRead && isWritten then succeed isFound else finish failure

/-- Copy the input to the output as it comes, as long as it can be written. Tells what was
read, and whether all of it was written; `pieces` is what was copied before, the last piece
first. -/
def copyInput : Nat → (pieces : List (List Char)) → Action m (List Char × Bool)
  | 0, pieces => return (pieces.reverse.flatten, true)
  | tries + 1, pieces => do
      match ← takeBlock 0 131072 with
      | none => return (pieces.reverse.flatten, true)
      | some text =>
          if ← tell text then copyInput tries (text :: pieces)
          else return ((text :: pieces).reverse.flatten, false)

/-- Is the input the content of a file? -/
def isInputFile : Action m Bool := do
  let s ← get
  return ((s.input? 0).bind s.system.stream?).any (·.kind == .file)

/-- Give back what was read too much, if the input is the content of a file. -/
def giveBack (text : List Char) : Action m Unit := do
  let s ← get
  if let some id := s.input? 0 then
    if let some stream := s.system.stream? id then
      if stream.kind == .file then setStream id (stream.giveBack text)

end PlanOrbits.Shell.Action
