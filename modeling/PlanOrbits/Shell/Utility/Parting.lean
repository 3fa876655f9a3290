import PlanOrbits.Shell.Amount
import PlanOrbits.Shell.Sections
import PlanOrbits.Shell.Splitting
import PlanOrbits.Shell.Subshell
import PlanOrbits.Shell.Utility.Files

/-!
# Programs that take texts apart

The parts of a text go into files of their own: parts of a given size, or sections
between borders. Another program copies its input, or a file, block by block: it may skip some
blocks and end after so many.
-/

namespace PlanOrbits.Shell.Action

variable {m : Type → Type} [Monad m] [Storage m]

/-! ## Files of their own -/

/-- Give a part of a text to a script, which finds the name of the part in a variable.
Tells whether the script succeeded. -/
def filterPart (i : Interpreter m) (script name text : List Char) : Action m Bool := do
  let fileVariable := "FILE".toList
  let change := fun (s : Machine) =>
    { (s.assign fileVariable name).openText 0 .drain text with
      exports := s.exports.filter (· != fileVariable) ++ [fileVariable] }
  started i change "sh".toList ["-c".toList, script]
  return (← get).status == 0

/-- Write a part of a text into its file, or give it to a script. -/
def writePart (i : Interpreter m) (s : Splitting) (name text : List Char) : Action m Bool := do
  match s.flags.value? 'F' with
  | some script => filterPart i script name text
  | none =>
      if s.flags.has 'v' then say (Line.ended ("creating file '".toList ++ name ++ ['\'']))
      writeFile name text

/-- Split a file. -/
def split (i : Interpreter m) (args : List (List Char)) : Action m Unit := do
  match Splitting.ofArgs? args with
  | none => finish 1
  | some (s, path) =>
      match ← operandText? "split" path with
      | none => finish 1
      | some text =>
          match s.only with
          | some n => answer ((s.portioning.split s.mark text).getD (n - 1) [])
          | none =>
              let parts := s.named text
              let results ← parts.mapM fun (name, part) => writePart i s name part
              let isNamed := parts.length == (s.texts text).length
              if !isNamed then report "split" "output file suffixes exhausted"
              succeed (isNamed && results.all (·))

/-- Cut a file into sections. -/
def cutSections (args : List (List Char)) : Action m Unit := do
  match Flags.ofArgs? Sections.table args with
  | some { given, operands := path :: borders } =>
      let f : Flags := { given, operands := [] }
      match Sections.readSteps? borders, Sections.names? f 1 with
      | some (step :: steps), some _ =>
          if !Sections.isOrdered (step :: steps) then finish 1
          else
            match ← operandText? "csplit" path with
            | none => finish 1
            | some text =>
                let (all, isGood) := Sections.cut (f.has 'm') (step :: steps) text
                let sections := if f.has 'z' then all.filter (!·.isEmpty) else all
                if !(f.has 's' || f.has 'q') then
                  say (sections.flatMap fun part => Line.ofNat part.length)
                let names := (Sections.names? f sections.length).getD []
                let results ← (names.zip sections).mapM fun (name, part) => writeFile name part
                if !isGood && !f.has 'k' then
                  let _ ← (names.take sections.length).mapM removeEntry
                succeed (isGood && results.all (·))
      | _, _ => finish 1
  | _ => finish 1

/-- The program with a name that takes texts apart, if there is one. -/
def partingProgram? (i : Interpreter m) (name : String) :
    Option (List (List Char) → Action m Unit) :=
  match name with
  | "split" => some (split i)
  | "csplit" => some cutSections
  | _ => none

/-! ## Copying blocks -/

/-- The value of a setting of the program that copies blocks. -/
def setting? (name : String) (args : List (List Char)) : Option (List Char) :=
  args.findSome? fun arg =>
    match Text.cutAt? '=' arg with
    | some (key, value) => if key == name.toList then some value else none
    | none => none

/-- The product of amounts with crosses between them. -/
def blockNumber? (cs : List Char) : Option Nat :=
  ((Text.pieces (· == 'x') cs).mapM Amount.read?).map fun ns => ns.foldl (· * ·) 1

/-- Read so many blocks of the input, each as large as it comes; `blocks` is what was read
before, the last block first. -/
def takeBlocks (size : Nat) :
    Nat → Option Nat → (blocks : List (List Char)) → Action m (List Char)
  | 0, _, blocks | _, some 0, blocks => return blocks.reverse.flatten
  | tries + 1, count, blocks => do
      match ← takeBlock 0 size with
      | none => return blocks.reverse.flatten
      | some block => takeBlocks size tries (count.map (· - 1)) (block :: blocks)

/-- Copy blocks. -/
def copyBlocks (args : List (List Char)) : Action m Unit := do
  let number := fun (name : String) (default : Nat) =>
    match setting? name args with
    | none => some default
    | some cs => blockNumber? cs
  let count? := (setting? "count" args).bind blockNumber?
  match number "bs" ((number "ibs" 512).getD 512), number "skip" 0 with
  | some size, some skip =>
      if size = 0 then finish 1
      else
        let text? ←
          match setting? "if" args with
          | none => do
              let _ ← takeBlocks size patience (some skip) []
              pure (some (← takeBlocks size patience count? []))
          | some path => do
              let text ← operandText? "dd" path
              pure (text.map fun text =>
                let rest := text.drop (size * skip)
                count?.elim rest fun n => rest.take (size * n))
        match text? with
        | none => finish 1
        | some text =>
            match setting? "of" args with
            | some path => succeed (← writeFile path text)
            | none => answer text
  | _, _ => finish 1

end PlanOrbits.Shell.Action
