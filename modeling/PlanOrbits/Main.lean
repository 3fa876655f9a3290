import PlanOrbits.CommandLine.Execution
import PlanOrbits.Shell.Evaluation

/-!
# The program

Runs the commands on the files of the machine. The programs that it can start are the scripts
that the shell of this library runs.
-/

namespace PlanOrbits

/-- The result of an operation on files, or nothing if it failed. -/
def tried {α : Type} (operation : IO α) : IO (Option α) :=
  try return some (← operation) catch _ => return none

/-- Computations on the files of the machine, with what is known of them besides. -/
abbrev Disk := StateT Register IO

instance : Storage Disk where
  workingDirectory := return (← tried IO.currentDir).elim "/" toString
  read? path := return (← tried (IO.FS.readBinFile path)).map (·.data.toList)
  write path bytes :=
    return (← tried (IO.FS.writeBinFile path ⟨bytes.toArray⟩)).isSome
  createDirectory path := return (← tried (IO.FS.createDirAll path)).isSome
  entries? path :=
    return (← tried (do ((← IO.currentDir) / path).readDir)).map fun entries =>
      (entries.map (·.fileName)).toList
  remove path := do
    if (← tried (IO.FS.removeFile path)).isSome then return true
    return (← tried (IO.FS.removeDir path)).isSome
  register := get
  setRegister := set

end PlanOrbits

/-- Run the program and exit with its status. -/
def main (args : List String) : IO UInt32 := do
  let (output, ended) ← (PlanOrbits.runProgram (m := PlanOrbits.Disk) args).run' .empty
  IO.print output
  if let some message := ended.message? then IO.eprintln ("Error: " ++ message)
  return ended.status.toUInt32
