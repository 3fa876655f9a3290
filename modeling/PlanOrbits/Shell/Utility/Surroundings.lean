import PlanOrbits.Shell.Utility.Files

/-!
# Surroundings

The programs that tell about the machine and its users. There is one user, who may do
anything, and nobody is at a terminal.
-/

namespace PlanOrbits.Shell.Action

variable {m : Type → Type} [Monad m] [Storage m]

/-! ## The machine -/

/-- The facts about the machine, with the letters of the flags that ask for them. -/
def machineFacts : List (Char × String) :=
  [('s', "Linux"), ('n', "localhost"), ('r', "6.1.0"), ('v', "#1 SMP"), ('m', "x86_64"),
    ('p', "unknown"), ('i', "unknown"), ('o', "GNU/Linux")]

/-- Tell about the machine. -/
def describeMachine (args : List (List Char)) : Action m Unit := do
  let table : FlagTable :=
    { plain := "asnrvmpio", valued := "", isMixed := true
      long := [("all", 'a'), ("kernel-name", 's'), ("nodename", 'n'), ("kernel-release", 'r'),
        ("kernel-version", 'v'), ("machine", 'm'), ("processor", 'p'),
        ("hardware-platform", 'i'), ("operating-system", 'o')] }
  match Flags.ofArgs? table args with
  | some { operands := [], given } =>
      let isAsked := fun (c : Char) =>
        if given.any (·.1 == 'a') then c != 'p' && c != 'i'
        else if given.isEmpty then c == 's'
        else given.any (·.1 == c)
      let facts := machineFacts.filter fun (c, _) => isAsked c
      answer (Line.ended (List.intercalate [' '] (facts.map fun (_, fact) => fact.toList)))
  | some { operands := extra :: _, .. } =>
      report "uname" ("extra operand '" ++ shown extra ++ "'")
      finish 1
  | none => finish 1

/-- Tell how many processors there are. -/
def countProcessors (args : List (List Char)) : Action m Unit := do
  let table : FlagTable :=
    { plain := "", valued := "i", long := [("all", 'a'), ("ignore", 'i')], isMixed := true }
  match Flags.ofArgs? table args with
  | some f => answer (Line.ofNat (max 1 (4 - (f.number? 'i' 0).getD 0)))
  | none => finish 1

/-- The settings of the system that can be asked for. -/
def systemSettings : List (String × String) :=
  [("PATH", "/bin:/usr/bin"), ("ARG_MAX", "2097152"), ("PAGESIZE", "4096"), ("PAGE_SIZE", "4096"),
    ("NAME_MAX", "255"), ("PATH_MAX", "4096"), ("LONG_BIT", "64"), ("INT_MAX", "2147483647"),
    ("CHAR_BIT", "8"), ("OPEN_MAX", "1048576"), ("_NPROCESSORS_ONLN", "4"), ("CLK_TCK", "100")]

/-- Tell a setting of the system. -/
def writeSetting (args : List (List Char)) : Action m Unit := do
  match args.head?.bind fun name => systemSettings.lookup (String.ofList name) with
  | some value => answer (Line.ended value.toList)
  | none => finish 1

/-! ## Users -/

/-- The name of the user. -/
def userName : List Char := "root".toList

/-- Tell who the user is, and to which groups the user belongs. -/
def identify (args : List (List Char)) : Action m Unit := do
  let table : FlagTable :=
    { plain := "ugGnrza", valued := "", isMixed := true
      long := [("user", 'u'), ("group", 'g'), ("groups", 'G'), ("name", 'n'), ("real", 'r'),
        ("zero", 'z')] }
  match Flags.ofArgs? table args with
  | none => finish 1
  | some f =>
      match f.operands.filter fun name => name != userName && name != ['0'] with
      | name :: _ =>
          report "id" ("'" ++ shown name ++ "': no such user")
          finish 1
      | [] =>
          let asked := f.given.filter fun (c, _) => ['u', 'g', 'G'].contains c
          match asked with
          | [] =>
              if f.has 'n' || f.has 'r' then
                report "id" "cannot print only names or real IDs in default format"
                finish 1
              else answer "uid=0(root) gid=0(root) groups=0(root)\n".toList
          | [_] => answer ((if f.has 'n' then userName else ['0']) ++ [endMark f])
          | _ =>
              report "id" "cannot print \"only\" of more than one choice"
              finish 1

/-- Tell the groups of users. -/
def writeGroups (args : List (List Char)) : Action m Unit := do
  if args.isEmpty then answer (Line.ended userName)
  else
    let results ← args.mapM fun name => do
      if name == userName then say (Line.ended (name ++ " : root".toList))
      else report "groups" ("'" ++ shown name ++ "': no such user")
      return name == userName
    succeed (results.all (·))

/-- There is no terminal. -/
def writeTerminal (args : List (List Char)) : Action m Unit := do
  let isQuiet := args.any fun arg => [['-', 's'], "--quiet".toList, "--silent".toList].contains arg
  if !isQuiet then say (Line.ended "not a tty".toList)
  finish 1

/-- The program that tells about the machine or its users with a name, if there is
one. -/
def surroundingsProgram? (name : String) : Option (List (List Char) → Action m Unit) :=
  match name with
  | "uname" => some describeMachine
  | "arch" => some fun _ => answer "x86_64\n".toList
  | "hostname" => some fun _ => answer "localhost\n".toList
  | "hostid" => some fun _ => answer "007f0100\n".toList
  | "nproc" => some countProcessors
  | "getconf" => some writeSetting
  | "id" => some identify
  | "whoami" => some fun _ => answer (Line.ended userName)
  | "groups" => some writeGroups
  | "users" | "who" => some fun _ => finish 0
  | "tty" => some writeTerminal
  | "logname" => some fun _ => do
      report "logname" "no login name"
      finish 1
  | _ => none

end PlanOrbits.Shell.Action
