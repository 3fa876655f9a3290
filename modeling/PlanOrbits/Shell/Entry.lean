import PlanOrbits.Shell.Line
import PlanOrbits.Shell.Machine

/-!
# Entries of directories

What is at a path: a file, a directory, a link, a pipe or a device, with its size, its
rights and the time of its last change. Besides the files of the machine there are the
programs, which are always there.
-/

namespace PlanOrbits.Shell

/-- What an entry of a directory is. -/
inductive EntryKind where
  | file
  | directory
  | link (target : List Char)
  | pipe
  | device
  deriving DecidableEq, Repr

/-- An entry of a directory. -/
structure Entry where
  kind : EntryKind
  size : Nat
  rights : Nat
  /-- When it was changed, in milliseconds from the beginning. -/
  time : Int
  deriving DecidableEq, Repr

namespace Entry

/-- The names of the programs that are there. -/
def programs : List String :=
  ["[", "arch", "awk", "b2sum", "base32", "base64", "basename", "basenc", "cat", "chgrp", "chmod",
    "chown", "cksum", "clear", "cmp", "comm", "cp", "csplit", "cut", "dash", "date", "dd", "df",
    "diff", "diff3", "dir", "dircolors", "dirname", "du", "echo", "egrep", "env", "expand", "expr",
    "factor", "false", "fgrep", "find", "flock", "fmt", "fold", "getconf", "getent", "getopt",
    "grep", "groups", "gunzip", "gzip", "head", "hostid", "hostname", "id", "install", "ionice",
    "join", "kill", "link", "ln", "locale", "logname", "ls", "mawk", "md5sum", "mkdir", "mkfifo",
    "mknod", "mktemp", "more", "mv", "nawk", "nice", "nl", "nohup", "nproc", "numfmt", "od",
    "paste", "pathchk", "perl", "pinky", "pr", "printenv", "printf", "ptx", "pwd", "readlink",
    "realpath", "rev", "rm", "rmdir", "sdiff", "sed", "seq", "setsid", "sh", "sha1sum",
    "sha224sum", "sha256sum", "sha384sum", "sha512sum", "shred", "shuf", "sleep", "sort", "split",
    "stat", "stdbuf", "stty", "su", "sum", "sync", "tac", "tail", "tar", "tee", "test", "timeout",
    "touch", "tr", "true", "truncate", "tsort", "tty", "uname", "unexpand", "uniq", "unlink",
    "users", "vdir", "wc", "which", "who", "whoami", "xargs", "yes", "zcat"]

/-- Is there a program at a place? -/
def isProgram (place : Location) : Bool :=
  match place with
  | ["/", "bin", name] | ["/", "usr", "bin", name] => programs.contains name
  | _ => false

/-- The devices. -/
def devices : List String :=
  ["/dev/null", "/dev/zero", "/dev/full", "/dev/random", "/dev/urandom", "/dev/tty", "/dev/stdin",
    "/dev/stdout", "/dev/stderr"]

/-- When all that is always there was made. -/
def oldTime : Int := -1000000000

/-- A program. -/
def ofProgram : Entry := { kind := .file, size := 65536, rights := 0o755, time := oldTime }

/-- A device. -/
def ofDevice : Entry := { kind := .device, size := 0, rights := 0o666, time := oldTime }

variable (e : Entry)

/-- Can an entry be executed, or searched? -/
def isExecutable : Bool := Rights.hasAny 0o111 e.rights

/-- The letter for the kind of an entry. -/
def letter : Char :=
  match e.kind with
  | .file => '-'
  | .directory => 'd'
  | .link _ => 'l'
  | .pipe => 'p'
  | .device => 'c'

end Entry

namespace Action

variable {m : Type → Type} [Monad m] [Storage m]

/-- The part of a path in front of its last name. -/
def around (path : List Char) : List Char :=
  let front := (path.reverse.dropWhile (· != '/')).reverse
  if front.isEmpty then ['.'] else front

/-- The entry at a path; a link at the end is followed if `followsLast` holds. -/
def entry? (followsLast : Bool) (path : List Char) : Action m (Option Entry) := do
  if Entry.devices.contains (String.ofList path) then return some Entry.ofDevice
  let register ← (Storage.register : m Register)
  if let (false, some place) := (followsLast, ← entryPlace? path) then
    if let some target := register.link? place then
      let target := Bytes.charsOfText target
      return some {
        kind := .link target, size := target.length, rights := 0o777
        time := (register.note place).time.getD Entry.oldTime }
  match ← filePlace? path with
  | none => return none
  | some place =>
      let note := register.note place
      let time := note.time.getD Entry.oldTime
      if ← isDirectory path then
        let usual := if place == ["/", "tmp"] || place == ["/", "var", "tmp"] then 0o1777 else 0o755
        return some { kind := .directory, size := 4096, rights := note.mode.getD usual, time }
      match ← readFile? path with
      | some text =>
          return some {
            kind := if note.isPipe then .pipe else .file
            size := text.length, rights := note.mode.getD 0o644, time }
      | none =>
          let isPlain := path.getLast? != some '/' && (← isDirectory (around path))
          return if Entry.isProgram place && isPlain then some Entry.ofProgram else none

/-- The names in the directory at a path in their order, if there is one. -/
def entryNames? (path : List Char) : Action m (Option (List (List Char))) := do
  match ← pathOf? path with
  | none => return none
  | some name =>
      match ← (Storage.entries? name : m (Option (List String))) with
      | none => return none
      | some names =>
          let noted := (← filePlace? path).elim [] (← (Storage.register : m Register)).namesIn
          let names := names ++ noted.filter (!names.contains ·)
          return some (Line.sorted (names.map Bytes.charsOfText))

/-- Is there anything at a path? -/
def isThere (path : List Char) : Action m Bool := return (← entry? true path).isSome

/-- Can the file at a path be executed? -/
def isExecutable (path : List Char) : Action m Bool := do
  return (← entry? true path).any fun e => e.kind == .file && e.isExecutable

end Action

end PlanOrbits.Shell
