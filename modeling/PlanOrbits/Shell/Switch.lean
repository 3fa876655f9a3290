/-!
# Switches

The options of a shell that can be turned on and off. Most have a letter, and all
have a name by which they are listed.
-/

namespace PlanOrbits.Shell

/-- An option of a shell. -/
inductive Switch where
  /-- A command that fails ends the shell. -/
  | exitOnFailure
  /-- Patterns stand for themselves. -/
  | noWildcards
  | ignoreEnd
  | interactive
  | monitor
  /-- Commands are read but not run. -/
  | noExecution
  /-- The script is the input. -/
  | standardInput
  | trace
  | verbose
  | vi
  | emacs
  /-- A stream is not directed into a file that is there. -/
  | keepFiles
  /-- Programs see each variable that is assigned. -/
  | exportAll
  | notify
  /-- It is a fault to ask for a variable without a value. -/
  | noUnset
  | privileged
  | noLog
  | debug
  deriving DecidableEq, Repr

namespace Switch

/-- All switches in the order in which they are listed. -/
def all : List Switch :=
  [exitOnFailure, noWildcards, ignoreEnd, interactive, monitor, noExecution, standardInput, trace,
    verbose, vi, emacs, keepFiles, exportAll, notify, noUnset, privileged, noLog, debug]

/-- The name of a switch. -/
def name : Switch → String
  | exitOnFailure => "errexit"
  | noWildcards => "noglob"
  | ignoreEnd => "ignoreeof"
  | interactive => "interactive"
  | monitor => "monitor"
  | noExecution => "noexec"
  | standardInput => "stdin"
  | trace => "xtrace"
  | verbose => "verbose"
  | vi => "vi"
  | emacs => "emacs"
  | keepFiles => "noclobber"
  | exportAll => "allexport"
  | notify => "notify"
  | noUnset => "nounset"
  | privileged => "privileged"
  | noLog => "nolog"
  | debug => "debug"

/-- The letter of a switch, if it has one. -/
def letter? : Switch → Option Char
  | exitOnFailure => some 'e'
  | noWildcards => some 'f'
  | ignoreEnd => some 'I'
  | interactive => some 'i'
  | monitor => some 'm'
  | noExecution => some 'n'
  | standardInput => some 's'
  | trace => some 'x'
  | verbose => some 'v'
  | vi => some 'V'
  | emacs => some 'E'
  | keepFiles => some 'C'
  | exportAll => some 'a'
  | notify => some 'b'
  | noUnset => some 'u'
  | privileged => some 'p'
  | noLog | debug => none

/-- The switch with a letter. -/
def ofLetter? (c : Char) : Option Switch := all.find? (·.letter? == some c)

/-- The switch with a name. -/
def ofName? (text : String) : Option Switch := all.find? (·.name == text)

/-- The switches after one of them was turned on or off. -/
def set (isOn : Bool) (s : Switch) (switches : List Switch) : List Switch :=
  if isOn then s :: switches.filter (· != s) else switches.filter (· != s)

/-- The letters of switches, as they are listed. -/
def letters (switches : List Switch) : List Char :=
  (all.filter switches.contains).reverse.filterMap letter?

/-- Switches as a table of their states. -/
def table (switches : List Switch) : List Char :=
  "Current option settings\n".toList ++ all.flatMap fun s =>
    let name := s.name.toList
    name ++ List.replicate (16 - name.length) ' ' ++
      (if switches.contains s then "on\n" else "off\n").toList

/-- The commands that would set switches so. -/
def commands (switches : List Switch) : List Char :=
  all.flatMap fun s =>
    (if switches.contains s then "set -o " else "set +o ").toList ++ s.name.toList ++ ['\n']

end Switch

end PlanOrbits.Shell
