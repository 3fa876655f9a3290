import PlanOrbits.Shell.Pattern

/-!
# Editing commands

The language in which a text is edited line by line. A script is a list of
commands, each with a guard that tells for which lines it is run. Blocks and
branches are jumps to places in the list.
-/

namespace PlanOrbits.Shell.Edit

/-- A written pattern, or the one that was used last. -/
structure Regex where
  pattern : Option Pattern
  deriving Repr

/-- Which lines are meant. -/
inductive Address where
  | line (n : Nat)
  | last
  | occurs (r : Regex)
  /-- Every so many lines from a first one on. -/
  | step (first step : Nat)
  deriving Repr

/-- Where a range of lines ends. -/
inductive RangeEnd where
  | address (a : Address)
  /-- So many lines behind the first. -/
  | after (n : Nat)
  /-- At a line whose number is a multiple. -/
  | multiple (n : Nat)
  deriving Repr

/-- For which lines a command is run: for all, for some, or for ranges. -/
structure Guard where
  first : Option Address
  last : Option RangeEnd
  isNegated : Bool
  deriving Repr

/-- How the case of what follows is changed. -/
inductive Casing where
  | keep
  | upper
  | lower
  deriving DecidableEq, Repr

/-- A part of what is put in the place of an occurrence. -/
inductive Part where
  | text (cs : List Char)
  /-- The text of a group; zero is the whole occurrence. -/
  | group (n : Nat)
  | casing (c : Casing)
  /-- The case of the next character only. -/
  | nextCasing (c : Casing)
  deriving Repr

/-- Where lines are written. -/
inductive Sink where
  /-- To where the edited text goes. -/
  | output
  /-- To where complaints go. -/
  | complaints
  | file (path : List Char)
  deriving DecidableEq, Repr

/-- The sink with a path; two paths name streams. -/
def Sink.ofPath (path : List Char) : Sink :=
  if path == "/dev/stdout".toList then output
  else if path == "/dev/stderr".toList then complaints
  else file path

/-- Putting something in the place of occurrences. -/
structure Substitution where
  regex : Regex
  parts : List Part
  /-- The first occurrence that is replaced, counted from one. -/
  first : Nat
  /-- Are all occurrences from there on replaced? -/
  isGlobal : Bool
  /-- Is the line then a script, in whose place its output is put? -/
  isExecuted : Bool
  isPrinted : Bool
  /-- Where the line is also written. -/
  sink : Option Sink
  deriving Repr

/-- What a command does with the line. -/
inductive Operation where
  /-- Begins a block, which ends in front of the given place. -/
  | openBlock (behind : Nat)
  | closeBlock
  | label (name : List Char)
  | substitute (s : Substitution)
  | transliterate (images : List (Char × Char))
  /-- Writes a text behind the line. -/
  | append (text : List Char)
  /-- Writes a text in front of the line. -/
  | insert (text : List Char)
  /-- Writes a text in the place of the lines. -/
  | change (text : List Char)
  | delete
  /-- Deletes the first of several lines. -/
  | deleteFirst
  | print
  | printFirst
  | printNumber
  /-- Writes the name of the file from which the line comes. -/
  | printName
  /-- Prints the line with signs for what cannot be seen, in rows of a given width. -/
  | list (width : Option Nat)
  /-- Writes the content of a file behind the line. -/
  | readFile (path : List Char)
  /-- Writes the next line of a file behind the line. -/
  | readLine (path : List Char)
  | writeFile (sink : Sink)
  /-- Writes the first of several lines. -/
  | writeFirst (sink : Sink)
  /-- Writes the output of a script in front of the line; without a script, the line is
  one, and its output is put in its place. -/
  | execute (script : List Char)
  | next
  | appendNext
  | hold
  | holdBehind
  | get
  | getBehind
  | exchange
  | clear
  /-- Goes to a place, or behind the last command; perhaps only if something was
  replaced, or only if nothing was. -/
  | branch (ifReplaced : Option Bool) (target : Option Nat)
  /-- Ends the editing, perhaps without printing the line. -/
  | quit (isPrinting : Bool) (status : Nat)
  deriving Repr

/-- A command. -/
structure Command where
  guard : Guard
  operation : Operation
  deriving Repr

/-- The file that a command reads, if it reads one. -/
def Operation.source? : Operation → Option (List Char)
  | .readFile path | .readLine path => some path
  | _ => none

/-- Where a command writes apart from the edited text, if it does. -/
def Operation.sink? : Operation → Option Sink
  | .writeFile sink | .writeFirst sink => some sink
  | .substitute s => s.sink
  | _ => none

/-- Has a command a use for files or for scripts? -/
def Operation.reachesOut : Operation → Bool
  | .execute _ | .readFile _ | .readLine _ | .writeFile _ | .writeFirst _ => true
  | .substitute s => s.isExecuted || s.sink.isSome
  | _ => false

end PlanOrbits.Shell.Edit
