/-!
# Commands

The language of scripts: words, simple commands, and the ways to combine them. A
word is kept in pieces until it is expanded, because only what is not quoted is
cut into fields.
-/

namespace PlanOrbits.Shell

/-- How a value is changed before it is put in. An argument goes with it. -/
inductive Adjustment where
  /-- The argument, where there is no value. -/
  | orElse
  /-- The argument, which is also assigned, where there is no value. -/
  | orAssign
  /-- The argument, where there is a value. -/
  | ifThere
  /-- The value without a front that matches the argument. -/
  | dropFront (isLongest : Bool)
  /-- The value without a back that matches the argument. -/
  | dropBack (isLongest : Bool)
  /-- The number of characters. -/
  | count
  /-- A complaint that ends the shell, where there is no value. -/
  | orFail
  deriving DecidableEq, Repr

/-- A piece of a word. -/
inductive Piece where
  | text (cs : List Char) (isQuoted : Bool)
  /-- The value of a variable or parameter. -/
  | parameter (name : List Char) (isQuoted : Bool)
  /-- The value after an adjustment, for which an empty value may count as none. -/
  | adjusted (name : List Char) (adjustment : Adjustment) (emptyIsNone : Bool)
      (argument : List Char) (isQuoted : Bool)
  /-- The output of a script. -/
  | substitution (script : List Char) (isQuoted : Bool)
  /-- The value of an arithmetic expression. -/
  | arithmetic (expression : List Char)
  deriving DecidableEq, Repr

/-- A word before its expansion. -/
abbrev Word := List Piece

namespace Word

/-- The word with one more character in front. -/
def addChar (c : Char) (isQuoted : Bool) : Word → Word
  | .text cs q :: w =>
      if q == isQuoted then .text (c :: cs) q :: w else .text [c] isQuoted :: .text cs q :: w
  | w => .text [c] isQuoted :: w

/-- The characters of a word in which nothing is quoted or expanded. -/
def bare? : Word → Option (List Char)
  | [.text cs false] => some cs
  | _ => none

/-- The characters of a word that can only mean itself. -/
def plain? : Word → Option (List Char)
  | [.text cs isQuoted] =>
      if isQuoted || !cs.any fun c => c == '~' || c == '*' || c == '?' || c == '[' then some cs
      else none
  | _ => none

/-- The characters of a word in which nothing is expanded, and whether a part of
it is quoted. -/
def constant? : Word → Option (List Char × Bool)
  | [] => some ([], false)
  | .text cs q :: w => (constant? w).map fun (rest, isQuoted) => (cs ++ rest, q || isQuoted)
  | _ => none

end Word

/-- What becomes of the content of a file that is written. -/
inductive Writing where
  | replace
  /-- Replaced even where files are kept. -/
  | overwrite
  | append
  deriving DecidableEq, Repr

/-- A change of a stream of a command. The streams have numbers: zero is the
input, one the output, two the messages. -/
inductive Redirect where
  /-- Read from a file. -/
  | readFrom (stream : Nat) (path : Word)
  /-- Read a text. -/
  | hereText (stream : Nat) (body : Word)
  /-- Write into a file. -/
  | writeTo (stream : Nat) (writing : Writing) (path : Word)
  /-- Let a stream lead where another one leads, or nowhere for a dash. -/
  | copy (stream : Nat) (other : Word)
  deriving DecidableEq, Repr

/-- A command. -/
inductive Command where
  | nothing
  | simple (assignments : List (List Char × Word)) (words : List Word)
  | redirected (c : Command) (redirects : List Redirect)
  /-- A command whose changes of variables do not last. -/
  | subshell (c : Command)
  /-- A command that is not waited for. -/
  | background (c : Command)
  /-- The output of the first is the input of the second. -/
  | pipe (first second : Command)
  | negation (c : Command)
  | sequence (first second : Command)
  /-- The second runs if the first succeeds. -/
  | andThen (first second : Command)
  /-- The second runs if the first fails. -/
  | orElse (first second : Command)
  | conditional (test yes no : Command)
  /-- Runs the branch whose pattern matches the word. -/
  | choice (subject : Word) (branches : Command)
  /-- The second runs if none of the patterns of the first matches. -/
  | branch (patterns : List Word) (body others : Command)
  /-- Repeats the body as long as the test succeeds, or until it does. -/
  | loop (isUntil : Bool) (test body : Command)
  /-- Repeats the body for the fields of words, or for the parameters. -/
  | each (name : List Char) (words : Option (List Word)) (body : Command)
  /-- Gives a command a name. -/
  | define (name : List Char) (body : Command)
  deriving Repr

/-- Is a command made of several parts with pipes between them? -/
def Command.isPipe : Command → Bool
  | pipe .. => true
  | _ => false

end PlanOrbits.Shell
