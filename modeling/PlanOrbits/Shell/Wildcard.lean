import PlanOrbits.Shell.Pattern

/-!
# Wildcards

Patterns as they are written in scripts: a star stands for any text, a question
mark for any character, brackets for a set of characters. A quoted character
always stands for itself.

By such a pattern a command is chosen, or the front or the back of a value is
dropped: the shortest part that matches, or the longest.
-/

namespace PlanOrbits.Shell

/-- Characters, and whether each is quoted. -/
abbrev Marked := List (Char × Bool)

/-- The characters of a text, all quoted or none. -/
def Marked.ofText (isQuoted : Bool) (cs : List Char) : Marked := cs.map (·, isQuoted)

namespace Marked

/-- The ranges of the class that is named behind a bracket, and what is behind it. -/
def readClass? (m : Marked) : Option (List (Char × Char) × Marked) :=
  match (m.takeWhile (!·.2)).map Prod.fst with
  | ':' :: cs =>
      (Sign.readClass? cs).map fun (ranges, behind) =>
        (ranges, m.drop (1 + cs.length - behind.length))
  | _ => none

/-- The ranges of a set, and what is behind the bracket that closes it. A bracket at the
front is a member. -/
def readMembers? : (fuel : Nat) → (isFirst : Bool) → Marked →
    Option (List (Char × Char) × Marked)
  | 0, _, _ | _, _, [] => none
  | fuel + 1, isFirst, (c, isQuoted) :: rest =>
      if c == ']' && !isQuoted && !isFirst then some ([], rest)
      else
        let (here, behind) : List (Char × Char) × Marked :=
          match if c == '[' && !isQuoted then readClass? rest else none, rest with
          | some found, _ => found
          | none, ('-', false) :: (d, isOtherQuoted) :: behind =>
              if d == ']' && !isOtherQuoted then ([(c, c)], rest) else ([(c, d)], behind)
          | none, _ => ([(c, c)], rest)
        (readMembers? fuel false behind).map fun (more, rest) => (here ++ more, rest)

/-- The set behind an opening bracket, and what is behind it. One of some characters at
the front negates the set. -/
def readSet? (negations : List Char) (m : Marked) : Option (Pattern × Marked) :=
  let isNegated := m.head?.any fun (c, isQuoted) => !isQuoted && negations.contains c
  (readMembers? (m.length + 1) true (if isNegated then m.tail else m)).map fun (ranges, rest) =>
    (.one ranges isNegated, rest)

end Marked

/-- The pattern that marked characters spell. -/
def Pattern.ofMarked (negations : List Char) : (fuel : Nat) → Marked → Pattern
  | 0, _ | _, [] => .empty
  | fuel + 1, (c, isQuoted) :: rest =>
      let itself := (Pattern.ofText [c]).andThen (ofMarked negations fuel rest)
      if isQuoted then itself
      else if c == '*' then (many any).andThen (ofMarked negations fuel rest)
      else if c == '?' then any.andThen (ofMarked negations fuel rest)
      else if c == '[' then
        match Marked.readSet? negations rest with
        | some (set, rest) => set.andThen (ofMarked negations fuel rest)
        | none => itself
      else itself

/-- The pattern that a marked text spells. -/
def Marked.pattern (m : Marked) : Pattern := .ofMarked ['!'] (m.length + 1) m

/-- Does a marked text spell more than itself? A bracket does only where a set is
behind it. -/
def Marked.isPattern : Marked → Bool
  | [] => false
  | (c, isQuoted) :: rest =>
      !isQuoted &&
        (c == '*' || c == '?' || c == '[' && (Marked.readSet? ['!'] rest).isSome) ||
      isPattern rest

/-- The characters of a text in which a backslash quotes the character behind it. -/
def Marked.ofEscaped : List Char → Marked
  | '\\' :: c :: cs => (c, true) :: ofEscaped cs
  | c :: cs => (c, false) :: ofEscaped cs
  | [] => []

/-- The pattern that a text spells in which a backslash quotes the character behind
it, and in which a circumflex also negates a set. -/
def Pattern.ofWildcard (cs : List Char) : Pattern :=
  .ofMarked ['!', '^'] (cs.length + 1) (Marked.ofEscaped cs)

/-- The parts of a marked text between slashes. -/
def Marked.parts : Marked → List Marked
  | [] => [[]]
  | x :: xs =>
      match parts xs with
      | [] => [[x]]
      | first :: rest => if x.1 == '/' then [] :: first :: rest else (x :: first) :: rest

namespace Pattern

/-- The text without a front that matches: without the shortest or the longest, or
the whole text if there is none. -/
def dropFront (p : Pattern) (isLongest : Bool) (cs : List Char) : List Char :=
  let lengths := (List.range (cs.length + 1)).filter fun n => p.matchesAll (cs.take n)
  match if isLongest then lengths.getLast? else lengths.head? with
  | some n => cs.drop n
  | none => cs

/-- The text without a back that matches: without the shortest or the longest, or
the whole text if there is none. -/
def dropBack (p : Pattern) (isLongest : Bool) (cs : List Char) : List Char :=
  let starts := (List.range (cs.length + 1)).filter fun n => p.matchesAll (cs.drop n)
  match if isLongest then starts.head? else starts.getLast? with
  | some n => cs.take n
  | none => cs

end Pattern

end PlanOrbits.Shell
