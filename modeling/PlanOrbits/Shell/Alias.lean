import PlanOrbits.Shell.Script

/-!
# Aliases

Texts that stand for the words by which commands are called. An alias is resolved
where a command begins, and behind another alias whose text ends with a blank;
inside of its own text it stands for itself.

A line is read from the tokens after that. Each of them knows how many tokens of the
script are behind it, so that reading can go on behind the line when the aliases are
others.
-/

namespace PlanOrbits.Shell.Alias

/-- The words behind which a command begins. -/
def leadingWords : List String :=
  ["if", "then", "elif", "else", "while", "until", "do", "!", "\x7b"]

/-- Can a command begin behind a word that stands at the beginning of one? -/
def isOpenBehind (w : Word) : Bool :=
  (Script.assignment? w).isSome || (w.bare?).any fun cs => leadingWords.contains (String.ofList cs)

/-- Tokens, each with the number of tokens behind it. -/
def numbered : List Token → List (Token × Nat)
  | [] => []
  | t :: ts => (t, ts.length) :: numbered ts

/-- The tokens after aliases are resolved, and whether a command can begin behind
them; `isStart` tells whether one can begin in front of them. -/
def resolve (aliases : List (List Char × List Char)) :
    Nat → (isStart : Bool) → List Token → List (Token × Nat) × Bool
  | 0, isStart, ts => (numbered ts, isStart)
  | _, isStart, [] => ([], isStart)
  | fuel + 1, isStart, t :: ts =>
      let go := fun (front : List (Token × Nat)) (isStart : Bool) (ts : List Token) =>
        let (rest, isOpen) := resolve aliases fuel isStart ts
        (front ++ rest, isOpen)
      match t with
      | .word w =>
          match if isStart then w.bare?.bind fun name => (aliases.lookup name).map (name, ·)
            else none with
          | some (name, value) =>
              let others := aliases.filter (·.1 != name)
              let (inner, isOpen) := resolve others fuel true (Token.ofScript value).1
              go (inner.map fun (t, _) => (t, ts.length))
                (isOpen || value.getLast?.any isBlank) ts
          | none => go [(t, ts.length)] (isStart && isOpenBehind w) ts
      | .operator _ => go [(t, ts.length)] true ts
      | .hereText .. => go [(t, ts.length)] isStart ts
      | .redirect .. =>
          go ((t, ts.length) :: (numbered ts).take 1) isStart (ts.drop 1)

/-- The next line of a script, and the tokens behind it; `none` if there is no
line, and `some none` if the line is not well formed. -/
def nextLine? (aliases : List (List Char × List Char)) (ts : List Token) :
    Option (Option (Command × List Token)) :=
  match Script.skipLines ts with
  | [] => none
  | ts =>
      let resolved :=
        if aliases.isEmpty then numbered ts
        else (resolve aliases (2 * ts.length + 2 * aliases.length + 2) true ts).1
      let found := Script.readLine? (resolved.length + 1) (resolved.map Prod.fst)
      some (found.map fun (c, rest) =>
        let behind := (resolved[resolved.length - rest.length - 1]?).elim 0 Prod.snd
        (c, ts.drop (ts.length - behind)))

end PlanOrbits.Shell.Alias
