import PlanOrbits.Shell.Token

/-!
# Scripts as commands

The grammar of scripts. A script is read line by line; a line is read as a whole
before it is run, so that a fault in it keeps all of it from running, but not the
lines before. The readers run on fuel; each nested call consumes a token.
-/

namespace PlanOrbits.Shell

open Token

/-- A script that is read line by line. -/
structure Script where
  tokens : List Token
  /-- Is what follows the tokens no more well formed? -/
  isBroken : Bool

namespace Script

/-- The words that structure commands. -/
def reserved : List String :=
  ["\x7b", "\x7d", "!", "if", "then", "elif", "else", "fi", "while", "until", "do", "done", "for",
    "case", "esac"]

/-- The reserved word at the front of tokens. -/
def keyword? : List Token → Option String
  | .word w :: _ => w.bare?.bind fun cs =>
      if reserved.contains (String.ofList cs) then some (String.ofList cs) else none
  | _ => none

/-- Go over a reserved word. -/
def expect? (name : String) (ts : List Token) : Option (List Token) :=
  if keyword? ts == some name then some ts.tail else none

/-- Go over line breaks. -/
def skipLines (ts : List Token) : List Token := ts.dropWhile (· == .operator .newline)

/-- The variable and the value of an assignment. -/
def assignment? : Word → Option (List Char × Word)
  | .text cs false :: w =>
      let name := cs.takeWhile isNameChar
      match cs.drop name.length with
      | '=' :: value =>
          if name.head?.any isNameStart then
            some (name, if value.isEmpty then w else .text value false :: w)
          else none
      | _ => none
  | _ => none

/-- The redirect at the front of tokens, if there is one. -/
def readRedirect? : List Token → Option (Option (Redirect × List Token))
  | .hereText stream body :: ts => some (some (.hereText stream body, ts))
  | .redirect stream arrow :: .word w :: ts =>
      match arrow with
      | .read => some (some (.readFrom stream w, ts))
      | .write writing => some (some (.writeTo stream writing w, ts))
      | .copy => some (some (.copy stream w, ts))
  | .redirect .. :: _ => none
  | _ => some none

/-- The redirects at the front of tokens. -/
def readRedirects? : Nat → List Token → Option (List Redirect × List Token)
  | 0, _ => none
  | fuel + 1, ts => do
      match ← readRedirect? ts with
      | none => return ([], ts)
      | some (r, ts) =>
          let (rs, ts) ← readRedirects? fuel ts
          return (r :: rs, ts)

/-- The words and redirects of a simple command. -/
def readParts? : Nat → List Token → Option (List Word × List Redirect × List Token)
  | 0, _ => none
  | fuel + 1, ts => do
      match ← readRedirect? ts with
      | some (r, ts) =>
          let (ws, rs, ts) ← readParts? fuel ts
          return (ws, r :: rs, ts)
      | none =>
          match ts with
          | .word w :: ts =>
              let (ws, rs, ts) ← readParts? fuel ts
              return (w :: ws, rs, ts)
          | ts => return ([], [], ts)

/-- A command with redirects. -/
def redirect (c : Command) (rs : List Redirect) : Command :=
  if rs.isEmpty then c else .redirected c rs

/-- A command between braces as one that redirects do not belong to. -/
def enclose : Command → Command
  | .simple assignments words => .redirected (.simple assignments words) []
  | c => c

/-- A simple command. -/
def readSimple? (fuel : Nat) (ts : List Token) : Option (Command × List Token) := do
  let (words, redirects, rest) ← readParts? fuel ts
  if words.isEmpty && redirects.isEmpty then none
  let assignments := (words.map assignment?).takeWhile (·.isSome)
  return (redirect (.simple (assignments.filterMap id) (words.drop assignments.length)) redirects,
    rest)

/-- The words up to the end of the line. -/
def readWords : List Token → List Word × List Token
  | .word w :: ts =>
      let (ws, ts) := readWords ts
      (w :: ws, ts)
  | ts => ([], ts)

/-- The name of a variable, if the text is one. -/
def variableName? (cs : List Char) : Option (List Char) :=
  if cs.head?.any isNameStart && cs.all isNameChar then some cs else none

/-- The words of a loop up to the end of the line, if it names any. -/
def readRange? : List Token → Option (Option (List Word) × List Token)
  | .word w :: ts =>
      if w.bare? == some ['i', 'n'] then
        match readWords ts with
        | (ws, .operator .newline :: ts) | (ws, .operator .semicolon :: ts) => some (some ws, ts)
        | _ => none
      else some (none, .word w :: ts)
  | .operator .semicolon :: ts => some (none, ts)
  | ts => some (none, ts)

/-- The name of a command behind which parentheses stand, and what is behind
them. -/
def readDefined? : List Token → Option (List Char × List Token)
  | .word w :: .operator .openParen :: .operator .closeParen :: ts => do
      return (← (← w.bare?) |> variableName?, skipLines ts)
  | _ => none

/-- Patterns up to the parenthesis behind them. -/
def readPatterns? : List Token → Option (List Word × List Token)
  | .word w :: .operator .closeParen :: ts => some ([w], ts)
  | .word w :: .operator .bar :: ts =>
      (readPatterns? ts).map fun (ws, ts) => (w :: ws, ts)
  | _ => none

/-- What ends a command in the middle of a line, if there is anything: is it not
waited for? -/
def separator? : List Token → Option (Bool × List Token)
  | .operator .newline :: ts => some (false, ts)
  | .operator .semicolon :: ts => some (false, ts)
  | .operator .ampersand :: ts => some (true, ts)
  | _ => none

mutual

/-- Commands joined by `&&` and `||`. -/
def readChain? : Nat → List Token → Option (Command × List Token)
  | 0, _ => none
  | fuel + 1, ts => do
      let (first, ts) ← readPipeline? fuel ts
      readChainFrom? fuel first ts

/-- The rest of a chain. -/
def readChainFrom? : Nat → Command → List Token → Option (Command × List Token)
  | 0, _, _ => none
  | fuel + 1, first, ts =>
      match ts with
      | .operator .doubleAmpersand :: ts => do
          let (second, ts) ← readPipeline? fuel (skipLines ts)
          readChainFrom? fuel (.andThen first second) ts
      | .operator .doubleBar :: ts => do
          let (second, ts) ← readPipeline? fuel (skipLines ts)
          readChainFrom? fuel (.orElse first second) ts
      | ts => some (first, ts)

/-- Commands joined by pipes, perhaps negated. -/
def readPipeline? : Nat → List Token → Option (Command × List Token)
  | 0, _ => none
  | fuel + 1, ts =>
      match expect? "!" ts with
      | some ts => do
          let (c, ts) ← readPipeline? fuel ts
          return (.negation c, ts)
      | none => do
          let (first, ts) ← readCommand? fuel ts
          match ts with
          | .operator .bar :: ts =>
              let (second, ts) ← readPipeline? fuel (skipLines ts)
              return (.pipe first second, ts)
          | ts => return (first, ts)

/-- One command with its redirects. -/
def readCommand? : Nat → List Token → Option (Command × List Token)
  | 0, _ => none
  | fuel + 1, ts =>
      match ts, keyword? ts with
      | .operator .openParen :: ts, _ => do
          let (body, ts) ← readBlock? fuel ts
          match ts with
          | .operator .closeParen :: ts => readTail? fuel (.subshell body) ts
          | _ => none
      | ts, some "\x7b" => do
          let (body, ts) ← readBlock? fuel ts.tail
          readTail? fuel body (← expect? "\x7d" ts)
      | ts, some "if" => do
          let (c, ts) ← readConditional? fuel ts.tail
          readTail? fuel c ts
      | ts, some "while" => do
          let (c, ts) ← readLoop? fuel false ts.tail
          readTail? fuel c ts
      | ts, some "until" => do
          let (c, ts) ← readLoop? fuel true ts.tail
          readTail? fuel c ts
      | ts, some "for" => do
          let (c, ts) ← readEach? fuel ts.tail
          readTail? fuel c ts
      | ts, some "case" => do
          let (c, ts) ← readChoice? fuel ts.tail
          readTail? fuel c ts
      | ts, none =>
          match readDefined? ts with
          | some (name, ts) => do
              let (body, ts) ← readCommand? fuel ts
              return (.define name body, ts)
          | none => readSimple? (ts.length + 1) ts
      | _, _ => none

/-- The redirects of a command that is no simple one. -/
def readTail? : Nat → Command → List Token → Option (Command × List Token)
  | 0, _, _ => none
  | _ + 1, c, ts => do
      let (rs, ts) ← readRedirects? (ts.length + 1) ts
      return (redirect (if rs.isEmpty then c else enclose c) rs, ts)

/-- Commands up to a reserved word or a parenthesis that closes them; at least
one. -/
def readBlock? : Nat → List Token → Option (Command × List Token)
  | 0, _ => none
  | fuel + 1, ts => do
      let (c, ts) ← readChain? fuel (skipLines ts)
      readBlockFrom? fuel c ts

/-- The rest of a block. -/
def readBlockFrom? : Nat → Command → List Token → Option (Command × List Token)
  | 0, _, _ => none
  | fuel + 1, c, ts =>
      match separator? ts with
      | none => some (c, ts)
      | some (isLeft, ts) =>
          let c := if isLeft then .background c else c
          let ts := skipLines ts
          let isOver := ts.isEmpty || ts.head? == some (.operator .closeParen) ||
            ts.head? == some (.operator .doubleSemicolon) ||
            (keyword? ts).any
              (["\x7d", "then", "elif", "else", "fi", "do", "done", "esac"].contains ·)
          if isOver then some (c, ts)
          else do
            let (next, ts) ← readBlock? fuel ts
            return (.sequence c next, ts)

/-- A conditional behind its first word. -/
def readConditional? : Nat → List Token → Option (Command × List Token)
  | 0, _ => none
  | fuel + 1, ts => do
      let (test, ts) ← readBlock? fuel ts
      let (yes, ts) ← readBlock? fuel (← expect? "then" ts)
      match keyword? ts with
      | some "elif" =>
          let (no, ts) ← readConditional? fuel ts.tail
          return (.conditional test yes no, ts)
      | some "else" =>
          let (no, ts) ← readBlock? fuel ts.tail
          return (.conditional test yes no, ← expect? "fi" ts)
      | _ => return (.conditional test yes .nothing, ← expect? "fi" ts)

/-- A loop behind its first word. -/
def readLoop? : Nat → Bool → List Token → Option (Command × List Token)
  | 0, _, _ => none
  | fuel + 1, isUntil, ts => do
      let (test, ts) ← readBlock? fuel ts
      let (body, ts) ← readBlock? fuel (← expect? "do" ts)
      return (.loop isUntil test body, ← expect? "done" ts)

/-- A loop over words behind its first word. -/
def readEach? : Nat → List Token → Option (Command × List Token)
  | 0, _ => none
  | fuel + 1, ts =>
      match ts with
      | .word name :: ts => do
          let name ← (← name.bare?) |> variableName?
          let (words, ts) ← readRange? (skipLines ts)
          let (body, ts) ← readBlock? fuel (← expect? "do" (skipLines ts))
          return (.each name words body, ← expect? "done" ts)
      | _ => none

/-- A choice behind its first word. -/
def readChoice? : Nat → List Token → Option (Command × List Token)
  | 0, _ => none
  | fuel + 1, ts =>
      match ts with
      | .word subject :: ts =>
          match skipLines ts with
          | .word inWord :: ts => do
              if inWord.bare? ≠ some ['i', 'n'] then none
              let (branches, ts) ← readBranches? fuel (skipLines ts)
              return (.choice subject branches, ts)
          | _ => none
      | _ => none

/-- The branches of a choice up to the word that ends it. -/
def readBranches? : Nat → List Token → Option (Command × List Token)
  | 0, _ => none
  | fuel + 1, ts =>
      match expect? "esac" ts with
      | some ts => some (.nothing, ts)
      | none => do
          let (patterns, ts) ← readPatterns? (if ts.head? == some (.operator .openParen)
            then ts.tail else ts)
          let ts := skipLines ts
          let isEmpty := ts.head? == some (.operator .doubleSemicolon) || keyword? ts == some "esac"
          let (body, ts) ← if isEmpty then some (.nothing, ts) else readBlock? fuel ts
          match skipLines ts with
          | .operator .doubleSemicolon :: ts =>
              let (others, ts) ← readBranches? fuel (skipLines ts)
              return (.branch patterns body others, ts)
          | ts => return (.branch patterns body .nothing, ← expect? "esac" ts)

end

/-- The commands of one line. -/
def readLine? : Nat → List Token → Option (Command × List Token)
  | 0, _ => none
  | fuel + 1, ts => do
      let (c, ts) ← readChain? (8 * ts.length + 8) ts
      match ts with
      | [] => return (c, [])
      | .operator .newline :: ts => return (c, ts)
      | ts =>
          let (isLeft, ts) ← separator? ts
          let c := if isLeft then .background c else c
          match ts with
          | [] => return (c, [])
          | .operator .newline :: ts => return (c, ts)
          | ts =>
              let (next, ts) ← readLine? fuel ts
              return (.sequence c next, ts)

/-- The tokens of the lines that are complete. -/
def dropLastLine (ts : List Token) : List Token :=
  (ts.reverse.dropWhile (· != .operator .newline)).reverse

/-- The script with the given characters. -/
def ofChars (cs : List Char) : Script :=
  let (ts, isComplete) := Token.ofScript cs
  if isComplete then { tokens := ts, isBroken := false }
  else { tokens := dropLastLine ts, isBroken := true }

end Script

end PlanOrbits.Shell
