import PlanOrbits.Shell.Flags
import PlanOrbits.Shell.Line
import PlanOrbits.Shell.Pattern

/-!
# Sets of characters

Replacing the characters of one set by those of another, dropping those of a set,
and keeping one of several equal neighbours.
-/

namespace PlanOrbits.Shell

/-! ## Codes -/

/-- The code of up to so many octal digits, and what is behind them. -/
def readOctal (digits : Nat) (cs : List Char) : Nat × List Char :=
  let octal := (cs.take digits).takeWhile fun c => '0' ≤ c && c ≤ '7'
  (octal.foldl (fun n c => 8 * n + (c.toNat - '0'.toNat)) 0, cs.drop octal.length)

/-- The code of up to so many hexadecimal digits, and what is behind them. -/
def readHex (digits : Nat) (cs : List Char) : Nat × List Char :=
  let hex := (cs.take digits).takeWhile fun c => (Text.hexDigit? c).isSome
  ((hex.filterMap Text.hexDigit?).foldl (16 * · + ·) 0, cs.drop hex.length)

/-- The character of a code, which is cut to a byte. -/
def charOfCode (n : Nat) : Char := Char.ofNat (n % 256)

/-- The control character that a letter stands for behind a backslash. -/
def control? : Char → Option Char
  | 'a' => some '\x07'
  | 'b' => some '\x08'
  | 'f' => some '\x0c'
  | 'n' => some '\n'
  | 'r' => some '\r'
  | 't' => some '\t'
  | 'v' => some '\x0b'
  | '\\' => some '\\'
  | _ => none

/-! ## Sets -/

namespace CharSet

/-- All characters. -/
def all : List Char := (List.range 256).map Char.ofNat

/-- A character of a set, perhaps written with a backslash. -/
def readChar? : List Char → Option (Char × List Char)
  | [] => none
  | '\\' :: c :: cs =>
      if '0' ≤ c && c ≤ '7' then
        let (code, rest) := readOctal 3 (c :: cs)
        some (charOfCode code, rest)
      else some ((control? c).getD c, cs)
  | c :: cs => some (c, cs)

/-- A part of a written set: characters, or one character that fills the set up. -/
inductive Part where
  | chars (cs : List Char)
  /-- So many times a character; zero is as often as needed. -/
  | filled (c : Char) (count : Nat)

/-- A repeated character in brackets, and what is behind it. -/
def readRepeated? (cs : List Char) : Option (Part × List Char) := do
  let (c, rest) ← readChar? cs
  match rest with
  | '*' :: rest =>
      let digits := rest.takeWhile Text.isDigit
      match rest.drop digits.length with
      | ']' :: behind =>
          let count :=
            if digits.head? == some '0' then (readOctal digits.length digits).1
            else (Text.digits? digits).elim 0 Text.number
          return (.filled c count, behind)
      | _ => none
  | _ => none

/-- The parts of a written set. -/
def readParts? : Nat → List Char → Option (List Part)
  | 0, _ => none
  | _, [] => some []
  | fuel + 1, '[' :: ':' :: cs =>
      match Sign.readClass? cs with
      | some (ranges, rest) => do
          return .chars (all.filter (Pattern.isInRanges ranges)) :: (← readParts? fuel rest)
      | none => do return .chars ['['] :: (← readParts? fuel (':' :: cs))
  | fuel + 1, cs => do
      if let '[' :: inner := cs then
        if let some (part, rest) := readRepeated? inner then
          return part :: (← readParts? fuel rest)
      let (low, rest) ← readChar? cs
      match rest with
      | '-' :: next :: others =>
          let (high, rest) ← readChar? (next :: others)
          if high < low then none
          let range := (List.range' low.toNat (high.toNat - low.toNat + 1)).map Char.ofNat
          return .chars range :: (← readParts? fuel rest)
      | rest => return .chars [low] :: (← readParts? fuel rest)

/-- The characters of parts, filled up to a length. -/
def fill (length : Nat) (parts : List Part) : List Char :=
  let given := parts.foldl (fun n part =>
    match part with
    | .chars cs => n + cs.length
    | .filled _ count => n + count) 0
  parts.flatMap fun part =>
    match part with
    | .chars cs => cs
    | .filled c 0 => List.replicate (length - given) c
    | .filled c count => List.replicate count c

end CharSet

/-! ## Filters -/

/-- Keep one of equal neighbours that are in a set. -/
def squeeze (isSqueezed : Char → Bool) : List Char → List Char
  | [] => []
  | [c] => [c]
  | c :: d :: cs =>
      if c == d && isSqueezed c then squeeze isSqueezed (d :: cs)
      else c :: squeeze isSqueezed (d :: cs)

/-- The flags of a replacement. -/
def replacementTable : FlagTable where
  plain := "cCdst"
  valued := ""
  long := [("complement", 'c'), ("delete", 'd'), ("squeeze-repeats", 's'), ("truncate-set1", 't')]
  isMixed := false

/-- Replace, delete or squeeze characters. -/
def replaceChars? (args : List (List Char)) (text : List Char) : Option Filtered := do
  let f ← Flags.ofArgs? replacementTable args
  let written ← f.operands.mapM fun set => CharSet.readParts? (set.length + 1) set
  let complete := fun (set : List Char) =>
    if f.has 'c' || f.has 'C' then CharSet.all.filter (!set.contains ·) else set
  match f.has 'd', f.has 's', written with
  | true, false, [set] =>
      let set := complete (CharSet.fill 0 set)
      some (text.filter (!set.contains ·), true)
  | true, true, [set, twin] =>
      let set := complete (CharSet.fill 0 set)
      let twin := CharSet.fill 0 twin
      some (squeeze twin.contains (text.filter (!set.contains ·)), true)
  | false, true, [set] =>
      let set := complete (CharSet.fill 0 set)
      some (squeeze set.contains text, true)
  | false, isSqueezed, [set, images] =>
      let set := complete (CharSet.fill 0 set)
      let images := CharSet.fill set.length images
      let set := if f.has 't' then set.take images.length else set
      let backwards := set.reverse
      let image := fun c =>
        match backwards.idxOf? c, images.getLast? with
        | some i, some last => images.getD (set.length - 1 - i) last
        | _, _ => c
      let replaced := text.map image
      some (if isSqueezed then squeeze images.contains replaced else replaced, true)
  | _, _, _ => none

end PlanOrbits.Shell
