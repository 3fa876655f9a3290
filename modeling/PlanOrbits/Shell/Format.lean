import PlanOrbits.Shell.Number.Front
import PlanOrbits.Shell.Number.Rounded
import PlanOrbits.Shell.Arithmetic
import PlanOrbits.Shell.CharSet

/-!
# Formatted output

The escapes in printed texts, and formats with conversions for arguments. A
format is used again as long as arguments are left.
-/

namespace PlanOrbits.Shell

/-! ## Escapes -/

/-- The characters that an escape in a format stands for, and what is behind it. An
unknown escape stands for its backslash. Hexadecimal codes are read only where
`hasHex` holds. -/
def readEscape (hasHex : Bool) : List Char → List Char × List Char
  | [] => (['\\'], [])
  | c :: cs =>
      if '0' ≤ c && c ≤ '7' then
        let (code, rest) := readOctal 3 (c :: cs)
        ([charOfCode code], rest)
      else if c == '"' then (['"'], cs)
      else if hasHex && c == 'x' && cs.head?.any (fun d => (Text.hexDigit? d).isSome) then
        let (code, rest) := readHex 2 cs
        ([charOfCode code], rest)
      else
        match control? c with
        | some x => ([x], cs)
        | none => (['\\'], c :: cs)

/-- A text with its escapes resolved, and whether it ends the output. Octal codes
begin with a zero that does not count as a digit. -/
def unescape (hasHex : Bool) : Nat → List Char → List Char × Bool
  | 0, _ => ([], false)
  | _, [] => ([], false)
  | _ + 1, '\\' :: 'c' :: _ => ([], true)
  | fuel + 1, '\\' :: '0' :: cs =>
      let (code, rest) := readOctal 3 cs
      let (more, isLast) := unescape hasHex fuel rest
      (charOfCode code :: more, isLast)
  | fuel + 1, '\\' :: cs =>
      let (xs, rest) := readEscape hasHex cs
      let (more, isLast) := unescape hasHex fuel rest
      (xs ++ more, isLast)
  | fuel + 1, c :: cs =>
      let (more, isLast) := unescape hasHex fuel cs
      (c :: more, isLast)

/-- The arguments with blanks between them, and a line feed unless the first
argument asks for none. -/
def echoText (args : List (List Char)) : List Char :=
  let (isOpen, args) :=
    match args with
    | ['-', 'n'] :: args => (true, args)
    | args => (false, args)
  let joined := List.intercalate [' '] args
  let (text, isLast) := unescape false (joined.length + 1) joined
  if isOpen || isLast then text else text ++ ['\n']

/-- The same by the program of that name, which resolves escapes only if a flag
says so. -/
def plainEchoText (args : List (List Char)) : List Char :=
  let isFlag := fun (arg : List Char) =>
    match arg with
    | '-' :: c :: cs => (c :: cs).all fun c => c == 'n' || c == 'e' || c == 'E'
    | _ => false
  let flags := (args.takeWhile isFlag).flatMap List.tail
  let joined := List.intercalate [' '] (args.dropWhile isFlag)
  let resolves := (flags.filter fun c => c == 'e' || c == 'E').getLast? == some 'e'
  let (text, isLast) :=
    if resolves then unescape true (joined.length + 1) joined else (joined, false)
  if isLast || flags.contains 'n' then text else text ++ ['\n']

/-! ## Faults -/

/-- What is wrong with a format or with its arguments. -/
inductive FormatFault where
  | noNumber (text : List Char)
  /-- Only the front of a text is a number. -/
  | notAllNumber (text : List Char)
  | tooLarge (text : List Char)
  /-- There is no conversion of this kind. -/
  | unknownConversion (text : List Char)
  /-- The format ends inside of a conversion. -/
  | openConversion
  deriving DecidableEq, Repr

namespace FormatFault

/-- The status after a fault. -/
def status : FormatFault → Nat
  | noNumber _ | notAllNumber _ | tooLarge _ => 1
  | unknownConversion _ | openConversion => 2

/-- What is said about a fault. -/
def message : FormatFault → String
  | noNumber text => String.ofList text ++ ": expected numeric value"
  | notAllNumber text => String.ofList text ++ ": not completely converted"
  | tooLarge text => String.ofList text ++ ": Numerical result out of range"
  | unknownConversion text => String.ofList text ++ ": invalid directive"
  | openConversion => "missing format character"

/-- The status after some faults: that of the gravest. -/
def statusOf (faults : List FormatFault) : Nat :=
  faults.foldl (fun n fault => max n fault.status) 0

end FormatFault

/-! ## Conversions -/

/-- A number of places: given in the format, by an argument, or not at all. -/
inductive Places where
  | none
  | given (n : Nat)
  | argument
  deriving DecidableEq, Repr

/-- A conversion in a format. -/
structure Conversion where
  flags : List Char
  width : Places
  precision : Places
  letter : Char
  /-- What stands in the format. -/
  source : List Char
  deriving Repr

/-- A part of a format. -/
inductive FormatPart where
  | text (cs : List Char)
  | conversion (c : Conversion)
  deriving Repr

/-- A number of places, and what is behind it. -/
def readPlaces (cs : List Char) : Places × List Char :=
  match cs with
  | '*' :: rest => (.argument, rest)
  | _ =>
      let digits := cs.takeWhile Text.isDigit
      ((Text.digits? digits).elim Places.none fun ds => Places.given (Text.number ds),
        cs.drop digits.length)

/-- The conversion behind a percent sign, in which letters that tell the size of a
number may stand. -/
def readConversion? (sizes cs : List Char) : Option (Conversion × List Char) := do
  let flags := cs.takeWhile ['-', '0', '+', ' ', '#'].contains
  let (width, behind) := readPlaces (cs.drop flags.length)
  let (precision, behind) :=
    match behind with
    | '.' :: behind =>
        match readPlaces behind with
        | (.none, rest) => (Places.given 0, rest)
        | found => found
    | behind => (.none, behind)
  match behind.dropWhile sizes.contains with
  | [] => none
  | letter :: rest =>
      let source := '%' :: cs.take (cs.length - rest.length)
      return ({ flags, width, precision, letter, source }, rest)

/-- How the escapes in a format are read. -/
inductive EscapeForm where
  /-- They stand for themselves. -/
  | none
  | octal
  /-- Codes may also be hexadecimal. -/
  | hexadecimal
  deriving DecidableEq, Repr

/-- The letters for the size of a number in a conversion, which change nothing. -/
def EscapeForm.sizes : EscapeForm → List Char
  | octal => []
  | none | hexadecimal => ['l', 'h', 'L', 'q', 'j', 't', 'z']

/-- The parts of a format up to its end or its first fault, and whether it has
none. -/
def formatParts (form : EscapeForm) : Nat → List Char → List FormatPart × Bool
  | 0, _ => ([], true)
  | _, [] => ([], true)
  | fuel + 1, '%' :: '%' :: cs =>
      let (parts, isGood) := formatParts form fuel cs
      (.text ['%'] :: parts, isGood)
  | fuel + 1, '%' :: cs =>
      match readConversion? form.sizes cs with
      | none => ([], false)
      | some (c, rest) =>
          let (parts, isGood) := formatParts form fuel rest
          (.conversion c :: parts, isGood)
  | fuel + 1, c :: cs =>
      let (xs, rest) :=
        if c == '\\' && form != .none then readEscape (form == .hexadecimal) cs else ([c], cs)
      let (parts, isGood) := formatParts form fuel rest
      (.text xs :: parts, isGood)

/-! ## Arguments -/

/-- An argument in each of the forms that a conversion may ask for. -/
structure Argument where
  text : List Char
  /-- The character that it denotes. -/
  char : List Char
  integer : Int
  /-- The word that unsigned conversions show. -/
  word : Nat
  real : Float
  /-- What is wrong with it as an integer, as a word and as another number. -/
  integerFault : Option FormatFault := none
  wordFault : Option FormatFault := none
  realFault : Option FormatFault := none

namespace Argument

/-- The argument that is a number, with the text and the character of it. -/
def ofReal (text char : List Char) (x : Float) : Argument :=
  let integer := Arithmetic.clamp (Rounded.truncated x)
  { text, char, integer, word := (integer.emod Text.wordLimit).toNat, real := x }

/-- The argument with the given text. A quote stands before a character whose code
is meant. -/
def ofText (cs : List Char) : Argument :=
  let base : Argument :=
    { text := cs, char := if cs.isEmpty then ['\x00'] else cs.take 1, integer := 0, word := 0
      real := 0 }
  match cs with
  | [] => base
  | '\'' :: c :: _ | '"' :: c :: _ =>
      { base with integer := c.toNat, word := c.toNat, real := c.toNat.toFloat }
  | ['\''] | ['"'] => base
  | _ =>
      let trimmed := cs.dropWhile Text.isBlank
      let (isNegative, digits) :=
        match trimmed with
        | '-' :: rest => (true, rest)
        | '+' :: rest => (false, rest)
        | _ => (false, trimmed)
      let remainder := fun (rest : List Char) =>
        if rest.isEmpty then none
        else if rest.length == cs.length then some (FormatFault.noNumber cs)
        else some (FormatFault.notAllNumber cs)
      let (real, restOfReal) := Front.signed cs
      let isHuge := restOfReal.isEmpty && real.isInf && digits.head?.any Text.isDigit
      let withReal :=
        { base with
          real, realFault := if isHuge then some (.tooLarge cs) else remainder restOfReal }
      match Arithmetic.readNumber? digits with
      | none =>
          { withReal with integerFault := some (.noNumber cs), wordFault := some (.noNumber cs) }
      | some (n, rest) =>
          let integer := if isNegative then -(n : Int) else n
          let fault := fun (isBeyond : Bool) =>
            if isBeyond then some (FormatFault.tooLarge cs) else remainder rest
          let isBeyondWord := Text.wordLimit ≤ n
          { withReal with
            integer := Arithmetic.clamp integer
            word := if isBeyondWord then Text.wordLimit - 1
              else (integer.emod Text.wordLimit).toNat
            integerFault := fault (Arithmetic.clamp integer != integer)
            wordFault := fault isBeyondWord }

end Argument

/-! ## Fields -/

namespace Conversion

/-- A conversion with its places, as numbers. -/
structure Layout where
  isLeft : Bool
  isZeroFilled : Bool
  /-- What stands in front of a number that is not negative. -/
  plus : List Char
  isAlternative : Bool
  width : Nat
  precision : Option Nat

variable (l : Layout)

/-- Fill a text with blanks up to the width. -/
def Layout.pad (text : List Char) : List Char :=
  let fill := List.replicate (l.width - text.length) ' '
  if l.isLeft then text ++ fill else fill ++ text

/-- Digits with a sign, and zeros in front of them up to the width. -/
def Layout.signed (isNegative : Bool) (canFill : Bool) (digits : List Char) : List Char :=
  let sign := if isNegative then ['-'] else l.plus
  let fill :=
    if l.isZeroFilled && !l.isLeft && canFill then l.width - (sign.length + digits.length) else 0
  l.pad (sign ++ List.replicate fill '0' ++ digits)

/-- The digits of an integer, at least as many as the precision says. -/
def Layout.digits (digits : List Char) : List Char :=
  match l.precision with
  | none => digits
  | some p =>
      if p = 0 ∧ digits = ['0'] then [] else List.replicate (p - digits.length) '0' ++ digits

/-- An integer. -/
def Layout.integer (n : Int) : List Char :=
  l.signed (n < 0) l.precision.isNone (l.digits (Text.decimal n.natAbs))

/-- A word to a base, with letters in front of it. -/
def Layout.word (base n : Nat) (marker : List Char) : List Char :=
  let digits := l.digits (Nat.toDigits base n)
  { l with plus := if l.isAlternative && n != 0 then marker else [] }.signed false
    l.precision.isNone digits

/-- A number with a point or an exponent. -/
def Layout.real (letter : Char) (x : Float) : List Char :=
  let isNegative := x.toBits.toNat ≥ Nat.pow 2 63
  if x.isNaN then l.signed isNegative false ['n', 'a', 'n']
  else if x.isInf then l.signed isNegative false ['i', 'n', 'f']
  else
    let places := l.precision.getD 6
    l.signed isNegative true <|
      if letter == 'f' || letter == 'F' then Rounded.fixedText places x
      else if letter == 'e' || letter == 'E' then Rounded.scientificText places x
      else Rounded.generalText places l.isAlternative x

variable (c : Conversion)

/-- An argument in the form that a conversion asks for, and whether it ends the
output. -/
def render? (a : Argument) : Option (List Char × Bool) :=
  let cut := fun (text : List Char) => l.precision.elim text (text.take ·)
  let upper := fun (cs : List Char) => cs.map Char.toUpper
  let word := a.word
  match c.letter with
  | 's' => some (l.pad (cut a.text), false)
  | 'b' =>
      let (text, isLast) := unescape false (a.text.length + 1) a.text
      some (l.pad (cut text), isLast)
  | 'c' => some (l.pad a.char, false)
  | 'd' | 'i' => some (l.integer a.integer, false)
  | 'u' => some ({ l with plus := [] }.integer word, false)
  | 'o' => some (l.word 8 word ['0'], false)
  | 'x' => some (l.word 16 word ['0', 'x'], false)
  | 'X' => some (upper (l.word 16 word ['0', 'x']), false)
  | 'e' | 'f' | 'g' => some (l.real c.letter a.real, false)
  | 'E' | 'F' | 'G' => some (upper (l.real c.letter.toLower a.real), false)
  | _ => none

/-- What is wrong with an argument for a conversion. -/
def fault? (a : Argument) : Option FormatFault :=
  if ['d', 'i'].contains c.letter then a.integerFault
  else if ['u', 'o', 'x', 'X'].contains c.letter then a.wordFault
  else if ['e', 'E', 'f', 'F', 'g', 'G'].contains c.letter then a.realFault
  else none

/-- How many arguments give numbers of places. -/
def placesTaken : Nat :=
  (if c.width = .argument then 1 else 0) + (if c.precision = .argument then 1 else 0)

/-- The layout, with the arguments that give numbers of places. A negative width
means the left side. -/
def layout (args : List Argument) : Layout :=
  let integers := args.map (·.integer)
  let width : Int :=
    match c.width with
    | .none => 0
    | .given n => n
    | .argument => integers.headD 0
  let behind := if c.width = .argument then integers.tail else integers
  let precision : Option Nat :=
    match c.precision with
    | .none => none
    | .given n => some n
    | .argument =>
        let n := behind.headD 0
        if n < 0 then none else some n.toNat
  { isLeft := c.flags.contains '-' || width < 0
    isZeroFilled := c.flags.contains '0'
    plus := if c.flags.contains '+' then ['+'] else if c.flags.contains ' ' then [' '] else []
    isAlternative := c.flags.contains '#'
    width := width.natAbs
    precision }

end Conversion

/-! ## Using formats -/

/-- The output of one use of a format. -/
structure FormatRun where
  output : List Char
  args : List Argument
  /-- Was an argument used? -/
  isUsing : Bool
  isLast : Bool
  faults : List FormatFault

/-- Use a format once. What stands for a missing argument is given. -/
def useFormat (missing : Argument) : List FormatPart → List Argument → FormatRun
  | [], args => { output := [], args, isUsing := false, isLast := false, faults := [] }
  | .text cs :: parts, args =>
      let r := useFormat missing parts args
      { r with output := cs ++ r.output }
  | .conversion c :: parts, args =>
      let behind := args.drop c.placesTaken
      let a := behind.headD missing
      let faults := (args.take c.placesTaken).filterMap (·.integerFault) ++ (c.fault? a).toList
      match c.render? (c.layout args) a with
      | none =>
          { output := [], args, isUsing := false, isLast := true
            faults := [.unknownConversion c.source] }
      | some (text, true) => { output := text, args, isUsing := true, isLast := true, faults }
      | some (text, false) =>
          let r := useFormat missing parts behind.tail
          { r with output := text ++ r.output, isUsing := true, faults := faults ++ r.faults }

/-- Use a format as long as arguments are left; also tells what is wrong. -/
def useFormatAgain (parts : List FormatPart) (isGood : Bool) :
    Nat → List Argument → List Char × List FormatFault
  | 0, _ => ([], [])
  | fuel + 1, args =>
      let r := useFormat (Argument.ofText []) parts args
      if !isGood then (r.output, r.faults ++ [.openConversion])
      else if r.isLast || !r.isUsing || r.args.isEmpty then (r.output, r.faults)
      else
        let (more, faults) := useFormatAgain parts isGood fuel r.args
        (r.output ++ more, r.faults ++ faults)

/-- The output of a format with arguments, and what is wrong with them. -/
def formatText (form : EscapeForm) (format : List Char) (args : List (List Char)) :
    List Char × List FormatFault :=
  let (parts, isGood) := formatParts form (format.length + 1) format
  useFormatAgain parts isGood (args.length + 1) (args.map Argument.ofText)

end PlanOrbits.Shell
