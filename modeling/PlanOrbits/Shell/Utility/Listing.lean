import PlanOrbits.Shell.Format
import PlanOrbits.Shell.Measure
import PlanOrbits.Shell.Utility.Files
import PlanOrbits.Shell.Wildcard

/-!
# Listing files

The programs that list the entries of directories, by their names alone or with all
that is known of them, and that fill in a layout for each.
-/

namespace PlanOrbits.Shell.Action

variable {m : Type → Type} [Monad m] [Storage m]

/-! ## What is shown of an entry -/

/-- An entry with the name by which it is listed. -/
structure Listed where
  /-- The name that is shown. -/
  name : List Char
  path : List Char
  entry : Entry

/-- The flags of the program that lists. -/
def listTable : FlagTable where
  plain := "1aABcCdfFgGhiklLmnNopqQrRsStuUvxXH"
  valued := "wITWY"
  optional := "E"
  long := [("all", 'a'), ("almost-all", 'A'), ("directory", 'd'), ("classify", 'F'),
    ("recursive", 'R'), ("reverse", 'r'), ("size", 's'), ("inode", 'i'), ("color", 'E'),
    ("human-readable", 'h'), ("numeric-uid-gid", 'n'), ("no-group", 'G'), ("quote-name", 'Q'),
    ("ignore-backups", 'B'), ("ignore", 'I'), ("hide", 'I'), ("literal", 'N'), ("width", 'w'),
    ("group-directories-first", 'D'), ("sort", 'W'), ("time-style", 'Y'), ("dereference", 'L'),
    ("file-type", 'P'), ("full-time", 'Z')]
  isMixed := true

/-- What is shown behind a name to tell the kind of the entry. -/
def kindMark (f : Flags) (e : Entry) : List Char :=
  match e.kind with
  | .directory => if f.has 'F' || f.has 'p' || f.has 'P' then ['/'] else []
  | .link _ => if f.has 'F' || f.has 'P' then ['@'] else []
  | .pipe => if f.has 'F' || f.has 'P' then ['|'] else []
  | _ => if f.has 'F' && e.isExecutable then ['*'] else []

/-- A name as it is shown. -/
def shownName (f : Flags) (name : List Char) : List Char :=
  if f.has 'Q' then '"' :: name ++ ['"'] else name

/-- A size with a unit, rounded up. -/
def humanSize (size : Nat) : List Char :=
  if size < 1024 then Text.decimal size else go 1 ['K', 'M', 'G', 'T', 'P']
where
  /-- The size in the first unit in which it is small enough; `power` is the power of
  1024 of the unit before the first. -/
  go (power : Nat) : List Char → List Char
    | [] => Text.decimal size
    | unit :: units =>
        let unitSize := Nat.pow 1024 power
        let tenths := (size * 10 + unitSize - 1) / unitSize
        if tenths < 100 then
          Text.decimal (tenths / 10) ++ '.' :: Text.decimal (tenths % 10) ++ [unit]
        else
          let whole := (size + unitSize - 1) / unitSize
          if whole < 1024 || units.isEmpty then Text.decimal whole ++ [unit]
          else go (power + 1) units

/-- The size that is shown of an entry. -/
def shownSize (f : Flags) (e : Entry) : List Char :=
  if f.has 'h' then humanSize e.size else Text.decimal e.size

/-- The kilobytes that an entry takes. -/
def blocksOf (e : Entry) : Nat :=
  match e.kind with
  | .file | .directory => (e.size + 4095) / 4096 * 4
  | _ => 0

/-- The blocks of an entry as they are shown. -/
def shownBlocks (f : Flags) (blocks : Nat) : List Char :=
  if f.has 'h' then humanSize (blocks * 1024) else Text.decimal blocks

/-- How many names an entry has: a directory has one in each directory in it. -/
def nameCount (path : List Char) (e : Entry) : Action m Nat := do
  match e.kind with
  | .directory =>
      let inner ← (← entries path).filterM fun name => isRealDirectory (inDirectory path name)
      return inner.length + 2
  | .link _ => return 1
  | _ =>
      let register ← (Storage.register : m Register)
      return (← filePlace? path).elim 1 fun place => (register.twinsOf place).length + 1

/-- A number that tells a file from others. -/
def serialNumber (path : List Char) : Action m Nat := do
  let place ← filePlace? path
  return (place.getD []).foldl (fun n name =>
    name.toList.foldl (fun n c => (n * 31 + c.toNat) % 1000003) (n * 37 + 1)) 4000000

/-! ## The order -/

/-- The characters behind the last point of a name. -/
def extension (name : List Char) : List Char :=
  if name.contains '.' then '.' :: (name.reverse.takeWhile (· != '.')).reverse else []

/-- The letter of the flag that says by what is sorted. -/
def sortLetter (f : Flags) : Option Char :=
  let named :=
    match (f.value? 'W').map String.ofList with
    | some "size" => some 'S'
    | some "time" => some 't'
    | some "extension" => some 'X'
    | some "none" => some 'U'
    | some "version" => some 'v'
    | _ => none
  ((f.given.filter fun (c, _) => ['S', 't', 'X', 'U', 'f', 'v'].contains c).getLast?.map
    Prod.fst).or named

/-- Does an entry go in front of another one, or at the same place? -/
def goesBefore (f : Flags) (a b : Listed) : Bool :=
  let byName := Ord.compare a.name b.name
  let order :=
    match sortLetter f with
    | some 'S' => (Ord.compare b.entry.size a.entry.size).then byName
    | some 't' => (Ord.compare b.entry.time a.entry.time).then byName
    | some 'X' => (Ord.compare (extension a.name) (extension b.name)).then byName
    | some 'v' => (Measure.compareVersions a.name b.name).then byName
    | _ => byName
  let order := if f.has 'r' then order.swap else order
  let first := fun (x : Listed) => if x.entry.kind == .directory then 0 else 1
  (if f.has 'D' then (Ord.compare (first a) (first b)).then order else order) != .gt

/-- Entries in the order that the flags ask for. -/
def inOrder (f : Flags) (listed : List Listed) : List Listed :=
  if sortLetter f == some 'U' || sortLetter f == some 'f' then listed
  else listed.mergeSort (goesBefore f)

/-! ## Long lines -/

/-- The time of the last change as it is listed. -/
def listedTime (f : Flags) (zone : Int × List Char) (now : Int) (e : Entry) : List Char :=
  let isRecent := now - 15778476000 < e.time && e.time ≤ now
  let layout :=
    match (f.value? 'Y').map String.ofList with
    | some "long-iso" => "%Y-%m-%d %H:%M"
    | some "full-iso" => "%Y-%m-%d %H:%M:%S.%N %z"
    | some "iso" => if isRecent then "%m-%d %H:%M" else "%Y-%m-%d "
    | some style =>
        if style.toList.head? == some '+' then String.ofList (style.toList.drop 1)
        else if isRecent then "%b %e %H:%M" else "%b %e  %Y"
    | none =>
        if f.has 'Z' then "%Y-%m-%d %H:%M:%S.%N %z"
        else if isRecent then "%b %e %H:%M" else "%b %e  %Y"
  (momentAt zone e.time).text layout.toList

/-- The greatest length of texts. -/
def widest (texts : List (List Char)) : Nat := texts.foldl (fun n text => max n text.length) 0

/-- A text with blanks behind it. -/
def padRight (width : Nat) (text : List Char) : List Char :=
  text ++ List.replicate (width - text.length) ' '

/-- The lines for entries with all that is known of them. -/
def longLines (f : Flags) (listed : List Listed) : Action m (List (List Char)) := do
  let zone ← zone
  let now : Int := (← get).clock
  let rows ← listed.mapM fun x => do
    let count ← nameCount x.path x.entry
    let serial ← serialNumber x.path
    let owner := if f.has 'n' then ['0'] else "root".toList
    let target :=
      match x.entry.kind with
      | .link target => " -> ".toList ++ target
      | _ => []
    let mark := if target.isEmpty then kindMark f x.entry else []
    return (x.entry, Text.decimal serial, Text.decimal count, owner, shownSize f x.entry,
      shownName f x.name ++ target ++ mark)
  let countWidth := widest (rows.map fun (_, _, count, _) => count)
  let blockWidth := widest (rows.map fun (e, _) => shownBlocks f (blocksOf e))
  let sizeWidth := widest (rows.map fun (_, _, _, _, size, _) => size)
  return rows.map fun (e, serial, count, owner, size, name) =>
    List.intercalate [' '] <|
      (if f.has 'i' then [serial] else []) ++
      (if f.has 's' then [Line.padLeft blockWidth (shownBlocks f (blocksOf e))] else []) ++
      [e.letter :: Rights.letters e.rights, Line.padLeft countWidth count] ++
      (if f.has 'g' then [] else [owner]) ++
      (if f.has 'o' || f.has 'G' then [] else [owner]) ++
      [Line.padLeft sizeWidth size, listedTime f zone now e, name]

/-! ## Columns -/

/-- The widths of so many columns for texts: two blanks are between columns. -/
def columnWidths (isAcross : Bool) (columns : Nat) (texts : List (List Char)) : List Nat :=
  let rows := (texts.length + columns - 1) / columns
  (List.range columns).map fun column =>
    widest ((texts.zipIdx.filter fun (_, i) =>
      (if isAcross then i % columns else i / rows) == column).map Prod.fst)

/-- Texts in as many columns as fit. -/
def inColumns (isAcross : Bool) (width : Nat) (texts : List (List Char)) : List (List Char) :=
  let fits := fun (columns : Nat) =>
    let rows := (texts.length + columns - 1) / columns
    let widths := columnWidths isAcross columns texts
    let total := widths.foldl (· + ·) (2 * (columns - 1))
    total < width && (isAcross || (texts.length + rows - 1) / rows == columns)
  let columns := (((List.range (texts.length + 1)).drop 1).reverse.find? fits).getD 1
  let rows := (texts.length + columns - 1) / columns
  let widths := columnWidths isAcross columns texts
  (List.range rows).map fun row =>
    let places := (List.range columns).map fun column =>
      if isAcross then row * columns + column else column * rows + row
    let cells := (places.zip widths).filterMap fun (place, width) =>
      texts[place]?.map (·, width)
    let line := cells.dropLast.flatMap fun (text, width) => padRight (width + 2) text
    line ++ (cells.getLast?.elim [] Prod.fst)

/-- Texts behind commas, in lines that are short enough. -/
def withCommas (width : Nat) (texts : List (List Char)) : List (List Char) :=
  go [] texts
where
  /-- Fill a line, which is given so far, with the texts that are left. -/
  go (line : List Char) : List (List Char) → List (List Char)
    | [] => if line.isEmpty then [] else [line]
    | [text] =>
        if !line.isEmpty && width < line.length + 1 + text.length then [line, text]
        else [if line.isEmpty then text else line ++ ' ' :: text]
    | text :: texts =>
        let text := text ++ [',']
        if line.isEmpty then go text texts
        else if width ≤ line.length + 1 + text.length then line :: go text texts
        else go (line ++ ' ' :: text) texts

/-- The lines for entries. -/
def listLines (f : Flags) (listed : List Listed) : Action m (List (List Char)) := do
  let forms := f.given.filter fun (c, _) => ['l', 'n', 'g', 'o', '1', 'C', 'x', 'm', 'Z'].contains c
  let form := forms.getLast?.map Prod.fst
  match form with
  | some 'l' | some 'n' | some 'g' | some 'o' | some 'Z' => longLines f listed
  | _ => do
      let blockWidth := widest (listed.map fun x => shownBlocks f (blocksOf x.entry))
      let names ← listed.mapM fun x => do
        let number ← serialNumber x.path
        let serial := if f.has 'i' then Text.decimal number ++ [' '] else []
        let blocks :=
          if f.has 's' then Line.padLeft blockWidth (shownBlocks f (blocksOf x.entry)) ++ [' ']
          else []
        return serial ++ blocks ++ shownName f x.name ++ kindMark f x.entry
      let width := (f.number? 'w' 80).getD 80
      return match form with
        | some 'C' => inColumns false width names
        | some 'x' => inColumns true width names
        | some 'm' => withCommas width names
        | _ => names

/-! ## Directories -/

/-- The entries of a directory that are listed. -/
def listedIn (f : Flags) (path : List Char) : Action m (List Listed) := do
  let names ← entries path
  let isHidden := fun (name : List Char) => name.head? == some '.'
  let showsAll := f.has 'a' || f.has 'f'
  let ignored := (f.values 'I').map Pattern.ofWildcard
  let names := names.filter fun name =>
    (!isHidden name || showsAll || f.has 'A') && !(f.has 'B' && name.getLast? == some '~') &&
      !ignored.any (·.matchesAll name)
  let names := if showsAll then ['.'] :: ['.', '.'] :: names else names
  let listed ← names.mapM fun name => do
    let inner := inDirectory path name
    return (← entry? (f.has 'L') inner).map fun entry => { name, path := inner, entry }
  return inOrder f (listed.filterMap id)

/-- The text for a directory, and for those in it if a flag asks for that. -/
def directoryText (f : Flags) (isTitled : Bool) : Nat → List Char → Action m (List (List Char))
  | 0, _ => return []
  | fuel + 1, path => do
      let listed ← listedIn f path
      let lines ← listLines f listed
      let isLong := ['l', 'n', 'g', 'o', 's', 'Z'].any f.has
      let total := listed.foldl (fun n x => n + blocksOf x.entry) 0
      let lines :=
        if isLong then ("total ".toList ++ shownBlocks f total) :: lines else lines
      let title := if isTitled then [path ++ [':']] else []
      let inner ←
        if f.has 'R' then
          (listed.filter fun x => x.entry.kind == .directory && x.name != ['.'] &&
            x.name != ['.', '.']).mapM fun x => directoryText f true fuel x.path
        else pure []
      return Line.join (title ++ lines) :: inner.flatten

/-- List files and directories. -/
def list (args : List (List Char)) : Action m Unit := do
  match Flags.ofArgs? listTable args with
  | none => finish 2
  | some f =>
      let paths := if f.operands.isEmpty then [['.']] else f.operands
      let isLong := ['l', 'n', 'g', 'o', 'Z'].any f.has
      let followsLast := f.has 'L' || f.has 'H' || !(isLong || f.has 'd' || f.has 'F')
      let found ← paths.mapM fun path => do
        let target? ← entry? followsLast path
        let own? ← entry? false path
        match target?.or own? with
        | some entry => return some { name := path, path, entry : Listed }
        | none =>
            report "ls" ("cannot access '" ++ shown path ++ "': " ++ isMissing)
            return none
      let listed := inOrder f (found.filterMap id)
      let (directories, files) :=
        listed.partition fun x => x.entry.kind == .directory && !f.has 'd'
      let fileText ← Line.join <$> listLines f files
      let isTitled := 1 < paths.length || f.has 'R'
      let texts ← directories.mapM fun x => directoryText f isTitled treeDepth x.path
      let parts := (if files.isEmpty then [] else [fileText]) ++ texts.flatten
      say (List.intercalate ['\n'] parts)
      finish (if found.all Option.isSome then 0 else 2)

/-! ## Layouts -/

/-- The words for the kind of an entry. -/
def kindWords (e : Entry) : String :=
  match e.kind with
  | .file => if e.size = 0 then "regular empty file" else "regular file"
  | .directory => "directory"
  | .link _ => "symbolic link"
  | .pipe => "fifo"
  | .device => "character special file"

/-- The number of the kind of an entry among its bits. -/
def kindBits (e : Entry) : Nat :=
  match e.kind with
  | .file => 0o100000
  | .directory => 0o040000
  | .link _ => 0o120000
  | .pipe => 0o010000
  | .device => 0o020000

/-- The text for a letter in the layout of an entry. -/
def statPart (path : List Char) (e : Entry) (letter : Char) : Action m (List Char) := do
  let t := momentAt (← zone) e.time
  match letter with
  | 'n' => return path
  | 'N' =>
      let quoted := '\'' :: path ++ ['\'']
      match e.kind with
      | .link target => return quoted ++ " -> '".toList ++ target ++ ['\'']
      | _ => return quoted
  | 's' => return Text.decimal e.size
  | 'F' => return (kindWords e).toList
  | 'a' => return Rights.digits e.rights
  | 'A' => return e.letter :: Rights.letters e.rights
  | 'f' => return Nat.toDigits 16 (kindBits e + e.rights)
  | 'h' => return Text.decimal (← nameCount path e)
  | 'u' | 'g' | 't' | 'T' => return ['0']
  | 'U' | 'G' => return "root".toList
  | 'i' => return Text.decimal (← serialNumber path)
  | 'b' => return Text.decimal (2 * blocksOf e)
  | 'B' => return "512".toList
  | 'o' => return "4096".toList
  | 'd' => return "64".toList
  | 'm' => return ['/']
  | 'x' | 'y' | 'z' => return t.text "%Y-%m-%d %H:%M:%S.%N %z".toList
  | 'X' | 'Y' | 'Z' => return (toString t.seconds).toList
  | 'w' => return ['-']
  | 'W' => return ['0']
  | '%' => return ['%']
  | _ => return ['?']

/-- A layout with the parts of an entry filled in. -/
def statText (isEscaped : Bool) (path : List Char) (e : Entry) :
    Nat → List Char → Action m (List Char)
  | 0, _ | _, [] => return []
  | fuel + 1, '%' :: cs => do
      let flags := cs.takeWhile ['-', '+', ' ', '#', '0'].contains
      let digits := (cs.drop flags.length).takeWhile Text.isDigit
      match (cs.drop (flags.length + digits.length)) with
      | c :: rest =>
          let part ← statPart path e c
          let width := ((Text.digits? digits).map Text.number).getD 0
          let padded :=
            if flags.contains '-' then padRight width part
            else if flags.contains '0' then
              List.replicate (width - part.length) '0' ++ part
            else Line.padLeft width part
          let padded := if flags.contains '#' && c == 'a' then '0' :: padded else padded
          return padded ++ (← statText isEscaped path e fuel rest)
      | [] => return '%' :: flags ++ digits
  | fuel + 1, '\\' :: cs => do
      if isEscaped then
        let (text, rest) := readEscape true cs
        return text ++ (← statText isEscaped path e fuel rest)
      else return '\\' :: (← statText isEscaped path e fuel cs)
  | fuel + 1, c :: cs => return c :: (← statText isEscaped path e fuel cs)

/-- Write what is known of files, in a layout. -/
def writeStatus (args : List (List Char)) : Action m Unit := do
  let table : FlagTable :=
    { plain := "Lft", valued := "cp", isMixed := true
      long := [("dereference", 'L'), ("format", 'c'), ("printf", 'p'), ("file-system", 'f'),
        ("terse", 't')] }
  match Flags.ofArgs? table args with
  | none => finish 1
  | some f =>
      let results ← f.operands.mapM fun path => do
        match ← entry? (f.has 'L') path with
        | none =>
            report "stat" ("cannot statx '" ++ shown path ++ "': " ++ isMissing)
            return false
        | some e =>
            match f.value? 'c', f.value? 'p' with
            | some layout, _ =>
                say (Line.ended (← statText false path e (layout.length + 1) layout))
            | none, some layout => say (← statText true path e (layout.length + 1) layout)
            | none, none =>
                say (Bytes.charsOfText ("  File: " ++ shown path ++ "\n  Size: " ++
                  toString e.size ++ "\n"))
            return true
      if f.operands.isEmpty then report "stat" "missing operand"
      succeed (!f.operands.isEmpty && results.all (·))

/-- The program that lists files with a name, if there is one. -/
def listingProgram? (name : String) : Option (List (List Char) → Action m Unit) :=
  match name with
  | "ls" => some list
  | "dir" => some fun args => list (['-', 'C'] :: args)
  | "vdir" => some fun args => list (['-', 'l'] :: args)
  | "stat" => some writeStatus
  | _ => none

end PlanOrbits.Shell.Action
