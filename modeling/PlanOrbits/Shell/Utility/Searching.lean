import PlanOrbits.Shell.Search
import PlanOrbits.Shell.Subshell
import PlanOrbits.Shell.Utility.Listing

/-!
# Searching

The program that goes through directories and tries an expression on each file. The
entries of a directory are tried in the order of their names.
-/

namespace PlanOrbits.Shell.Action

variable {m : Type → Type} [Monad m] [Storage m]

/-- A file that is tried. -/
structure Candidate where
  path : List Char
  /-- The path where the search began. -/
  start : List Char
  depth : Nat
  entry : Entry

/-- What a search remembers. -/
structure SearchState where
  /-- Is the directory that was tried last left out? -/
  isPruned : Bool
  isOver : Bool
  /-- The files for the programs that are started at the end, by their numbers. -/
  gathered : List (Nat × List Char)
  isGood : Bool

/-- Put a path in the place of each pair of braces in a word. -/
def fillBraces (path : List Char) : List Char → List Char
  | '\x7b' :: '\x7d' :: rest => path ++ fillBraces path rest
  | c :: cs => c :: fillBraces path cs
  | [] => []

/-- Start a program. Tells whether it succeeded. -/
def startFor (i : Interpreter m) (words : List (List Char)) : Action m Bool := do
  match words with
  | [] => return false
  | name :: args =>
      started i id name args
      let isGood ← isGood
      finish 0
      return isGood

/-- A path as it is seen from the directory where it began. -/
def belowStart (c : Candidate) : List Char :=
  (c.path.drop c.start.length).dropWhile (· == '/')

/-- The directory of a file. -/
def aroundFile (path : List Char) : List Char :=
  if path.contains '/' then
    let front := (path.reverse.dropWhile (· != '/')).reverse
    if front.length = 1 then front else front.dropLast
  else ['.']

/-- The text for letters in a layout of the search. -/
def searchPart (c : Candidate) (letter : Char) : Action m (List Char) := do
  let path := c.path
  let t := momentAt (← zone) c.entry.time
  match letter with
  | 'p' => return path
  | 'f' => return baseName path
  | 'h' => return aroundFile path
  | 'P' => return belowStart c
  | 'H' => return c.start
  | 'd' => return Text.decimal c.depth
  | 's' => return Text.decimal c.entry.size
  | 'k' => return Text.decimal (blocksOf c.entry)
  | 'b' => return Text.decimal (2 * blocksOf c.entry)
  | 'm' => return Rights.digits c.entry.rights
  | 'M' => return c.entry.letter :: Rights.letters c.entry.rights
  | 'y' => return [if c.entry.letter == '-' then 'f' else c.entry.letter]
  | 'Y' =>
      let followed ← entry? true path
      return [followed.elim 'N' fun e => if e.letter == '-' then 'f' else e.letter]
  | 'l' =>
      match c.entry.kind with
      | .link target => return target
      | _ => return []
  | 'n' => return Text.decimal (← nameCount path c.entry)
  | 'i' => return Text.decimal (← serialNumber path)
  | 'u' | 'g' => return "root".toList
  | 'U' | 'G' | 'D' => return ['0']
  | 't' | 'a' | 'c' => return t.text "%a %b %e %H:%M:%S.%N0 %Y".toList
  | '%' => return ['%']
  | c => return ['%', c]

/-- A layout of the search with the parts of a file filled in. -/
def searchText (c : Candidate) : Nat → List Char → Action m (List Char)
  | 0, _ | _, [] => return []
  | _, '\\' :: 'c' :: _ => return []
  | fuel + 1, '\\' :: cs => do
      let (text, rest) := readEscape false cs
      return text ++ (← searchText c fuel rest)
  | fuel + 1, '%' :: cs => do
      let flags := cs.takeWhile ['-', '0', '+', ' ', '#'].contains
      let digits := (cs.drop flags.length).takeWhile Text.isDigit
      let width := ((Text.digits? digits).map Text.number).getD 0
      match cs.drop (flags.length + digits.length) with
      | letter :: rest =>
          if letter == 'T' || letter == 'A' || letter == 'C' then
            let t := momentAt (← zone) c.entry.time
            let layout := if rest.head? == some '@' then "%s.%N0".toList else '%' :: rest.take 1
            return t.text layout ++ (← searchText c fuel (rest.drop 1))
          else
            let part ← searchPart c letter
            let padded :=
              if flags.contains '-' then padRight width part
              else Line.padLeft width part
            return padded ++ (← searchText c fuel rest)
      | [] => return ['%']
  | fuel + 1, ch :: cs => return ch :: (← searchText c fuel cs)

/-- The letter for the kind of a file in an expression. -/
def kindLetter (e : Entry) : Char := if e.letter == '-' then 'f' else e.letter

/-- Try an expression on a file. Tells whether it holds. -/
def satisfies (i : Interpreter m) (c : Candidate) :
    Criterion → SearchState → Action m (Bool × SearchState)
  | .constant b, state => return (b, state)
  | .name p, state => return (p.matchesAll (baseName c.path), state)
  | .path p, state => return (p.matchesAll c.path, state)
  | .target p, state =>
      match c.entry.kind with
      | .link target => return (p.matchesAll target, state)
      | _ => return (false, state)
  | .kind letters, state => return (letters.contains (kindLetter c.entry), state)
  | .empty, state => do
      match c.entry.kind with
      | .file => return (c.entry.size == 0, state)
      | .directory => return ((← entries c.path).isEmpty, state)
      | _ => return (false, state)
  | .size unit q, state => return (q.admits ((c.entry.size + unit - 1) / unit), state)
  | .newer path, state => do
      return ((← entry? true path).any fun e => e.time < c.entry.time, state)
  | .newerThan text, state => do
      let now ← now (← zone)
      let limit? := (Time.described? now text).map fun (seconds, nanos) => timeOf seconds nanos
      return (limit?.any (· < c.entry.time), state)
  | .age milliseconds q, state => do
      let passed := ((← get).clock : Int) - c.entry.time
      return (q.admits (passed.toNat / milliseconds), state)
  | .rights test bits, state =>
      let held := c.entry.rights &&& bits
      return (match test with
        | .exact => c.entry.rights == bits
        | .all => held == bits
        | .any => bits == 0 || held != 0, state)
  | .names q, state => return (q.admits (← nameCount c.path c.entry), state)
  | .executable, state => return (c.entry.isExecutable, state)
  | .sameFile path, state => do
      return ((← filePlace? path) == (← filePlace? c.path), state)
  | .print mark, state => do
      say (c.path ++ [mark])
      return (true, state)
  | .layout text, state => do
      say (← searchText c (text.length + 1) text)
      return (true, state)
  | .call isInside asks words, state => do
      let name := String.ofList (words.headD [])
      if asks && !(← asksLeave ("< " ++ name ++ " ... " ++ shown c.path ++ " > ? ")) then
        return (false, state)
      else if isInside then
        let before := (← get).directory
        let around := aroundFile c.path
        modify fun s =>
          { s with directory :=
              if around.head? == some '/' then around
              else inDirectory s.directory around }
        let name := ['.', '/'] ++ baseName c.path
        let isGood ← startFor i (words.map (fillBraces name))
        modify fun s => { s with directory := before }
        return (isGood, state)
      else return (← startFor i (words.map (fillBraces c.path)), state)
  | .gather id _, state =>
      return (true, { state with gathered := state.gathered ++ [(id, c.path)] })
  | .delete, state => do
      if c.path == ['.'] then return (true, state)
      let isDeleted ← removeEntry c.path
      if !isDeleted then complainAbout "find" "cannot delete" c.path "Directory not empty"
      return (isDeleted, { state with isGood := state.isGood && isDeleted })
  | .prune, state => return (true, { state with isPruned := true })
  | .quit, state => return (true, { state with isOver := true })
  | .negation a, state => do
      let (holds, state) ← satisfies i c a state
      return (!holds, state)
  | .conjunction a b, state => do
      let (holds, state) ← satisfies i c a state
      if holds && !state.isOver then satisfies i c b state else return (holds, state)
  | .disjunction a b, state => do
      let (holds, state) ← satisfies i c a state
      if holds || state.isOver then return (holds, state) else satisfies i c b state
  | .sequence a b, state => do
      let (_, state) ← satisfies i c a state
      if state.isOver then return (false, state) else satisfies i c b state

/-- Try the expression of a search on a file, and on all that is in it. -/
def searchAt (i : Interpreter m) (search : Search) (start : List Char) :
    Nat → (depth : Nat) → (path : List Char) → SearchState → Action m SearchState
  | 0, _, _, state => return state
  | fuel + 1, depth, path, state => do
      if state.isOver then return state
      let follows := search.followsLinks || search.followsFirst && depth == 0
      let target? ← if follows then entry? true path else pure none
      let own? ← entry? false path
      match target?.or own? with
      | none =>
          report "find" ("'" ++ shown path ++ "': " ++ isMissing)
          return { state with isGood := false }
      | some entry =>
          let attemptAt := fun (state : SearchState) => do
            if depth < search.shallowest then return state
            else
              let (_, state) ← satisfies i { path, start, depth, entry } search.criterion state
              return state
          let inner := fun (state : SearchState) => do
            if entry.kind != .directory || search.deepest.any (· ≤ depth) || state.isOver then
              return state
            else
              (← entries path).foldlM (fun state name =>
                searchAt i search start fuel (depth + 1) (inDirectory path name) state) state
          if search.isInnerFirst then
            let state ← inner state
            if state.isOver then return state else attemptAt state
          else
            let state ← attemptAt { state with isPruned := false }
            if state.isPruned then return { state with isPruned := false } else inner state

/-- Go through directories. -/
def find (i : Interpreter m) (args : List (List Char)) : Action m Unit := do
  match Search.ofArgs args with
  | .error message =>
      report "find" message
      finish 1
  | .ok search =>
      let state : SearchState :=
        { isPruned := false, isOver := false, gathered := [], isGood := true }
      let state ← search.paths.foldlM (fun state path =>
        searchAt i search path treeDepth 0 path state) state
      let results ← search.criterion.gathered.mapM fun (id, words) => do
        let paths := (state.gathered.filter (·.1 == id)).map Prod.snd
        if paths.isEmpty then return true else startFor i (words ++ paths)
      succeed (state.isGood && results.all (·))

end PlanOrbits.Shell.Action
