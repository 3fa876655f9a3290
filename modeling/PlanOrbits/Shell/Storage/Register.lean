import PlanOrbits.Files.Basic

/-!
# What is known of files besides their content

Links, rights and times of the entries of directories. A place is the list of names
that lead to an entry; it begins with a slash if the path begins at the root.
-/

namespace PlanOrbits.Path

/-- The paths of the directories in which a path ends, the nearest first, without
the place where the path begins. -/
def ancestors (path : String) : List String :=
  go (components path).reverse.tail
where
  /-- The paths that end at each of the components, which are given backwards. -/
  go : List String → List String
    | [] => []
    | name :: names => ofComponents (isAbsolute path) (name :: names).reverse :: go names

/-- The bytes of the longest name of a file. -/
def nameLimit : Nat := 255

/-- The bytes of the longest path. -/
def lengthLimit : Nat := 4095

/-- Is the path short enough, as a whole and in each of its parts? -/
def isInLimits (path : String) : Bool :=
  path.utf8ByteSize ≤ lengthLimit && (parts path).all (·.utf8ByteSize ≤ nameLimit)

end PlanOrbits.Path

namespace PlanOrbits

/-- The names that lead to an entry of a directory. -/
abbrev Location := List String

namespace Location

/-- The root. -/
def root : Location := ["/"]

/-- The place of the directory around a place. -/
def up (place : Location) : Location :=
  if place.getLast? == some "/" then place
  else if place.isEmpty || place.getLast? == some ".." then place ++ [".."]
  else place.dropLast

/-- The place behind one more part of a path. -/
def step (place : Location) (part : String) : Location :=
  if part == "" || part == "." then place
  else if part == ".." then place.up
  else place ++ [part]

/-- The place where a path begins. -/
def startOf (path : String) : Location := if Path.isAbsolute path then root else []

/-- The place that a path leads to if no link is on the way. -/
def ofPath (path : String) : Location := (Path.parts path).foldl step (startOf path)

/-- A path to a place. -/
def toPath : Location → String
  | [] => "."
  | name :: names =>
      if name == "/" then "/" ++ "/".intercalate names else "/".intercalate (name :: names)

end Location

/-- What is known of an entry. -/
structure Note where
  /-- The path to which the entry is a link. -/
  link : Option String := none
  /-- The place of the file that the entry is another name of. -/
  twin : Option Location := none
  /-- The rights, where they are not the usual ones. -/
  mode : Option Nat := none
  /-- When it was changed, in milliseconds from the beginning. -/
  time : Option Int := none
  isPipe : Bool := false

/-- What is known of entries. -/
structure Register where
  notes : List (Location × Note)

namespace Register

/-- Nothing is known. -/
def empty : Register := { notes := [] }

variable (r : Register)

/-- What is known of the entry at a place. -/
def note (place : Location) : Note := (r.notes.lookup place).getD {}

/-- Forget the entry at a place. -/
def forget (place : Location) : Register := { notes := r.notes.filter (·.1 != place) }

/-- Change what is known of an entry. -/
def update (place : Location) (change : Note → Note) : Register :=
  { notes := (place, change (r.note place)) :: (r.forget place).notes }

/-- Where the entry at a place is a link to. -/
def link? (place : Location) : Option String := (r.note place).link

/-- How many links are followed on the way to one place. -/
def linkLimit : Nat := 40

/-- The place behind parts of a path, through links; a link at the end is followed if
`followsLast` holds. There is none behind too many links. -/
def follow (followsLast : Bool) (limit : Nat) (place : Location) : List String → Option Location
  | [] => some place
  | part :: parts =>
      let next := place.step part
      match r.link? next with
      | none => follow followsLast limit next parts
      | some target =>
          if parts.isEmpty && !followsLast then some next
          else
            match limit with
            | 0 => none
            | limit + 1 =>
                follow followsLast limit (if Path.isAbsolute target then Location.root else place)
                  (Path.parts target ++ parts)
termination_by parts => (limit, parts.length)

/-- The place of an entry: a link at the end of the path is the entry itself. -/
def entryPlace? (path : String) : Option Location :=
  r.follow false linkLimit (Location.startOf path) (Path.parts path)

/-- The place of the file to which a path leads. -/
def filePlace? (path : String) : Option Location :=
  (r.follow true linkLimit (Location.startOf path) (Path.parts path)).map fun place =>
    (r.note place).twin.getD place

/-- Is there a link on the way from a place? -/
def meetsLink (place : Location) : List String → Bool
  | [] => false
  | part :: parts =>
      (r.link? (place.step part)).isSome || meetsLink (place.step part) parts

/-- A path to the same file that goes through no link. -/
def plainPath? (path : String) : Option String := do
  let place ← r.filePlace? path
  if place = Location.ofPath path && !r.meetsLink (Location.startOf path) (Path.parts path) then
    some path
  else
    let isDirectory := 2 ≤ path.length && path.toList.getLast? == some '/'
    some (place.toPath ++ if isDirectory then "/" else "")

/-- The names of the links and other names in the directory at a place. -/
def namesIn (place : Location) : List String :=
  r.notes.filterMap fun (entry, note) =>
    if (note.link.isSome || note.twin.isSome) && entry.dropLast == place then entry.getLast?
    else none

/-- The other names of the file at a place. -/
def twinsOf (place : Location) : List Location :=
  (r.notes.filter fun (_, note) => note.twin == some place).map Prod.fst

/-- The register after an entry, with all that is in it, went to another place. -/
def move (source target : Location) : Register :=
  let moved := fun (place : Location) =>
    if source.isPrefixOf place then target ++ place.drop source.length else place
  { notes := (r.notes.filter fun (place, _) =>
      !target.isPrefixOf place || source.isPrefixOf place).map fun (place, note) =>
        (moved place, { note with twin := note.twin.map moved }) }

/-- Let the file at a place go by the first of its other names, if it has one. -/
def handOver? (place : Location) : Option (Location × Register) :=
  match r.twinsOf place with
  | [] => none
  | heir :: _ =>
      let note := r.note place
      let rest := (r.forget place).forget heir
      some (heir,
        { notes := (heir, note) :: rest.notes.map fun (other, note) =>
            (other, if note.twin == some place then { note with twin := some heir } else note) })

end Register

end PlanOrbits
