import PlanOrbits.Shell.Line

/-!
# Putting items in order

A list that respects pairs of items, of which the first has to come before the second.
Items without predecessors are listed first, in the order of their names, and then
those that lose their last predecessor, as soon as that happens. Where a loop stands in
the way, one of its pairs is dropped.
-/

namespace PlanOrbits.Shell.Precedence

/-- An item, how many items have to come before it, and those that come after it, the
one that was named last in front. -/
structure Item where
  name : List Char
  count : Nat
  followers : List (List Char)
  isListed : Bool

/-- Items in the order of their names. -/
abbrev Items := List Item

namespace Items

variable (items : Items)

/-- Change an item. -/
def change (name : List Char) (f : Item → Item) : Items :=
  items.map fun item => if item.name == name then f item else item

/-- The followers of an item. -/
def followersOf (name : List Char) : List (List Char) :=
  (items.find? (·.name == name)).elim [] (·.followers)

/-- The items that pairs are about. A pair of an item and itself only names it. -/
def ofPairs (pairs : List (List Char × List Char)) : Items :=
  let names := (Line.sorted (pairs.flatMap fun (a, b) => [a, b])).eraseDups
  let start : Items :=
    names.map fun name => { name, count := 0, followers := [], isListed := false }
  pairs.foldl (fun items (a, b) =>
    if a == b then items
    else
      change (change items b fun item => { item with count := item.count + 1 }) a
        fun item => { item with followers := b :: item.followers }) start

/-- Take one predecessor from each of some items; those that have none any more. -/
def release : List (List Char) → Items → Items × List (List Char)
  | [], items => (items, [])
  | name :: names, items =>
      let items := change items name fun item => { item with count := item.count - 1 }
      let isFree := items.any fun item => item.name == name && item.count == 0
      let (items, free) := release names items
      (items, if isFree then name :: free else free)

/-- List the items of a queue, and those that become free by that. -/
def listQueue : Nat → List (List Char) → Items → List (List Char) × Items
  | 0, _, items | _, [], items => ([], items)
  | fuel + 1, name :: queue, items =>
      let followers := followersOf items name
      let items := change items name fun item => { item with isListed := true }
      let (items, free) := release followers items
      let (listed, items) := listQueue fuel (queue ++ free) items
      (name :: listed, items)

/-! ## Loops -/

/-- A way back through pairs: where it stands, and for the items on it the ones that
come after them. -/
structure Trail where
  place : Option (List Char)
  links : List (List Char × List Char)

/-- Go through the items that have predecessors, and extend the trail by each that comes
before its place. The pair that closes a loop, if one is found. -/
def follow (items : Items) : List Item → Trail → Trail ⊕ List Char × List Char
  | [], trail => .inl trail
  | item :: rest, trail =>
      if item.count = 0 ∨ item.isListed then follow items rest trail
      else
        match trail.place with
        | none => follow items rest { trail with place := some item.name }
        | some place =>
            if item.followers.contains place then
              if (trail.links.lookup item.name).isSome then .inr (item.name, place)
              else
                follow items rest
                  { place := some item.name, links := (item.name, place) :: trail.links }
            else follow items rest trail

/-- A pair that is a part of a loop. -/
def findLoop? (items : Items) : Nat → Trail → Option (List Char × List Char)
  | 0, _ => none
  | fuel + 1, trail =>
      match follow items items trail with
      | .inl trail => findLoop? items fuel trail
      | .inr pair => some pair

/-- List items that are not listed yet; also tells whether there was no loop. -/
def listAll : Nat → Items → List (List Char) × Bool
  | 0, _ => ([], true)
  | fuel + 1, items =>
      let free := (items.filter fun item => item.count = 0 ∧ !item.isListed).map (·.name)
      let (listed, items) := listQueue (items.length + 1) free items
      if items.all (·.isListed) then (listed, true)
      else
        match findLoop? items (items.length + 2) { place := none, links := [] } with
        | none => (listed, false)
        | some (a, b) =>
            let items :=
              change items a fun item => { item with followers := item.followers.erase b }
            let items := change items b fun item => { item with count := item.count - 1 }
            (listed ++ (listAll fuel items).1, false)

end Items

/-- Neighbours as pairs; nothing, if one is left over. -/
def pairs? : List (List Char) → Option (List (List Char × List Char))
  | [] => some []
  | [_] => none
  | a :: b :: rest => (pairs? rest).map ((a, b) :: ·)

/-- The items of a text in order, if they are pairs. -/
def run? (text : List Char) : Option Filtered := do
  let words := (Text.pieces (fun c => c == ' ' || c == '\t' || c == '\n') text).filter (!·.isEmpty)
  let pairs ← pairs? words
  let (listed, isGood) := (Items.ofPairs pairs).listAll (pairs.length + 1)
  return (Line.join listed, isGood)

end PlanOrbits.Shell.Precedence
