import PlanOrbits.Yaml.Token

/-!
# Documents as trees

What the tokens of a document say: texts, lists and maps. A map keeps its entries
in order, repeated keys included. What is left out counts as a plain text without
characters.

The readers follow the grammar of the format. Each returns the tokens that it
leaves, and runs on fuel; each nested call uses one unit and every loop consumes
a token, so twice the number of tokens is enough.
-/

namespace PlanOrbits.Yaml

/-- A value in a document. -/
inductive Node where
  | scalar (s : Scalar)
  | list (items : List Node)
  | map (entries : List (Node × Node))
  deriving Inhabited

namespace Node

/-- The value that is left out. -/
def absent : Node := scalar { isPlain := true, text := "" }

/-- Does one of the given tokens come next, or none at all? -/
def isNext (ts : List Token) (stops : List Token) : Bool :=
  ts.head?.all stops.contains

mutual

/-- A value. Where `inBlock` holds, indentation may open a collection; where
`isDashAllowed` holds, the items of a list need not be indented. -/
def read? (inBlock isDashAllowed : Bool) : Nat → List Token → Option (Node × List Token)
  | 0, _ => none
  | fuel + 1, ts =>
      match ts with
      | .scalar s :: ts => some (scalar s, ts)
      | .openFlowList :: ts => do
          let (items, ts) ← readFlowItems? fuel true ts
          return (list items, ts)
      | .openFlowMap :: ts => do
          let (entries, ts) ← readFlowEntries? fuel true ts
          return (map entries, ts)
      | .openList :: ts =>
          if inBlock then do
            let (items, ts) ← readItems? fuel ts
            return (list items, ts)
          else none
      | .openMap :: ts =>
          if inBlock then do
            let (entries, ts) ← readEntries? fuel ts
            return (map entries, ts)
          else none
      | .item :: ts =>
          if isDashAllowed then do
            let (items, ts) ← readDashes? fuel (.item :: ts)
            return (list items, ts)
          else none
      | _ => none

/-- A value, or nothing before one of the given tokens. -/
def readUnless? (stops : List Token) (inBlock isDashAllowed : Bool) :
    Nat → List Token → Option (Node × List Token)
  | 0, _ => none
  | fuel + 1, ts =>
      if isNext ts stops then some (absent, ts) else read? inBlock isDashAllowed fuel ts

/-- The items of an indented list. -/
def readItems? : Nat → List Token → Option (List Node × List Token)
  | 0, _ => none
  | fuel + 1, ts =>
      match ts with
      | .close :: ts => some ([], ts)
      | .item :: ts => do
          let (value, ts) ← readUnless? [.item, .close] true false fuel ts
          let (items, ts) ← readItems? fuel ts
          return (value :: items, ts)
      | _ => none

/-- The items of a list at the column of the map around it. -/
def readDashes? : Nat → List Token → Option (List Node × List Token)
  | 0, _ => none
  | fuel + 1, ts =>
      match ts with
      | .item :: ts => do
          let (value, ts) ← readUnless? [.item, .key, .value, .close] true false fuel ts
          let (items, ts) ← readDashes? fuel ts
          return (value :: items, ts)
      | ts => some ([], ts)

/-- The entries of an indented map. -/
def readEntries? : Nat → List Token → Option (List (Node × Node) × List Token)
  | 0, _ => none
  | fuel + 1, ts =>
      match ts with
      | .close :: ts => some ([], ts)
      | .key :: ts => do
          let (key, ts) ← readUnless? [.key, .value, .close] true true fuel ts
          let (value, ts) ←
            match ts with
            | .value :: ts => readUnless? [.key, .value, .close] true true fuel ts
            | ts => some (absent, ts)
          let (entries, ts) ← readEntries? fuel ts
          return ((key, value) :: entries, ts)
      | _ => none

/-- The items of a list in brackets. An item may be a map of one entry; where the
key of that map is missing, the token that shows it is taken for the key. -/
def readFlowItems? : Nat → Bool → List Token → Option (List Node × List Token)
  | 0, _, _ => none
  | fuel + 1, isFirst, ts => do
      if let .closeFlowList :: ts := ts then return ([], ts)
      let ts ←
        match isFirst, ts with
        | true, ts => some ts
        | false, .separator :: ts => some ts
        | false, _ => none
      match ts with
      | .closeFlowList :: ts => return ([], ts)
      | .key :: ts =>
          let (key, ts) ←
            match ts with
            | .value :: ts | .separator :: ts | .closeFlowList :: ts => some (absent, ts)
            | ts => read? false false fuel ts
          let (value, ts) ←
            match ts with
            | .value :: ts => readUnless? [.separator, .closeFlowList] false false fuel ts
            | ts => some (absent, ts)
          let (items, ts) ← readFlowItems? fuel false ts
          return (map [(key, value)] :: items, ts)
      | ts =>
          let (item, ts) ← read? false false fuel ts
          let (items, ts) ← readFlowItems? fuel false ts
          return (item :: items, ts)

/-- The entries of a map in brackets. -/
def readFlowEntries? : Nat → Bool → List Token → Option (List (Node × Node) × List Token)
  | 0, _, _ => none
  | fuel + 1, isFirst, ts => do
      if let .closeFlowMap :: ts := ts then return ([], ts)
      let ts ←
        match isFirst, ts with
        | true, ts => some ts
        | false, .separator :: ts => some ts
        | false, _ => none
      match ts with
      | .closeFlowMap :: ts => return ([], ts)
      | .key :: ts =>
          let (key, ts) ← readUnless? [.value, .separator, .closeFlowMap] false false fuel ts
          let (value, ts) ←
            match ts with
            | .value :: ts => readUnless? [.separator, .closeFlowMap] false false fuel ts
            | ts => some (absent, ts)
          let (entries, ts) ← readFlowEntries? fuel false ts
          return ((key, value) :: entries, ts)
      | ts =>
          let (key, ts) ← read? false false fuel ts
          let (entries, ts) ← readFlowEntries? fuel false ts
          return ((key, absent) :: entries, ts)

end

/-- The one document in a list of tokens, or `some none` if there is none. -/
def ofTokens? (ts : List Token) : Option (Option Node) := do
  let fuel := 2 * ts.length + 2
  let (node, rest) ←
    match ts with
    | [] => return none
    | .documentStart :: ts =>
        readUnless? [.documentStart, .documentEnd] true false fuel ts
    | ts => read? true false fuel ts
  if rest.all (· == .documentEnd) then return some node else none

/-- The one document in a text, or `some none` if there is none. -/
def ofText? (text : String) : Option (Option Node) :=
  (Token.ofText? text).bind ofTokens?

end Node

end PlanOrbits.Yaml
