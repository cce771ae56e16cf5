import Rehome.Yaml.Token

/-! # Reading YAML

Nodes are read from tokens. A part of a collection may be left out, which shows at the token that stands
in its place; it is read as a missing value. Each step of a reader either takes a token or is followed by
one that does: the number of steps that readers are given covers all. -/

namespace Rehome.Yaml

/-- A reader takes tokens, or fails. -/
abbrev Reader := StateT (List Token) Option

namespace Reader

/-- The next token, which stays. -/
def peek : Reader (Option Token) := return (← get).head?

/-- Takes the next token. -/
def take : Reader Unit := modify List.tail

end Reader

/-! ## Marks of what is left out -/

namespace Token

/-- Does a token stand where an item of a block is left out? -/
def endsItem : Option Token → Bool
  | some .dash | some .blockEnd => true
  | _ => false

/-- Does a token stand where a key or value of a block is left out? -/
def endsPart : Option Token → Bool
  | some .key | some .colon | some .blockEnd => true
  | _ => false

/-- Does a token stand where a key in brackets is left out? -/
def endsFlowKey (closing : Option Token → Bool) (token : Option Token) : Bool :=
  match token with
  | some .colon | some .comma => true
  | _ => closing token

/-- Does a token stand where a value in brackets is left out? -/
def endsFlowValue (closing : Option Token → Bool) (token : Option Token) : Bool :=
  match token with
  | some .comma => true
  | _ => closing token

def closesList : Option Token → Bool
  | some .closeList => true
  | _ => false

def closesMap : Option Token → Bool
  | some .closeMap => true
  | _ => false

end Token

/-! ## Collections in brackets -/

section Flow

variable (node : Reader Node)

/-- A node, unless it is left out. -/
def nodeUnless (isLeftOut : Option Token → Bool) : Reader Node := do
  if isLeftOut (← Reader.peek) then return absentNode else node

/-- The value of a pair in brackets, with its colon; both may be left out. -/
def flowValue (closing : Option Token → Bool) : Reader Node := do
  match ← Reader.peek with
  | some .colon =>
    Reader.take
    nodeUnless node (Token.endsFlowValue closing)
  | _ => return absentNode

/-- A pair that is an item of a list, behind the mark of its key. A token that stands in the place of the
key is taken for it. -/
def flowSinglePair : Reader Node := do
  let key ← (do
    if Token.endsFlowKey Token.closesList (← Reader.peek) then
      Reader.take
      return absentNode
    else node : Reader Node)
  return .map [(key, ← flowValue node Token.closesList)]

def flowItem : Reader Node := do
  match ← Reader.peek with
  | some .key =>
    Reader.take
    flowSinglePair node
  | _ => node

/-- A pair of a map; without the mark of its key it has no value. -/
def flowPair : Reader (Node × Node) := do
  match ← Reader.peek with
  | some .key =>
    Reader.take
    let key ← nodeUnless node (Token.endsFlowKey Token.closesMap)
    return (key, ← flowValue node Token.closesMap)
  | _ => return (← node, absentNode)

/-- Parts with commas between them, up to a closing bracket. -/
def flowParts {α : Type} (part : Reader α) (closing : Option Token → Bool) : Nat → Reader (List α)
  | 0 => failure
  | fuel + 1 => do
    if closing (← Reader.peek) then
      Reader.take
      return []
    let a ← part
    match ← Reader.peek with
    | some .comma =>
      Reader.take
      return a :: (← flowParts part closing fuel)
    | token =>
      guard (closing token)
      Reader.take
      return [a]

end Flow

/-! ## Blocks -/

section Block

variable (node : Reader Node)

/-- The items of a list that is a block. -/
def blockItems : Nat → Reader (List Node)
  | 0 => failure
  | fuel + 1 => do
    match ← Reader.peek with
    | some .dash =>
      Reader.take
      let item ← nodeUnless node Token.endsItem
      return item :: (← blockItems fuel)
    | some .blockEnd =>
      Reader.take
      return []
    | _ => failure

/-- The items of a list whose dashes stand in the column of the keys around it. -/
def flushItems : Nat → Reader (List Node)
  | 0 => failure
  | fuel + 1 => do
    match ← Reader.peek with
    | some .dash =>
      Reader.take
      let item ← nodeUnless node fun token => Token.endsItem token || Token.endsPart token
      return item :: (← flushItems fuel)
    | _ => return []

/-- The value of a pair of a block, with its colon; both may be left out. -/
def blockValue : Reader Node := do
  match ← Reader.peek with
  | some .colon =>
    Reader.take
    nodeUnless node Token.endsPart
  | _ => return absentNode

/-- The pairs of a map that is a block. -/
def blockPairs : Nat → Reader (List (Node × Node))
  | 0 => failure
  | fuel + 1 => do
    match ← Reader.peek with
    | some .key =>
      Reader.take
      let key ← nodeUnless node Token.endsPart
      let value ← blockValue node
      return (key, value) :: (← blockPairs fuel)
    | some .blockEnd =>
      Reader.take
      return []
    | _ => failure

end Block

/-! ## Nodes -/

/-- Where a node stands: in brackets, in a block, or as the key or value of a block. -/
inductive Context where
  | flow
  | block
  | part
deriving DecidableEq, Repr

/-- A node. Blocks stand in blocks only, and lists flush with their keys only as parts of a block. -/
def node : Nat → Context → Reader Node
  | 0, _ => failure
  | fuel + 1, context => do
    match ← Reader.peek, context with
    | some .dash, .part => return .list (← flushItems (node fuel .block) fuel)
    | some (.scalar scalar), _ =>
      Reader.take
      return scalar
    | some .openList, _ =>
      Reader.take
      return .list (← flowParts (flowItem (node fuel .flow)) Token.closesList fuel)
    | some .openMap, _ =>
      Reader.take
      return .map (← flowParts (flowPair (node fuel .flow)) Token.closesMap fuel)
    | some .blockList, .block | some .blockList, .part =>
      Reader.take
      return .list (← blockItems (node fuel .block) fuel)
    | some .blockMap, .block | some .blockMap, .part =>
      Reader.take
      return .map (← blockPairs (node fuel .part) fuel)
    | _, _ => failure

/-! ## Documents -/

/-- Does a token stand where the node of a document is left out? -/
def Token.endsDocument : Option Token → Bool
  | some .documentStart | some .documentEnd | none => true
  | _ => false

/-- The one document of a text, which may be empty. -/
def document (fuel : Nat) : Reader Node := do
  let root ← (do
    match ← Reader.peek with
    | none => return absentNode
    | some .documentStart =>
      Reader.take
      nodeUnless (node fuel .block) Token.endsDocument
    | _ => node fuel .block : Reader Node)
  let rest ← get
  guard (rest.all fun
    | .documentEnd => true
    | _ => false)
  return root

/-- Makes line feeds of the other line breaks of one character or two. -/
def unifyBreaks : List Char → List Char
  | [] => []
  | '\r' :: '\n' :: rest => '\n' :: unifyBreaks rest
  | c :: rest => (if c = '\r' ∨ c = '\u0085' then '\n' else c) :: unifyBreaks rest

/-- May a character stand in a text? -/
def isPrintable (c : Char) : Bool :=
  c == '\t' || c == '\n' || c == '\r' || c == '\u0085' || (' ' ≤ c && c ≤ '~')
    || ('\u00a0' ≤ c && c != '\ufffe' && c != '\uffff')

/-- The node of a YAML text, if it is one document. -/
def parse? (text : String) : Option Node := do
  guard (text.toList.all isPrintable)
  let tokens ← tokens (unifyBreaks text.toList)
  return (← (document (tokens.length + 1)).run tokens).1

end Rehome.Yaml
