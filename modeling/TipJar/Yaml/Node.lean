import TipJar.Yaml.Layout

/-! From tokens to a document.

A document is a scalar, a sequence or a mapping. Nodes may have a tag, and an
anchor by which a later alias stands for them. Tokens are used up one by one, so
what cannot be told about the text is met only where it is needed. -/
namespace TipJar.Yaml

/-- What a document is made of. Tags are written out in full. -/
inductive Node
  | scalar (tag : Option String) (text : String) (plain : Bool)
  | sequence (tag : Option String) (items : List Node)
  | mapping (tag : Option String) (entries : List (Node × Node))

/-- A node that is not written. -/
def Node.absent : Node := .scalar none "" true

/-- The short forms that need no directive. -/
def plainHandles : List (String × String) := [("!", "!"), ("!!", "tag:yaml.org,2002:")]

/-- The tokens that are left, what stands in the way of more, and what names stand for. -/
structure Reading where
  tokens : List Token
  stop : Option Fault
  /-- Nodes by their anchors; of one that has only begun there is nothing yet. -/
  anchors : List (String × Option Node)
  handles : List (String × String)

/-- Reading tokens, which can fail. -/
abbrev Read := StateT Reading Checked

namespace Read

/-- Tokens in an order that makes no document. -/
def misplaced {α : Type} : Read α := throw (.written .parser)

def peek : Read Token := do
  let r ← get
  match r.tokens with
  | t :: _ => return t
  | [] => throw (r.stop.getD (.written .scanner))

/-- Goes on behind the next token. -/
def advance : Read Unit := modify fun r => { r with tokens := r.tokens.tail }

def written (t : Tag) : Read String := do
  match t.handle with
  | none => return t.suffix
  | some handle =>
    match (← get).handles.lookup handle with
    | some start => return start ++ t.suffix
    | none => misplaced

/-- An anchor, a tag, both in either order, or neither. -/
def properties : Read (Option String × Option String) := do
  match ← peek with
  | .anchor name =>
    advance
    match ← peek with
    | .tag t =>
      advance
      return (some name, some (← written t))
    | _ => return (some name, none)
  | .tag t =>
    advance
    match ← peek with
    | .anchor name =>
      advance
      return (some name, some (← written t))
    | _ => return (none, some (← written t))
  | _ => return (none, none)

/-- Begins a node, whose anchor must be new. -/
def start (anchor : Option String) : Read Unit := do
  match anchor with
  | none => return
  | some name =>
    if ((← get).anchors.lookup name).isSome then throw (.written .composer)
    modify fun r => { r with anchors := (name, none) :: r.anchors }

/-- Ends a node. -/
def finish (anchor : Option String) (n : Node) : Read Node := do
  match anchor with
  | none => return n
  | some name =>
    modify fun r => { r with anchors := (name, some n) :: r.anchors }
    return n

/-- The node that an alias stands for, which must be complete. -/
def named (name : String) : Read Node := do
  match (← get).anchors.lookup name with
  | some (some n) => return n
  | _ => throw (.written .composer)

/-- Whether a token ends a node of a block that is not written. -/
def endsEntry : Token → Bool
  | .key | .value | .blockEnd => true
  | _ => false

/-- Whether a token ends a document in which nothing is written. -/
def endsDocument : Token → Bool
  | .directive _ | .documentStart | .documentEnd | .textEnd => true
  | _ => false

/-- Whether a collection laid out by indentation ends. -/
def isBlockEnd : Token → Bool
  | .blockEnd => true
  | _ => false

def isItem : Token → Bool
  | .item => true
  | _ => false

/-- Whether an entry between brackets ends. -/
def isComma : Token → Bool
  | .comma => true
  | _ => false

/-- Whether a value follows. -/
def isValue : Token → Bool
  | .value => true
  | _ => false

/-- Whether a sequence between brackets ends. -/
def isCloseBracket : Token → Bool
  | .closeBracket => true
  | _ => false

/-- Whether a mapping between brackets ends. -/
def isCloseBrace : Token → Bool
  | .closeBrace => true
  | _ => false

/-- A node, unless a token shows that it is not written. -/
def orAbsent (absent : Token → Bool) (node : Read Node) : Read Node := do
  if absent (← peek) then return .absent else node

/-- The node behind a colon; without a colon it is not written. -/
def valueOrAbsent (absent : Token → Bool) (node : Read Node) : Read Node := do
  match ← peek with
  | .value =>
    advance
    orAbsent absent node
  | _ => return .absent

mutual

/-- A node. Outside brackets it may be laid out by indentation, and as a part of an entry it may
be a sequence at the column of its key. -/
def node (block entry : Bool) : Nat → Read Node
  | 0 => misplaced
  | fuel + 1 => do
    match ← peek with
    | .alias name =>
      advance
      named name
    | _ =>
      let (anchor, tag) ← properties
      let collection (read : Read Node) : Read Node := do
        start anchor
        finish anchor (← read)
      match ← peek, block with
      | .scalar text plain, _ =>
        advance
        collection (return .scalar tag text plain)
      | .openBracket, _ =>
        advance
        collection (return .sequence tag (← bracketItems true fuel))
      | .openBrace, _ =>
        advance
        collection (return .mapping tag (← braceEntries true fuel))
      | .sequenceStart, true =>
        advance
        collection (return .sequence tag (← blockItems fuel))
      | .mappingStart, true =>
        advance
        collection (return .mapping tag (← blockEntries fuel))
      | t, _ =>
        if entry && isItem t then collection (return .sequence tag (← entryItems fuel))
        else if anchor.isSome || tag.isSome then collection (return .scalar tag "" true)
        else misplaced

/-- The items of a sequence laid out by indentation. -/
def blockItems : Nat → Read (List Node)
  | 0 => misplaced
  | fuel + 1 => do
    match ← peek with
    | .item =>
      advance
      let n ← orAbsent (fun t => isItem t || isBlockEnd t) (node true false fuel)
      return n :: (← blockItems fuel)
    | .blockEnd =>
      advance
      return []
    | _ => misplaced

/-- The items of a sequence at the column of its key. -/
def entryItems : Nat → Read (List Node)
  | 0 => misplaced
  | fuel + 1 => do
    match ← peek with
    | .item =>
      advance
      let n ← orAbsent (fun t => isItem t || endsEntry t) (node true false fuel)
      return n :: (← entryItems fuel)
    | _ => return []

/-- The entries of a mapping laid out by indentation. -/
def blockEntries : Nat → Read (List (Node × Node))
  | 0 => misplaced
  | fuel + 1 => do
    match ← peek with
    | .key =>
      advance
      let k ← orAbsent endsEntry (node true true fuel)
      let v ← valueOrAbsent endsEntry (node true true fuel)
      return (k, v) :: (← blockEntries fuel)
    | .blockEnd =>
      advance
      return []
    | _ => misplaced

/-- The items of a sequence in brackets. A key makes an item a mapping with one entry. -/
def bracketItems (first : Bool) : Nat → Read (List Node)
  | 0 => misplaced
  | fuel + 1 => do
    if isCloseBracket (← peek) then
      advance
      return []
    if !first then
      if isComma (← peek) then advance else misplaced
    match ← peek with
    | .closeBracket =>
      advance
      return []
    | .key =>
      advance
      let absent := fun t => isComma t || isCloseBracket t
      let k ← orAbsent (fun t => isValue t || absent t) (node false false fuel)
      let v ← valueOrAbsent absent (node false false fuel)
      return .mapping none [(k, v)] :: (← bracketItems false fuel)
    | _ =>
      let n ← node false false fuel
      return n :: (← bracketItems false fuel)

def braceEntries (first : Bool) : Nat → Read (List (Node × Node))
  | 0 => misplaced
  | fuel + 1 => do
    if isCloseBrace (← peek) then
      advance
      return []
    if !first then
      if isComma (← peek) then advance else misplaced
    match ← peek with
    | .closeBrace =>
      advance
      return []
    | .key =>
      advance
      let absent := fun t => isComma t || isCloseBrace t
      let k ← orAbsent (fun t => isValue t || absent t) (node false false fuel)
      let v ← valueOrAbsent absent (node false false fuel)
      return (k, v) :: (← braceEntries false fuel)
    | _ =>
      let k ← node false false fuel
      return (k, .absent) :: (← braceEntries false fuel)

end

/-- The markers of ended documents, which say nothing more. -/
def skipEnds : Nat → Read Unit
  | 0 => return
  | fuel + 1 => do
    match ← peek with
    | .documentEnd =>
      advance
      skipEnds fuel
    | _ => return

/-- The directives in front of a document, of which one may give the version and each short form is
given once. -/
def directives (version : Bool) : Nat → Read Unit
  | 0 => return
  | fuel + 1 => do
    match ← peek with
    | .directive (.version major) =>
      if version || major != 1 then misplaced
      advance
      directives true fuel
    | .directive (.handle name start) =>
      if ((← get).handles.lookup name).isSome then misplaced
      modify fun r => { r with handles := (name, start) :: r.handles }
      advance
      directives version fuel
    | .directive .other =>
      advance
      directives version fuel
    | _ => return

/-- The start of a document that its marker shows; whether there is one. -/
def opening (fuel : Nat) : Read Bool := do
  skipEnds fuel
  match ← peek with
  | .textEnd => return false
  | _ =>
    modify fun r => { r with handles := [] }
    directives false fuel
    match ← peek with
    | .documentStart =>
      advance
      modify fun r => { r with handles := r.handles ++ plainHandles }
      return true
    | _ => misplaced

/-- The only document of a text. -/
def document (fuel : Nat) : Read (Option Node) := do
  let content : Read Node := node true false fuel
  let n ← match ← peek with
    | .directive _ | .documentStart | .textEnd =>
      if ← opening fuel then
        some <$> orAbsent endsDocument content
      else pure none
    | _ => some <$> content
  if n.isSome then
    if ← opening fuel then throw (.written .composer)
  return n

end Read

/-- The document of a text; none when the text says nothing. -/
def Node.ofText (text : List Char) : Checked (Option Node) := do
  let (tokens, stop) := tokensOf text
  let fuel := 3 * tokens.length + 3
  let (n, _) ← (Read.document fuel).run ⟨tokens, stop, [], plainHandles⟩
  return n

end TipJar.Yaml
