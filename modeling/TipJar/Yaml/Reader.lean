import TipJar.Yaml.Node
import TipJar.Yaml.Scalar

/-! Reading configuration texts.

What a document says is a value: tags and the way scalars are written decide on
the kinds, and a mapping may take over the entries of others. -/
namespace TipJar.Yaml

/-- Something that no value stands for. -/
def meaningless {α : Type} : Checked α := .error (.written .constructor)

/-- The kinds that tags ask for. -/
def taggedKinds : List (String × Kind) :=
  [("null", .null), ("bool", .bool), ("int", .int), ("float", .float), ("timestamp", .moment),
   ("str", .text), ("merge", .merge), ("value", .default)].map fun (name, k) =>
    ("tag:yaml.org,2002:" ++ name, k)

/-- The kind of a scalar: by its tag, by the way it is written, or for one in quotes a text. -/
def scalarKind (tag : Option String) (text : String) (plain : Bool) : Kind :=
  match tag with
  | none => if plain then .of text else .text
  | some "!" => .of text
  | some t => (taggedKinds.lookup t).getD .other

/-- Whether a collection has the tag that it would have anyway. -/
def hasTag (name : String) : Option String → Bool
  | none => true
  | some t => t == "!" || t == "tag:yaml.org,2002:" ++ name

/-- Sets an entry: in its place if the key is there, at the end otherwise. -/
def setEntry (entries : List (Scalar × Value)) (key : Scalar) (value : Value) :
    List (Scalar × Value) :=
  if entries.any (·.1 == key) then
    entries.map fun (k, v) => if k == key then (k, value) else (k, v)
  else entries ++ [(key, value)]

/-- The mapping with entries, of which the last counts for a key. -/
def mapOf (entries : List (Scalar × Value)) : Value :=
  .map (entries.foldl (fun done (k, v) => setEntry done k v) [])

/-- Whether a key takes over the entries of other mappings. -/
def Node.isMerge : Node → Bool
  | scalar tag text plain => scalarKind tag text plain == .merge
  | _ => false

/-- The key that a node stands for; collections are none. -/
def Node.keyScalar : Node → Checked Scalar
  | scalar tag text plain =>
    match scalarKind tag text plain with
    | .default => .ok (.text text)
    | k => k.scalar text
  | _ => meaningless

mutual

def Node.value : Node → Checked Value
  | .scalar tag text plain => ((scalarKind tag text plain).scalar text).map .scalar
  | .sequence tag items =>
    if hasTag "seq" tag then (itemValues items).map .list else meaningless
  | .mapping tag entries =>
    if hasTag "map" tag then (entryValues entries).map fun (taken, own) => mapOf (taken ++ own)
    else meaningless

def itemValues : List Node → Checked (List Value)
  | [] => .ok []
  | n :: rest => do
    let v ← n.value
    return v :: (← itemValues rest)

/-- The entries that a mapping takes over, and its own. -/
def entryValues : List (Node × Node) → Checked (List (Scalar × Value) × List (Scalar × Value))
  | [] => .ok ([], [])
  | (k, n) :: rest => do
    if k.isMerge then
      let more ← n.takenOver
      let (taken, own) ← entryValues rest
      return (more ++ taken, own)
    else
      let key ← k.keyScalar
      let v ← n.value
      let (taken, own) ← entryValues rest
      return (taken, (key, v) :: own)

/-- The entries of a mapping, or of a sequence of mappings, for another mapping to take over. Of
several mappings the first counts most and comes last. -/
def Node.takenOver : Node → Checked (List (Scalar × Value))
  | .scalar .. => meaningless
  | .mapping _ entries => (entryValues entries).map fun (taken, own) => taken ++ own
  | .sequence _ items => itemsTakenOver items

/-- The entries that a mapping takes over from several. -/
def itemsTakenOver : List Node → Checked (List (Scalar × Value))
  | [] => .ok []
  | .mapping _ entries :: rest => do
    let (taken, own) ← entryValues entries
    return (← itemsTakenOver rest) ++ taken ++ own
  | _ :: _ => meaningless

end

/-- Whether a character may occur in a text at all. -/
def isAllowed (c : Char) : Bool :=
  let n := c.toNat
  n == 9 || n == 10 || n == 13 || (0x20 ≤ n && n ≤ 0x7e) || n == 0x85 || (0xa0 ≤ n && n ≤ 0xfffd) ||
    0x10000 ≤ n

/-- A text whose lines all end in a newline. -/
def withNewlines : List Char → List Char
  | '\r' :: '\n' :: rest => '\n' :: withNewlines rest
  | '\r' :: rest => '\n' :: withNewlines rest
  | c :: rest => c :: withNewlines rest
  | [] => []

/-- Reads a text. One that says nothing stands for nothing. -/
def read (s : String) : Checked Value := do
  if !s.toList.all isAllowed then throw (.written .reader)
  match ← Node.ofText (withNewlines s.toList) with
  | some n => n.value
  | none => return .null

end TipJar.Yaml
