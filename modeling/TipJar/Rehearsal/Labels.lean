import TipJar.Uuid
import TipJar.Value.Basic

/-! Labels for identifiers.

Identifiers are shown as labels such as `event-1`, numbered by their kind in the
order in which they first appear in results. A label that is used before anything
bears it stands for an identifier that no row has. In texts every identifier with a
label is replaced by it, and every other by `<id>`. -/
namespace TipJar.Rehearsal

/-- What a labelled identifier names. -/
inductive LabelKind
  | event
  | drop
deriving DecidableEq

/-- The word that a label starts with. -/
def LabelKind.word : LabelKind → String
  | event => "event"
  | drop => "reactdrop"

/-- The labels given so far. -/
structure Labels where
  /-- Identifiers that have appeared. -/
  seen : List (Uuid × String)
  /-- Identifiers made up for labels that nothing bears. -/
  strange : List (Uuid × String)
  events : Nat
  drops : Nat

namespace Labels

def empty : Labels := ⟨[], [], 0, 0⟩

def count (l : Labels) : LabelKind → Nat
  | .event => l.events
  | .drop => l.drops

/-- Labels with one more of a kind. -/
def add (l : Labels) (kind : LabelKind) (id : Uuid) : Labels :=
  let label := kind.word ++ "-" ++ toString (l.count kind + 1)
  match kind with
  | .event => { l with seen := (id, label) :: l.seen, events := l.events + 1 }
  | .drop => { l with seen := (id, label) :: l.seen, drops := l.drops + 1 }

/-- The label of an identifier, if it has one. -/
def labelOf? (l : Labels) (id : Uuid) : Option String :=
  ((l.seen ++ l.strange).find? (·.1 == id)).map (·.2)

/-- The label of an identifier, which is given one if it has none. -/
def label (kind : LabelKind) (id : Uuid) : StateM Labels String := do
  let l ← get
  match l.labelOf? id with
  | some label => return label
  | none =>
    let l := l.add kind id
    set l
    return (l.labelOf? id).getD ""

/-- The first of the identifiers that are made up. -/
def firstStrange : Nat := 0x80000000000000000000000000000000

/-- The identifier that a label stands for. -/
def idOf (label : String) : StateM Labels Uuid := do
  let l ← get
  match (l.seen ++ l.strange).find? (·.2 == label) with
  | some (id, _) => return id
  | none =>
    let id := Uuid.ofNat (firstStrange + l.strange.length)
    set { l with strange := (id, label) :: l.strange }
    return id

/-! ### Identifiers in texts -/

/-- The characters in the text of an identifier. -/
def idLength : Nat := 36

/-- The characters before the first hyphen of an identifier. -/
def firstGroup : Nat := 8

/-- The identifier that a text begins with. -/
def leadingId? (s : List Char) : Option Uuid :=
  if s[firstGroup]? != some '-' then none
  else
    let written := String.ofList (s.take idLength)
    match Uuid.parse written with
    | .ok id => if id.text == written then some id else none
    | .error _ => none

/-- Replaces identifiers; `skip` characters belong to one that is replaced already. -/
def replaceFrom (l : Labels) : Nat → List Char → List Char
  | _, [] => []
  | skip + 1, _ :: rest => l.replaceFrom skip rest
  | 0, c :: rest =>
    match leadingId? (c :: rest) with
    | some id =>
      ((l.labelOf? id).getD "<id>").toList ++ l.replaceFrom (idLength - 1) rest
    | none => c :: l.replaceFrom 0 rest

/-- A text with labels in the place of identifiers. -/
def inText (l : Labels) (s : String) : String := String.ofList (l.replaceFrom 0 s.toList)

/-- A scalar with labels in the place of identifiers. -/
def inScalar (l : Labels) : Scalar → Scalar
  | .text s => .text (l.inText s)
  | .uuid u => .text (l.inText u.text)
  | s => s

mutual

/-- A value with labels in the place of identifiers. -/
def inValue (l : Labels) : Value → Value
  | .scalar s => .scalar (l.inScalar s)
  | .list items => .list (l.inItems items)
  | .tuple items => .tuple (l.inItems items)
  | .map entries => .map (l.inEntries entries)

/-- Labels in the elements of a list. -/
def inItems (l : Labels) : List Value → List Value
  | [] => []
  | item :: items => l.inValue item :: l.inItems items

/-- Labels in the entries of a record. -/
def inEntries (l : Labels) : List (Scalar × Value) → List (Scalar × Value)
  | [] => []
  | (key, value) :: entries => (key, l.inValue value) :: l.inEntries entries

end

end Labels
end TipJar.Rehearsal
