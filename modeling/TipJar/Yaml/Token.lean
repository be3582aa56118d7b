import TipJar.Yaml.Literal

/-! The tokens of a configuration text.

Besides scalars and marks a text has tags, which name the kind of a value, and
anchors, which name the value itself; a directive at the start of a line speaks
about the document. -/
namespace TipJar.Yaml

/-- What a line says about the document that follows. -/
inductive Directive
  | version (major : Nat)
  /-- A short form for the beginning of tags. -/
  | handle (name start : String)
  | other

/-- A tag as it is written: a short form, if it starts with one, and the rest. -/
structure Tag where
  handle : Option String
  suffix : String

inductive Token
  | directive (d : Directive)
  | documentStart
  | documentEnd
  | textEnd
  /-- The first line of a sequence or mapping laid out by indentation, and the end of one. -/
  | sequenceStart
  | mappingStart
  | blockEnd
  | openBracket
  | closeBracket
  | openBrace
  | closeBrace
  | item
  | key
  | value
  | comma
  | alias (name : String)
  | anchor (name : String)
  | tag (t : Tag)
  | scalar (text : String) (plain : Bool)

/-- Whether a character may occur in a name. -/
def isNameChar (c : Char) : Bool := c.isAlphanum || c == '-' || c == '_'

def anchorName (p : Place) : Checked (String × Place) :=
  let name := p.rest.takeWhile isNameChar
  let after := p.skip name.length
  let ended := startsWith (fun c => isGap c || "?:,]\x7d%@".contains c || c.toNat == 96) after.rest
  if name.isEmpty || !ended then unreadable else .ok (String.ofList name, after)

/-- Whether a character may occur in a tag. -/
def isTagChar (c : Char) : Bool := c.isAlphanum || "-;/?:@&=+$,_.!~*'()[]".contains c

/-- A byte written as a percent sign and two digits, and the rest. -/
def percentByte : List Char → Checked (Nat × List Char)
  | high :: low :: rest =>
    match Text.hexValue? high, Text.hexValue? low with
    | some h, some l => .ok (h * 16 + l, rest)
    | _, _ => unreadable
  | _ => unreadable

/-- The bytes of a tag: its characters, and what percent signs stand for. -/
def tagBytes : Nat → List Char → Checked (List Nat × List Char)
  | 0, _ => unreadable
  | _ + 1, [] => .ok ([], [])
  | fuel + 1, c :: rest =>
    if c == '%' then do
      let (byte, rest) ← percentByte rest
      let (more, after) ← tagBytes fuel rest
      return (byte :: more, after)
    else if isTagChar c then do
      let (more, after) ← tagBytes fuel rest
      return (c.toNat :: more, after)
    else .ok ([], c :: rest)

/-- The text of a tag, which is not empty, and the place behind it. -/
def tagText (p : Place) : Checked (String × Place) := do
  let (bytes, rest) ← tagBytes (p.rest.length + 1) p.rest
  if bytes.isEmpty then unreadable
  match String.fromUTF8? (ByteArray.mk (bytes.map (·.toUInt8)).toArray) with
  | some text => return (text, p.skip (p.rest.length - rest.length))
  | none => unreadable

/-- The short form at the start of a tag: a name between exclamation marks, or one such mark. -/
def tagHandle (p : Place) : Checked (String × Place) :=
  match p.rest with
  | '!' :: rest =>
    let name := rest.takeWhile isNameChar
    match rest.drop name.length with
    | '!' :: _ => .ok (String.ofList ('!' :: name ++ ['!']), p.skip (name.length + 2))
    | ' ' :: _ => if name.isEmpty then .ok ("!", p.step) else unreadable
    | _ => unreadable
  | _ => unreadable

/-- Whether a line of a text goes on with a blank or ends. -/
def endsWord (s : List Char) : Bool := startsWith (fun c => c == ' ' || isBreak c) s

def tagAt (p : Place) : Checked (Tag × Place) := do
  let rest := p.rest.tail
  let (t, after) ←
    if rest.head? == some '<' then do
      let (suffix, after) ← tagText (p.skip 2)
      if after.rest.head? != some '>' then unreadable
      pure (Tag.mk none suffix, after.step)
    else if startsWith isGap rest then pure (Tag.mk none "!", p.step)
    else if (rest.takeWhile fun c => !(c == ' ' || isBreak c)).contains '!' then do
      let (handle, after) ← tagHandle p
      let (suffix, after) ← tagText after
      pure (Tag.mk (some handle) suffix, after)
    else do
      let (suffix, after) ← tagText p.step
      pure (Tag.mk (some "!") suffix, after)
  if endsWord after.rest then return (t, after) else unreadable

/-- A whole number and the place behind it. -/
def numberAt (p : Place) : Checked (Nat × Place) :=
  let digits := p.rest.takeWhile Char.isDigit
  if digits.isEmpty then unreadable
  else .ok (Text.valueOf (digits.map (·.toNat - 48)), p.skip digits.length)

def directiveAt (p : Place) : Checked (Directive × Place) := do
  let p := p.step
  let name := p.rest.takeWhile isNameChar
  let p := p.skip name.length
  if name.isEmpty || !endsWord p.rest then unreadable
  let p := p.skipWhile (· == ' ')
  let (d, p) ←
    if name == "YAML".toList then do
      let (major, p) ← numberAt p
      if p.rest.head? != some '.' then unreadable
      let (_, p) ← numberAt p.step
      if !endsWord p.rest then unreadable
      pure (Directive.version major, p)
    else if name == "TAG".toList then do
      let (handle, p) ← tagHandle p
      if p.rest.head? != some ' ' then unreadable
      let (start, p) ← tagText (p.skipWhile (· == ' '))
      if !endsWord p.rest then unreadable
      pure (Directive.handle handle start, p)
    else pure (Directive.other, p.skipWhile fun c => !isBreak c)
  return (d, ← endOfLine p)

end TipJar.Yaml
