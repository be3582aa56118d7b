import TipJar.Yaml.Token

/-! From a text to its tokens.

Outside brackets the indentation of lines says which collections a token belongs
to. A key is recognised late, by the colon behind it: wherever a key may start,
the place is kept for the rest of the line, and when the colon comes, the tokens
that start a mapping and a key are put in there. While such a place is kept, it
is open what the tokens behind it mean. -/
namespace TipJar.Yaml

/-- A place where a key may have started. Where nothing but a key can stand, it is required. -/
structure KeyStart where
  /-- How many tokens stand in front of it. -/
  count : Nat
  required : Bool
  index : Nat
  line : Nat
  column : Nat

/-- How far a key may reach. -/
def maxKeyLength : Nat := 1024

/-- The tokens so far and where they leave off. -/
structure Layout where
  place : Place
  tokens : List Token
  /-- How many brackets are open; below zero when more were closed. -/
  depth : Int
  /-- The column of the innermost collection laid out by indentation, and of those around it. -/
  indent : Int
  outer : List Int
  mayStartKey : Bool
  /-- The starts of keys, by the depth of brackets. -/
  starts : List (Int × KeyStart)

namespace Layout

/-- At the start of a text, before any token. -/
def ofText (text : List Char) : Layout := ⟨.start text, [], 0, -1, [], true, []⟩

def bracketed (l : Layout) : Bool := l.depth != 0

def add (l : Layout) (t : Token) : Layout := { l with tokens := l.tokens ++ [t] }

/-- The number of characters that say nothing, blanks, comments and line ends, and whether a
line ends among them. -/
def idle (comment : Bool) : List Char → Nat × Bool
  | [] => (0, false)
  | c :: rest =>
    if isBreak c then ((idle false rest).1 + 1, true)
    else if comment || c == ' ' then
      let (count, ended) := idle comment rest
      (count + 1, ended)
    else if c == '#' then
      let (count, ended) := idle true rest
      (count + 1, ended)
    else (0, false)

/-- Goes on to the next token. In a new line outside brackets a key may start. -/
def toToken (l : Layout) : Layout :=
  let place := if l.place.index = 0 && l.place.rest.head? == some '\uFEFF' then l.place.step
    else l.place
  let (count, ended) := idle false place.rest
  { l with place := place.skip count, mayStartKey := l.mayStartKey || (ended && !l.bracketed) }

/-- Whether the start of a key is too far behind. -/
def isStale (l : Layout) (s : KeyStart) : Bool :=
  s.line != l.place.line || s.index + maxKeyLength < l.place.index

/-- Gives up the starts of keys that are too far behind. -/
def dropStale (l : Layout) : Checked Layout := do
  if l.starts.any fun (_, s) => l.isStale s && s.required then unreadable
  return { l with starts := l.starts.filter fun (_, s) => !l.isStale s }

/-- Gives up the start of a key among the brackets that are open. -/
def dropStart (l : Layout) : Checked Layout := do
  if l.starts.any fun (depth, s) => depth == l.depth && s.required then unreadable
  return { l with starts := l.starts.filter fun (depth, _) => depth != l.depth }

/-- Keeps the place as the start of a key, where one may start. -/
def keepStart (l : Layout) : Checked Layout :=
  if l.mayStartKey then do
    let l ← l.dropStart
    let required := !l.bracketed && l.indent == l.place.column
    let start := ⟨l.tokens.length, required, l.place.index, l.place.line, l.place.column⟩
    return { l with starts := (l.depth, start) :: l.starts }
  else return l

/-- The collections that lie deeper than a column end there. -/
def endBlocks (column : Int) (l : Layout) : Layout :=
  if l.bracketed then l
  else
    let ended := (l.indent :: l.outer).takeWhile (column < ·)
    match (l.indent :: l.outer).drop ended.length with
    | indent :: outer =>
      { l with indent, outer, tokens := l.tokens ++ ended.map fun _ => .blockEnd }
    | [] => l

def startsBlock (l : Layout) (column : Nat) : Bool := l.indent < column

def startBlock (l : Layout) (column : Nat) : Layout :=
  if l.startsBlock column then { l with indent := column, outer := l.indent :: l.outer } else l

/-- A mark of so many characters. -/
def mark (l : Layout) (width : Nat) (t : Token) : Layout :=
  { l.add t with place := l.place.skip width }

/-- The end of the text, and what else stands at the left margin by itself. -/
def atMargin (l : Layout) (f : Layout → Checked Layout) : Checked Layout := do
  f { ← (l.endBlocks (-1)).dropStart with mayStartKey := false }

/-- An opening bracket, which may itself start a key. -/
def opening (l : Layout) (t : Token) : Checked Layout := do
  let l ← l.keepStart
  return { l.mark 1 t with depth := l.depth + 1, mayStartKey := true }

def closing (l : Layout) (t : Token) : Checked Layout := do
  let l ← l.dropStart
  return { l.mark 1 t with depth := l.depth - 1, mayStartKey := false }

/-- Takes a comma between brackets. -/
def comma (l : Layout) : Checked Layout := do
  return { (← l.dropStart).mark 1 .comma with mayStartKey := true }

/-- A mark that starts a collection, if none is open at its column. -/
def blockMark (l : Layout) (start t : Token) (mayStartKey : Bool) : Checked Layout := do
  let column := l.place.column
  let l := if l.bracketed || !l.startsBlock column then l else (l.add start).startBlock column
  return { (← l.dropStart).mark 1 t with mayStartKey }

/-- A hyphen in front of an item. -/
def item (l : Layout) : Checked Layout :=
  if !l.bracketed && !l.mayStartKey then unreadable else l.blockMark .sequenceStart .item true

/-- A question mark in front of a key. -/
def key (l : Layout) : Checked Layout :=
  if !l.bracketed && !l.mayStartKey then unreadable
  else l.blockMark .mappingStart .key !l.bracketed

/-- A colon in front of a value. -/
def value (l : Layout) : Checked Layout :=
  match l.starts.find? (·.1 == l.depth) with
  | some (_, s) =>
    let starts := l.starts.filter fun (depth, _) => depth != l.depth
    let block := !l.bracketed && l.startsBlock s.column
    let before := l.tokens.take s.count ++ (if block then [.mappingStart, .key] else [.key])
    let l := { l with tokens := before ++ l.tokens.drop s.count, starts, mayStartKey := false }
    return (if block then l.startBlock s.column else l).mark 1 .value
  | none =>
    if !l.bracketed && !l.mayStartKey then unreadable
    else l.blockMark .mappingStart .value !l.bracketed

/-- A token that may start a key, from the place behind it. -/
def word (l : Layout) (read : Layout → Checked (Token × Place)) : Checked Layout := do
  let l ← l.keepStart
  let (t, place) ← read l
  return { l.add t with place, mayStartKey := false }

/-- A scalar in lines of its own; a key may start behind it. -/
def lines (l : Layout) (folded : Bool) : Checked Layout := do
  let l ← l.dropStart
  let (text, place) ← literal folded l.indent l.place
  return { l.add (.scalar (String.ofList text) false) with place, mayStartKey := true }

/-- A scalar without quotes. Where it takes in the end of a line, a key may start behind it. -/
def plainWord (l : Layout) : Checked Layout := do
  let l ← l.keepStart
  let (text, place, ended) := plain l.bracketed (l.indent + 1) l.place
  return { l.add (.scalar (String.ofList text) true) with place, mayStartKey := ended }

/-- What no plain scalar starts with. -/
def isIndicator (c : Char) : Bool :=
  isGap c || "-?:,[]\x7b\x7d#&*!|>'\"%@".contains c || c.toNat == 96

/-- Whether a plain scalar starts with a character. A hyphen starts one if no gap follows, and so do
outside brackets a question mark and a colon. -/
def startsPlain (l : Layout) (c : Char) (rest : List Char) : Bool :=
  !isIndicator c ||
    (!startsWith isGap rest && (c == '-' || (!l.bracketed && (c == '?' || c == ':'))))

/-- The next token, and whether it is the last. -/
def next (l : Layout) : Checked (Layout × Bool) := do
  let l ← l.toToken.dropStale
  let l := l.endBlocks l.place.column
  let margin := l.place.column == 0
  let (l : Layout) ← match l.place.rest with
    | [] => return (← l.atMargin fun l => return { l.add .textEnd with starts := [] }, true)
    | c :: rest =>
      let loose := l.bracketed || startsWith isGap rest
      if c == '%' && margin then
        l.atMargin fun l => do
          let (d, place) ← directiveAt l.place
          return { l.add (.directive d) with place }
      else if margin && isMarker (c :: rest) then
        l.atMargin fun l => return l.mark 3 (if c == '-' then .documentStart else .documentEnd)
      else match c with
        | '[' => l.opening .openBracket
        | '\x7b' => l.opening .openBrace
        | ']' => l.closing .closeBracket
        | '\x7d' => l.closing .closeBrace
        | ',' => l.comma
        | '*' => l.word fun l => do
          let (name, place) ← anchorName l.place.step
          return (.alias name, place)
        | '&' => l.word fun l => do
          let (name, place) ← anchorName l.place.step
          return (.anchor name, place)
        | '!' => l.word fun l => do
          let (t, place) ← tagAt l.place
          return (.tag t, place)
        | '\'' => l.word fun l => do
          let (text, place) ← quoted false l.place
          return (.scalar (String.ofList text) false, place)
        | '"' => l.word fun l => do
          let (text, place) ← quoted true l.place
          return (.scalar (String.ofList text) false, place)
        | c =>
          if c == '-' && startsWith isGap rest then l.item
          else if c == '?' && loose then l.key
          else if c == ':' && loose then l.value
          else if (c == '|' || c == '>') && !l.bracketed then l.lines (c == '>')
          else if l.startsPlain c rest then l.plainWord
          else unreadable
  return (l, false)

/-- The tokens of which it is certain what they mean. -/
def settled (l : Layout) : List Token :=
  let starts := l.starts.filter fun (_, s) => s.required || !l.isStale s
  l.tokens.take ((starts.map fun (_, s) => s.count).foldl min l.tokens.length)

/-- The remaining tokens, as far as they can be told, and what stands in the way of more. -/
def run : Nat → Layout → List Token × Option Fault
  | 0, l => (l.settled, none)
  | fuel + 1, l =>
    match l.next with
    | .ok (l, true) => (l.tokens, none)
    | .ok (l, false) => run fuel l
    | .error why => (l.settled, some why)

end Layout

/-- The tokens of a text, as far as they can be told, and what stands in the way of more. -/
def tokensOf (text : List Char) : List Token × Option Fault :=
  Layout.run (text.length + 1) (.ofText text)

end TipJar.Yaml
