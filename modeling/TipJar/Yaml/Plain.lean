import TipJar.Yaml.Place

/-! Scalars without quotes.

A plain scalar is a run of words. It ends before a comment, before a colon that
ends a key, and inside brackets before a mark of the brackets. It goes on over
deeper lines, unless a marker of the document stands there; one line end counts
as a blank, of several the first is dropped. -/
namespace TipJar.Yaml

/-- What has a meaning of its own inside brackets. -/
def isBracketMark (c : Char) : Bool :=
  c == ',' || c == '[' || c == ']' || c == '\x7b' || c == '\x7d'

/-- Whether a colon is followed by what makes it end a key. -/
def endsKey (bracketed : Bool) (rest : List Char) : Bool :=
  startsWith (fun c => isGap c || (bracketed && isBracketMark c)) rest

/-- The word at the front. -/
def word (bracketed : Bool) : List Char → List Char
  | [] => []
  | c :: rest =>
    if isGap c || (c == ':' && endsKey bracketed rest) ||
      (bracketed && (isBracketMark c || c == '?')) then []
    else c :: word bracketed rest

/-- What a scalar takes from further line ends and blanks, and how many characters these are;
nothing when a marker follows. -/
def moreBreaks : List Char → Option (List Char × Nat)
  | [] => some ([], 0)
  | c :: rest =>
    if c == ' ' then (moreBreaks rest).map fun (s, count) => (s, count + 1)
    else if isBreak c then
      if isMarker rest then none
      else (moreBreaks rest).map fun (s, count) => (breakChar c :: s, count + 1)
    else some ([], 0)

/-- What lies between two words: what the scalar takes from it, the place behind it, and whether a
line ended. -/
structure Between where
  joint : List Char
  place : Place
  lineEnded : Bool

/-- What joins the text of line ends, the first of which is given. -/
def joined (first : Char) (more : List Char) : List Char :=
  if breakChar first != '\n' then first :: more else if more.isEmpty then [' '] else more

/-- Passes from one word towards the next. Nothing joins them at a marker. -/
def between (p : Place) : Between :=
  let blanks := p.rest.takeWhile (· == ' ')
  let p := p.skip blanks.length
  match p.rest with
  | c :: rest =>
    if isBreak c then
      match if isMarker rest then none else moreBreaks rest with
      | some (more, count) => ⟨joined c more, p.skip (count + 1), true⟩
      | none => ⟨[], p.step, true⟩
    else ⟨blanks, p, false⟩
  | [] => ⟨blanks, p, false⟩

/-- The words from a place on, the place behind them and what follows them, and whether a line ended
behind the last. Lines that go on are at least as deep as `indent`. -/
def plainFrom (bracketed : Bool) (indent : Int) : Nat → Place → List Char × Place × Bool
  | 0, p => ([], p, false)
  | fuel + 1, p =>
    let w := word bracketed p.rest
    let next := between (p.skip w.length)
    let ends := next.joint.isEmpty || next.place.rest.head? == some '#' ||
      (!bracketed && (next.place.column : Int) < indent) ||
      (word bracketed next.place.rest).isEmpty
    if ends then (w, next.place, next.lineEnded)
    else
      let (s, after, lineEnded) := plainFrom bracketed indent fuel next.place
      (w ++ next.joint ++ s, after, lineEnded)

def plain (bracketed : Bool) (indent : Int) (p : Place) : List Char × Place × Bool :=
  plainFrom bracketed indent (p.rest.length + 1) p

end TipJar.Yaml
