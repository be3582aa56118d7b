/-! Places in a configuration text.

A place is what is left of a text, how far it lies behind the start, in which
line and how deep in that line. Four characters end a line. -/
namespace TipJar.Yaml

/-- Where reading has got to. -/
structure Place where
  rest : List Char
  index : Nat
  line : Nat
  column : Nat

/-- Whether a character ends a line. -/
def isBreak (c : Char) : Bool := c == '\n' || c == '\x85' || c == '\u2028' || c == '\u2029'

/-- Whether a character stands between words. -/
def isGap (c : Char) : Bool := c == ' ' || c == '\t' || isBreak c

/-- The character that the end of a line leaves in a scalar. -/
def breakChar (c : Char) : Char := if c == '\x85' then '\n' else c

/-- Whether a text is over or goes on with a character of a kind. -/
def startsWith (f : Char → Bool) : List Char → Bool
  | [] => true
  | c :: _ => f c

/-- Whether three hyphens or three points stand by themselves at the front. -/
def isMarker : List Char → Bool
  | '-' :: '-' :: '-' :: rest | '.' :: '.' :: '.' :: rest => startsWith isGap rest
  | _ => false

namespace Place

def start (text : List Char) : Place := ⟨text, 0, 0, 0⟩

/-- The place behind the next character; a byte order mark has no width. -/
def step (p : Place) : Place :=
  match p.rest with
  | [] => p
  | c :: rest =>
    if isBreak c then ⟨rest, p.index + 1, p.line + 1, 0⟩
    else ⟨rest, p.index + 1, p.line, if c == '\uFEFF' then p.column else p.column + 1⟩

/-- The place behind some characters. -/
def skip : Nat → Place → Place
  | 0, p => p
  | count + 1, p => skip count p.step

/-- The place behind all next characters of a kind. -/
def skipWhile (f : Char → Bool) (p : Place) : Place := p.skip (p.rest.takeWhile f).length

end Place
end TipJar.Yaml
