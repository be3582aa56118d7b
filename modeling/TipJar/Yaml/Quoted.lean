import TipJar.Fault.Basic
import TipJar.Text.Hex
import TipJar.Yaml.Plain

/-! Quoted scalars.

In single quotes only the quote itself is special, and is written twice. In
double quotes a backslash starts an escape. Either may go on over lines, however
deep these are: one line end counts as a blank, of several the first is dropped,
and an escaped one is dropped with the blanks behind it. -/
namespace TipJar.Yaml

/-- A text that does not split into tokens. -/
def unreadable {α : Type} : Checked α := .error (.written .scanner)

/-- The characters that short escapes stand for. -/
def shortEscapes : List (Char × Nat) :=
  [('0', 0), ('a', 7), ('b', 8), ('t', 9), ('\t', 9), ('n', 10), ('v', 11), ('f', 12), ('r', 13),
   ('e', 0x1b), (' ', 0x20), ('"', 0x22), ('\\', 0x5c), ('/', 0x2f), ('N', 0x85), ('_', 0xa0),
   ('L', 0x2028), ('P', 0x2029)]

/-- How many hexadecimal digits follow an escape letter. -/
def escapeWidth? : Char → Option Nat
  | 'x' => some 2
  | 'u' => some 4
  | 'U' => some 8
  | _ => none

/-- The character with a number. Surrogates are no characters of a text here: the escape of one
stands for the character zero. -/
def numbered (n : Nat) : Checked Char :=
  if n < 0x110000 then .ok (Char.ofNat n)
  else if n < 0x80000000 then .error (.invalid .noCharacter)
  else .error (.beyond .word)

/-- The character of an escape, by what follows the backslash, and how long the escape is. -/
def escaped : List Char → Checked (Char × Nat)
  | [] => unreadable
  | letter :: rest =>
    match shortEscapes.find? (·.1 == letter) with
    | some (_, n) => .ok (Char.ofNat n, 1)
    | none =>
      match escapeWidth? letter with
      | none => unreadable
      | some width => do
        let digits := (rest.take width).filterMap Text.hexValue?
        if digits.length < width then unreadable
        let c ← numbered (digits.foldl (fun acc d => acc * 16 + d) 0)
        return (c, width + 1)

/-- What a quoted scalar takes from line ends and the blanks at the start of lines, and how many
characters these are. A marker of the document may not stand there. -/
def lineEnds (lineStart : Bool) : List Char → Checked (List Char × Nat)
  | [] => .ok ([], 0)
  | c :: rest =>
    if lineStart && isMarker (c :: rest) then unreadable
    else if isBreak c then
      (lineEnds true rest).map fun (s, count) => (breakChar c :: s, count + 1)
    else if c == ' ' || c == '\t' then
      (lineEnds false rest).map fun (s, count) => (s, count + 1)
    else .ok ([], 0)

/-- What a quoted scalar takes from blanks, of which there may be none, and the line ends behind
them, and how many characters these are. -/
def quotedGap (s : List Char) : Checked (List Char × Nat) :=
  let blanks := s.takeWhile fun c => c == ' ' || c == '\t'
  match s.drop blanks.length with
  | c :: rest =>
    if isBreak c then
      (lineEnds true rest).map fun (more, count) => (joined c more, blanks.length + count + 1)
    else .ok (blanks, blanks.length)
  | [] => unreadable

/-- Reads up to the closing quote: the text and the place behind the quote. -/
def quotedFrom (double : Bool) : Nat → Place → Checked (List Char × Place)
  | 0, _ => unreadable
  | fuel + 1, p =>
    match p.rest with
    | [] => unreadable
    | c :: rest =>
      if isGap c then do
        let (gap, count) ← quotedGap p.rest
        let (s, after) ← quotedFrom double fuel (p.skip count)
        return (gap ++ s, after)
      else if double && c == '\\' then
        if rest.head?.any isBreak then do
          let (gap, count) ← lineEnds true rest.tail
          let (s, after) ← quotedFrom double fuel (p.skip (count + 2))
          return (gap ++ s, after)
        else do
          let (e, count) ← escaped rest
          let (s, after) ← quotedFrom double fuel (p.skip (count + 1))
          return (e :: s, after)
      else if !double && c == '\'' && rest.head? == some '\'' then do
        let (s, after) ← quotedFrom double fuel (p.skip 2)
        return ('\'' :: s, after)
      else if c == (if double then '"' else '\'') then return ([], p.step)
      else do
        let (s, after) ← quotedFrom double fuel p.step
        return (c :: s, after)

def quoted (double : Bool) (p : Place) : Checked (List Char × Place) :=
  quotedFrom double p.rest.length p.step

end TipJar.Yaml
