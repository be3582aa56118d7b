import TipJar.Binary64.Parser
import TipJar.Fault.Basic
import TipJar.Text.Hex
import TipJar.Text.Whole
import TipJar.Time.Written
import TipJar.Value.Shown

/-! The kinds of scalars.

A scalar without quotes is nothing, a truth value, a number or a date if it is
written like one, and a text otherwise. Numbers may have underscores between
digits; a leading zero makes a number octal, and groups parted by colons count to
the base of sixty. Whether a text is written like a date is one question, and
whether there is such a date another. -/
namespace TipJar.Yaml

/-- What a scalar can stand for. -/
inductive Kind
  | null
  | bool
  | int
  | float
  | moment
  | text
  /-- A key that takes over the entries of other mappings. -/
  | merge
  /-- A key for a default value. -/
  | default
  /-- A kind that is not given out. -/
  | other
deriving DecidableEq

/-- What nothing is written as. -/
def nullWords : List String := ["", "~", "null", "Null", "NULL"]

/-- What true is written as. -/
def trueWords : List String := ["yes", "Yes", "YES", "true", "True", "TRUE", "on", "On", "ON"]

/-- What false is written as. -/
def falseWords : List String := ["no", "No", "NO", "false", "False", "FALSE", "off", "Off", "OFF"]

/-- Whether a text is not empty and all its characters pass a test. -/
def allOf (p : Char → Bool) (s : List Char) : Bool := !s.isEmpty && s.all p

/-- Whether a character is a digit or the mark between digits. -/
def isDigitOrMark (c : Char) : Bool := c.isDigit || c == '_'

/-- Takes a sign: whether it is a minus, and the rest. -/
def takeSign : List Char → Bool × List Char
  | '-' :: rest => (true, rest)
  | '+' :: rest => (false, rest)
  | rest => (false, rest)

/-- The parts of a text between occurrences of a character. -/
def splitAt (sep : Char) : List Char → List (List Char)
  | [] => [[]]
  | c :: rest =>
    if c == sep then [] :: splitAt sep rest
    else match splitAt sep rest with
      | [] => [[c]]
      | part :: parts => (c :: part) :: parts

/-- Whether a text starts with a digit and has digits and underscores only. -/
def isDigits (s : List Char) : Bool := s.head?.any Char.isDigit && s.all isDigitOrMark

/-- Whether a text is a group of a number to the base of sixty. -/
def isSixtieth : List Char → Bool
  | [c] => c.isDigit
  | [c, d] => '0' ≤ c && c ≤ '5' && d.isDigit
  | _ => false

/-- Whether a text is written like a whole number. -/
def isWhole (s : List Char) : Bool :=
  match (takeSign s).2 with
  | '0' :: 'b' :: rest => allOf (fun c => c == '0' || c == '1' || c == '_') rest
  | '0' :: 'x' :: rest => allOf (fun c => (Text.hexValue? c).isSome || c == '_') rest
  | '0' :: rest => rest.all fun c => ('0' ≤ c && c ≤ '7') || c == '_'
  | s => match splitAt ':' s with
    | first :: groups => isDigits first && groups.all isSixtieth
    | [] => false

/-- A signed exponent, or nothing. -/
def isExponent : List Char → Bool
  | [] => true
  | 'e' :: sign :: rest | 'E' :: sign :: rest =>
    (sign == '+' || sign == '-') && allOf Char.isDigit rest
  | _ => false

/-- Whether a text without its sign is a decimal fraction, with an exponent or to the base of
sixty. -/
def isFraction (signed : Bool) (s : List Char) : Bool :=
  let whole := s.takeWhile (· != '.')
  match s.drop whole.length with
  | '.' :: rest =>
    let behind := rest.takeWhile isDigitOrMark
    let tail := rest.drop behind.length
    if whole.isEmpty then !signed && isDigits behind && isExponent tail
    else match splitAt ':' whole with
      | [first] => isDigits first && isExponent tail
      | first :: groups => isDigits first && groups.all isSixtieth && tail.isEmpty
      | [] => false
  | _ => false

/-- Whether a text is written like a floating-point number. -/
def isReal (s : List Char) : Bool :=
  let rest := (takeSign s).2
  ["inf", "Inf", "INF"].any (fun w => rest == '.' :: w.toList) ||
    ["nan", "NaN", "NAN"].any (fun w => s == '.' :: w.toList) ||
    isFraction (rest.length < s.length) rest

/-! ### Numbers -/

/-- The value of digits in a base, of which there must be some. -/
def digitsIn (base : Nat) (s : List Char) : Checked Int :=
  let values := s.filterMap Text.hexValue?
  if allOf (fun c => (Text.hexValue? c).any (· < base)) s then
    .ok (values.foldl (fun acc d => acc * base + d) 0 : Nat)
  else .error (.invalid (.notDigits base (Text.quoted (String.ofList s))))

/-- The value of decimal digits. -/
def decimalOf (s : List Char) : Checked Int :=
  match Text.whole? (String.ofList s) with
  | some i => .ok i
  | none => .error (.invalid (.notDigits 10 (Text.quoted (String.ofList s))))

/-- The whole number that a text stands for. -/
def wholeOf (s : List Char) : Checked Int := do
  let (negative, s) := takeSign (s.filter (· != '_'))
  let size ← match s with
    | ['0'] => pure 0
    | '0' :: 'b' :: rest => digitsIn 2 rest
    | '0' :: 'x' :: rest => digitsIn 16 rest
    | '0' :: _ => digitsIn 8 s
    | s => do
      let groups ← (splitAt ':' s).mapM decimalOf
      pure (groups.foldl (fun acc g => acc * 60 + g) 0)
  return if negative then -size else size

def fractionOf (s : List Char) : Checked Binary64 :=
  match Binary64.parse? (String.ofList s) with
  | some f => .ok f
  | none => .error (.invalid (.notReal (Text.quoted (String.ofList s))))

/-- The sum of groups from the last, each worth sixty times the one behind it. -/
def sixtieths (groups : List Binary64) : Binary64 :=
  (groups.reverse.foldl
    (fun (sum, worth) g => (sum.add (g.scale worth), worth * 60)) (.zero false, 1)).1

/-- The floating-point number that a text stands for. -/
def realOf (s : List Char) : Checked Binary64 := do
  let (negative, rest) := takeSign ((s.filter (· != '_')).map Char.toLower)
  if rest == ".inf".toList then return .infinite negative
  if rest == ".nan".toList then return .nan
  match splitAt ':' rest with
  | [_] => fractionOf (if negative then '-' :: rest else rest)
  | groups =>
    let size := sixtieths (← groups.mapM fractionOf)
    return if negative then (match size with
      | .finite _ significand exponent => .finite true significand exponent
      | .infinite _ => .infinite true
      | .nan => .nan) else size

/-! ### Dates -/

/-- Whether a character may separate the parts of a moment. -/
def isBlank (c : Char) : Bool := c == ' ' || c == '\t'

/-- One or two digits. -/
def short? (s : List Char) : Option (Nat × List Char) :=
  Written.number? 2 s <|> Written.number? 1 s

/-- A fraction of a second in microseconds, or nothing. -/
def splitSecond : List Char → Nat × List Char
  | '.' :: rest =>
    (Written.micros (rest.takeWhile Char.isDigit), rest.dropWhile Char.isDigit)
  | rest => (0, rest)

/-- The offset at the end, as a number of minutes; none when there is none. -/
def zone? (s : List Char) : Option (Option Int) :=
  let signed (sign : Int) (s : List Char) : Option (Option Int) := do
    let (hours, rest) ← short? s
    match rest with
    | [] => some (some (sign * (hours * 60 : Nat)))
    | ':' :: rest =>
      let (minutes, []) ← Written.number? 2 rest | none
      some (some (sign * (hours * 60 + minutes : Nat)))
    | _ => none
  match s, s.dropWhile isBlank with
  | [], _ => some none
  | _, ['Z'] => some (some 0)
  | _, '+' :: rest => signed 1 rest
  | _, '-' :: rest => signed (-1) rest
  | _, _ => none

/-- A date, and if it is written a time of day, as numbers. -/
structure Stamp where
  year : Nat
  month : Nat
  day : Nat
  /-- Hour, minute, second, microseconds and the offset in minutes. -/
  time : Option (Nat × Nat × Nat × Nat × Option Int)

/-- Reads what is written like a date. Month and day have two digits where no time of day
follows. -/
def stamp? (s : List Char) : Option Stamp := do
  let (year, rest) ← Written.number? 4 s
  let ('-' :: rest) := rest | none
  let (month, rest) ← short? rest
  let ('-' :: rest) := rest | none
  let (day, rest) ← short? rest
  match rest with
  | [] => if s.length = 10 then some ⟨year, month, day, none⟩ else none
  | c :: after =>
    let rest ← if c == 'T' || c == 't' then some after
      else if isBlank c then some (after.dropWhile isBlank) else none
    let (hour, rest) ← short? rest
    let (':' :: rest) := rest | none
    let (minute, rest) ← Written.number? 2 rest
    let (':' :: rest) := rest | none
    let (second, rest) ← Written.number? 2 rest
    let (micros, rest) := splitSecond rest
    let zone ← zone? rest
    some ⟨year, month, day, some (hour, minute, second, micros, zone)⟩

/-- The date with a year, a month and a day. -/
def dateOf (year month day : Nat) : Checked Date :=
  if year < 1 ∨ 9999 < year then .error (.invalid (.noYear year))
  else if month < 1 ∨ 12 < month then .error (.invalid .noMonth)
  else match Date.of? year month day with
    | some d => .ok d
    | none => .error (.invalid .noDay)

/-- The offset of so many minutes, which is below a day. -/
def offsetOf (minutes : Int) : Checked Int :=
  let micros := minutes * Duration.microsPerMinute
  if micros.natAbs < Duration.microsPerDay then .ok micros
  else .error (.invalid (.offsetTooFar (Scalar.shown (.duration ⟨micros⟩))))

/-- The date or moment that numbers stand for. -/
def Stamp.scalar (s : Stamp) : Checked Scalar := do
  match s.time with
  | none => return .date (← dateOf s.year s.month s.day)
  | some (hour, minute, second, micros, zone) =>
    let offset ← zone.mapM offsetOf
    let d ← dateOf s.year s.month s.day
    if 24 ≤ hour then throw (.invalid .noHour)
    if 60 ≤ minute then throw (.invalid .noMinute)
    if 60 ≤ second then throw (.invalid .noSecond)
    let seconds := (hour * 60 + minute) * 60 + second
    let m ← Checked.inCalendar (Moment.at? d (seconds * Duration.microsPerSecond + micros) offset)
    return .moment m

/-! ### Kinds -/

/-- The kind that a text without quotes is written like. -/
def Kind.of (s : String) : Kind :=
  let cs := s.toList
  if nullWords.contains s then .null
  else if trueWords.contains s || falseWords.contains s then .bool
  else if isReal cs then .float
  else if isWhole cs then .int
  else if (stamp? cs).isSome then .moment
  else if s == "<<" then .merge
  else if s == "=" then .default
  else .text

/-- The scalar of a kind that a text stands for. -/
def Kind.scalar (k : Kind) (s : String) : Checked Scalar :=
  let unknown : Checked Scalar := .error (.written .constructor)
  match k with
  | null => .ok .null
  | bool =>
    let word := String.ofList (s.toList.map Char.toLower)
    if trueWords.contains word then .ok (.bool true)
    else if falseWords.contains word then .ok (.bool false)
    else .error (.missing (.text word))
  | int => (wholeOf s.toList).map .int
  | float => (realOf s.toList).map .float
  | moment => match stamp? s.toList with
    | some stamp => stamp.scalar
    | none => unknown
  | text => .ok (.text s)
  | merge | default | other => unknown

end TipJar.Yaml
