import TipJar.Binary64.Shortest
import TipJar.Value.Number

/-! Message templates.

A percent sign starts a place to fill: flags, a width, a precision and a letter
for the form of the value. Every place takes one value, and every value must have
its place. -/
namespace TipJar.Log

/-- One place of a template. -/
structure Place where
  left : Bool
  zeros : Bool
  plus : Bool
  blank : Bool
  width : Nat
  precision : Option Nat
  form : Char

def takeFlags (p : Place) : List Char → Place × List Char
  | '-' :: rest => takeFlags { p with left := true } rest
  | '0' :: rest => takeFlags { p with zeros := true } rest
  | '+' :: rest => takeFlags { p with plus := true } rest
  | ' ' :: rest => takeFlags { p with blank := true } rest
  | '#' :: rest => takeFlags p rest
  | rest => (p, rest)

/-- The number at the front, zero if there is none. -/
def numberAt (s : List Char) : Nat × List Char :=
  (Text.valueOf ((s.takeWhile Char.isDigit).map (·.toNat - 48)), s.dropWhile Char.isDigit)

/-- Reads a place behind its percent sign. -/
def place? (s : List Char) : Option (Place × List Char) :=
  let (p, rest) := takeFlags ⟨false, false, false, false, 0, none, ' '⟩ s
  let (width, rest) := numberAt rest
  let (precision, rest) := match rest with
    | '.' :: rest =>
      let (n, rest) := numberAt rest
      (some n, rest)
    | rest => (none, rest)
  match rest with
  | form :: rest => some ({ p with width, precision, form }, rest)
  | [] => none

/-- Fills up to the width: behind the text, before it, or with zeros behind its sign. -/
def Place.fill (p : Place) (numeric : Bool) (sign body : String) : String :=
  let missing := p.width - (sign.length + body.length)
  let pad (c : Char) := String.ofList (List.replicate missing c)
  if p.left then sign ++ body ++ pad ' '
  else if p.zeros && numeric then sign ++ pad '0' ++ body
  else pad ' ' ++ sign ++ body

/-- The sign of a number in a place. -/
def Place.signFor (p : Place) (negative : Bool) : String :=
  if negative then "-" else if p.plus then "+" else if p.blank then " " else ""

/-- Cuts a text to the precision. -/
def Place.cut (p : Place) (s : String) : String :=
  match p.precision with
  | some n => String.ofList (s.toList.take n)
  | none => s

/-- A value in a place; none where the value does not suit the form. -/
def Place.render (p : Place) (v : Value) : Option String :=
  match p.form with
  | 's' => (v.plain).toOption.map fun s => p.fill false "" (p.cut s)
  | 'r' | 'a' => some (p.fill false "" (p.cut v.shown))
  | 'd' | 'i' | 'u' =>
    match v with
    | .scalar (.bool _) | .scalar (.int _) | .scalar (.float _) | .scalar (.decimal _) =>
      v.whole.toOption.map fun i =>
        p.fill true (p.signFor (i < 0)) (Text.padded (p.precision.getD 0) i.natAbs)
    | _ => none
  | 'f' | 'F' =>
    match v with
    | .scalar (.bool _) | .scalar (.int _) | .scalar (.float _) | .scalar (.decimal _) =>
      v.real.toOption.map fun f =>
        let text := f.fixedText (p.precision.getD 6)
        let negative := text.toList.head? == some '-'
        p.fill true (p.signFor negative)
          (if negative then String.ofList (text.toList.drop 1) else text)
    | _ => none
  | _ => none

/-- Fills a template, as far as its length allows steps. -/
def fillFrom : Nat → List Char → List Value → Option (List Char)
  | _, [], [] => some []
  | _, [], _ :: _ => none
  | 0, _, _ => none
  | fuel + 1, '%' :: '%' :: rest, vs => (fillFrom fuel rest vs).map ('%' :: ·)
  | fuel + 1, '%' :: rest, vs =>
    match place? rest, vs with
    | some (p, rest), v :: vs => do
      let text ← p.render v
      let after ← fillFrom fuel rest vs
      some (text.toList ++ after)
    | _, _ => none
  | fuel + 1, c :: rest, vs => (fillFrom fuel rest vs).map (c :: ·)

/-- The message of a template; without values the template is the message. None when they do not
suit each other. -/
def fillTemplate (template : String) (values : List Value) : Option String :=
  if values.isEmpty then some template
  else (fillFrom template.length template.toList values).map String.ofList

end TipJar.Log
