import TipJar.Yaml.Quoted

/-! Scalars in lines of their own.

Behind a bar or an angle bracket a scalar is made of the deeper lines that follow.
A bar keeps their ends; an angle bracket joins lines that start with no blank. A
sign says what happens to the line ends at the end: one is kept, none behind a
hyphen, all behind a plus. A digit says how deep the lines are, which otherwise
the first of them shows. -/
namespace TipJar.Yaml

/-- What is kept of the line ends at the end of a scalar. -/
inductive Tail
  | none
  | one
  | all

/-- The sign and the digit behind a bar, in either order, and how many characters they take. -/
def header (s : List Char) : Checked (Tail × Option Nat × Nat) := do
  let tail? : List Char → Option Tail := fun s => match s with
    | '+' :: _ => some .all
    | '-' :: _ => some .none
    | _ => Option.none
  let depth? : List Char → Option Nat := fun s => match s with
    | c :: _ => if c.isDigit then some (c.toNat - 48) else Option.none
    | [] => Option.none
  let (tail, depth, count) := match tail? s with
    | some t => match depth? (s.drop 1) with
      | some d => (t, some d, 2)
      | Option.none => (t, Option.none, 1)
    | Option.none => match depth? s with
      | some d => match tail? (s.drop 1) with
        | some t => (t, some d, 2)
        | Option.none => (.one, some d, 1)
      | Option.none => (.one, Option.none, 0)
  if depth == some 0 then unreadable
  return (tail, depth, count)

/-- The place behind the rest of a line, which may hold a comment. -/
def endOfLine (p : Place) : Checked Place :=
  let p := p.skipWhile (· == ' ')
  let p := if p.rest.head? == some '#' then p.skipWhile (fun c => !isBreak c) else p
  match p.rest with
  | [] => .ok p
  | c :: _ => if isBreak c then .ok p.step else unreadable

/-- The line ends of lines without text, the place behind them, and the depth of the deepest. -/
def emptyLines : Nat → Place → List Char × Place × Nat
  | 0, p => ([], p, 0)
  | fuel + 1, p =>
    match p.rest with
    | c :: _ =>
      if c == ' ' then
        let (s, after, deepest) := emptyLines fuel p.step
        (s, after, max deepest p.step.column)
      else if isBreak c then
        let (s, after, deepest) := emptyLines fuel p.step
        (breakChar c :: s, after, deepest)
      else ([], p, 0)
    | [] => ([], p, 0)

/-- The place behind blanks, no deeper than given. -/
def skipIndent (depth : Nat) (p : Place) : Place :=
  p.skip ((p.rest.take (depth - p.column)).takeWhile (· == ' ')).length

/-- The line ends of lines that are not as deep as the scalar, and the place behind them. -/
def shallowLines (depth : Nat) : Nat → Place → List Char × Place
  | 0, p => ([], p)
  | fuel + 1, p =>
    let p := skipIndent depth p
    match p.rest with
    | c :: _ =>
      if isBreak c then
        let (s, after) := shallowLines depth fuel p.step
        (breakChar c :: s, after)
      else ([], p)
    | [] => ([], p)

/-- Whether a line starts with a blank. -/
def startsBlank (s : List Char) : Bool :=
  match s with
  | c :: _ => c == ' ' || c == '\t'
  | [] => false

/-- The lines of a scalar from the start of one on, each with the line ends in front of it. -/
def literalLines (folded : Bool) (tail : Tail) (depth : Nat) :
    Nat → List Char → Place → List Char × Place
  | 0, _, p => ([], p)
  | fuel + 1, breaks, p =>
    let text := p.rest.takeWhile fun c => !isBreak c
    let behind := p.skip text.length
    let ending := (behind.rest.take 1).map breakChar
    let (more, next) := shallowLines depth (p.rest.length + 1) behind.step
    if next.column = depth ∧ !next.rest.isEmpty then
      let joint :=
        if folded && ending == ['\n'] && !startsBlank p.rest && !startsBlank next.rest then
          if more.isEmpty then [' '] else []
        else ending
      let (s, after) := literalLines folded tail depth fuel more next
      (breaks ++ text ++ joint ++ s, after)
    else
      let kept := match tail with
        | .none => []
        | .one => ending
        | .all => ending ++ more
      (breaks ++ text ++ kept, next)

/-- The scalar behind a bar or an angle bracket at a place; the collection it stands in has lines as
deep as `indent`. -/
def literal (folded : Bool) (indent : Int) (p : Place) : Checked (List Char × Place) := do
  let (tail, depth?, count) ← header p.step.rest
  let p := p.skip (count + 1)
  if !startsWith (fun c => c == ' ' || isBreak c) p.rest then unreadable
  let p ← endOfLine p
  let least := max 1 (indent + 1).toNat
  let fuel := p.rest.length + 1
  let (breaks, start, depth) := match depth? with
    | some d =>
      let depth := least + d - 1
      let (breaks, start) := shallowLines depth fuel p
      (breaks, start, depth)
    | none =>
      let (breaks, start, deepest) := emptyLines fuel p
      (breaks, start, max least deepest)
  if start.column = depth ∧ !start.rest.isEmpty then
    return literalLines folded tail depth fuel breaks start
  else
    return (match tail with | .all => breaks | _ => [], start)

end TipJar.Yaml
