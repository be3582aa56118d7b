import TipJar.Amount.Coins

/-! Arithmetic on values one of which is an amount.

Amounts add to, subtract from and compare with amounts only; a multiple takes a
whole number on either side. Everything else is a mismatch that names the two
kinds in the order in which they stand. -/
namespace TipJar.Amount

/-- The amount that a value is. -/
def ofOperand? : Value → Option Amount
  | .scalar (.amount a) => some a
  | _ => none

/-- The name of a sequence's kind as the joining of sequences reports it. -/
def sequenceName? : Value → Option String
  | .list _ => some "list"
  | .tuple _ => some "tuple"
  | v => v.text?.map fun _ => "str"

/-- An operator that does not take these two kinds. -/
def mismatched {α : Type} (operator : String) (a b : Value) : Checked α :=
  .error (.mismatch (.operands operator a.fullKind b.fullKind))

/-- The sum of two values, which must both be amounts. -/
def addValues (a b : Value) : Checked Amount :=
  match ofOperand? a, ofOperand? b with
  | some x, some y => .ok (x + y)
  | _, _ =>
    match sequenceName? a with
    | some sequence => .error (.mismatch (.notJoined sequence b.kind))
    | none => mismatched "+" a b

/-- The difference of two values, which must both be amounts; less than nothing is a fault. -/
def subValues (a b : Value) : Checked Amount :=
  match ofOperand? a, ofOperand? b with
  | some x, some y => ofUnits (x.units - y.units)
  | _, _ => mismatched "-" a b

/-- A multiple; truth values do not count as numbers here. -/
def mulValues (a b : Value) : Checked Amount :=
  match a, b with
  | .scalar (.amount x), .scalar (.int n) | .scalar (.int n), .scalar (.amount x) =>
    ofUnits (x.units * n)
  | a, b =>
    match sequenceName? a, sequenceName? b with
    | some _, _ => .error (.mismatch (.notRepeated b.kind))
    | none, some _ => .error (.mismatch (.notRepeated a.kind))
    | none, none => mismatched "*" a b

/-- A comparison by the operator of the given name. -/
def compareValues (operator : String) (holds : Ordering → Bool) (a b : Value) : Checked Bool :=
  match ofOperand? a, ofOperand? b with
  | some x, some y => .ok (holds (compare x.units y.units))
  | _, _ => .error (.mismatch (.unordered operator a.fullKind b.fullKind))

/-- Whether one amount is less than another. -/
def ltValues := compareValues "<" (· == .lt)

/-- Whether one amount is at most another. -/
def leValues := compareValues "<=" (· != .gt)

/-- Whether one amount is more than another. -/
def gtValues := compareValues ">" (· == .gt)

/-- Whether one amount is at least another. -/
def geValues := compareValues ">=" (· != .lt)

/-- An amount equals an equal amount and nothing else. -/
def eqValues (a b : Value) : Bool :=
  match ofOperand? a, ofOperand? b with
  | some x, some y => x == y
  | _, _ => false

/-- The units of a value that is an amount. -/
def unitsOf (v : Value) : Checked Amount :=
  match ofOperand? v with
  | some a => .ok a
  | none => .error (.mismatch (.noAttribute v.fullKind "sats"))

/-- The sum of values, of which the first that is no amount is the fault. -/
def sumValues (vs : List Value) : Checked Amount :=
  (vs.mapM unitsOf).map Amount.sum

/-- Checks each value against the one before it, as sorting does first. -/
def checkNeighbours : List Value → Checked Unit
  | a :: b :: rest => do
    let _ ← ltValues b a
    checkNeighbours (b :: rest)
  | _ => .ok ()

/-- The amounts in order, smallest first. -/
def sortValues (vs : List Value) : Checked (List Amount) := do
  checkNeighbours vs
  return (vs.filterMap ofOperand?).mergeSort (fun a b => a.units ≤ b.units)

/-- What a count that is no whole number does to a share: the quotient is no count of units. -/
def quotientKind (a : Amount) (count : Value) : Checked Amount :=
  match count with
  | .scalar (.float _) =>
    match Binary64.ofInt a.units with
    | .infinite _ => .error (.beyond .float)
    | _ => .error (.mismatch (.notUnits "float"))
  | .scalar (.decimal _) => .error (.mismatch (.notUnits "Decimal"))
  | v => mismatched "//" (.amount a) v

/-- A share of an amount; none among no recipients. -/
def checkedDiv (a : Amount) (count : Value) : Checked (Option Amount) := do
  if ← count.atMostZero then return none
  match count with
  | .scalar (.bool _) => return some a
  | .scalar (.int n) => return some (a.split n.toNat).1
  | v => some <$> quotientKind a v

/-- Equal shares and the remainder. -/
def splitBy (a : Amount) (count : Value) : Checked (Amount × Amount) := do
  if ← count.atMostZero then
    throw (.invalid (.noShares (← Checked.ofArithmetic count.plain)))
  match count with
  | .scalar (.bool _) => return (a, zero)
  | .scalar (.int n) => return a.split n.toNat
  | v => do
    let share ← quotientKind a v
    return (share, zero)

end TipJar.Amount
