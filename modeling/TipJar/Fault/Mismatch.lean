/-! Values of a kind that an operation does not take. -/
namespace TipJar

/-- An operation met a value of the wrong kind; kinds are given by name. -/
inductive Mismatch
  | notUnits (kind : String)
  | notStorable (kind : String)
  | operands (operator left right : String)
  | unordered (operator left right : String)
  | notJoined (sequence other : String)
  | notRepeated (other : String)
  | notWhole (kind : String)
  | notReal (kind : String)
  | noItems (kind : String)
  | listIndex (sequence index : String)
  | textIndex (index : String)
  | noAttribute (kind member : String)
  | durationPart (part kind : String)
  | mixedMoments
  | momentAndDate
  | unhashable (kind : String)
  | keyKind (kind : String)
  | missingArguments (constructor : String) (names : List String)
  | surplusArguments (constructor : String) (takes given : Nat)
  | unexpectedKeyword (function keyword : String)
  | notLevel (shown : String)
  | notWritten
deriving DecidableEq

namespace Mismatch

/-- A list of quoted names, joined as a sentence joins them. -/
def joined : List String → String
  | [] => ""
  | [a] => "'" ++ a ++ "'"
  | [a, b] => "'" ++ a ++ "' and '" ++ b ++ "'"
  | names =>
    let quoted := names.map fun n => "'" ++ n ++ "'"
    ", ".intercalate quoted.dropLast ++ ", and " ++ (quoted.getLast?.getD "")

def message : Mismatch → String
  | notUnits kind => "Amount units must be int, got " ++ kind
  | notStorable kind => "AmountType expects Amount, got " ++ kind
  | operands operator left right =>
    "unsupported operand type(s) for " ++ operator ++ ": '" ++ left ++ "' and '" ++ right ++ "'"
  | unordered operator left right =>
    "'" ++ operator ++ "' not supported between instances of '" ++ left ++ "' and '" ++ right ++ "'"
  | notJoined sequence other =>
    "can only concatenate " ++ sequence ++ " (not \"" ++ other ++ "\") to " ++ sequence
  | notRepeated other => "can't multiply sequence by non-int of type '" ++ other ++ "'"
  | notWhole kind =>
    "int() argument must be a string, a bytes-like object or a real number, not '" ++ kind ++ "'"
  | notReal kind => "float() argument must be a string or a real number, not '" ++ kind ++ "'"
  | noItems kind => "'" ++ kind ++ "' object is not subscriptable"
  | listIndex sequence index =>
    sequence ++ " indices must be integers or slices, not " ++ index
  | textIndex index => "string indices must be integers, not '" ++ index ++ "'"
  | noAttribute kind member => "'" ++ kind ++ "' object has no attribute '" ++ member ++ "'"
  | durationPart part kind => "unsupported type for timedelta " ++ part ++ " component: " ++ kind
  | mixedMoments => "can't compare offset-naive and offset-aware datetimes"
  | momentAndDate => "can't compare datetime.datetime to datetime.date"
  | unhashable kind => "unhashable type: '" ++ kind ++ "'"
  | keyKind kind => "keys must be str, int, float, bool or None, not " ++ kind
  | missingArguments constructor names =>
    constructor ++ "() missing " ++ toString names.length ++ " required positional argument" ++
      (if names.length = 1 then "" else "s") ++ ": " ++ joined names
  | surplusArguments constructor takes given =>
    constructor ++ "() takes " ++ toString takes ++ " positional argument" ++
      (if takes = 1 then "" else "s") ++ " but " ++ toString given ++ " were given"
  | unexpectedKeyword function keyword =>
    function ++ "() got an unexpected keyword argument '" ++ keyword ++ "'"
  | notLevel shown => "Level not an integer or a valid string: " ++ shown
  | notWritten => "fromisoformat: argument must be str"

/-- The name under which the fault is reported. -/
def name : Mismatch → String
  | noAttribute .. => "AttributeError"
  | _ => "TypeError"

end Mismatch
end TipJar
