/-! Why value moves from one account to others. -/
namespace TipJar.Transfer

/-- The occasion of a transfer, kept on every entry it leaves. -/
inductive Kind
  | direct
  | role
  | drop
deriving DecidableEq, Inhabited

namespace Kind

def every : List Kind := [direct, role, drop]

/-- The stored form. -/
def text : Kind → String
  | direct => "direct"
  | role => "role"
  | drop => "reactdrop"

def ofText? (s : String) : Option Kind := every.find? (·.text == s)

theorem ofText?_text (k : Kind) : ofText? k.text = some k := by
  cases k <;> rfl

end Kind
end TipJar.Transfer
