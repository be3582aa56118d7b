/-! How a recipient wants to hear of a tip.

Every settled tip is announced in public. The preference decides whether the
announcement mentions the recipient and whether a direct message follows; a
recipient who never chose is treated as wanting the mention only. -/
namespace TipJar

/-- What a recipient has chosen. -/
inductive Preference
  | all
  | channelOnly
  | dmOnly
  | off
deriving DecidableEq, Inhabited

namespace Preference

def every : List Preference := [all, channelOnly, dmOnly, off]

/-- The stored form. -/
def text : Preference → String
  | all => "all"
  | channelOnly => "channel_only"
  | dmOnly => "dm_only"
  | off => "off"

/-- The name in capitals. -/
def label : Preference → String
  | all => "ALL"
  | channelOnly => "CHANNEL_ONLY"
  | dmOnly => "DM_ONLY"
  | off => "OFF"

def ofText? (s : String) : Option Preference := every.find? (·.text == s)

theorem ofText?_text (p : Preference) : ofText? p.text = some p := by
  cases p <;> rfl

end Preference

/-- How one recipient is told. -/
structure Delivery where
  mention : Bool
  direct : Bool
  announced : Bool
deriving DecidableEq

/-- The delivery for a preference; none means that the recipient never chose. -/
def Delivery.of : Option Preference → Delivery
  | some .all => ⟨true, true, true⟩
  | some .dmOnly => ⟨false, true, true⟩
  | some .channelOnly | none => ⟨true, false, true⟩
  | some .off => ⟨false, false, true⟩

end TipJar
