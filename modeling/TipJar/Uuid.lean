import TipJar.Text.Hex
import TipJar.Text.Quoted

/-! Identifiers of 128 bits.

Rows, transfer events and requests are named by such identifiers. They are
written as five groups of hexadecimal digits, and since the digits are of fixed
width and one case, texts order as the numbers do. -/
namespace TipJar

/-- How many identifiers there are. -/
def Uuid.count : Nat := 0x100000000000000000000000000000000

/-- A 128-bit identifier. -/
structure Uuid where
  value : Nat
  value_lt : value < Uuid.count

namespace Uuid

instance : DecidableEq Uuid := fun a b =>
  if h : a.value = b.value then isTrue (by cases a; cases b; subst h; rfl)
  else isFalse (fun he => h (he ▸ rfl))

instance : Inhabited Uuid := ⟨⟨0, by decide⟩⟩

/-- The identifier with the last 128 bits of a number. -/
def ofNat (n : Nat) : Uuid := ⟨n % count, Nat.mod_lt _ (by decide)⟩

/-- Five groups of eight, four, four, four and twelve digits. -/
def text (u : Uuid) : String :=
  let ds := Text.hexDigits 32 u.value
  let group (start size : Nat) := String.ofList ((ds.drop start).take size)
  "-".intercalate [group 0 8, group 8 4, group 12 4, group 16 4, group 20 12]

/-- Why a text is no identifier. -/
inductive ParseError
  | wrongLength
  /-- The text that was left once all marks were removed. -/
  | notHexadecimal (rest : String)

/-- A text without the marks that may come with the digits: the two scheme words, curly brackets at
the ends, and hyphens anywhere. -/
def withoutMarks (s : String) : List Char :=
  let s := (s.replace "urn:" "").replace "uuid:" ""
  let bracket (c : Char) := c == '\x7b' || c == '\x7d'
  (((s.toList.dropWhile bracket).reverse.dropWhile bracket).reverse).filter (· != '-')

/-- Reads 32 hexadecimal digits, marked or not, of either case. -/
def parse (s : String) : Except ParseError Uuid :=
  let rest := withoutMarks s
  if rest.length ≠ 32 then .error .wrongLength
  else match rest.mapM Text.hexValue? with
    | some ds => .ok (ofNat (ds.foldl (fun acc d => acc * 16 + d) 0))
    | none => .error (.notHexadecimal (String.ofList rest))

theorem value_ofNat (n : Nat) (h : n < count) : (ofNat n).value = n := Nat.mod_eq_of_lt h

end Uuid
end TipJar
