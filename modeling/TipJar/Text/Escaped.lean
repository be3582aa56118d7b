import TipJar.Text.Hex

/-! Text inside double quotes, in printable ASCII only.

Quotes and backslashes are escaped, common controls have short forms, and every
other character that is not printable ASCII is written as one or two units of
sixteen bits. So an escaped text never ends a line and never ends its quotes. A
text holds Unicode characters only: surrogates occur in what is written, in pairs,
and never in what is escaped. -/
namespace TipJar.Text

/-- One unit of sixteen bits. -/
def unitEscape (n : Nat) : List Char := '\\' :: 'u' :: hexDigits 4 n

def escapeChar (c : Char) : List Char :=
  if c == '"' then ['\\', '"']
  else if c == '\\' then ['\\', '\\']
  else if c == '\n' then ['\\', 'n']
  else if c == '\r' then ['\\', 'r']
  else if c == '\t' then ['\\', 't']
  else if c.toNat == 8 then ['\\', 'b']
  else if c.toNat == 12 then ['\\', 'f']
  else if 32 ≤ c.toNat && c.toNat ≤ 126 then [c]
  else if c.toNat < 0x10000 then unitEscape c.toNat
  else
    let rest := c.toNat - 0x10000
    unitEscape (0xd800 + rest / 0x400) ++ unitEscape (0xdc00 + rest % 0x400)

/-- The text in double quotes. -/
def escaped (s : String) : String :=
  String.ofList ('"' :: (s.toList.flatMap escapeChar ++ ['"']))

end TipJar.Text
