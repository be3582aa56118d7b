import TipJar.Text.Hex
import TipJar.Text.Visible

/-! Quoted text, as it stands in messages.

Single quotes surround the text, or double quotes when it holds a single quote
and no double one. Backslashes and the surrounding quote are escaped, line ends
and tabs have short forms, and characters without a visible form are written by
number, so a quoted text is always one line that shows everything in it. -/
namespace TipJar.Text

/-- The quote that surrounds a text. -/
def surroundingQuote (s : List Char) : Char :=
  if s.contains '\'' && !s.contains '"' then '"' else '\''

def quoteChar (quote c : Char) : List Char :=
  if c == quote || c == '\\' then ['\\', c]
  else if c == '\n' then ['\\', 'n']
  else if c == '\r' then ['\\', 'r']
  else if c == '\t' then ['\\', 't']
  else if isVisible c then [c]
  else if c.toNat < 0x100 then '\\' :: 'x' :: hexDigits 2 c.toNat
  else if c.toNat < 0x10000 then '\\' :: 'u' :: hexDigits 4 c.toNat
  else '\\' :: 'U' :: hexDigits 8 c.toNat

def quoted (s : String) : String :=
  let quote := surroundingQuote s.toList
  String.ofList (quote :: (s.toList.flatMap (quoteChar quote) ++ [quote]))

end TipJar.Text
