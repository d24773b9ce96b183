import CodeView.Text.Hidden
import CodeView.Text.Number

/-!
# Quoted text

Text between double quotes, in which quotes, backslashes and characters that would not show are
escaped.
-/

namespace CodeView.Text

/-- One character of quoted text. -/
def quoteChar (c : Char) : String :=
  if c = '"' then "\\\""
  else if c = '\\' then "\\\\"
  else if c = '\x00' then "\\0"
  else if c = '\t' then "\\t"
  else if c = '\r' then "\\r"
  else if c = '\n' then "\\n"
  else if isHidden c then "\\u\x7b" ++ hexDigits 1 c.toNat ++ "\x7d"
  else String.ofList [c]

/-- A text in quotes. -/
def quote (text : String) : String :=
  "\"" ++ String.join (text.toList.map quoteChar) ++ "\""

end CodeView.Text
