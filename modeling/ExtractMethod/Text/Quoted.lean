import ExtractMethod.Text.Combining
import ExtractMethod.Text.Unprintable

namespace ExtractMethod.Text

/-- The number of a character in lower-case hexadecimal between braces, after `\u`. -/
def codePointEscape (c : Char) : String :=
  "\\u\x7b" ++ String.ofList (Nat.toDigits 16 c.toNat) ++ "\x7d"

/-- How a character stands between quotes of the given kind. -/
def quotedChar (quote c : Char) : String :=
  if c = '\x00' then "\\0"
  else if c = '\t' then "\\t"
  else if c = '\r' then "\\r"
  else if c = '\n' then "\\n"
  else if c = '\\' || c = quote then "\\" ++ c.toString
  else if isCombining c || isUnprintable c then codePointEscape c
  else c.toString

/-- A text between double quotes, with every character that could be misread escaped. -/
def quoted (text : String) : String :=
  "\"" ++ String.join (text.toList.map (quotedChar '"')) ++ "\""

/-- A character between single quotes. -/
def quotedSingle (c : Char) : String :=
  "'" ++ quotedChar (Char.ofNat 0x27) c ++ "'"

end ExtractMethod.Text
