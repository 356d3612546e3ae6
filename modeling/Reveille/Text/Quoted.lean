import Reveille.Text.Invisible

/-!
# Quoted text

`quoted` writes a string between double quotes. Quotes, backslashes and the characters that do not
show on a line are escaped: the common ones by a letter, the others by their number in hexadecimal.
`quotedList` writes a list of such strings between brackets.
-/

namespace Reveille.Text

def hexText (n : Nat) : String := String.ofList (Nat.toDigits 16 n)

/-- A character as it stands between double quotes. -/
def escaped (c : Char) : String :=
  if c = '"' then "\\\""
  else if c = '\\' then "\\\\"
  else if c = '\n' then "\\n"
  else if c = '\t' then "\\t"
  else if c = '\r' then "\\r"
  else if c = '\x00' then "\\0"
  else if invisible c then "\\u\x7b" ++ hexText c.toNat ++ "\x7d"
  else c.toString

def quoted (s : String) : String :=
  "\"" ++ String.join (s.toList.map escaped) ++ "\""

def quotedList (l : List String) : String :=
  "[" ++ String.intercalate ", " (l.map quoted) ++ "]"

end Reveille.Text
