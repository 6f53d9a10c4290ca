import TagTree.Text
import TagTree.Text.Hidden

/-!
# Quoted texts in messages

Messages show a text between double quotes, so that its ends and its invisible characters can be
seen. A quote and a backslash are preceded by a backslash; tab, newline, carriage return and NUL
have their short forms; every other hidden character is written `\u` with its code point in
lower-case hexadecimal digits between braces.

## Main definitions

* `escaped`: how one character is shown.
* `quoted`: a text between double quotes.
-/

namespace TagTree.Text

/-- How a character is shown inside a quoted text. -/
def escaped (c : Char) : Text :=
  if c = '"' then ['\\', '"']
  else if c = '\\' then ['\\', '\\']
  else if c = '\t' then ['\\', 't']
  else if c = '\n' then ['\\', 'n']
  else if c = '\r' then ['\\', 'r']
  else if c = '\x00' then ['\\', '0']
  else if isHidden c then ['\\', 'u', '\x7b'] ++ Nat.toDigits 16 c.toNat ++ ['\x7d']
  else [c]

/-- The text between double quotes, every character shown as `escaped` says. -/
def quoted (t : Text) : String :=
  String.ofList ('"' :: t.flatMap escaped ++ ['"'])

end TagTree.Text
