import TagTree.Json.Scan

/-!
# Strings of JSON

A string stands between double quotes. A backslash starts an escape: a letter for a common
character, or `u` and four hexadecimal digits for a code point, where characters beyond four
digits take two escapes, a leading and a trailing surrogate. Control characters must be escaped.

A string whose value is not wanted is only checked for its form; surrogates need not match there.

## Main definitions

* `Json.readString`: a string after its opening quote.
* `Json.skipString`: the same without the value.
* `Json.writeString`: a string between quotes.
-/

namespace TagTree.Json

/-! ### Escapes -/

/-- The value of a hexadecimal digit of either case. -/
def hexValue? (c : Char) : Option Nat :=
  if '0' ≤ c ∧ c ≤ '9' then some (c.toNat - '0'.toNat)
  else if 'a' ≤ c ∧ c ≤ 'f' then some (c.toNat - 'a'.toNat + 10)
  else if 'A' ≤ c ∧ c ≤ 'F' then some (c.toNat - 'A'.toNat + 10)
  else none

/-- The number that four hexadecimal digits at the start of a text stand for. The text is too short
if it has fewer than four bytes. -/
def hexQuad (s : Text) : Except Error Nat :=
  if s.utf8Size < 4 then .error .unfinished
  else match s with
    | a :: b :: c :: d :: _ =>
      match hexValue? a, hexValue? b, hexValue? c, hexValue? d with
      | some a, some b, some c, some d => .ok (((a * 16 + b) * 16 + c) * 16 + d)
      | _, _, _, _ => .error .malformed
    | _ => .error .malformed

/-- The character for the letter of a short escape. -/
def shortEscape? (c : Char) : Option Char :=
  if c = '"' then some '"'
  else if c = '\\' then some '\\'
  else if c = '/' then some '/'
  else if c = 'b' then some '\x08'
  else if c = 'f' then some '\x0c'
  else if c = 'n' then some '\n'
  else if c = 'r' then some '\r'
  else if c = 't' then some '\t'
  else none

/-- Whether a number is the first half of a surrogate pair. -/
def isLeading (n : Nat) : Bool :=
  0xd800 ≤ n && n ≤ 0xdbff

/-- Whether a number is the second half of a surrogate pair. -/
def isTrailing (n : Nat) : Bool :=
  0xdc00 ≤ n && n ≤ 0xdfff

/-- The second half of a surrogate pair, an escape of its own, at the start of a text. -/
def trailingHalf (s : Text) : Except Error Nat := do
  match s with
  | [] => .error .unfinished
  | c :: s =>
    if c ≠ '\\' then .error .malformed
    else match s with
      | [] => .error .unfinished
      | d :: s =>
        if d ≠ 'u' then .error .malformed
        else
          let n ← hexQuad s
          if isTrailing n then .ok n else .error .malformed

/-- The character that the escape after a backslash stands for, and the number of characters of the
escape. -/
def escape (s : Text) : Except Error (Char × Nat) := do
  match s with
  | [] => .error .unfinished
  | c :: s =>
    if c = 'u' then
      let n ← hexQuad s
      if isTrailing n then .error .malformed
      else if isLeading n then
        let m ← trailingHalf (s.drop 4)
        return (Char.ofNat ((n - 0xd800) * 0x400 + (m - 0xdc00) + 0x10000), 11)
      else return (Char.ofNat n, 5)
    else match shortEscape? c with
      | some d => return (d, 1)
      | none => .error .malformed

/-! ### Reading -/

/-- Reads a string after its opening quote, and its closing quote. -/
def readString (s : Text) : Except Error (Text × Text) :=
  match s with
  | [] => .error .unfinished
  | c :: s =>
    if c = '"' then .ok ([], s)
    else if c = '\\' then do
      let (d, n) ← escape s
      let (t, rest) ← readString (s.drop n)
      return (d :: t, rest)
    else if c.toNat < 0x20 then .error .malformed
    else do
      let (t, rest) ← readString s
      return (c :: t, rest)
termination_by s.length
decreasing_by all_goals simp only [List.length_drop, List.length_cons]; omega

/-- The number of characters of the escape after a backslash, whatever it stands for. -/
def escapeLength (s : Text) : Except Error Nat := do
  match s with
  | [] => .error .unfinished
  | c :: s =>
    if c = 'u' then
      let _ ← hexQuad s
      return 5
    else if (shortEscape? c).isSome then return 1
    else .error .malformed

/-- Reads a string after its opening quote, and its closing quote, without its value. -/
def skipString (s : Text) : Except Error (Unit × Text) :=
  match s with
  | [] => .error .unfinished
  | c :: s =>
    if c = '"' then .ok ((), s)
    else if c = '\\' then do
      let n ← escapeLength s
      skipString (s.drop n)
    else if c.toNat < 0x20 then .error .malformed
    else skipString s
termination_by s.length
decreasing_by all_goals simp only [List.length_drop, List.length_cons]; omega

/-! ### Writing -/

/-- How a character is written inside a string: quotes, backslashes and control characters are
escaped, with a letter where there is one. -/
def writeChar (c : Char) : Text :=
  if c = '"' then ['\\', '"']
  else if c = '\\' then ['\\', '\\']
  else if c = '\x08' then ['\\', 'b']
  else if c = '\x0c' then ['\\', 'f']
  else if c = '\n' then ['\\', 'n']
  else if c = '\r' then ['\\', 'r']
  else if c = '\t' then ['\\', 't']
  else if c.toNat < 0x20 then
    ['\\', 'u', '0', '0', Nat.digitChar (c.toNat / 16), Nat.digitChar (c.toNat % 16)]
  else [c]

/-- A string between quotes. -/
def writeString (t : Text) : Text :=
  '"' :: t.flatMap writeChar ++ ['"']

end TagTree.Json
