import TagTree.Json.Scan

/-!
# Numbers of JSON

A number without point and exponent is an integer if it fits: a natural number of 64 bits, or a
negative one of 64 bits with sign. Every other number is a double, read as follows. Digits are
taken into a significand of 64 bits as long as they fit; the digits before the point that do not
fit each raise the power of ten, those after it are ignored. The significand is rounded to a
double and then multiplied or divided by the power of ten. A number beyond all doubles is refused.

A number whose value is not wanted is only checked for its form.

## Main definitions

* `Json.Number`, `Json.readNumber`: a number after its minus sign, if any.
* `Json.skipNumber`: the same without the value.
-/

namespace TagTree.Json

/-- A number as it was read. -/
inductive Number where
  | integer (i : Int)
  | floating (x : Float)
deriving Repr

/-! ### The significand -/

/-- Takes digits into a significand as long as it stays below `2 ^ 64`: the significand, and the
digits left over. -/
def absorb (significand : Nat) : List Char → Nat × List Char
  | [] => (significand, [])
  | d :: ds =>
    let next := 10 * significand + (d.toNat - '0'.toNat)
    if next < 1 <<< 64 then absorb next ds else (significand, d :: ds)

/-! ### Doubles -/

/-- A power of ten that is a double, rounded once. -/
def powerOfTen (exponent : Nat) : Float :=
  Float.ofScientific 1 false exponent

/-- The double `x * 10 ^ exponent`, computed in steps that stay within the powers of ten that are
doubles. Too great a number is refused, too small a number becomes zero. -/
def scaled (x : Float) (exponent : Int) : Except Error Float :=
  if h : exponent < -308 then
    if x == 0 then .ok x else scaled (x / powerOfTen 308) (exponent + 308)
  else if exponent < 0 then .ok (x / powerOfTen exponent.natAbs)
  else if exponent ≤ 308 then
    let y := x * powerOfTen exponent.natAbs
    if y.isInf then .error .malformed else .ok y
  else if x == 0 then .ok x
  else .error .malformed
termination_by exponent.natAbs

/-- The double with a sign, a significand and a power of ten. -/
def double (negative : Bool) (significand : Nat) (exponent : Int) : Except Error Number := do
  let x ← scaled (Float.ofScientific significand false 0) exponent
  return .floating (if negative then -x else x)

/-- Reads the exponent of a number after the letter `e`. Exponents beyond 32 bits make the number
zero or refused. -/
def readExponent (negative : Bool) (significand : Nat) (exponent : Int) : Reader Number :=
  fun s => do
    let down := s.head? == some '-'
    let s := if down || s.head? == some '+' then s.tail else s
    let ds := s.takeWhile Char.isDigit
    let rest := s.dropWhile Char.isDigit
    if ds.isEmpty then
      .error (if rest.isEmpty then .unfinished else .malformed)
    else if 1 <<< 31 ≤ Nat.ofDigitChars 10 ds 0 then
      if significand ≠ 0 ∧ down = false then .error .malformed
      else return (.floating (if negative then -0.0 else 0.0), rest)
    else
      let n : Int := Nat.ofDigitChars 10 ds 0
      let x ← double negative significand (if down then exponent - n else exponent + n)
      return (x, rest)

/-- Whether a text goes on with the letter of an exponent. -/
def startsExponent (s : Text) : Bool :=
  s.head? == some 'e' || s.head? == some 'E'

/-- Reads the digits after the point of a number, and its exponent, if any. -/
def readFraction (negative : Bool) (significand : Nat) (exponent : Int) : Reader Number :=
  fun s => do
    let ds := s.takeWhile Char.isDigit
    let rest := s.dropWhile Char.isDigit
    if ds.isEmpty then
      .error (if rest.isEmpty then .unfinished else .malformed)
    else
      let (significand, ignored) := absorb significand ds
      let exponent := exponent - (ds.length - ignored.length : Nat)
      if startsExponent rest then readExponent negative significand exponent rest.tail
      else
        let x ← double negative significand exponent
        return (x, rest)

/-- The number without point and exponent that has this significand. Minus zero is a double, as
are the negative numbers beyond 64 bits. -/
def integer (negative : Bool) (significand : Nat) : Except Error Number :=
  if negative = false then .ok (.integer significand)
  else if significand = 0 ∨ 1 <<< 63 < significand then double true significand 0
  else .ok (.integer (-significand))

/-- Reads a number after its minus sign, if any. A leading zero stands alone. -/
def readNumber (negative : Bool) : Reader Number :=
  fun s => do
    let ds := s.takeWhile Char.isDigit
    let rest := s.dropWhile Char.isDigit
    if ds.isEmpty then
      .error (if rest.isEmpty then .unfinished else .malformed)
    else if ds.head? = some '0' ∧ 1 < ds.length then .error .malformed
    else
      let (significand, excess) := absorb 0 ds
      if rest.head? = some '.' then
        readFraction negative significand excess.length rest.tail
      else if startsExponent rest then
        readExponent negative significand excess.length rest.tail
      else if excess.isEmpty then
        let x ← integer negative significand
        return (x, rest)
      else
        let x ← double negative significand excess.length
        return (x, rest)

/-! ### Numbers whose value is not wanted -/

/-- Reads digits, of which there has to be one. -/
def skipDigits : Reader Unit :=
  fun s => match s with
    | [] => .error .malformed
    | c :: rest =>
      if c.isDigit then .ok ((), rest.dropWhile Char.isDigit) else .error .malformed

/-- Reads the exponent of a number, if there is one. -/
def skipExponent : Reader Unit :=
  fun s =>
    if startsExponent s then
      let s := s.tail
      skipDigits (if s.head? = some '-' ∨ s.head? = some '+' then s.tail else s)
    else .ok ((), s)

/-- Reads a number after its minus sign, if any, without its value. -/
def skipNumber : Reader Unit :=
  fun s => do
    let (_, rest) ← skipDigits s
    if s.head? = some '0' ∧ rest ≠ s.tail then .error .malformed
    else if rest.head? = some '.' then
      let (_, rest) ← skipDigits rest.tail
      skipExponent rest
    else skipExponent rest

end TagTree.Json
