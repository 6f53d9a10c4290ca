/-!
# The shortest decimal of a binary floating-point number

A floating-point number stands for all reals that round to it. Among the decimals in that interval
the one with the fewest digits is taken, of two with equally many the nearer, and of two equally
near the even one. All arithmetic is on natural numbers.

The number is written positionally if its first digit has a weight between `10 ^ (-5)` and
`10 ^ 15`, always with a point and a digit after it; otherwise with one digit before the point and
a signed exponent without leading zeros.

## Main definitions

* `Decimal`: a natural number times a power of ten.
* `Decimal.Interval.around`: the interval of the reals that round to `m * 2 ^ q`.
* `Decimal.Interval.shortest?`: the shortest decimal in an interval.
* `Decimal.ofBits`: the shortest decimal of a finite double, sign apart.
* `Decimal.floatText`: the text of a double.
-/

namespace TagTree

/-- The number `digits * 10 ^ exponent`. -/
structure Decimal where
  digits : Nat
  exponent : Int
deriving DecidableEq, Repr

namespace Decimal

/-! ### Choosing the digits -/

/-- The reals around a binary number, in units of a fourth of its last place: from `low` to
`high`, with the number itself at `middle`, all times `2 ^ scale`. -/
structure Interval where
  low : Nat
  middle : Nat
  high : Nat
  scale : Int
  /-- Whether the ends round to the number as well. -/
  closed : Bool
deriving DecidableEq, Repr

/-- The interval of the reals that round to `m * 2 ^ q`. Below a power of two the numbers lie twice
as close, unless `q` is the least exponent there is. -/
def Interval.around (m : Nat) (q : Int) (least : Bool) : Interval where
  low := if m = 1 <<< 52 ∧ least = false then 4 * m - 1 else 4 * m - 2
  middle := 4 * m
  high := 4 * m + 2
  scale := q - 2
  closed := m % 2 == 0

/-- Whether `digits * 10 ^ exponent` lies in the interval. -/
def Interval.holds (i : Interval) (d : Decimal) : Bool :=
  let point := (d.digits * Nat.pow 10 d.exponent.toNat) <<< (-i.scale).toNat
  let unit := Nat.pow 10 (-d.exponent).toNat <<< i.scale.toNat
  if i.closed then i.low * unit ≤ point && point ≤ i.high * unit
  else i.low * unit < point && point < i.high * unit

/-- The best multiple of `10 ^ exponent` in the interval: the two neighbours of the middle are
tried. -/
def Interval.onGrid? (i : Interval) (exponent : Int) : Option Decimal :=
  let num := (i.middle * Nat.pow 10 (-exponent).toNat) <<< i.scale.toNat
  let den := Nat.pow 10 exponent.toNat <<< (-i.scale).toNat
  let below : Decimal := ⟨num / den, exponent⟩
  let above : Decimal := ⟨num / den + 1, exponent⟩
  let twice := 2 * (num % den)
  let belowIsNearer := twice < den || (twice == den && num / den % 2 == 0)
  match i.holds below, i.holds above with
  | true, true => some (if belowIsNearer then below else above)
  | true, false => some below
  | false, true => some above
  | false, false => none

/-- The best multiple of the greatest power of ten that has one in the interval, among
`10 ^ top`, `10 ^ (top - 1)` and so on. -/
def Interval.shortest? (i : Interval) (top : Int) : (steps : Nat) → Option Decimal
  | 0 => none
  | steps + 1 =>
    match i.onGrid? top with
    | some d => some d
    | none => i.shortest? (top - 1) steps

/-- The shortest decimal of the positive finite double with these bits, the sign bit left out.
The exponents from `308` down to `-324` hold a decimal for every double. -/
def ofBits (bits : Nat) : Decimal :=
  let fraction : Nat := bits % (1 <<< 52)
  let biased : Nat := bits >>> 52
  let interval :=
    if biased = 0 then Interval.around fraction (-1074) true
    else Interval.around (1 <<< 52 + fraction) ((biased : Int) - 1075) (biased == 1)
  (interval.shortest? 308 633).getD ⟨0, 0⟩

/-! ### Writing the digits -/

/-- The digits of a decimal, with a point and a digit after it. -/
def positional (ds : List Char) (weight : Int) : List Char :=
  if weight < 0 then ['0', '.'] ++ List.replicate (-weight - 1).toNat '0' ++ ds
  else
    let whole := weight.toNat + 1
    if ds.length ≤ whole then ds ++ List.replicate (whole - ds.length) '0' ++ ['.', '0']
    else ds.take whole ++ '.' :: ds.drop whole

/-- The digits of a decimal, the first before the point, and the weight of the first. -/
def scientific (ds : List Char) (weight : Int) : List Char :=
  ds.take 1 ++ (if ds.length ≤ 1 then [] else '.' :: ds.drop 1) ++
    ['e', if weight < 0 then '-' else '+'] ++ Nat.toDigits 10 weight.natAbs

/-- The text of a positive decimal. -/
def toText (d : Decimal) : List Char :=
  let ds := Nat.toDigits 10 d.digits
  let weight := d.exponent + ds.length - 1
  if -5 ≤ weight ∧ weight ≤ 15 then positional ds weight else scientific ds weight

/-- The text of a finite double. Zero keeps its sign. -/
def floatText (x : Float) : String :=
  let bits := x.toBits.toNat
  let magnitude := bits % (1 <<< 63)
  String.ofList <| (if bits < 1 <<< 63 then [] else ['-']) ++
    if magnitude = 0 then ['0', '.', '0'] else (ofBits magnitude).toText

end Decimal

end TagTree
