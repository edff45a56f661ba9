import Endpoints.Text

/-!
# Double precision numbers and their decimal texts

A number written with a fraction, with an exponent or outside the integer range is held as a
double.  A finite double is kept as a sign, a significand and a power of two, so rounding and
printing are exact integer arithmetic.  It is printed with the fewest decimal digits that read back
as the same double.
-/

namespace Endpoints

/-! ### Doubles -/

/-- The quotient rounded to the nearest integer, a half to the even neighbour. -/
def roundDiv (num den : Nat) : Nat :=
  let q := num / den
  let r := num % den
  if 2 * r < den then q else if den < 2 * r then q + 1 else q + q % 2

/-- The fraction `num / den` divided by `base ^ e`, as numerator and denominator. -/
def scaleFraction (base num den : Nat) (e : Int) : Nat × Nat :=
  (num * Nat.pow base (-e).toNat, den * Nat.pow base e.toNat)

/-- A finite double with the value `significand * 2 ^ exponent`, negated if `negative`. -/
structure Binary64 where
  negative : Bool
  significand : Nat
  exponent : Int
  significand_lt : significand < Nat.pow 2 53
  le_exponent : -1074 ≤ exponent
  exponent_le : exponent ≤ 971
deriving DecidableEq

namespace Binary64

/-- Zero of either sign. -/
def zero (negative : Bool) : Binary64 := ⟨negative, 0, -1074, by decide, by decide, by decide⟩

instance : Inhabited Binary64 := ⟨zero false⟩

/-- The power of two at which a positive fraction has a significand of 53 bits, or the least one
there is. -/
def exponentOf (num den : Nat) : Int :=
  let low : Int := num.log2 - den.log2 - 53
  let (n, d) := scaleFraction 2 num den low
  max (-1074) (if n / d < Nat.pow 2 53 then low else low + 1)

/-- The double nearest to a positive fraction, if the range reaches it.  A significand that rounds
up to 54 bits moves to the next power of two. -/
def ofFraction? (num den : Nat) : Option Binary64 :=
  let e := exponentOf num den
  let (n, d) := scaleFraction 2 num den e
  let m := roundDiv n d
  let (m, e) := if m = Nat.pow 2 53 then (Nat.pow 2 52, e + 1) else (m, e)
  if h : m < Nat.pow 2 53 ∧ -1074 ≤ e ∧ e ≤ 971 then
    some ⟨false, m, e, h.1, h.2.1, h.2.2⟩
  else none

/-- The absolute value of a double as numerator and denominator. -/
def magnitude (x : Binary64) : Nat × Nat := scaleFraction 2 x.significand 1 (-x.exponent)

/-- Whether a double is zero, of either sign. -/
def isZero (x : Binary64) : Bool := x.significand = 0

/-! ### Scaling by powers of ten -/

/-- The highest power of ten below the end of the range. -/
def maxDecade : Nat := 308

/-- The absolute value of a double times `num / den`, rounded, if the range reaches it. -/
def scale? (x : Binary64) (num den : Nat) : Option Binary64 :=
  if x.isZero then some (zero false)
  else
    let (n, d) := x.magnitude
    ofFraction? (n * num) (d * den)

/-- The double nearest to a power of ten, as numerator and denominator. -/
def powerOfTen (k : Nat) : Nat × Nat :=
  match ofFraction? (Nat.pow 10 k) 1 with
  | some x => x.magnitude
  | none => (0, 1)

/-- The absolute value of a double divided a number of times by the double nearest to
`10 ^ maxDecade`; zero needs no division. -/
def divideDecades? (x : Binary64) : Nat → Option Binary64
  | 0 => some x
  | times + 1 =>
    if x.isZero then some x
    else
      let (num, den) := powerOfTen maxDecade
      (x.scale? den num).bind fun y => y.divideDecades? times

/-- The absolute value of a double, multiplied or divided by the double nearest to a power of ten,
if the range reaches the result.  A power below the range is divided by in several steps. -/
def shiftDecimal? (x : Binary64) (exponent : Int) : Option Binary64 :=
  if exponent < 0 then
    let (num, den) := powerOfTen (exponent.natAbs % maxDecade)
    (x.divideDecades? (exponent.natAbs / maxDecade)).bind (·.scale? den num)
  else if exponent ≤ maxDecade then
    let (num, den) := powerOfTen exponent.toNat
    x.scale? num den
  else if x.isZero then some x
  else none

/-- The double of the decimal `digits * 10 ^ exponent`, if the range reaches it: the digits are
rounded to a double, and that is scaled by the power of ten and rounded again.  With at most
fifteen digits and an exponent up to 22 both ways only the last step rounds, and the result is the
nearest double; beyond that it may be a neighbour of it. -/
def ofDecimal? (negative : Bool) (digits : Nat) (exponent : Int) : Option Binary64 := do
  let x ← if digits = 0 then some (zero false) else ofFraction? digits 1
  let y ← x.shiftDecimal? exponent
  some { y with negative }

end Binary64

/-! ### Shortest decimal digits

The digits printed for a double are the fewest that read back as the same double, and of those
the ones nearest to its exact value.  With `n` digits the candidates lie on a grid of powers of
ten; if any point of the grid reads back, one of the two neighbours of the value does, so only
these two are tried, for one digit after another.  Seventeen digits always suffice.
-/

/-- Decimal digits of which the first stands at the power `10 ^ exponent`. -/
structure Scientific where
  digits : Text
  exponent : Int
deriving DecidableEq

namespace Binary64

/-- The power of ten of the first digit of a positive fraction. -/
def decade (num den : Nat) : Int :=
  let e : Int := (Nat.toDigits 10 num).length - (Nat.toDigits 10 den).length
  let (n, d) := scaleFraction 10 num den e
  if d ≤ n then e else e - 1

/-- Whether `c` times the grid width reads back as the double with significand `m`, where the
double itself is `m * up / down` grid widths.  The reals that round to it reach half a unit of the
significand to each side, a quarter unit below a power of two; the ends belong to it exactly when
the significand is even. -/
def readsBack (m : Nat) (exponent : Int) (up down c : Nat) : Bool :=
  let low := 4 * m - (if m = Nat.pow 2 52 && -1074 < exponent then 1 else 2)
  let high := 4 * m + 2
  if m % 2 = 0 then low * up ≤ 4 * c * down && 4 * c * down ≤ high * up
  else low * up < 4 * c * down && 4 * c * down < high * up

/-- The nearest point of a grid that reads back, among the two neighbours of `m * up / down`. -/
def gridPoint? (m : Nat) (exponent : Int) (up down : Nat) : Option Nat :=
  let below := m * up / down
  let nearest := roundDiv (m * up) down
  let other := if nearest = below then below + 1 else below
  if readsBack m exponent up down nearest then some nearest
  else if readsBack m exponent up down other then some other
  else none

/-- The widths of the grid of `count` digits: the double is `significand * up / down` of them. -/
def gridScale (x : Binary64) (first : Int) (count : Nat) : Nat × Nat :=
  let (up, down) := scaleFraction 2 1 1 (-x.exponent)
  scaleFraction 10 up down (first - count + 1)

/-- The digits of a grid point of a grid of `count` digits, without zeros at the end. -/
def ofGridPoint (first : Int) (count point : Nat) : Scientific :=
  let digits := Nat.toDigits 10 point
  ⟨(digits.reverse.dropWhile (· == '0')).reverse, first - count + digits.length⟩

/-- The fewest digits that read back as the double, the nearest of those. -/
def shortest (x : Binary64) : Scientific :=
  if x.significand = 0 then ⟨"0", 0⟩
  else
    let (num, den) := x.magnitude
    let first := decade num den
    let attempt (count : Nat) : Option Scientific :=
      let (up, down) := x.gridScale first count
      (gridPoint? x.significand x.exponent up down).map (ofGridPoint first count)
    let (up, down) := x.gridScale first 17
    ((List.range' 1 16).findSome? attempt).getD
      (ofGridPoint first 17 (roundDiv (x.significand * up) down))

end Binary64

/-! ### Layout of decimal numbers

How the digits of a number are laid out: in plain notation, always with a fraction, while the
first digit stands within a range of powers of ten, and with an exponent outside it.  The exponent
always has a sign and no leading zeros.
-/

/-- The powers of ten of the first digit that are written in plain notation. -/
structure DecimalLayout where
  plainFrom : Int
  plainTo : Int

namespace DecimalLayout

/-- Plain notation with at least one digit on each side of the point. -/
def plain (s : Scientific) : Text :=
  if s.exponent < 0 then "0." ++ List.replicate (-s.exponent - 1).toNat '0' ++ s.digits
  else
    let count := s.exponent.toNat + 1
    let whole := s.digits.take count
    let fraction := s.digits.drop count
    whole ++ List.replicate (count - whole.length) '0' ++ "." ++
      (if fraction.isEmpty then ['0'] else fraction)

/-- One digit, the others behind a point if there are any, and the exponent. -/
def withExponent (s : Scientific) : Text :=
  let later := s.digits.drop 1
  s.digits.take 1 ++ (if later.isEmpty then [] else '.' :: later) ++ "e" ++
    (if s.exponent < 0 then ['-'] else ['+']) ++ Text.ofNat s.exponent.natAbs

/-- The text of a double. -/
def write (layout : DecimalLayout) (x : Binary64) : Text :=
  let s := x.shortest
  (if x.negative then ['-'] else []) ++
    (if layout.plainFrom ≤ s.exponent && s.exponent ≤ layout.plainTo then plain s
     else withExponent s)

end DecimalLayout

end Endpoints
