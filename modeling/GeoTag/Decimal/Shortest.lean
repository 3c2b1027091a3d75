/-!
# The shortest decimal that reads back

A finite positive float is `m * 2 ^ q`.  The reals that round to it form an interval around it,
with its ends exactly when `m` is even.  `shortest` is the decimal `d * 10 ^ e` in that interval
with the fewest digits and, of those, the nearest to the float: it tries one decimal grid after the
other, from the coarse to the fine, and on each grid the two neighbours of the float (`gridHit`).
All arithmetic is exact, on natural numbers.
-/

namespace GeoTag

namespace Decimal

/-- A positive number `significand * 2 ^ exponent` with the interval of reals that round to it. -/
structure Binary where
  /-- The integer factor. -/
  significand : Nat
  /-- The power of two. -/
  exponent : Int
  /-- The number is a power of two above the least one, so the float below is nearer. -/
  nearBelow : Bool

/-- The weight of the leading bit of a significand of 53 bits. -/
def Binary.leadingBit : Nat := 0x10000000000000

/-- The magnitude of a finite float, read from its bits. -/
def Binary.ofFloat (f : Float) : Binary :=
  let bits : Nat := f.toBits.toNat
  let fraction : Nat := bits % leadingBit
  let scale : Nat := bits / leadingBit % 2048
  if scale = 0 then ⟨fraction, -1074, false⟩
  else ⟨leadingBit + fraction, (scale : Int) - 1075, fraction = 0 ∧ 1 < scale⟩

/-- A positive decimal `digits * 10 ^ exponent`. -/
structure Digits where
  /-- The integer factor. -/
  digits : Nat
  /-- The power of ten. -/
  exponent : Int
deriving DecidableEq, Repr

/-- The numerator of `2 ^ a * 10 ^ b` as a fraction. -/
def scaleUp (a b : Int) : Nat := Nat.pow 2 a.toNat * Nat.pow 10 b.toNat

/-- The decimal nearest to the number on the grid of multiples of `10 ^ e`, if one of its two
neighbours there rounds to it; of two at the same distance the even one. -/
def gridHit (b : Binary) (e : Int) : Option Nat :=
  let up := scaleUp (b.exponent - 2) (-e)
  let down := scaleUp (2 - b.exponent) e
  let value := 4 * b.significand * up
  let low := (4 * b.significand - if b.nearBelow then 1 else 2) * up
  let high := (4 * b.significand + 2) * up
  let inside (d : Nat) : Bool :=
    if b.significand % 2 = 0 then low ≤ d * down && d * down ≤ high
    else low < d * down && d * down < high
  let below := value / down
  let above := below + 1
  match decide (0 < below) && inside below, inside above with
  | false, false => none
  | true, false => some below
  | false, true => some above
  | true, true =>
    let short := value - below * down
    let long := above * down - value
    if short < long ∨ (short = long ∧ below % 2 = 0) then some below else some above

/-- The first grid with a hit, from the power of ten `e` downwards. -/
def search (b : Binary) : Nat → Int → Digits
  | 0, e => ⟨0, e⟩
  | fuel + 1, e =>
    match gridHit b e with
    | some d => ⟨d, e⟩
    | none => search b fuel (e - 1)

/-- A power of ten above the number. -/
def startExponent (b : Binary) : Int :=
  let bits : Int := (b.significand.log2 : Int) + 1 + b.exponent
  if 0 ≤ bits then bits * 30103 / 100000 + 1 else bits * 30102 / 100000 + 1

/-- The shortest decimal that rounds to the number; a grid of seventeen digits always has one. -/
def shortest (b : Binary) : Digits := search b 24 (startExponent b)

end Decimal

end GeoTag
