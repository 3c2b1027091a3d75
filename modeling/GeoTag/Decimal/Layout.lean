import GeoTag.Decimal.Shortest

/-!
# Layouts of a float

A `Layout` says how the shortest decimal of a float is written: which magnitudes are written
plainly, and whether a positive power of ten has a plus sign.  Two layouts are in use, one for the
numbers of a record (`Layout.record`) and one for coordinates (`Layout.coordinate`).
-/

namespace GeoTag

namespace Decimal

/-- How a float is written. -/
structure Layout where
  /-- The least power of ten of a leading digit that is written plainly. -/
  plainFrom : Int
  /-- The greatest power of ten of a leading digit that is written plainly. -/
  plainTo : Int
  /-- What stands between the `e` and the digits of a positive power of ten. -/
  plus : List Char

/-- Numbers of a record: `100.0`, `0.00001`, `1.5e-9`, `1e+16`. -/
def Layout.record : Layout := ⟨-5, 15, ['+']⟩

/-- Coordinates: `37.386`, `1.5e-9`, `1e16`. -/
def Layout.coordinate : Layout := ⟨-5, 15, []⟩

/-- The decimal digits of a natural number. -/
def natural (n : Nat) : List Char := Nat.toDigits 10 n

/-- The decimal digits of an integer after its sign. -/
def integer (i : Int) : List Char :=
  match i with
  | .ofNat n => natural n
  | .negSucc n => '-' :: natural (n + 1)

/-- A decimal without a power of ten: at least one digit on either side of the point. -/
def plain (digits : List Char) (lead : Int) : List Char :=
  if lead < 0 then
    ['0', '.'] ++ List.replicate (-lead - 1).toNat '0' ++ digits
  else
    let whole := lead.toNat + 1
    let filled := digits ++ List.replicate (whole - digits.length) '0'
    let fraction := filled.drop whole
    filled.take whole ++ '.' :: (if fraction.isEmpty then ['0'] else fraction)

/-- A decimal with a power of ten: one digit before the point, and no point without a fraction. -/
def scientific (plus digits : List Char) (lead : Int) : List Char :=
  let fraction := digits.drop 1
  digits.take 1 ++ (if fraction.isEmpty then [] else '.' :: fraction) ++ 'e' ::
    ((if 0 ≤ lead then plus else []) ++ integer lead)

/-- A positive decimal in a layout. -/
def Layout.digits (layout : Layout) (d : Digits) : List Char :=
  let digits := natural d.digits
  let lead := d.exponent + digits.length - 1
  if layout.plainFrom ≤ lead ∧ lead ≤ layout.plainTo then plain digits lead
  else scientific layout.plus digits lead

/-- The sign bit of a float, set also for the negative zero. -/
def isNegative (f : Float) : Bool := 0x8000000000000000 ≤ f.toBits.toNat

/-- A float in a layout: its sign, and the shortest decimal that reads back. -/
def Layout.float (layout : Layout) (f : Float) : List Char :=
  if f.isNaN then ['N', 'a', 'N']
  else
    let magnitude :=
      if f.isInf then ['i', 'n', 'f']
      else if f == 0 then ['0', '.', '0']
      else layout.digits (shortest (Binary.ofFloat f))
    if isNegative f then '-' :: magnitude else magnitude

end Decimal

end GeoTag
