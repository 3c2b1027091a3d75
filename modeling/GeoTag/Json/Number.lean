import GeoTag.Decimal.Layout
import GeoTag.Decimal.Nearest
import GeoTag.Json.Basic

/-!
# Numbers of a JSON text

A number is an optional minus sign, digits without a leading zero, an optional fraction and an
optional power of ten.  Digits alone make an integer if 64 bits hold it.  Anything else is a float:
the digits that 64 bits hold are rounded to a float first, and that is multiplied or divided by the
power of ten (`scale?`); a number beyond the floats is refused.
-/

namespace GeoTag

namespace Json

/-- The number of the leading digits that 64 bits hold, after a number already read, and how many
digits those are. -/
def keepDigits (start : Nat) : List Char → Nat × Nat
  | [] => (start, 0)
  | c :: cs =>
    let next := 10 * start + Decimal.digitValue c
    if next < UInt64.size then
      let (value, kept) := keepDigits next cs
      (value, kept + 1)
    else (start, 0)

/-- The power of ten with the given exponent, up to 308. -/
def powerOfTen (exponent : Nat) : Float := Float.ofScientific 1 false exponent

/-- A float times a power of ten; none if the product is beyond the floats. -/
def scale? (f : Float) (e : Int) : Option Float :=
  if 0 ≤ e then
    if e ≤ 308 then
      let product := f * powerOfTen e.toNat
      if product.isInf then none else some product
    else if f == 0 then some f else none
  else if -308 ≤ e then some (f / powerOfTen (-e).toNat)
  else if f == 0 then some f
  else scale? (f / powerOfTen 308) (e + 308)
termination_by (-e).toNat
decreasing_by omega

/-- The parts of a number as they stand in a text. -/
structure Literal where
  /-- A minus sign stands in front. -/
  negative : Bool
  /-- The digits before the point. -/
  whole : List Char
  /-- The digits after the point, if there is one. -/
  fraction : Option (List Char)
  /-- The power of ten, if there is one. -/
  exponent : Option Int

namespace Literal

/-- Digits without a leading zero, and the rest of the text. -/
def whole? (cs : List Char) : Option (List Char × List Char) :=
  let digits := cs.takeWhile Char.isDigit
  if digits.isEmpty ∨ (digits.head? = some '0' ∧ digits ≠ ['0']) then none
  else some (digits, cs.dropWhile Char.isDigit)

/-- At least one digit, and the rest of the text. -/
def digits? (cs : List Char) : Option (List Char × List Char) :=
  let digits := cs.takeWhile Char.isDigit
  if digits.isEmpty then none else some (digits, cs.dropWhile Char.isDigit)

/-- The fraction at the start of a text, if a point stands there. -/
def fraction? (cs : List Char) : Option (Option (List Char) × List Char) :=
  match cs with
  | '.' :: rest => (digits? rest).map fun (digits, rest) => (some digits, rest)
  | _ => some (none, cs)

/-- The power of ten at the start of a text, if an `e` stands there. -/
def exponent? (cs : List Char) : Option (Option Int × List Char) :=
  match cs with
  | [] => some (none, cs)
  | c :: rest =>
    if c = 'e' ∨ c = 'E' then
      let (negative, rest) := Decimal.splitSign rest
      (digits? rest).map fun (digits, rest) =>
        let n := Decimal.ofDigits 0 digits
        (some (if negative then -(n : Int) else n), rest)
    else some (none, cs)

/-- The number at the start of a text, and the rest of the text. -/
def ofText? (cs : List Char) : Option (Literal × List Char) :=
  let (negative, cs) :=
    match cs with
    | '-' :: rest => (true, rest)
    | _ => (false, cs)
  (whole? cs).bind fun (whole, cs) =>
    (fraction? cs).bind fun (fraction, cs) =>
      (exponent? cs).map fun (exponent, cs) => (⟨negative, whole, fraction, exponent⟩, cs)

/-- A number that is read as a float. -/
def float? (literal : Literal) : Option Number :=
  let (significand, kept) := keepDigits 0 literal.whole
  let dropped : Int := literal.whole.length - kept
  let (significand, exponent) :=
    match literal.fraction with
    | none => (significand, dropped)
    | some digits =>
      let (significand, kept) := keepDigits significand digits
      (significand, dropped - kept)
  (scale? significand.toUInt64.toFloat (exponent + literal.exponent.getD 0)).bind fun f =>
    Number.ofFloat? (if literal.negative then -f else f)

/-- The number that a literal stands for: an integer where possible, but a minus sign before a zero
makes a float. -/
def number? (literal : Literal) : Option Number :=
  let value : Int := Decimal.ofDigits 0 literal.whole
  let signed := if literal.negative then -value else value
  if literal.fraction = none ∧ literal.exponent = none ∧ ¬ (literal.negative ∧ value = 0) then
    match Number.ofInt? signed with
    | some n => some n
    | none => literal.float?
  else literal.float?

end Literal

namespace Number

/-- The number at the start of a text, and the rest of the text. -/
def read? (cs : List Char) : Option (Number × List Char) :=
  (Literal.ofText? cs).bind fun (literal, rest) => literal.number?.map fun n => (n, rest)

/-- The text of a number. -/
def render : Number → List Char
  | .integer value _ => Decimal.integer value
  | .float value _ => Decimal.Layout.record.float value

end Number

end Json

end GeoTag
