/-!
# Reading a decimal as the nearest float

`Decimal.nearest?` reads a whole text as a float: an optional sign, then digits with an optional
point among or around them and an optional power of ten, or one of the words for an infinity or a
not-a-number in any letter case.  The float is the one nearest to the decimal.
-/

namespace GeoTag

namespace Decimal

/-- The value of a digit. -/
def digitValue (c : Char) : Nat := c.toNat - '0'.toNat

/-- The number that a row of digits spells, after the number already read. -/
def ofDigits (start : Nat) (digits : List Char) : Nat :=
  digits.foldl (fun n c => 10 * n + digitValue c) start

/-- The float nearest to `m * 10 ^ e`.  Beyond the range of floats only the side matters. -/
def nearest (m : Nat) (e : Int) : Float :=
  if m = 0 then 0
  else
    let lead := e + (Nat.toDigits 10 m).length
    if 310 < lead then 1 / 0
    else if lead < -330 then 0
    else if 0 ≤ e then Float.ofScientific m false e.toNat
    else Float.ofScientific m true (-e).toNat

/-- Splits a sign off a text; a text without one is positive. -/
def splitSign : List Char → Bool × List Char
  | '-' :: cs => (true, cs)
  | '+' :: cs => (false, cs)
  | cs => (false, cs)

/-- The power of ten after a decimal: nothing at all, or an `e`, a sign and at least one digit. -/
def exponent? : List Char → Option Int
  | [] => some 0
  | c :: cs =>
    if c = 'e' ∨ c = 'E' then
      let (negative, digits) := splitSign cs
      if digits.isEmpty ∨ ¬ digits.all Char.isDigit then none
      else
        let n := ofDigits 0 digits
        some (if negative then -(n : Int) else n)
    else none

/-- A decimal without a sign. -/
def unsigned? (cs : List Char) : Option Float :=
  let whole := cs.takeWhile Char.isDigit
  let rest := cs.dropWhile Char.isDigit
  let (fraction, rest) :=
    match rest with
    | '.' :: more => (more.takeWhile Char.isDigit, more.dropWhile Char.isDigit)
    | _ => ([], rest)
  if whole.isEmpty ∧ fraction.isEmpty then none
  else
    (exponent? rest).map fun e =>
      nearest (ofDigits (ofDigits 0 whole) fraction) (e - fraction.length)

/-- The float that a whole text spells. -/
def nearest? (cs : List Char) : Option Float :=
  let (negative, rest) := splitSign cs
  let word := rest.map Char.toLower
  let magnitude :=
    if word = ['n', 'a', 'n'] then some (0 / 0)
    else if word = ['i', 'n', 'f'] ∨ word = ['i', 'n', 'f', 'i', 'n', 'i', 't', 'y'] then
      some (1 / 0)
    else unsigned? rest
  magnitude.map fun f => if negative then -f else f

end Decimal

end GeoTag
