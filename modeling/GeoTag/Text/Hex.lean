/-!
# Hexadecimal digits

`hexValue?` reads a digit of either case; `hex4` writes a number of sixteen bits in four lower-case
digits and `hex4?` reads four digits back (`hex4?_hex4`).
-/

namespace GeoTag

namespace Text

/-- The value of a hexadecimal digit of either case. -/
def hexValue? (c : Char) : Option Nat :=
  if c.isDigit then some (c.toNat - '0'.toNat)
  else if 'a' ≤ c ∧ c ≤ 'f' then some (c.toNat - 'a'.toNat + 10)
  else if 'A' ≤ c ∧ c ≤ 'F' then some (c.toNat - 'A'.toNat + 10)
  else none

/-- Four lower-case hexadecimal digits. -/
def hex4 (n : Nat) : List Char :=
  [n / 4096 % 16, n / 256 % 16, n / 16 % 16, n % 16].map Nat.digitChar

/-- The number of four hexadecimal digits. -/
def hex4? (a b c d : Char) : Option Nat := do
  let a ← hexValue? a
  let b ← hexValue? b
  let c ← hexValue? c
  let d ← hexValue? d
  return ((a * 16 + b) * 16 + c) * 16 + d

theorem hexValue?_digitChar {n : Nat} (h : n < 16) : hexValue? (Nat.digitChar n) = some n := by
  have key : ∀ m : Fin 16, hexValue? (Nat.digitChar m.val) = some m.val := by decide
  exact key ⟨n, h⟩

/-- Digits written are read back. -/
theorem hex4?_hex4 {n : Nat} (h : n < 65536) :
    hex4? (Nat.digitChar (n / 4096 % 16)) (Nat.digitChar (n / 256 % 16))
      (Nat.digitChar (n / 16 % 16)) (Nat.digitChar (n % 16)) = some n := by
  have lt : ∀ m : Nat, m % 16 < 16 := fun m => Nat.mod_lt _ (by decide)
  simp only [hex4?, hexValue?_digitChar (lt _), Option.bind_eq_bind, Option.bind_some, pure]
  congr 1
  omega

end Text

end GeoTag
