import GeoTag.Proofs.LiteralAlphabet

/-!
# Numbers of an address, written and read

An octet in decimal and a group in hexadecimal are read back from their shortest spelling
(`V4.octet?_toDigits`, `V6.group?_toDigits`).  Neither spelling holds a dot or a colon, so neither can
be mistaken for a row of numbers.
-/

namespace GeoTag

/-- A row of written items is read back when each item is. -/
theorem mapM_map_eq_some {α β : Type} {write : α → β} {read : β → Option α} {l : List α}
    (h : ∀ x ∈ l, read (write x) = some x) : (l.map write).mapM read = some l := by
  induction l with
  | nil => rfl
  | cons x l ih =>
    have hrest := ih fun y hy => h y (List.mem_cons_of_mem x hy)
    exact mapM_cons_eq_some_iff.2 ⟨x, l, h x List.mem_cons_self, hrest, rfl⟩

namespace V4

theorem octet?_toDigits {n : Nat} (h : n < 256) : octet? (Nat.toDigits 10 n) = some n := by
  have key : ∀ m : Fin 256, octet? (Nat.toDigits 10 m.val) = some m.val := by decide +kernel
  exact key ⟨n, h⟩

theorem notMem_toDigits {n : Nat} {c : Char} (hc : c.isDigit = false) : c ∉ Nat.toDigits 10 n := by
  intro h
  rw [Nat.isDigit_of_mem_toDigits (by decide) (by decide) h] at hc
  cases hc

end V4

namespace V6

/-- The hexadecimal digits of a number are read back, the last of them first. -/
theorem mapM_hexValue?_toDigits (n : Nat) :
    ∃ digits, (Nat.toDigits 16 n).mapM Text.hexValue? = some digits ∧
      Address.ofParts 16 digits = n := by
  induction n using Nat.strongRecOn with
  | ind n ih =>
    rw [Nat.toDigits_eq_if (by decide)]
    split
    · rename_i hsmall
      refine ⟨[n], ?_, ?_⟩
      · simp [Text.hexValue?_digitChar hsmall]
      · simp [Address.ofParts]
    · rename_i hlarge
      obtain ⟨digits, hread, hvalue⟩ := ih (n / 16) (by omega)
      have hlast : Text.hexValue? (n % 16).digitChar = some (n % 16) :=
        Text.hexValue?_digitChar (Nat.mod_lt _ (by decide))
      refine ⟨digits ++ [n % 16], ?_, ?_⟩
      · simp [List.mapM_append, hread, hlast]
      · rw [Address.ofParts_append_singleton, hvalue]
        omega

theorem length_toDigits_le {n : Nat} (h : n < 65536) : (Nat.toDigits 16 n).length ≤ 4 :=
  (Nat.length_toDigits_le_iff (by decide) (by decide)).2 h

theorem group?_toDigits {n : Nat} (h : n < 65536) : group? (Nat.toDigits 16 n) = some n := by
  have hpos : 0 < (Nat.toDigits 16 n).length := Nat.length_toDigits_pos
  have hlength : (Nat.toDigits 16 n).length ∈ [1, 2, 3, 4] := by
    have hle := length_toDigits_le h
    simp only [List.mem_cons, List.not_mem_nil, or_false]
    omega
  obtain ⟨digits, hread, hvalue⟩ := mapM_hexValue?_toDigits n
  rw [group?, if_pos hlength, hread, Option.map_some, hvalue]

theorem notMem_toDigits {n : Nat} {c : Char} (hc : Text.hexValue? c = none) :
    c ∉ Nat.toDigits 16 n := by
  intro h
  obtain ⟨digits, hread, -⟩ := mapM_hexValue?_toDigits n
  have hsome := isSome_of_mem_of_mapM hread h
  rw [hc] at hsome
  cases hsome

end V6

end GeoTag
