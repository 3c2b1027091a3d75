import GeoTag.Json.Number

/-!
# Numbers of a JSON text, written and read

`Json.Literal.Spelled` says how the parts of a number are spelled, and a text that is spelled so is taken
apart into these parts wherever no character follows that could go on the number (`Json.Stops`).  In a
compact text a value is followed by the end of the text, a comma or a closing bracket (`Json.Ends`).  A
number reads back (`Json.Number.ReadsBack`) if its text before any such rest is read as that number; every
integer does (`Json.Number.readsBack_integer`).
-/

namespace GeoTag

namespace Decimal

theorem isDigit_of_mem_natural {n : Nat} {c : Char} (h : c ∈ natural n) : c.isDigit = true :=
  Nat.isDigit_of_mem_toDigits (by decide) (by decide) h

theorem natural_ne_nil (n : Nat) : natural n ≠ [] := Nat.toDigits_ne_nil

theorem ofDigits_natural (n : Nat) : ofDigits 0 (natural n) = n := by
  rw [ofDigits, natural]
  exact Nat.ofDigitChars_eq_foldl.symm.trans Nat.ofDigitChars_ten_toDigits

/-- Only the number zero starts with a zero. -/
theorem natural_eq_zero_of_head? {n : Nat} (h : (natural n).head? = some '0') :
    natural n = ['0'] := by
  induction n using Nat.strongRecOn with
  | ind n ih =>
    unfold natural at h ih ⊢
    rw [Nat.toDigits_eq_if (by decide)] at h ⊢
    split at h
    · rename_i hsmall
      rw [if_pos hsmall, ← Option.some.inj h]
    · rename_i hlarge
      exfalso
      have hhead := List.head?_eq_some_head (Nat.toDigits_ne_nil (n := n / 10) (b := 10))
      rw [List.head?_append, hhead, Option.some_or, ← hhead] at h
      have hzero : ofDigits 0 (natural (n / 10)) = 0 := by
        rw [natural, ih (n / 10) (by omega) h]
        rfl
      rw [ofDigits_natural] at hzero
      omega

end Decimal

namespace Json

/-- The text is empty or starts with a character that may follow a value. -/
def Ends (rest : List Char) : Prop := ∀ c ∈ rest.head?, c = ',' ∨ c = ']' ∨ c = '\x7d'

theorem ends_nil : Ends [] := fun _ h => absurd h (Option.not_mem_none _)

theorem ends_cons {c : Char} (h : c = ',' ∨ c = ']' ∨ c = '\x7d') (rest : List Char) :
    Ends (c :: rest) := by
  intro d hd
  rw [List.head?_cons, Option.mem_some_iff] at hd
  exact hd ▸ h

/-- The text starts with no character that could go on a number. -/
def Stops (rest : List Char) : Prop :=
  ∀ c ∈ rest.head?, c.isDigit = false ∧ c ≠ '.' ∧ c ≠ 'e' ∧ c ≠ 'E'

theorem Ends.stops {rest : List Char} (h : Ends rest) : Stops rest := by
  intro c hc
  rcases h c hc with rfl | rfl | rfl <;> decide

theorem stops_cons {c : Char} (h : c.isDigit = false ∧ c ≠ '.' ∧ c ≠ 'e' ∧ c ≠ 'E') (rest : List Char) :
    Stops (c :: rest) := by
  intro d hd
  rw [List.head?_cons, Option.mem_some_iff] at hd
  exact hd ▸ h

namespace Literal

/-! ## How the parts of a number are spelled -/

/-- A fraction is spelled by a point and at least one digit, no fraction by nothing. -/
inductive FractionText : Option (List Char) → List Char → Prop
  | none : FractionText none []
  | some {digits : List Char} : digits ≠ [] → (∀ c ∈ digits, c.isDigit = true) →
      FractionText (some digits) ('.' :: digits)

/-- A power of ten is spelled by a letter, a sign or none, and at least one digit. -/
inductive ExponentText : Option Int → List Char → Prop
  | none : ExponentText none []
  | plain {letter : Char} {sign digits : List Char} : letter = 'e' ∨ letter = 'E' →
      sign = [] ∨ sign = ['+'] → digits ≠ [] → (∀ c ∈ digits, c.isDigit = true) →
      ExponentText (some (Decimal.ofDigits 0 digits)) (letter :: (sign ++ digits))
  | minus {letter : Char} {digits : List Char} : letter = 'e' ∨ letter = 'E' →
      digits ≠ [] → (∀ c ∈ digits, c.isDigit = true) →
      ExponentText (some (-(Decimal.ofDigits 0 digits : Int))) (letter :: '-' :: digits)

/-- The sign in front of a number. -/
def sign (negative : Bool) : List Char := if negative then ['-'] else []

/-- A number is spelled by a minus sign or none, a numeral without a leading zero, a fraction and a power
of ten. -/
inductive Spelled : List Char → Literal → Prop
  | mk (negative : Bool) (n : Nat) {fraction : Option (List Char)} {exponent : Option Int}
      {fractionText exponentText : List Char} : FractionText fraction fractionText →
      ExponentText exponent exponentText →
      Spelled (sign negative ++ (Decimal.natural n ++ (fractionText ++ exponentText)))
        ⟨negative, Decimal.natural n, fraction, exponent⟩

theorem spelled_integer (negative : Bool) (n : Nat) :
    Spelled (sign negative ++ Decimal.natural n) ⟨negative, Decimal.natural n, none, none⟩ := by
  have h := Spelled.mk negative n .none .none
  rwa [List.append_nil, List.append_nil] at h

/-! ## Taking a number apart -/

theorem digits_append {digits rest : List Char} (hdigits : ∀ c ∈ digits, c.isDigit = true)
    (h : ∀ c ∈ rest.head?, c.isDigit = false) :
    (digits ++ rest).takeWhile Char.isDigit = digits ∧
      (digits ++ rest).dropWhile Char.isDigit = rest := by
  rw [List.takeWhile_append_of_pos hdigits, List.dropWhile_append_of_pos hdigits]
  cases rest with
  | nil => exact ⟨List.append_nil digits, rfl⟩
  | cons c rest => simp [h c rfl]

theorem digits?_append {digits rest : List Char} (hne : digits ≠ [])
    (hdigits : ∀ c ∈ digits, c.isDigit = true) (h : ∀ c ∈ rest.head?, c.isDigit = false) :
    digits? (digits ++ rest) = some (digits, rest) := by
  obtain ⟨htake, hdrop⟩ := digits_append hdigits h
  unfold digits?
  dsimp only
  rw [htake, hdrop, if_neg (fun hempty => hne (List.isEmpty_iff.1 hempty))]

theorem whole?_natural (n : Nat) {rest : List Char} (h : ∀ c ∈ rest.head?, c.isDigit = false) :
    whole? (Decimal.natural n ++ rest) = some (Decimal.natural n, rest) := by
  obtain ⟨htake, hdrop⟩ := digits_append (fun _ => Decimal.isDigit_of_mem_natural (n := n)) h
  unfold whole?
  dsimp only
  rw [htake, hdrop, if_neg]
  rw [List.isEmpty_iff, not_or, not_and]
  exact ⟨Decimal.natural_ne_nil n, fun hzero => not_not_intro (Decimal.natural_eq_zero_of_head? hzero)⟩

theorem fraction?_append {fraction : Option (List Char)} {text rest : List Char}
    (hfraction : FractionText fraction text)
    (h : ∀ c ∈ rest.head?, c.isDigit = false ∧ c ≠ '.') :
    fraction? (text ++ rest) = some (fraction, rest) := by
  cases hfraction with
  | none =>
    cases rest with
    | nil => rfl
    | cons c rest => simp [fraction?, (h c rfl).2]
  | some hne hdigits =>
    simp [fraction?, digits?_append hne hdigits fun c hc => (h c hc).1]

theorem splitSign_append {text digits : List Char} (hsign : text = [] ∨ text = ['+'])
    (hdigits : ∀ c ∈ digits, c.isDigit = true) (hne : digits ≠ []) (rest : List Char) :
    Decimal.splitSign (text ++ (digits ++ rest)) = (false, digits ++ rest) := by
  rcases hsign with rfl | rfl
  · obtain ⟨c, digits, rfl⟩ := List.exists_cons_of_ne_nil hne
    have hc := hdigits c List.mem_cons_self
    have hminus : c ≠ '-' := by
      rintro rfl
      cases hc
    have hplus : c ≠ '+' := by
      rintro rfl
      cases hc
    simp [Decimal.splitSign, hminus, hplus]
  · rfl

theorem exponent?_append {exponent : Option Int} {text rest : List Char}
    (hexponent : ExponentText exponent text) (h : Stops rest) :
    exponent? (text ++ rest) = some (exponent, rest) := by
  have hstop : ∀ c ∈ rest.head?, c.isDigit = false := fun c hc => (h c hc).1
  cases hexponent with
  | none =>
    cases rest with
    | nil => rfl
    | cons c rest => simp [exponent?, (h c rfl).2]
  | plain hletter hsign hne hdigits =>
    simp [exponent?, hletter, splitSign_append hsign hdigits hne, digits?_append hne hdigits hstop]
  | minus hletter hne hdigits =>
    simp [exponent?, hletter, Decimal.splitSign, digits?_append hne hdigits hstop]

/-- Behind a fraction there is no digit and no point. -/
theorem head?_exponentText {exponent : Option Int} {text rest : List Char}
    (hexponent : ExponentText exponent text) (h : Stops rest) :
    ∀ c ∈ (text ++ rest).head?, c.isDigit = false ∧ c ≠ '.' := by
  have hletter : ∀ {c : Char}, c = 'e' ∨ c = 'E' → c.isDigit = false ∧ c ≠ '.' := by
    rintro c (rfl | rfl) <;> decide
  intro c hc
  cases hexponent with
  | none => exact ⟨(h c hc).1, (h c hc).2.1⟩
  | plain hmark _ _ _ => exact Option.some.inj hc ▸ hletter hmark
  | minus hmark _ _ => exact Option.some.inj hc ▸ hletter hmark

/-- A spelled number is taken apart into its parts. -/
theorem ofText?_of_spelled {text rest : List Char} {literal : Literal} (hspelled : Spelled text literal)
    (h : Stops rest) : ofText? (text ++ rest) = some (literal, rest) := by
  cases hspelled with
  | mk negative n hfraction hexponent =>
    rename_i fraction exponent fractionText exponentText
    have hbehind := head?_exponentText hexponent h
    have hwhole : whole? (Decimal.natural n ++ (fractionText ++ (exponentText ++ rest))) =
        some (Decimal.natural n, fractionText ++ (exponentText ++ rest)) := by
      apply whole?_natural
      intro c hc
      cases hfraction with
      | none => exact (hbehind c hc).1
      | some _ _ => exact Option.some.inj hc ▸ (by decide)
    have hfractionRead := fraction?_append hfraction hbehind
    have hexponentRead := exponent?_append hexponent h
    cases negative with
    | true => simp [ofText?, sign, hwhole, hfractionRead, hexponentRead]
    | false =>
      cases hdigits : Decimal.natural n with
      | nil => exact absurd hdigits (Decimal.natural_ne_nil n)
      | cons c digits =>
        have hc : c ≠ '-' := by
          rintro rfl
          have hmem : '-' ∈ Decimal.natural n := hdigits ▸ List.mem_cons_self
          exact absurd (Decimal.isDigit_of_mem_natural hmem) (by decide)
        rw [hdigits, List.cons_append] at hwhole
        simp [ofText?, sign, hc, hwhole, hfractionRead, hexponentRead]

end Literal

namespace Number

/-- The text of the number is read as the number wherever it stands. -/
def ReadsBack (n : Number) : Prop :=
  ∀ rest, Ends rest → Number.read? (n.render ++ rest) = some (n, rest)

theorem ofInt?_of_fits {value : Int} (fits : Fits value) :
    ofInt? value = some (.integer value fits) := dif_pos fits

theorem number?_of_fits {value : Int} (fits : Fits value) {negative : Bool} {digits : List Char}
    (hvalue : (if negative then -(Decimal.ofDigits 0 digits : Int) else Decimal.ofDigits 0 digits) =
      value)
    (hzero : ¬(negative = true ∧ (Decimal.ofDigits 0 digits : Int) = 0)) :
    (Literal.mk negative digits none none).number? = some (.integer value fits) := by
  unfold Literal.number?
  dsimp only
  rw [if_pos ⟨rfl, rfl, hzero⟩, hvalue, ofInt?_of_fits fits]

theorem read?_of_ofText? {cs rest : List Char} {literal : Literal} {n : Number}
    (htext : Literal.ofText? cs = some (literal, rest)) (hnumber : literal.number? = some n) :
    read? cs = some (n, rest) := by
  simp [read?, htext, hnumber]

theorem readsBack_integer (value : Int) (fits : Fits value) : (integer value fits).ReadsBack := by
  intro rest h
  cases value with
  | ofNat n =>
    have hvalue : (if false then -(Decimal.ofDigits 0 (Decimal.natural n) : Int)
        else Decimal.ofDigits 0 (Decimal.natural n)) = Int.ofNat n := by
      simp [Decimal.ofDigits_natural]
    have hnumber := number?_of_fits fits hvalue (by simp)
    exact read?_of_ofText? (Literal.ofText?_of_spelled (Literal.spelled_integer false n) h.stops) hnumber
  | negSucc n =>
    have hvalue : (if true then -(Decimal.ofDigits 0 (Decimal.natural (n + 1)) : Int)
        else Decimal.ofDigits 0 (Decimal.natural (n + 1))) = Int.negSucc n := by
      simp [Decimal.ofDigits_natural, Int.negSucc_eq]
    have hnumber := number?_of_fits fits hvalue (by simp [Decimal.ofDigits_natural]; omega)
    exact read?_of_ofText? (Literal.ofText?_of_spelled (Literal.spelled_integer true (n + 1)) h.stops)
      hnumber

/-- A number starts with a minus sign or a digit. -/
theorem exists_cons_of_read? {cs rest : List Char} {n : Number} (h : read? cs = some (n, rest)) :
    ∃ c tail, cs = c :: tail ∧ (c = '-' ∨ c.isDigit = true) := by
  cases cs with
  | nil => cases h
  | cons c tail =>
    refine ⟨c, tail, rfl, Classical.or_iff_not_imp_left.2 fun hc => ?_⟩
    cases hdigit : c.isDigit with
    | true => rfl
    | false => simp [read?, Literal.ofText?, hc, Literal.whole?, hdigit] at h

end Number

end Json

end GeoTag
