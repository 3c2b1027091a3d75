import GeoTag.Proofs.DottedQuad
import GeoTag.Proofs.FloatEquality
import GeoTag.Proofs.JsonGrammar
import Mathlib.Data.List.Basic

/-!
# The text of a float is a numeral

The search for the shortest decimal of a float ends with a positive one (`Decimal.digits_shortest_pos`): the
last grid that is tried is finer than the interval of the reals that round to the float.  The digits of a
positive number have no leading zero, so every layout of them is a numeral of the grammar, and it stands for
the decimal itself (`Json.Number.numeral_render`).
-/

namespace GeoTag

namespace Decimal

/-! ## The last grid has a hit -/

theorem scaleUp_pos (a b : Int) : 0 < scaleUp a b :=
  Nat.mul_pos (Nat.pow_pos (by decide)) (Nat.pow_pos (by decide))

theorem scaleUp_mono (a : Int) {b c : Int} (h : b ≤ c) : scaleUp a b ≤ scaleUp a c := by
  apply Nat.mul_le_mul_left
  apply Nat.pow_le_pow_right (by decide)
  omega

theorem pos_of_gridHit {b : Binary} {e : Int} {d : Nat} (h : gridHit b e = some d) : 0 < d := by
  unfold gridHit at h
  dsimp only at h
  split at h
  · cases h
  · rename_i hbelow _
    simp only [Bool.and_eq_true, decide_eq_true_eq] at hbelow
    exact Option.some.inj h ▸ hbelow.1
  · exact Option.some.inj h ▸ Nat.succ_pos _
  · rename_i hbelow _
    simp only [Bool.and_eq_true, decide_eq_true_eq] at hbelow
    split at h
    · exact Option.some.inj h ▸ hbelow.1
    · exact Option.some.inj h ▸ Nat.succ_pos _

/-- A grid with a step no longer than a quarter of a unit of the significand has a hit, namely the neighbour
above. -/
theorem exists_gridHit {b : Binary} {e : Int}
    (h : scaleUp (2 - b.exponent) e ≤ scaleUp (b.exponent - 2) (-e)) : ∃ d, gridHit b e = some d := by
  generalize hdown : scaleUp (2 - b.exponent) e = down at h
  generalize hup : scaleUp (b.exponent - 2) (-e) = up at h
  have hpos : 0 < up := hup ▸ scaleUp_pos _ _
  have hdownpos : 0 < down := hdown ▸ scaleUp_pos _ _
  have hlow : 4 * b.significand * up < (4 * b.significand * up / down + 1) * down :=
    Nat.lt_mul_of_div_lt (Nat.lt_succ_self _) hdownpos
  have hhigh : (4 * b.significand * up / down + 1) * down < (4 * b.significand + 2) * up := by
    have hfloor := Nat.div_mul_le_self (4 * b.significand * up) down
    rw [Nat.add_mul, Nat.add_mul, Nat.one_mul]
    omega
  have hstart : (4 * b.significand - if b.nearBelow then 1 else 2) * up ≤ 4 * b.significand * up :=
    Nat.mul_le_mul_right up (Nat.sub_le _ _)
  unfold gridHit
  simp only [hdown, hup]
  split
  · rename_i hmiss
    exfalso
    split at hmiss <;>
    · simp only [Bool.and_eq_false_iff, decide_eq_false_iff_not] at hmiss
      omega
  · exact ⟨_, rfl⟩
  · exact ⟨_, rfl⟩
  · split
    · exact ⟨_, rfl⟩
    · exact ⟨_, rfl⟩

/-- A search over grids of which one has a hit finds a positive number. -/
theorem digits_search_pos {b : Binary} {fuel : Nat} {e : Int} (k : Nat) (hk : k < fuel) {d : Nat}
    (h : gridHit b (e - k) = some d) : 0 < (search b fuel e).digits := by
  induction fuel generalizing e k with
  | zero => omega
  | succ fuel ih =>
    rw [search]
    cases hhit : gridHit b e with
    | some found => exact pos_of_gridHit hhit
    | none =>
      cases k with
      | zero =>
        rw [Int.ofNat_zero, Int.sub_zero, hhit] at h
        cases h
      | succ k =>
        refine ih k (by omega) (e := e - 1) ?_
        rwa [Int.sub_sub, Int.add_comm, ← Int.natCast_succ]

/-- The last grid that is tried for a significand of 53 bits. -/
def lastExponent (exponent : Int) : Int := startExponent ⟨0x1fffffffffffff, exponent, false⟩ - 23

/-- The exponents of floats, and the last grid for each of them. -/
theorem fine_lastExponent : ((List.range 2047).all fun k =>
    let exponent : Int := (k : Int) - 1074
    decide (scaleUp (2 - exponent) (lastExponent exponent) ≤
      scaleUp (exponent - 2) (-lastExponent exponent))) = true := by
  decide +kernel

theorem startExponent_le {b : Binary} (h : b.significand < 0x20000000000000) :
    startExponent b - 23 ≤ lastExponent b.exponent := by
  have hlog : b.significand.log2 ≤ 52 := by
    by_cases hzero : b.significand = 0
    · rw [hzero]
      decide
    · exact Nat.le_of_lt_succ ((Nat.log2_lt hzero).2 h)
  have hwidest : (0x1fffffffffffff : Nat).log2 = 52 := by decide +kernel
  simp only [lastExponent, startExponent, hwidest]
  split <;> split <;> omega

/-- The shortest decimal of a float is positive. -/
theorem digits_shortest_pos {b : Binary} (hsignificand : b.significand < 0x20000000000000)
    (hlow : -1074 ≤ b.exponent) (hhigh : b.exponent ≤ 972) : 0 < (shortest b).digits := by
  have hfine := List.all_eq_true.1 fine_lastExponent (b.exponent + 1074).toNat
    (List.mem_range.2 (by omega))
  have hexponent : ((b.exponent + 1074).toNat : Int) - 1074 = b.exponent := by omega
  simp only [hexponent, decide_eq_true_eq] at hfine
  have hstart := startExponent_le hsignificand
  have hgrid : scaleUp (2 - b.exponent) (startExponent b - 23) ≤
      scaleUp (b.exponent - 2) (-(startExponent b - 23)) :=
    calc scaleUp (2 - b.exponent) (startExponent b - 23)
        ≤ scaleUp (2 - b.exponent) (lastExponent b.exponent) := scaleUp_mono _ hstart
      _ ≤ scaleUp (b.exponent - 2) (-lastExponent b.exponent) := hfine
      _ ≤ scaleUp (b.exponent - 2) (-(startExponent b - 23)) := scaleUp_mono _ (by omega)
  obtain ⟨d, hhit⟩ := exists_gridHit hgrid
  exact digits_search_pos 23 (by decide) hhit

theorem digits_shortest_ofFloat_pos (f : Float) : 0 < (shortest (Binary.ofFloat f)).digits := by
  have hfraction : f.toBits.toNat % Binary.leadingBit < 0x10000000000000 :=
    Nat.mod_lt _ (by decide)
  have hscale : f.toBits.toNat / Binary.leadingBit % 2048 < 2048 := Nat.mod_lt _ (by decide)
  have hbit : Binary.leadingBit = 0x10000000000000 := rfl
  unfold Binary.ofFloat
  dsimp only
  split
  · apply digits_shortest_pos <;> dsimp only <;> omega
  · apply digits_shortest_pos <;> dsimp only <;> omega

/-! ## Digits without a leading zero -/

theorem ofDigits_append (start : Nat) (digits more : List Char) :
    ofDigits start (digits ++ more) = ofDigits (ofDigits start digits) more := List.foldl_append

theorem ofDigits_replicate (start count : Nat) :
    ofDigits start (List.replicate count '0') = start * 10 ^ count := by
  induction count generalizing start with
  | zero => simp [ofDigits]
  | succ count ih =>
    have hstep : ofDigits start (List.replicate (count + 1) '0') =
        ofDigits (10 * start + digitValue '0') (List.replicate count '0') := rfl
    have hzero : digitValue '0' = 0 := rfl
    rw [hstep, ih, hzero]
    ring

theorem head?_natural {n : Nat} (h : 0 < n) : (natural n).head? ≠ some '0' := by
  intro hhead
  have hvalue := ofDigits_natural n
  rw [natural_eq_zero_of_head? hhead] at hvalue
  exact absurd hvalue (Nat.ne_of_lt h)

theorem natural_ofDigits {digits : List Char} (hne : digits ≠ [])
    (hdigits : ∀ c ∈ digits, c.isDigit = true) (hlead : digits.head? ≠ some '0') :
    natural (ofDigits 0 digits) = digits := by
  have hnumeral := V4.toDigits_ofParts ⟨hne, hdigits, fun h => absurd h hlead⟩
  rwa [Address.ofParts, List.foldl_map] at hnumeral

end Decimal

namespace Json

open Decimal

/-! ## Layouts of digits -/

/-- The sign of a number as a factor. -/
def signFactor (negative : Bool) : ℚ := if negative then -1 else 1

namespace Literal

variable {negative : Bool} {whole fractionText exponentText : List Char} {fraction : Option (List Char)}
  {exponent : Option Int}

theorem spelled_of_digits (negative : Bool) (hne : whole ≠ []) (hdigits : ∀ c ∈ whole, c.isDigit = true)
    (hlead : whole.head? ≠ some '0') (hfraction : FractionText fraction fractionText)
    (hexponent : ExponentText exponent exponentText) :
    Spelled (sign negative ++ (whole ++ (fractionText ++ exponentText)))
      ⟨negative, whole, fraction, exponent⟩ := by
  have h := Spelled.mk negative (ofDigits 0 whole) hfraction hexponent
  rwa [natural_ofDigits hne hdigits hlead] at h

/-- Digits that are those of a number and zeros behind them, with a point among them and a power of ten. -/
theorem Spelled.numeral {text : List Char} (h : Spelled text ⟨negative, whole, fraction, exponent⟩)
    {n : Nat} {e : Int} (zeros : Nat)
    (hdigits : ofDigits 0 (whole ++ fraction.getD []) = n * 10 ^ zeros)
    (hexponent : e = zeros + exponent.getD 0 - (fraction.getD []).length) :
    Numeral text (signFactor negative * n * 10 ^ e) := by
  refine ⟨_, h, ?_⟩
  rw [ofDigits_append] at hdigits
  have hten : (10 : ℚ) ≠ 0 := by norm_num
  simp only [value, hdigits, hexponent, signFactor, add_sub_assoc, zpow_add₀ hten, zpow_natCast]
  push_cast
  ring

end Literal

section Layout

variable (negative : Bool) {n : Nat} {e lead : Int}

theorem isDigit_of_mem_zeros {count : Nat} {c : Char} (h : c ∈ List.replicate count '0') :
    c.isDigit = true := by
  rw [List.eq_of_mem_replicate h]
  rfl

theorem numeral_plain_small (hlead : lead = e + (natural n).length - 1) (hsmall : lead < 0) :
    Numeral (Literal.sign negative ++ plain (natural n) lead) (signFactor negative * n * 10 ^ e) := by
  generalize hzeros : (-lead - 1).toNat = zeros
  have hdigits : ∀ c ∈ List.replicate zeros '0' ++ natural n, c.isDigit = true :=
    List.forall_mem_append.2 ⟨fun _ => isDigit_of_mem_zeros, fun _ => isDigit_of_mem_natural⟩
  have hne : List.replicate zeros '0' ++ natural n ≠ [] :=
    fun h => natural_ne_nil n (List.append_eq_nil_iff.1 h).2
  have hspelled := Literal.Spelled.mk negative 0 (.some hne hdigits) .none
  rw [List.append_nil] at hspelled
  rw [plain, if_pos hsmall, hzeros, List.append_assoc]
  refine hspelled.numeral 0 ?_ ?_
  · rw [Option.getD_some, ofDigits_append, ofDigits_natural, ofDigits_append, ofDigits_replicate,
      Nat.zero_mul, ofDigits_natural, Nat.pow_zero, Nat.mul_one]
  · simp only [Option.getD_some, Option.getD_none, List.length_append, List.length_replicate]
    omega

/-- Digits with a point somewhere behind the first of them, or with a point and a zero behind all. -/
theorem numeral_pointed {digits : List Char} {size zeros : Nat}
    (hdigits : ∀ c ∈ digits, c.isDigit = true) (hhead : digits.head? ≠ some '0')
    (hsize : 0 < size ∧ size ≤ digits.length) (hvalue : ofDigits 0 digits = n * 10 ^ zeros)
    (hexponent : e = zeros + size - digits.length) :
    Numeral (Literal.sign negative ++
        (digits.take size ++ '.' :: if (digits.drop size).isEmpty then ['0'] else digits.drop size))
      (signFactor negative * n * 10 ^ e) := by
  have hwhole : digits.take size ≠ [] := by
    rw [← List.length_pos_iff, List.length_take]
    omega
  have htake : ∀ c ∈ digits.take size, c.isDigit = true :=
    fun c hc => hdigits c (List.mem_of_mem_take hc)
  have hhead : (digits.take size).head? ≠ some '0' := by
    rwa [List.head?_take, if_neg (by omega)]
  by_cases hfraction : digits.drop size = []
  · have hfull : digits.take size = digits := List.take_of_length_le (List.drop_eq_nil_iff.1 hfraction)
    have hspelled := Literal.spelled_of_digits negative hwhole htake hhead
      (.some (List.cons_ne_nil '0' []) (List.forall_mem_singleton.2 rfl)) .none
    rw [List.append_nil] at hspelled
    rw [hfraction, List.isEmpty_nil, if_pos rfl]
    refine hspelled.numeral (zeros + 1) ?_ ?_
    · have hzero : ['0'] = List.replicate 1 '0' := rfl
      rw [Option.getD_some, hfull, ofDigits_append, hvalue, hzero, ofDigits_replicate, Nat.mul_assoc,
        ← Nat.pow_add]
    · have hle := List.drop_eq_nil_iff.1 hfraction
      simp only [Option.getD_some, Option.getD_none, List.length_singleton]
      omega
  · have hspelled := Literal.spelled_of_digits negative hwhole htake hhead
      (.some hfraction fun c hc => hdigits c (List.mem_of_mem_drop hc)) .none
    rw [List.append_nil] at hspelled
    rw [if_neg (fun h => hfraction (List.isEmpty_iff.1 h))]
    refine hspelled.numeral zeros ?_ ?_
    · rw [Option.getD_some, List.take_append_drop, hvalue]
    · simp only [Option.getD_some, Option.getD_none, List.length_drop]
      omega

theorem numeral_plain_large (hn : 0 < n) (hlead : lead = e + (natural n).length - 1)
    (hlarge : ¬ lead < 0) :
    Numeral (Literal.sign negative ++ plain (natural n) lead) (signFactor negative * n * 10 ^ e) := by
  generalize hsize : lead.toNat + 1 = size
  generalize hzeros : size - (natural n).length = zeros
  have hpos := List.length_pos_iff.2 (natural_ne_nil n)
  rw [plain, if_neg hlarge]
  simp only [hsize, hzeros]
  apply numeral_pointed
  · exact List.forall_mem_append.2 ⟨fun _ => isDigit_of_mem_natural, fun _ => isDigit_of_mem_zeros⟩
  · rw [List.head?_append_of_ne_nil _ (natural_ne_nil n)]
    exact head?_natural hn
  · rw [List.length_append, List.length_replicate]
    omega
  · rw [ofDigits_append, ofDigits_natural, ofDigits_replicate]
  · rw [List.length_append, List.length_replicate]
    omega

theorem exponentText_integer (lead : Int) : Literal.ExponentText (some lead)
    ('e' :: ((if 0 ≤ lead then ['+'] else []) ++ integer lead)) := by
  cases lead with
  | ofNat n =>
    have h := Literal.ExponentText.plain (.inl rfl) (.inr rfl) (natural_ne_nil n)
      fun _ => isDigit_of_mem_natural
    have hpos : 0 ≤ Int.ofNat n := Int.natCast_nonneg n
    rw [ofDigits_natural] at h
    rw [if_pos hpos]
    exact h
  | negSucc n =>
    have h := Literal.ExponentText.minus (.inl rfl) (natural_ne_nil (n + 1))
      fun _ => isDigit_of_mem_natural
    rw [ofDigits_natural] at h
    rw [if_neg (Int.not_le.2 (Int.negSucc_lt_zero n))]
    exact h

theorem numeral_scientific (hn : 0 < n) (hlead : lead = e + (natural n).length - 1) :
    Numeral (Literal.sign negative ++ scientific ['+'] (natural n) lead)
      (signFactor negative * n * 10 ^ e) := by
  generalize hfilled : natural n = digits at hlead
  have hdigits : ∀ c ∈ digits, c.isDigit = true := hfilled ▸ fun _ => isDigit_of_mem_natural
  have hne : digits ≠ [] := hfilled ▸ natural_ne_nil n
  have hhead : digits.head? ≠ some '0' := hfilled ▸ head?_natural hn
  have hvalue : ofDigits 0 digits = n := hfilled ▸ ofDigits_natural n
  obtain ⟨c, more, rfl⟩ := List.exists_cons_of_ne_nil hne
  obtain ⟨hc, hmore⟩ := List.forall_mem_cons.1 hdigits
  have hexponent := exponentText_integer lead
  have hlead' : lead = e + more.length := by
    rw [List.length_cons] at hlead
    omega
  have hone : ∀ d ∈ [c], d.isDigit = true := List.forall_mem_singleton.2 hc
  unfold scientific
  simp only [List.drop_succ_cons, List.drop_zero, List.take_succ_cons, List.take_zero]
  by_cases hfraction : more = []
  · subst hfraction
    have hspelled := Literal.spelled_of_digits negative hne hone hhead .none hexponent
    rw [List.isEmpty_nil, if_pos rfl, List.append_nil]
    refine hspelled.numeral 0 ?_ ?_
    · rw [Option.getD_none, List.append_nil, hvalue, Nat.pow_zero, Nat.mul_one]
    · simp only [Option.getD_some, Option.getD_none, List.length_nil]
      rw [hlead', List.length_nil]
      omega
  · have hspelled := Literal.spelled_of_digits negative (List.cons_ne_nil c []) hone hhead
      (.some hfraction hmore) hexponent
    rw [if_neg (fun h => hfraction (List.isEmpty_iff.1 h)), List.append_assoc]
    refine hspelled.numeral 0 ?_ ?_
    · rw [Option.getD_some, List.singleton_append, hvalue, Nat.pow_zero, Nat.mul_one]
    · simp only [Option.getD_some]
      omega

theorem numeral_digits {d : Digits} (hd : 0 < d.digits) :
    Numeral (Literal.sign negative ++ Layout.record.digits d)
      (signFactor negative * d.digits * 10 ^ d.exponent) := by
  unfold Layout.digits
  dsimp only
  split
  · by_cases hsmall : d.exponent + (natural d.digits).length - 1 < 0
    · exact numeral_plain_small negative rfl hsmall
    · exact numeral_plain_large negative hd rfl hsmall
  · exact numeral_scientific negative hd rfl

theorem numeral_zero : Numeral (Literal.sign negative ++ ['0', '.', '0']) 0 := by
  have hspelled := Literal.Spelled.mk negative 0
    (.some (List.cons_ne_nil '0' []) (List.forall_mem_singleton.2 rfl)) .none
  have hnumeral := hspelled.numeral (n := 0) (e := -1) 0 rfl rfl
  rwa [Nat.cast_zero, mul_zero, zero_mul] at hnumeral

end Layout

/-! ## Numbers -/

/-- The decimal that a number is written as. -/
def Number.written : Number → ℚ
  | .integer value _ => value
  | .float value _ =>
    if value == 0 then 0
    else
      let decimal := shortest (Binary.ofFloat value)
      signFactor (isNegative value) * decimal.digits * 10 ^ decimal.exponent

theorem numeral_integer (i : Int) : Numeral (integer i) i := by
  cases i with
  | ofNat n => exact (IntegerNumeral.mk false n).numeral
  | negSucc n =>
    have h := (IntegerNumeral.mk true (n + 1)).numeral
    rwa [if_pos rfl, Nat.cast_succ, ← Int.negSucc_eq] at h

/-- The text of a number is a numeral, and it stands for the decimal that the number is written as. -/
theorem Number.numeral_render (n : Number) : Numeral n.render n.written := by
  cases n with
  | integer i fits => exact numeral_integer i
  | float f finite =>
    have hsign : ∀ text : List Char,
        (if isNegative f then '-' :: text else text) = Literal.sign (isNegative f) ++ text := by
      intro text
      cases isNegative f <;> rfl
    obtain ⟨hnan, hinf⟩ := Floating.of_isFinite finite
    rw [render, Layout.float, hnan, if_neg Bool.false_ne_true, hinf]
    simp only [if_neg Bool.false_ne_true, hsign, written]
    by_cases hzero : (f == 0) = true
    · rw [if_pos hzero, if_pos hzero]
      exact numeral_zero (isNegative f)
    · rw [if_neg hzero, if_neg hzero]
      exact numeral_digits (isNegative f) (digits_shortest_ofFloat_pos f)

end Json

end GeoTag
