import GeoTag.Json.Number

/-!
# Equality of floats

`==` on floats compares numbers, not bits.  Two floats are equal when they are the same infinity, when
both are zero, whatever their signs, or when they are the same other number (`Floating.beq_iff`).  So
equality is symmetric and transitive, and a float is equal to itself exactly when it is a number
(`Floating.beq_self_iff`).
-/

namespace GeoTag

namespace Floating

open Float.Model (UnpackedFloat)
open Float.Model.UnpackedFloat (Sign)

/-- One number on both sides: zero may come with either sign. -/
inductive SameNumber : UnpackedFloat → UnpackedFloat → Prop where
  /-- An infinity. -/
  | infinity (sign : Sign) : SameNumber (.infinity sign) (.infinity sign)
  /-- Zero. -/
  | zero (sign other : Sign) : SameNumber (.zero sign) (.zero other)
  /-- Another number. -/
  | finite (sign : Sign) (mantissa : Nat) (exponent : Int) (positive : 0 < mantissa) :
    SameNumber (.finite sign mantissa exponent positive) (.finite sign mantissa exponent positive)

namespace SameNumber

variable {x y z : UnpackedFloat}

theorem symm (h : SameNumber x y) : SameNumber y x := by
  cases h with
  | infinity sign => exact .infinity sign
  | zero sign other => exact .zero other sign
  | finite sign mantissa exponent positive => exact .finite sign mantissa exponent positive

theorem trans (hxy : SameNumber x y) (hyz : SameNumber y z) : SameNumber x z := by
  cases hxy with
  | infinity sign => exact hyz
  | zero sign other =>
    cases hyz with
    | zero other last => exact .zero sign last
  | finite sign mantissa exponent positive => exact hyz

theorem self_iff (x : UnpackedFloat) : SameNumber x x ↔ x.isNaN = false := by
  cases x with
  | infinity sign => exact iff_of_true (.infinity sign) rfl
  | notANumber => exact iff_of_false (fun h => by cases h) (fun h => by cases h)
  | zero sign => exact iff_of_true (.zero sign sign) rfl
  | finite sign mantissa exponent positive =>
    exact iff_of_true (.finite sign mantissa exponent positive) rfl

end SameNumber

/-! ## The comparison -/

theorem compare_sign_self (s : Sign) : compare s s = .eq := by
  cases s <;> rfl

theorem sign_eq_of_compare {s t : Sign} (h : compare s t = .eq) : s = t := by
  cases s <;> cases t <;> first | rfl | cases h

/-- Numbers of one sign are compared by their exponents and then by their mantissas. -/
theorem compare_magnitude_iff (m n : Nat) (d e : Int) :
    (compare d e).then (compare m n) = .eq ↔ d = e ∧ m = n := by
  rw [Ordering.then_eq_eq, Std.compare_eq_iff_eq, Std.compare_eq_iff_eq]

theorem sameNumber_of_compare_finite {s t : Sign} {m n : Nat} {d e : Int} {hm : 0 < m} {hn : 0 < n}
    (h : (UnpackedFloat.finite s m d hm).compare (.finite t n e hn) = some .eq) :
    SameNumber (.finite s m d hm) (.finite t n e hn) := by
  -- Below zero the order is the other way round, which makes no difference to equality.
  cases s with
  | negative =>
    cases t with
    | positive => cases h
    | negative =>
      have hsame := Ordering.swap_eq_eq.1 (Option.some.inj h)
      obtain ⟨rfl, rfl⟩ := (compare_magnitude_iff m n d e).1 hsame
      exact .finite .negative m d hm
  | positive =>
    cases t with
    | negative => cases h
    | positive =>
      obtain ⟨rfl, rfl⟩ := (compare_magnitude_iff m n d e).1 (Option.some.inj h)
      exact .finite .positive m d hm

theorem sameNumber_of_compare {x y : UnpackedFloat} (h : x.compare y = some .eq) :
    SameNumber x y := by
  cases x with
  | notANumber => cases h
  | infinity sign =>
    cases y with
    | infinity other =>
      obtain rfl := sign_eq_of_compare (Option.some.inj h)
      exact .infinity sign
    | _ => cases sign <;> cases h
  | zero sign =>
    cases y with
    | notANumber => cases h
    | zero other => exact .zero sign other
    | _ other => cases other <;> cases h
  | finite sign mantissa exponent positive =>
    cases y with
    | notANumber => cases h
    | infinity other => cases sign <;> cases other <;> cases h
    | zero other => cases sign <;> cases h
    | finite other n e hn => exact sameNumber_of_compare_finite h

theorem SameNumber.compare_eq {x y : UnpackedFloat} (h : SameNumber x y) :
    x.compare y = some .eq := by
  cases h with
  | infinity sign => exact congrArg some (compare_sign_self sign)
  | zero sign other => rfl
  | finite sign m e hm =>
    have hsame := (compare_magnitude_iff m m e e).2 ⟨rfl, rfl⟩
    cases sign with
    | negative => exact congrArg some (Ordering.swap_eq_eq.2 hsame)
    | positive => exact congrArg some hsame

/-! ## Equality -/

/-- Floats are equal when they are one number. -/
theorem beq_iff (f g : Float) :
    (f == g) = true ↔ SameNumber f.toModel.unpack g.toModel.unpack := by
  change (f.toModel.unpack.compare g.toModel.unpack == some .eq) = true ↔ _
  rw [beq_iff_eq]
  exact ⟨sameNumber_of_compare, SameNumber.compare_eq⟩

theorem beq_symm {f g : Float} (h : (f == g) = true) : (g == f) = true :=
  (beq_iff g f).2 ((beq_iff f g).1 h).symm

theorem beq_trans {f g h : Float} (hfg : (f == g) = true) (hgh : (g == h) = true) :
    (f == h) = true :=
  (beq_iff f h).2 (((beq_iff f g).1 hfg).trans ((beq_iff g h).1 hgh))

/-- A float is equal to itself unless it is no number. -/
theorem beq_self_iff (f : Float) : (f == f) = true ↔ f.isNaN = false :=
  (beq_iff f f).trans (SameNumber.self_iff f.toModel.unpack)

theorem of_isFinite {f : Float} (h : f.isFinite = true) : f.isNaN = false ∧ f.isInf = false := by
  change f.toModel.unpack.isFinite = true at h
  change f.toModel.unpack.isNaN = false ∧ f.toModel.unpack.isInf = false
  cases hf : f.toModel.unpack with
  | zero sign => exact ⟨rfl, rfl⟩
  | finite sign mantissa exponent positive => exact ⟨rfl, rfl⟩
  | _ =>
    rw [hf] at h
    cases h

theorem beq_self_of_isFinite {f : Float} (h : f.isFinite = true) : (f == f) = true :=
  (beq_self_iff f).2 (of_isFinite h).1

end Floating

end GeoTag
