import GeoTag.Database.IpInfo
import GeoTag.Proofs.DottedQuad
import GeoTag.Proofs.NumberText

/-!
# Numbers of autonomous systems

A flat record names its autonomous system by a text: a mark or none, a plus sign or none, and digits, among
them as many leading zeros as one likes (`IpInfo.SpellsSystem`).  Such a text, and no other, is answered, and
the answer is the one numeral of the number (`IpInfo.number_info_iff`).  A numeral is its own text, with a
mark or without one, so an answer asked again is answered unchanged.
-/

namespace GeoTag

namespace Decimal

/-- The digits are the numeral of a number: they spell it, and no zero stands in front of them. -/
structure NumeralOf (digits : List Char) (n : Nat) : Prop where
  numeral : V4.Numeral digits
  value : ofDigits 0 digits = n

theorem numeral_natural (n : Nat) : V4.Numeral (natural n) :=
  ⟨natural_ne_nil n, fun _ => isDigit_of_mem_natural, natural_eq_zero_of_head?⟩

/-- Every number has one numeral. -/
theorem numeralOf_iff {digits : List Char} {n : Nat} : NumeralOf digits n ↔ digits = natural n := by
  constructor
  · rintro ⟨hnumeral, rfl⟩
    have hdigits := V4.toDigits_ofParts hnumeral
    rw [Address.ofParts, List.foldl_map] at hdigits
    exact hdigits.symm
  · rintro rfl
    exact ⟨numeral_natural n, ofDigits_natural n⟩

end Decimal

namespace IpInfo

/-- A text spells a number of 32 bits: a plus sign or none, and at least one digit. -/
inductive SpellsNumber : List Char → Nat → Prop
  | mk {sign digits : List Char} : sign = [] ∨ sign = ['+'] → digits ≠ [] →
      (∀ c ∈ digits, c.isDigit = true) → Decimal.ofDigits 0 digits < 4294967296 →
      SpellsNumber (sign ++ digits) (Decimal.ofDigits 0 digits)

/-- A text spells the number of an autonomous system, behind the mark `AS` or `as` or without one. -/
inductive SpellsSystem : List Char → Nat → Prop
  | mk {mark text : List Char} {n : Nat} : mark = [] ∨ mark = ['A', 'S'] ∨ mark = ['a', 's'] →
      SpellsNumber text n → SpellsSystem (mark ++ text) n

/-! ## Reading -/

/-- A number starts with a plus sign or a digit. -/
theorem SpellsNumber.exists_cons {text : List Char} {n : Nat} (h : SpellsNumber text n) :
    ∃ c rest, text = c :: rest ∧ (c = '+' ∨ c.isDigit = true) := by
  cases h with
  | @mk sign digits hsign hne hdigits _ =>
    rcases hsign with rfl | rfl
    · obtain ⟨c, rest, rfl⟩ := List.exists_cons_of_ne_nil hne
      exact ⟨c, rest, rfl, .inr (hdigits c List.mem_cons_self)⟩
    · exact ⟨'+', digits, rfl, .inl rfl⟩

/-- The number of 32 bits that digits without a sign spell. -/
def unsigned? (digits : List Char) : Option Nat :=
  if digits ≠ [] ∧ digits.all Char.isDigit ∧ Decimal.ofDigits 0 digits < UInt32.size then
    some (Decimal.ofDigits 0 digits)
  else none

theorem unsigned?_eq_some_iff {digits : List Char} {n : Nat} :
    unsigned? digits = some n ↔ (digits ≠ [] ∧ (∀ c ∈ digits, c.isDigit = true) ∧
      Decimal.ofDigits 0 digits < 4294967296) ∧ Decimal.ofDigits 0 digits = n := by
  unfold unsigned?
  rw [Option.ite_none_right_eq_some, Option.some.injEq, List.all_eq_true]

theorem ofParts_digits (digits : List Char) :
    Address.ofParts 10 (digits.map fun c => c.toNat - '0'.toNat) = Decimal.ofDigits 0 digits :=
  List.foldl_map

theorem number?_plus (digits : List Char) : number? ('+' :: digits) = unsigned? digits := by
  unfold number? unsigned?
  simp only [ofParts_digits]

theorem number?_of_ne_plus {cs : List Char} (h : cs.head? ≠ some '+') :
    number? cs = unsigned? cs := by
  unfold number? unsigned?
  simp only [ofParts_digits]
  split
  · exact absurd rfl h
  · rfl

theorem number?_eq_some_iff {cs : List Char} {n : Nat} : number? cs = some n ↔ SpellsNumber cs n := by
  constructor
  · intro h
    by_cases hplus : cs.head? = some '+'
    · obtain ⟨digits, rfl⟩ := List.head?_eq_some_iff.1 hplus
      rw [number?_plus, unsigned?_eq_some_iff] at h
      obtain ⟨⟨hne, hdigits, hlt⟩, rfl⟩ := h
      exact .mk (.inr rfl) hne hdigits hlt
    · rw [number?_of_ne_plus hplus, unsigned?_eq_some_iff] at h
      obtain ⟨⟨hne, hdigits, hlt⟩, rfl⟩ := h
      exact .mk (.inl rfl) hne hdigits hlt
  · intro h
    cases h with
    | @mk sign digits hsign hne hdigits hlt =>
      have hread := unsigned?_eq_some_iff.2 ⟨⟨hne, hdigits, hlt⟩, rfl⟩
      rcases hsign with rfl | rfl
      · have hplus : digits.head? ≠ some '+' := fun hhead =>
          absurd (hdigits '+' (List.mem_of_head? hhead)) (by decide)
        rw [List.nil_append, number?_of_ne_plus hplus, hread]
      · exact (number?_plus digits).trans hread

theorem unmarked_append {mark text : List Char} {n : Nat}
    (hmark : mark = [] ∨ mark = ['A', 'S'] ∨ mark = ['a', 's']) (h : SpellsNumber text n) :
    unmarked (mark ++ text) = text := by
  obtain ⟨c, rest, rfl, hc⟩ := h.exists_cons
  have hupper : c ≠ 'A' := by
    rintro rfl
    exact absurd hc (by decide)
  have hlower : c ≠ 'a' := by
    rintro rfl
    exact absurd hc (by decide)
  rcases hmark with rfl | rfl | rfl
  · simp [unmarked, hupper, hlower]
  · rfl
  · rfl

theorem exists_mark (cs : List Char) :
    ∃ mark, (mark = [] ∨ mark = ['A', 'S'] ∨ mark = ['a', 's']) ∧ cs = mark ++ unmarked cs := by
  unfold unmarked
  split
  · exact ⟨['A', 'S'], .inr (.inl rfl), rfl⟩
  · exact ⟨['a', 's'], .inr (.inr rfl), rfl⟩
  · exact ⟨[], .inl rfl, rfl⟩

/-- At most one mark is taken off, and a number is read of the rest. -/
theorem number?_unmarked_eq_some_iff {cs : List Char} {n : Nat} :
    number? (unmarked cs) = some n ↔ SpellsSystem cs n := by
  rw [number?_eq_some_iff]
  constructor
  · intro h
    obtain ⟨mark, hmark, hcs⟩ := exists_mark cs
    exact hcs ▸ .mk hmark h
  · rintro ⟨hmark, h⟩
    rwa [unmarked_append hmark h]

/-! ## Answers -/

/-- The record names an autonomous system by a text that spells its number. -/
def Names (record : Json) (n : Nat) : Prop :=
  ∃ text, record.get? "asn" = some (.string text) ∧ SpellsSystem text.toList n

theorem member?_eq_some_iff {name text : String} {record : Json} :
    member? name record = some text ↔ record.get? name = some (.string text) := by
  unfold member?
  rw [Option.bind_eq_some_iff]
  constructor
  · rintro ⟨value, hvalue, htext⟩
    cases value <;> cases htext
    exact hvalue
  · exact fun h => ⟨_, h, rfl⟩

theorem exists_of_info {record : Json} {answer : AsInfo} (h : info record = some answer) :
    ∃ n, Names record n ∧ answer.number = String.ofList (Decimal.natural n) := by
  obtain ⟨n, hnumber, rfl⟩ := Option.map_eq_some_iff.1 h
  obtain ⟨text, hmember, htext⟩ := Option.bind_eq_some_iff.1 hnumber
  exact ⟨n, ⟨text, member?_eq_some_iff.1 hmember, number?_unmarked_eq_some_iff.1 htext⟩, rfl⟩

/-- The record is answered with the numeral of the number that it names. -/
theorem Names.number_info {record : Json} {n : Nat} (h : Names record n) :
    (info record).map AsInfo.number = some (String.ofList (Decimal.natural n)) := by
  obtain ⟨text, hmember, htext⟩ := h
  rw [info, member?_eq_some_iff.2 hmember, Option.bind_some, number?_unmarked_eq_some_iff.2 htext]
  rfl

theorem number_info_eq_some_iff {record : Json} {number : String} :
    (info record).map AsInfo.number = some number ↔
      ∃ n, Names record n ∧ Decimal.NumeralOf number.toList n := by
  simp only [Decimal.numeralOf_iff]
  constructor
  · intro h
    obtain ⟨answer, hanswer, rfl⟩ := Option.map_eq_some_iff.1 h
    obtain ⟨n, hnames, hnumber⟩ := exists_of_info hanswer
    exact ⟨n, hnames, by rw [hnumber, String.toList_ofList]⟩
  · rintro ⟨n, hnames, hnumber⟩
    rw [hnames.number_info, ← hnumber, String.ofList_toList]

theorem SpellsSystem.lt {text : List Char} {n : Nat} (h : SpellsSystem text n) : n < 4294967296 := by
  obtain ⟨-, hnumber⟩ := h
  obtain ⟨-, -, -, hlt⟩ := hnumber
  exact hlt

/-- A numeral of 32 bits spells its number, with a mark or without one. -/
theorem spellsSystem_natural {mark : List Char}
    (hmark : mark = [] ∨ mark = ['A', 'S'] ∨ mark = ['a', 's']) {n : Nat} (h : n < 4294967296) :
    SpellsSystem (mark ++ Decimal.natural n) n := by
  have hvalue := Decimal.ofDigits_natural n
  have hnumber := SpellsNumber.mk (.inl rfl) (Decimal.natural_ne_nil n)
    (fun _ => Decimal.isDigit_of_mem_natural) (hvalue.symm ▸ h)
  rw [List.nil_append, hvalue] at hnumber
  exact .mk hmark hnumber

theorem number_info_of_numeral {record : Json} {n : Nat} (h : n < 4294967296) {mark digits : List Char}
    (hmark : mark = [] ∨ mark = ['A', 'S'] ∨ mark = ['a', 's']) (hdigits : Decimal.NumeralOf digits n)
    (hmember : record.get? "asn" = some (.string (String.ofList (mark ++ digits)))) :
    (info record).map AsInfo.number = some (String.ofList digits) := by
  obtain rfl := Decimal.numeralOf_iff.1 hdigits
  refine Names.number_info ⟨_, hmember, ?_⟩
  rw [String.toList_ofList]
  exact spellsSystem_natural hmark h

/-- A record is answered exactly when it names a system, by a text that spells a number of 32 bits behind a
mark or none, and it is answered with the numeral of that number.  So each of the texts `AS` and a numeral,
`as` and a numeral, and a numeral alone is answered with the numeral, and an answer asked again is answered
unchanged. -/
theorem info_tells_numeral (record : Json) :
    ((info record).isSome = true ↔ ∃ n, Names record n) ∧
    (∀ number : String, (info record).map AsInfo.number = some number ↔
      ∃ n, Names record n ∧ Decimal.NumeralOf number.toList n) ∧
    (∀ (n : UInt32) (digits : List Char), Decimal.NumeralOf digits n.toNat →
      ∀ mark ∈ [[], ['A', 'S'], ['a', 's']],
        record.get? "asn" = some (.string (String.ofList (mark ++ digits))) →
        (info record).map AsInfo.number = some (String.ofList digits)) ∧
    ∀ (other : Json) (number : String), (info other).map AsInfo.number = some number →
      record.get? "asn" = some (.string number) → (info record).map AsInfo.number = some number := by
  refine ⟨?_, fun number => number_info_eq_some_iff, ?_, ?_⟩
  · constructor
    · intro h
      obtain ⟨answer, hanswer⟩ := Option.isSome_iff_exists.1 h
      obtain ⟨n, hnames, -⟩ := exists_of_info hanswer
      exact ⟨n, hnames⟩
    · rintro ⟨n, hnames⟩
      rw [← Option.isSome_map, hnames.number_info, Option.isSome_some]
  · intro n digits hdigits mark hmark hmember
    simp only [List.mem_cons, List.not_mem_nil, or_false] at hmark
    exact number_info_of_numeral n.toNat_lt hmark hdigits hmember
  · intro other number hother hmember
    obtain ⟨n, ⟨text, -, htext⟩, hdigits⟩ := number_info_eq_some_iff.1 hother
    rw [← String.ofList_toList (s := number)] at hmember ⊢
    exact number_info_of_numeral htext.lt (.inl rfl) hdigits hmember

/-- A record whose number has a mark, a sign and leading zeros. -/
def paddedRecord : Json :=
  .object [("name", .string "Padded"), ("asn", .string "as+0004294967295")]

/-- A record that names a system as another record was answered. -/
def answeredRecord : Json := .object [("asn", .string "4294967295")]

/-- The greatest number is answered, and its answer again, and the one behind it is not. -/
theorem info_tells_numeral_greatest :
    (info paddedRecord).map AsInfo.number = some "4294967295" ∧
      (info answeredRecord).map AsInfo.number = some "4294967295" ∧
      Decimal.NumeralOf "4294967295".toList (4294967295 : UInt32).toNat ∧
      (info (.object [("asn", .string "AS4294967295")])).map AsInfo.number = some "4294967295" ∧
      (info (.object [("asn", .string "AS4294967296")])).isSome = false := by
  have hpadded : (info paddedRecord).map AsInfo.number = some "4294967295" := by decide +kernel
  have hdigits : Decimal.NumeralOf "4294967295".toList (4294967295 : UInt32).toNat :=
    Decimal.numeralOf_iff.2 (by decide +kernel)
  refine ⟨hpadded, ?_, hdigits, ?_, by decide +kernel⟩
  · exact (info_tells_numeral answeredRecord).2.2.2 paddedRecord "4294967295" hpadded rfl
  · exact (info_tells_numeral (.object [("asn", .string "AS4294967295")])).2.2.1 4294967295
      "4294967295".toList hdigits ['A', 'S'] (by decide) rfl

end IpInfo

end GeoTag
