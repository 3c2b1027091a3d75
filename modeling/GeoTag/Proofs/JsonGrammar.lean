import GeoTag.Proofs.ReadBack
import Mathlib.Algebra.Order.Field.Rat
import Mathlib.Tactic.NormNum
import Mathlib.Tactic.Ring

/-!
# The grammar of JSON

`Json.Spells` says which values a text spells, without the reader: spaces may stand between tokens, strings
may hold escapes, numbers are exact, and a name may occur twice in an object (`Json.Exact`).  How numbers are
spelled is a parameter; `Json.Numeral` is the grammar of all numbers, `Json.IntegerNumeral` that of the
integers without a fraction and a power of ten.  A text spells one value at most (`Json.Denotes.unique`).
-/

namespace GeoTag

namespace Json

/-! ## Strings -/

/-- The letters behind a backslash, each with the character that it stands for. -/
def escapeLetters : List (Char × Char) :=
  [('"', '"'), ('\\', '\\'), ('/', '/'), ('b', '\x08'), ('f', '\x0c'), ('n', '\n'), ('r', '\r'),
    ('t', '\t')]

/-- How characters are spelled between the quotes of a string. -/
inductive SpellsChars : List Char → List Char → Prop
  | nil : SpellsChars [] []
  | plain {c : Char} {text chars : List Char} : c ≠ '"' → c ≠ '\\' → ¬ c.toNat < 0x20 →
      SpellsChars text chars → SpellsChars (c :: text) (c :: chars)
  | letter {letter c : Char} {text chars : List Char} : (letter, c) ∈ escapeLetters →
      SpellsChars text chars → SpellsChars ('\\' :: letter :: text) (c :: chars)
  | code {a b c d : Char} {n : Nat} {text chars : List Char} : Text.hex4? a b c d = some n →
      n < 0xD800 ∨ 0xE000 ≤ n → SpellsChars text chars →
      SpellsChars ('\\' :: 'u' :: a :: b :: c :: d :: text) (Char.ofNat n :: chars)
  | pair {a b c d a' b' c' d' : Char} {high low : Nat} {text chars : List Char} :
      Text.hex4? a b c d = some high → 0xD800 ≤ high ∧ high < 0xDC00 →
      Text.hex4? a' b' c' d' = some low → 0xDC00 ≤ low ∧ low < 0xE000 → SpellsChars text chars →
      SpellsChars ('\\' :: 'u' :: a :: b :: c :: d :: '\\' :: 'u' :: a' :: b' :: c' :: d' :: text)
        (Char.ofNat (0x10000 + (high - 0xD800) * 0x400 + (low - 0xDC00)) :: chars)

theorem readChars?_of_spells {text chars : List Char} (h : SpellsChars text chars)
    (seen rest : List Char) :
    readChars? seen (text ++ '"' :: rest) = some (seen.reverse ++ chars, rest) := by
  induction h generalizing seen with
  | nil => rw [List.nil_append, readChars?_quote, List.append_nil]
  | plain hquote hslash hgraphic _ ih =>
    rw [List.cons_append, readChars?_plain hquote hslash hgraphic, ih]
    simp
  | letter hletter _ ih =>
    rw [escapeLetters] at hletter
    simp only [List.mem_cons, Prod.mk.injEq, List.not_mem_nil, or_false] at hletter
    rcases hletter with ⟨rfl, rfl⟩ | ⟨rfl, rfl⟩ | ⟨rfl, rfl⟩ | ⟨rfl, rfl⟩ | ⟨rfl, rfl⟩ | ⟨rfl, rfl⟩ |
      ⟨rfl, rfl⟩ | ⟨rfl, rfl⟩ <;>
    simp [readChars?, unescape?, ih]
  | @code _ _ _ _ n _ _ hhex hplain _ ih =>
    have hhigh : isHighSurrogate n = false := by
      simp only [isHighSurrogate, Bool.and_eq_false_iff, decide_eq_false_iff_not]
      omega
    have hlow : isLowSurrogate n = false := by
      simp only [isLowSurrogate, Bool.and_eq_false_iff, decide_eq_false_iff_not]
      omega
    simp [readChars?, hhex, hhigh, hlow, ih]
  | @pair _ _ _ _ _ _ _ _ high low _ _ hhex hhigh hhex' hlow _ ih =>
    have hhigh : isHighSurrogate high = true := by simpa [isHighSurrogate] using hhigh
    have hlow : isLowSurrogate low = true := by simpa [isLowSurrogate] using hlow
    simp [readChars?, hhex, hhigh, hhex', hlow, ofSurrogates, ih]

theorem readString?_of_spells {text chars : List Char} (h : SpellsChars text chars) (rest : List Char) :
    readString? (text ++ '"' :: rest) = some (String.ofList chars, rest) := by
  rw [readString?, readChars?_of_spells h]
  rfl

/-- A text between quotes spells one row of characters. -/
theorem SpellsChars.unique {text text' chars chars' rest rest' : List Char}
    (h : SpellsChars text chars) (h' : SpellsChars text' chars')
    (heq : text ++ '"' :: rest = text' ++ '"' :: rest') : chars = chars' ∧ rest = rest' := by
  have hread := readChars?_of_spells h [] rest
  rw [heq, readChars?_of_spells h' [] rest'] at hread
  simpa [eq_comm] using hread

theorem spellsChars_escape (c : Char) {text chars : List Char} (h : SpellsChars text chars) :
    SpellsChars (escape c ++ text) (c :: chars) := by
  unfold escape
  iterate 7
    split
    · subst_vars
      exact .letter (by decide) h
  split
  · rename_i hcontrol
    have hlt : c.toNat < 65536 := Nat.lt_trans hcontrol (by decide)
    have hcode := SpellsChars.code (Text.hex4?_hex4 hlt) (Or.inl (Nat.lt_trans hcontrol (by decide))) h
    rwa [Char.ofNat_toNat] at hcode
  · rename_i hquote hslash _ _ _ _ _ hgraphic
    exact .plain hquote hslash hgraphic h

theorem spellsChars_flatMap_escape (chars : List Char) : SpellsChars (chars.flatMap escape) chars := by
  induction chars with
  | nil => exact .nil
  | cons c chars ih => exact spellsChars_escape c ih

/-! ## Numerals -/

/-- The number that a literal stands for, exactly. -/
def Literal.value (literal : Literal) : ℚ :=
  (if literal.negative then -1 else 1) *
    (Decimal.ofDigits (Decimal.ofDigits 0 literal.whole) (literal.fraction.getD []) : ℚ) *
    10 ^ (literal.exponent.getD 0 - ((literal.fraction.getD []).length : ℤ))

/-- How numbers are spelled. -/
def Numeral (text : List Char) (x : ℚ) : Prop :=
  ∃ literal, Literal.Spelled text literal ∧ literal.value = x

/-- How integers are spelled without a fraction and a power of ten. -/
inductive IntegerNumeral : List Char → ℤ → Prop
  | mk (negative : Bool) (n : Nat) :
      IntegerNumeral (Literal.sign negative ++ Decimal.natural n) (if negative then -n else n)

/-- Numerals start like numbers, and where one stops is where any of them stops. -/
structure Lexed {ν : Type} (numeral : List Char → ν → Prop) : Prop where
  start : ∀ {text x}, numeral text x → ∃ c tail, text = c :: tail ∧ (c = '-' ∨ c.isDigit = true)
  unique : ∀ {text text' rest rest' x x'}, numeral text x → numeral text' x' → Stops rest →
    Stops rest' → text ++ rest = text' ++ rest' → x = x' ∧ rest = rest'

theorem Literal.start_of_spelled {text : List Char} {literal : Literal}
    (h : Literal.Spelled text literal) :
    ∃ c tail, text = c :: tail ∧ (c = '-' ∨ c.isDigit = true) := by
  cases h with
  | mk negative n hfraction hexponent =>
    cases negative with
    | true => exact ⟨'-', _, rfl, .inl rfl⟩
    | false =>
      obtain ⟨c, digits, hdigits⟩ := List.exists_cons_of_ne_nil (Decimal.natural_ne_nil n)
      have hmem : c ∈ Decimal.natural n := hdigits ▸ List.mem_cons_self
      exact ⟨c, _, congrArg (· ++ _) hdigits, .inr (Decimal.isDigit_of_mem_natural hmem)⟩

theorem lexed_numeral : Lexed Numeral where
  start := fun ⟨_, hspelled, _⟩ => Literal.start_of_spelled hspelled
  unique := by
    rintro text text' rest rest' _ _ ⟨literal, hspelled, rfl⟩ ⟨literal', hspelled', rfl⟩ hstops hstops' heq
    have hlex := Literal.ofText?_of_spelled hspelled hstops
    rw [heq, Literal.ofText?_of_spelled hspelled' hstops', Option.some.injEq, Prod.mk.injEq] at hlex
    exact ⟨congrArg Literal.value hlex.1.symm, hlex.2.symm⟩

theorem Literal.value_integer (negative : Bool) (n : Nat) :
    Literal.value ⟨negative, Decimal.natural n, none, none⟩ = ((if negative then -n else n : ℤ) : ℚ) := by
  have hzero : Decimal.ofDigits n [] = n := rfl
  cases negative <;> simp [Literal.value, Decimal.ofDigits_natural, hzero]

theorem IntegerNumeral.numeral {text : List Char} {i : ℤ} (h : IntegerNumeral text i) :
    Numeral text i := by
  cases h with
  | mk negative n =>
    exact ⟨_, Literal.spelled_integer negative n, Literal.value_integer negative n⟩

theorem lexed_integerNumeral : Lexed IntegerNumeral where
  start h := lexed_numeral.start h.numeral
  unique h h' hstops hstops' heq := by
    obtain ⟨hvalue, hrest⟩ := lexed_numeral.unique h.numeral h'.numeral hstops hstops' heq
    exact ⟨Int.cast_injective hvalue, hrest⟩

/-! ## Values -/

/-- A JSON value with numbers of a given type; a name may occur twice in an object. -/
inductive Exact (ν : Type) where
  | null
  | bool (value : Bool)
  | number (value : ν)
  | string (value : String)
  | array (items : List (Exact ν))
  | object (members : List (String × Exact ν))

namespace Exact

variable {ν μ : Type}

mutual

/-- The value with other numbers. -/
def map (f : ν → μ) : Exact ν → Exact μ
  | .null => .null
  | .bool b => .bool b
  | .number x => .number (f x)
  | .string s => .string s
  | .array items => .array (mapItems f items)
  | .object members => .object (mapMembers f members)

/-- Items with other numbers. -/
def mapItems (f : ν → μ) : List (Exact ν) → List (Exact μ)
  | [] => []
  | item :: items => map f item :: mapItems f items

/-- Members with other numbers. -/
def mapMembers (f : ν → μ) : List (String × Exact ν) → List (String × Exact μ)
  | [] => []
  | (name, value) :: members => (name, map f value) :: mapMembers f members

end

mutual

/-- The numbers in a value, at any depth. -/
def numbers : Exact ν → List ν
  | .number x => [x]
  | .array items => numbersOfItems items
  | .object members => numbersOfMembers members
  | _ => []

/-- The numbers in all items. -/
def numbersOfItems : List (Exact ν) → List ν
  | [] => []
  | item :: items => numbers item ++ numbersOfItems items

/-- The numbers in all members. -/
def numbersOfMembers : List (String × Exact ν) → List ν
  | [] => []
  | (_, value) :: members => numbers value ++ numbersOfMembers members

end

mutual

/-- No object, at any depth, has a name twice. -/
def Distinct : Exact ν → Prop
  | .array items => DistinctItems items
  | .object members => (Keyed.names members).Nodup ∧ DistinctMembers members
  | _ => True

/-- `Distinct` of each item. -/
def DistinctItems : List (Exact ν) → Prop
  | [] => True
  | item :: items => Distinct item ∧ DistinctItems items

/-- `Distinct` of each member. -/
def DistinctMembers : List (String × Exact ν) → Prop
  | [] => True
  | (_, value) :: members => Distinct value ∧ DistinctMembers members

end

mutual

/-- Other numbers make another value exactly when one of the numbers in it becomes another one. -/
theorem map_eq_map_iff {f g : ν → μ} : ∀ value : Exact ν,
    value.map f = value.map g ↔ ∀ x ∈ value.numbers, f x = g x
  | .null => by simp [map, numbers]
  | .bool _ => by simp [map, numbers]
  | .number _ => by simp [map, numbers]
  | .string _ => by simp [map, numbers]
  | .array items => by simpa [map, numbers] using mapItems_eq_mapItems_iff items
  | .object members => by simpa [map, numbers] using mapMembers_eq_mapMembers_iff members

theorem mapItems_eq_mapItems_iff {f g : ν → μ} : ∀ items : List (Exact ν),
    mapItems f items = mapItems g items ↔ ∀ x ∈ numbersOfItems items, f x = g x
  | [] => by simp [mapItems, numbersOfItems]
  | item :: items => by
    simp only [mapItems, numbersOfItems, List.cons.injEq, List.forall_mem_append,
      map_eq_map_iff item, mapItems_eq_mapItems_iff items]

theorem mapMembers_eq_mapMembers_iff {f g : ν → μ} : ∀ members : List (String × Exact ν),
    mapMembers f members = mapMembers g members ↔ ∀ x ∈ numbersOfMembers members, f x = g x
  | [] => by simp [mapMembers, numbersOfMembers]
  | (name, value) :: members => by
    simp only [mapMembers, numbersOfMembers, List.cons.injEq, Prod.mk.injEq, true_and,
      List.forall_mem_append, map_eq_map_iff value, mapMembers_eq_mapMembers_iff members]

end

end Exact

/-- A value, or what stands between brackets. -/
inductive Part (ν : Type) where
  | value (value : Exact ν)
  | items (items : List (Exact ν))
  | members (members : List (String × Exact ν))

/-- The name of a member and the colon behind it, in front of a rest. -/
def SpellsName (cs : List Char) (name : String) (rest : List Char) : Prop :=
  ∃ text chars behind, skipSpace cs = '"' :: (text ++ '"' :: behind) ∧ SpellsChars text chars ∧
    name = String.ofList chars ∧ skipSpace behind = ':' :: rest

/-- How values are spelled in front of a rest, with spaces anywhere between tokens.  How numbers are spelled
is given. -/
inductive Spells {ν : Type} (numeral : List Char → ν → Prop) : List Char → Part ν → List Char → Prop
  | null {cs rest : List Char} : skipSpace cs = 'n' :: 'u' :: 'l' :: 'l' :: rest →
      Spells numeral cs (.value .null) rest
  | true {cs rest : List Char} : skipSpace cs = 't' :: 'r' :: 'u' :: 'e' :: rest →
      Spells numeral cs (.value (.bool true)) rest
  | false {cs rest : List Char} : skipSpace cs = 'f' :: 'a' :: 'l' :: 's' :: 'e' :: rest →
      Spells numeral cs (.value (.bool false)) rest
  | number {cs text rest : List Char} {x : ν} : skipSpace cs = text ++ rest → numeral text x →
      Stops rest → Spells numeral cs (.value (.number x)) rest
  | string {cs text chars rest : List Char} : skipSpace cs = '"' :: (text ++ '"' :: rest) →
      SpellsChars text chars → Spells numeral cs (.value (.string (String.ofList chars))) rest
  | emptyArray {cs inner rest : List Char} : skipSpace cs = '[' :: inner →
      skipSpace inner = ']' :: rest → Spells numeral cs (.value (.array [])) rest
  | array {cs inner rest : List Char} {items : List (Exact ν)} : skipSpace cs = '[' :: inner →
      Spells numeral inner (.items items) rest → Spells numeral cs (.value (.array items)) rest
  | emptyObject {cs inner rest : List Char} : skipSpace cs = '\x7b' :: inner →
      skipSpace inner = '\x7d' :: rest → Spells numeral cs (.value (.object [])) rest
  | object {cs inner rest : List Char} {members : List (String × Exact ν)} :
      skipSpace cs = '\x7b' :: inner → Spells numeral inner (.members members) rest →
      Spells numeral cs (.value (.object members)) rest
  | lastItem {cs tail rest : List Char} {item : Exact ν} : Spells numeral cs (.value item) tail →
      skipSpace tail = ']' :: rest → Spells numeral cs (.items [item]) rest
  | nextItem {cs tail more rest : List Char} {item : Exact ν} {items : List (Exact ν)} :
      Spells numeral cs (.value item) tail → skipSpace tail = ',' :: more →
      Spells numeral more (.items items) rest → Spells numeral cs (.items (item :: items)) rest
  | lastMember {cs inner tail rest : List Char} {name : String} {value : Exact ν} :
      SpellsName cs name inner → Spells numeral inner (.value value) tail →
      skipSpace tail = '\x7d' :: rest → Spells numeral cs (.members [(name, value)]) rest
  | nextMember {cs inner tail more rest : List Char} {name : String} {value : Exact ν}
      {members : List (String × Exact ν)} :
      SpellsName cs name inner → Spells numeral inner (.value value) tail →
      skipSpace tail = ',' :: more → Spells numeral more (.members members) rest →
      Spells numeral cs (.members ((name, value) :: members)) rest

theorem cons_unique {cs tail tail' : List Char} {c c' : Char} (h : skipSpace cs = c :: tail)
    (h' : skipSpace cs = c' :: tail') : c = c' ∧ tail = tail' :=
  List.cons.inj (h.symm.trans h')

theorem SpellsName.unique {cs rest rest' : List Char} {name name' : String}
    (h : SpellsName cs name rest) (h' : SpellsName cs name' rest') : name = name' ∧ rest = rest' := by
  obtain ⟨text, chars, behind, hcs, hchars, rfl, hbehind⟩ := h
  obtain ⟨text', chars', behind', hcs', hchars', rfl, hbehind'⟩ := h'
  obtain ⟨rfl, rfl⟩ := hchars.unique hchars' (cons_unique hcs hcs').2
  exact ⟨rfl, (cons_unique hbehind hbehind').2⟩

/-- Every character that can start a value, and the values that start so. -/
def Leads {ν : Type} (c : Char) : Exact ν → Prop
  | .null => c = 'n'
  | .bool true => c = 't'
  | .bool false => c = 'f'
  | .number _ => c = '-' ∨ c.isDigit = true
  | .string _ => c = '"'
  | .array _ => c = '['
  | .object _ => c = '\x7b'

section Unambiguous

variable {ν : Type} {numeral : List Char → ν → Prop} {cs rest : List Char}

theorem Spells.leads (lexed : Lexed numeral) {v : Exact ν} (h : Spells numeral cs (.value v) rest) :
    ∃ c tail, skipSpace cs = c :: tail ∧ Leads c v := by
  cases h with
  | number hcs hnumeral _ =>
    obtain ⟨c, tail, rfl, hc⟩ := lexed.start hnumeral
    exact ⟨c, _, hcs, hc⟩
  | null hcs => exact ⟨_, _, hcs, rfl⟩
  | true hcs => exact ⟨_, _, hcs, rfl⟩
  | false hcs => exact ⟨_, _, hcs, rfl⟩
  | string hcs _ => exact ⟨_, _, hcs, rfl⟩
  | emptyArray hcs _ => exact ⟨_, _, hcs, rfl⟩
  | array hcs _ => exact ⟨_, _, hcs, rfl⟩
  | emptyObject hcs _ => exact ⟨_, _, hcs, rfl⟩
  | object hcs _ => exact ⟨_, _, hcs, rfl⟩

theorem Spells.leads_of_eq (lexed : Lexed numeral) {v : Exact ν} {c : Char} {tail : List Char}
    (h : Spells numeral cs (.value v) rest) (hcs : skipSpace cs = c :: tail) : Leads c v := by
  obtain ⟨d, tail', hcs', hlead⟩ := h.leads lexed
  exact (cons_unique hcs hcs').1 ▸ hlead

theorem not_leads_bracket (v : Exact ν) : ¬ Leads ']' v := by
  cases v with
  | bool b => cases b <;> simp [Leads]
  | _ => simp [Leads]

/-- An array with items does not start like one without. -/
theorem Spells.ne_bracket (lexed : Lexed numeral) {items : List (Exact ν)}
    (h : Spells numeral cs (.items items) rest) (tail : List Char) : skipSpace cs ≠ ']' :: tail := by
  intro hcs
  cases h with
  | lastItem hitem _ => exact not_leads_bracket _ (hitem.leads_of_eq lexed hcs)
  | nextItem hitem _ _ => exact not_leads_bracket _ (hitem.leads_of_eq lexed hcs)

theorem SpellsName.ne_brace {name : String} (h : SpellsName cs name rest) (tail : List Char) :
    skipSpace cs ≠ '\x7d' :: tail := by
  obtain ⟨text, chars, behind, hname, -⟩ := h
  exact fun hcs => absurd (cons_unique hcs hname).1 (by decide)

/-- An object with members does not start like one without. -/
theorem Spells.ne_brace {members : List (String × Exact ν)}
    (h : Spells numeral cs (.members members) rest) (tail : List Char) :
    skipSpace cs ≠ '\x7d' :: tail := by
  cases h with
  | lastMember hname _ _ => exact hname.ne_brace tail
  | nextMember hname _ _ _ => exact hname.ne_brace tail

/-- Nothing else of the same kind is spelled there. -/
def Unique (numeral : List Char → ν → Prop) (cs : List Char) (part : Part ν) (rest : List Char) : Prop :=
  match part with
  | .value v => ∀ v' rest', Spells numeral cs (.value v') rest' → v = v' ∧ rest = rest'
  | .items l => ∀ l' rest', Spells numeral cs (.items l') rest' → l = l' ∧ rest = rest'
  | .members l => ∀ l' rest', Spells numeral cs (.members l') rest' → l = l' ∧ rest = rest'

/-- Each text spells one value at most.  The induction is on how it is spelled; the first character of the
text tells the kinds of values apart. -/
theorem Spells.unique (lexed : Lexed numeral) {part : Part ν} (h : Spells numeral cs part rest) :
    Unique numeral cs part rest := by
  induction h with
  | null hcs =>
    intro v' rest' h'
    have hlead := h'.leads_of_eq lexed hcs
    cases h' with
    | null hcs' => simpa using cons_unique hcs hcs'
    | _ => exact absurd hlead (by simp [Leads])
  | true hcs =>
    intro v' rest' h'
    have hlead := h'.leads_of_eq lexed hcs
    cases h' with
    | true hcs' => simpa using cons_unique hcs hcs'
    | _ => exact absurd hlead (by simp [Leads])
  | false hcs =>
    intro v' rest' h'
    have hlead := h'.leads_of_eq lexed hcs
    cases h' with
    | false hcs' => simpa using cons_unique hcs hcs'
    | _ => exact absurd hlead (by simp [Leads])
  | number hcs hnumeral hstops =>
    intro v' rest' h'
    obtain ⟨c, tail, rfl, hc⟩ := lexed.start hnumeral
    have hlead := h'.leads_of_eq lexed hcs
    cases h' with
    | number hcs' hnumeral' hstops' =>
      obtain ⟨rfl, rfl⟩ := lexed.unique hnumeral hnumeral' hstops hstops' (hcs.symm.trans hcs')
      exact ⟨rfl, rfl⟩
    | _ =>
      rw [Leads] at hlead
      subst hlead
      exact absurd hc (by decide)
  | string hcs hchars =>
    intro v' rest' h'
    have hlead := h'.leads_of_eq lexed hcs
    cases h' with
    | string hcs' hchars' =>
      obtain ⟨rfl, rfl⟩ := hchars.unique hchars' (cons_unique hcs hcs').2
      exact ⟨rfl, rfl⟩
    | _ => exact absurd hlead (by simp [Leads])
  | emptyArray hcs hinner =>
    intro v' rest' h'
    have hlead := h'.leads_of_eq lexed hcs
    cases h' with
    | emptyArray hcs' hinner' =>
      obtain ⟨-, rfl⟩ := cons_unique hcs hcs'
      exact ⟨rfl, (cons_unique hinner hinner').2⟩
    | array hcs' hitems =>
      obtain ⟨-, rfl⟩ := cons_unique hcs hcs'
      exact absurd hinner (hitems.ne_bracket lexed _)
    | _ => exact absurd hlead (by simp [Leads])
  | array hcs hitems ih =>
    intro v' rest' h'
    have hlead := h'.leads_of_eq lexed hcs
    cases h' with
    | emptyArray hcs' hinner' =>
      obtain ⟨-, rfl⟩ := cons_unique hcs hcs'
      exact absurd hinner' (hitems.ne_bracket lexed _)
    | array hcs' hitems' =>
      obtain ⟨-, rfl⟩ := cons_unique hcs hcs'
      obtain ⟨rfl, rfl⟩ := ih _ _ hitems'
      exact ⟨rfl, rfl⟩
    | _ => exact absurd hlead (by simp [Leads])
  | emptyObject hcs hinner =>
    intro v' rest' h'
    have hlead := h'.leads_of_eq lexed hcs
    cases h' with
    | emptyObject hcs' hinner' =>
      obtain ⟨-, rfl⟩ := cons_unique hcs hcs'
      exact ⟨rfl, (cons_unique hinner hinner').2⟩
    | object hcs' hmembers =>
      obtain ⟨-, rfl⟩ := cons_unique hcs hcs'
      exact absurd hinner (hmembers.ne_brace _)
    | _ => exact absurd hlead (by simp [Leads])
  | object hcs hmembers ih =>
    intro v' rest' h'
    have hlead := h'.leads_of_eq lexed hcs
    cases h' with
    | emptyObject hcs' hinner' =>
      obtain ⟨-, rfl⟩ := cons_unique hcs hcs'
      exact absurd hinner' (hmembers.ne_brace _)
    | object hcs' hmembers' =>
      obtain ⟨-, rfl⟩ := cons_unique hcs hcs'
      obtain ⟨rfl, rfl⟩ := ih _ _ hmembers'
      exact ⟨rfl, rfl⟩
    | _ => exact absurd hlead (by simp [Leads])
  | lastItem hitem htail ih =>
    intro l' rest' h'
    cases h' with
    | lastItem hitem' htail' =>
      obtain ⟨rfl, rfl⟩ := ih _ _ hitem'
      exact ⟨rfl, (cons_unique htail htail').2⟩
    | nextItem hitem' htail' _ =>
      obtain ⟨rfl, rfl⟩ := ih _ _ hitem'
      exact absurd (cons_unique htail htail').1 (by decide)
  | nextItem hitem htail hitems ih ihs =>
    intro l' rest' h'
    cases h' with
    | lastItem hitem' htail' =>
      obtain ⟨rfl, rfl⟩ := ih _ _ hitem'
      exact absurd (cons_unique htail htail').1 (by decide)
    | nextItem hitem' htail' hitems' =>
      obtain ⟨rfl, rfl⟩ := ih _ _ hitem'
      obtain ⟨-, rfl⟩ := cons_unique htail htail'
      obtain ⟨rfl, rfl⟩ := ihs _ _ hitems'
      exact ⟨rfl, rfl⟩
  | lastMember hname hvalue htail ih =>
    intro l' rest' h'
    cases h' with
    | lastMember hname' hvalue' htail' =>
      obtain ⟨rfl, rfl⟩ := hname.unique hname'
      obtain ⟨rfl, rfl⟩ := ih _ _ hvalue'
      exact ⟨rfl, (cons_unique htail htail').2⟩
    | nextMember hname' hvalue' htail' _ =>
      obtain ⟨rfl, rfl⟩ := hname.unique hname'
      obtain ⟨rfl, rfl⟩ := ih _ _ hvalue'
      exact absurd (cons_unique htail htail').1 (by decide)
  | nextMember hname hvalue htail hmembers ih ihs =>
    intro l' rest' h'
    cases h' with
    | lastMember hname' hvalue' htail' =>
      obtain ⟨rfl, rfl⟩ := hname.unique hname'
      obtain ⟨rfl, rfl⟩ := ih _ _ hvalue'
      exact absurd (cons_unique htail htail').1 (by decide)
    | nextMember hname' hvalue' htail' hmembers' =>
      obtain ⟨rfl, rfl⟩ := hname.unique hname'
      obtain ⟨rfl, rfl⟩ := ih _ _ hvalue'
      obtain ⟨-, rfl⟩ := cons_unique htail htail'
      obtain ⟨rfl, rfl⟩ := ihs _ _ hmembers'
      exact ⟨rfl, rfl⟩

end Unambiguous

/-- The whole text spells the value, with spaces around it. -/
def Denotes {ν : Type} (numeral : List Char → ν → Prop) (text : String) (value : Exact ν) : Prop :=
  ∃ rest, Spells numeral text.toList (.value value) rest ∧ skipSpace rest = []

theorem Denotes.unique {ν : Type} {numeral : List Char → ν → Prop} (lexed : Lexed numeral) {text : String}
    {value value' : Exact ν} (h : Denotes numeral text value) (h' : Denotes numeral text value') :
    value = value' := by
  obtain ⟨rest, hspells, -⟩ := h
  obtain ⟨rest', hspells', -⟩ := h'
  exact (hspells.unique lexed value' rest' hspells').1

/-! ## Other numbers -/

section Map

variable {ν μ : Type} {numeral : List Char → ν → Prop} {numeral' : List Char → μ → Prop} {f : ν → μ}

/-- A part with other numbers. -/
def Part.map (f : ν → μ) : Part ν → Part μ
  | .value v => .value (v.map f)
  | .items l => .items (Exact.mapItems f l)
  | .members l => .members (Exact.mapMembers f l)

/-- Where numerals are numerals of other numbers, a text spells a value with these numbers, too. -/
theorem Spells.map (hnumeral : ∀ text x, numeral text x → numeral' text (f x)) {cs rest : List Char}
    {part : Part ν} (h : Spells numeral cs part rest) : Spells numeral' cs (part.map f) rest := by
  induction h with
  | null hcs => exact .null hcs
  | true hcs => exact .true hcs
  | false hcs => exact .false hcs
  | number hcs hx hstops => exact .number hcs (hnumeral _ _ hx) hstops
  | string hcs hchars => exact .string hcs hchars
  | emptyArray hcs hinner => exact .emptyArray hcs hinner
  | array hcs _ ih => exact .array hcs ih
  | emptyObject hcs hinner => exact .emptyObject hcs hinner
  | object hcs _ ih => exact .object hcs ih
  | lastItem _ htail ih => exact .lastItem ih htail
  | nextItem _ htail _ ih ihs => exact .nextItem ih htail ihs
  | lastMember hname _ htail ih => exact .lastMember hname ih htail
  | nextMember hname _ htail _ ih ihs => exact .nextMember hname ih htail ihs

/-- A text with integers only, seen as a text with any numbers. -/
theorem Denotes.of_integers {text : String} {value : Exact ℤ} (h : Denotes IntegerNumeral text value) :
    Denotes Numeral text (value.map (Int.cast : ℤ → ℚ)) := by
  obtain ⟨rest, hspells, hrest⟩ := h
  have hnumbers : ∀ text i, IntegerNumeral text i → Numeral text ((i : ℤ) : ℚ) :=
    fun _ _ => IntegerNumeral.numeral
  exact ⟨rest, hspells.map hnumbers, hrest⟩

end Map

end Json

end GeoTag
