import GeoTag.Json.Skipper
import GeoTag.Proofs.JsonGrammar
import Mathlib.Data.List.DropRight

/-!
# Values passed over

`Json.Formed` is the grammar of JSON without what the text stands for: arrays and objects at any depth,
numbers of any size, and strings in which four hexadecimal digits name any code, a lone surrogate as well.
Whatever has this form is passed over (`Json.skipValue?_of_formed`).  The induction is on the form; every
bracket costs one character and one unit of fuel.
-/

namespace GeoTag

namespace Json

/-! ## Forms -/

/-- How a text between quotes is formed, whatever it stands for. -/
inductive FormedChars : List Char → Prop
  | nil : FormedChars []
  | plain {c : Char} {text : List Char} : c ≠ '"' → c ≠ '\\' → ¬ c.toNat < 0x20 → FormedChars text →
      FormedChars (c :: text)
  | letter {letter c : Char} {text : List Char} : (letter, c) ∈ escapeLetters → FormedChars text →
      FormedChars ('\\' :: letter :: text)
  | code {a b c d : Char} {n : Nat} {text : List Char} : Text.hex4? a b c d = some n →
      FormedChars text → FormedChars ('\\' :: 'u' :: a :: b :: c :: d :: text)

/-- The name of a member and the colon behind it, in front of a rest. -/
def FormedName (cs rest : List Char) : Prop :=
  ∃ text behind, skipSpace cs = '"' :: (text ++ '"' :: behind) ∧ FormedChars text ∧
    skipSpace behind = ':' :: rest

/-- A value, or what stands between brackets. -/
inductive Piece where
  | value | items | members

/-- The words of the grammar. -/
def words : List (List Char) :=
  [['n', 'u', 'l', 'l'], ['t', 'r', 'u', 'e'], ['f', 'a', 'l', 's', 'e']]

/-- How a piece of a text is formed in front of a rest, with spaces anywhere between tokens. -/
inductive Formed : List Char → Piece → List Char → Prop
  | word {cs word rest : List Char} : word ∈ words → skipSpace cs = word ++ rest → Formed cs .value rest
  | number {cs text rest : List Char} {literal : Literal} : skipSpace cs = text ++ rest →
      Literal.Spelled text literal → Stops rest → Formed cs .value rest
  | string {cs text rest : List Char} : skipSpace cs = '"' :: (text ++ '"' :: rest) →
      FormedChars text → Formed cs .value rest
  | emptyArray {cs inner rest : List Char} : skipSpace cs = '[' :: inner →
      skipSpace inner = ']' :: rest → Formed cs .value rest
  | array {cs inner rest : List Char} : skipSpace cs = '[' :: inner → Formed inner .items rest →
      Formed cs .value rest
  | emptyObject {cs inner rest : List Char} : skipSpace cs = '\x7b' :: inner →
      skipSpace inner = '\x7d' :: rest → Formed cs .value rest
  | object {cs inner rest : List Char} : skipSpace cs = '\x7b' :: inner →
      Formed inner .members rest → Formed cs .value rest
  | lastItem {cs tail rest : List Char} : Formed cs .value tail → skipSpace tail = ']' :: rest →
      Formed cs .items rest
  | nextItem {cs tail more rest : List Char} : Formed cs .value tail → skipSpace tail = ',' :: more →
      Formed more .items rest → Formed cs .items rest
  | lastMember {cs inner tail rest : List Char} : FormedName cs inner → Formed inner .value tail →
      skipSpace tail = '\x7d' :: rest → Formed cs .members rest
  | nextMember {cs inner tail more rest : List Char} : FormedName cs inner →
      Formed inner .value tail → skipSpace tail = ',' :: more → Formed more .members rest →
      Formed cs .members rest

/-! ## What is spelled is formed -/

theorem SpellsChars.formed {text chars : List Char} (h : SpellsChars text chars) : FormedChars text := by
  induction h with
  | nil => exact .nil
  | plain hquote hslash hgraphic _ ih => exact .plain hquote hslash hgraphic ih
  | letter hletter _ ih => exact .letter hletter ih
  | code hhex _ _ ih => exact .code hhex ih
  | pair hhex _ hhex' _ _ ih => exact .code hhex (.code hhex' ih)

theorem SpellsName.formed {cs rest : List Char} {name : String} (h : SpellsName cs name rest) :
    FormedName cs rest := by
  obtain ⟨text, chars, behind, hcs, hchars, -, hbehind⟩ := h
  exact ⟨text, behind, hcs, hchars.formed, hbehind⟩

/-- The kind of a part. -/
def Part.piece {ν : Type} : Part ν → Piece
  | .value _ => .value
  | .items _ => .items
  | .members _ => .members

/-- The text of a value has the form of one. -/
theorem Spells.formed {cs rest : List Char} {part : Part ℚ} (h : Spells Numeral cs part rest) :
    Formed cs part.piece rest := by
  induction h with
  | null hcs => exact .word (by decide : ['n', 'u', 'l', 'l'] ∈ words) hcs
  | true hcs => exact .word (by decide : ['t', 'r', 'u', 'e'] ∈ words) hcs
  | false hcs => exact .word (by decide : ['f', 'a', 'l', 's', 'e'] ∈ words) hcs
  | number hcs hnumeral hstops =>
    obtain ⟨literal, hspelled, -⟩ := hnumeral
    exact .number hcs hspelled hstops
  | string hcs hchars => exact .string hcs hchars.formed
  | emptyArray hcs hinner => exact .emptyArray hcs hinner
  | array hcs _ ih => exact .array hcs ih
  | emptyObject hcs hinner => exact .emptyObject hcs hinner
  | object hcs _ ih => exact .object hcs ih
  | lastItem _ htail ih => exact .lastItem ih htail
  | nextItem _ htail _ ih ihs => exact .nextItem ih htail ihs
  | lastMember hname _ htail ih => exact .lastMember hname.formed ih htail
  | nextMember hname _ htail _ ih ihs => exact .nextMember hname.formed ih htail ihs

/-! ## Spaces -/

theorem skipSpace_skipSpace (cs : List Char) : skipSpace (skipSpace cs) = skipSpace cs :=
  List.dropWhile_idempotent isSpace cs

theorem length_skipSpace_le (cs : List Char) : (skipSpace cs).length ≤ cs.length :=
  (List.dropWhile_sublist isSpace).length_le

/-- What stands behind spaces and a token is shorter. -/
theorem length_lt_of_skipSpace {cs tail : List Char} {c : Char} (h : skipSpace cs = c :: tail) :
    tail.length < cs.length := by
  have hle := length_skipSpace_le cs
  rwa [h, List.length_cons] at hle

theorem skip?_skipSpace (fuel : Nat) (cs : List Char) : skip? fuel (skipSpace cs) = skip? fuel cs := by
  cases fuel with
  | zero => rfl
  | succ fuel => rw [skip?, skip?, skipSpace_skipSpace]

theorem skipItems?_skipSpace (fuel : Nat) (cs : List Char) :
    skipItems? fuel (skipSpace cs) = skipItems? fuel cs := by
  cases fuel with
  | zero => rfl
  | succ fuel => rw [skipItems?, skipItems?, skip?_skipSpace]

theorem skipMembers?_skipSpace (fuel : Nat) (cs : List Char) :
    skipMembers? fuel (skipSpace cs) = skipMembers? fuel cs := by
  cases fuel with
  | zero => rfl
  | succ fuel => rw [skipMembers?, skipMembers?, skipSpace_skipSpace]

/-! ## Passing over -/

theorem skipString?_of_formed {text : List Char} (h : FormedChars text) (rest : List Char) :
    skipString? (text ++ '"' :: rest) = some rest := by
  induction h with
  | nil =>
    rw [List.nil_append, skipString?.eq_def]
    rfl
  | plain hquote hslash hgraphic _ ih =>
    rw [List.cons_append, skipString?.eq_def]
    simp only [if_neg hquote, if_neg hslash, if_neg hgraphic, ih]
  | letter hletter _ ih =>
    rw [escapeLetters] at hletter
    simp only [List.mem_cons, Prod.mk.injEq, List.not_mem_nil, or_false] at hletter
    rcases hletter with ⟨rfl, rfl⟩ | ⟨rfl, rfl⟩ | ⟨rfl, rfl⟩ | ⟨rfl, rfl⟩ | ⟨rfl, rfl⟩ | ⟨rfl, rfl⟩ |
      ⟨rfl, rfl⟩ | ⟨rfl, rfl⟩ <;>
    simp [skipString?, unescape?, ih]
  | code hhex _ ih => simp [skipString?, hhex, ih]

theorem not_formed_items_nil {cs tail rest : List Char} (hcs : skipSpace cs = ']' :: tail) :
    ¬ Formed cs .items rest := by
  have hvalue : ∀ {behind}, ¬ Formed cs .value behind := by
    intro behind h
    cases h with
    | word hword hcs' =>
      simp only [words, List.mem_cons, List.not_mem_nil, or_false] at hword
      rcases hword with rfl | rfl | rfl <;> exact absurd (cons_unique hcs hcs').1 (by decide)
    | number hcs' hspelled _ =>
      obtain ⟨c, digits, rfl, hc⟩ := Literal.start_of_spelled hspelled
      obtain ⟨rfl, -⟩ := cons_unique hcs hcs'
      exact absurd hc (by decide)
    | string hcs' _ => exact absurd (cons_unique hcs hcs').1 (by decide)
    | emptyArray hcs' _ => exact absurd (cons_unique hcs hcs').1 (by decide)
    | array hcs' _ => exact absurd (cons_unique hcs hcs').1 (by decide)
    | emptyObject hcs' _ => exact absurd (cons_unique hcs hcs').1 (by decide)
    | object hcs' _ => exact absurd (cons_unique hcs hcs').1 (by decide)
  intro h
  cases h with
  | lastItem hitem _ => exact hvalue hitem
  | nextItem hitem _ _ => exact hvalue hitem

theorem FormedName.ne_brace {cs rest : List Char} (h : FormedName cs rest) (tail : List Char) :
    skipSpace cs ≠ '\x7d' :: tail := by
  obtain ⟨text, behind, hcs, -⟩ := h
  exact fun hcs' => absurd (cons_unique hcs hcs').1 (by decide)

theorem not_formed_members_nil {cs tail rest : List Char} (hcs : skipSpace cs = '\x7d' :: tail) :
    ¬ Formed cs .members rest := by
  intro h
  cases h with
  | lastMember hname _ _ => exact hname.ne_brace tail hcs
  | nextMember hname _ _ _ => exact hname.ne_brace tail hcs

theorem FormedName.length_lt {cs rest : List Char} (h : FormedName cs rest) :
    rest.length < cs.length := by
  obtain ⟨text, behind, hcs, -, hbehind⟩ := h
  have hname := length_lt_of_skipSpace hcs
  have hcolon := length_lt_of_skipSpace hbehind
  rw [List.length_append, List.length_cons] at hname
  omega

section Steps

variable {fuel : Nat} {cs inner tail more rest : List Char}

theorem skip?_array (hcs : skipSpace cs = '[' :: inner) (hinner : ∀ tail, skipSpace inner ≠ ']' :: tail) :
    skip? (fuel + 1) cs = skipItems? fuel inner := by
  simp only [skip?, hcs, Char.reduceEq, if_false, if_true]
  exact skipItems?_skipSpace fuel inner

theorem skip?_object (hcs : skipSpace cs = '\x7b' :: inner)
    (hinner : ∀ tail, skipSpace inner ≠ '\x7d' :: tail) :
    skip? (fuel + 1) cs = skipMembers? fuel inner := by
  simp only [skip?, hcs, Char.reduceEq, if_false, if_true]
  exact skipMembers?_skipSpace fuel inner

theorem skipItems?_last (hitem : skip? fuel cs = some tail) (htail : skipSpace tail = ']' :: rest) :
    skipItems? (fuel + 1) cs = some rest := by
  simp only [skipItems?, hitem, htail]

theorem skipItems?_next (hitem : skip? fuel cs = some tail) (htail : skipSpace tail = ',' :: more) :
    skipItems? (fuel + 1) cs = skipItems? fuel more := by
  simp only [skipItems?, hitem, htail]

theorem skipMembers?_last (hname : FormedName cs inner) (hvalue : skip? fuel inner = some tail)
    (htail : skipSpace tail = '\x7d' :: rest) : skipMembers? (fuel + 1) cs = some rest := by
  obtain ⟨text, behind, hcs, htext, hbehind⟩ := hname
  simp only [skipMembers?, hcs, skipString?_of_formed htext, hbehind, hvalue, htail]

theorem skipMembers?_next (hname : FormedName cs inner) (hvalue : skip? fuel inner = some tail)
    (htail : skipSpace tail = ',' :: more) :
    skipMembers? (fuel + 1) cs = skipMembers? fuel more := by
  obtain ⟨text, behind, hcs, htext, hbehind⟩ := hname
  simp only [skipMembers?, hcs, skipString?_of_formed htext, hbehind, hvalue, htail]

end Steps

/-- The rest of a text behind a piece. -/
def Piece.skip? : Piece → Nat → List Char → Option (List Char)
  | .value => Json.skip?
  | .items => skipItems?
  | .members => skipMembers?

/-- The piece is not empty, and it is passed over with a unit of fuel for each of its characters. -/
structure Skipped (cs : List Char) (piece : Piece) (rest : List Char) : Prop where
  shorter : rest.length < cs.length
  skip : ∀ {fuel}, cs.length ≤ fuel + rest.length → piece.skip? fuel cs = some rest

/-- Some fuel is left for a piece that is not empty. -/
theorem skipped_of_step {cs rest : List Char} {piece : Piece} (shorter : rest.length < cs.length)
    (h : ∀ {fuel}, cs.length ≤ fuel + 1 + rest.length → piece.skip? (fuel + 1) cs = some rest) :
    Skipped cs piece rest where
  shorter := shorter
  skip {fuel} hfuel := by
    obtain ⟨f, rfl, -⟩ := exists_eq_succ (n := 0) (show 0 + 1 ≤ fuel by omega)
    exact h hfuel

/-- Whatever is formed is passed over.  The induction is on the form. -/
theorem skipped_of_formed {cs rest : List Char} {piece : Piece} (h : Formed cs piece rest) :
    Skipped cs piece rest := by
  induction h with
  | word hword hcs =>
    simp only [words, List.mem_cons, List.not_mem_nil, or_false] at hword
    rcases hword with rfl | rfl | rfl
    all_goals
      have hlength := length_lt_of_skipSpace hcs
      simp only [List.append_eq, List.length_append] at hlength
      exact skipped_of_step (by omega) fun _ => by simp [Piece.skip?, skip?, hcs, readWord?]
  | number hcs hspelled hstops =>
    obtain ⟨c, digits, htext, hc⟩ := Literal.start_of_spelled hspelled
    obtain ⟨-, -, hquote, harray, hobject, hnull, htrue, hfalse⟩ := start_of_number hc
    have hread := Literal.ofText?_of_spelled hspelled hstops
    rw [htext, List.cons_append] at hread hcs
    have hlength := length_lt_of_skipSpace hcs
    rw [List.length_append] at hlength
    refine skipped_of_step (by omega) fun _ => ?_
    rw [Piece.skip?, skip?, hcs]
    simp only [if_neg hquote, if_neg harray, if_neg hobject, if_neg hnull, if_neg htrue, if_neg hfalse,
      hread, Option.map_some]
  | string hcs htext =>
    have hlength := length_lt_of_skipSpace hcs
    rw [List.length_append, List.length_cons] at hlength
    refine skipped_of_step (by omega) fun _ => ?_
    simp [Piece.skip?, skip?, hcs, skipString?_of_formed htext]
  | emptyArray hcs hinner =>
    have hopen := length_lt_of_skipSpace hcs
    have hclose := length_lt_of_skipSpace hinner
    refine skipped_of_step (by omega) fun _ => ?_
    simp [Piece.skip?, skip?, hcs, hinner]
  | array hcs hitems ih =>
    have hopen := length_lt_of_skipSpace hcs
    have hshorter := ih.shorter
    refine skipped_of_step (by omega) fun _ => ?_
    rw [Piece.skip?, skip?_array hcs fun _ hinner => not_formed_items_nil hinner hitems]
    exact ih.skip (by omega)
  | emptyObject hcs hinner =>
    have hopen := length_lt_of_skipSpace hcs
    have hclose := length_lt_of_skipSpace hinner
    refine skipped_of_step (by omega) fun _ => ?_
    simp [Piece.skip?, skip?, hcs, hinner]
  | object hcs hmembers ih =>
    have hopen := length_lt_of_skipSpace hcs
    have hshorter := ih.shorter
    refine skipped_of_step (by omega) fun _ => ?_
    rw [Piece.skip?, skip?_object hcs fun _ hinner => not_formed_members_nil hinner hmembers]
    exact ih.skip (by omega)
  | lastItem hitem htail ih =>
    have hclose := length_lt_of_skipSpace htail
    have hshorter := ih.shorter
    exact skipped_of_step (by omega) fun _ => skipItems?_last (ih.skip (by omega)) htail
  | nextItem hitem htail hitems ih ihs =>
    have hcomma := length_lt_of_skipSpace htail
    have hshorter := ih.shorter
    have hshorter' := ihs.shorter
    refine skipped_of_step (by omega) fun _ => ?_
    exact (skipItems?_next (ih.skip (by omega)) htail).trans (ihs.skip (by omega))
  | lastMember hname hvalue htail ih =>
    have hstart := hname.length_lt
    have hclose := length_lt_of_skipSpace htail
    have hshorter := ih.shorter
    exact skipped_of_step (by omega) fun _ => skipMembers?_last hname (ih.skip (by omega)) htail
  | nextMember hname hvalue htail hmembers ih ihs =>
    have hstart := hname.length_lt
    have hcomma := length_lt_of_skipSpace htail
    have hshorter := ih.shorter
    have hshorter' := ihs.shorter
    refine skipped_of_step (by omega) fun _ => ?_
    exact (skipMembers?_next hname (ih.skip (by omega)) htail).trans (ihs.skip (by omega))

/-- Every value of the grammar is passed over. -/
theorem skipValue?_of_formed {cs rest : List Char} (h : Formed cs .value rest) :
    skipValue? cs = some rest := by
  refine (skipped_of_formed h).skip ?_
  omega

theorem Formed.length_lt {cs rest : List Char} {piece : Piece} (h : Formed cs piece rest) :
    rest.length < cs.length := (skipped_of_formed h).shorter

end Json

end GeoTag
