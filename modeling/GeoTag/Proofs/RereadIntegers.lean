import GeoTag.Proofs.FloatText
import GeoTag.Proofs.FieldJson

/-!
# Integers read and written again

The compact text of a value stands for `Json.written`, where every number is the decimal that it is written as
(`Json.denotes_toText`).  A value that is read of a text with integers only is written with these integers as
`Json.reread` makes them, and with everything else as it was (`Json.written_of_parse?`).  An integer of 64
bits is reread as itself.
-/

namespace GeoTag

namespace Json

/-! ## The text of a value -/

mutual

/-- The value that a compact text stands for, exactly. -/
def written : Json → Exact ℚ
  | .null => .null
  | .bool b => .bool b
  | .number n => .number n.written
  | .string s => .string s
  | .array items => .array (writtenItems items)
  | .object members => .object (writtenMembers members)

/-- The items that a compact text stands for. -/
def writtenItems : List Json → List (Exact ℚ)
  | [] => []
  | item :: items => written item :: writtenItems items

/-- The members that a compact text stands for. -/
def writtenMembers : List (String × Json) → List (String × Exact ℚ)
  | [] => []
  | (name, value) :: members => (name, written value) :: writtenMembers members

end

/-- No space and no bracket stands in front of a compact text. -/
theorem exists_render_eq_cons (value : Json) :
    ∃ c cs, value.render = c :: cs ∧ isSpace c = false := by
  cases value with
  | null => exact ⟨_, _, rfl, by decide⟩
  | bool b => cases b <;> exact ⟨_, _, rfl, by decide⟩
  | string s => exact ⟨_, _, rfl, by decide⟩
  | array items => exact ⟨_, _, rfl, by decide⟩
  | object members => exact ⟨_, _, rfl, by decide⟩
  | number n =>
    obtain ⟨c, tail, hcons, hc⟩ := lexed_numeral.start n.numeral_render
    exact ⟨c, tail, hcons, (start_of_number hc).1⟩

theorem skipSpace_render (value : Json) (rest : List Char) :
    skipSpace (value.render ++ rest) = value.render ++ rest := by
  obtain ⟨c, cs, hcons, hc⟩ := exists_render_eq_cons value
  rw [hcons, List.cons_append, skipSpace_cons hc]

theorem spellsName_renderString (name : String) (rest : List Char) :
    SpellsName (renderString name ++ ':' :: rest) name rest := by
  refine ⟨_, name.toList, ':' :: rest, ?_, spellsChars_flatMap_escape name.toList,
    String.ofList_toList.symm, skipSpace_cons (by decide) rest⟩
  simp [renderString, skipSpace, isSpace]

theorem spells_renderString (s : String) (rest : List Char) :
    Spells Numeral (renderString s ++ rest) (.value (.string s)) rest := by
  have hstring : skipSpace (renderString s ++ rest) = '"' :: (s.toList.flatMap escape ++ '"' :: rest) := by
    simp [renderString, skipSpace, isSpace]
  have hspells : Spells Numeral (renderString s ++ rest)
      (.value (.string (String.ofList s.toList))) rest :=
    .string hstring (spellsChars_flatMap_escape s.toList)
  rwa [String.ofList_toList] at hspells

mutual

/-- The compact text of a value spells it. -/
theorem spells_render : ∀ (value : Json) {rest : List Char}, Ends rest →
    Spells Numeral (value.render ++ rest) (.value value.written) rest
  | .null, rest, _ => .null (skipSpace_render .null rest)
  | .bool true, rest, _ => .true (skipSpace_render (.bool true) rest)
  | .bool false, rest, _ => .false (skipSpace_render (.bool false) rest)
  | .number n, rest, h => .number (skipSpace_render (.number n) rest) n.numeral_render h.stops
  | .string s, rest, _ => spells_renderString s rest
  | .array [], rest, _ =>
    .emptyArray (skipSpace_render (.array []) rest) (skipSpace_cons (by decide) rest)
  | .array (item :: items), rest, _ =>
    .array (skipSpace_render (.array (item :: items)) rest)
      (spells_renderItems (item :: items) (List.cons_ne_nil item items) rest)
  | .object [], rest, _ =>
    .emptyObject (skipSpace_render (.object []) rest) (skipSpace_cons (by decide) rest)
  | .object (member :: members), rest, _ =>
    .object (skipSpace_render (.object (member :: members)) rest)
      (spells_renderMembers (member :: members) (List.cons_ne_nil member members) rest)

theorem spells_renderItems : ∀ items : List Json, items ≠ [] → ∀ rest : List Char,
    Spells Numeral (renderItems items ++ rest) (.items (writtenItems items)) rest
  | [], hne, _ => absurd rfl hne
  | [item], _, rest => by
    have hitem := spells_render item (ends_cons (c := ']') (by simp) rest)
    rw [renderItems, List.append_assoc]
    exact .lastItem hitem (skipSpace_cons (by decide) rest)
  | item :: next :: items, _, rest => by
    have hitem := spells_render item
      (ends_cons (c := ',') (by simp) (renderItems (next :: items) ++ rest))
    have hitems := spells_renderItems (next :: items) (List.cons_ne_nil next items) rest
    rw [renderItems, List.append_assoc]
    · exact .nextItem hitem (skipSpace_cons (by decide) _) hitems
    · exact List.cons_ne_nil next items

theorem spells_renderMembers : ∀ members : List (String × Json), members ≠ [] → ∀ rest : List Char,
    Spells Numeral (renderMembers members ++ rest) (.members (writtenMembers members)) rest
  | [], hne, _ => absurd rfl hne
  | [(name, value)], _, rest => by
    have hvalue := spells_render value (ends_cons (c := '\x7d') (by simp) rest)
    simp only [renderMembers, List.append_assoc, List.cons_append, List.nil_append]
    exact .lastMember (spellsName_renderString name _) hvalue (skipSpace_cons (by decide) rest)
  | (name, value) :: next :: members, _, rest => by
    have hvalue := spells_render value
      (ends_cons (c := ',') (by simp) (renderMembers (next :: members) ++ rest))
    have hmembers := spells_renderMembers (next :: members) (List.cons_ne_nil next members) rest
    simp only [renderMembers, List.append_assoc, List.cons_append]
    exact .nextMember (spellsName_renderString name _) hvalue (skipSpace_cons (by decide) _) hmembers

end

/-- The compact text of a value stands for it. -/
theorem denotes_toText (value : Json) : Denotes Numeral value.toText value.written := by
  refine ⟨[], ?_, rfl⟩
  have hspells := value.spells_render ends_nil
  rw [List.append_nil] at hspells
  rwa [toText, String.toList_ofList]

/-! ## Integers read -/

/-- The decimal that an integer is written as after it was read. -/
def reread (i : ℤ) : ℚ :=
  match (Literal.mk (decide (i < 0)) (Decimal.natural i.natAbs) none none).number? with
  | some n => n.written
  | none => i

theorem reread_of_fits {i : ℤ} (h : Number.Fits i) : reread i = i := by
  have hvalue : (if decide (i < 0) = true then -(Decimal.ofDigits 0 (Decimal.natural i.natAbs) : Int)
      else Decimal.ofDigits 0 (Decimal.natural i.natAbs)) = i := by
    rw [Decimal.ofDigits_natural]
    split
    · rename_i hneg
      have hneg := of_decide_eq_true hneg
      omega
    · rename_i hpos
      have hpos := of_decide_eq_false (Bool.eq_false_of_not_eq_true hpos)
      omega
  have hnumber := Number.number?_of_fits h hvalue (by
    rw [Decimal.ofDigits_natural]
    simp
    omega)
  rw [reread, hnumber]
  rfl

/-- A minus sign before a zero makes a float that is zero. -/
theorem number?_minus_zero : (Literal.mk true (Decimal.natural 0) none none).number?.map
    (fun n => n.same (.float 0 rfl)) = some true := by
  decide +kernel

theorem written_of_same_zero {n : Number} (h : n.same (.float 0 rfl) = true) : n.written = 0 := by
  cases n with
  | integer i fits => cases h
  | float f finite =>
    have hzero : (f == 0) = true := h
    rw [Number.written, if_pos hzero]

theorem written_of_number? {negative : Bool} {n : Nat} {number : Number}
    (h : (Literal.mk negative (Decimal.natural n) none none).number? = some number) :
    number.written = reread (if negative then -n else n) := by
  cases negative with
  | false =>
    have hsign : decide ((n : ℤ) < 0) = false := decide_eq_false (Int.not_lt.2 (Int.natCast_nonneg n))
    rw [if_neg Bool.false_ne_true, reread, hsign, Int.natAbs_natCast, h]
  | true =>
    by_cases hzero : n = 0
    · subst hzero
      have hminus := number?_minus_zero
      rw [h, Option.map_some, Option.some.injEq] at hminus
      rw [written_of_same_zero hminus, if_pos rfl, Nat.cast_zero, neg_zero, reread_of_fits (by decide),
        Int.cast_zero]
    · have hsign : decide (-(n : ℤ) < 0) = true := decide_eq_true (by omega)
      rw [if_pos rfl, reread, hsign, Int.natAbs_neg, Int.natAbs_natCast, h]

/-! ## Values read -/

/-- Whatever is read there ends where the spelling ends, and is written with the integers as they are
reread. -/
def ReadsAs (cs : List Char) (part : Part ℤ) (rest : List Char) : Prop :=
  match part with
  | .value v => ∀ fuel limit value rest', readValue? fuel limit cs = some (value, rest') →
      rest' = rest ∧ (v.Distinct → value.written = v.map reread)
  | .items l => ∀ fuel limit seen value rest', readItems? fuel limit seen cs = some (value, rest') →
      rest' = rest ∧ ∃ items, value = .array (seen.reverse ++ items) ∧
        (Exact.DistinctItems l → writtenItems items = Exact.mapItems reread l)
  | .members l => ∀ fuel limit seen value rest', readMembers? fuel limit seen cs = some (value, rest') →
      rest' = rest ∧ ∃ members : List (String × Json),
        value = .object (members.foldl (fun entries p => Keyed.put p.1 p.2 entries) seen) ∧
        Keyed.names members = Keyed.names l ∧
        (Exact.DistinctMembers l → writtenMembers members = Exact.mapMembers reread l)

/-! ### Steps of the reader -/

section Steps

variable {fuel limit : Nat} {cs inner rest : List Char} {value : Json}

theorem of_readValue?_array (hcs : skipSpace cs = '[' :: inner)
    (hinner : ∀ tail, skipSpace inner ≠ ']' :: tail)
    (h : readValue? (fuel + 1) limit cs = some (value, rest)) :
    ∃ depth, readItems? fuel depth [] inner = some (value, rest) := by
  rw [readValue?, hcs] at h
  simp only [Char.reduceEq, if_false, if_true] at h
  split at h
  · cases h
  · rename_i htail
    exact absurd htail (hinner _)
  · exact ⟨_, h⟩

theorem of_readValue?_object (hcs : skipSpace cs = '\x7b' :: inner)
    (hinner : ∀ tail, skipSpace inner ≠ '\x7d' :: tail)
    (h : readValue? (fuel + 1) limit cs = some (value, rest)) :
    ∃ depth, readMembers? fuel depth [] inner = some (value, rest) := by
  rw [readValue?, hcs] at h
  simp only [Char.reduceEq, if_false, if_true] at h
  split at h
  · cases h
  · rename_i htail
    exact absurd htail (hinner _)
  · exact ⟨_, h⟩

theorem of_readItems? {seen : List Json}
    (h : readItems? (fuel + 1) limit seen cs = some (value, rest)) :
    ∃ item tail, readValue? fuel limit cs = some (item, tail) ∧
      ((∃ more, skipSpace tail = ',' :: more ∧
          readItems? fuel limit (item :: seen) more = some (value, rest)) ∨
        (skipSpace tail = ']' :: rest ∧ value = .array (item :: seen).reverse)) := by
  rw [readItems?] at h
  split at h
  · cases h
  · rename_i item tail hitem
    refine ⟨item, tail, hitem, ?_⟩
    split at h
    · rename_i more htail
      exact .inl ⟨more, htail, h⟩
    · rename_i htail
      cases h
      exact .inr ⟨htail, rfl⟩
    · cases h

theorem of_readMembers? {name : String} (hname : SpellsName cs name inner)
    {seen : List (String × Json)}
    (h : readMembers? (fuel + 1) limit seen cs = some (value, rest)) :
    ∃ member tail, readValue? fuel limit inner = some (member, tail) ∧
      ((∃ more, skipSpace tail = ',' :: more ∧
          readMembers? fuel limit (Keyed.put name member seen) more = some (value, rest)) ∨
        (skipSpace tail = '\x7d' :: rest ∧ value = .object (Keyed.put name member seen))) := by
  obtain ⟨text, chars, behind, hcs, hchars, rfl, hbehind⟩ := hname
  rw [readMembers?, hcs] at h
  simp only [readString?_of_spells hchars, hbehind] at h
  split at h
  · cases h
  · rename_i member tail hmember
    refine ⟨member, tail, hmember, ?_⟩
    split at h
    · rename_i more htail
      exact .inl ⟨more, htail, h⟩
    · rename_i htail
      cases h
      exact .inr ⟨htail, rfl⟩
    · cases h

end Steps

theorem readsAs_value {cs rest : List Char} {v : Exact ℤ}
    (h : ∀ fuel limit value rest', readValue? (fuel + 1) limit cs = some (value, rest') →
      rest' = rest ∧ (v.Distinct → value.written = v.map reread)) : ReadsAs cs (.value v) rest := by
  rintro (_ | fuel) limit value rest' hread
  · cases hread
  · exact h fuel limit value rest' hread

theorem readsAs_leaf {cs rest : List Char} {v : Exact ℤ} (value : Json)
    (h : ∀ fuel limit found, readValue? (fuel + 1) limit cs = some found → found = (value, rest))
    (hwritten : value.written = v.map reread) : ReadsAs cs (.value v) rest := by
  refine readsAs_value fun fuel limit value' rest' hread => ?_
  cases h fuel limit _ hread
  exact ⟨rfl, fun _ => hwritten⟩

/-- What is read of a text is what stands there, with the integers as they are reread.  The induction is on
how the text spells it; each reading is a step of the reader. -/
theorem readsAs_of_spells {cs rest : List Char} {part : Part ℤ}
    (h : Spells IntegerNumeral cs part rest) : ReadsAs cs part rest := by
  induction h with
  | null hcs =>
    refine readsAs_leaf .null (fun fuel limit found hread => ?_) rfl
    simpa [readValue?, hcs, readWord?, eq_comm] using hread
  | true hcs =>
    refine readsAs_leaf (.bool true) (fun fuel limit found hread => ?_) rfl
    simpa [readValue?, hcs, readWord?, eq_comm] using hread
  | false hcs =>
    refine readsAs_leaf (.bool false) (fun fuel limit found hread => ?_) rfl
    simpa [readValue?, hcs, readWord?, eq_comm] using hread
  | number hcs hnumeral hstops =>
    obtain ⟨c, tail, htext, hc⟩ := lexed_integerNumeral.start hnumeral
    obtain ⟨-, -, hquote, harray, hobject, hnull, htrue, hfalse⟩ := start_of_number hc
    refine readsAs_value fun fuel limit value rest' hread => ?_
    cases hnumeral with
    | mk negative n =>
      rw [readValue?, hcs, htext, List.cons_append] at hread
      simp only [if_neg hquote, if_neg harray, if_neg hobject, if_neg hnull, if_neg htrue,
        if_neg hfalse] at hread
      rw [← List.cons_append, ← htext, Number.read?,
        Literal.ofText?_of_spelled (Literal.spelled_integer negative n) hstops] at hread
      obtain ⟨⟨number, after⟩, hnumber, heq⟩ := Option.map_eq_some_iff.1 hread
      obtain ⟨number', hnumber', heq'⟩ := Option.map_eq_some_iff.1 hnumber
      obtain ⟨rfl, rfl⟩ := Prod.mk.inj heq'
      obtain ⟨rfl, rfl⟩ := Prod.mk.inj heq
      exact ⟨rfl, fun _ => congrArg Exact.number (written_of_number? hnumber')⟩
  | string hcs hchars =>
    refine readsAs_leaf (.string _) (fun fuel limit found hread => ?_) rfl
    simpa [readValue?, hcs, readString?_of_spells hchars, eq_comm] using hread
  | emptyArray hcs hinner =>
    refine readsAs_leaf (.array []) (fun fuel limit found hread => ?_) rfl
    cases limit with
    | zero => simp [readValue?, hcs] at hread
    | succ limit => simpa [readValue?, hcs, hinner, eq_comm] using hread
  | array hcs hitems ih =>
    refine readsAs_value fun fuel limit value rest' hread => ?_
    obtain ⟨depth, hread⟩ := of_readValue?_array hcs (hitems.ne_bracket lexed_integerNumeral) hread
    obtain ⟨rfl, items, rfl, hwritten⟩ := ih _ _ _ _ _ hread
    exact ⟨rfl, fun distinct => congrArg Exact.array (hwritten distinct)⟩
  | emptyObject hcs hinner =>
    refine readsAs_leaf (.object []) (fun fuel limit found hread => ?_) rfl
    cases limit with
    | zero => simp [readValue?, hcs] at hread
    | succ limit => simpa [readValue?, hcs, hinner, eq_comm] using hread
  | object hcs hmembers ih =>
    refine readsAs_value fun fuel limit value rest' hread => ?_
    obtain ⟨depth, hread⟩ := of_readValue?_object hcs hmembers.ne_brace hread
    obtain ⟨rfl, members, rfl, hnames, hwritten⟩ := ih _ _ _ _ _ hread
    refine ⟨rfl, fun distinct => ?_⟩
    rw [Exact.Distinct, ← hnames] at distinct
    have hkept := Keyed.ofList_eq_self distinct.1
    rw [Keyed.ofList] at hkept
    rw [hkept]
    exact congrArg Exact.object (hwritten distinct.2)
  | lastItem hitem htail ih =>
    rintro (_ | fuel) limit seen value rest' hread
    · cases hread
    obtain ⟨item, tail, hitem', ⟨more, hmore, -⟩ | ⟨hrest, rfl⟩⟩ := of_readItems? hread
    · obtain ⟨rfl, -⟩ := ih _ _ _ _ hitem'
      exact absurd (cons_unique htail hmore).1 (by decide)
    · obtain ⟨rfl, hwritten⟩ := ih _ _ _ _ hitem'
      refine ⟨(cons_unique hrest htail).2, [item], congrArg Json.array List.reverse_cons, ?_⟩
      intro distinct
      rw [writtenItems, hwritten distinct.1]
      rfl
  | nextItem hitem htail hitems ih ihs =>
    rintro (_ | fuel) limit seen value rest' hread
    · cases hread
    obtain ⟨item, tail, hitem', ⟨more, hmore, hread⟩ | ⟨hrest, -⟩⟩ := of_readItems? hread
    · obtain ⟨rfl, hwritten⟩ := ih _ _ _ _ hitem'
      obtain ⟨-, rfl⟩ := cons_unique htail hmore
      obtain ⟨rfl, items, rfl, hwritten'⟩ := ihs _ _ _ _ _ hread
      refine ⟨rfl, item :: items, ?_, ?_⟩
      · rw [List.reverse_cons, List.append_assoc, List.singleton_append]
      · intro distinct
        rw [writtenItems, hwritten distinct.1, hwritten' distinct.2]
        rfl
    · obtain ⟨rfl, -⟩ := ih _ _ _ _ hitem'
      exact absurd (cons_unique htail hrest).1 (by decide)
  | lastMember hname hvalue htail ih =>
    rintro (_ | fuel) limit seen value rest' hread
    · cases hread
    obtain ⟨member, tail, hmember, ⟨more, hmore, -⟩ | ⟨hrest, rfl⟩⟩ := of_readMembers? hname hread
    · obtain ⟨rfl, -⟩ := ih _ _ _ _ hmember
      exact absurd (cons_unique htail hmore).1 (by decide)
    · obtain ⟨rfl, hwritten⟩ := ih _ _ _ _ hmember
      refine ⟨(cons_unique hrest htail).2, [(_, member)], rfl, rfl, ?_⟩
      intro distinct
      rw [writtenMembers, hwritten distinct.1]
      rfl
  | nextMember hname hvalue htail hmembers ih ihs =>
    rintro (_ | fuel) limit seen value rest' hread
    · cases hread
    obtain ⟨member, tail, hmember, ⟨more, hmore, hread⟩ | ⟨hrest, -⟩⟩ := of_readMembers? hname hread
    · obtain ⟨rfl, hwritten⟩ := ih _ _ _ _ hmember
      obtain ⟨-, rfl⟩ := cons_unique htail hmore
      obtain ⟨rfl, members, rfl, hnames, hwritten'⟩ := ihs _ _ _ _ _ hread
      refine ⟨rfl, (_, member) :: members, rfl, congrArg (_ :: ·) hnames, ?_⟩
      intro distinct
      rw [writtenMembers, hwritten distinct.1, hwritten' distinct.2]
      rfl
    · obtain ⟨rfl, -⟩ := ih _ _ _ _ hmember
      exact absurd (cons_unique htail hrest).1 (by decide)

/-- A value that is read of a text with integers only is written with the integers as they are reread. -/
theorem written_of_parse? {text : String} {v : Exact ℤ} {value : Json}
    (hdenotes : Denotes IntegerNumeral text v) (hparse : parse? text = some value) (distinct : v.Distinct) :
    value.written = v.map reread := by
  obtain ⟨rest, hspells, -⟩ := hdenotes
  unfold parse? at hparse
  dsimp only at hparse
  split at hparse
  · cases hparse
  · rename_i found rest' hread
    split at hparse
    · cases hparse
      exact (readsAs_of_spells hspells _ _ _ _ hread).2 distinct
    · cases hparse

end Json

end GeoTag
