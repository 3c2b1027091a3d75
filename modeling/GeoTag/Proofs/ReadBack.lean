import GeoTag.Json.Printer
import GeoTag.Proofs.JsonShape
import GeoTag.Proofs.NumberText

/-!
# Compact text read back

The compact text of a value is read as that value (`Json.parse?_toText`) if the value is as regular as the
reader's answers are and each number in it reads back.  The reader is followed along the text with any rest
behind it: first over the characters of a string, then over a whole value, where the induction is on the
value and every bracket costs one character and one unit of fuel.
-/

namespace GeoTag

namespace Json

/-! ## Strings -/

theorem readChars?_quote (seen rest : List Char) :
    readChars? seen ('"' :: rest) = some (seen.reverse, rest) := by
  rw [readChars?.eq_def]
  rfl

theorem readChars?_plain {c : Char} (hquote : c ≠ '"') (hslash : c ≠ '\\') (hgraphic : ¬c.toNat < 0x20)
    (seen rest : List Char) : readChars? seen (c :: rest) = readChars? (c :: seen) rest := by
  rw [readChars?.eq_def]
  simp only [if_neg hquote, if_neg hslash, if_neg hgraphic]

theorem readChars?_hex {n : Nat} (h : n < 0x20) (seen rest : List Char) :
    readChars? seen ('\\' :: 'u' :: (Text.hex4 n ++ rest)) = readChars? (Char.ofNat n :: seen) rest := by
  have hhex := Text.hex4?_hex4 (Nat.lt_trans h (by decide))
  have hhigh : isHighSurrogate n = false := by
    simp only [isHighSurrogate, Bool.and_eq_false_iff, decide_eq_false_iff_not]
    omega
  have hlow : isLowSurrogate n = false := by
    simp only [isLowSurrogate, Bool.and_eq_false_iff, decide_eq_false_iff_not]
    omega
  simp [Text.hex4, readChars?, hhex, hhigh, hlow]

/-- An escaped character is read as one character. -/
theorem readChars?_escape (seen rest : List Char) (c : Char) :
    readChars? seen (escape c ++ rest) = readChars? (c :: seen) rest := by
  unfold escape
  iterate 7
    split
    · subst_vars
      simp [readChars?, unescape?]
  split
  · rename_i hcontrol
    rw [List.cons_append, List.cons_append, readChars?_hex hcontrol, Char.ofNat_toNat]
  · rename_i hquote hslash _ _ _ _ _ hgraphic
    exact readChars?_plain hquote hslash hgraphic seen rest

theorem readChars?_flatMap_escape (cs seen rest : List Char) :
    readChars? seen (cs.flatMap escape ++ '"' :: rest) = some (seen.reverse ++ cs, rest) := by
  induction cs generalizing seen with
  | nil => simpa using readChars?_quote seen rest
  | cons c cs ih =>
    rw [List.flatMap_cons, List.append_assoc, readChars?_escape, ih, List.reverse_cons,
      List.append_assoc, List.singleton_append]

/-- The text of a string, past its opening quote. -/
theorem readString?_renderString (s : String) (rest : List Char) :
    readString? (s.toList.flatMap escape ++ '"' :: rest) = some (s, rest) := by
  simp [readString?, readChars?_flatMap_escape]

/-! ## Values -/

/-- The text of the value starts with neither a space nor a closing bracket, and it is read as the value, up
to the limit, wherever it stands. -/
structure Reads (limit : Nat) (value : Json) : Prop where
  start : ∃ c cs, value.render = c :: cs ∧ isSpace c = false ∧ c ≠ ']'
  read : ∀ {fuel rest}, value.render.length ≤ fuel → Ends rest →
    readValue? fuel limit (value.render ++ rest) = some (value, rest)

theorem skipSpace_cons {c : Char} (h : isSpace c = false) (cs : List Char) :
    skipSpace (c :: cs) = c :: cs := by
  simp [skipSpace, h]

theorem exists_eq_succ {n fuel : Nat} (h : n + 1 ≤ fuel) : ∃ f, fuel = f + 1 ∧ n ≤ f :=
  ⟨fuel - 1, by omega, by omega⟩

theorem reads_null (limit : Nat) : Reads limit .null where
  start := ⟨'n', ['u', 'l', 'l'], rfl, by decide, by decide⟩
  read {fuel rest} hfuel _ := by
    obtain ⟨f, rfl, -⟩ := exists_eq_succ hfuel
    simp [render, readValue?, skipSpace, isSpace, readWord?]

theorem reads_bool (limit : Nat) (b : Bool) : Reads limit (.bool b) where
  start := by cases b <;> simp [render, isSpace]
  read {fuel rest} hfuel _ := by
    cases b <;>
    · obtain ⟨f, rfl, -⟩ := exists_eq_succ hfuel
      simp [render, readValue?, skipSpace, isSpace, readWord?]

theorem reads_string (limit : Nat) (s : String) : Reads limit (.string s) where
  start := ⟨'"', _, rfl, by decide, by decide⟩
  read {fuel rest} hfuel _ := by
    obtain ⟨f, rfl, -⟩ := exists_eq_succ hfuel
    simp [render, renderString, readValue?, skipSpace, isSpace, readString?_renderString]

/-- A character that starts a number starts nothing else. -/
theorem start_of_number {c : Char} (h : c = '-' ∨ c.isDigit = true) :
    isSpace c = false ∧ c ≠ ']' ∧ c ≠ '"' ∧ c ≠ '[' ∧ c ≠ '\x7b' ∧ c ≠ 'n' ∧ c ≠ 't' ∧ c ≠ 'f' := by
  rcases h with rfl | h
  · decide
  · refine ⟨?_, ?_, ?_, ?_, ?_, ?_, ?_, ?_⟩
    · simp only [isSpace, Bool.or_eq_false_iff, decide_eq_false_iff_not]
      refine ⟨⟨⟨?_, ?_⟩, ?_⟩, ?_⟩ <;> (rintro rfl; revert h; decide)
    all_goals (rintro rfl; revert h; decide)

theorem reads_number {n : Number} (h : n.ReadsBack) (limit : Nat) : Reads limit (.number n) := by
  obtain ⟨c, tail, hcons, hc⟩ := Number.exists_cons_of_read? (h [] ends_nil)
  rw [List.append_nil] at hcons
  obtain ⟨hspace, hbracket, hquote, harray, hobject, hnull, htrue, hfalse⟩ := start_of_number hc
  refine ⟨⟨c, tail, hcons, hspace, hbracket⟩, fun {fuel rest} hfuel hrest => ?_⟩
  have hread := h rest hrest
  rw [render, hcons, List.length_cons] at hfuel
  obtain ⟨f, rfl, -⟩ := exists_eq_succ hfuel
  rw [hcons, List.cons_append] at hread
  rw [render, hcons, List.cons_append, readValue?, skipSpace_cons hspace]
  simp only [if_neg hquote, if_neg harray, if_neg hobject, if_neg hnull, if_neg htrue, if_neg hfalse,
    hread, Option.map_some]

theorem readItems?_renderItems {limit : Nat} {item : Json} {items : List Json}
    (h : ∀ x ∈ item :: items, Reads limit x) {fuel : Nat} (seen : List Json) (rest : List Char)
    (hfuel : (renderItems (item :: items)).length ≤ fuel) :
    readItems? fuel limit seen (renderItems (item :: items) ++ rest) =
      some (.array (seen.reverse ++ item :: items), rest) := by
  induction items generalizing item fuel seen with
  | nil =>
    have hitem := h item List.mem_cons_self
    simp only [renderItems, List.length_append, List.length_singleton] at hfuel
    obtain ⟨f, rfl, hf⟩ := exists_eq_succ hfuel
    have hread := hitem.read hf (ends_cons (c := ']') (by simp) rest)
    simp [renderItems, readItems?, hread, skipSpace, isSpace]
  | cons next items ih =>
    have hitem := h item List.mem_cons_self
    simp only [renderItems, List.length_append, List.length_cons] at hfuel
    obtain ⟨f, rfl, hf⟩ := exists_eq_succ (n := item.render.length + (renderItems (next :: items)).length) hfuel
    have hread := hitem.read (show item.render.length ≤ f by omega)
      (ends_cons (c := ',') (by simp) (renderItems (next :: items) ++ rest))
    have hnext := ih (fun x hx => h x (List.mem_cons_of_mem item hx)) (item :: seen)
      (show (renderItems (next :: items)).length ≤ f by omega)
    simp [renderItems, readItems?, hread, skipSpace, isSpace, hnext]

theorem readValue?_bracket {c : Char} (hspace : isSpace c = false) (hbracket : c ≠ ']')
    (fuel limit : Nat) (tail : List Char) :
    readValue? (fuel + 1) (limit + 1) ('[' :: c :: tail) = readItems? fuel limit [] (c :: tail) := by
  rw [readValue?, skipSpace_cons (by decide)]
  simp only [skipSpace_cons hspace, Char.reduceEq, if_false, if_true]
  split
  · contradiction
  · rename_i heq
    exact absurd (List.cons.inj heq).1 hbracket
  · rename_i depth _ heq _
    cases heq
    rfl

theorem reads_array {limit : Nat} {items : List Json} (h : ∀ item ∈ items, Reads limit item) :
    Reads (limit + 1) (.array items) where
  start := ⟨'[', _, rfl, by decide, by decide⟩
  read {fuel rest} hfuel _ := by
    simp only [render, List.length_cons] at hfuel
    obtain ⟨f, rfl, hf⟩ := exists_eq_succ hfuel
    cases items with
    | nil => simp [render, renderItems, readValue?, skipSpace, isSpace]
    | cons item items =>
      have hread := readItems?_renderItems h [] rest hf
      obtain ⟨c, cs, hcons, hspace, hbracket⟩ := (h item List.mem_cons_self).start
      obtain ⟨tail, htail⟩ : ∃ tail, renderItems (item :: items) ++ rest = c :: tail := by
        cases items <;> simp [renderItems, hcons]
      rw [render, List.cons_append, htail, readValue?_bracket hspace hbracket, ← htail]
      exact hread

section Members

variable {fuel limit : Nat} {name : String} {value : Json} {seen : List (String × Json)}
  {rest : List Char}

theorem readMembers?_last (hvalue : Reads limit value) (hfuel : value.render.length ≤ fuel)
    (hnew : name ∉ Keyed.names seen) :
    readMembers? (fuel + 1) limit seen
        (renderString name ++ ':' :: (value.render ++ '\x7d' :: rest)) =
      some (.object (seen ++ [(name, value)]), rest) := by
  have hread := hvalue.read hfuel (ends_cons (c := '\x7d') (by simp) rest)
  simp [renderString, readMembers?, skipSpace, isSpace, readString?_renderString, hread,
    Keyed.put_of_notMem hnew]

theorem readMembers?_next (hvalue : Reads limit value) (hfuel : value.render.length ≤ fuel)
    (hnew : name ∉ Keyed.names seen) :
    readMembers? (fuel + 1) limit seen
        (renderString name ++ ':' :: (value.render ++ ',' :: rest)) =
      readMembers? fuel limit (seen ++ [(name, value)]) rest := by
  have hread := hvalue.read hfuel (ends_cons (c := ',') (by simp) rest)
  simp [renderString, readMembers?, skipSpace, isSpace, readString?_renderString, hread,
    Keyed.put_of_notMem hnew]

end Members

theorem notMem_of_nodup_append {seen members : List (String × Json)} {member : String × Json}
    (h : (Keyed.names (seen ++ member :: members)).Nodup) : member.1 ∉ Keyed.names seen := by
  rw [Keyed.names_append] at h
  exact fun hmem => (List.nodup_append.1 h).2.2 member.1 hmem member.1 List.mem_cons_self rfl

theorem readMembers?_renderMembers {limit : Nat} {member : String × Json}
    {members : List (String × Json)} (h : ∀ m ∈ member :: members, Reads limit m.2) {fuel : Nat}
    {seen : List (String × Json)} (hnames : (Keyed.names (seen ++ member :: members)).Nodup)
    (rest : List Char) (hfuel : (renderMembers (member :: members)).length ≤ fuel) :
    readMembers? fuel limit seen (renderMembers (member :: members) ++ rest) =
      some (.object (seen ++ member :: members), rest) := by
  induction members generalizing member fuel seen with
  | nil =>
    obtain ⟨name, value⟩ := member
    simp only [renderMembers, List.length_append, List.length_cons, List.length_nil] at hfuel
    obtain ⟨f, rfl, hf⟩ := exists_eq_succ hfuel
    simp only [renderMembers, List.append_assoc, List.cons_append, List.nil_append]
    exact readMembers?_last (h _ List.mem_cons_self) (by omega) (notMem_of_nodup_append hnames)
  | cons next members ih =>
    obtain ⟨name, value⟩ := member
    have hvalue : Reads limit value := h (name, value) List.mem_cons_self
    simp only [renderMembers, List.length_append, List.length_cons] at hfuel
    have hpos : value.render.length + (renderMembers (next :: members)).length + 1 ≤ fuel := by omega
    obtain ⟨f, rfl, hf⟩ := exists_eq_succ hpos
    have hnext : (Keyed.names ((seen ++ [(name, value)]) ++ next :: members)).Nodup := by
      rwa [List.append_assoc]
    have hread := ih (fun m hm => h m (List.mem_cons_of_mem _ hm)) hnext
      (show (renderMembers (next :: members)).length ≤ f by omega)
    simp only [renderMembers, List.append_assoc, List.cons_append]
    rw [readMembers?_next hvalue (by omega) (notMem_of_nodup_append hnames), hread,
      List.append_assoc, List.singleton_append]

theorem reads_object {limit : Nat} {members : List (String × Json)}
    (h : ∀ m ∈ members, Reads limit m.2) (hnames : (Keyed.names members).Nodup) :
    Reads (limit + 1) (.object members) where
  start := ⟨'\x7b', _, rfl, by decide, by decide⟩
  read {fuel rest} hfuel _ := by
    simp only [render, List.length_cons] at hfuel
    obtain ⟨f, rfl, hf⟩ := exists_eq_succ hfuel
    cases members with
    | nil => simp [render, renderMembers, readValue?, skipSpace, isSpace]
    | cons member members =>
      have hempty : (Keyed.names ([] ++ member :: members)).Nodup := hnames
      have hread := readMembers?_renderMembers h hempty rest hf
      obtain ⟨tail, htail⟩ : ∃ tail, renderMembers (member :: members) ++ rest = '"' :: tail := by
        obtain ⟨name, value⟩ := member
        cases members <;> simp [renderMembers, renderString]
      rw [htail] at hread
      rw [render, List.cons_append, htail]
      simpa [readValue?, skipSpace, isSpace] using hread

theorem sizeOf_snd_lt_of_mem {m : String × Json} {members : List (String × Json)} (h : m ∈ members) :
    sizeOf m.2 < sizeOf members := by
  have hmember := List.sizeOf_lt_of_mem h
  have hvalue : sizeOf m.2 < sizeOf m := by
    obtain ⟨name, value⟩ := m
    simp only [Prod.mk.sizeOf_spec]
    omega
  omega

/-- The induction is on the value, one case for each kind. -/
theorem reads_of_regular : ∀ {limit : Nat} (value : Json), Regular limit value →
    (∀ n ∈ value.numbers, n.ReadsBack) → Reads limit value
  | limit, .null, _, _ => reads_null limit
  | limit, .bool b, _, _ => reads_bool limit b
  | limit, .number n, _, hn => reads_number (hn n List.mem_cons_self) limit
  | limit, .string s, _, _ => reads_string limit s
  | 0, .array items, h, _ => absurd h.depth_le (Nat.not_succ_le_zero _)
  | limit + 1, .array items, h, hn => by
    refine reads_array fun item hitem => reads_of_regular item (regular_array_iff.1 h item hitem) ?_
    exact fun n hmem => hn n (mem_numbers_array_iff.2 ⟨item, hitem, hmem⟩)
  | 0, .object members, h, _ => absurd h.depth_le (Nat.not_succ_le_zero _)
  | limit + 1, .object members, h, hn => by
    obtain ⟨hnames, hvalues⟩ := regular_object_iff.1 h
    refine reads_object (fun m hm => ?_) hnames
    have hsize := sizeOf_snd_lt_of_mem hm
    refine reads_of_regular m.2 (hvalues m hm) ?_
    exact fun n hmem => hn n (mem_numbers_object_iff.2 ⟨m, hm, hmem⟩)
termination_by _ value => sizeOf value

/-- The compact text of a regular value whose numbers read back is read as that value. -/
theorem parse?_toText {value : Json} (h : Regular maxDepth value)
    (hn : ∀ n ∈ value.numbers, n.ReadsBack) : parse? value.toText = some value := by
  have hread := (reads_of_regular value h hn).read
    (show value.render.length ≤ 2 * value.render.length + 2 by omega) ends_nil
  rw [List.append_nil] at hread
  simp [parse?, toText, hread, skipSpace]

end Json

end GeoTag
