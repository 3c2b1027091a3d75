import GeoTag.Proofs.CanonicalText
import GeoTag.Record.Value

/-!
# The text of a field that holds an address

The characters of a literal and of a zone are visible ASCII characters (`Text.Visible`): none of them
is blank, and each takes one byte.  So blanks around a literal are all that a trim drops
(`Address.ofText?_of_ofLiteral?`), and a zone behind an IPv6 literal is all that is dropped after that
(`Address.ofText?_of_zone`).  Canonical text is such a literal (`Address.ofText?_canonical`).
-/

namespace GeoTag

namespace Text

/-- A visible ASCII character. -/
def Visible (c : Char) : Prop := 33 ≤ c.toNat ∧ c.toNat ≤ 126

theorem Visible.of_between {a b c : Char} (h : a ≤ c ∧ c ≤ b) (ha : 33 ≤ a.toNat)
    (hb : b.toNat ≤ 126) : Visible c :=
  ⟨Nat.le_trans ha h.1, Nat.le_trans h.2 hb⟩

theorem Visible.isBlank {c : Char} (h : Visible c) : isBlank c = false := by
  obtain ⟨hlow, hhigh⟩ := h
  simp [Text.isBlank, blankRanges]
  omega

theorem Visible.utf8Size {c : Char} (h : Visible c) : c.utf8Size = 1 := by
  rw [Char.utf8Size_eq_one_iff]
  show c.toNat ≤ 127
  exact Nat.le_trans h.2 (by decide)

theorem visible_of_isDigit {c : Char} (h : c.isDigit = true) : Visible c := by
  simp only [Char.isDigit, Bool.and_eq_true, decide_eq_true_eq] at h
  exact Visible.of_between (a := '0') (b := '9') h (by decide) (by decide)

theorem visible_of_isAlphanum {c : Char} (h : c.isAlphanum = true) : Visible c := by
  have hkinds : (c.isUpper || c.isLower || c.isDigit) = true := h
  simp only [Bool.or_eq_true] at hkinds
  rcases hkinds with (hupper | hlower) | hdigit
  · have hbounds : 'A' ≤ c ∧ c ≤ 'Z' := of_decide_eq_true hupper
    exact Visible.of_between hbounds (by decide) (by decide)
  · have hbounds : (decide ('a' ≤ c) && decide (c ≤ 'z')) = true := hlower
    rw [Bool.and_eq_true, decide_eq_true_eq, decide_eq_true_eq] at hbounds
    exact Visible.of_between hbounds (by decide) (by decide)
  · exact visible_of_isDigit hdigit

theorem visible_of_hexValue? {c : Char} (h : (hexValue? c).isSome = true) : Visible c := by
  unfold hexValue? at h
  split at h
  · rename_i hc
    exact visible_of_isDigit hc
  split at h
  · rename_i hc
    exact Visible.of_between hc (by decide) (by decide)
  split at h
  · rename_i hc
    exact Visible.of_between hc (by decide) (by decide)
  · cases h

end Text

open Text in
theorem visible_of_isLiteralChar {c : Char} (h : isLiteralChar c = true) : Visible c := by
  simp only [isLiteralChar, Bool.or_eq_true, decide_eq_true_eq] at h
  rcases h with (rfl | rfl) | h
  · exact ⟨by decide, by decide⟩
  · exact ⟨by decide, by decide⟩
  · exact visible_of_hexValue? h

namespace Address

open Text

theorem visible_of_isZoneChar {c : Char} (h : isZoneChar c = true) : Visible c := by
  simp only [isZoneChar, Bool.or_eq_true, decide_eq_true_eq] at h
  rcases h with ((h | rfl) | rfl) | rfl
  · exact visible_of_isAlphanum h
  · exact ⟨by decide, by decide⟩
  · exact ⟨by decide, by decide⟩
  · exact ⟨by decide, by decide⟩

/-! ## Bytes -/

theorem utf8ByteSize_ofList (cs : List Char) :
    (String.ofList cs).utf8ByteSize = byteLength cs := by
  induction cs with
  | nil => rfl
  | cons c cs ih =>
    rw [String.ofList_cons, String.utf8ByteSize_append, String.utf8ByteSize_singleton, ih]
    rfl

theorem byteLength_of_visible {cs : List Char} (h : ∀ c ∈ cs, Visible c) :
    byteLength cs = cs.length := by
  induction cs with
  | nil => rfl
  | cons c cs ih =>
    show c.utf8Size + byteLength cs = _
    rw [(h c List.mem_cons_self).utf8Size, ih fun d hd => h d (List.mem_cons_of_mem c hd),
      List.length_cons, Nat.add_comm]

/-! ## Literals between blanks -/

/-- What is read from visible characters between blanks is what is read from the characters. -/
theorem ofText?_of_visible {before after : String} (hbefore : Blank before.toList)
    (hafter : Blank after.toList) {cs : List Char} (hcs : ∀ c ∈ cs, Visible c)
    (hmin : 2 ≤ cs.length) (hmax : cs.length ≤ 64) :
    ofText? (before ++ String.ofList cs ++ after) =
      match ofLiteral? cs with
      | some address => some address
      | none => ofZoned? cs := by
  have hne : cs ≠ [] := by
    rintro rfl
    cases hmin
  have htrim : trim (before ++ String.ofList cs ++ after).toList = cs := by
    rw [String.toList_append, String.toList_append, String.toList_ofList]
    exact trim_append hbefore hafter hne fun c hc => (hcs c hc).isBlank
  have hsize : ¬ (cs.length < minLength ∨ maxLength < cs.length) := by
    simp only [minLength, maxLength]
    omega
  simp only [ofText?, htrim, byteLength_of_visible hcs]
  refine (if_neg hsize).trans ?_
  cases ofLiteral? cs with
  | none => rfl
  | some address => rfl

theorem ofText?_of_ofLiteral? {before after : String} (hbefore : Blank before.toList)
    (hafter : Blank after.toList) {cs : List Char} {address : Address}
    (hread : ofLiteral? cs = some address) (hmin : 2 ≤ cs.length) (hmax : cs.length ≤ 64) :
    ofText? (before ++ String.ofList cs ++ after) = some address := by
  have hcs : ∀ c ∈ cs, Visible c := fun c hc =>
    visible_of_isLiteralChar (isLiteralChar_of_ofLiteral? hread c hc)
  rw [ofText?_of_visible hbefore hafter hcs hmin hmax, hread]

/-- A percent sign is no part of a literal. -/
theorem ofLiteral?_eq_none_of_percent {cs : List Char} (h : '%' ∈ cs) : ofLiteral? cs = none := by
  cases hread : ofLiteral? cs with
  | none => rfl
  | some address =>
    have hliteral := isLiteralChar_of_ofLiteral? hread '%' h
    exact absurd hliteral (by decide)

theorem ofZoned?_of_zone {literal zone : List Char} {bits : BitVec 128}
    (hread : V6.ofLiteral? literal = some bits) (hne : zone ≠ [])
    (hzone : ∀ c ∈ zone, isZoneChar c = true) :
    ofZoned? (literal ++ '%' :: zone) = some (.v6 bits) := by
  have hpercent : '%' ∉ literal := fun h =>
    absurd (V6.isLiteralChar_of_ofLiteral? hread '%' h) (by decide)
  rw [ofZoned?, splitOnce_append_cons hpercent]
  dsimp only
  rw [if_neg, hread, Option.map_some]
  rintro (hempty | hall)
  · exact hne (List.isEmpty_iff.1 hempty)
  · exact hall (List.all_eq_true.2 hzone)

theorem ofText?_of_zone {before after : String} (hbefore : Blank before.toList)
    (hafter : Blank after.toList) {literal zone : List Char} {bits : BitVec 128}
    (hread : V6.ofLiteral? literal = some bits) (hne : zone ≠ [])
    (hzone : ∀ c ∈ zone, isZoneChar c = true) (hmin : 2 ≤ literal.length)
    (hmax : byteLength (literal ++ '%' :: zone) ≤ 64) :
    ofText? (before ++ String.ofList (literal ++ '%' :: zone) ++ after) = some (.v6 bits) := by
  have hliteral : ∀ c ∈ literal, isLiteralChar c = true := V6.isLiteralChar_of_ofLiteral? hread
  have hcs : ∀ c ∈ literal ++ '%' :: zone, Visible c := by
    intro c hc
    simp only [List.mem_append, List.mem_cons] at hc
    rcases hc with hc | rfl | hc
    · exact visible_of_isLiteralChar (hliteral c hc)
    · exact ⟨by decide, by decide⟩
    · exact visible_of_isZoneChar (hzone c hc)
  rw [byteLength_of_visible hcs] at hmax
  have hlength : 2 ≤ (literal ++ '%' :: zone).length := by
    rw [List.length_append]
    omega
  rw [ofText?_of_visible hbefore hafter hcs hlength hmax,
    ofLiteral?_eq_none_of_percent (List.mem_append_right _ List.mem_cons_self)]
  exact ofZoned?_of_zone hread hne hzone

/-! ## Canonical text -/

theorem isZoneChar_iff (c : Char) :
    isZoneChar c = true ↔ c.isAlphanum = true ∨ c ∈ ['_', '-', '.'] := by
  simp [isZoneChar, or_assoc]

/-- The text that a typed address becomes in JSON spells that address, also with blanks around it.  So
does the text of an IPv6 address with a zone of ASCII letters, digits, `_`, `-` and `.` behind it, as
long as the two take no more than sixty-four bytes. -/
theorem ofText?_canonical (address : Address) :
    ∃ text, (FieldValue.address address).toJson = .string text ∧ ofText? text = some address ∧
      ∀ before after : String, Blank before.toList → Blank after.toList →
        ofText? (before ++ text ++ after) = some address ∧
        ∀ bits, address = .v6 bits → ∀ zone : String, zone ≠ "" →
          (∀ c ∈ zone.toList, c.isAlphanum = true ∨ c ∈ ['_', '-', '.']) →
          (text ++ "%" ++ zone).utf8ByteSize ≤ 64 →
            ofText? (before ++ (text ++ "%" ++ zone) ++ after) = some address := by
  have plain : ∀ before after : String, Blank before.toList → Blank after.toList →
      ofText? (before ++ address.toText ++ after) = some address :=
    fun before after hbefore hafter => ofText?_of_ofLiteral? hbefore hafter
      address.ofLiteral?_render address.two_le_length_render address.length_render_le
  have empty : Blank "".toList := fun _ h => absurd h List.not_mem_nil
  refine ⟨address.toText, rfl, ?_, ?_⟩
  · simpa using plain "" "" empty empty
  · intro before after hbefore hafter
    refine ⟨plain before after hbefore hafter, ?_⟩
    rintro bits rfl zone hne hzone hbytes
    have hlist : toText (.v6 bits) ++ "%" ++ zone =
        String.ofList (V6.render bits ++ '%' :: zone.toList) := by
      rw [String.ofList_append, String.ofList_cons, String.ofList_toList, String.append_assoc]
      rfl
    rw [hlist, utf8ByteSize_ofList] at hbytes
    rw [hlist]
    apply ofText?_of_zone hbefore hafter (V6.ofLiteral?_render bits) ?_ ?_ ?_ hbytes
    · intro hempty
      exact hne (String.toList_eq_nil_iff.1 hempty)
    · exact fun c hc => (isZoneChar_iff c).2 (hzone c hc)
    · exact (Address.v6 bits).two_le_length_render

/-- The address `fe80::1`. -/
def linkLocal : BitVec 128 := 0xfe800000000000000000000000000001#128

theorem toText_linkLocal : toText (.v6 linkLocal) = "fe80::1" := by decide +kernel

/-- A link-local address between blanks, one of them not ASCII, with the interface it is on. -/
theorem ofText?_canonical_sample :
    (FieldValue.address (.v6 linkLocal)).toJson = .string "fe80::1" ∧
      ofText? "\u3000fe80::1%eth0\t" = some (.v6 linkLocal) := by
  obtain ⟨text, hjson, -, hblank⟩ := ofText?_canonical (.v6 linkLocal)
  obtain rfl : "fe80::1" = text := by
    rw [← toText_linkLocal]
    exact Json.string.inj hjson
  have hbefore : Blank "\u3000".toList := List.all_eq_true.1 (by decide)
  have hafter : Blank "\t".toList := List.all_eq_true.1 (by decide)
  have hzone : "eth0".toList.all isZoneChar = true := by decide
  refine ⟨hjson, (hblank "\u3000" "\t" hbefore hafter).2 linkLocal rfl "eth0" ?_ ?_ ?_⟩
  · decide
  · exact fun c hc => (isZoneChar_iff c).1 (List.all_eq_true.1 hzone c hc)
  · decide

end Address

end GeoTag
