import GeoTag.Proofs.RereadIntegers
import GeoTag.Proofs.SettingValues
import GeoTag.Proofs.SkippedText

/-!
# Settings read from their text

A document spells settings when each member of it is a setting under its name, with its value spelled in any
way, or anything well-formed under a name that no setting has (`Settings.SpellsDocument`).  Its reader adopts
the settings that it comes by (`Settings.readMembers_of_spells`, `Settings.readItems_of_spells`), so that
settings come back from their own text, from a document with all of them in any order and from the array of
their values (`Settings.parse_spelled`).
-/

namespace GeoTag

namespace Settings

open Json (Denotes Exact Formed FormedName Numeral Spells SpellsName skipSpace)

/-! ## Documents -/

section Grammar

variable (settings : Settings)

/-- How a member is spelled in front of a rest: one of the settings, or something else. -/
inductive SpellsMember (cs : List Char) : Option Key → List Char → Prop
  | setting {key : Key} {inner rest : List Char} : SpellsName cs key.name inner →
      Spells Numeral inner (.value (settings.valueOf key).written) rest → SpellsMember cs (some key) rest
  | unknown {name : String} {inner rest : List Char} : SpellsName cs name inner →
      (∀ key : Key, key.name ≠ name) → Formed inner .value rest → SpellsMember cs none rest

/-- How members up to the closing brace are spelled, and which settings are among them. -/
inductive SpellsMembers : List Char → List Key → List Char → Prop
  | last {cs tail rest : List Char} {key : Option Key} : SpellsMember settings cs key tail →
      skipSpace tail = '\x7d' :: rest → SpellsMembers cs key.toList rest
  | next {cs tail more rest : List Char} {key : Option Key} {keys : List Key} :
      SpellsMember settings cs key tail → skipSpace tail = ',' :: more → SpellsMembers more keys rest →
      SpellsMembers cs (key.toList ++ keys) rest

/-- The text is an object with these settings in this order, and maybe with other members. -/
def SpellsDocument (keys : List Key) (text : String) : Prop :=
  ∃ inner rest, skipSpace text.toList = '\x7b' :: inner ∧ SpellsMembers settings inner keys rest ∧
    skipSpace rest = []

end Grammar

variable {settings below : Settings} {cs inner tail rest : List Char}

/-! ## Values -/

theorem readBool_of_spells {b : Bool} (h : Spells Numeral cs (.value (.bool b)) rest) :
    readBool cs = .ok (b, rest) := by
  cases h with
  | true hcs => simp [readBool, hcs, Json.readWord?, orMalformed]
  | false hcs => simp [readBool, hcs, Json.readWord?, orMalformed]

theorem exists_quote_of_spells {s : String} (h : Spells Numeral cs (.value (.string s)) rest) :
    ∃ inner, skipSpace cs = '"' :: inner ∧ Json.readString? inner = some (s, rest) := by
  cases h with
  | string hcs hchars => exact ⟨_, hcs, Json.readString?_of_spells hchars rest⟩

theorem readText_of_spells {s : String} (wanted : Wanted)
    (h : Spells Numeral cs (.value (.string s)) rest) : readText wanted cs = .ok (s, rest) := by
  obtain ⟨inner, hcs, hread⟩ := exists_quote_of_spells h
  simp [readText, hcs, hread, orMalformed]

theorem readVendor_of_spells {vendor : Vendor}
    (h : Spells Numeral cs (.value (.string vendor.toText)) rest) :
    readVendor cs = .ok (vendor, rest) := by
  obtain ⟨inner, hcs, hread⟩ := exists_quote_of_spells h
  simp [readVendor, hcs, readVendorName, hread, Vendor.ofTag?_toText]

theorem readPath?_of_spells {path : Option String}
    (h : Spells Numeral cs (.value ((path.map Json.string).getD .null).written) rest) :
    readPath? cs = .ok (path, rest) := by
  cases path with
  | none =>
    cases h with
    | null hcs => simp [readPath?, hcs, Json.readWord?, orMalformed]
  | some s =>
    obtain ⟨inner, hcs, -⟩ := exists_quote_of_spells h
    simp [readPath?, hcs, readText_of_spells .path h, Except.map]

/-- A setting is read back from any spelling of its value, and no other setting moves. -/
theorem readSetting_of_spells {key : Key}
    (h : Spells Numeral cs (.value (settings.valueOf key).written) rest) :
    readSetting below cs key = .ok (below.adopt settings key, rest) := by
  cases key with
  | enabled | enforceSchema | cityEnabled | asEnabled | legacyTimeZone =>
    rw [readSetting, readBool_of_spells h]
    rfl
  | cityPath | asPath | locale =>
    rw [readSetting, readText_of_spells _ h]
    rfl
  | vendor =>
    rw [readSetting, readVendor_of_spells h]
    rfl
  | fallbackPath =>
    rw [readSetting, readPath?_of_spells h]
    rfl

/-! ## Members -/

theorem SpellsMember.exists_name {key : Option Key} (h : SpellsMember settings cs key rest) :
    ∃ name inner, SpellsName cs name inner ∧ Key.ofName? name = key ∧
      ∀ below behind, skipSpace behind = ':' :: inner →
        readMember below key behind = .ok (below.adoptAll settings key.toList, rest) := by
  cases h with
  | @setting key inner _ hname hvalue =>
    refine ⟨_, inner, hname, Key.ofName?_name key, fun below behind hbehind => ?_⟩
    rw [readMember, hbehind]
    exact readSetting_of_spells hvalue
  | @unknown name inner _ hname hunknown hvalue =>
    refine ⟨name, inner, hname, Key.ofName?_eq_none_iff.2 hunknown, fun below behind hbehind => ?_⟩
    rw [readMember, hbehind]
    simp only [Json.skipValue?_of_formed hvalue]
    rfl

/-- A text in front of a member: nothing before the first of them, a comma before any other. -/
inductive Opens : Bool → List Char → List Char → Prop
  | first (cs : List Char) : Opens true cs cs
  | comma {before cs : List Char} : skipSpace before = ',' :: cs → Opens false before cs

variable {fuel : Nat} {first : Bool} {before : List Char} {seen : List Key}

/-- One step of the reader takes one member. -/
theorem readMembers_step {key : Option Key} (hopens : Opens first before cs)
    (hmember : SpellsMember settings cs key rest) (hseen : ∀ k ∈ key.toList, k ∉ seen) :
    readMembers (fuel + 1) first seen below before =
      readMembers fuel false (key.toList ++ seen) (below.adoptAll settings key.toList) rest := by
  obtain ⟨name, inner, ⟨text, chars, behind, hcs, hchars, hname, hbehind⟩, hkey, hread⟩ :=
    hmember.exists_name
  have hstring : Json.readString? (text ++ '"' :: behind) = some (name, behind) :=
    hname ▸ Json.readString?_of_spells hchars behind
  have hnew : (key.filter fun k => decide (k ∈ seen)) = none := by
    rw [Option.filter_eq_none_iff]
    intro k hk
    simpa using hseen k (Option.mem_toList.2 hk)
  cases hopens with
  | first cs => simp only [readMembers, hcs, hstring, hkey, hnew, hread below behind hbehind]
  | comma hbefore => simp only [readMembers, hbefore, hcs, hstring, hkey, hnew, hread below behind hbehind]

theorem readMembers_close (hbefore : skipSpace before = '\x7d' :: rest) :
    readMembers (fuel + 1) first seen below before = .ok (below, rest) := by
  simp only [readMembers, hbefore]

theorem Opens.length_le (h : Opens first before cs) : cs.length ≤ before.length := by
  cases h with
  | first => exact Nat.le_refl _
  | comma hbefore => exact Nat.le_of_lt (Json.length_lt_of_skipSpace hbefore)

theorem SpellsMember.formed {key : Option Key} (h : SpellsMember settings cs key rest) :
    ∃ inner, FormedName cs inner ∧ Formed inner .value rest := by
  cases h with
  | setting hname hvalue => exact ⟨_, hname.formed, hvalue.formed⟩
  | unknown hname _ hvalue => exact ⟨_, hname.formed, hvalue⟩

theorem SpellsMember.length_lt {key : Option Key} (h : SpellsMember settings cs key rest) :
    rest.length < cs.length := by
  obtain ⟨inner, hname, hvalue⟩ := h.formed
  exact Nat.lt_trans hvalue.length_lt hname.length_lt

theorem SpellsMembers.formed {keys : List Key} (h : SpellsMembers settings cs keys rest) :
    Formed cs .members rest := by
  induction h with
  | last hmember htail =>
    obtain ⟨inner, hname, hvalue⟩ := hmember.formed
    exact .lastMember hname hvalue htail
  | next hmember htail _ ih =>
    obtain ⟨inner, hname, hvalue⟩ := hmember.formed
    exact .nextMember hname hvalue htail ih

/-- The settings among the members are adopted, unless one comes twice.  The induction is on the members; each
takes a unit of fuel and more than one character. -/
theorem readMembers_of_spells {keys : List Key} (h : SpellsMembers settings cs keys rest) :
    ∀ {fuel : Nat} {first : Bool} {before : List Char} {seen : List Key} {below : Settings},
      Opens first before cs → (keys ++ seen).Nodup → before.length < fuel + rest.length →
        readMembers fuel first seen below before = .ok (below.adoptAll settings keys, rest) := by
  induction h with
  | @last cs tail rest key hmember htail =>
    intro fuel first before seen below hopens hnodup hfuel
    have hseen : ∀ k ∈ key.toList, k ∉ seen := fun k hk hmem =>
      (List.nodup_append.1 hnodup).2.2 k hk k hmem rfl
    have hstart := hopens.length_le
    have hlength := hmember.length_lt
    have hclose := Json.length_lt_of_skipSpace htail
    obtain ⟨f, rfl⟩ := Nat.exists_eq_add_of_le' (show 2 ≤ fuel by omega)
    rw [readMembers_step hopens hmember hseen, readMembers_close htail]
  | @next cs tail more rest key keys hmember htail hmembers ih =>
    intro fuel first before seen below hopens hnodup hfuel
    rw [List.append_assoc] at hnodup
    have hseen : ∀ k ∈ key.toList, k ∉ seen := fun k hk hmem =>
      (List.nodup_append.1 hnodup).2.2 k hk k (List.mem_append_right keys hmem) rfl
    have hrest : (keys ++ (key.toList ++ seen)).Nodup :=
      (List.perm_append_comm_assoc key.toList keys seen).nodup_iff.1 hnodup
    have hstart := hopens.length_le
    have hlength := hmember.length_lt
    have hmore := Json.length_lt_of_skipSpace htail
    have hlengths := hmembers.formed.length_lt
    obtain ⟨f, rfl⟩ := Nat.exists_eq_add_of_le' (show 1 ≤ fuel by omega)
    rw [readMembers_step hopens hmember hseen, ih (.comma htail) hrest (by omega), adoptAll_append]

/-! ## Items -/

theorem readSetting_skipSpace (below : Settings) (cs : List Char) (key : Key) :
    readSetting below (skipSpace cs) key = readSetting below cs key := by
  cases key <;>
  simp only [readSetting, readBool, readText, readPath?, readVendor, wrongKind, Json.skipSpace_skipSpace]

/-- One step of the reader takes one item. -/
theorem readItems_step {key : Key} {keys : List Key} (hopens : Opens first before cs)
    (hitem : Spells Numeral cs (.value (settings.valueOf key).written) rest) :
    readItems (key :: keys) first below before =
      readItems keys false (below.adopt settings key) rest := by
  have hitems : ∀ tail, skipSpace cs ≠ ']' :: tail := fun tail hcs =>
    Json.not_leads_bracket _ (hitem.leads_of_eq Json.lexed_numeral hcs)
  have hread : readSetting below (skipSpace cs) key = .ok (below.adopt settings key, rest) := by
    rw [readSetting_skipSpace, readSetting_of_spells hitem]
  cases hopens with
  | first cs => simp only [readItems, hread]
  | comma hbefore => simp only [readItems, hbefore, hread]

theorem readItems_close (hbefore : skipSpace before = ']' :: rest) :
    readItems [] first below before = .ok (below, rest) := by
  simp only [readItems, hbefore]

theorem exists_item_of_spells {item : Exact ℚ} {items : List (Exact ℚ)}
    (h : Spells Numeral cs (.items (item :: items)) rest) :
    ∃ tail, Spells Numeral cs (.value item) tail ∧
      ((items = [] ∧ skipSpace tail = ']' :: rest) ∨
        ∃ more, skipSpace tail = ',' :: more ∧ Spells Numeral more (.items items) rest) := by
  cases h with
  | lastItem hitem htail => exact ⟨_, hitem, .inl ⟨rfl, htail⟩⟩
  | nextItem hitem htail hitems => exact ⟨_, hitem, .inr ⟨_, htail, hitems⟩⟩

/-- The settings are adopted, one for each item. -/
theorem readItems_of_spells (key : Key) (keys : List Key) {cs : List Char} {first : Bool}
    {before : List Char} {below : Settings} (hopens : Opens first before cs)
    (h : Spells Numeral cs (.items (Json.writtenItems ((key :: keys).map settings.valueOf))) rest) :
    readItems (key :: keys) first below before = .ok (below.adoptAll settings (key :: keys), rest) := by
  induction keys generalizing key cs first before below with
  | nil =>
    obtain ⟨tail, hitem, ⟨-, htail⟩ | ⟨more, -, hitems⟩⟩ := exists_item_of_spells h
    · rw [readItems_step hopens hitem, readItems_close htail]
      rfl
    · cases hitems
  | cons next keys ih =>
    obtain ⟨tail, hitem, ⟨hnil, -⟩ | ⟨more, htail, hitems⟩⟩ := exists_item_of_spells h
    · cases hnil
    · rw [readItems_step hopens hitem, ih next (.comma htail) hitems]
      rfl

/-! ## Texts -/

/-- What is read of a document with settings among its members. -/
theorem decode_of_document {keys : List Key} {text : String} (hkeys : keys.Nodup)
    (h : SpellsDocument settings keys text) : decode text = .ok (default.adoptAll settings keys) := by
  obtain ⟨inner, rest, htext, hmembers, hrest⟩ := h
  have hread : readMembers (inner.length + 1) true [] default inner =
      .ok (default.adoptAll settings keys, rest) :=
    readMembers_of_spells hmembers (.first inner) (by rwa [List.append_nil]) (by omega)
  rw [decode, readDocument, htext]
  simp [hread, hrest]

theorem decode_of_array {text : String} (h : Denotes Numeral text settings.toArray.written) :
    decode text = .ok settings := by
  obtain ⟨rest, hspells, hrest⟩ := h
  obtain ⟨inner, htext, hitems⟩ : ∃ inner, skipSpace text.toList = '[' :: inner ∧
      Spells Numeral inner (.items (Json.writtenItems (Key.all.map settings.valueOf))) rest := by
    cases hspells with
    | array hcs hitems => exact ⟨_, hcs, hitems⟩
  have hread : readItems Key.all true default inner = .ok (default.adoptAll settings Key.all, rest) :=
    readItems_of_spells _ _ (.first inner) hitems
  rw [decode, readDocument, htext]
  simp [hread, hrest, adoptAll_eq Key.mem_all]

/-- Members that are settings, one after the other, and nothing else. -/
theorem spellsMembers_of_spells (key : Key) (keys : List Key)
    (h : Spells Numeral cs (.members (Json.writtenMembers
      ((key :: keys).map fun key => (key.name, settings.valueOf key)))) rest) :
    SpellsMembers settings cs (key :: keys) rest := by
  induction keys generalizing key cs with
  | nil =>
    cases h with
    | lastMember hname hvalue htail => exact .last (.setting hname hvalue) htail
    | nextMember _ _ _ hmembers => cases hmembers
  | cons next keys ih =>
    cases h with
    | nextMember hname hvalue htail hmembers => exact .next (.setting hname hvalue) htail (ih next hmembers)

/-- Every text of the object that settings are written as is a document with all of them. -/
theorem spellsDocument_of_denotes {text : String} (h : Denotes Numeral text settings.toJson.written) :
    SpellsDocument settings Key.all text := by
  obtain ⟨rest, hspells, hrest⟩ := h
  cases hspells with
  | object hcs hmembers => exact ⟨_, rest, hcs, spellsMembers_of_spells _ _ hmembers, hrest⟩

/-! ## Settings that come back -/

/-- Settings with a language tag come back from their own text, from a document with all of them in any order
and with anything well-formed under other names, and from the array of their values.  Whatever comes back has
a language tag. -/
theorem parse_spelled :
    (∀ settings : Settings, settings.TagLocale →
      parse settings.toJson.toText = .ok settings ∧
      (∀ keys text, keys.Perm Key.all → SpellsDocument settings keys text →
        parse text = .ok settings) ∧
      ∀ text, Denotes Numeral text settings.toArray.written → parse text = .ok settings) ∧
    ∀ text found, parse text = .ok found → found.TagLocale := by
  refine ⟨fun settings tag => ?_, fun _ _ h => (parse_eq_ok_iff.1 h).2⟩
  have hdocument : ∀ keys text, keys.Perm Key.all → SpellsDocument settings keys text →
      parse text = .ok settings := by
    intro keys text hperm hspells
    have hread := decode_of_document (hperm.nodup_iff.2 Key.nodup_all) hspells
    rw [adoptAll_eq fun key => hperm.mem_iff.2 key.mem_all] at hread
    exact parse_eq_ok_iff.2 ⟨hread, tag⟩
  refine ⟨?_, hdocument, fun text h => parse_eq_ok_iff.2 ⟨decode_of_array h, tag⟩⟩
  exact hdocument _ _ (.refl _) (spellsDocument_of_denotes (Json.denotes_toText settings.toJson))

/-- Settings with paths that need every kind of escape. -/
def oddSettings : Settings where
  enabled := true
  enforceSchema := false
  vendor := .ipInfo
  cityPath := "a \"path\"\\\n\x00/\u2028"
  asPath := "é😀"
  fallbackPath := some ""
  cityEnabled := false
  asEnabled := true
  locale := "zh_Hant-TW"
  legacyTimeZone := false

/-- An array of half a surrogate pair and a number beyond all floats. -/
def oddArray : List Char :=
  ['[', '"', '\\', 'u', 'd', '8', '3', 'd', '"', ',', '1', 'e', '9', '9', '9', ']']

/-- A document with such an array under another name, and then the settings from the last one on. -/
def oddText : String :=
  String.ofList ('\x7b' :: (Json.renderString "later" ++ ':' :: (oddArray ++ ',' ::
    Json.renderMembers (Key.all.reverse.map fun key => (key.name, oddSettings.valueOf key)))))

theorem formed_oddArray (rest : List Char) : Formed (oddArray ++ ',' :: rest) .value (',' :: rest) := by
  have hcode : Json.FormedChars ['\\', 'u', 'd', '8', '3', 'd'] :=
    .code (by decide : Text.hex4? 'd' '8' '3' 'd' = some 0xd83d) .nil
  have hnumber : Json.Literal.Spelled ['1', 'e', '9', '9', '9'] ⟨false, Decimal.natural 1, none, some 999⟩ :=
    .mk false 1 .none
      (@Json.Literal.ExponentText.plain 'e' [] ['9', '9', '9'] (.inl rfl) (.inl rfl) (by simp) (by simp))
  refine .array rfl (.nextItem (.string rfl hcode) rfl (.lastItem (.number rfl hnumber ?_) rfl))
  exact Json.stops_cons (by decide) _

theorem parse_spelled_odd :
    oddSettings.TagLocale ∧ Key.all.reverse.Perm Key.all ∧
      SpellsDocument oddSettings Key.all.reverse oddText ∧
      parse oddSettings.toJson.toText = .ok oddSettings ∧ parse oddText = .ok oddSettings ∧
      parse oddSettings.toArray.toText = .ok oddSettings := by
  have tag : oddSettings.TagLocale := valid_iff.1 (by decide)
  have hperm : Key.all.reverse.Perm Key.all := List.reverse_perm Key.all
  have hspells : SpellsDocument oddSettings Key.all.reverse oddText := by
    have hmembers := Json.spells_renderMembers
      (Key.all.reverse.map fun key => (key.name, oddSettings.valueOf key)) (List.cons_ne_nil _ _) []
    rw [List.append_nil] at hmembers
    have hlater : ∀ rest, SpellsMember oddSettings
        (Json.renderString "later" ++ ':' :: (oddArray ++ ',' :: rest)) none (',' :: rest) := fun rest =>
      .unknown (Json.spellsName_renderString "later" _) (Key.ofName?_eq_none_iff.1 (by decide))
        (formed_oddArray rest)
    refine ⟨_, [], ?_, .next (hlater _) (Json.skipSpace_cons (by decide) _)
      (spellsMembers_of_spells _ _ hmembers), rfl⟩
    rw [oddText, String.toList_ofList]
    exact Json.skipSpace_cons (by decide) _
  obtain ⟨htext, hdocuments, harrays⟩ := parse_spelled.1 oddSettings tag
  exact ⟨tag, hperm, hspells, htext, hdocuments _ _ hperm hspells,
    harrays _ (Json.denotes_toText oddSettings.toArray)⟩

end Settings

end GeoTag
