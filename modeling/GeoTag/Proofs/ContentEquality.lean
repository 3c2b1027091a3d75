import GeoTag.Proofs.FieldJson
import GeoTag.Proofs.FloatEquality
import GeoTag.Proofs.JsonShape
import Mathlib.Data.List.Perm.Basic

/-!
# Equality by content

`Json.Equal` and `FieldValue.Equal` say kind by kind when two values are equal: items in order, members by
name.  The functions that compare decide these relations for values without two members of one name
(`Json.same_iff`, `FieldValue.same_iff`).  They compare from the left: as many entries on either side, and
an equal one on the right for each one on the left.  As names are distinct, that is to say that both sides
have the same names and equal values under each (`Keyed.matched_iff`), so the side does not matter.
`Record.same_iff_equal` has what follows for records.
-/

namespace GeoTag

namespace Keyed

variable {α : Type}

/-- The same names, and related values under each. -/
structure Matched (R : α → α → Prop) (as bs : List (String × α)) : Prop where
  names : ∀ name, name ∈ names as ↔ name ∈ names bs
  values : ∀ name x y, get? name as = some x → get? name bs = some y → R x y

theorem exists_get?_iff {name : String} {entries : List (String × α)} :
    (∃ value, get? name entries = some value) ↔ name ∈ names entries := by
  rw [← Option.isSome_iff_exists, Option.isSome_iff_ne_none, Ne, get?_eq_none_iff, not_not]

theorem mem_of_get? {name : String} {value : α} {entries : List (String × α)}
    (h : get? name entries = some value) : (name, value) ∈ entries := by
  induction entries with
  | nil => cases h
  | cons e rest ih =>
    obtain ⟨n, v⟩ := e
    by_cases hn : n = name
    · rw [get?, if_pos hn, Option.some.injEq] at h
      rw [hn, h]
      exact List.mem_cons_self
    · rw [get?, if_neg hn] at h
      exact List.mem_cons_of_mem _ (ih h)

theorem Matched.symm_of {R S : α → α → Prop} {as bs : List (String × α)}
    (h : ∀ x y, R x y → S y x) (hab : Matched R as bs) : Matched S bs as where
  names name := (hab.names name).symm
  values name x y hx hy := h y x (hab.values name y x hy hx)

theorem Matched.trans_of {R S T : α → α → Prop} {as bs cs : List (String × α)}
    (h : ∀ x y z, R x y → S y z → T x z) (hab : Matched R as bs) (hbc : Matched S bs cs) :
    Matched T as cs where
  names name := (hab.names name).trans (hbc.names name)
  values name x z hx hz := by
    obtain ⟨y, hy⟩ := exists_get?_iff.2 ((hab.names name).1 (exists_get?_iff.1 ⟨x, hx⟩))
    exact h x y z (hab.values name x y hx hy) (hbc.values name y z hy hz)

/-- With distinct names on both sides, a comparison from the left is one from both sides. -/
theorem matched_iff {R : α → α → Prop} {as bs : List (String × α)} (ha : (names as).Nodup)
    (hb : (names bs).Nodup) :
    (as.length = bs.length ∧ ∀ a ∈ as, ∃ y, get? a.1 bs = some y ∧ R a.2 y) ↔
      Matched R as bs := by
  have hlength : as.length = bs.length ↔ (names as).length = (names bs).length := by simp [names]
  constructor
  · rintro ⟨hlen, hfound⟩
    have hsubset : names as ⊆ names bs := by
      intro name hname
      obtain ⟨x, hx⟩ := mem_names_iff.1 hname
      obtain ⟨y, hy, -⟩ := hfound (name, x) hx
      exact exists_get?_iff.1 ⟨y, hy⟩
    -- As many names on either side, so the right side has no name of its own.
    have hperm : (names as).Perm (names bs) :=
      (List.subperm_of_subset ha hsubset).perm_of_length_le (Nat.le_of_eq (hlength.1 hlen).symm)
    refine ⟨fun name => hperm.mem_iff, fun name x y hx hy => ?_⟩
    obtain ⟨y', hy', hxy⟩ := hfound (name, x) ((get?_eq_some_iff ha name x).1 hx)
    rw [hy, Option.some.injEq] at hy'
    exact hy' ▸ hxy
  · intro h
    refine ⟨hlength.2 ((List.perm_ext_iff_of_nodup ha hb).2 h.names).length_eq, ?_⟩
    intro a hmem
    obtain ⟨y, hy⟩ := exists_get?_iff.2 ((h.names a.1).1 (mem_names_iff.2 ⟨a.2, hmem⟩))
    exact ⟨y, hy, h.values a.1 a.2 y ((get?_eq_some_iff ha a.1 a.2).2 hmem) hy⟩

end Keyed

/-! ## JSON values -/

namespace Json

/-- Equality by content, kind by kind. -/
inductive Equal : Json → Json → Prop
  /-- `null` is equal to `null`. -/
  | null : Equal .null .null
  /-- A truth value is equal to itself. -/
  | bool (b : Bool) : Equal (.bool b) (.bool b)
  /-- An integer is equal to itself. -/
  | integer (i : Int) (fits : Number.Fits i) :
    Equal (.number (.integer i fits)) (.number (.integer i fits))
  /-- Floats are equal as IEEE numbers. -/
  | float {f g : Float} (hf : f.isFinite = true) (hg : g.isFinite = true) :
    (f == g) = true → Equal (.number (.float f hf)) (.number (.float g hg))
  /-- A text is equal to itself. -/
  | string (s : String) : Equal (.string s) (.string s)
  /-- As many items, and equal ones at each place. -/
  | array {xs ys : List Json} : xs.length = ys.length →
    (∀ (i : Nat) (x y : Json), xs[i]? = some x → ys[i]? = some y → Equal x y) →
    Equal (.array xs) (.array ys)
  /-- The same names, and equal values under each. -/
  | object {xs ys : List (String × Json)} :
    (∀ name, name ∈ Keyed.names xs ↔ name ∈ Keyed.names ys) →
    (∀ name x y, Keyed.get? name xs = some x → Keyed.get? name ys = some y → Equal x y) →
    Equal (.object xs) (.object ys)

theorem equal_array_iff {xs ys : List Json} :
    (array xs).Equal (.array ys) ↔ List.Forall₂ Equal xs ys := by
  rw [List.forall₂_iff_get]
  constructor
  · intro h
    cases h with
    | array hlength hitems =>
      refine ⟨hlength, fun i hx hy => hitems i _ _ ?_ ?_⟩
      · exact List.getElem?_eq_getElem hx
      · exact List.getElem?_eq_getElem hy
  · rintro ⟨hlength, hitems⟩
    refine .array hlength fun i x y hx hy => ?_
    obtain ⟨hi, rfl⟩ := List.getElem?_eq_some_iff.1 hx
    obtain ⟨hi', rfl⟩ := List.getElem?_eq_some_iff.1 hy
    exact hitems i hi hi'

theorem equal_object_iff {xs ys : List (String × Json)} :
    (object xs).Equal (.object ys) ↔ Keyed.Matched Equal xs ys := by
  constructor
  · intro h
    cases h with
    | object hnames hvalues => exact ⟨hnames, hvalues⟩
  · exact fun h => .object h.names h.values

theorem Number.same_iff (m n : Number) : m.same n = true ↔ Equal (.number m) (.number n) := by
  constructor
  · intro h
    cases m with
    | integer i hi =>
      cases n with
      | integer j hj =>
        obtain rfl : i = j := of_decide_eq_true h
        exact .integer i hi
      | float g hg => cases h
    | float f hf =>
      cases n with
      | integer j hj => cases h
      | float g hg => exact .float hf hg h
  · intro h
    cases h with
    | integer i fits => exact decide_eq_true rfl
    | float hf hg h => exact h

mutual

theorem same_iff : ∀ x y : Json, x.Distinct → y.Distinct → (x.same y = true ↔ x.Equal y)
  | .null, y, _, _ => by
    cases y with
    | null => exact iff_of_true (by rw [same]) .null
    | _ => exact iff_of_false (by simp [same]) fun h => by cases h
  | .bool b, y, _, _ => by
    cases y with
    | bool c =>
      rw [same, decide_eq_true_eq]
      exact ⟨fun h => h ▸ .bool b, fun h => by cases h; rfl⟩
    | _ => exact iff_of_false (by simp [same]) fun h => by cases h
  | .number m, y, _, _ => by
    cases y with
    | number n => rw [same, m.same_iff]
    | _ => exact iff_of_false (by simp [same]) fun h => by cases h
  | .string s, y, _, _ => by
    cases y with
    | string t =>
      rw [same, decide_eq_true_eq]
      exact ⟨fun h => h ▸ .string s, fun h => by cases h; rfl⟩
    | _ => exact iff_of_false (by simp [same]) fun h => by cases h
  | .array xs, y, hx, hy => by
    cases y with
    | array ys =>
      rw [Distinct] at hx hy
      rw [same, sameItems_iff xs ys hx hy, equal_array_iff]
    | _ => exact iff_of_false (by simp [same]) fun h => by cases h
  | .object xs, y, hx, hy => by
    cases y with
    | object ys =>
      rw [Distinct] at hx
      rw [distinct_object_iff] at hy
      rw [same, Bool.and_eq_true, decide_eq_true_eq, sameMembers_iff xs ys hx.2 hy.2,
        Keyed.matched_iff hx.1 hy.1, equal_object_iff]
    | _ => exact iff_of_false (by simp [same]) fun h => by cases h

theorem sameItems_iff : ∀ xs ys : List Json, DistinctItems xs → DistinctItems ys →
    (sameItems xs ys = true ↔ List.Forall₂ Equal xs ys)
  | [], [], _, _ => by simp [sameItems]
  | [], y :: ys, _, _ => by simp [sameItems]
  | x :: xs, [], _, _ => by simp [sameItems]
  | x :: xs, y :: ys, hx, hy => by
    rw [DistinctItems] at hx hy
    rw [sameItems, Bool.and_eq_true, same_iff x y hx.1 hy.1, sameItems_iff xs ys hx.2 hy.2,
      List.forall₂_cons]

theorem sameMembers_iff : ∀ xs ys : List (String × Json), DistinctMembers xs →
    (∀ b ∈ ys, b.2.Distinct) →
    (sameMembers xs ys = true ↔ ∀ a ∈ xs, ∃ y, Keyed.get? a.1 ys = some y ∧ a.2.Equal y)
  | [], _, _, _ => by simp [sameMembers]
  | (name, x) :: xs, ys, hx, hy => by
    rw [DistinctMembers] at hx
    rw [sameMembers, Bool.and_eq_true, sameMembers_iff xs ys hx.2 hy, List.forall_mem_cons]
    apply and_congr_left'
    cases hget : Keyed.get? name ys with
    | none => simp
    | some y => simp [same_iff x y hx.1 (hy _ (Keyed.mem_of_get? hget))]

end

mutual

theorem Equal.refl : ∀ x : Json, x.Equal x
  | .null => .null
  | .bool b => .bool b
  | .number (.integer i fits) => .integer i fits
  | .number (.float _ finite) => .float finite finite (Floating.beq_self_of_isFinite finite)
  | .string s => .string s
  | .array xs => equal_array_iff.2 (Equal.items_refl xs)
  | .object xs => by
    refine .object (fun _ => Iff.rfl) fun name x y hx hy => ?_
    rw [hx, Option.some.injEq] at hy
    exact hy ▸ Equal.members_refl xs (name, x) (Keyed.mem_of_get? hx)

theorem Equal.items_refl : ∀ xs : List Json, List.Forall₂ Equal xs xs
  | [] => .nil
  | x :: xs => .cons (Equal.refl x) (Equal.items_refl xs)

theorem Equal.members_refl : ∀ xs : List (String × Json), ∀ a ∈ xs, a.2.Equal a.2
  | [], _, h => absurd h List.not_mem_nil
  | (name, x) :: xs, a, h => by
    rcases List.mem_cons.1 h with rfl | h
    · exact Equal.refl x
    · exact Equal.members_refl xs a h

end

theorem same_self (x : Json) (h : x.Distinct) : x.same x = true := (same_iff x x h h).2 (.refl x)

theorem Equal.symm {x y : Json} (h : x.Equal y) : y.Equal x := by
  induction h with
  | null => exact .null
  | bool b => exact .bool b
  | integer i fits => exact .integer i fits
  | float hf hg h => exact .float hg hf (Floating.beq_symm h)
  | string s => exact .string s
  | array hlength _ ih => exact .array hlength.symm fun i x y hx hy => ih i y x hy hx
  | object hnames _ ih =>
    exact .object (fun name => (hnames name).symm) fun name x y hx hy => ih name y x hy hx

theorem Equal.trans {x y z : Json} (hxy : x.Equal y) (hyz : y.Equal z) : x.Equal z := by
  induction hxy generalizing z with
  | null => exact hyz
  | bool b => exact hyz
  | integer i fits => exact hyz
  | float hf hg h =>
    cases hyz with
    | float hg' hh h' => exact .float hf hh (Floating.beq_trans h h')
  | string s => exact hyz
  | @array xs ys hlength _ ih =>
    cases hyz with
    | array hlength' hitems =>
      refine .array (hlength.trans hlength') fun i x z hx hz => ?_
      obtain ⟨hi, -⟩ := List.getElem?_eq_some_iff.1 hx
      have hy : ys[i]? = some ys[i] := List.getElem?_eq_getElem (hlength ▸ hi)
      exact ih i x _ hx hy (hitems i _ z hy hz)
  | @object xs ys hnames _ ih =>
    cases hyz with
    | @object _ zs hnames' hvalues =>
      have hxy : Keyed.Matched (fun x y => ∀ {z}, y.Equal z → x.Equal z) xs ys :=
        ⟨hnames, fun name x y hx hy z => ih name x y hx hy⟩
      have hyz : Keyed.Matched Equal ys zs := ⟨hnames', hvalues⟩
      exact equal_object_iff.2 (hxy.trans_of (fun x y z h h' => h h') hyz)

/-! ### Values with their names in another order -/

/-- The same value, up to the order of the members of any object in it. -/
inductive Reordered : Json → Json → Prop
  /-- Nothing is moved. -/
  | refl (x : Json) : Reordered x x
  /-- The items stay where they are, and the members of objects in them may be moved. -/
  | array {xs ys : List Json} : xs.length = ys.length →
    (∀ (i : Nat) (x y : Json), xs[i]? = some x → ys[i]? = some y → Reordered x y) →
    Reordered (.array xs) (.array ys)
  /-- The members are moved, and so may be the members of objects in their values. -/
  | object {xs ys : List (String × Json)} : (Keyed.names xs).Perm (Keyed.names ys) →
    (∀ name x y, Keyed.get? name xs = some x → Keyed.get? name ys = some y → Reordered x y) →
    Reordered (.object xs) (.object ys)

theorem Reordered.equal {x y : Json} (h : x.Reordered y) : x.Equal y := by
  induction h with
  | refl x => exact .refl x
  | array hlength _ ih => exact .array hlength ih
  | object hnames _ ih => exact .object (fun _ => hnames.mem_iff) ih

theorem Reordered.distinct {x y : Json} (h : x.Reordered y) (hx : x.Distinct) : y.Distinct := by
  induction h with
  | refl x => exact hx
  | @array xs ys hlength _ ih =>
    rw [distinct_array_iff] at hx ⊢
    intro y hy
    obtain ⟨i, hi, rfl⟩ := List.mem_iff_getElem.1 hy
    have hitem : xs[i]? = some xs[i] := List.getElem?_eq_getElem (hlength ▸ hi)
    exact ih i _ _ hitem (List.getElem?_eq_getElem hi) (hx _ (List.mem_of_getElem? hitem))
  | @object xs ys hnames _ ih =>
    rw [distinct_object_iff] at hx ⊢
    have hnodup : (Keyed.names ys).Nodup := hnames.nodup_iff.1 hx.1
    refine ⟨hnodup, fun b hb => ?_⟩
    have hy : Keyed.get? b.1 ys = some b.2 := (Keyed.get?_eq_some_iff hnodup b.1 b.2).2 hb
    obtain ⟨x, hfound⟩ :=
      Keyed.exists_get?_iff.2 (hnames.mem_iff.2 (Keyed.exists_get?_iff.1 ⟨b.2, hy⟩))
    exact ih b.1 x b.2 hfound hy (hx.2 _ (Keyed.mem_of_get? hfound))

end Json

/-! ## Fields -/

namespace FieldValue

/-- Equality by content: only values of one kind are equal. -/
inductive Equal : FieldValue → FieldValue → Prop
  /-- A text is equal to itself. -/
  | string (s : String) : Equal (.string s) (.string s)
  /-- An integer is equal to itself. -/
  | integer (i : Int64) : Equal (.integer i) (.integer i)
  /-- Floats are equal as IEEE numbers. -/
  | float {f g : Float} : (f == g) = true → Equal (.float f) (.float g)
  /-- A truth value is equal to itself. -/
  | bool (b : Bool) : Equal (.bool b) (.bool b)
  /-- A typed address is equal to itself. -/
  | address (a : Address) : Equal (.address a) (.address a)
  /-- Other JSON values are equal by content. -/
  | other {x y : Json} : x.Equal y → Equal (.other x) (.other y)

/-- The same value, up to the order of the members of any object in it. -/
inductive Reordered : FieldValue → FieldValue → Prop
  /-- Nothing is moved. -/
  | refl (value : FieldValue) : Reordered value value
  /-- Members of objects in a JSON value are moved. -/
  | other {x y : Json} : x.Reordered y → Reordered (.other x) (.other y)

/-- Only a field of the kind for other JSON values has names in it. -/
theorem distinct_toJson_of_other {value : FieldValue} (h : ∀ x, value = .other x → x.Distinct) :
    value.toJson.Distinct := by
  cases value with
  | float f =>
    rw [toJson]
    cases Json.Number.ofFloat? f <;> trivial
  | other x => exact h x rfl
  | _ => trivial

theorem equal_of_same {x y : FieldValue} (hx : x.toJson.Distinct) (hy : y.toJson.Distinct)
    (h : x.same y = true) : x.Equal y := by
  cases x with
  | string s =>
    cases y with
    | string t => exact (of_decide_eq_true h : s = t) ▸ .string s
    | _ => cases h
  | integer i =>
    cases y with
    | integer j => exact (of_decide_eq_true h : i = j) ▸ .integer i
    | _ => cases h
  | float f =>
    cases y with
    | float g => exact .float h
    | _ => cases h
  | bool b =>
    cases y with
    | bool c => exact (of_decide_eq_true h : b = c) ▸ .bool b
    | _ => cases h
  | address a =>
    cases y with
    | address b => exact (of_decide_eq_true h : a = b) ▸ .address a
    | _ => cases h
  | other x =>
    cases y with
    | other y => exact .other ((x.same_iff y hx hy).1 h)
    | _ => cases h

theorem same_iff {x y : FieldValue} (hx : x.toJson.Distinct) (hy : y.toJson.Distinct) :
    x.same y = true ↔ x.Equal y := by
  refine ⟨equal_of_same hx hy, fun h => ?_⟩
  cases h with
  | float h => exact h
  | other h => exact (Json.same_iff _ _ hx hy).2 h
  | _ => exact decide_eq_true rfl

theorem Equal.symm {x y : FieldValue} (h : x.Equal y) : y.Equal x := by
  cases h with
  | string s => exact .string s
  | integer i => exact .integer i
  | float h => exact .float (Floating.beq_symm h)
  | bool b => exact .bool b
  | address a => exact .address a
  | other h => exact .other h.symm

theorem Equal.trans {x y z : FieldValue} (hxy : x.Equal y) (hyz : y.Equal z) : x.Equal z := by
  cases hxy with
  | float h =>
    cases hyz with
    | float h' => exact .float (Floating.beq_trans h h')
  | other h =>
    cases hyz with
    | other h' => exact .other (h.trans h')
  | _ => exact hyz

theorem equal_self_iff (x : FieldValue) :
    x.Equal x ↔ ∀ f, x = .float f → f.isNaN = false := by
  constructor
  · rintro h f rfl
    cases h with
    | float h => exact (Floating.beq_self_iff f).1 h
  · intro h
    cases x with
    | string s => exact .string s
    | integer i => exact .integer i
    | float f => exact .float ((Floating.beq_self_iff f).2 (h f rfl))
    | bool b => exact .bool b
    | address a => exact .address a
    | other x => exact .other (.refl x)

theorem Reordered.equal_iff {x x' y : FieldValue} (h : x.Reordered x') :
    x.Equal y ↔ x'.Equal y := by
  cases h with
  | refl x => exact Iff.rfl
  | @other x x' h =>
    constructor
    · intro hxy
      cases hxy with
      | other hxy => exact .other (h.equal.symm.trans hxy)
    · intro hxy
      cases hxy with
      | other hxy => exact .other (h.equal.trans hxy)

theorem Reordered.distinct {x x' : FieldValue} (h : x.Reordered x') (hx : x.toJson.Distinct) :
    x'.toJson.Distinct := by
  cases h with
  | refl x => exact hx
  | other h => exact h.distinct hx

end FieldValue

/-! ## Records -/

namespace Record

/-- The same names, and equal values under each. -/
def Equal (a b : Record) : Prop := Keyed.Matched FieldValue.Equal a.fields b.fields

/-- The same fields in another order, and so may be the members of any object in them. -/
structure Reordered (a b : Record) : Prop where
  names : a.names.Perm b.names
  values : ∀ name x y, a.get? name = some x → b.get? name = some y → x.Reordered y

variable {a a' b b' c : Record}

theorem distinct_toJson_iff (record : Record) :
    record.toJson.Distinct ↔ ∀ f ∈ record.fields, f.2.toJson.Distinct := by
  rw [toJson, Json.distinct_object_iff, and_iff_right record.nodup_names_toMembers, toMembers]
  exact List.forall_mem_map

theorem distinct_of_get? (ha : a.toJson.Distinct) {name : String} {x : FieldValue}
    (h : a.get? name = some x) : x.toJson.Distinct :=
  a.distinct_toJson_iff.1 ha _ (Keyed.mem_of_get? h)

theorem same_iff (ha : a.toJson.Distinct) (hb : b.toJson.Distinct) :
    a.same b = true ↔ a.Equal b := by
  rw [Equal, ← Keyed.matched_iff a.nodup b.nodup, same, Bool.and_eq_true, decide_eq_true_eq,
    List.all_eq_true]
  refine and_congr Iff.rfl (forall₂_congr fun f hf => ?_)
  have hget : b.get? f.1 = Keyed.get? f.1 b.fields := rfl
  rw [hget]
  cases hfound : Keyed.get? f.1 b.fields with
  | none => simp
  | some y =>
    have hsame : f.2.same y = true ↔ f.2.Equal y :=
      FieldValue.same_iff (a.distinct_toJson_iff.1 ha f hf) (distinct_of_get? hb hfound)
    simp [hsame]

theorem equal_self_iff (a : Record) :
    a.Equal a ↔ ∀ name f, a.get? name = some (.float f) → f.isNaN = false := by
  constructor
  · intro h name f hf
    exact (FieldValue.equal_self_iff _).1 (h.values name _ _ hf hf) f rfl
  · intro h
    refine ⟨fun _ => Iff.rfl, fun name x y hx hy => ?_⟩
    rw [hx, Option.some.injEq] at hy
    subst hy
    refine (FieldValue.equal_self_iff x).2 fun f hf => h name f ?_
    rw [← hf]
    exact hx

theorem exists_get?_iff {name : String} : (∃ x, a.get? name = some x) ↔ name ∈ a.names :=
  Keyed.exists_get?_iff

theorem reordered_of_perm (h : a.fields.Perm b.fields) : a.Reordered b where
  names := h.map Prod.fst
  values name x y hx hy := by
    have hmem : (name, x) ∈ b.fields := h.mem_iff.1 (Keyed.mem_of_get? hx)
    have hfound : b.get? name = some x := (Keyed.get?_eq_some_iff b.nodup name x).2 hmem
    rw [hfound, Option.some.injEq] at hy
    exact hy ▸ .refl x

theorem Reordered.distinct (h : a.Reordered b) (ha : a.toJson.Distinct) : b.toJson.Distinct := by
  rw [distinct_toJson_iff]
  intro f hf
  have hy : b.get? f.1 = some f.2 := (Keyed.get?_eq_some_iff b.nodup f.1 f.2).2 hf
  obtain ⟨x, hx⟩ := exists_get?_iff.2 (h.names.mem_iff.2 (exists_get?_iff.1 ⟨f.2, hy⟩))
  exact (h.values f.1 x f.2 hx hy).distinct (distinct_of_get? ha hx)

theorem Reordered.matched (h : a.Reordered a') :
    Keyed.Matched FieldValue.Reordered a.fields a'.fields :=
  ⟨fun _ => h.names.mem_iff, h.values⟩

theorem Reordered.equal_iff (h : a.Reordered a') : a.Equal b ↔ a'.Equal b := by
  have hback : Keyed.Matched (fun x y => FieldValue.Reordered y x) a'.fields a.fields :=
    h.matched.symm_of fun _ _ hxy => hxy
  constructor
  · exact hback.trans_of fun x y z hxy hyz => hxy.equal_iff.1 hyz
  · exact h.matched.trans_of fun x y z hxy hyz => hxy.equal_iff.2 hyz

theorem Equal.symm (h : a.Equal b) : b.Equal a := h.symm_of fun _ _ => FieldValue.Equal.symm

theorem Equal.trans (hab : a.Equal b) (hbc : b.Equal c) : a.Equal c :=
  Keyed.Matched.trans_of (R := FieldValue.Equal) (fun _ _ _ => FieldValue.Equal.trans) hab hbc

theorem same_comm (ha : a.toJson.Distinct) (hb : b.toJson.Distinct) : a.same b = b.same a := by
  rw [Bool.eq_iff_iff, same_iff ha hb, same_iff hb ha]
  exact ⟨.symm, .symm⟩

theorem Reordered.same_eq (h : a.Reordered a') (ha : a.toJson.Distinct) (hb : b.toJson.Distinct) :
    a'.same b = a.same b := by
  rw [Bool.eq_iff_iff, same_iff (h.distinct ha) hb, same_iff ha hb]
  exact h.equal_iff.symm

/-- Records are equal when they have the same names and equal values under each, so the order of their fields
and of the members of any object in them makes no difference.  Equality does not depend on the side from
which it is seen, it goes from one record to the next, and a record is equal to itself unless a field of it
is no number. -/
theorem same_iff_equal (ha : a.toJson.Distinct) (hb : b.toJson.Distinct) :
    (a.same b = true ↔
      (∀ name, name ∈ a.names ↔ name ∈ b.names) ∧
        ∀ name x y, a.get? name = some x → b.get? name = some y → x.Equal y) ∧
    (∀ a' b' : Record, a.Reordered a' → b.Reordered b' → a'.same b' = a.same b) ∧
    a.same b = b.same a ∧
    (∀ c : Record, c.toJson.Distinct → a.same b = true → b.same c = true → a.same c = true) ∧
    (a.same a = true ↔ ∀ name f, a.get? name = some (.float f) → f.isNaN = false) := by
  refine ⟨?_, ?_, same_comm ha hb, ?_, ?_⟩
  · rw [same_iff ha hb]
    exact ⟨fun h => ⟨h.names, h.values⟩, fun h => ⟨h.1, h.2⟩⟩
  · intro a' b' haa' hbb'
    have ha' : a'.toJson.Distinct := haa'.distinct ha
    calc a'.same b' = b'.same a' := same_comm ha' (hbb'.distinct hb)
      _ = b.same a' := hbb'.same_eq hb ha'
      _ = a'.same b := same_comm hb ha'
      _ = a.same b := haa'.same_eq ha hb
  · intro c hc hab hbc
    rw [same_iff ha hb] at hab
    rw [same_iff hb hc] at hbc
    exact (same_iff ha hc).2 (hab.trans hbc)
  · rw [same_iff ha ha, equal_self_iff]

/-- A record with a float and an object. -/
def ratioRecord (ratio : Float) : Record :=
  ⟨[("ratio", .float ratio), ("tags", .other (.object [("p", .null), ("q", .array [.bool true])]))],
    by simp [Keyed.names]⟩

/-- The same record with its fields and the members of the object in another order. -/
def movedRecord (ratio : Float) : Record :=
  ⟨[("tags", .other (.object [("q", .array [.bool true]), ("p", .null)])), ("ratio", .float ratio)],
    by simp [Keyed.names]⟩

theorem distinct_ratioRecord (ratio : Float) : (ratioRecord ratio).toJson.Distinct := by
  rw [distinct_toJson_iff]
  intro f hf
  refine FieldValue.distinct_toJson_of_other fun x hx => ?_
  simp only [ratioRecord, List.mem_cons, List.not_mem_nil, or_false] at hf
  rcases hf with rfl | rfl <;> cases hx
  simp [Json.Distinct, Json.DistinctMembers, Json.DistinctItems, Keyed.names]

theorem reordered_movedRecord (ratio : Float) : (ratioRecord ratio).Reordered (movedRecord ratio) := by
  have hinner : Json.Reordered (.object [("p", .null), ("q", .array [.bool true])])
      (.object [("q", .array [.bool true]), ("p", .null)]) := by
    refine .object (List.Perm.swap _ _ _) fun name x y hx hy => ?_
    rcases List.mem_pair.1 (Keyed.mem_of_get? hx) with h | h <;> cases h <;> cases hy <;>
      exact .refl _
  refine ⟨List.Perm.swap _ _ _, fun name x y hx hy => ?_⟩
  rcases List.mem_pair.1 (Keyed.mem_of_get? hx) with h | h <;> cases h <;> cases hy
  · exact .refl _
  · exact .other hinner

theorem same_iff_equal_moved :
    (ratioRecord 0).toJson.Distinct ∧ (ratioRecord (Float.ofBits 0x8000000000000000)).toJson.Distinct ∧
      (ratioRecord (0 / 0)).toJson.Distinct ∧
      (movedRecord 0).same (ratioRecord (Float.ofBits 0x8000000000000000)) = true ∧
      (ratioRecord (0 / 0)).same (movedRecord (0 / 0)) = false := by
  have hzero := distinct_ratioRecord 0
  have hnegative := distinct_ratioRecord (Float.ofBits 0x8000000000000000)
  have hnone := distinct_ratioRecord (0 / 0)
  refine ⟨hzero, hnegative, hnone, ?_, ?_⟩
  · rw [(same_iff_equal hzero hnegative).2.1 _ _ (reordered_movedRecord 0)
      (reordered_of_perm (List.Perm.refl _))]
    decide
  · rw [(same_iff_equal hnone hnone).2.1 _ _ (reordered_of_perm (List.Perm.refl _))
      (reordered_movedRecord (0 / 0)), Bool.eq_false_iff, Ne, (same_iff_equal hnone hnone).2.2.2.2]
    intro h
    exact absurd (h "ratio" (0 / 0) rfl) (by decide)

end Record

end GeoTag
