import Mathlib.Data.Finset.Card
import GeoTag.Proofs.Writing

/-!
# What a record keeps of the writes behind it

A record comes from the members of an object and from fields that are written behind them, one at a
time.  Members and fields together are its history.  The record keeps each name of the history once, in
the order of the first writes, and under each name the value of the last write (`Record.Keeps`); one more
write leaves every other field as and where it is (`Record.SameBut`).  Main result: `Record.keeps_writes`.
-/

namespace GeoTag

namespace Keyed

/-! ## First and last writes -/

/-- The names stand in the order in which they first occur in a history. -/
def InOrderOf (history names : List String) : Prop :=
  names.Pairwise fun a b => history.idxOf a < history.idxOf b

theorem InOrderOf.nodup {history names : List String} (h : InOrderOf history names) : names.Nodup :=
  h.imp fun hlt heq => Nat.ne_of_lt hlt (congrArg history.idxOf heq)

/-- More history moves no name that is in it already. -/
theorem InOrderOf.append {history names : List String} (h : InOrderOf history names)
    (hmem : ∀ a ∈ names, a ∈ history) (more : List String) : InOrderOf (history ++ more) names := by
  refine h.imp_of_mem fun ha hb hlt => ?_
  rwa [List.idxOf_append_of_mem (hmem _ ha), List.idxOf_append_of_mem (hmem _ hb)]

/-- A new name is the last one. -/
theorem InOrderOf.concat {history names : List String} {name : String} (h : InOrderOf history names)
    (hmem : ∀ a ∈ names, a ∈ history) (hnew : name ∉ history) :
    InOrderOf (history ++ [name]) (names ++ [name]) := by
  refine List.pairwise_append.2 ⟨h.append hmem [name], List.pairwise_singleton _ _, fun a ha b hb => ?_⟩
  rw [List.mem_singleton.1 hb, List.idxOf_append_of_mem (hmem a ha), List.idxOf_append_of_notMem hnew]
  exact Nat.lt_add_right _ (List.idxOf_lt_length_of_mem (hmem a ha))

variable {α : Type} {history entries : List (String × α)} {name : String} {value : α}

/-- The value is the one of the last write under a name. -/
def LastWritten (history : List (String × α)) (name : String) (value : α) : Prop :=
  ∃ earlier later, history = earlier ++ (name, value) :: later ∧ name ∉ names later

theorem not_lastWritten_nil : ¬ LastWritten [] name value := by
  rintro ⟨earlier, later, h, -⟩
  exact List.append_ne_nil_of_right_ne_nil earlier (List.cons_ne_nil _ later) h.symm

/-- The write at the end is the last one under its name. -/
theorem lastWritten_concat_self (new : α) :
    LastWritten (history ++ [(name, new)]) name value ↔ value = new := by
  constructor
  · rintro ⟨earlier, later, h, hlater⟩
    rcases List.eq_nil_or_concat' later with rfl | ⟨later, last, rfl⟩
    · have hlast : (name, new) = (name, value) := List.singleton_inj.1 (List.append_inj' h rfl).2
      exact (Prod.mk.inj hlast).2.symm
    · rw [← List.cons_append, ← List.append_assoc] at h
      obtain rfl := List.singleton_inj.1 (List.append_inj' h rfl).2
      exact absurd (mem_names_iff.2 ⟨new, List.mem_concat_self⟩) hlater
  · rintro rfl
    exact ⟨history, [], rfl, List.not_mem_nil⟩

/-- Under other names the write at the end does not count. -/
theorem lastWritten_concat_of_ne {written : String} (hne : name ≠ written) (new : α) :
    LastWritten (history ++ [(written, new)]) name value ↔ LastWritten history name value := by
  constructor
  · rintro ⟨earlier, later, h, hlater⟩
    rcases List.eq_nil_or_concat' later with rfl | ⟨later, last, rfl⟩
    · have hlast : (written, new) = (name, value) := List.singleton_inj.1 (List.append_inj' h rfl).2
      exact absurd (Prod.mk.inj hlast).1.symm hne
    · rw [← List.cons_append, ← List.append_assoc] at h
      rw [names_append, List.mem_append, not_or] at hlater
      exact ⟨earlier, later, (List.append_inj' h rfl).1, hlater.1⟩
  · rintro ⟨earlier, later, rfl, hlater⟩
    refine ⟨earlier, later ++ [(written, new)], List.append_assoc _ _ _, ?_⟩
    rw [names_append, List.mem_append, not_or]
    exact ⟨hlater, fun hlast => hne (List.mem_singleton.1 hlast)⟩

/-- A write leaves each entry under another name at its place. -/
theorem getElem?_put_eq_some_iff (written : String) (new : α) (i : Nat) {entry : String × α}
    (hne : entry.1 ≠ written) :
    (put written new entries)[i]? = some entry ↔ entries[i]? = some entry := by
  have hother : ∀ v, (written, v) ≠ entry := fun v heq => hne (congrArg Prod.fst heq).symm
  induction entries generalizing i with
  | nil => cases i <;> simp [put, hother]
  | cons e entries ih =>
    obtain ⟨n, v⟩ := e
    by_cases hn : n = written
    · subst hn
      rw [put, if_pos rfl]
      cases i with
      | zero => simp [hother]
      | succ i => rfl
    · rw [put, if_neg hn]
      cases i with
      | zero => rfl
      | succ i => exact ih i

end Keyed

namespace Record

variable {record : Record} {history : List (String × FieldValue)}

/-! ## Records and their histories -/

/-- What a record keeps of a history of writes. -/
structure Keeps (record : Record) (history : List (String × FieldValue)) : Prop where
  /-- No name stands twice. -/
  names_nodup : record.names.Nodup
  /-- The names are the names that were ever written. -/
  mem_names_iff : ∀ name, name ∈ record.names ↔ name ∈ Keyed.names history
  /-- The names stand in the order of their first writes. -/
  names_inOrder : Keyed.InOrderOf (Keyed.names history) record.names
  /-- Under a name stands the value that was written last. -/
  get?_eq_some_iff : ∀ name value,
    record.get? name = some value ↔ Keyed.LastWritten history name value
  /-- Nothing stands under a name that was never written. -/
  get?_eq_none_iff : ∀ name, record.get? name = none ↔ name ∉ Keyed.names history
  /-- There are as many fields as different names. -/
  size_eq : record.size = (Keyed.names history).toFinset.card

/-- Two records have the same fields at the same places, but for the field under one name. -/
def SameBut (name : String) (a b : Record) : Prop :=
  ∀ (i : Nat) (f : String × FieldValue), f.1 ≠ name → (b.fields[i]? = some f ↔ a.fields[i]? = some f)

/-- Names in order and last values are all that a record has to keep. -/
theorem keeps_of (hmem : ∀ name, name ∈ record.names ↔ name ∈ Keyed.names history)
    (horder : Keyed.InOrderOf (Keyed.names history) record.names)
    (hvalue : ∀ name value,
      record.get? name = some value ↔ Keyed.LastWritten history name value) :
    record.Keeps history where
  names_nodup := horder.nodup
  mem_names_iff := hmem
  names_inOrder := horder
  get?_eq_some_iff := hvalue
  get?_eq_none_iff name := by rw [record.get?_eq_none_iff, hmem]
  size_eq := by
    have hset : record.names.toFinset = (Keyed.names history).toFinset := by
      ext name
      rw [List.mem_toFinset, List.mem_toFinset, hmem]
    rw [← hset, List.toFinset_card_of_nodup horder.nodup]
    exact (List.length_map _).symm

theorem keeps_empty : empty.Keeps [] :=
  keeps_of (fun _ => Iff.rfl) List.Pairwise.nil fun _ _ =>
    iff_of_false (Option.some_ne_none _).symm Keyed.not_lastWritten_nil

/-- One write behind a history. -/
theorem Keeps.put (h : record.Keeps history) (name : String) (value : FieldValue) :
    (record.put name value).Keeps (history ++ [(name, value)]) := by
  have hnames : Keyed.names (history ++ [(name, value)]) = Keyed.names history ++ [name] :=
    Keyed.names_append history [(name, value)]
  have hwritten : ∀ a ∈ record.names, a ∈ Keyed.names history := fun a => (h.mem_names_iff a).1
  refine keeps_of (fun other => ?_) ?_ fun other v => ?_
  · rw [mem_names_put, hnames, List.mem_append, List.mem_singleton, h.mem_names_iff, or_comm]
  · rw [names_put, hnames]
    split
    · exact h.names_inOrder.append hwritten [name]
    · rename_i hnew
      exact h.names_inOrder.concat hwritten ((h.mem_names_iff name).not.1 hnew)
  · rw [get?_put]
    split
    · rename_i hother
      rw [hother, Keyed.lastWritten_concat_self, Option.some.injEq, eq_comm]
    · rename_i hother
      rw [Keyed.lastWritten_concat_of_ne hother, h.get?_eq_some_iff]

/-- A row of writes behind a history. -/
theorem Keeps.putAll (h : record.Keeps history) (writes : List (String × FieldValue)) :
    (record.putAll writes).Keeps (history ++ writes) := by
  induction writes generalizing record history with
  | nil =>
    rw [List.append_nil]
    exact h
  | cons write writes ih =>
    rw [putAll_cons, List.append_cons]
    exact ih (h.put write.1 write.2)

theorem sameBut_put (record : Record) (name : String) (value : FieldValue) :
    record.SameBut name (record.put name value) :=
  fun i _ hne => Keyed.getElem?_put_eq_some_iff name value i hne

/-! ## Records of objects, and fields written behind -/

theorem fields_putAll_eq_foldl (record : Record) (writes : List (String × FieldValue)) :
    (record.putAll writes).fields =
      writes.foldl (fun entries w => Keyed.put w.1 w.2 entries) record.fields := by
  induction writes generalizing record with
  | nil => rfl
  | cons write writes ih => exact ih (record.put write.1 write.2)

/-- The record of an object is written member by member. -/
theorem ofMembers_eq_putAll (members : List (String × Json)) :
    ofMembers members = empty.putAll (members.map fun m => (m.1, FieldValue.ofJson m.2)) :=
  eq_of_fields_eq (fields_putAll_eq_foldl empty _).symm

/-- A record of an object, perhaps without members, keeps the members and all that is written behind
them, wherever names come again; and one more write leaves each other field its value and its place. -/
theorem keeps_writes (members : List (String × Json)) (writes : List (String × FieldValue)) :
    ((ofMembers members).putAll writes).Keeps
      ((members.map fun m => (m.1, FieldValue.ofJson m.2)) ++ writes) ∧
    ∀ (name : String) (value : FieldValue),
      ((ofMembers members).putAll writes).SameBut name
        ((ofMembers members).putAll (writes ++ [(name, value)])) := by
  constructor
  · rw [ofMembers_eq_putAll]
    exact (keeps_empty.putAll _).putAll writes
  · intro name value
    rw [putAll_append]
    exact sameBut_put _ name value

example : ofMembers [] = empty := rfl

example : ((ofMembers [("b", .string "1"), ("a", .bool true)]).putAll
    [("host_ip", .address (.v6 1)), ("b", .bool false)]).names = ["b", "a", "host_ip"] := by decide

end Record

end GeoTag
