import GeoTag.Proofs.Turns

/-!
# The order of the fields

Two records that hold the same fields in different orders come out with the same fields exactly when
no derived field disturbs a candidate that it falls on (`filter_congr_perm_iff`).  In the strict schema
none falls on a candidate at all (`orderFree_of_strict`).  If one disturbs a candidate, the order
decides: a candidate whose turn comes first leads to what it held, and one whose turn comes later to
what was written over it.
-/

namespace GeoTag

namespace Record

theorem get?_eq_of_perm {a b : Record} (h : a.fields.Perm b.fields) (name : String) :
    a.get? name = b.get? name := by
  apply Option.ext
  intro value
  unfold get?
  rw [Keyed.get?_eq_some_iff a.nodup, Keyed.get?_eq_some_iff b.nodup, h.mem_iff]

theorem exists_of_perm {record : Record} {fields : List (String × FieldValue)}
    (h : record.fields.Perm fields) : ∃ other : Record, other.fields = fields :=
  ⟨⟨fields, (h.map Prod.fst).nodup_iff.1 record.nodup⟩, rfl⟩

/-- A row with distinct names leaves the same in any order. -/
theorem get?_putAll_of_perm {fs gs : List (String × FieldValue)} (hn : (Keyed.names fs).Nodup)
    (h : fs.Perm gs) (record : Record) (name : String) :
    (record.putAll fs).get? name = (record.putAll gs).get? name := by
  have hgs : (Keyed.names gs).Nodup := (h.map Prod.fst).nodup_iff.1 hn
  by_cases hmem : name ∈ Keyed.names fs
  · obtain ⟨value, hvalue⟩ := Keyed.mem_names_iff.1 hmem
    rw [get?_putAll_of_mem hn hvalue, get?_putAll_of_mem hgs (h.mem_iff.1 hvalue)]
  · have hmem' : name ∉ Keyed.names gs := fun h' => hmem ((h.map Prod.fst).mem_iff.2 h')
    rw [get?_putAll_of_notMem hmem, get?_putAll_of_notMem hmem']

end Record

theorem Schema.candidates_perm (schema : Schema) {a b : Record} (h : a.fields.Perm b.fields) :
    (schema.candidates a).Perm (schema.candidates b) :=
  (h.map Prod.fst).filter _

/-- Any two distinct members of a list can be brought to its front, the one before the other. -/
theorem exists_perm_cons_cons {α : Type} {a b : α} {l : List α} (ha : a ∈ l) (hb : b ∈ l)
    (hne : b ≠ a) : ∃ rest, l.Perm (a :: b :: rest) := by
  obtain ⟨s, t, rfl⟩ := List.append_of_mem ha
  have hperm : (s ++ a :: t).Perm (a :: (s ++ t)) := List.perm_middle
  have hrest : b ∈ s ++ t := (List.mem_cons.1 (hperm.mem_iff.1 hb)).resolve_left hne
  obtain ⟨u, v, huv⟩ := List.append_of_mem hrest
  refine ⟨u ++ v, hperm.trans ?_⟩
  rw [huv]
  exact List.perm_middle.cons a

namespace Engine

variable {engine : Engine} {record : Record}

/-- Records with the fields of this one, in whatever order, all come out with the same fields. -/
def OrderFree (engine : Engine) (record : Record) : Prop :=
  ∀ other : Record, other.fields.Perm record.fields → ∀ name,
    (engine.filter other).record.get? name = (engine.filter record).record.get? name

theorem Undisturbed.orderFree (enabled : engine.enabled = true)
    (undisturbed : engine.Undisturbed record) : engine.OrderFree record := by
  intro other hperm name
  have hcandidates := engine.schema.candidates_perm hperm
  rw [record_filter_of_enabled enabled, record_filter_of_enabled enabled,
    get?_foldl_writeDerived_of_undisturbed undisturbed (engine.turns_candidates other)
      (fun _ h => hcandidates.mem_iff.1 h) (Record.get?_eq_of_perm hperm),
    get?_foldl_writeDerived_of_undisturbed undisturbed (engine.turns_candidates record)
      (fun _ h => h) (fun _ => rfl)]
  exact Record.get?_putAll_of_perm ((engine.turns_candidates other).nodup_names_flatMap record)
    (hcandidates.flatMap_right _) record name

/-- A candidate whose turn comes first leads to what it held. -/
theorem get?_filter_of_first (enabled : engine.enabled = true) {other : Record}
    (hperm : other.fields.Perm record.fields) {name : String} {later : List String}
    (hfirst : engine.schema.candidates other = name :: later) {derived : String}
    (h : derived ∈ engine.schema.derivedNames name) :
    (engine.filter other).record.get? derived =
      (record.putAll (engine.derivedFields record name)).get? derived := by
  have hsplit : engine.schema.candidates other = [name] ++ later := hfirst
  have hget := Record.get?_eq_of_perm hperm
  rw [get?_filter_of_visited enabled hsplit List.mem_cons_self h]
  show (other.putAll (engine.derivedFields other name)).get? derived = _
  rw [engine.derivedFields_congr (hget name)]
  exact Record.get?_putAll_congr (hget derived) _

/-- A candidate whose turn comes right after a derived field was written over it leads to that. -/
theorem get?_filter_of_second (enabled : engine.enabled = true) {other : Record}
    (hperm : other.fields.Perm record.fields) {field name : String} {later : List String}
    (hfirst : engine.schema.candidates other = field :: name :: later) {value : FieldValue}
    (hrow : (name, value) ∈ engine.derivedFields record field) {derived : String}
    (h : derived ∈ engine.schema.derivedNames name) :
    (engine.filter other).record.get? derived =
      (record.putAll (engine.derivedFields (record.put name value) name)).get? derived := by
  have hsplit : engine.schema.candidates other = [field, name] ++ later := hfirst
  have hget := Record.get?_eq_of_perm hperm
  have turns := engine.turns_candidates other
  rw [hsplit] at turns
  have hwritten : (engine.writeDerived other field).get? name =
      (record.put name value).get? name := by
    rw [Record.get?_put, if_pos rfl]
    refine Record.get?_putAll_of_mem (engine.nodup_names_derivedFields other field) ?_ other
    rwa [engine.derivedFields_congr (hget field)]
  have hderived : (engine.writeDerived other field).get? derived = record.get? derived := by
    have pair : engine.Turns ([field] ++ [name]) := turns.of_append
    have hunderived : derived ∉ engine.schema.derivedNames field := fun hmem =>
      pair.notMem_derivedNames List.mem_cons_self List.mem_cons_self hmem h
    rw [get?_writeDerived_of_notMem hunderived, hget]
  rw [get?_filter_of_visited enabled hsplit (List.mem_cons_of_mem field List.mem_cons_self) h]
  show ((engine.writeDerived other field).putAll
    (engine.derivedFields (engine.writeDerived other field) name)).get? derived = _
  rw [engine.derivedFields_congr hwritten]
  exact Record.get?_putAll_congr hderived _

theorem undisturbed_of_orderFree (enabled : engine.enabled = true)
    (free : engine.OrderFree record) : engine.Undisturbed record := by
  intro field hfield name hname value hrow derived
  by_cases h : derived ∈ engine.schema.derivedNames name
  · obtain ⟨hfieldMem, hfieldCandidate⟩ := (engine.schema.mem_candidates_iff record field).1 hfield
    obtain ⟨hnameMem, hnameCandidate⟩ := (engine.schema.mem_candidates_iff record name).1 hname
    obtain ⟨x, hx⟩ := Keyed.mem_names_iff.1 hfieldMem
    obtain ⟨y, hy⟩ := Keyed.mem_names_iff.1 hnameMem
    have hne : name ≠ field := by
      rintro rfl
      exact engine.schema.notMem_derivedNames_self hnameCandidate
        (mem_derivedNames_of_mem_names (Keyed.mem_names_iff.2 ⟨value, hrow⟩))
    obtain ⟨rest, hperm⟩ := exists_perm_cons_cons hx hy fun heq => hne (congrArg Prod.fst heq)
    -- One record has the turn of `name` first, the other has that of `field` right before it.
    obtain ⟨behind, hbehind⟩ :=
      Record.exists_of_perm (hperm.trans (List.Perm.swap (name, y) (field, x) rest))
    obtain ⟨ahead, hahead⟩ := Record.exists_of_perm hperm
    have pbehind : behind.fields.Perm record.fields := by
      rw [hbehind]
      exact (hperm.trans (List.Perm.swap _ _ rest)).symm
    have pahead : ahead.fields.Perm record.fields := by
      rw [hahead]
      exact hperm.symm
    have cbehind : engine.schema.candidates behind =
        name :: field :: (Keyed.names rest).filter engine.schema.isCandidate := by
      simp [Schema.candidates, Record.names, Keyed.names, hbehind, hnameCandidate, hfieldCandidate]
    have cahead : engine.schema.candidates ahead =
        field :: name :: (Keyed.names rest).filter engine.schema.isCandidate := by
      simp [Schema.candidates, Record.names, Keyed.names, hahead, hnameCandidate, hfieldCandidate]
    rw [← get?_filter_of_second enabled pahead cahead hrow h,
      ← get?_filter_of_first enabled pbehind cbehind h, free ahead pahead, free behind pbehind]
  · have hrows : ∀ other : Record, derived ∉ Keyed.names (engine.derivedFields other name) :=
      fun other hmem => h (mem_derivedNames_of_mem_names hmem)
    rw [Record.get?_putAll_of_notMem (hrows _), Record.get?_putAll_of_notMem (hrows _)]

/-- Where no derived field falls on a candidate, none is disturbed. -/
theorem undisturbed_of_separate
    (separate : engine.Separate record (engine.schema.candidates record)) :
    engine.Undisturbed record := by
  intro field hfield name hname value hrow
  exact absurd (Keyed.mem_names_iff.2 ⟨value, hrow⟩) (separate field hfield name hname)

/-- The strict schema looks at no name that it writes, so the order of the fields never matters. -/
theorem orderFree_of_strict (enabled : engine.enabled = true) (strict : engine.schema = .strict)
    (record : Record) : engine.OrderFree record :=
  (undisturbed_of_separate (separate_of_strict strict record)).orderFree enabled

/-- Records that hold the same fields, in whatever order, come out with the same names and the same
value under each, exactly when the engine is disabled or no candidate is disturbed. -/
theorem filter_congr_perm_iff (engine : Engine) (record : Record) :
    (∀ other : Record, other.fields.Perm record.fields → ∀ name,
      (engine.filter other).record.get? name = (engine.filter record).record.get? name) ↔
        (engine.enabled = true → engine.Undisturbed record) := by
  constructor
  · exact fun free enabled => undisturbed_of_orderFree enabled free
  · intro undisturbed
    by_cases enabled : engine.enabled = true
    · exact (undisturbed enabled).orderFree enabled
    · intro other hperm name
      rw [record_filter_of_disabled enabled, record_filter_of_disabled enabled]
      exact Record.get?_eq_of_perm hperm name

/-- A record with a reserved address under a name and another under the name of its marker. -/
def markerFirst : Record :=
  Record.empty.putAll [("gateway_reserved_ip", .string "10.0.0.2"), ("gateway", .string "10.0.0.1")]

/-- The same fields in the other order. -/
def markerLast : Record :=
  Record.empty.putAll [("gateway", .string "10.0.0.1"), ("gateway_reserved_ip", .string "10.0.0.2")]

/-- The address under the name of the marker is seen before the marker is written over it, and lost
after. -/
theorem not_orderFree_markerFirst : ¬ (sample .legacy).OrderFree markerFirst := by
  intro free
  have hperm : markerLast.fields.Perm markerFirst.fields := List.Perm.swap _ _ []
  have hequal := free markerLast hperm "gateway_reserved_ip_reserved_ip"
  have hlast : ((sample .legacy).filter markerLast).record.get? "gateway_reserved_ip_reserved_ip" =
      none := by
    rw [Record.get?_eq_none_iff]
    decide
  rw [hlast, eq_comm, Record.get?_eq_none_iff] at hequal
  exact hequal (by decide)

end Engine

end GeoTag
