import GeoTag.Proofs.Snapshot

/-!
# Runs seen from one name

No two candidates share a derived name, so a run writes under a name at one turn at most: at the turn
of the candidate that the name is derived from.  Before that turn the name keeps what the record held
(`get?_foldl_writeDerived_of_notMem`), and after it what was written there
(`get?_foldl_writeDerived_of_visited`).

A candidate may meet a derived field under its own name when its turn comes.  As long as what it leads
to is the same with and without that field (`Engine.Undisturbed`), the run leaves what the snapshot
leads to, whatever the order of the turns (`get?_foldl_writeDerived_of_undisturbed`).
-/

namespace GeoTag

namespace Record

/-- Two records with one value under a name still have one after a row of writes. -/
theorem get?_putAll_congr {a b : Record} {name : String} (h : a.get? name = b.get? name)
    (fs : List (String × FieldValue)) :
    (a.putAll fs).get? name = (b.putAll fs).get? name := by
  induction fs generalizing a b with
  | nil => exact h
  | cons f fs ih =>
    rw [putAll_cons, putAll_cons]
    apply ih
    rw [get?_put, get?_put, h]

theorem names_putAll_prefix (record : Record) (fs : List (String × FieldValue)) :
    record.names <+: (record.putAll fs).names := by
  induction fs generalizing record with
  | nil => exact List.prefix_refl _
  | cons f fs ih =>
    refine List.IsPrefix.trans ?_ (ih (record.put f.1 f.2))
    rw [names_put]
    split
    · exact List.prefix_refl _
    · exact List.prefix_append _ _

end Record

namespace Engine

variable {engine : Engine}

/-! ## Before and after a turn -/

theorem names_foldl_writeDerived_prefix (names : List String) (record : Record) :
    record.names <+: (names.foldl engine.writeDerived record).names := by
  induction names generalizing record with
  | nil => exact List.prefix_refl _
  | cons name names ih => exact (Record.names_putAll_prefix record _).trans (ih _)

theorem get?_writeDerived_of_notMem {name derived : String}
    (h : derived ∉ engine.schema.derivedNames name) (record : Record) :
    (engine.writeDerived record name).get? derived = record.get? derived :=
  Record.get?_putAll_of_notMem (fun hmem => h (mem_derivedNames_of_mem_names hmem)) record

theorem get?_foldl_writeDerived_of_notMem {names : List String} {derived : String}
    (h : ∀ name ∈ names, derived ∉ engine.schema.derivedNames name) (record : Record) :
    (names.foldl engine.writeDerived record).get? derived = record.get? derived := by
  induction names generalizing record with
  | nil => rfl
  | cons name names ih =>
    rw [List.foldl_cons, ih fun g hg => h g (List.mem_cons_of_mem name hg)]
    exact get?_writeDerived_of_notMem (h name List.mem_cons_self) record

theorem Turns.of_append {visited later : List String} (turns : engine.Turns (visited ++ later)) :
    engine.Turns visited where
  nodup := (List.nodup_append.1 turns.nodup).1
  candidate name hname := turns.candidate name (List.mem_append_left later hname)

/-- A derived name belongs to one turn. -/
theorem Turns.notMem_derivedNames {visited later : List String}
    (turns : engine.Turns (visited ++ later)) {name other derived : String} (hname : name ∈ visited)
    (hother : other ∈ later) (h : derived ∈ engine.schema.derivedNames name) :
    derived ∉ engine.schema.derivedNames other := by
  intro hderived
  have heq : name = other := engine.schema.eq_of_mem_derivedNames
    (turns.candidate name (List.mem_append_left later hname))
    (turns.candidate other (List.mem_append_right visited hother)) h hderived
  exact (List.nodup_append.1 turns.nodup).2.2 name hname other hother heq

/-- What stands under a derived name after the turn of its candidate stands there to the end. -/
theorem get?_foldl_writeDerived_of_visited {visited later : List String}
    (turns : engine.Turns (visited ++ later)) {name derived : String} (hname : name ∈ visited)
    (h : derived ∈ engine.schema.derivedNames name) (record : Record) :
    ((visited ++ later).foldl engine.writeDerived record).get? derived =
      (visited.foldl engine.writeDerived record).get? derived := by
  rw [List.foldl_append]
  exact get?_foldl_writeDerived_of_notMem
    (fun other hother => turns.notMem_derivedNames hname hother h) _

theorem get?_filter_of_visited (enabled : engine.enabled = true) {record : Record}
    {visited later : List String} (hsplit : engine.schema.candidates record = visited ++ later)
    {name derived : String} (hname : name ∈ visited)
    (h : derived ∈ engine.schema.derivedNames name) :
    (engine.filter record).record.get? derived =
      (visited.foldl engine.writeDerived record).get? derived := by
  have turns := engine.turns_candidates record
  rw [record_filter_of_enabled enabled, hsplit]
  rw [hsplit] at turns
  exact get?_foldl_writeDerived_of_visited turns hname h record

/-- A candidate that no derived field can fall on leads to what the record holds under its name. -/
theorem get?_filter_of_derived (enabled : engine.enabled = true) {record : Record} {field : String}
    (hfield : field ∈ engine.schema.candidates record)
    (hfree : ∀ other ∈ engine.schema.candidates record, field ∉ engine.schema.derivedNames other)
    {derived : String} (h : derived ∈ engine.schema.derivedNames field) :
    (engine.filter record).record.get? derived =
      (record.putAll (engine.derivedFields record field)).get? derived := by
  obtain ⟨visited, later, hsplit⟩ := List.append_of_mem hfield
  have hlist : engine.schema.candidates record = (visited ++ [field]) ++ later := by
    rw [hsplit, List.append_assoc, List.singleton_append]
  have turns : engine.Turns ((visited ++ [field]) ++ later) := hlist ▸ engine.turns_candidates record
  have hvisited : ∀ other ∈ visited, other ∈ engine.schema.candidates record := fun other hother =>
    hsplit ▸ List.mem_append_left _ hother
  have hturn : (visited.foldl engine.writeDerived record).get? field = record.get? field :=
    get?_foldl_writeDerived_of_notMem (fun other hother => hfree other (hvisited other hother)) record
  have hbefore : (visited.foldl engine.writeDerived record).get? derived = record.get? derived :=
    get?_foldl_writeDerived_of_notMem (fun other hother hderived =>
      turns.of_append.notMem_derivedNames hother (List.mem_singleton.2 rfl) hderived h) record
  rw [get?_filter_of_visited enabled hlist (by simp) h, List.foldl_append]
  show ((visited.foldl engine.writeDerived record).putAll
    (engine.derivedFields (visited.foldl engine.writeDerived record) field)).get? derived = _
  rw [engine.derivedFields_congr hturn]
  exact Record.get?_putAll_congr hbefore _

/-! ## Turns that nothing disturbs -/

/-- A derived field that falls on a candidate makes no difference to what the candidate leads to. -/
def Undisturbed (engine : Engine) (record : Record) : Prop :=
  ∀ field ∈ engine.schema.candidates record, ∀ name ∈ engine.schema.candidates record,
    ∀ value, (name, value) ∈ engine.derivedFields record field → ∀ derived,
      (record.putAll (engine.derivedFields (record.put name value) name)).get? derived =
        (record.putAll (engine.derivedFields record name)).get? derived

/-- A record on its way through a run holds what the snapshot led the visited candidates to. -/
def Follows (engine : Engine) (start : Record) (visited : List String) (record : Record) : Prop :=
  ∀ derived, record.get? derived =
    (start.putAll (visited.flatMap (engine.derivedFields start))).get? derived

theorem mem_derivedNames_of_mem_names_flatMap {start : Record} {visited : List String}
    {derived : String}
    (h : derived ∈ Keyed.names (visited.flatMap (engine.derivedFields start))) :
    ∃ name ∈ visited, derived ∈ engine.schema.derivedNames name := by
  obtain ⟨value, hvalue⟩ := Keyed.mem_names_iff.1 h
  obtain ⟨name, hname, hmem⟩ := List.mem_flatMap.1 hvalue
  exact ⟨name, hname, mem_derivedNames_of_mem_names (Keyed.mem_names_iff.2 ⟨value, hmem⟩)⟩

/-- The next candidate writes over the snapshot what it leads to in the snapshot. -/
theorem Follows.get?_row {start : Record} (undisturbed : engine.Undisturbed start)
    {visited : List String} (turns : engine.Turns visited)
    (hvisited : ∀ name ∈ visited, name ∈ engine.schema.candidates start) {name : String}
    (hname : name ∈ engine.schema.candidates start) {record : Record}
    (follows : engine.Follows start visited record) (derived : String) :
    (start.putAll (engine.derivedFields record name)).get? derived =
      (start.putAll (engine.derivedFields start name)).get? derived := by
  by_cases hmem : name ∈ Keyed.names (visited.flatMap (engine.derivedFields start))
  · obtain ⟨value, hvalue⟩ := Keyed.mem_names_iff.1 hmem
    obtain ⟨field, hfield, hrow⟩ := List.mem_flatMap.1 hvalue
    have hget : record.get? name = some value :=
      (follows name).trans (Record.get?_putAll_of_mem (turns.nodup_names_flatMap start) hvalue start)
    have hput : record.get? name = (start.put name value).get? name := by
      rw [hget, Record.get?_put, if_pos rfl]
    rw [engine.derivedFields_congr hput]
    exact undisturbed field (hvisited field hfield) name hname value hrow derived
  · have hget : record.get? name = start.get? name :=
      (follows name).trans (Record.get?_putAll_of_notMem hmem start)
    rw [engine.derivedFields_congr hget]

theorem Follows.writeDerived {start : Record} (undisturbed : engine.Undisturbed start)
    {visited : List String} {name : String} (turns : engine.Turns (visited ++ [name]))
    (hnames : ∀ g ∈ visited ++ [name], g ∈ engine.schema.candidates start) {record : Record}
    (follows : engine.Follows start visited record) :
    engine.Follows start (visited ++ [name]) (engine.writeDerived record name) := by
  intro derived
  have hname : name ∈ engine.schema.candidates start := hnames name (by simp)
  rw [List.flatMap_append, List.flatMap_singleton, Record.putAll_append]
  by_cases h : derived ∈ engine.schema.derivedNames name
  · -- No earlier turn wrote here, so the row of `name` is written over the snapshot itself.
    have hfresh : derived ∉ Keyed.names (visited.flatMap (engine.derivedFields start)) := by
      intro hmem
      obtain ⟨other, hother, hderived⟩ := mem_derivedNames_of_mem_names_flatMap hmem
      exact turns.notMem_derivedNames hother (List.mem_singleton.2 rfl) hderived h
    have hsnapshot := Record.get?_putAll_of_notMem hfresh start
    have hrecord : record.get? derived = start.get? derived := (follows derived).trans hsnapshot
    calc (engine.writeDerived record name).get? derived
        = (start.putAll (engine.derivedFields record name)).get? derived :=
          Record.get?_putAll_congr hrecord _
      _ = (start.putAll (engine.derivedFields start name)).get? derived :=
          follows.get?_row undisturbed turns.of_append
            (fun g hg => hnames g (List.mem_append_left _ hg)) hname derived
      _ = _ := (Record.get?_putAll_congr hsnapshot _).symm
  · have hrow : derived ∉ Keyed.names (engine.derivedFields start name) :=
      fun hmem => h (mem_derivedNames_of_mem_names hmem)
    rw [get?_writeDerived_of_notMem h, Record.get?_putAll_of_notMem hrow]
    exact follows derived

theorem Follows.foldl_writeDerived {start : Record} (undisturbed : engine.Undisturbed start)
    {visited names : List String} (turns : engine.Turns (visited ++ names))
    (hnames : ∀ g ∈ visited ++ names, g ∈ engine.schema.candidates start) {record : Record}
    (follows : engine.Follows start visited record) :
    engine.Follows start (visited ++ names) (names.foldl engine.writeDerived record) := by
  induction names generalizing visited record with
  | nil => simpa using follows
  | cons name names ih =>
    have hsplit : visited ++ name :: names = (visited ++ [name]) ++ names := by simp
    rw [hsplit] at turns hnames ⊢
    exact ih turns hnames (follows.writeDerived undisturbed turns.of_append
      fun g hg => hnames g (List.mem_append_left _ hg))

/-- Whatever the order of the turns, the run leaves what the snapshot leads to. -/
theorem get?_foldl_writeDerived_of_undisturbed {start : Record}
    (undisturbed : engine.Undisturbed start) {names : List String} (turns : engine.Turns names)
    (hnames : ∀ g ∈ names, g ∈ engine.schema.candidates start) {record : Record}
    (hrecord : ∀ name, record.get? name = start.get? name) (derived : String) :
    (names.foldl engine.writeDerived record).get? derived =
      (start.putAll (names.flatMap (engine.derivedFields start))).get? derived := by
  have follows : engine.Follows start [] record := hrecord
  have turns : engine.Turns ([] ++ names) := turns
  exact follows.foldl_writeDerived undisturbed turns hnames derived

end Engine

end GeoTag
