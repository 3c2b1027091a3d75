import GeoTag.Proofs.Derivation
import GeoTag.RangeTable

/-!
# Tables around a source

A source of locations may stand inside a table, which answers where the source does not, and that inside
another table, to any depth (`Backend.stack`).  Whatever the source does, the stack never fails: it
answers what the first of the source and the tables, from the inside out, knows about an address, where a
failure of the source is as good as no answer (`Backend.lookup_stack`).
-/

namespace GeoTag

namespace Backend

variable {α : Type} {address : Address}

/-- What a source knows about an address, if it does not fail. -/
def answer? (source : Backend α) (address : Address) : Option α :=
  (source.lookup address).toOption.join

theorem answer?_of_ok {source : Backend α} {found : Option α}
    (h : source.lookup address = .ok found) : source.answer? address = found := by
  rw [answer?, h]
  cases found <;> rfl

theorem answer?_of_error {source : Backend α} {fault : LookupFault}
    (h : source.lookup address = .error fault) : source.answer? address = none := by
  rw [answer?, h]
  rfl

theorem answer?_eq_some_iff {source : Backend α} {found : α} :
    source.answer? address = some found ↔ source.lookup address = .ok (some found) := by
  unfold answer?
  cases source.lookup address with
  | error fault => simp [Except.toOption]
  | ok answer => simp [Except.toOption]

theorem answer?_backend (table : RangeTable) (address : Address) :
    table.backend.answer? address = table.find? address :=
  answer?_of_ok rfl

/-! ## One table -/

theorem lookup_withFallback (primary : Option (Backend Location)) (table : RangeTable)
    (address : Address) :
    (withFallback primary table).lookup address =
      .ok ((primary.bind fun source => source.answer? address).or (table.find? address)) := by
  cases primary with
  | none => rfl
  | some source =>
    rw [Option.bind_some]
    cases h : source.lookup address with
    | error fault => simp [withFallback, h, answer?_of_error h]
    | ok found => cases found <;> simp [withFallback, h, answer?_of_ok h]

theorem answer?_withFallback (primary : Option (Backend Location)) (table : RangeTable)
    (address : Address) :
    (withFallback primary table).answer? address =
      (primary.bind fun source => source.answer? address).or (table.find? address) :=
  answer?_of_ok (lookup_withFallback primary table address)

/-! ## Any number of tables -/

/-- A source, if there is one, inside a table, and that inside further tables, the next one first. -/
def stack (primary : Option (Backend Location)) (innermost : RangeTable) (outer : List RangeTable) :
    Backend Location :=
  outer.foldl (fun inner table => .withFallback (some inner) table) (.withFallback primary innermost)

/-- The source and the tables of a stack, from the inside out. -/
def layers (primary : Option (Backend Location)) (innermost : RangeTable) (outer : List RangeTable) :
    List (Backend Location) :=
  primary.toList ++ (innermost :: outer).map RangeTable.backend

/-- Around a source that does not fail, each table is asked where all before it know nothing. -/
theorem lookup_foldl_withFallback {inner : Backend Location} {found : Option Location}
    (h : inner.lookup address = .ok found) (tables : List RangeTable) :
    (tables.foldl (fun inner table => .withFallback (some inner) table) inner).lookup address =
      .ok (found.or (tables.findSome? fun table => table.find? address)) := by
  induction tables generalizing inner found with
  | nil =>
    rw [List.foldl_nil, List.findSome?_nil, Option.or_none]
    exact h
  | cons table tables ih =>
    have hstep : (withFallback (some inner) table).lookup address =
        .ok (found.or (table.find? address)) := by
      rw [lookup_withFallback, Option.bind_some, answer?_of_ok h]
    rw [List.foldl_cons, ih hstep, Option.or_assoc, List.findSome?_cons]
    cases table.find? address <;> rfl

theorem findSome?_layers (primary : Option (Backend Location)) (innermost : RangeTable)
    (outer : List RangeTable) (address : Address) :
    (layers primary innermost outer).findSome? (fun source => source.answer? address) =
      ((primary.bind fun source => source.answer? address).or (innermost.find? address)).or
        (outer.findSome? fun table => table.find? address) := by
  have hprimary : primary.toList.findSome? (fun source => source.answer? address) =
      primary.bind fun source => source.answer? address := by
    cases primary <;> simp
  have htables : (fun source : Backend Location => source.answer? address) ∘ RangeTable.backend =
      fun table => table.find? address := funext fun table => answer?_backend table address
  rw [layers, List.findSome?_append, List.findSome?_map, htables, ← List.singleton_append,
    List.findSome?_append, List.findSome?_singleton, hprimary, Option.or_assoc]

theorem lookup_stack_eq (primary : Option (Backend Location)) (innermost : RangeTable)
    (outer : List RangeTable) (address : Address) :
    (stack primary innermost outer).lookup address =
      .ok ((layers primary innermost outer).findSome? fun source => source.answer? address) := by
  rw [findSome?_layers]
  exact lookup_foldl_withFallback (lookup_withFallback primary innermost address) outer

theorem lookup_stack_append (primary : Option (Backend Location)) (innermost : RangeTable)
    (outer : List RangeTable) (table : RangeTable) :
    stack primary innermost (outer ++ [table]) =
      withFallback (some (stack primary innermost outer)) table := by
  rw [stack, List.foldl_append]
  rfl

/-- A stack of tables around a source, or around nothing, answers what the first of its layers knows, and
nothing when none knows anything; it does not fail.  One more table around it leaves every answer that
was found, tables around a source leave what it found, and a source that fails is worth one that is
silent. -/
theorem lookup_stack (innermost : RangeTable) (outer : List RangeTable) (address : Address) :
    (∀ primary : Option (Backend Location),
      (stack primary innermost outer).lookup address =
          .ok ((layers primary innermost outer).findSome? fun source => source.answer? address) ∧
        ((stack primary innermost outer).lookup address = .ok none ↔
          ∀ source ∈ layers primary innermost outer, source.answer? address = none) ∧
        ∀ (table : RangeTable) (found : Location),
          (stack primary innermost outer).lookup address = .ok (some found) →
            (stack primary innermost (outer ++ [table])).lookup address = .ok (some found)) ∧
    (∀ (source : Backend Location) (found : Location), source.lookup address = .ok (some found) →
      (stack (some source) innermost outer).lookup address = .ok (some found)) ∧
    ∀ (failing silent : Backend Location) (fault : LookupFault),
      failing.lookup address = .error fault → silent.lookup address = .ok none →
        (stack (some failing) innermost outer).lookup address =
          (stack (some silent) innermost outer).lookup address := by
  refine ⟨fun primary => ⟨lookup_stack_eq primary innermost outer address, ?_, ?_⟩, ?_, ?_⟩
  · rw [lookup_stack_eq, Except.ok.injEq, List.findSome?_eq_none_iff]
  · intro table found hfound
    rw [lookup_stack_append, lookup_withFallback, Option.bind_some, answer?_of_ok hfound]
    rfl
  · intro source found hfound
    rw [lookup_stack_eq, findSome?_layers, Option.bind_some, answer?_of_ok hfound]
    rfl
  · intro failing silent fault hfailing hsilent
    rw [lookup_stack_eq, lookup_stack_eq, findSome?_layers, findSome?_layers, Option.bind_some,
      Option.bind_some, answer?_of_error hfailing, answer?_of_ok hsilent]

/-- A table with the range `9.0.0.0-9.255.255.255`. -/
def nineTable (city : String) : RangeTable :=
  ⟨"nine", #[⟨0x09000000, 0x09FFFFFF, 0⟩], #[], #[⟨"N/A", "N/A", "N/A", city⟩]⟩

theorem find?_nineTable (city : String) :
    (nineTable city).find? (.v4 0x09090909) = some ⟨0, 0, "N/A", "N/A", city, "N/A", "N/A"⟩ := by
  cbv

/-- The sample source, which fails for 9.9.9.9, in two tables that hold this address: the inner one
answers for it, with or without the outer one, as it does around a source that is silent. -/
theorem lookup_stack_nine :
    (Engine.sampleBackend Engine.sampleLocation).lookup (.v4 0x09090909) =
        .error ⟨.v4 0x09090909, .invalid⟩ ∧
      (stack (some (Engine.sampleBackend Engine.sampleLocation)) (nineTable "inner")
          [nineTable "outer"]).lookup (.v4 0x09090909) =
        (stack (some ⟨"silent", fun _ => .ok none⟩) (nineTable "inner")
          [nineTable "outer"]).lookup (.v4 0x09090909) ∧
      (stack none (nineTable "inner") []).lookup (.v4 0x09090909) =
        .ok (some ⟨0, 0, "N/A", "N/A", "inner", "N/A", "N/A"⟩) ∧
      (stack none (nineTable "inner") [nineTable "outer"]).lookup (.v4 0x09090909) =
        .ok (some ⟨0, 0, "N/A", "N/A", "inner", "N/A", "N/A"⟩) ∧
      (stack (some (Engine.sampleBackend Engine.sampleLocation)) (nineTable "inner")
          [nineTable "outer"]).lookup (.v4 0x08080808) = .ok (some Engine.sampleLocation) := by
  have hfails : (Engine.sampleBackend Engine.sampleLocation).lookup (.v4 0x09090909) =
      .error ⟨.v4 0x09090909, .invalid⟩ := rfl
  obtain ⟨-, -, hsilent⟩ := lookup_stack (nineTable "inner") [nineTable "outer"] (.v4 0x09090909)
  have hinner := ((lookup_stack (nineTable "inner") [] (.v4 0x09090909)).1 none).1
  have hanswer : (stack none (nineTable "inner") []).lookup (.v4 0x09090909) =
      .ok (some ⟨0, 0, "N/A", "N/A", "inner", "N/A", "N/A"⟩) := by
    rw [hinner, layers, Option.toList_none, List.nil_append, List.map_singleton,
      List.findSome?_singleton, answer?_backend, find?_nineTable]
  refine ⟨hfails, hsilent _ _ _ hfails rfl, hanswer, ?_, ?_⟩
  · exact ((lookup_stack (nineTable "inner") [] (.v4 0x09090909)).1 none).2.2 (nineTable "outer") _
      hanswer
  · exact (lookup_stack (nineTable "inner") [nineTable "outer"] (.v4 0x08080808)).2.1 _ _ rfl

end Backend

end GeoTag
