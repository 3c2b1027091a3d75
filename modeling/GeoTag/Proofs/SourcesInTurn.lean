import GeoTag.Proofs.Transcript

/-!
# Sources in turn

A run over several sources writes what it would write for each of them alone, one after the other, and
ends behind the first that cannot be opened or read (`Session.run_in_turn`).  The standard input is the
only source that reading uses up (`Source.open?_leaves`), so it may be named once.  Every output ends in
a newline, so no line is joined to the first one of the next source.  All in all, one line is written for
each line that is read and not blank (`Session.leaves_run`).
-/

namespace GeoTag

namespace Line

theorem Complete.append {first rest : List UInt8} (hfirst : Complete first) (hrest : Complete rest) :
    Complete (first ++ rest) := by
  rcases hrest with rfl | hrest
  · rwa [List.append_nil]
  · right
    rw [List.getLast?_append, hrest]
    rfl

end Line

theorem Engine.complete_outputOf (engine : Engine) (fs : FileSystem) (stdin : Input) (source : Source) :
    Line.Complete (engine.outputOf fs stdin source) := by
  unfold outputOf
  induction source.lines fs stdin with
  | nil => exact .inl rfl
  | cons line lines ih =>
    rw [List.flatMap_cons]
    refine Line.Complete.append ?_ ih
    unfold written
    split
    · exact .inl rfl
    · exact Line.complete_ended _

theorem Input.notMem_content {input : Input} {line : Line} (h : line ∈ input.lines) :
    Line.newline ∉ line.content := by
  obtain ⟨⟨piece, number⟩, hpiece, rfl⟩ := List.mem_map.1 h
  have hmem : piece ∈ input.pieces := List.fst_mem_of_mem_zipIdx hpiece
  cases input with
  | stream bytes => exact Line.notMem_unended hmem
  | broken beginning fault => exact Line.notMem_unended (List.mem_filter.1 hmem).1

namespace Source

/-- Only another reading of the standard input would find less of it. -/
theorem open?_leaves (fs : FileSystem) (stdin : Input) {source other : Source}
    (h : source = .stdin → other ≠ .stdin) :
    other.open? fs (source.leaves stdin) = other.open? fs stdin := by
  cases source with
  | file path => rfl
  | stdin =>
    cases other with
    | file path => rfl
    | stdin => exact absurd rfl (h rfl)

variable {fs : FileSystem} {left stdin : Input} {source : Source}

theorem fault?_congr (h : source.open? fs left = source.open? fs stdin) :
    source.fault? fs left = source.fault? fs stdin := by
  rw [fault?, h, ← fault?]

theorem outputOf_congr (engine : Engine) (h : source.open? fs left = source.open? fs stdin) :
    engine.outputOf fs left source = engine.outputOf fs stdin source := by
  rw [Engine.outputOf, lines, h, ← lines, ← Engine.outputOf]

/-- Either all sources can be read to their end, or there is a first one that cannot. -/
theorem readable_or_faulty (fs : FileSystem) (stdin : Input) (sources : List Source) :
    (∀ source ∈ sources, source.fault? fs stdin = none) ∨
      ∃ before source after fault, sources = before ++ source :: after ∧
        (∀ earlier ∈ before, earlier.fault? fs stdin = none) ∧ source.fault? fs stdin = some fault := by
  cases hfirst : sources.find? fun source => (source.fault? fs stdin).isSome with
  | none =>
    left
    simpa using hfirst
  | some source =>
    obtain ⟨hfaulty, before, after, rfl, hbefore⟩ := List.find?_eq_some_iff_append.1 hfirst
    obtain ⟨fault, hfault⟩ := Option.isSome_iff_exists.1 hfaulty
    refine .inr ⟨before, source, after, fault, rfl, ?_, hfault⟩
    simpa using hbefore

/-- The lines that a run reads: those of its sources, up to the first that cannot be read to its end. -/
def linesRead (fs : FileSystem) (stdin : Input) : List Source → List Line
  | [] => []
  | source :: sources =>
    source.lines fs stdin ++
      match source.fault? fs stdin with
      | none => linesRead fs stdin sources
      | some _ => []

/-- Those of them that are not blank. -/
def filledRead (fs : FileSystem) (stdin : Input) (sources : List Source) : List Line :=
  (linesRead fs stdin sources).filter fun line => !line.isBlank

theorem linesRead_append {before : List Source}
    (readable : ∀ source ∈ before, source.fault? fs stdin = none) (rest : List Source) :
    linesRead fs stdin (before ++ rest) =
      before.flatMap (lines fs stdin) ++ linesRead fs stdin rest := by
  induction before with
  | nil => rfl
  | cons source before ih =>
    rw [List.forall_mem_cons] at readable
    rw [List.cons_append, linesRead, List.flatMap_cons, List.append_assoc, ← ih readable.2]
    simp only [readable.1]

theorem linesRead_of_fault {fault : InputFault} (faulty : source.fault? fs stdin = some fault)
    (after : List Source) : linesRead fs stdin (source :: after) = source.lines fs stdin := by
  simp only [linesRead, faulty, List.append_nil]

theorem notMem_content_of_mem_linesRead {sources : List Source} {line : Line}
    (h : line ∈ linesRead fs stdin sources) : Line.newline ∉ line.content := by
  induction sources with
  | nil => cases h
  | cons source sources ih =>
    rw [linesRead, List.mem_append] at h
    rcases h with h | h
    · unfold lines at h
      split at h
      · exact Input.notMem_content h
      · cases h
    · cases hfault : source.fault? fs stdin with
      | none =>
        rw [hfault] at h
        exact ih h
      | some fault =>
        rw [hfault] at h
        cases h

/-- How a run ends: with the first fault, if there is one. -/
def endingOf (fs : FileSystem) (stdin : Input) (sources : List Source) : Ending :=
  match sources.findSome? (fault? fs stdin) with
  | none => .finished
  | some fault => .failed fault

end Source

namespace Session

variable {m : Type → Type} [Monad m]

/-- The run over sources writes the output, leaves the engine as it is and ends as stated, whatever its
clock says. -/
def Leaves (session : Session) (clock : m Nat) (fs : FileSystem) (stdin : Input)
    (sources : List Source) (output : List UInt8) (ending : Ending) : Prop :=
  ∃ timers : m Latency.Timer, session.run clock fs true stdin sources =
    (fun timer => ⟨output, ⟨session.engine, timer⟩, ending⟩) <$> timers

variable [LawfulMonad m]

/-- Sources that can be read are followed by the others, behind their outputs in order. -/
theorem timed_work_append (clock : m Nat) (fs : FileSystem) (engine : Engine) {stdin left : Input}
    {before rest : List Source} {outlet : Outlet} {bytes : List UInt8} (h : outlet.Carries bytes)
    (once : (before ++ rest).count .stdin ≤ 1)
    (alone : ∀ source ∈ before ++ rest, source.open? fs left = source.open? fs stdin)
    (readable : ∀ source ∈ before, source.fault? fs stdin = none) :
    ∃ (next : Outlet) (unread : Input),
      next.Carries (bytes ++ before.flatMap (engine.outputOf fs stdin)) ∧
      (∀ source ∈ rest, source.open? fs unread = source.open? fs stdin) ∧
      ∀ {result : Latency.Timer → Run},
        (∀ timer, Timed result (work clock fs ⟨engine, timer⟩ next unread rest)) →
        ∀ timer, Timed result (work clock fs ⟨engine, timer⟩ outlet left (before ++ rest)) := by
  induction before generalizing left outlet bytes with
  | nil =>
    refine ⟨outlet, left, ?_, alone, fun hrest => hrest⟩
    rwa [List.flatMap_nil, List.append_nil]
  | cons source before ih =>
    rw [List.cons_append] at once alone
    rw [List.forall_mem_cons] at alone readable
    obtain ⟨next, hnext, hwork⟩ := timed_work_of_readable clock fs engine h
      ((Source.fault?_congr alone.1).trans readable.1)
    rw [Source.outputOf_congr engine alone.1] at hnext
    have honce : (before ++ rest).count .stdin ≤ 1 :=
      Nat.le_trans (List.count_le_count_cons) once
    have halone : ∀ other ∈ before ++ rest,
        other.open? fs (source.leaves left) = other.open? fs stdin := by
      intro other hother
      rw [Source.open?_leaves, alone.2 other hother]
      -- Otherwise the standard input would be named twice.
      rintro rfl rfl
      rw [List.count_cons_self] at once
      have hcount := List.count_pos_iff.2 hother
      omega
    obtain ⟨last, unread, hlast, hunread, hrest⟩ := ih hnext honce halone readable.2
    refine ⟨last, unread, ?_, hunread, fun hend => hwork (hrest hend)⟩
    rwa [List.flatMap_cons, ← List.append_assoc]

theorem leaves_of_readable (clock : m Nat) (fs : FileSystem) (session : Session) {stdin : Input}
    {sources : List Source} (once : sources.count .stdin ≤ 1)
    (readable : ∀ source ∈ sources, source.fault? fs stdin = none) :
    session.Leaves clock fs stdin sources (sources.flatMap (session.engine.outputOf fs stdin))
      .finished := by
  rw [← List.append_nil sources] at once
  obtain ⟨next, unread, hnext, -, hwork⟩ := timed_work_append clock fs session.engine
    Outlet.carries_start once (fun source _ => Eq.refl (source.open? fs stdin)) readable
  rw [List.append_nil] at hwork
  exact hwork (timed_work_nil clock fs session.engine hnext unread) session.timer

theorem leaves_of_fault (clock : m Nat) (fs : FileSystem) (session : Session) {stdin : Input}
    {before after : List Source} {source : Source} {fault : InputFault}
    (once : (before ++ source :: after).count .stdin ≤ 1)
    (readable : ∀ source ∈ before, source.fault? fs stdin = none)
    (faulty : source.fault? fs stdin = some fault) :
    session.Leaves clock fs stdin (before ++ source :: after)
      (before.flatMap (session.engine.outputOf fs stdin) ++ session.engine.outputOf fs stdin source)
      (.failed fault) := by
  obtain ⟨next, unread, hnext, hunread, hwork⟩ := timed_work_append clock fs session.engine
    Outlet.carries_start once (fun source _ => Eq.refl (source.open? fs stdin)) readable
  have hopen := hunread source List.mem_cons_self
  have hfault := timed_work_of_fault clock fs session.engine hnext
    ((Source.fault?_congr hopen).trans faulty) after
  rw [Source.outputOf_congr session.engine hopen] at hfault
  exact hwork hfault session.timer

/-- A run writes one line for each line that it reads and that is not blank. -/
theorem leaves_run (clock : m Nat) (fs : FileSystem) (session : Session) (stdin : Input)
    {sources : List Source} (once : sources.count .stdin ≤ 1) :
    session.Leaves clock fs stdin sources
      ((Source.filledRead fs stdin sources).flatMap fun line => ended (session.engine.answer line))
      (Source.endingOf fs stdin sources) := by
  rw [Source.filledRead, ← Engine.flatMap_written, Source.endingOf]
  obtain hreadable | ⟨before, source, after, fault, rfl, hreadable, hfault⟩ :=
    Source.readable_or_faulty fs stdin sources
  · have hlines := Source.linesRead_append hreadable []
    rw [List.append_nil, Source.linesRead, List.append_nil] at hlines
    rw [hlines, List.flatMap_assoc, List.findSome?_eq_none_iff.2 hreadable]
    exact session.leaves_of_readable clock fs once hreadable
  · rw [Source.linesRead_append hreadable, Source.linesRead_of_fault hfault, List.flatMap_append,
      List.flatMap_assoc, List.findSome?_append, List.findSome?_eq_none_iff.2 hreadable,
      List.findSome?_cons, hfault]
    exact session.leaves_of_fault clock fs once hreadable hfault

/-- A run over sources, among which the standard input is named once at most, writes one after the other
what it would write for each of them alone.  Where all of them can be read to their end, that is all, and
the run succeeds.  Otherwise the run fails with the fault of the first source that cannot be opened or read:
the output ends with what was written for that source in front of its fault, and nothing is written for the
later ones.  Each of these outputs is complete. -/
theorem run_in_turn (clock : m Nat) (fs : FileSystem) (session : Session) (stdin : Input)
    {sources : List Source} (once : sources.count .stdin ≤ 1) :
    (∀ source ∈ sources, session.Leaves clock fs stdin [source]
        (session.engine.outputOf fs stdin source) (Source.endingOf fs stdin [source])) ∧
      (∀ source ∈ sources, Line.Complete (session.engine.outputOf fs stdin source)) ∧
      (((∀ source ∈ sources, source.fault? fs stdin = none) ∧
          session.Leaves clock fs stdin sources
            (sources.flatMap (session.engine.outputOf fs stdin)) .finished) ∨
        ∃ before source after fault, sources = before ++ source :: after ∧
          (∀ earlier ∈ before, earlier.fault? fs stdin = none) ∧
          source.fault? fs stdin = some fault ∧
          session.Leaves clock fs stdin sources
            (before.flatMap (session.engine.outputOf fs stdin) ++
              session.engine.outputOf fs stdin source)
            (.failed fault)) := by
  refine ⟨fun source _ => ?_, fun source _ => session.engine.complete_outputOf fs stdin source, ?_⟩
  · have hone : [source].count .stdin ≤ 1 := List.count_le_length
    rw [Source.endingOf, List.findSome?_singleton]
    cases hfault : source.fault? fs stdin with
    | none =>
      have hleaves := session.leaves_of_readable clock fs hone (List.forall_mem_singleton.2 hfault)
      rwa [List.flatMap_singleton] at hleaves
    | some fault =>
      have hnone : ∀ earlier ∈ ([] : List Source), earlier.fault? fs stdin = none :=
        fun _ h => absurd h List.not_mem_nil
      exact session.leaves_of_fault clock fs hone hnone hfault
  · obtain hreadable | ⟨before, source, after, fault, rfl, hreadable, hfault⟩ :=
      Source.readable_or_faulty fs stdin sources
    · exact .inl ⟨hreadable, session.leaves_of_readable clock fs once hreadable⟩
    · exact .inr ⟨before, source, after, fault, rfl, hreadable, hfault,
        session.leaves_of_fault clock fs once hreadable hfault⟩

/-- A file whose last line has no end, and one more file. -/
def twoFiles : FileSystem :=
  .ofAnswers [("first", .ok (.file "\x7b\"a\": 1\x7d\n[".toUTF8)), ("last", .ok (.file "2\n".toUTF8))]

/-- A standard input that stops in its second line. -/
def shortInput : Input := .broken "x\ny".toUTF8.toList (.system 5 "Input/output error")

theorem run_in_turn_short :
    [Source.file "first", .stdin, .file "last"].count .stdin ≤ 1 ∧
      (start (.sample .strict)).Leaves (m := Id) (pure 0) twoFiles shortInput
        [.file "first", .stdin, .file "last"] "\x7b\"a\":1\x7d\n[\nx\n".toUTF8.toList
        (.failed (.cannotRead (.system 5 "Input/output error"))) := by
  have once : [Source.file "first", .stdin, .file "last"].count .stdin ≤ 1 := by decide
  refine ⟨once, ?_⟩
  have hfile : (Source.file "first").fault? twoFiles shortInput = none := rfl
  have hstdin : Source.stdin.fault? twoFiles shortInput =
      some (.cannotRead (.system 5 "Input/output error")) := rfl
  have houtput : (start (.sample .strict)).engine.outputOf twoFiles shortInput (.file "first") ++
      (start (.sample .strict)).engine.outputOf twoFiles shortInput .stdin =
        "\x7b\"a\":1\x7d\n[\nx\n".toUTF8.toList := by
    decide +kernel
  obtain ⟨-, -, ⟨hall, -⟩ | ⟨before, source, after, fault, hsources, hbefore, hfault, hleaves⟩⟩ :=
    run_in_turn (m := Id) (pure 0) twoFiles (start (.sample .strict)) shortInput once
  · cases hstdin.symm.trans (hall .stdin (by decide))
  · rcases before with _ | ⟨first, _ | ⟨second, before⟩⟩
    · obtain ⟨rfl, -⟩ := List.cons.inj hsources
      cases hfile.symm.trans hfault
    · obtain ⟨rfl, htail⟩ := List.cons.inj hsources
      obtain ⟨rfl, -⟩ := List.cons.inj htail
      cases hstdin.symm.trans hfault
      rwa [List.flatMap_singleton, houtput] at hleaves
    · obtain ⟨rfl, htail⟩ := List.cons.inj hsources
      obtain ⟨rfl, -⟩ := List.cons.inj htail
      cases hstdin.symm.trans (hbefore .stdin (by simp))

end Session

end GeoTag
