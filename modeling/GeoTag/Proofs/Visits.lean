import GeoTag.Proofs.Framing

/-!
# Lines shown to a visitor

Reading line by line cuts an input into its pieces (`Input.readLine_cases`), so a visitor is shown the
lines of the input one after the other (`Input.visitFrom_eq_visit`), and what is shown does not depend
on how it answers, but for the place where it stops.  `Input.visit_calls` says which calls a visitor
gets on a stream: the first pieces of the stream without their ends, numbered from one on, up to the
first answer that is not `true`.
-/

namespace GeoTag

namespace Line

/-! ## Pieces, one at a time -/

theorem pieces_of_notMem {stream : List UInt8} (hne : stream ≠ []) (h : newline ∉ stream) :
    pieces stream = [stream] := by
  induction stream with
  | nil => exact absurd rfl hne
  | cons byte stream ih =>
    simp only [List.mem_cons, not_or] at h
    rw [pieces_cons]
    by_cases hstream : stream = []
    · subst hstream
      rfl
    · rw [ih hstream h.2]
      exact if_neg (Ne.symm h.1)

theorem pieces_cut {stream : List UInt8} (hne : stream ≠ []) :
    (cut stream).1 ≠ [] ∧ pieces stream = (cut stream).1 :: pieces (cut stream).2 := by
  obtain ⟨hfree, hcut⟩ | ⟨content, rest, hcontent, rfl, hcut⟩ := cut_cases stream
  · rw [hcut]
    exact ⟨hne, pieces_of_notMem hne hfree⟩
  · rw [hcut]
    refine ⟨List.concat_ne_nil _ _, ?_⟩
    have hpieces := pieces_append (complete_ended content) rest
    rwa [pieces_ended hcontent, ended, List.append_assoc, List.singleton_append] at hpieces

/-- Pieces that hold the bytes of a stream in order, none of them empty.  Each ends in a newline, which
it holds nowhere else, but the last one may lack it. -/
structure Cuts (pieces : List (List UInt8)) (stream : List UInt8) : Prop where
  flatten : pieces.flatten = stream
  nonempty : ∀ piece ∈ pieces, piece ≠ []
  inside : ∀ piece ∈ pieces, newline ∉ piece.dropLast
  ended : ∀ piece ∈ pieces.dropLast, piece.getLast? = some newline

theorem getLast?_of_mem_dropLast_pieces {stream piece : List UInt8}
    (h : piece ∈ (pieces stream).dropLast) : piece.getLast? = some newline := by
  induction stream generalizing piece with
  | nil => cases h
  | cons byte stream ih =>
    rw [pieces_cons] at h
    cases hp : pieces stream with
    | nil =>
      rw [hp] at h
      cases h
    | cons first rest =>
      have hfirst : first ≠ [] := ne_nil_of_mem_pieces (hp ▸ List.mem_cons_self)
      rw [hp] at h ih
      simp only [pieceStep] at h
      split at h
      · rename_i hbyte
        rcases List.mem_cons.1 h with rfl | h
        · rw [hbyte, List.getLast?_singleton]
        · exact ih h
      · cases rest with
        | nil => cases h
        | cons second rest =>
          -- The first piece got longer in front, where it does not matter.
          rcases List.mem_cons.1 h with rfl | h
          · rw [List.getLast?_cons_of_ne_nil hfirst]
            exact ih List.mem_cons_self
          · exact ih (List.mem_cons_of_mem first h)

theorem cuts_pieces (stream : List UInt8) : Cuts (pieces stream) stream where
  flatten := flatten_pieces stream
  nonempty _ := ne_nil_of_mem_pieces
  inside _ := notMem_dropLast_of_mem_pieces
  ended _ := getLast?_of_mem_dropLast_pieces

/-- There are at most as many pieces as bytes. -/
theorem Cuts.length_le {pieces : List (List UInt8)} {stream : List UInt8} (h : Cuts pieces stream) :
    pieces.length ≤ stream.length := by
  have hnonempty := h.nonempty
  rw [← h.flatten]
  clear h
  induction pieces with
  | nil => exact Nat.le_refl 0
  | cons piece pieces ih =>
    rw [List.forall_mem_cons] at hnonempty
    have hpiece := List.length_pos_iff.2 hnonempty.1
    have hpieces := ih hnonempty.2
    rw [List.flatten_cons, List.length_append, List.length_cons]
    omega

/-! ## Without the end of a line -/

/-- The bytes without one such byte at their end, if it stands there. -/
inductive Without (byte : UInt8) : List UInt8 → List UInt8 → Prop
  /-- It stands there. -/
  | dropped {bytes : List UInt8} : Without byte (bytes ++ [byte]) bytes
  /-- It does not. -/
  | kept {bytes : List UInt8} : bytes.getLast? ≠ some byte → Without byte bytes bytes

theorem without_dropLast (byte : UInt8) (bytes : List UInt8) :
    Without byte bytes (dropLast byte bytes) := by
  unfold dropLast
  split
  · rename_i hlast
    obtain ⟨content, rfl⟩ := List.getLast?_eq_some_iff.1 hlast
    rw [List.dropLast_concat]
    exact .dropped
  · rename_i hlast
    exact .kept hlast

/-! ## Lines of pieces -/

/-- The lines of pieces, numbered behind as many others. -/
def numbered (seen : Nat) (pieces : List (List UInt8)) : List Line :=
  (pieces.zipIdx (seen + 1)).map fun (piece, number) => ⟨number, unended piece⟩

theorem numbered_cons (seen : Nat) (piece : List UInt8) (pieces : List (List UInt8)) :
    numbered seen (piece :: pieces) = ⟨seen + 1, unended piece⟩ :: numbered (seen + 1) pieces := rfl

theorem length_numbered (seen : Nat) (pieces : List (List UInt8)) :
    (numbered seen pieces).length = pieces.length := by
  simp [numbered]

theorem of_getElem?_numbered {pieces : List (List UInt8)} {k : Nat} {line : Line}
    (h : (numbered 0 pieces)[k]? = some line) :
    ∃ piece, pieces[k]? = some piece ∧ ⟨k + 1, unended piece⟩ = line := by
  rw [numbered, List.getElem?_map, List.getElem?_zipIdx] at h
  cases hpiece : pieces[k]? with
  | none =>
    rw [hpiece] at h
    cases h
  | some piece =>
    rw [hpiece] at h
    refine ⟨piece, rfl, ?_⟩
    simpa [Nat.add_comm] using h

variable {m : Type → Type} [Monad m] {σ ε : Type}

/-- Shows lines to a visitor until it says no or fails; where it has seen them all, the given end
follows. -/
def visit (visitor : σ → Line → m (σ × Except ε Bool)) (ending : Except ε Unit) :
    σ → List Line → m (σ × Except ε Unit)
  | state, [] => return (state, ending)
  | state, line :: lines => do
    match ← visitor state line with
    | (state, .ok true) => visit visitor ending state lines
    | (state, .ok false) => return (state, .ok ())
    | (state, .error fault) => return (state, .error fault)

end Line

namespace Input

/-- The pieces of an input that can be read: in front of a fault, those that end in a newline. -/
def pieces : Input → List (List UInt8)
  | .stream bytes => Line.pieces bytes
  | .broken beginning _ =>
    (Line.pieces beginning).filter fun piece => piece.getLast? = some Line.newline

/-- The lines of an input that can be read. -/
def lines (input : Input) : List Line := Line.numbered 0 input.pieces

/-- Why an input cannot be read to its end, if it cannot. -/
def fault? : Input → Option InputFault
  | .stream _ => none
  | .broken _ fault => some (.cannotRead fault)

/-! ### What one reading says about the pieces -/

variable {input rest : Input} {piece : List UInt8}

theorem of_readLine_error {fault : InputFault} (h : input.readLine = .error fault) :
    input.fault? = some fault ∧ input.pieces = [] := by
  cases input with
  | stream bytes => cases h
  | broken beginning cause =>
    rw [readLine] at h
    split at h
    · cases h
    · rename_i hfree
      cases h
      refine ⟨rfl, ?_⟩
      by_cases hne : beginning = []
      · rw [hne]
        rfl
      · -- What stands in front of the fault is a piece without an end.
        rw [pieces, Line.pieces_of_notMem hne hfree, List.filter_cons_of_neg]
        · rfl
        · intro hlast
          exact hfree (List.mem_of_getLast? (of_decide_eq_true hlast))

theorem of_readLine_nil (h : input.readLine = .ok ([], rest)) :
    input.fault? = none ∧ input.pieces = [] := by
  cases input with
  | stream bytes =>
    refine ⟨rfl, ?_⟩
    by_cases hne : bytes = []
    · rw [hne]
      rfl
    · injection h with h
      exact absurd (congrArg Prod.fst h) (Line.pieces_cut hne).1
  | broken beginning fault =>
    rw [readLine] at h
    split at h
    · rename_i hmem
      injection h with h
      exact absurd (congrArg Prod.fst h) (Line.pieces_cut (List.ne_nil_of_mem hmem)).1
    · cases h

theorem of_readLine_cons (hpiece : piece ≠ []) (h : input.readLine = .ok (piece, rest)) :
    input.fault? = rest.fault? ∧ input.pieces = piece :: rest.pieces := by
  cases input with
  | stream bytes =>
    cases h
    refine ⟨rfl, (Line.pieces_cut ?_).2⟩
    rintro rfl
    exact hpiece rfl
  | broken beginning fault =>
    rw [readLine] at h
    split at h
    · rename_i hmem
      cases h
      refine ⟨rfl, ?_⟩
      obtain ⟨hfree, -⟩ | ⟨content, rest, -, -, hcut⟩ := Line.cut_cases beginning
      · exact absurd hmem hfree
      · rw [pieces, (Line.pieces_cut (List.ne_nil_of_mem hmem)).2, hcut, List.filter_cons_of_pos]
        · rfl
        · simp
    · cases h

variable {m : Type → Type} [Monad m] {σ ε : Type}

/-- What a visit comes to that nobody stops. -/
def ending (failing : InputFault → ε) (input : Input) : Except ε Unit :=
  match input.fault? with
  | none => .ok ()
  | some fault => .error (failing fault)

/-- The loop over an input is a walk along its lines. -/
theorem visitFrom_eq_visit (visitor : σ → Line → m (σ × Except ε Bool)) (failing : InputFault → ε)
    (seen : Nat) (state : σ) (input : Input) :
    input.visitFrom visitor failing seen state =
      Line.visit visitor (input.ending failing) state (Line.numbered seen input.pieces) := by
  induction hlength : input.bytes.length using Nat.strongRecOn generalizing seen state input with
  | _ length ih =>
    rw [visitFrom]
    split
    · rename_i hread
      obtain ⟨hfault, hpieces⟩ := of_readLine_error hread
      rw [hpieces, ending, hfault]
      rfl
    · rename_i piece rest hread
      split
      · rename_i hpiece
        subst hpiece
        obtain ⟨hfault, hpieces⟩ := of_readLine_nil hread
        rw [hpieces, ending, hfault]
        rfl
      · rename_i hpiece
        obtain ⟨hfault, hpieces⟩ := of_readLine_cons hpiece hread
        have hending : input.ending failing = rest.ending failing := by
          rw [ending, hfault, ← ending]
        have hrest := fun state => ih _ (hlength ▸ length_bytes_lt hread hpiece) (seen + 1) state rest rfl
        rw [hpieces, Line.numbered_cons, Line.visit, hending]
        refine congrArg (visitor state _ >>= ·) (funext fun answer => ?_)
        obtain ⟨state, _ | goOn⟩ := answer
        · rfl
        · cases goOn with
          | true => exact hrest state
          | false => rfl

theorem visit_eq_visit_lines (visitor : σ → Line → m (σ × Except ε Bool))
    (failing : InputFault → ε) (state : σ) (input : Input) :
    input.visit visitor failing state =
      Line.visit visitor (input.ending failing) state input.lines :=
  input.visitFrom_eq_visit visitor failing 0 state

end Input

/-! ## The calls of a visitor -/

section Calls

variable {σ ε : Type}

/-- A visitor that also keeps which lines it was shown and what it answered. -/
def recorded (visitor : σ → Line → σ × Except ε Bool) (state : σ × List (Line × Except ε Bool))
    (line : Line) : (σ × List (Line × Except ε Bool)) × Except ε Bool :=
  let (next, answer) := visitor state.1 line
  ((next, state.2 ++ [(line, answer)]), answer)

/-- How a visit with these answers ends, and whether something was left to show. -/
inductive Concludes : List (Except ε Bool) → List (List UInt8) → Except ε Unit → Prop
  /-- Every answer was yes, and nothing is left. -/
  | covered {answers : List (Except ε Bool)} : (∀ answer ∈ answers, answer = .ok true) →
      Concludes answers [] (.ok ())
  /-- The last answer was the first no. -/
  | stopped (earlier : List (Except ε Bool)) {unshown : List (List UInt8)} :
      (∀ answer ∈ earlier, answer = .ok true) → Concludes (earlier ++ [.ok false]) unshown (.ok ())
  /-- The last answer was the first failure, which is passed on. -/
  | failed (earlier : List (Except ε Bool)) {unshown : List (List UInt8)} {fault : ε} :
      (∀ answer ∈ earlier, answer = .ok true) →
      Concludes (earlier ++ [.error fault]) unshown (.error fault)

theorem Concludes.cons {answers : List (Except ε Bool)} {unshown : List (List UInt8)}
    {outcome : Except ε Unit} (h : Concludes answers unshown outcome) :
    Concludes (.ok true :: answers) unshown outcome := by
  cases h with
  | covered hyes => exact .covered (List.forall_mem_cons.2 ⟨rfl, hyes⟩)
  | stopped earlier hyes => exact .stopped (.ok true :: earlier) (List.forall_mem_cons.2 ⟨rfl, hyes⟩)
  | failed earlier hyes => exact .failed (.ok true :: earlier) (List.forall_mem_cons.2 ⟨rfl, hyes⟩)

/-- A walk along the lines of pieces shows the first of them, up to the answer that ends it. -/
theorem Line.exists_calls (visitor : σ → Line → σ × Except ε Bool) (seen : Nat) (state : σ)
    (log : List (Line × Except ε Bool)) (pieces : List (List UInt8)) :
    ∃ shown unshown calls final outcome, shown ++ unshown = pieces ∧
      visit (m := Id) (recorded visitor) (.ok ()) (state, log) (numbered seen pieces) =
        ((final, log ++ calls), outcome) ∧
      visit (m := Id) visitor (.ok ()) state (numbered seen pieces) = (final, outcome) ∧
      calls.map Prod.fst = numbered seen shown ∧
      Concludes (calls.map Prod.snd) unshown outcome := by
  induction pieces generalizing seen state log with
  | nil =>
    refine ⟨[], [], [], state, .ok (), rfl, ?_, rfl, rfl, .covered fun _ h => absurd h List.not_mem_nil⟩
    rw [List.append_nil]
    rfl
  | cons piece pieces ih =>
    rw [numbered_cons]
    generalize hline : Line.mk (seen + 1) (unended piece) = line
    rcases hanswer : visitor state line with ⟨next, answer⟩
    have hrecorded : recorded visitor (state, log) line = ((next, log ++ [(line, answer)]), answer) := by
      simp only [recorded, hanswer]
    match answer with
    | .ok true =>
      obtain ⟨shown, unshown, calls, final, outcome, hpieces, hrec, hvisit, hlines, hends⟩ :=
        ih (seen + 1) next (log ++ [(line, .ok true)])
      refine ⟨piece :: shown, unshown, (line, .ok true) :: calls, final, outcome, ?_, ?_, ?_, ?_,
        hends.cons⟩
      · rw [List.cons_append, hpieces]
      · rw [List.append_assoc] at hrec
        rw [visit, hrecorded]
        exact hrec
      · rw [visit, hanswer]
        exact hvisit
      · rw [List.map_cons, hlines, numbered_cons, hline]
    | .ok false =>
      refine ⟨[piece], pieces, [(line, .ok false)], next, .ok (), rfl, ?_, ?_, ?_, ?_⟩
      · rw [visit, hrecorded]
        rfl
      · rw [visit, hanswer]
        rfl
      · rw [List.map_singleton, numbered_cons, hline]
        rfl
      · exact .stopped [] fun _ h => absurd h List.not_mem_nil
    | .error fault =>
      refine ⟨[piece], pieces, [(line, .error fault)], next, .error fault, rfl, ?_, ?_, ?_, ?_⟩
      · rw [visit, hrecorded]
        rfl
      · rw [visit, hanswer]
        rfl
      · rw [List.map_singleton, numbered_cons, hline]
        rfl
      · exact .failed [] fun _ h => absurd h List.not_mem_nil

/-- A visitor is shown a stream line by line.  The stream is cut into pieces that hold all of its bytes,
none of them empty, each ended by its only newline but for the last one, which may lack it.  The first
pieces are shown, one call each, numbered 1, 2, 3 and so on, without a newline at the end and then without
a carriage return there.  The visit ends behind the first call that is answered by no or by a failure,
which is passed on, and covers the stream if there is none. -/
theorem Input.visit_calls (visitor : σ → Line → σ × Except ε Bool) (failing : InputFault → ε)
    (state : σ) (stream : List UInt8) :
    ∃ (shown unshown : List (List UInt8)) (calls : List (Line × Except ε Bool)) (final : σ)
      (outcome : Except ε Unit),
      Input.visit (m := Id) (recorded visitor) failing (state, []) (.stream stream) =
        ((final, calls), outcome) ∧
      Input.visit (m := Id) visitor failing state (.stream stream) = (final, outcome) ∧
      Line.Cuts (shown ++ unshown) stream ∧
      calls.length = shown.length ∧
      (∀ (k : Nat) (line : Line) (answer : Except ε Bool), calls[k]? = some (line, answer) →
        ∃ piece middle, shown[k]? = some piece ∧ line.number = k + 1 ∧
          Line.Without Line.newline piece middle ∧
          Line.Without Line.carriageReturn middle line.content) ∧
      Concludes (calls.map Prod.snd) unshown outcome ∧
      calls.length ≤ stream.length := by
  obtain ⟨shown, unshown, calls, final, outcome, hpieces, hrec, hvisit, hlines, hends⟩ :=
    Line.exists_calls visitor 0 state [] (Line.pieces stream)
  have hcuts := Line.cuts_pieces stream
  rw [← hpieces] at hcuts
  have hlength : calls.length = shown.length := by
    have h := congrArg List.length hlines
    rwa [List.length_map, Line.length_numbered] at h
  refine ⟨shown, unshown, calls, final, outcome, ?_, ?_, hcuts, hlength, ?_, hends, ?_⟩
  · rw [Input.visit_eq_visit_lines]
    exact hrec
  · rw [Input.visit_eq_visit_lines]
    exact hvisit
  · intro k line answer hcall
    have hline : (Line.numbered 0 shown)[k]? = some line := by
      rw [← hlines, List.getElem?_map, hcall, Option.map_some]
    obtain ⟨piece, hpiece, rfl⟩ := Line.of_getElem?_numbered hline
    exact ⟨piece, _, hpiece, rfl, Line.without_dropLast _ _, Line.without_dropLast _ _⟩
  · have hle := hcuts.length_le
    rw [List.length_append] at hle
    omega

end Calls

end GeoTag
