import GeoTag.Text.Blank

/-!
# Lines

A stream of bytes is cut after each newline byte into pieces (`pieces`), which are read one at a time
(`cut`).  A line is a piece without the newline and then without one carriage return, and lines are
numbered from one on (`ofStream`).
-/

namespace GeoTag

/-- A numbered line. -/
structure Line where
  /-- Its number, from one on; a word says the same for streams shorter than `UInt64.size`. -/
  number : Nat
  /-- Its bytes without the end of the line. -/
  content : List UInt8
deriving DecidableEq, Repr

namespace Line

/-- The byte that ends a line. -/
def newline : UInt8 := 10

/-- The byte that may stand before the end of a line. -/
def carriageReturn : UInt8 := 13

/-- One more byte in front of pieces: a newline is a piece of its own. -/
def pieceStep (byte : UInt8) : List (List UInt8) → List (List UInt8)
  | [] => [[byte]]
  | piece :: pieces =>
    if byte = newline then [byte] :: piece :: pieces else (byte :: piece) :: pieces

/-- A stream cut after each newline. -/
def pieces (stream : List UInt8) : List (List UInt8) := stream.foldr pieceStep []

/-- The first piece of a stream and what is left of the stream. -/
def cut (stream : List UInt8) : List UInt8 × List UInt8 :=
  let content := stream.takeWhile fun byte => byte ≠ newline
  match stream.dropWhile fun byte => byte ≠ newline with
  | [] => (content, [])
  | byte :: rest => (content ++ [byte], rest)

/-- The bytes without a given one at the end. -/
def dropLast (byte : UInt8) (bytes : List UInt8) : List UInt8 :=
  if bytes.getLast? = some byte then bytes.dropLast else bytes

/-- A piece without the end of its line. -/
def unended (piece : List UInt8) : List UInt8 := dropLast carriageReturn (dropLast newline piece)

/-- The lines of a stream. -/
def ofStream (stream : List UInt8) : List Line :=
  ((pieces stream).zipIdx 1).map fun (piece, number) => ⟨number, unended piece⟩

/-- The text of a line, if it is UTF-8. -/
def text? (line : Line) : Option String := String.fromUTF8? line.content.toByteArray

/-- The line holds nothing but blanks. -/
def isBlank (line : Line) : Bool :=
  match line.text? with
  | some text => decide (Text.Blank text.toList)
  | none => false

theorem pieces_cons (byte : UInt8) (stream : List UInt8) :
    pieces (byte :: stream) = pieceStep byte (pieces stream) := rfl

/-- A stream is cut in front of its end or behind its first newline, and no byte is lost. -/
theorem cut_cases (stream : List UInt8) :
    (newline ∉ stream ∧ cut stream = (stream, [])) ∨
      ∃ content rest, newline ∉ content ∧ stream = content ++ newline :: rest ∧
        cut stream = (content ++ [newline], rest) := by
  have hcontent : newline ∉ stream.takeWhile fun byte => byte ≠ newline := by
    intro hmem
    simpa using List.all_eq_true.1 List.all_takeWhile newline hmem
  have hstream := List.takeWhile_append_dropWhile (p := fun byte => byte ≠ newline) (l := stream)
  cases hrest : stream.dropWhile fun byte => byte ≠ newline with
  | nil =>
    left
    rw [hrest, List.append_nil] at hstream
    refine ⟨hstream ▸ hcontent, ?_⟩
    simp only [cut, hrest, hstream]
  | cons byte rest =>
    right
    have hbyte : byte = newline := by
      have hhead := List.head?_dropWhile_not (fun byte => byte ≠ newline) stream
      rw [hrest] at hhead
      simpa using hhead
    subst hbyte
    refine ⟨_, rest, hcontent, ?_, ?_⟩
    · rw [← hrest, hstream]
    · simp only [cut, hrest]

/-- Something is left of a stream only where a byte was cut off. -/
theorem length_cut_snd_lt {stream : List UInt8} (h : (cut stream).1 ≠ []) :
    (cut stream).2.length < stream.length := by
  obtain ⟨-, hcut⟩ | ⟨content, rest, -, hstream, hcut⟩ := cut_cases stream
  · rw [hcut] at h ⊢
    exact List.length_pos_iff.2 h
  · rw [hcut, hstream]
    simp only [List.length_append, List.length_cons]
    omega

/-- The pieces hold the bytes of the stream, in order. -/
theorem flatten_pieces (stream : List UInt8) : (pieces stream).flatten = stream := by
  induction stream with
  | nil => rfl
  | cons byte stream ih =>
    rw [pieces_cons]
    cases h : pieces stream with
    | nil => rw [h] at ih; simp [pieceStep, ← ih]
    | cons piece rest =>
      rw [h] at ih
      simp only [pieceStep]
      split <;> simpa using ih

/-- No piece is empty. -/
theorem ne_nil_of_mem_pieces {stream piece : List UInt8} (h : piece ∈ pieces stream) :
    piece ≠ [] := by
  induction stream generalizing piece with
  | nil => simp [pieces] at h
  | cons byte stream ih =>
    rw [pieces_cons] at h
    cases hp : pieces stream with
    | nil =>
      rw [hp] at h
      simp only [pieceStep, List.mem_singleton] at h
      simp [h]
    | cons first rest =>
      rw [hp] at h ih
      simp only [pieceStep] at h
      split at h
      · rcases List.mem_cons.1 h with rfl | h
        · simp
        · exact ih h
      · rcases List.mem_cons.1 h with rfl | h
        · simp
        · exact ih (List.mem_cons_of_mem _ h)

end Line

end GeoTag
