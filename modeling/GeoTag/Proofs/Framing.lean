import GeoTag.Enrichment

/-!
# Lines written and read

A piece of a stream holds no newline but one at its end, so the content of a line holds none
(`notMem_content`).  Where a stream ends in a newline, what follows it starts a line of its own
(`pieces_append`); contents without a newline, each ended by one, are therefore read back one by one
(`pieces_flatMap_ended`).  A carriage return at the end of a content would be taken for a part of the end
of the line.
-/

namespace GeoTag

namespace Line

theorem pieces_ne_nil {stream : List UInt8} (h : stream ≠ []) : pieces stream ≠ [] := by
  intro hnil
  have hflat := flatten_pieces stream
  rw [hnil] at hflat
  exact h hflat.symm

theorem pieceStep_append (byte : UInt8) {first : List (List UInt8)} (h : first ≠ [])
    (rest : List (List UInt8)) : pieceStep byte (first ++ rest) = pieceStep byte first ++ rest := by
  cases first with
  | nil => exact absurd rfl h
  | cons piece first =>
    simp only [List.cons_append, pieceStep]
    split <;> rfl

theorem pieceStep_newline (rest : List (List UInt8)) :
    pieceStep newline rest = [newline] :: rest := by
  cases rest with
  | nil => rfl
  | cons piece rest => simp only [pieceStep, if_true]

/-- The stream is empty or ends in a newline. -/
def Complete (stream : List UInt8) : Prop := stream = [] ∨ stream.getLast? = some newline

theorem Complete.of_cons {byte : UInt8} {stream : List UInt8} (hne : stream ≠ [])
    (h : Complete (byte :: stream)) : Complete stream := by
  rcases h with h | h
  · cases h
  · right
    rwa [List.getLast?_cons_of_ne_nil hne] at h

/-- What follows a complete stream is cut as it would be alone. -/
theorem pieces_append {stream : List UInt8} (h : Complete stream) (more : List UInt8) :
    pieces (stream ++ more) = pieces stream ++ pieces more := by
  induction stream with
  | nil => rfl
  | cons byte stream ih =>
    rw [List.cons_append, pieces_cons, pieces_cons]
    by_cases hne : stream = []
    · subst hne
      obtain rfl : byte = newline := by simpa [Complete] using h
      rw [List.nil_append, pieceStep_newline, pieceStep_newline]
      rfl
    · rw [ih (h.of_cons hne), pieceStep_append byte (pieces_ne_nil hne)]

theorem complete_ended (content : List UInt8) : Complete (ended content) :=
  Or.inr List.getLast?_concat

theorem pieces_ended {content : List UInt8} (h : newline ∉ content) :
    pieces (ended content) = [ended content] := by
  induction content with
  | nil => rfl
  | cons byte content ih =>
    simp only [List.mem_cons, not_or] at h
    show pieceStep byte (pieces (ended content)) = _
    rw [ih h.2]
    exact if_neg (Ne.symm h.1)

/-- Contents written as lines are cut into these lines. -/
theorem pieces_flatMap_ended {contents : List (List UInt8)}
    (h : ∀ content ∈ contents, newline ∉ content) :
    pieces (contents.flatMap ended) = contents.map ended := by
  induction contents with
  | nil => rfl
  | cons content contents ih =>
    rw [List.flatMap_cons, pieces_append (complete_ended content),
      pieces_ended (h content List.mem_cons_self),
      ih fun other hother => h other (List.mem_cons_of_mem content hother)]
    rfl

/-! ## The end of a line -/

theorem notMem_dropLast_of_mem_pieces {stream piece : List UInt8} (h : piece ∈ pieces stream) :
    newline ∉ piece.dropLast := by
  induction stream generalizing piece with
  | nil => cases h
  | cons byte stream ih =>
    rw [pieces_cons] at h
    cases hp : pieces stream with
    | nil =>
      rw [hp] at h
      rw [List.mem_singleton.1 h]
      exact List.not_mem_nil
    | cons first rest =>
      have hfirst : first ∈ pieces stream := hp ▸ List.mem_cons_self
      rw [hp] at h ih
      simp only [pieceStep] at h
      split at h
      · rcases List.mem_cons.1 h with rfl | h
        · exact List.not_mem_nil
        · exact ih h
      · rename_i hbyte
        rcases List.mem_cons.1 h with rfl | h
        · rw [List.dropLast_cons_of_ne_nil (ne_nil_of_mem_pieces hfirst), List.mem_cons, not_or]
          exact ⟨Ne.symm hbyte, ih List.mem_cons_self⟩
        · exact ih (List.mem_cons_of_mem first h)

theorem dropLast_subset (byte : UInt8) (bytes : List UInt8) : dropLast byte bytes ⊆ bytes := by
  unfold dropLast
  split
  · exact List.dropLast_subset bytes
  · exact List.Subset.refl bytes

theorem notMem_unended {stream piece : List UInt8} (h : piece ∈ pieces stream) :
    newline ∉ unended piece := by
  have hfree := notMem_dropLast_of_mem_pieces h
  have hne := ne_nil_of_mem_pieces h
  refine fun hmem => ?_
  have hmem : newline ∈ dropLast newline piece := dropLast_subset _ _ hmem
  unfold dropLast at hmem
  split at hmem
  · exact hfree hmem
  · rename_i hlast
    rw [← List.dropLast_concat_getLast hne, List.mem_append, List.mem_singleton] at hmem
    rcases hmem with hmem | hmem
    · exact hfree hmem
    · exact hlast (by rw [List.getLast?_eq_some_getLast hne, ← hmem])

theorem unended_ended {content : List UInt8} (h : content.getLast? ≠ some carriageReturn) :
    unended (ended content) = content := by
  have hnewline : dropLast newline (ended content) = content := by
    rw [dropLast, ended, if_pos List.getLast?_concat, List.dropLast_concat]
  rw [unended, hnewline, dropLast, if_neg h]

/-! ## The lines of a stream -/

theorem map_content_ofStream (stream : List UInt8) :
    (ofStream stream).map content = (pieces stream).map unended := by
  unfold ofStream
  rw [List.map_map]
  have hfst : (content ∘ fun p : List UInt8 × Nat => Line.mk p.2 (unended p.1)) =
      unended ∘ Prod.fst := rfl
  rw [hfst, ← List.map_map, List.zipIdx_map_fst]

/-- The content of a line of a stream holds no newline. -/
theorem notMem_content {stream : List UInt8} {line : Line} (h : line ∈ ofStream stream) :
    newline ∉ line.content := by
  have hmem : line.content ∈ (ofStream stream).map content := List.mem_map_of_mem h
  rw [map_content_ofStream] at hmem
  obtain ⟨piece, hpiece, heq⟩ := List.mem_map.1 hmem
  rw [← heq]
  exact notMem_unended hpiece

/-- Contents written as lines are the contents of the lines that are read back. -/
theorem map_content_ofStream_flatMap_ended {contents : List (List UInt8)}
    (h : ∀ content ∈ contents,
      newline ∉ content ∧ content.getLast? ≠ some carriageReturn) :
    (ofStream (contents.flatMap ended)).map content = contents := by
  rw [map_content_ofStream, pieces_flatMap_ended fun content hcontent => (h content hcontent).1,
    List.map_map]
  exact (List.map_congr_left fun content hcontent => unended_ended (h content hcontent).2).trans
    (List.map_id contents)

end Line

end GeoTag
