/-!
# Splitting at a character

`splitOn` cuts a text at every occurrence of a separator: one piece more than there are
separators, so a text without one is its own only piece.  `splitOnce` cuts at the first occurrence
and `splitRun` at the first place where the separator stands twice.
-/

namespace GeoTag

namespace Text

/-- One more character in front of a split text. -/
def splitStep {α : Type} [DecidableEq α] (sep c : α) : List (List α) → List (List α)
  | [] => if c = sep then [[], []] else [[c]]
  | piece :: pieces => if c = sep then [] :: piece :: pieces else (c :: piece) :: pieces

/-- The pieces between the separators, in order. -/
def splitOn {α : Type} [DecidableEq α] (sep : α) (cs : List α) : List (List α) :=
  cs.foldr (splitStep sep) [[]]

/-- The parts before and after the first separator, if there is one. -/
def splitOnce {α : Type} [DecidableEq α] (sep : α) : List α → Option (List α × List α)
  | [] => none
  | c :: cs =>
    if c = sep then some ([], cs) else (splitOnce sep cs).map fun parts => (c :: parts.1, parts.2)

/-- The parts before and after the first two separators in a row, if there are such. -/
def splitRun {α : Type} [DecidableEq α] (sep : α) : List α → Option (List α × List α)
  | [] => none
  | [_] => none
  | c :: d :: cs =>
    if c = sep ∧ d = sep then some ([], cs)
    else (splitRun sep (d :: cs)).map fun parts => (c :: parts.1, parts.2)

theorem splitOn_nil {α : Type} [DecidableEq α] (sep : α) : splitOn sep [] = [[]] := rfl

theorem splitOn_cons {α : Type} [DecidableEq α] (sep c : α) (cs : List α) :
    splitOn sep (c :: cs) = splitStep sep c (splitOn sep cs) := rfl

theorem splitStep_ne_nil {α : Type} [DecidableEq α] (sep c : α) (pieces : List (List α)) :
    splitStep sep c pieces ≠ [] := by
  cases pieces <;> simp only [splitStep] <;> split <;> simp

theorem splitOn_ne_nil {α : Type} [DecidableEq α] (sep : α) (cs : List α) :
    splitOn sep cs ≠ [] := by
  cases cs with
  | nil => simp [splitOn_nil]
  | cons c cs => exact splitStep_ne_nil sep c _

theorem splitOn_cons_self {α : Type} [DecidableEq α] (sep : α) (cs : List α) :
    splitOn sep (sep :: cs) = [] :: splitOn sep cs := by
  rw [splitOn_cons]
  obtain ⟨piece, pieces, h⟩ := List.exists_cons_of_ne_nil (splitOn_ne_nil sep cs)
  simp [h, splitStep]

theorem splitOn_cons_of_ne {α : Type} [DecidableEq α] {sep c : α} (h : c ≠ sep) {cs piece : List α}
    {pieces : List (List α)} (hs : splitOn sep cs = piece :: pieces) :
    splitOn sep (c :: cs) = (c :: piece) :: pieces := by
  rw [splitOn_cons, hs]
  simp [splitStep, h]

/-- A text without the separator is its own only piece. -/
theorem splitOn_of_not_mem {α : Type} [DecidableEq α] {sep : α} {cs : List α} (h : sep ∉ cs) :
    splitOn sep cs = [cs] := by
  induction cs with
  | nil => rfl
  | cons c cs ih =>
    simp only [List.mem_cons, not_or] at h
    exact splitOn_cons_of_ne (Ne.symm h.1) (ih h.2)

end Text

end GeoTag
