import GeoTag.Json.Printer
import GeoTag.Proofs.NumberText

/-!
# Compact text holds no control character

Strings are the only part of a JSON value that may hold a character below U+0020, and the printer
escapes each of them.  So the compact text of a value holds none (`Json.graphic_render`), in particular
no newline, whatever strings stand at whatever depth.
-/

namespace GeoTag

namespace Text

/-- No character below U+0020. -/
def Graphic (cs : List Char) : Prop := ∀ c ∈ cs, 0x20 ≤ c.toNat

instance (cs : List Char) : Decidable (Graphic cs) :=
  List.decidableBAll (fun c : Char => 0x20 ≤ c.toNat) cs

theorem graphic_nil : Graphic [] := fun _ h => absurd h List.not_mem_nil

theorem graphic_cons_iff {c : Char} {cs : List Char} :
    Graphic (c :: cs) ↔ 0x20 ≤ c.toNat ∧ Graphic cs := List.forall_mem_cons

theorem Graphic.append {as bs : List Char} (ha : Graphic as) (hb : Graphic bs) :
    Graphic (as ++ bs) := by
  intro c hc
  rcases List.mem_append.1 hc with h | h
  · exact ha c h
  · exact hb c h

theorem Graphic.cons {c : Char} {cs : List Char} (hc : 0x20 ≤ c.toNat) (h : Graphic cs) :
    Graphic (c :: cs) := graphic_cons_iff.2 ⟨hc, h⟩

theorem Graphic.of_subset {as bs : List Char} (hb : Graphic bs) (h : as ⊆ bs) : Graphic as :=
  fun c hc => hb c (h hc)

theorem graphic_replicate {c : Char} (hc : 0x20 ≤ c.toNat) (n : Nat) :
    Graphic (List.replicate n c) := by
  intro d hd
  rw [List.eq_of_mem_replicate hd]
  exact hc

theorem graphic_flatMap {α : Type} {write : α → List Char} (h : ∀ x, Graphic (write x)) (l : List α) :
    Graphic (l.flatMap write) := by
  intro c hc
  obtain ⟨x, -, hx⟩ := List.mem_flatMap.1 hc
  exact h x c hx

theorem graphic_hex4 (n : Nat) : Graphic (hex4 n) := by
  intro c hc
  obtain ⟨digit, hdigit, rfl⟩ := List.mem_map.1 hc
  have hlt : digit < 16 := by
    simp only [List.mem_cons, List.not_mem_nil, or_false] at hdigit
    omega
  have key : ∀ m : Fin 16, 0x20 ≤ (Nat.digitChar m.val).toNat := by decide
  exact key ⟨digit, hlt⟩

end Text

open Text (Graphic graphic_nil graphic_cons_iff graphic_replicate)

namespace Decimal

/-! ## Numbers -/

theorem graphic_natural (n : Nat) : Graphic (natural n) := by
  intro c hc
  have hdigit := isDigit_of_mem_natural hc
  simp only [Char.isDigit, Bool.and_eq_true, decide_eq_true_eq] at hdigit
  exact Nat.le_trans (by decide : 0x20 ≤ '0'.toNat) hdigit.1

theorem graphic_integer (i : Int) : Graphic (integer i) := by
  cases i with
  | ofNat n => exact graphic_natural n
  | negSucc n => exact (graphic_natural (n + 1)).cons (by decide)

theorem graphic_plain {digits : List Char} (h : Graphic digits) (lead : Int) :
    Graphic (plain digits lead) := by
  have hzeros := graphic_replicate (c := '0') (by decide)
  unfold plain
  dsimp only
  split
  · exact (Graphic.append (by decide) (hzeros _)).append h
  · have hfilled := h.append (hzeros (lead.toNat + 1 - digits.length))
    refine (hfilled.of_subset (List.take_subset _ _)).append (Graphic.cons (by decide) ?_)
    split
    · exact graphic_nil.cons (by decide)
    · exact hfilled.of_subset (List.drop_subset _ _)

theorem graphic_scientific {plus digits : List Char} (hplus : Graphic plus) (h : Graphic digits)
    (lead : Int) : Graphic (scientific plus digits lead) := by
  unfold scientific
  dsimp only
  refine ((h.of_subset (List.take_subset _ _)).append ?_).append (Graphic.cons (by decide) ?_)
  · split
    · exact graphic_nil
    · exact (h.of_subset (List.drop_subset _ _)).cons (by decide)
  · refine Graphic.append ?_ (graphic_integer lead)
    split
    · exact hplus
    · exact graphic_nil

theorem Layout.graphic_digits {layout : Layout} (hplus : Graphic layout.plus) (d : Digits) :
    Graphic (layout.digits d) := by
  unfold Layout.digits
  dsimp only
  split
  · exact graphic_plain (graphic_natural _) _
  · exact graphic_scientific hplus (graphic_natural _) _

theorem Layout.graphic_float {layout : Layout} (hplus : Graphic layout.plus) (f : Float) :
    Graphic (layout.float f) := by
  have magnitude : Graphic (if f.isInf then ['i', 'n', 'f'] else if f == 0 then ['0', '.', '0']
      else layout.digits (shortest (Binary.ofFloat f))) := by
    split
    · decide
    split
    · decide
    · exact graphic_digits hplus _
  unfold Layout.float
  split
  · decide
  dsimp only
  split
  · exact magnitude.cons (by decide)
  · exact magnitude

end Decimal

namespace Json

theorem Number.graphic_render (n : Number) : Graphic n.render := by
  cases n with
  | integer value fits => exact Decimal.graphic_integer value
  | float value finite => exact Decimal.Layout.graphic_float (by decide) value

/-! ## Strings -/

theorem graphic_escape (c : Char) : Graphic (escape c) := by
  unfold escape
  iterate 7
    split
    · decide
  split
  · exact ((Text.graphic_hex4 c.toNat).cons (by decide)).cons (by decide)
  · rename_i hgraphic
    exact graphic_nil.cons (Nat.not_lt.1 hgraphic)

theorem graphic_renderString (s : String) : Graphic (renderString s) :=
  ((Text.graphic_flatMap graphic_escape s.toList).append (by decide)).cons (by decide)

/-! ## Values -/

mutual

theorem graphic_render : ∀ value : Json, Graphic value.render
  | .null => by decide
  | .bool true => by decide
  | .bool false => by decide
  | .number n => n.graphic_render
  | .string s => graphic_renderString s
  | .array items => (graphic_renderItems items).cons (by decide)
  | .object members => (graphic_renderMembers members).cons (by decide)

theorem graphic_renderItems : ∀ items : List Json, Graphic (renderItems items)
  | [] => by decide
  | [item] => (graphic_render item).append (by decide)
  | item :: next :: items =>
    (graphic_render item).append ((graphic_renderItems (next :: items)).cons (by decide))

theorem graphic_renderMembers : ∀ members : List (String × Json), Graphic (renderMembers members)
  | [] => by decide
  | [(name, value)] =>
    ((graphic_renderString name).append ((graphic_render value).cons (by decide))).append (by decide)
  | (name, value) :: next :: rest =>
    ((graphic_renderString name).append ((graphic_render value).cons (by decide))).append
      ((graphic_renderMembers (next :: rest)).cons (by decide))

end

end Json

end GeoTag
