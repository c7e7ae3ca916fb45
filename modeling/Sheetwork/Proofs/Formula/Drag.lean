import Sheetwork.Formula.Conversion
import Sheetwork.Formula.Drag
import Sheetwork.Proofs.Reference
/-
  Formulas: what two formulas of one drag pattern share. The skeleton gives the text between the references back,
  unless that text holds a mark itself (`gaps_eq_of_skeleton`), and the tokens say that each reference of one formula
  is the reference at its place in the other, moved by the distance of the cells in its free coordinates
  (`forall₂_dragged`).
-/

open List

namespace Sheetwork.Formula

/-! The text between the references -/

/-- The texts before, between and behind the references, from position `pos` on. -/
def gapsFrom (s : List Char) (pos : Nat) : List Mention → List (List Char)
  | [] => [s.drop pos]
  | m :: ms => (s.take m.start).drop pos :: gapsFrom s m.stop ms

def gaps (formula sheet : String) : List (List Char) := gapsFrom (body formula) 0 (mentions formula sheet)

theorem gapsFrom_eq_of_skeletonFrom {s t : List Char} {pos pos' i : Nat} {ms ns : List Mention}
    (hs : ∀ g ∈ gapsFrom s pos ms, '@' ∉ g) (ht : ∀ g ∈ gapsFrom t pos' ns, '@' ∉ g) (hlen : ms.length = ns.length)
    (h : skeletonFrom s pos i ms = skeletonFrom t pos' i ns) : gapsFrom s pos ms = gapsFrom t pos' ns := by
  induction ms generalizing pos pos' i ns with
  | nil =>
    obtain rfl := length_eq_zero_iff.1 hlen.symm
    simpa [skeletonFrom, gapsFrom] using h
  | cons m ms ih =>
    obtain ⟨n, ns, rfl⟩ := exists_cons_of_length_eq_add_one hlen.symm
    simp only [skeletonFrom, append_assoc, cons_append] at h
    obtain ⟨hgap, hrest⟩ := eq_of_append_cons_eq (hs _ (by simp [gapsFrom])) (ht _ (by simp [gapsFrom])) h
    rw [gapsFrom, gapsFrom, hgap, ih (fun g hg => hs g (by simp [gapsFrom, hg]))
      (fun g hg => ht g (by simp [gapsFrom, hg])) (by simpa using hlen)
      (append_cancel_left hrest)]

variable {f f' sheet : String} {col row col' row' : Int}

theorem gaps_eq_of_dragPattern (hf : ∀ g ∈ gaps f sheet, '@' ∉ g) (hf' : ∀ g ∈ gaps f' sheet, '@' ∉ g)
    (h : dragPattern f sheet col row = dragPattern f' sheet col' row') : gaps f sheet = gaps f' sheet := by
  have htok := congrArg (length ∘ DragPattern.tokens) h
  simp only [dragPattern, Function.comp_apply, length_map] at htok
  exact gapsFrom_eq_of_skeletonFrom hf hf' htok (congrArg DragPattern.skeleton h)

/-! References that are moved -/

/-- One corner is the other, moved where it is free. -/
structure Corner.Dragged (cols rows : Int) (a b : Corner) : Prop where
  colFixed : b.colFixed = a.colFixed
  rowFixed : b.rowFixed = a.rowFixed
  col : Column.spelled b.col = Column.spelled a.col + if a.colFixed then 0 else cols
  row : (b.rowNumber : Int) = a.rowNumber + if a.rowFixed then 0 else rows

theorem Corner.dragged_of_coordinates {a b : Corner} (hc : a.colCoordinate col = b.colCoordinate col')
    (hr : a.rowCoordinate row = b.rowCoordinate row') : a.Dragged (col' - col) (row' - row) b := by
  unfold colCoordinate at hc
  unfold rowCoordinate at hr
  refine ⟨by grind, by grind, ?_, by grind⟩
  by_cases h : a.colFixed
  · have h' : b.colFixed := by grind
    rw [if_pos h, if_pos h', Coordinate.fixedCol.injEq] at hc
    rw [if_pos h, Int.add_zero, String.ofList_injective hc]
  · grind

/-- One reference is the other, moved in its free coordinates. -/
def Reference.Dragged (cols rows : Int) : Reference → Reference → Prop
  | cell s a, cell s' b => s' = s ∧ a.Dragged cols rows b
  | range s a e, range s' b f => s' = s ∧ a.Dragged cols rows b ∧ e.Dragged cols rows f
  | _, _ => False

def Mention.reference (m : Mention) : Reference :=
  match m.last with
  | none => .cell m.sheet m.at_
  | some e => .range m.sheet m.at_ e

theorem Mention.dragged_of_token {m n : Mention} (h : m.token sheet col row = n.token sheet col' row') :
    m.reference.Dragged (col' - col) (row' - row) n.reference := by
  simp only [token, DragToken.mk.injEq] at h
  obtain ⟨hfile, hsheet, hcol, hrow, hendCol, hendRow⟩ := h
  have hs : n.sheet = m.sheet := by grind
  have hat := Corner.dragged_of_coordinates hcol hrow
  unfold reference
  cases hm : m.last with
  | none =>
    have hn : n.last = none := by simpa [hm] using hendCol.symm
    rw [hn]
    exact ⟨hs, hat⟩
  | some e =>
    obtain ⟨f, hn⟩ : ∃ f, n.last = some f := by
      rw [hm] at hendCol
      cases hn : n.last with
      | none => simp [hn] at hendCol
      | some f => exact ⟨f, rfl⟩
    rw [hm, hn, Option.map_some, Option.map_some, Option.some.injEq] at hendCol hendRow
    rw [hn]
    exact ⟨hs, hat, Corner.dragged_of_coordinates hendCol hendRow⟩

theorem forall₂_token (h : dragPattern f sheet col row = dragPattern f' sheet col' row') :
    Forall₂ (fun m n => Mention.token sheet col row m = Mention.token sheet col' row' n)
      (mentions f sheet) (mentions f' sheet) := by
  have htok : (mentions f sheet).map (Mention.token sheet col row) =
      (mentions f' sheet).map (Mention.token sheet col' row') := congrArg DragPattern.tokens h
  rwa [← forall₂_eq_eq_eq, forall₂_map_left_iff, forall₂_map_right_iff] at htok

theorem forall₂_dragged (h : dragPattern f sheet col row = dragPattern f' sheet col' row') :
    Forall₂ (Reference.Dragged (col' - col) (row' - row))
      ((mentions f sheet).map Mention.reference) ((mentions f' sheet).map Mention.reference) := by
  rw [forall₂_map_left_iff, forall₂_map_right_iff]
  exact (forall₂_token h).imp fun m n => Mention.dragged_of_token

/-! Columns of references -/

def Reference.Spelled : Reference → Prop
  | cell _ a => Column.Capitals a.col
  | range _ a e => Column.Capitals a.col ∧ Column.Capitals e.col
  | table _ _ => True

end Sheetwork.Formula
