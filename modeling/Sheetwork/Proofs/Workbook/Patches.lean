import Sheetwork.Proofs.Outcome
import Sheetwork.Proofs.Workbook.Address
/-
  Workbooks: patches divide cells. Filling takes from what is still to be reached and puts nothing else into a patch
  (`fill_perm`); every cell begins a patch unless it is in one already. So the patches of a list without repetition
  are the list again, patch by patch (`flatten_ofCells_perm`).

  The box around slots reaches them all (`SlotBox.around_row`, `SlotBox.around_col`), and the address of a slot is
  that of its position (`Slot.address_eq_ok_iff`).
-/

open List

namespace Sheetwork

open Column (last)

/-! Slots in order -/

theorem Slot.compare_eq : compare = compareLex (compareOn Slot.row) (compareOn Slot.col) := by
  funext s t
  exact congrArg (Ordering.then _) Ordering.then_eq

instance : Std.TransOrd Slot := by
  rw [Std.TransOrd, Slot.compare_eq]
  infer_instance

instance : Std.LawfulEqOrd Slot where
  eq_of_compare := by
    rintro ⟨r, c⟩ ⟨r', c'⟩ h
    simpa [Slot.compare_eq, compareOn] using h

theorem Address.columnName_eq_ok_iff {n : Int} {t : String} :
    columnName n = .ok t ↔ (1 ≤ n ∧ n ≤ last) ∧ t = Column.name n := by
  rw [columnName]
  by_cases h : 1 ≤ n ∧ n ≤ last
  · rw [if_pos (by rw [Bool.and_eq_true, decide_eq_true_eq, decide_eq_true_eq]; exact h)]
    exact ⟨fun heq => ⟨h, (Except.ok.inj heq).symm⟩, fun heq => heq.2 ▸ rfl⟩
  · rw [if_neg (by rw [Bool.and_eq_true, decide_eq_true_eq, decide_eq_true_eq]; exact h)]
    exact ⟨nofun, fun heq => absurd heq.1 h⟩

/-- The slot of a position has the position's address, if the column has a name. -/
theorem Slot.address_eq_ok_iff {p : Position} {t : String} :
    p.slot.address = .ok t ↔ (1 ≤ p.col ∧ p.col ≤ last) ∧ t = p.address := by
  have hcol : ((1 : Int) ≤ p.slot.col ∧ p.slot.col ≤ last) ↔ 1 ≤ p.col ∧ p.col ≤ last := by
    show ((1 : Int) ≤ (p.col : Int) ∧ (p.col : Int) ≤ last) ↔ _
    omega
  rw [address, bind_eq_ok_iff]
  simp only [Address.columnName_eq_ok_iff, hcol]
  constructor
  · rintro ⟨a, ⟨hp, rfl⟩, ht⟩
    exact ⟨hp, (Except.ok.inj ht).symm⟩
  · rintro ⟨hp, rfl⟩
    exact ⟨_, ⟨hp, rfl⟩, rfl⟩

namespace Patches

theorem fill_perm (todo queue : List Slot) : Perm ((fill todo queue).1 ++ (fill todo queue).2) todo := by
  fun_induction fill todo queue with
  | case1 todo => exact Perm.refl _
  | case2 todo p q hp rest patch left hfill ih =>
    rw [hfill] at ih
    exact (ih.cons p).trans (perm_cons_erase hp).symm
  | case3 todo p q hp ih => exact ih

variable {todo cells : List Slot} {p : Slot} {a : List Slot × List (List Slot)}

theorem mem_fill (hp : p ∈ todo) (queue : List Slot) : p ∈ (fill todo (p :: queue)).1 := by
  rw [fill, if_pos hp]
  exact mem_cons_self

/-- The patches so far and what is still to be reached are all cells. -/
theorem start_perm (h : Perm (a.2.flatten ++ a.1) cells) (p : Slot) :
    Perm ((start a p).2.flatten ++ (start a p).1) cells := by
  unfold start
  split
  · refine Perm.trans ?_ h
    simp only [flatten_append, flatten_singleton, append_assoc]
    exact (fill_perm a.1 [p]).append_left _
  · exact h

theorem start_left_subset (a : List Slot × List (List Slot)) (p : Slot) : (start a p).1 ⊆ a.1 := by
  unfold start
  split
  · intro q hq
    exact (fill_perm a.1 [p]).subset (mem_append_right _ hq)
  · exact Subset.refl _

theorem not_mem_start (hd : a.1.Nodup) (p : Slot) : p ∉ (start a p).1 := by
  unfold start
  split
  · next hp =>
    have hnodup := (fill_perm a.1 [p]).nodup_iff.2 hd
    exact fun hleft => disjoint_of_nodup_append hnodup (mem_fill hp []) hleft
  · next hp => exact hp

variable (hd : cells.Nodup)

include hd

/-- After the turns of some cells none of them is left. -/
theorem not_mem_foldl_start (h : Perm (a.2.flatten ++ a.1) cells) {q : Slot}
    (hq : q ∈ todo ∨ q ∉ a.1) : q ∉ (todo.foldl start a).1 := by
  induction todo generalizing a with
  | nil => exact hq.resolve_left not_mem_nil
  | cons p todo ih =>
    refine ih (start_perm h p) ?_
    rcases hq with hq | hq
    · rcases mem_cons.1 hq with rfl | hq
      · have hnodup := (h.nodup_iff.2 hd).sublist (sublist_append_right _ _)
        exact .inr (not_mem_start hnodup q)
      · exact .inl hq
    · exact .inr fun hmem => hq (start_left_subset a p hmem)

theorem flatten_ofCells_perm : Perm (ofCells cells).flatten cells := by
  have hstart : Perm ((cells, ([] : List (List Slot))).2.flatten ++ cells) cells := Perm.refl _
  have hperm := foldlRecOn (motive := fun a => Perm (a.2.flatten ++ a.1) cells) cells start hstart
    fun a h p _ => start_perm h p
  have hleft : (cells.foldl start (cells, [])).1 = [] := by
    refine eq_nil_iff_forall_not_mem.2 fun q hq => ?_
    have hcell : q ∈ cells := hperm.subset (mem_append_right _ hq)
    exact not_mem_foldl_start (a := (cells, [])) hd hstart (.inl hcell) hq
  rw [hleft, append_nil] at hperm
  exact hperm

theorem mem_of_mem_ofCells {patch : List Slot} (h : patch ∈ ofCells cells) (hp : p ∈ patch) : p ∈ cells :=
  (flatten_ofCells_perm hd).subset (mem_flatten.2 ⟨patch, h, hp⟩)

theorem exists_mem_ofCells (hp : p ∈ cells) : ∃ patch ∈ ofCells cells, p ∈ patch :=
  mem_flatten.1 ((flatten_ofCells_perm hd).symm.subset hp)

end Patches

/-! Boxes -/

namespace SlotBox

variable {ns : List Int} {n : Int}

theorem getD_min?_le (h : n ∈ ns) : ns.min?.getD 0 ≤ n := by
  cases hmin : ns.min? with
  | none => rw [min?_eq_none_iff.1 hmin] at h; cases h
  | some m => exact (min?_eq_some_iff.1 hmin).2 n h

theorem le_getD_max? (h : n ∈ ns) : n ≤ ns.max?.getD 0 := by
  cases hmax : ns.max? with
  | none => rw [max?_eq_none_iff.1 hmax] at h; cases h
  | some m => exact (max?_eq_some_iff.1 hmax).2 n h

theorem getD_min?_mem (h : ns ≠ []) : ns.min?.getD 0 ∈ ns := by
  cases hmin : ns.min? with
  | none => exact absurd (min?_eq_none_iff.1 hmin) h
  | some m => exact (min?_eq_some_iff.1 hmin).1

theorem getD_min?_congr {ms : List Int} (h : ∀ n, n ∈ ns ↔ n ∈ ms) : ns.min?.getD 0 = ms.min?.getD 0 := by
  by_cases hns : ns = []
  · have hms : ms = [] := eq_nil_iff_forall_not_mem.2 fun n hn => by
      rw [← h, hns] at hn
      cases hn
    rw [hns, hms]
  · have hms : ms ≠ [] := by
      obtain ⟨n, hn⟩ := exists_mem_of_ne_nil ns hns
      exact ne_nil_of_mem ((h n).1 hn)
    have hle := getD_min?_le ((h _).2 (getD_min?_mem hms))
    have hge := getD_min?_le ((h _).1 (getD_min?_mem hns))
    omega

variable {slots : List Slot} {s : Slot}

theorem around_row (h : s ∈ slots) : (around slots).minRow ≤ s.row ∧ s.row ≤ (around slots).maxRow :=
  ⟨getD_min?_le (mem_map_of_mem h), le_getD_max? (mem_map_of_mem h)⟩

theorem around_col (h : s ∈ slots) : (around slots).minCol ≤ s.col ∧ s.col ≤ (around slots).maxCol :=
  ⟨getD_min?_le (mem_map_of_mem h), le_getD_max? (mem_map_of_mem h)⟩

theorem getElem?_between {lo hi : Int} (hlo : lo ≤ n) (hhi : n ≤ hi) :
    ((range (hi + 1 - lo).toNat).map fun (i : Nat) => lo + i)[(n - lo).toNat]? = some n := by
  rw [getElem?_map, getElem?_range (by omega), Option.map_some, Option.some.injEq]
  omega

theorem getElem?_rows (b : SlotBox) {r : Int} (hlo : b.minRow ≤ r) (hhi : r ≤ b.maxRow) :
    b.rows[(r - b.minRow).toNat]? = some r :=
  getElem?_between hlo hhi

theorem getElem?_cols (b : SlotBox) {c : Int} (hlo : b.minCol ≤ c) (hhi : c ≤ b.maxCol) :
    b.cols[(c - b.minCol).toNat]? = some c :=
  getElem?_between hlo hhi

end SlotBox

end Sheetwork
