import Sheetwork.Model.Sums
import Sheetwork.Proofs.Number.Whole
import Sheetwork.Proofs.Workbook.Patches
import Sheetwork.Proofs.Workbook.Sheet
/-
  Models: totals of groups of sums. The total of a cell depends on the values of its rectangle only (`total_congr`),
  and a cell that has it (`Holds`) has the exact sum if the rectangle has whole numbers (`Holds.sum`). `Within` says
  how deep the sums below a cell are.
-/

open List

namespace Sheetwork.Model

open Number

theorem SlotSet.mem_add {m : SlotSet} {slots : List Slot} {t : Slot} : t ∈ m.add slots ↔ t ∈ m ∨ t ∈ slots := by
  have step : ∀ (m : SlotSet) s, t ∈ m.insert s ↔ s = t ∨ t ∈ m := fun _ _ => by
    rw [Std.TreeSet.mem_insert, Std.LawfulEqCmp.compare_eq_iff_eq]
  refine (foldl_iff (P := (t ∈ ·)) step).trans ?_
  rw [exists_eq_right, or_comm]

namespace SumGroup

variable {g : SumGroup} {gs : List SumGroup} {s s' : Sheet} {p : Slot} {n : Int} {f : Slot → Int}

/-! Totals -/

theorem total_congr (h : ∀ d ∈ g.offsets.steps, s.value (p.shift d).position = s'.value (p.shift d).position) :
    g.total s p = g.total s' p := by
  refine foldl_ext _ _ _ fun t d hd => ?_
  unfold countedAt
  rw [h d hd]

/-- A cell has the total of its rectangle, as a cell takes it or as a value that equals it. -/
def Holds (s : Sheet) (g : SumGroup) (p : Slot) : Prop :=
  ∃ v, settled (g.total s p) = .ok v ∧ ((s.value p.position == v) = true ∨ s.value p.position = Cell.taken v)

theorem Holds.congr (h : Holds s g p) (hown : s'.value p.position = s.value p.position)
    (hrect : ∀ d ∈ g.offsets.steps, s'.value (p.shift d).position = s.value (p.shift d).position) : Holds s' g p := by
  unfold Holds
  rw [total_congr hrect, hown]
  exact h

/-- How deep the sums below a cell are: none of the groups computes a cell of depth zero, and the rectangle of a cell of
the next depth has cells of the last one only. -/
def Within (gs : List SumGroup) : Nat → Slot → Prop
  | 0, p => ∀ g ∈ gs, p ∉ g.slots
  | n + 1, p => ∀ g ∈ gs, p ∈ g.slots → ∀ d ∈ g.offsets.steps, Within gs n (p.shift d)

instance decidableWithin (gs : List SumGroup) : ∀ (n : Nat) (p : Slot), Decidable (Within gs n p)
  | 0, p => inferInstanceAs (Decidable (∀ g ∈ gs, p ∉ g.slots))
  | n + 1, p =>
    have := decidableWithin gs n
    inferInstanceAs (Decidable (∀ g ∈ gs, p ∈ g.slots → ∀ d ∈ g.offsets.steps, Within gs n (p.shift d)))

/-- The whole number that a cell counts as. -/
def Whole (s : Sheet) (p : Slot) (n : Int) : Prop :=
  if 1 ≤ p.row ∧ 1 ≤ p.col then
    s.value p.position = .int n ∨ s.value p.position = .float (ofInt n) ∨ s.value p.position = .null ∧ n = 0
  else n = 0

theorem countedAt_whole (hn : n.natAbs < 2 ^ 53) (h : Whole s p n) : countedAt s p = ofInt n := by
  have hzero : counted .null = ofInt 0 := by decide +kernel
  have hzero' : (0.0 : Float) = ofInt 0 := by decide +kernel
  unfold Whole at h
  unfold countedAt
  split at h
  · next hon =>
    rw [if_pos (by simpa using hon)]
    rcases h with h | h | ⟨h, rfl⟩
    iterate 2 · rw [h, counted, isNaN_ofInt hn, if_neg (by decide)]
    · rw [h, hzero]
  · next hon => rw [if_neg (by simpa using hon), h, hzero']

theorem total_whole (h : ∀ d ∈ g.offsets.steps, Whole s (p.shift d) (f d))
    (hsum : (g.offsets.steps.map fun d => (f d).natAbs).sum < 2 ^ 53) :
    g.total s p = ofInt (g.offsets.steps.map f).sum := by
  have hrun : ∀ (ds : List Slot) (n : Int), (∀ d ∈ ds, Whole s (p.shift d) (f d)) →
      n.natAbs + (ds.map fun d => (f d).natAbs).sum < 2 ^ 53 →
      ds.foldl (fun t d => t + countedAt s (p.shift d)) (ofInt n) = ofInt (n + (ds.map f).sum) := by
    intro ds
    induction ds with
    | nil =>
      intro n _ _
      rw [map_nil, sum_nil, Int.add_zero]
      rfl
    | cons d ds ih =>
      intro n hds hbound
      rw [map_cons, sum_cons] at hbound
      rw [foldl_cons, countedAt_whole (by omega) (hds d mem_cons_self), ofInt_add (by omega) (by omega) (by omega),
        ih _ (fun d hd => hds d (mem_cons_of_mem _ hd)) (by omega), map_cons, sum_cons, Int.add_assoc]
  have hzero : (0.0 : Float) = ofInt 0 := by decide +kernel
  unfold total
  rw [hzero, hrun g.offsets.steps 0 h (by simpa using hsum), Int.zero_add]

theorem settled_ofInt (hn : n.natAbs < 2 ^ 53) : settled (ofInt n) = .ok (.int n) := by
  have hsmall : (ofInt 0).abs < 1e-12 := by decide +kernel
  unfold settled
  rw [isNaN_ofInt hn, roundEven?_ofInt hn]
  dsimp only
  rw [ofInt_sub_self hn, if_neg (by decide), if_pos hsmall]

theorem natAbs_sum_le (ds : List Slot) (f : Slot → Int) :
    (ds.map f).sum.natAbs ≤ (ds.map fun d => (f d).natAbs).sum := by
  induction ds with
  | nil => exact Nat.le_refl 0
  | cons d ds ih => exact Nat.le_trans (Int.natAbs_add_le _ _) (Nat.add_le_add_left ih _)

theorem Holds.sum (hp : Holds s g p) (h : ∀ d ∈ g.offsets.steps, Whole s (p.shift d) (f d))
    (hsum : (g.offsets.steps.map fun d => (f d).natAbs).sum < 2 ^ 53) :
    (s.value p.position == .int (g.offsets.steps.map f).sum) = true := by
  obtain ⟨v, hv, hvalue⟩ := hp
  have hbound : (g.offsets.steps.map f).sum.natAbs < 2 ^ 53 := Nat.lt_of_le_of_lt (natAbs_sum_le _ f) hsum
  rw [total_whole h hsum, settled_ofInt hbound] at hv
  cases hv
  rcases hvalue with hvalue | hvalue
  · exact hvalue
  · rw [hvalue]
    exact decide_eq_true rfl

end SumGroup

end Sheetwork.Model
