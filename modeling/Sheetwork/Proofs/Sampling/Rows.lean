import Sheetwork.Proofs.Reference
import Sheetwork.Sampling.Sample
/-
  Sampling: the rows that are picked. Every step of picking keeps what `Picks` says: rows of the region in ascending
  order, no more than so many, and with them those that have to stay. So the header and the ends of a region are not
  lost to the limit (`picks_pickRows`, `picks_spreadRows`).
-/

open List

namespace Sheetwork.Ordered

theorem ascending_insert (x : Nat) {xs : List Nat} (h : xs.Pairwise (· < ·)) : (insert x xs).Pairwise (· < ·) := by
  fun_induction insert x xs with
  | case1 => exact pairwise_singleton _ x
  | case2 y ys hlt => exact pairwise_cons.2 ⟨by grind [pairwise_cons], h⟩
  | case3 => exact h
  | case4 y ys hgt ih => exact pairwise_cons.2 (by grind [pairwise_cons, mem_insert])

theorem length_insert_le (x : Nat) (xs : List Nat) : (insert x xs).length ≤ xs.length + 1 := by
  fun_induction insert x xs <;> grind

end Sheetwork.Ordered

namespace Sheetwork.Sampling

theorem mem_between {a b r : Nat} : r ∈ between a b ↔ a ≤ r ∧ r ≤ b := by
  simp only [between, mem_map, mem_range]
  exact ⟨by rintro ⟨i, hi, rfl⟩; omega, fun h => ⟨r - a, by omega⟩⟩

theorem between_subset {a b c d : Nat} (ha : c ≤ a) (hb : b ≤ d) : between a b ⊆ between c d := by
  intro r hr
  obtain ⟨har, hrb⟩ := mem_between.1 hr
  exact mem_between.2 ⟨ha.trans har, hrb.trans hb⟩

theorem length_between (a b : Nat) : (between a b).length = b + 1 - a := by rw [between, length_map, length_range]

/-- Rows of a region in ascending order, at most so many, and among them those to keep. -/
structure Picks (reg : Region) (most : Nat) (kept picked : List Nat) : Prop where
  ascending : picked.Pairwise (· < ·)
  inside : picked ⊆ reg.rows
  length_le : picked.length ≤ most
  kept : kept ⊆ picked

variable {reg : Region} {m n : Nat} {kept least picked rs : List Nat} {s : Sheet} {f : Frame}

namespace Picks

theorem all (hle : reg.rowCount ≤ n) (hkept : kept ⊆ reg.rows) : Picks reg n kept reg.rows where
  ascending := pairwise_lt_range.map _ fun _ _ h => Nat.add_lt_add_left h _
  inside := Subset.refl _
  length_le := (length_between _ _).trans_le hle
  kept := hkept

theorem mono (h : Picks reg m kept picked) (hle : picked.length ≤ n) (hsub : least ⊆ kept) : Picks reg n least picked :=
  ⟨h.ascending, h.inside, hle, Subset.trans hsub h.kept⟩

theorem insert (h : Picks reg m kept picked) {r : Nat} (hr : r ∈ reg.rows) :
    Picks reg (picked.length + 1) (r :: kept) (Ordered.insert r picked) where
  ascending := Ordered.ascending_insert r h.ascending
  inside _ hq := ((Ordered.mem_insert picked).1 hq).elim (· ▸ hr) (h.inside ·)
  length_le := Ordered.length_insert_le r picked
  kept _ hq := (Ordered.mem_insert picked).2 ((mem_cons.1 hq).imp_right (h.kept ·))

theorem addAll (h : Picks reg m kept picked) (hrs : rs ⊆ reg.rows) :
    Picks reg (picked.length + rs.length) (kept ++ rs) (addAll rs picked) := by
  induction rs generalizing m kept picked with
  | nil => exact h.mono (Nat.le_refl _) (by simp)
  | cons r rs ih =>
    obtain ⟨hr, hrs⟩ := cons_subset.1 hrs
    have hnext := h.insert hr
    have hall := ih hnext hrs
    have hlen := hnext.length_le
    exact hall.mono (hall.length_le.trans (by rw [length_cons]; omega)) perm_middle.subset

theorem addBetween (h : Picks reg m kept picked) {a b : Nat} (ha : reg.minRow ≤ a) (hb : b ≤ reg.maxRow) :
    Picks reg (picked.length + (b + 1 - a)) (kept ++ between a b) (Sampling.addAll (between a b) picked) := by
  rw [← length_between]
  exact h.addAll (between_subset ha hb)

/-- Rows with formulas are added as long as there are fewer than so many. -/
theorem addFormulaRows (h : Picks reg m kept picked) (hlt : picked.length < n) (hrs : rs ⊆ reg.rows)
    (hasFormula : Nat → Bool) : Picks reg n kept (addFormulaRows hasFormula n rs picked) := by
  induction rs generalizing m picked with
  | nil => exact h.mono hlt.le (Subset.refl _)
  | cons r rs ih =>
    obtain ⟨hr, hrs⟩ := cons_subset.1 hrs
    have hadd : Picks reg n kept (if hasFormula r then Ordered.insert r picked else picked) := by
      split
      · exact (h.insert hr).mono ((Ordered.length_insert_le r picked).trans hlt) (subset_cons_self r kept)
      · exact h.mono hlt.le (Subset.refl _)
    simp only [Sampling.addFormulaRows]
    generalize (if hasFormula r then Ordered.insert r picked else picked) = next at hadd ⊢
    split
    · exact hadd
    · exact ih hadd (by omega) hrs

theorem addUpTo (h : Picks reg n kept picked) (hrs : rs ⊆ reg.rows) : Picks reg n kept (addUpTo n rs picked) := by
  induction rs generalizing picked with
  | nil => exact h
  | cons r rs ih =>
    obtain ⟨hr, hrs⟩ := cons_subset.1 hrs
    rw [Sampling.addUpTo]
    split
    · next hlt =>
      have hlen := (Ordered.length_insert_le r picked).trans (Int.ofNat_lt.1 hlt)
      exact ih ((h.insert hr).mono hlen (subset_cons_self r kept)) hrs
    · exact h

theorem take (h : Picks reg n kept picked) : Picks reg n kept (picked.take n) := by
  rwa [take_of_length_le h.length_le]

end Picks

/-! Regions that were found -/

/-- A header is one of the first rows of its region. -/
def Region.HeadedAbove (reg : Region) : Prop := ∀ h ∈ reg.header, h ∈ Region.headerRows reg.minRow reg.maxRow

theorem le_of_mem_spans (rows : List Nat) : ∀ p ∈ spans rows, p.1 ≤ p.2 := by
  fun_induction spans rows with
  | case1 => simp
  | case2 r rs b more hrs ih =>
    rw [hrs, forall_mem_cons] at ih
    exact forall_mem_cons.2 ⟨Nat.le_of_succ_le ih.1, ih.2⟩
  | case3 r rs a b more hrs hne ih => exact forall_mem_cons.2 ⟨Nat.le_refl _, hrs ▸ ih⟩
  | case4 => simp

theorem headed_of_mem_regions (h : reg ∈ regions s) : reg.minRow ≤ reg.maxRow ∧ reg.HeadedAbove := by
  obtain ⟨⟨a, b⟩, hspan, rfl⟩ := mem_map.1 h
  exact ⟨le_of_mem_spans _ _ hspan, fun h hh => mem_of_find?_eq_some hh⟩

theorem Frame.headed_of_mem_regions (h : reg ∈ f.regions) : reg.HeadedAbove := by
  obtain ⟨⟨a, b⟩, -, h⟩ := mem_filterMap.1 h
  simp only [Frame.regionOf?] at h
  split at h
  · cases h
    exact fun h hh => mem_of_find?_eq_some hh
  · cases h

namespace Region.HeadedAbove

variable (h : reg.HeadedAbove)

include h

theorem picks_header : Picks reg 1 reg.header.toList reg.header.toList where
  ascending := by cases reg.header <;> simp
  inside r hr := between_subset (Nat.le_refl _) (Nat.min_le_right _ _) (h r (Option.mem_toList.1 hr))
  length_le := by cases reg.header <;> simp
  kept := Subset.refl _

/-- The rows after the header begin soon after the first row. -/
theorem dataStart_near : reg.minRow < dataStart reg ∧ dataStart reg ≤ reg.minRow + 5 := by
  unfold dataStart
  cases hh : reg.header with
  | none => simp
  | some r =>
    have := mem_between.1 (h r hh)
    simp only [headerReach, Option.getD_some] at this ⊢
    omega

end Region.HeadedAbove

theorem stepped_subset {start stop step : Nat} : stepped start stop step ⊆ between start stop := by
  intro r hr
  obtain ⟨hr, hlt⟩ := mem_filter.1 hr
  obtain ⟨i, -, rfl⟩ := mem_map.1 hr
  exact mem_between.2 ⟨Nat.le_add_right _ _, (of_decide_eq_true hlt).le⟩

theorem slice_eq_take {α : Type} (xs : List α) : Value.slice xs none (some (n : Int)) = xs.take n := by
  have hn : ¬ (n : Int) < 0 := by omega
  simp [Value.slice, Value.bound, hn, take_eq_take_iff]

theorem half_eq : (n : Int).fdiv 2 = (n / 2 : Nat) := (Int.ofNat_fdiv n 2).symm

variable (v : View)

/-- Of every region of a sheet at most so many rows are picked, five or more, with the header and the last row. -/
theorem picks_pickRows {s : Sheet} (hreg : reg ∈ regions s) (hn : 5 ≤ n) :
    Picks reg n (reg.maxRow :: reg.header.toList) (pickRows reg (v.hasFormula reg) n) := by
  obtain ⟨hrows, hhead⟩ := headed_of_mem_regions hreg
  have hheader := hhead.picks_header
  obtain ⟨hlo, hhi⟩ := hhead.dataStart_near
  unfold pickRows
  split
  · exact Picks.all (by omega) (cons_subset.2 ⟨mem_between.2 ⟨hrows, Nat.le_refl _⟩, hheader.inside⟩)
  · next hmore =>
    rw [Region.rowCount] at hmore
    have hscanned : between reg.minRow (min reg.maxRow (reg.minRow + formulaReach)) ⊆ reg.rows :=
      between_subset (Nat.le_refl _) (Nat.min_le_left _ _)
    have hfew : reg.header.toList.length < n / 2 := hheader.length_le.trans_lt (by omega)
    have hformulas := hheader.addFormulaRows hfew hscanned (v.hasFormula reg)
    dsimp only
    rw [half_eq]
    generalize addFormulaRows _ _ _ _ = picked at hformulas ⊢
    have hlen := hformulas.length_le
    -- A third of what is left is one row or more, so the tail has the last row.
    obtain ⟨third, hthird⟩ : ∃ third : Nat, ((n : Int) - picked.length).fdiv 3 = third :=
      ⟨(n - picked.length) / 3, by rw [Int.fdiv_eq_ediv_of_nonneg _ (by decide)]; omega⟩
    have hbound : 1 ≤ third ∧ picked.length + 3 * third ≤ n := by
      rw [Int.fdiv_eq_ediv_of_nonneg _ (by decide)] at hthird
      omega
    rw [hthird]
    have hfirst := hformulas.addBetween hlo.le
      (b := (min ((dataStart reg : Int) + third - 1) reg.maxRow).toNat) (by omega)
    have hends := hfirst.addBetween (a := (max ((reg.maxRow : Int) - third + 1) (dataStart reg)).toNat) (by omega)
      (Nat.le_refl _)
    have hlast : reg.maxRow ∈ between (max ((reg.maxRow : Int) - third + 1) (dataStart reg)).toNat reg.maxRow :=
      mem_between.2 (by omega)
    have hall : Picks reg n (reg.maxRow :: reg.header.toList) _ :=
      hends.mono (by have := hfirst.length_le; have := hends.length_le; omega)
        (cons_subset.2 ⟨mem_append_right _ hlast, by simp⟩)
    split
    · exact hall.addUpTo (Subset.trans stepped_subset (between_subset hlo.le (Nat.le_refl _)))
    · exact hall

def sums : Sheet :=
  (range 6).foldl (fun s i => s.insert ⟨i + 1, 1⟩ { value := .text (if i = 0 then "Sum" else "=B1") }) { name := "S" }

def sumRegion : Region := ⟨1, 6, 1, 1, some 1⟩

theorem picks_pickRows_sums : sumRegion ∈ regions sums ∧
    Picks sumRegion 5 [6, 1] (pickRows sumRegion ((View.ofSheet sums).hasFormula sumRegion) 5) := by
  have hheld : (heldCells sums).map (·.1.row) = [1, 2, 3, 4, 5, 6] := by decide +kernel
  have hrows : Ordered.ofList [1, 2, 3, 4, 5, 6] = [1, 2, 3, 4, 5, 6] := by cbv
  have hreg : sumRegion ∈ regions sums := by
    simp only [regions, hheld, hrows]
    decide +kernel
  exact ⟨hreg, picks_pickRows _ hreg (by decide)⟩

/-- Of a region of a frame with more rows than are wanted, 21 or more, the header, the first rows with formulas, up to
half, and five rows at either end are picked, whatever rows are between them. -/
theorem picks_spreadRows {f : Frame} (hreg : reg ∈ f.regions) (hn : 21 ≤ n) (hmore : n < reg.rowCount)
    (hspaced : ∀ m ≤ n, ∀ r ∈ spaced (dataStart reg) reg.maxRow m, dataStart reg ≤ r ∧ r ≤ reg.maxRow) :
    Picks reg n (reg.header.toList ++ (reg.rows.filter (v.hasFormula reg)).take (n / 2) ++
        between (dataStart reg) (dataStart reg + 4) ++ between (reg.maxRow - 4) reg.maxRow)
      (spreadRows reg (v.hasFormula reg) n) := by
  have hhead := Frame.headed_of_mem_regions hreg
  obtain ⟨hlo, hhi⟩ := hhead.dataStart_near
  unfold spreadRows
  rw [if_neg (by omega)]
  rw [Region.rowCount] at hmore
  have hfirst : min (dataStart reg + edgeRows - 1) reg.maxRow = dataStart reg + 4 := by unfold edgeRows; omega
  have hlast : max (reg.maxRow + 1 - edgeRows) (dataStart reg) = reg.maxRow - 4 := by unfold edgeRows; omega
  simp only [half_eq, slice_eq_take, hfirst, hlast]
  have hrows : (reg.rows.filter (v.hasFormula reg)).take (n / 2) ⊆ reg.rows :=
    Subset.trans (take_subset _ _) (filter_subset_self _)
  have hformulas := hhead.picks_header.addAll hrows
  have hstart := hformulas.addBetween hlo.le (b := dataStart reg + 4) (by omega)
  have hends := hstart.addBetween (a := reg.maxRow - 4) (by omega) (Nat.le_refl _)
  -- From 21 on, 1 + n / 2 + 5 + 5 is no more than n.
  have hlen := hends.length_le.trans <| show _ ≤ n by
    have := hhead.picks_header.length_le
    have := length_take_le (n / 2) (reg.rows.filter (v.hasFormula reg))
    have := hformulas.length_le
    have := hstart.length_le
    omega
  generalize addAll _ (addAll _ (addAll _ _)) = picked at hends hlen ⊢
  refine Picks.take ?_
  split
  · have hrest := hends.addAll fun r hr =>
      mem_between.2 (by have := hspaced (n - picked.length : Int).toNat (by omega) r hr; omega)
    refine hrest.mono (hrest.length_le.trans ?_) (subset_append_left _ _)
    rw [spaced, length_map, length_range]
    omega
  · exact hends.mono hlen (Subset.refl _)

def sumFrame : Frame := ⟨25, #[⟨.mixed, #[.null, .text "Sum"] ++ Array.replicate 23 (.text "=B1")⟩]⟩

def sumBlock : Region := ⟨2, 25, 1, 1, some 2⟩

theorem picks_spreadRows_sums : sumBlock ∈ sumFrame.regions ∧ ∃ kept, [2, 3, 12, 21, 25] ⊆ kept ∧
      Picks sumBlock 21 kept (spreadRows sumBlock ((View.ofFrames sumFrame sumFrame).hasFormula sumBlock) 21) := by
  have hreg : sumBlock ∈ sumFrame.regions := by decide +kernel
  have hpicks := picks_spreadRows (.ofFrames sumFrame sumFrame) (n := 21) hreg (by decide) (by decide)
    (by decide +kernel)
  exact ⟨hreg, _, by decide +kernel, hpicks⟩

end Sheetwork.Sampling
