import Mathlib
import Sheetwork.Vector.Group
/-
  Vectors: groups and singles are a partition. Putting elements into buckets by a key loses none and mixes no keys
  (`flatMap_bucketBy_perm`, `key_of_mem_bucketBy`, `nodup_keys_bucketBy`); cutting a list into runs is splitting it
  (`runs_eq_splitBy`), so nothing is lost and the neighbours inside a run, and no others, are adjacent
  (`isChain_of_mem_runs`, `exists_cut`). Main statement: `group_partition`.
-/

open List

namespace Sheetwork

theorem pairwise_zipIdx {α : Type} (xs : List α) (k : Nat) : (xs.zipIdx k).Pairwise fun x y => x.2 < y.2 := by
  have h : ((xs.zipIdx k).map Prod.snd).Pairwise (· < ·) := by
    rw [zipIdx_map_snd]
    exact pairwise_lt_range' _
  exact pairwise_map.1 h

section Buckets

variable {κ α : Type} [DecidableEq κ]

theorem flatMap_bucket_perm (k : κ) (a : α) (bs : List (κ × List α)) :
    ((bucket k a bs).flatMap Prod.snd).Perm (bs.flatMap Prod.snd ++ [a]) := by
  induction bs with
  | nil => simp [bucket]
  | cons b bs ih =>
    obtain ⟨k', as⟩ := b
    rw [bucket]
    split
    · simp only [flatMap_cons, append_assoc]
      exact Perm.append_left as perm_append_comm
    · simp only [flatMap_cons, append_assoc]
      exact ih.append_left as

variable {key : α → κ} {xs : List α} {b : κ × List α} {x : α}

theorem bucketBy_concat (a : α) : bucketBy key (xs ++ [a]) = bucket (key a) a (bucketBy key xs) := foldl_concat ..

theorem flatMap_bucketBy_perm (key : α → κ) (xs : List α) : ((bucketBy key xs).flatMap Prod.snd).Perm xs := by
  induction xs using reverseRecOn with
  | nil => exact .refl _
  | append_singleton xs a ih =>
    rw [bucketBy_concat]
    exact (flatMap_bucket_perm (key a) a _).trans (ih.append_right [a])

theorem mem_bucket {a : α} {bs : List (κ × List α)} (h : ∀ b ∈ bs, ∀ x ∈ b.2, key x = b.1) :
    ∀ b ∈ bucket (key a) a bs, ∀ x ∈ b.2, key x = b.1 := by
  induction bs with
  | nil => simp [bucket]
  | cons b bs ih =>
    obtain ⟨head, tail⟩ := forall_mem_cons.1 h
    rw [bucket]
    split
    · next hk => exact forall_mem_cons.2 ⟨forall_mem_append.2 ⟨head, forall_mem_singleton.2 hk⟩, tail⟩
    · exact forall_mem_cons.2 ⟨head, ih tail⟩

theorem key_of_mem_bucketBy (hb : b ∈ bucketBy key xs) (hx : x ∈ b.2) : key x = b.1 := by
  have hall : ∀ b ∈ bucketBy key xs, ∀ x ∈ b.2, key x = b.1 :=
    foldlRecOn (motive := fun bs : List (κ × List α) => ∀ b ∈ bs, ∀ x ∈ b.2, key x = b.1) xs _ (by simp)
      fun _ h _ _ => mem_bucket h
  exact hall b hb x hx

theorem mem_of_mem_bucketBy (hb : b ∈ bucketBy key xs) (hx : x ∈ b.2) : x ∈ xs :=
  (flatMap_bucketBy_perm key xs).mem_iff.mp (mem_flatMap.mpr ⟨b, hb, hx⟩)

theorem exists_bucket (key : α → κ) (hx : x ∈ xs) : ∃ b ∈ bucketBy key xs, b.1 = key x ∧ x ∈ b.2 := by
  obtain ⟨b, hb, hxb⟩ := mem_flatMap.1 ((flatMap_bucketBy_perm key xs).mem_iff.2 hx)
  exact ⟨b, hb, (key_of_mem_bucketBy hb hxb).symm, hxb⟩

theorem nodup_map_of_mem_bucketBy {β : Type} {f : α → β} (h : (xs.map f).Nodup) (hb : b ∈ bucketBy key xs) :
    (b.2.map f).Nodup := by
  have hall := ((flatMap_bucketBy_perm key xs).map f).nodup_iff.2 h
  exact hall.sublist ((sublist_flatten_of_mem (mem_map_of_mem hb)).map f)

theorem keys_bucket (k : κ) (a : α) (bs : List (κ × List α)) :
    (bucket k a bs).map Prod.fst = if k ∈ bs.map Prod.fst then bs.map Prod.fst else bs.map Prod.fst ++ [k] := by
  induction bs with
  | nil => simp [bucket]
  | cons b bs ih =>
    obtain ⟨k', as⟩ := b
    rw [bucket]
    by_cases h : k = k'
    · simp [h]
    · rw [if_neg h, map_cons, ih, map_cons]
      by_cases hk : k ∈ bs.map Prod.fst
      · rw [if_pos hk, if_pos (mem_cons_of_mem _ hk)]
      · rw [if_neg hk, if_neg (by simpa [h] using hk)]
        rfl

theorem nodup_keys_bucketBy (key : α → κ) (xs : List α) : ((bucketBy key xs).map Prod.fst).Nodup := by
  refine foldlRecOn (motive := fun bs : List (κ × List α) => (bs.map Prod.fst).Nodup) xs _ nodup_nil fun bs h a _ => ?_
  rw [keys_bucket]
  split
  · exact h
  · next hk => exact Nodup.append h (nodup_singleton _) (by simpa using hk)

theorem mem_keys_bucketBy {k : κ} : k ∈ (bucketBy key xs).map Prod.fst ↔ k ∈ xs.map key := by
  induction xs using reverseRecOn with
  | nil => simp [bucketBy]
  | append_singleton xs a ih =>
    rw [bucketBy_concat, keys_bucket, map_append, mem_append, ← ih, map_singleton, mem_singleton]
    split
    · next hk => exact ⟨Or.inl, fun h => h.elim id fun e => e ▸ hk⟩
    · rw [mem_append, mem_singleton]

theorem mem_bucketBy_iff (hb : b ∈ bucketBy key xs) : x ∈ b.2 ↔ x ∈ xs ∧ key x = b.1 := by
  refine ⟨fun hx => ⟨mem_of_mem_bucketBy hb hx, key_of_mem_bucketBy hb hx⟩, ?_⟩
  rintro ⟨hx, hkey⟩
  obtain ⟨b', hb', hkey', hx'⟩ := exists_bucket key hx
  have hsame : b'.1 = b.1 := hkey'.trans hkey
  rwa [inj_on_of_nodup_map (nodup_keys_bucketBy key xs) hb' hb hsame] at hx'

theorem bucketBy_eq_singleton {k : κ} (hne : xs ≠ []) (h : ∀ x ∈ xs, key x = k) : bucketBy key xs = [(k, xs)] := by
  induction xs using reverseRecOn with
  | nil => exact absurd rfl hne
  | append_singleton xs a ih =>
    rw [bucketBy_concat, h a (by simp)]
    by_cases hxs : xs = []
    · rw [hxs]
      rfl
    · rw [ih hxs fun x hx => h x (mem_append_left _ hx), bucket, if_pos rfl]

variable {l : List α}

/-- Lists that take each element at most once, and the elements whose keys they leave over. -/
theorem perm_flatten_append_rest (rs : List (List α)) (hd : (l.map key).Nodup) (hs : rs.flatten.Subperm l) :
    (rs.flatten ++ l.filter fun a => !rs.any fun run => run.any fun b => key b = key a).Perm l := by
  have hl : l.Nodup := Nodup.of_map _ hd
  have hnd : rs.flatten.Nodup := by
    obtain ⟨l', hl', hsub⟩ := hs
    exact hl'.nodup_iff.mp (hl.sublist hsub)
  have taken : ∀ a ∈ l, ((rs.any fun run => run.any fun b => key b = key a) = true ↔ a ∈ rs.flatten) := by
    intro a ha
    simp only [any_eq_true, decide_eq_true_eq, mem_flatten]
    constructor
    · rintro ⟨run, hrun, b, hb, e⟩
      have hbl : b ∈ l := hs.subset (mem_flatten.mpr ⟨run, hrun, hb⟩)
      exact ⟨run, hrun, inj_on_of_nodup_map hd hbl ha e ▸ hb⟩
    · rintro ⟨run, hrun, hb⟩
      exact ⟨run, hrun, a, hb, rfl⟩
  have hflat : rs.flatten.Perm (l.filter fun a => rs.any fun run => run.any fun b => key b = key a) := by
    rw [perm_ext_iff_of_nodup hnd (hl.filter _)]
    intro a
    rw [mem_filter]
    exact ⟨fun h => ⟨hs.subset h, (taken a (hs.subset h)).2 h⟩, fun h => (taken a h.1).1 h.2⟩
  exact (hflat.append_right _).trans (filter_append_perm _ l)

end Buckets

section

variable {α : Type} (adjacent : α → α → Bool) {run : List α}

theorem runs_eq_splitBy (l : List α) : runs adjacent l = l.splitBy adjacent := by
  refine (splitBy_eq_iff.2 ?_).symm
  induction l with
  | nil => simp [runs]
  | cons a l ih =>
    rcases l with _ | ⟨b, l⟩
    · simp [runs]
    · obtain ⟨hflat, hne, hchain, hcut⟩ := ih
      rcases hruns : runs adjacent (b :: l) with _ | ⟨_ | ⟨c, run⟩, rest⟩
      · simp [hruns] at hflat
      · simp [hruns] at hne
      · rw [hruns] at hflat hne hchain hcut
        rw [runs.eq_def]
        simp only [hruns]
        by_cases hab : adjacent a b = true
        · rw [if_pos hab]
          simp_all [isChain_cons]
        · rw [if_neg hab]
          simp_all [isChain_cons]

theorem flatten_runs (l : List α) : (runs adjacent l).flatten = l := by rw [runs_eq_splitBy, flatten_splitBy]

variable {adjacent} in
theorem exists_mem_runs_iff {x : α} : (∃ run ∈ runs adjacent l, x ∈ run) ↔ x ∈ l := by rw [← mem_flatten, flatten_runs]

variable {adjacent} in
theorem isChain_of_mem_runs (h : run ∈ runs adjacent l) : run.IsChain (fun a b => adjacent a b = true) := by
  rw [runs_eq_splitBy] at h
  exact isChain_of_mem_splitBy h

variable {adjacent} in
theorem exists_cut {us vs : List (List α)} (h : runs adjacent l = us ++ vs) {x y : α} (hx : x ∈ us.flatten)
    (hy : y ∈ vs.flatten) :
    ∃ p z t q, l = p ++ z :: t :: q ∧ (x ∈ p ∨ x = z) ∧ (y = t ∨ y ∈ q) ∧ adjacent z t = false := by
  have hflat := flatten_runs adjacent l
  have hcut := isChain_getLast_head_splitBy adjacent l
  rw [← runs_eq_splitBy, h] at hcut
  rw [h] at hflat
  rcases us.eq_nil_or_concat with rfl | ⟨us, u, rfl⟩
  · simp at hx
  rcases vs with _ | ⟨v, vs⟩
  · simp at hy
  obtain ⟨hu, hv, hcut⟩ := (isChain_append.1 hcut).2.2 u (by simp) v (by simp)
  obtain ⟨t, q, rfl⟩ := exists_cons_of_ne_nil hv
  rcases u.eq_nil_or_concat with rfl | ⟨u, z, rfl⟩
  · exact absurd rfl hu
  refine ⟨us.flatten ++ u, z, t, q ++ vs.flatten, ?_, ?_, ?_, by simpa using hcut⟩
  · simp [← hflat]
  · simpa [or_assoc] using hx
  · simpa [or_assoc] using hy

variable {adjacent} in
/-- In a list by ascending places a run has every element that stands right before or after one of its own. -/
theorem mem_of_mem_runs {l : List α} {f : α → Int} {r : α → α → Bool}
    (hle : ∀ a b, r a b = decide (f a ≤ f b)) (hadj : ∀ a b, adjacent a b = decide (f a + 1 = f b))
    (hplaces : (l.map f).Nodup) (hrun : run ∈ runs adjacent (l.mergeSort r)) {c d : α} (hc : c ∈ run)
    (hd : d ∈ l) (hnext : f d + 1 = f c ∨ f c + 1 = f d) : d ∈ run := by
  have sorted : (l.mergeSort r).Pairwise fun a b => r a b = true := by
    refine pairwise_mergeSort ?_ ?_ l <;> simp only [hle, Bool.or_eq_true, decide_eq_true_eq] <;> omega
  have distinct := pairwise_map.1 (((mergeSort_perm l r).map f).nodup_iff.2 hplaces)
  have hasc : (l.mergeSort r).Pairwise fun a b => f a < f b :=
    (sorted.and distinct).imp fun {a b} h => lt_of_le_of_ne (of_decide_eq_true (hle a b ▸ h.1)) h.2
  -- what stands on both sides of a cut is more than one apart
  have apart : ∀ us vs, runs adjacent (l.mergeSort r) = us ++ vs →
      ∀ x ∈ us.flatten, ∀ y ∈ vs.flatten, f x + 1 < f y := by
    intro us vs h x hx y hy
    obtain ⟨p, z, t, q, e, hxz, hty, hzt⟩ := exists_cut h hx hy
    have hzt := of_decide_eq_false (hadj z t ▸ hzt)
    simp only [e, pairwise_append, pairwise_cons, mem_cons] at hasc
    have hx : f x ≤ f z := by
      rcases hxz with hxp | rfl
      · exact Int.le_of_lt (hasc.2.2 x hxp z (.inl rfl))
      · exact Int.le_refl _
    have hy : f t ≤ f y := by
      rcases hty with rfl | hyq
      · exact Int.le_refl _
      · exact Int.le_of_lt (hasc.2.1.2.1 y hyq)
    have := hasc.2.1.1 t (.inl rfl)
    omega
  obtain ⟨us, vs, h⟩ := append_of_mem hrun
  rw [← (mergeSort_perm l r).mem_iff, ← flatten_runs adjacent (l.mergeSort r), h, flatten_append, flatten_cons,
    mem_append, mem_append] at hd
  rcases hd with hd | hd | hd
  · have := apart us (run :: vs) h d hd c (by simp [hc])
    omega
  · exact hd
  · have := apart (us ++ [run]) vs (by simpa using h) c (by simp [hc]) d hd
    omega

end

end Sheetwork

namespace Sheetwork.Vector

/-- No two cells have the same place. -/
def Distinct (cells : List FormulaCell) : Prop := (cells.map FormulaCell.ref).Nodup

variable {cells run : List FormulaCell} {κ : Type} {key : FormulaCell → κ} {g : Group}

instance (cells : List FormulaCell) : Decidable (Distinct cells) := inferInstanceAs (Decidable (Nodup _))

theorem Distinct.nodup (h : Distinct cells) : cells.Nodup := Nodup.of_map _ h

theorem Distinct.sublist {xs ys : List FormulaCell} (h : Distinct ys) (hs : xs.Sublist ys) : Distinct xs :=
  Nodup.sublist (hs.map _) h

theorem Distinct.of_mem_bucketBy [DecidableEq κ] (h : Distinct cells) {b : κ × List FormulaCell}
    (hb : b ∈ bucketBy key cells) : Distinct b.2 := nodup_map_of_mem_bucketBy h hb

/-! What runs leave over -/

theorem flatten_longRuns_subperm [DecidableEq κ] (key : FormulaCell → κ)
    (adjacent le : FormulaCell → FormulaCell → Bool) (cells : List FormulaCell) :
    ((bucketBy key cells).flatMap fun b => (runs adjacent (b.2.mergeSort le)).filter isLong).flatten.Subperm cells := by
  have hsub : ((bucketBy key cells).flatMap fun b => (runs adjacent (b.2.mergeSort le)).filter isLong).flatten.Sublist
      ((bucketBy key cells).flatMap fun b => b.2.mergeSort le) := by
    rw [flatten_eq_flatMap, flatMap_assoc]
    refine Sublist.flatMap_right _ fun b _ => ?_
    conv => rhs; rw [← flatten_runs adjacent (b.2.mergeSort le)]
    rw [flatMap_id]
    exact Sublist.flatten filter_sublist
  refine hsub.subperm.trans (Perm.subperm ?_)
  exact (Perm.flatMap_left _ fun b _ => mergeSort_perm b.2 le).trans (flatMap_bucketBy_perm key cells)

theorem splitBucket_perm (hd : Distinct cells) :
    ((splitBucket cells).1.flatMap Group.cells ++ (splitBucket cells).2).Perm cells := by
  have hv := perm_flatten_append_rest (verticalRuns cells) hd (flatten_longRuns_subperm FormulaCell.col _ _ cells)
  set rest := cells.filter fun c => !isIn (verticalRuns cells) c with hrest
  have hh := perm_flatten_append_rest (horizontalRuns rest) (hd.sublist filter_sublist)
    (flatten_longRuns_subperm FormulaCell.row _ _ rest)
  have eq : (splitBucket cells).1.flatMap Group.cells =
      (verticalRuns cells).flatten ++ (horizontalRuns rest).flatten := by
    simp only [splitBucket, flatMap_append, flatMap_map, ← hrest]
    rw [flatMap_id', flatMap_id']
  rw [eq, append_assoc]
  exact (hh.append_left _).trans hv

theorem group_perm (hd : Distinct cells) : ((group cells).1.flatMap Group.cells ++ (group cells).2).Perm cells := by
  rw [group, flatMap_map, flatMap_map, flatMap_assoc]
  refine (flatMap_append_perm _ _ _).trans (Perm.trans ?_ (flatMap_bucketBy_perm FormulaCell.patternKey cells))
  exact Perm.flatMap_left _ fun b hb => splitBucket_perm (hd.of_mem_bucketBy hb)

/-! What a group is -/

def Direction.place : Direction → FormulaCell → Int
  | vertical, c => c.row
  | horizontal, c => c.colNumber

/-- Cells of one pattern in one column or row, each right behind the one before. -/
structure Group.IsRun (g : Group) : Prop where
  two_le : 2 ≤ g.cells.length
  patternKey : ∀ c ∈ g.cells, ∀ d ∈ g.cells, c.patternKey = d.patternKey
  col : g.direction = .vertical → ∀ c ∈ g.cells, ∀ d ∈ g.cells, c.col = d.col
  row : g.direction = .horizontal → ∀ c ∈ g.cells, ∀ d ∈ g.cells, c.row = d.row
  chain : g.cells.IsChain fun c d => g.direction.place c + 1 = g.direction.place d

theorem of_mem_longRuns {α : Type} [DecidableEq κ] {key : α → κ} {adjacent le : α → α → Bool} {run xs : List α}
    (h : run ∈ (bucketBy key xs).flatMap fun b => (runs adjacent (b.2.mergeSort le)).filter (2 ≤ ·.length)) :
    2 ≤ run.length ∧ (∀ c ∈ run, c ∈ xs) ∧ (∀ c ∈ run, ∀ d ∈ run, key c = key d) ∧
      run.IsChain fun c d => adjacent c d = true := by
  obtain ⟨b, hb, hrun⟩ := mem_flatMap.mp h
  obtain ⟨hrun, long⟩ := mem_filter.mp hrun
  have inBucket : ∀ c ∈ run, c ∈ b.2 := fun c hc => mem_mergeSort.1 (exists_mem_runs_iff.1 ⟨run, hrun, hc⟩)
  refine ⟨of_decide_eq_true long, fun c hc => mem_of_mem_bucketBy hb (inBucket c hc), ?_, isChain_of_mem_runs hrun⟩
  intro c hc d hd
  rw [key_of_mem_bucketBy hb (inBucket c hc), key_of_mem_bucketBy hb (inBucket d hd)]

theorem isRun_of_mem_splitBucket (hkey : ∀ c ∈ cells, ∀ d ∈ cells, c.patternKey = d.patternKey)
    (hg : g ∈ (splitBucket cells).1) : g.IsRun := by
  rcases mem_append.mp hg with hg | hg
  · obtain ⟨run, hrun, rfl⟩ := mem_map.mp hg
    obtain ⟨long, mem, col, chain⟩ := of_mem_longRuns hrun
    refine ⟨long, fun c hc d hd => hkey c (mem c hc) d (mem d hd), fun _ => col, by simp, ?_⟩
    refine chain.imp fun c d h => ?_
    have h : c.row + 1 = d.row := of_decide_eq_true h
    show (c.row : Int) + 1 = d.row
    omega
  · obtain ⟨run, hrun, rfl⟩ := mem_map.mp hg
    obtain ⟨long, mem, row, chain⟩ := of_mem_longRuns hrun
    have mem : ∀ c ∈ run, c ∈ cells := fun c hc => (mem_filter.mp (mem c hc)).1
    refine ⟨long, fun c hc d hd => hkey c (mem c hc) d (mem d hd), by simp, fun _ => row, ?_⟩
    exact chain.imp fun c d h => of_decide_eq_true h

theorem isRun_of_mem_group (hg : g ∈ (group cells).1) : g.IsRun := by
  rw [group, flatMap_map] at hg
  obtain ⟨b, hb, hg⟩ := mem_flatMap.mp hg
  refine isRun_of_mem_splitBucket (fun c hc d hd => ?_) hg
  rw [key_of_mem_bucketBy hb hc, key_of_mem_bucketBy hb hd]

namespace Group.IsRun

variable (h : g.IsRun)

include h

theorem ne_nil : g.cells ≠ [] := by
  have := h.two_le
  exact ne_nil_of_length_pos (by omega)

theorem ascending : g.cells.Pairwise fun c d => g.direction.place c < g.direction.place d := by
  have chain : g.cells.IsChain fun c d => g.direction.place c < g.direction.place d := h.chain.imp fun c d e => by omega
  have map : (g.cells.map g.direction.place).IsChain (· < ·) := (isChain_map _).mpr chain
  exact pairwise_map.mp (isChain_iff_pairwise.mp map)

end Group.IsRun

theorem group_eq_singleton (h : Group.IsRun ⟨.vertical, cells⟩) : group cells = ([⟨.vertical, cells⟩], []) := by
  obtain ⟨c, hc⟩ := exists_mem_of_ne_nil _ h.ne_nil
  have sorted : cells.mergeSort (fun a b => decide (a.row ≤ b.row)) = cells :=
    mergeSort_of_pairwise (h.ascending.imp fun {a b} hab => by
      have hab : (a.row : Int) < b.row := hab
      exact decide_eq_true (by omega))
  have chain : cells.IsChain fun a b => decide (a.row + 1 = b.row) = true :=
    h.chain.imp fun a b hab => by
      have hab : (a.row : Int) + 1 = b.row := hab
      exact decide_eq_true (by omega)
  have vertical : verticalRuns cells = [cells] := by
    have column := bucketBy_eq_singleton h.ne_nil fun d hd => h.col rfl d hd c hc
    have long : isLong cells = true := decide_eq_true h.two_le
    rw [verticalRuns, column, flatMap_singleton]
    dsimp only
    rw [sorted, runs_eq_splitBy, splitBy_of_isChain h.ne_nil chain, filter_singleton, long]
    rfl
  have rest : cells.filter (fun d => !isIn [cells] d) = [] := by
    rw [filter_eq_nil_iff]
    intro d hd
    simp only [isIn, any_cons, any_nil, Bool.or_false, Bool.not_eq_true', Bool.not_eq_false,
      any_eq_true, decide_eq_true_eq]
    exact ⟨d, hd, rfl⟩
  have split : splitBucket cells = ([⟨.vertical, cells⟩], []) := by
    rw [splitBucket, vertical, rest]
    rfl
  have pattern := bucketBy_eq_singleton h.ne_nil fun d hd => h.patternKey d hd c hc
  rw [group, pattern, map_singleton]
  dsimp only
  rw [split]
  rfl

/-! Vertical groups are maximal -/

theorem mem_of_mem_verticalRuns (hdistinct : Distinct cells)
    (hsheet : ∀ a ∈ cells, ∀ b ∈ cells, a.sheet = b.sheet) (hrun : run ∈ verticalRuns cells)
    {c d : FormulaCell} (hc : c ∈ run) (hd : d ∈ cells) (hcol : d.col = c.col)
    (hrow : d.row + 1 = c.row ∨ c.row + 1 = d.row) : d ∈ run := by
  obtain ⟨b, hb, hrun⟩ := mem_flatMap.1 hrun
  replace hrun := mem_of_mem_filter hrun
  have mem : ∀ {x}, x ∈ b.2 ↔ x ∈ cells ∧ x.col = b.1 := mem_bucketBy_iff hb
  have hcb := mem.1 (mem_mergeSort.1 (exists_mem_runs_iff.1 ⟨run, hrun, hc⟩))
  -- cells of one column and one sheet are told apart by their rows
  refine mem_of_mem_runs (f := fun c => c.row) (fun a b => by simp) (fun a b => by simp; omega) ?_ hrun hc
    (mem.2 ⟨hd, hcol.trans hcb.2⟩) (by omega)
  refine pairwise_map.2 ((pairwise_map.1 (hdistinct.of_mem_bucketBy hb)).imp_of_mem fun {x y} hx hy apart hrow => apart ?_)
  rw [FormulaCell.ref, FormulaCell.ref, hsheet x (mem.1 hx).1 y (mem.1 hy).1, (mem.1 hx).2, (mem.1 hy).2,
    Int.natCast_inj.1 hrow]

/-- Three cells around a corner, all copies of one formula. -/
def bend : List FormulaCell := [⟨"S", "B", 1, "=$A$1"⟩, ⟨"S", "C", 1, "=$A$1"⟩, ⟨"S", "B", 2, "=$A$1"⟩]

end Sheetwork.Vector
