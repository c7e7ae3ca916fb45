import Mathlib
import Sheetwork.Sampling.Rows
/-
  Sampling: sharing a budget. A pass of trimming takes something from the sum as long as some share is above one
  (`trimPass_sum_lt_iff`), so trimming comes to an end exactly if the budget has one for each region
  (`allocate_ends_iff`), and then every share is between one and its size (`allocate_within`). With two for each
  region they need not get two: `allocate_two_iff` says when they do.
-/

open List

namespace Sheetwork.Sampling.Budget

theorem mem_bySize (le : Nat → Nat → Bool) {sizes : List Nat} {i : Nat} (h : i < sizes.length) :
    i ∈ bySize le sizes := by
  refine mem_map.2 ⟨(sizes[i], i), mem_mergeSort.2 ?_, rfl⟩
  exact mem_zipIdx_iff_getElem?.2 (getElem?_eq_getElem h)

/-- One share for each of so many regions, none of them empty. -/
structure Shares (n : Nat) (shares : List Nat) : Prop where
  length_eq : shares.length = n
  pos : ∀ x ∈ shares, 1 ≤ x

/-- Shares between one and the size of their region that stay in the budget. -/
structure Within (sizes : List Nat) (budget : Nat) (shares : List Nat) : Prop where
  bounds : Forall₂ (fun x size => 1 ≤ x ∧ x ≤ size) shares sizes
  sum_le : shares.sum ≤ budget

variable {n budget i x : Nat} {order shares sizes floors : List Nat}

theorem sum_set_add (h : i < shares.length) (x : Nat) : (shares.set i x).sum + shares.getD i 0 = shares.sum + x := by
  induction shares generalizing i with
  | nil => cases h
  | cons y ys ih => cases i <;> grind

theorem lt_length_of_getD (h : x < shares.getD i 0) : i < shares.length := by grind

namespace Shares

theorem length_le_sum (h : Shares n shares) : n ≤ shares.sum := h.length_eq ▸ length_le_sum_of_one_le shares h.pos

theorem set (h : Shares n shares) (hx : 1 ≤ x) : Shares n (shares.set i x) where
  length_eq := length_set.trans h.length_eq
  pos _ hy := (mem_or_eq_of_mem_set hy).elim (h.pos _) (· ▸ hx)

theorem of_floors (hlen : floors.length = n) (hx : 1 ≤ x) : Shares n (floors.map (max · x)) where
  length_eq := (length_map _).trans hlen
  pos _ hy := by
    obtain ⟨y, -, rfl⟩ := mem_map.1 hy
    exact hx.trans (Nat.le_max_right y x)

/-- A pass leaves every region a share and adds nothing. -/
theorem trimPass (h : Shares n shares) (budget : Nat) (order : List Nat) :
    Shares n (trimPass budget order shares) ∧ (trimPass budget order shares).sum ≤ shares.sum := by
  induction order generalizing shares with
  | nil => exact ⟨h, Nat.le_refl _⟩
  | cons i is ih =>
    rw [Budget.trimPass]
    split_ifs with hle hlt
    · exact ⟨h, Nat.le_refl _⟩
    · have hsum := sum_set_add (lt_length_of_getD hlt) (shares.getD i 0 - 1)
      obtain ⟨hnext, hnextsum⟩ := ih (h.set (i := i) (Nat.le_sub_one_of_lt hlt))
      exact ⟨hnext, by omega⟩
    · exact ih h

theorem handOut (h : Shares n shares) (left : Nat) (order : List Nat) :
    Shares n (handOut left order shares) ∧ (handOut left order shares).sum ≤ shares.sum + left := by
  fun_induction Budget.handOut left order shares with
  | case1 => exact ⟨h, Nat.le_add_right _ _⟩
  | case2 => exact ⟨h, Nat.le_refl _⟩
  | case3 left i is shares ih =>
    obtain ⟨hnext, hsum⟩ := ih (h.set (Nat.le_add_left 1 _))
    refine ⟨hnext, hsum.trans ?_⟩
    by_cases hi : i < shares.length
    · have := sum_set_add hi (shares.getD i 0 + 1)
      omega
    · rw [set_eq_of_length_le (Nat.le_of_not_lt hi)]
      omega

theorem within (h : Shares sizes.length shares) (hsizes : ∀ s ∈ sizes, 1 ≤ s) (hsum : shares.sum ≤ budget) :
    Within sizes budget (shares.zipWith min sizes) := by
  obtain ⟨hlen, hpos⟩ := h
  induction shares generalizing sizes budget with
  | nil =>
    cases eq_nil_of_length_eq_zero hlen.symm
    exact ⟨.nil, Nat.zero_le _⟩
  | cons x shares ih =>
    cases sizes with
    | nil => cases hlen
    | cons size sizes =>
      obtain ⟨hx, hpos⟩ := forall_mem_cons.1 hpos
      obtain ⟨hsize, hsizes⟩ := forall_mem_cons.1 hsizes
      obtain ⟨hbounds, hrest⟩ := ih hsizes (Nat.le_refl _) (Nat.succ.inj hlen) hpos
      rw [sum_cons] at hsum
      refine ⟨.cons ⟨Nat.le_min.2 ⟨hx, hsize⟩, Nat.min_le_right x size⟩ hbounds, ?_⟩
      rw [zipWith_cons_cons, sum_cons]
      omega

end Shares

theorem trimPass_eq_self (h : ∀ x ∈ shares, x ≤ 1) (order : List Nat) : trimPass budget order shares = shares := by
  induction order with
  | nil => rfl
  | cons i is ih =>
    have hi : ¬ 1 < shares.getD i 0 := by grind [getElem_mem]
    rw [trimPass, if_neg hi, ih, ite_self]

/-- A pass that starts above the budget takes something, unless no share has more than one. -/
theorem trimPass_sum_lt_iff (hall : ∀ i < shares.length, i ∈ order) (h : Shares n shares) (hlt : budget < shares.sum) :
    (trimPass budget order shares).sum < shares.sum ↔ ∃ x ∈ shares, 1 < x := by
  constructor
  · intro hsum
    by_contra! hnone
    exact hsum.ne (by rw [trimPass_eq_self hnone])
  · rintro ⟨x, hx, hone⟩
    obtain ⟨i, hi, rfl⟩ := getElem_of_mem hx
    rw [← getD_eq_getElem _ 0 hi] at hone
    replace hall := hall i hi
    clear hx hi
    induction order with
    | nil => cases hall
    | cons j is ih =>
      -- The first share above one that comes up is trimmed.
      rw [trimPass, if_neg (Nat.not_le.2 hlt)]
      split
      · next hj =>
        have hsum := sum_set_add (lt_length_of_getD hj) (shares.getD j 0 - 1)
        have hle := ((h.set (i := j) (Nat.le_sub_one_of_lt hj)).trimPass budget is).2
        omega
      · next hj => exact ih ((mem_cons.1 hall).resolve_left fun heq => hj (heq ▸ hone))

/-- Trimming ends in the budget if there is one for each region. -/
theorem exists_trim (hall : ∀ i < n, i ∈ order) (h : Shares n shares) (hn : n ≤ budget) {passes : Nat}
    (hpasses : shares.sum ≤ passes) :
    ∃ next, trim budget order passes shares = some next ∧ Shares n next ∧ next.sum ≤ budget := by
  induction passes generalizing shares with
  | zero => exact ⟨shares, if_pos (by omega), h, by omega⟩
  | succ passes ih =>
    rw [trim]
    split
    · next hle => exact ⟨shares, rfl, h, hle⟩
    · next hlt =>
      have hmore : ∃ x ∈ shares, 1 < x := by
        by_contra! hnone
        have := sum_le_card_nsmul shares 1 hnone
        rw [h.length_eq, smul_eq_mul] at this
        omega
      have hsum := (trimPass_sum_lt_iff (h.length_eq ▸ hall) h (Nat.lt_of_not_le hlt)).2 hmore
      rw [if_pos hsum]
      exact ih (h.trimPass budget order).1 (by omega)

theorem trim_eq_none (h : Shares n shares) (hn : budget < n) (passes : Nat) :
    trim budget order passes shares = none := by
  induction passes generalizing shares with
  | zero => exact if_neg (Nat.not_le.2 (hn.trans_le h.length_le_sum))
  | succ passes ih =>
    rw [trim, if_neg (Nat.not_le.2 (hn.trans_le h.length_le_sum))]
    simp only [ih (h.trimPass budget order).1, ite_self]

theorem one_le_leastShare (budget count : Nat) : 1 ≤ leastShare budget count := by
  unfold leastShare
  split <;> decide

section

variable (hlen : floors.length = sizes.length)

include hlen

theorem share_eq_none (hbudget : budget < sizes.length) : share floors sizes budget = none := by
  have hfirst := (Shares.of_floors hlen (one_le_leastShare budget sizes.length)).length_le_sum
  rw [share, balanced, if_neg (by omega), trim_eq_none (Shares.of_floors hlen (Nat.le_refl 1)) hbudget]
  rfl

theorem exists_balanced (hbudget : sizes.length ≤ budget) :
    ∃ shares, balanced floors sizes budget = some shares ∧ Shares sizes.length shares ∧ shares.sum ≤ budget := by
  by_cases hle : (floors.map (max · (leastShare budget sizes.length))).sum ≤ budget
  · exact ⟨_, if_pos hle, Shares.of_floors hlen (one_le_leastShare budget sizes.length), hle⟩
  · obtain ⟨next, hnext, hend⟩ :=
      exists_trim (fun i => mem_bySize (· ≤ ·)) (Shares.of_floors hlen (Nat.le_refl 1)) hbudget (Nat.le_refl _)
    exact ⟨next, (if_neg hle).trans hnext, hend⟩

theorem exists_share (hsizes : ∀ s ∈ sizes, 1 ≤ s) (hbudget : sizes.length ≤ budget) :
    ∃ shares, share floors sizes budget = some shares ∧ Within sizes budget shares := by
  obtain ⟨shares, hshares, hall, hsum⟩ := exists_balanced hlen hbudget
  obtain ⟨hout, houtsum⟩ := hall.handOut (budget - shares.sum) (bySize (· ≥ ·) sizes)
  exact ⟨_, by rw [share, hshares]; rfl, hout.within hsizes (by omega)⟩

end

theorem allocate_eq (hne : sizes ≠ []) (hsizes : ∀ s ∈ sizes, 1 ≤ s) :
    allocate sizes budget = share (sizes.map (floorShare sizes.sum budget)) sizes budget := by
  have hlen := length_pos_of_ne_nil hne
  have hsum := length_le_sum_of_one_le sizes hsizes
  exact if_neg (by omega)

/-- With one for each region the budget is shared so that every region gets between one and its size and the sum
stays in the budget, whatever the proportional shares are rounded to. -/
theorem allocate_within (hne : sizes ≠ []) (hsizes : ∀ s ∈ sizes, 1 ≤ s) (hbudget : sizes.length ≤ budget) :
    (∃ shares, allocate sizes budget = some shares ∧ Within sizes budget shares) ∧
      ∀ floors : List Nat, floors.length = sizes.length →
        ∃ shares, share floors sizes budget = some shares ∧ Within sizes budget shares := by
  refine ⟨?_, fun floors hlen => exists_share hlen hsizes hbudget⟩
  rw [allocate_eq hne hsizes]
  exact exists_share (length_map _) hsizes hbudget

theorem allocate_within_three : ∃ shares, share [98, 1, 1] [98, 1, 1] 3 = some shares ∧ Within [98, 1, 1] 3 shares :=
  (allocate_within (by decide) (by decide) (by decide)).2 _ rfl

/-- Sharing comes to an end exactly if the budget has one for each region; a pass of trimming above the budget makes
the sum smaller exactly if some share has more than one. -/
theorem allocate_ends_iff (hne : sizes ≠ []) (hsizes : ∀ s ∈ sizes, 1 ≤ s) :
    ((allocate sizes budget).isSome ↔ sizes.length ≤ budget) ∧
      ∀ shares, Shares sizes.length shares → budget < shares.sum →
        ((trimPass budget (bySize (· ≤ ·) sizes) shares).sum < shares.sum ↔ ∃ x ∈ shares, 1 < x) := by
  refine ⟨⟨fun h => ?_, fun h => ?_⟩,
    fun shares h => trimPass_sum_lt_iff (fun i hi => mem_bySize _ (h.length_eq ▸ hi)) h⟩
  · by_contra hlt
    rw [allocate_eq hne hsizes, share_eq_none (length_map _) (Nat.lt_of_not_le hlt)] at h
    cases h
  · rw [allocate_eq hne hsizes]
    obtain ⟨shares, hshares, -⟩ := exists_share (length_map _) hsizes h
    rw [hshares]
    rfl

theorem allocate_ends_iff_two : ¬ (allocate [1, 2] 1).isSome :=
  mt (allocate_ends_iff (by decide) (by decide)).1.1 (by decide)

/-! Two for every region -/

def raised (shares : List Nat) : Nat := (shares.map (max · 2)).sum

theorem raised_set_add (h : i < shares.length) (x : Nat) :
    raised (shares.set i x) + max (shares.getD i 0) 2 = raised shares + max x 2 := by
  induction shares generalizing i with
  | nil => cases h
  | cons y ys ih => cases i <;> grind [raised]

theorem raised_le_sum_iff : raised shares ≤ shares.sum ↔ ∀ x ∈ shares, 2 ≤ x := by
  constructor
  · intro hle x hx
    by_contra hlt
    have hsum := sum_lt_sum (l := shares) id (max · 2) (fun x _ => Nat.le_max_left x 2) ⟨x, hx, by grind⟩
    rw [map_id] at hsum
    exact Nat.not_le.2 hsum hle
  · intro h
    rw [raised, map_congr_left fun x hx => Nat.max_eq_left (h x hx), map_id']

/-- Some share is below two, and raising it is too much for the budget. -/
structure Short (budget : Nat) (shares : List Nat) : Prop where
  sum_lt : shares.sum < raised shares
  budget_lt : budget < raised shares

namespace Short

theorem trimPass (h : Short budget shares) (order : List Nat) : Short budget (trimPass budget order shares) := by
  induction order generalizing shares with
  | nil => exact h
  | cons i is ih =>
    rw [Budget.trimPass]
    split_ifs with hle hlt
    · exact h
    · -- The sum is still not below the budget, and no share that is below two has changed.
      have hsum := sum_set_add (lt_length_of_getD hlt) (shares.getD i 0 - 1)
      have hraised := raised_set_add (lt_length_of_getD hlt) (shares.getD i 0 - 1)
      have := h.sum_lt
      exact ih ⟨by omega, by omega⟩
    · exact ih h

theorem trim {passes : Nat} {next : List Nat} (h : Short budget shares)
    (htrim : trim budget order passes shares = some next) : Short budget next := by
  fun_induction Budget.trim budget order passes shares with
  | case1 | case3 =>
    cases htrim
    exact h
  | case2 | case5 => cases htrim
  | case4 passes shares hle next hlt ih => exact ih (h.trimPass order) htrim

end Short

theorem raised_handOut (left : Nat) (order shares : List Nat) : raised shares ≤ raised (handOut left order shares) ∧
    raised (handOut left order shares) + shares.sum ≤ raised shares + (handOut left order shares).sum := by
  fun_induction handOut left order shares with
  | case1 | case2 => exact ⟨Nat.le_refl _, Nat.le_refl _⟩
  | case3 left i is shares ih =>
    by_cases hi : i < shares.length
    · have hsum := sum_set_add hi (shares.getD i 0 + 1)
      have hraised := raised_set_add hi (shares.getD i 0 + 1)
      omega
    · rwa [set_eq_of_length_le (Nat.le_of_not_lt hi)] at ih ⊢

theorem two_le_capped_iff (hlen : shares.length = sizes.length) (hsizes : ∀ s ∈ sizes, 2 ≤ s) :
    (∀ x ∈ shares.zipWith min sizes, 2 ≤ x) ↔ ∀ x ∈ shares, 2 ≤ x := by
  induction shares generalizing sizes with
  | nil => rfl
  | cons x shares ih =>
    cases sizes with
    | nil => cases hlen
    | cons size sizes =>
      obtain ⟨hsize, hsizes⟩ := forall_mem_cons.1 hsizes
      rw [zipWith_cons_cons, forall_mem_cons, forall_mem_cons, ih (Nat.succ.inj hlen) hsizes, Nat.le_min]
      exact and_congr_left' (and_iff_left hsize)

/-- Shares are short before the rest is handed out exactly if a least share of two is too much for the budget. -/
theorem balanced_cases (hbudget : 2 * sizes.length ≤ budget) (hfloors : floors.sum ≤ budget)
    (h : balanced floors sizes budget = some shares) :
    raised floors ≤ budget ∧ raised shares ≤ shares.sum ∨ budget < raised floors ∧ Short budget shares := by
  rw [balanced, leastShare, if_pos hbudget] at h
  split at h
  · next hle =>
    cases h
    exact .inl ⟨hle, raised_le_sum_iff.2 (by simp)⟩
  · next hlt =>
    have hlt : budget < raised floors := Nat.lt_of_not_le hlt
    have hraised : raised (floors.map (max · 1)) = raised floors := by
      rw [raised, map_map]
      exact congrArg sum (map_congr_left fun x _ => by grind)
    have hlow : (floors.map (max · 1)).sum < raised (floors.map (max · 1)) := by
      rw [← Nat.not_le, raised_le_sum_iff]
      intro hall
      have hfull : raised floors ≤ floors.sum := by
        refine raised_le_sum_iff.2 fun x hx => ?_
        have := hall _ (mem_map_of_mem hx)
        omega
      omega
    exact .inr ⟨hlt, Short.trim ⟨hlow, hraised ▸ hlt⟩ h⟩

/-- With two for each region, every region gets two exactly if the budget has room for the proportional shares after
the small ones are raised to two, whatever they are rounded to. -/
theorem allocate_two_iff (hne : sizes ≠ []) (hsizes : ∀ s ∈ sizes, 2 ≤ s) (hbudget : 2 * sizes.length ≤ budget) :
    allocate sizes budget = share (sizes.map (floorShare sizes.sum budget)) sizes budget ∧
      ∀ floors : List Nat, floors.length = sizes.length → floors.sum ≤ budget →
        ((∃ shares, share floors sizes budget = some shares ∧ ∀ x ∈ shares, 2 ≤ x) ↔ raised floors ≤ budget) := by
  refine ⟨allocate_eq hne fun s hs => Nat.le_of_succ_le (hsizes s hs), fun floors hlen hfloors => ?_⟩
  obtain ⟨shares, hshares, hall, hsum⟩ := exists_balanced hlen ((Nat.le_mul_of_pos_left _ two_pos).trans hbudget)
  obtain ⟨hout, houtsum⟩ := hall.handOut (budget - shares.sum) (bySize (· ≥ ·) sizes)
  obtain ⟨hmore, hless⟩ := raised_handOut (budget - shares.sum) (bySize (· ≥ ·) sizes) shares
  rw [share, hshares, Option.map_some]
  simp only [Option.some.injEq, exists_eq_left']
  rw [two_le_capped_iff hout.length_eq hsizes, ← raised_le_sum_iff]
  rcases balanced_cases hbudget hfloors hshares with ⟨hle, hfull⟩ | ⟨hlt, hshort⟩
  · exact iff_of_true (by omega) hle
  · have := hshort.budget_lt
    exact iff_of_false (by omega) (Nat.not_le.2 hlt)

/-- Of a budget of four one goes to the smaller of two regions, though it has two rows. -/
theorem allocate_two_iff_skewed : ¬ ∃ shares, share [3, 0] [98, 2] 4 = some shares ∧ ∀ x ∈ shares, 2 ≤ x :=
  mt ((allocate_two_iff (by decide) (by decide) (by decide)).2 [3, 0] (by decide) (by decide)).1 (by decide)

end Sheetwork.Sampling.Budget
