import Sheetwork.Model.Calculation
import Sheetwork.Proofs.Model.Sums
import Sheetwork.Proofs.Vector.Partition
import Sheetwork.Proofs.Workbook.Content
/-
  Models: what a calculation computes. A pass over the groups of a sheet writes the totals that the sheet gave before
  (`fills_refreshSheet`): cells that had their totals keep them, and every pass reaches one cell further
  (`holds_refreshSheet`, `fits_refreshAll`) unless it changes nothing, and then all totals are right. Groups that are
  computed once their precedents are known count as one pass more (`ready_settle`). Main statement: `run_totals`.
-/

open List

namespace Sheetwork.Model

open Workbook

namespace Calculation

open SumGroup

variable {gs : List SumGroup} {s s' : Sheet} {p : Slot}

/-! Writing at slots -/

variable {v : Value} {l : List (Slot × Float)} {a a' : Sheet × Bool} {n : Nat} {R : Value → Value → Value → Prop}
  {x : Slot × Float}

theorem position_ne {p q : Slot} (hp : 1 ≤ p.row ∧ 1 ≤ p.col) (h : p ≠ q) : p.position ≠ q.position := by
  intro heq
  have hrow : p.row.toNat = q.row.toNat := congrArg Position.row heq
  have hcol : p.col.toNat = q.col.toNat := congrArg Position.col heq
  apply h
  obtain ⟨r, c⟩ := p
  dsimp only at hp hrow hcol
  congr 1
  · omega
  · omega

/-- The totals of a list were written: nothing else has changed, and what became of a value is told by the total and by
what was there. -/
structure Fills (R : Value → Value → Value → Prop) (l : List (Slot × Float)) (s s' : Sheet) : Prop where
  name : s'.name = s.name
  frame : ∀ p, p ∉ l.map Prod.fst → s'.value p.position = s.value p.position
  value : ∀ x ∈ l, ∃ v, settled x.2 = .ok v ∧ R (s.value x.1.position) v (s'.value x.1.position)

theorem Fills.of_putSlot (hv : settled x.2 = .ok v)
    (h : putSlot s x.1 v = .ok s') (hR : R (s.value x.1.position) v (Cell.taken v)) : Fills R [x] s s' := by
  unfold putSlot at h
  split at h
  · next hp =>
    rw [Bool.and_eq_true, decide_eq_true_eq, decide_eq_true_eq] at hp
    refine ⟨Sheet.name_of_put h, fun q hq => ?_, forall_mem_singleton.2 ⟨v, hv, ?_⟩⟩
    · rw [Sheet.value_of_put h, if_neg (position_ne hp fun heq => hq (mem_singleton.2 heq.symm))]
    · rwa [Sheet.value_of_put h, if_pos rfl]
  · cases h

/-- Writing a total for every entry of a list, in which no slot has two totals. -/
theorem fills_of_foldlM {σ : Type} (sheet : σ → Sheet)
    (hR : ∀ o v n n', R o v n → R n v n' → R o v n') {f : σ → Slot × Float → Outcome σ}
    (hf : ∀ a a' x, f a x = .ok a' → Fills R [x] (sheet a) (sheet a')) (hl : ∀ x ∈ l, ∀ y ∈ l, x.1 = y.1 → x = y)
    {a a' : σ} (h : l.foldlM f a = .ok a') : Fills R l (sheet a) (sheet a') := by
  induction h using foldlM_induction with
  | nil => exact ⟨rfl, fun _ _ => rfl, nofun⟩
  | @cons x l a b hb _ ih =>
    have hstep := hf a b x hb
    have hrest := ih fun y hy z hz => hl y (mem_cons_of_mem _ hy) z (mem_cons_of_mem _ hz)
    have hfirst : ∀ q, q ≠ x.1 → (sheet b).value q.position = (sheet a).value q.position := by
      intro q hq
      exact hstep.frame q (by simpa using hq)
    obtain ⟨v, hv, hvalue⟩ := hstep.value x mem_cons_self
    refine ⟨hrest.name.trans hstep.name, fun q hq => ?_, fun y hy => ?_⟩
    · rw [map_cons, mem_cons, not_or] at hq
      rw [hrest.frame q hq.2, hfirst q hq.1]
    · by_cases hmem : y ∈ l
      · obtain ⟨u, hu, hlast⟩ := hrest.value y hmem
        refine ⟨u, hu, ?_⟩
        by_cases heq : y.1 = x.1
        · -- written twice: with one total
          have hxy : y = x := hl y hy x mem_cons_self heq
          subst hxy
          rw [hu] at hv
          cases hv
          exact hR _ _ _ _ hvalue hlast
        · rwa [hfirst _ heq] at hlast
      · rcases mem_cons.1 hy with rfl | hy
        · refine ⟨v, hv, ?_⟩
          rwa [hrest.frame y.1 fun hin => ?_]
          obtain ⟨z, hz, heq⟩ := mem_map.1 hin
          exact hmem (hl z (mem_cons_of_mem _ hz) y mem_cons_self heq ▸ hz)
        · exact absurd hy hmem

/-! One pass over a sheet -/

def cellTotals (s : Sheet) (gs : List SumGroup) : List (Slot × Float) :=
  gs.flatMap fun g => g.slots.map fun p => (p, g.total s p)

def Kept (old v new : Value) : Prop := new = if old == v then old else Cell.taken v

theorem Kept.trans {o n n' : Value} (h : Kept o v n) (h' : Kept n v n') : Kept o v n' := by
  unfold Kept at *
  by_cases heq : (o == v) = true
  · rw [if_pos heq] at h ⊢
    rw [h', h, if_pos heq]
  · rw [if_neg heq] at h ⊢
    rw [h', h]
    split <;> rfl

theorem refreshSheet_eq (before : Sheet) :
    refreshSheet before gs = (cellTotals before gs).foldlM refreshCell (before, false) := by
  unfold refreshSheet cellTotals
  generalize (before, false) = a
  induction gs generalizing a with
  | nil => rfl
  | cons g gs ih =>
    have hzip : g.slots.zip (g.totals before) = g.slots.map fun p => (p, g.total before p) := map_prod_left_eq_zip.symm
    rw [foldlM_cons, flatMap_cons, foldlM_append, hzip]
    exact bind_congr ih

theorem fills_refreshCell (h : refreshCell a x = .ok a') : Fills Kept [x] a.1 a'.1 := by
  obtain ⟨v, hv, h⟩ := of_bind h
  split at h
  · next heq =>
    cases h
    exact ⟨rfl, fun _ _ => rfl, forall_mem_singleton.2 ⟨v, hv, (if_pos heq).symm⟩⟩
  · next heq =>
    obtain ⟨t, ht, h⟩ := of_bind h
    cases h
    exact .of_putSlot hv ht (if_neg heq).symm

theorem eq_of_refreshCell (h : l.foldlM refreshCell a = .ok a') (hfalse : a'.2 = false) :
    a' = a ∧ ∀ x ∈ l, ∃ v, settled x.2 = .ok v ∧ (a.1.value x.1.position == v) = true := by
  induction h using foldlM_induction with
  | nil => exact ⟨rfl, nofun⟩
  | cons hb _ ih =>
    obtain ⟨hrest, hall⟩ := ih
    obtain ⟨v, hv, hb⟩ := of_bind hb
    split at hb
    · next heq =>
      cases hb
      refine ⟨hrest, fun y hy => ?_⟩
      rcases mem_cons.1 hy with rfl | hy
      · exact ⟨v, hv, heq⟩
      · exact hall y hy
    · obtain ⟨t, -, hb⟩ := of_bind hb
      cases hb
      rw [hrest] at hfalse
      cases hfalse

section

variable (hone : ∀ g ∈ gs, ∀ g' ∈ gs, ∀ p ∈ g.slots, p ∈ g'.slots → g = g')

variable {x y : Slot × Float}

theorem mem_cellTotals : x ∈ cellTotals s gs ↔ ∃ g ∈ gs, x.1 ∈ g.slots ∧ x.2 = g.total s x.1 := by
  unfold cellTotals
  rw [mem_flatMap]
  refine exists_congr fun g => and_congr_right fun _ => ?_
  rw [mem_map]
  constructor
  · rintro ⟨p, hp, rfl⟩
    exact ⟨hp, rfl⟩
  · rintro ⟨hp, htotal⟩
    exact ⟨x.1, hp, by rw [← htotal]⟩

variable {before : Sheet} {changed : Bool}

include hone

theorem cellTotals_inj (hx : x ∈ cellTotals s gs) (hy : y ∈ cellTotals s gs) (hxy : x.1 = y.1) : x = y := by
  obtain ⟨g, hg, hgx, htotal⟩ := mem_cellTotals.1 hx
  obtain ⟨g', hg', hgy, htotal'⟩ := mem_cellTotals.1 hy
  rw [← hxy] at hgy htotal'
  have hsame := hone g hg g' hg' x.1 hgx hgy
  subst hsame
  exact Prod.ext hxy (htotal.trans htotal'.symm)

theorem fills_refreshSheet (h : refreshSheet before gs = .ok (s, changed)) :
    Fills Kept (cellTotals before gs) before s := by
  rw [refreshSheet_eq] at h
  exact fills_of_foldlM Prod.fst (R := Kept) (fun _ _ _ _ => Kept.trans) (fun _ _ _ => fills_refreshCell)
    (fun _ hx _ hy => cellTotals_inj hone hx hy) h

/-- A pass leaves what has its total, and reaches one cell further. -/
theorem holds_refreshSheet (h : refreshSheet before gs = .ok (s, changed))
    (hbefore : ∀ p, Within gs n p → ∀ g ∈ gs, p ∈ g.slots → Holds before g p) :
    ∀ p, Within gs (n + 1) p → ∀ g ∈ gs, p ∈ g.slots → Holds s g p := by
  have hfills := fills_refreshSheet hone h
  have hstays : ∀ q, Within gs n q → s.value q.position = before.value q.position := by
    intro q hq
    by_cases hin : ∃ g ∈ gs, q ∈ g.slots
    · obtain ⟨g, hg, hqg⟩ := hin
      obtain ⟨v, hv, hkept⟩ := hfills.value (q, g.total before q) (mem_cellTotals.2 ⟨g, hg, hqg, rfl⟩)
      obtain ⟨u, hu, hheld⟩ := hbefore q hq g hg hqg
      rw [hu] at hv
      cases hv
      unfold Kept at hkept
      rw [hkept]
      split
      · rfl
      · next heq =>
        rcases hheld with hheld | hheld
        · exact absurd hheld heq
        · exact hheld.symm
    · refine hfills.frame q fun hmem => hin ?_
      obtain ⟨x, hx, rfl⟩ := mem_map.1 hmem
      obtain ⟨g, hg, hxg, -⟩ := mem_cellTotals.1 hx
      exact ⟨g, hg, hxg⟩
  intro p hp g hg hpg
  obtain ⟨v, hv, hkept⟩ := hfills.value (p, g.total before p) (mem_cellTotals.2 ⟨g, hg, hpg, rfl⟩)
  refine ⟨v, ?_, ?_⟩
  · rw [← hv, total_congr fun d hd => hstays _ (hp g hg hpg d hd)]
  · unfold Kept at hkept
    rw [hkept]
    split
    · next heq => exact .inl heq
    · exact .inr rfl

omit hone in
theorem holds_of_unchanged (h : refreshSheet before gs = .ok (s, false)) :
    s = before ∧ ∀ g ∈ gs, ∀ p ∈ g.slots, Holds before g p := by
  rw [refreshSheet_eq] at h
  obtain ⟨heq, hall⟩ := eq_of_refreshCell h rfl
  refine ⟨congrArg Prod.fst heq, fun g hg p hp => ?_⟩
  obtain ⟨v, hv, hvalue⟩ := hall (p, g.total before p) (mem_cellTotals.2 ⟨g, hg, hp, rfl⟩)
  exact ⟨v, hv, .inl hvalue⟩

end

/-! Passes over a workbook -/

section Workbook

variable {name : String} {groups : List (String × List SumGroup)} {w w' : Workbook}

/-- The cells of a depth below `n` have their totals. -/
def Fits (gs : List SumGroup) (name : String) (n : Nat) (w : Workbook) : Prop :=
  ∀ s, w.sheet? name = some s → ∀ p, Within gs n p → ∀ g ∈ gs, p ∈ g.slots → Holds s g p

variable {a a' : Workbook × Bool} {x : String × List SumGroup} {changed : Bool}

theorem name_refreshSheet (h : refreshSheet s gs = .ok (s', changed)) : s'.name = s.name := by
  rw [refreshSheet_eq] at h
  refine foldlM_invariant (P := fun a => a.1.name = s.name) ?_ rfl h
  intro a a' x _ ha h
  exact (fills_refreshCell h).name.trans ha

theorem refreshOn_of_ne (h : refreshOn a x = .ok a') (hne : x.1 ≠ name) : a'.1.sheet? name = a.1.sheet? name := by
  unfold refreshOn at h
  split at h
  · cases h
    rfl
  · next s hs =>
    obtain ⟨⟨s', changed⟩, hs', h⟩ := of_bind h
    cases h
    refine sheet?_putSheet_of_ne _ ?_
    rw [name_refreshSheet hs', name_of_sheet? hs]
    exact hne

theorem refreshOn_flag (h : refreshOn a x = .ok a') (ha : a'.2 = false) : a.2 = false := by
  unfold refreshOn at h
  split at h
  · cases h
    exact ha
  · obtain ⟨r, -, h⟩ := of_bind h
    cases h
    exact (Bool.or_eq_false_iff.1 ha).1

section

variable (hone : ∀ g ∈ gs, ∀ g' ∈ gs, ∀ p ∈ g.slots, p ∈ g'.slots → g = g')
  (hnodup : (groups.map Prod.fst).Nodup) (hgs : (name, gs) ∈ groups)
include hone hnodup hgs

theorem fits_refresh (h : refresh w groups = .ok (w', changed)) (hfits : Fits gs name n w) :
    Fits gs name (n + 1) w' ∧ (changed = false → ∀ m, Fits gs name m w') := by
  refine foldlM_through (k := Prod.fst) (P := fun a : Workbook × Bool => a.1.sheet? name = w.sheet? name)
    (Q := fun a => Fits gs name (n + 1) a.1 ∧ (a.2 = false → ∀ m, Fits gs name m a.1)) hnodup hgs
    (fun _ _ x _ hne ha h => (refreshOn_of_ne h hne).trans ha) (fun a a' ha h => ?_) (fun a a' x _ hne ha h => ?_) rfl h
  · unfold refreshOn at h
    unfold Fits
    rw [ha] at h
    split at h
    · next hnone =>
      cases h
      rw [ha, hnone]
      exact ⟨nofun, fun _ _ => nofun⟩
    · next s hs =>
      obtain ⟨⟨s', c⟩, hpass, h⟩ := of_bind h
      cases h
      rw [sheet?_putSheet_self (ha.trans hs) ((name_refreshSheet hpass).trans (name_of_sheet? hs))]
      refine ⟨fun t ht => ?_, fun hfalse m t ht => ?_⟩
      · cases ht
        exact holds_refreshSheet hone hpass (hfits s hs)
      · cases ht
        obtain rfl := (Bool.or_eq_false_iff.1 hfalse).2
        obtain ⟨rfl, hall⟩ := holds_of_unchanged hpass
        exact fun p _ g hg hp => hall g hg p hp
  · unfold Fits
    rw [refreshOn_of_ne h hne]
    exact ⟨ha.1, fun hfalse => ha.2 (refreshOn_flag h hfalse)⟩

theorem fits_refreshAll {k : Nat} (h : refreshAll groups k w = .ok w') (hfits : Fits gs name n w) :
    Fits gs name (n + k) w' := by
  induction k generalizing n w with
  | zero =>
    cases h
    exact hfits
  | succ k ih =>
    obtain ⟨⟨v, changed⟩, hv, h⟩ := of_bind h
    obtain ⟨hnext, hend⟩ := fits_refresh hone hnodup hgs hv hfits
    dsimp only at h
    split at h
    · have := ih h hnext
      rwa [Nat.add_assoc, Nat.add_comm 1 k] at this
    · next hfalse =>
      cases h
      exact hend (Bool.eq_false_iff.2 hfalse) _

end

end Workbook

/-! Groups that are computed once their precedents are known -/

section Rounds

variable {before : Sheet} {formulas : SlotSet} {u v : Waiting} {t t' : Tally} {w w' : Workbook} {name : String}
  {g : SumGroup}

/-- A cell has the total that one of its groups gives. -/
def Good (gs : List SumGroup) (s : Sheet) (p : Slot) : Prop := ∃ g ∈ gs, p ∈ g.slots ∧ Holds s g p

theorem fills_putTotals (h : putTotals before s g = .ok s') :
    Fills (fun _ v n => n = Cell.taken v) (cellTotals before [g]) s s' := by
  have hzip : g.slots.zip (g.totals before) = cellTotals before [g] := by
    unfold cellTotals
    rw [flatMap_singleton]
    exact map_prod_left_eq_zip.symm
  unfold putTotals at h
  rw [hzip] at h
  refine fills_of_foldlM id (R := fun _ v n => n = Cell.taken v) (fun _ _ _ _ _ h => h) ?_ ?_ h
  · intro a a' x h
    obtain ⟨v, hv, h⟩ := of_bind h
    exact .of_putSlot hv h rfl
  · exact fun _ hx _ hy => cellTotals_inj (by simp) hx hy

/-- What a round has done to a sheet: cells that no group computes are as they were, and totals over such cells are
right wherever they were computed. -/
structure Rounded (gs : List SumGroup) (before : Sheet) (u : Waiting) (s : Sheet) (v : Waiting) : Prop where
  name : s.name = before.name
  sheet : v.sheet = u.sheet
  groups : ∀ g ∈ v.groups, g ∈ gs
  frame : ∀ p, Within gs 0 p → s.value p.position = before.value p.position
  good : ∀ p, Within gs 1 p → Good gs before p → Good gs s p
  done : ∀ p ∈ v.done, p ∈ u.done ∨ (Within gs 1 p → Good gs s p)

theorem rounded_tryGroup {a a' : Sheet × Waiting × Tally} (hg : g ∈ gs) (h : tryGroup formulas before a g = .ok a')
    (ha : Rounded gs before u a.1 a.2.1) : Rounded gs before u a'.1 a'.2.1 := by
  obtain ⟨s, v, t⟩ := a
  unfold tryGroup at h
  dsimp only at h ha
  split at h
  · cases h
    refine ⟨ha.name, ha.sheet, fun g' hg' => ?_, ha.frame, ha.good, ha.done⟩
    rcases mem_append.1 hg' with hg' | hg'
    · exact ha.groups g' hg'
    · rw [mem_singleton.1 hg']
      exact hg
  · obtain ⟨s', hs', h⟩ := of_bind h
    cases h
    have hfills := fills_putTotals hs'
    have hframe : ∀ q, q ∉ g.slots → s'.value q.position = s.value q.position := by
      intro q hq
      refine hfills.frame q fun hmem => hq ?_
      obtain ⟨x, hx, rfl⟩ := mem_map.1 hmem
      obtain ⟨g', hg', hxg, -⟩ := mem_cellTotals.1 hx
      rwa [mem_singleton.1 hg'] at hxg
    have hplain : ∀ q, Within gs 0 q → s'.value q.position = before.value q.position := fun q hq =>
      (hframe q (hq g hg)).trans (ha.frame q hq)
    have hnew : ∀ p ∈ g.slots, Within gs 1 p → Good gs s' p := by
      intro p hp hdepth
      obtain ⟨v, hv, hvalue⟩ := hfills.value (p, g.total before p) (mem_cellTotals.2 ⟨g, mem_singleton_self g, hp, rfl⟩)
      refine ⟨g, hg, hp, v, ?_, .inr hvalue⟩
      rw [← hv, total_congr fun d hd => hplain _ (hdepth g hg hp d hd)]
    have hgood : ∀ p, Within gs 1 p → Good gs s p → Good gs s' p := by
      intro p hdepth hold
      by_cases hp : p ∈ g.slots
      · exact hnew p hp hdepth
      · obtain ⟨g', hg', hp', hholds⟩ := hold
        refine ⟨g', hg', hp', hholds.congr (hframe p hp) fun d hd => ?_⟩
        exact hframe _ (hdepth g' hg' hp' d hd g hg)
    refine ⟨hfills.name.trans ha.name, ha.sheet, ha.groups, hplain, fun p hp hold => hgood p hp (ha.good p hp hold),
      fun p hp => ?_⟩
    rcases SlotSet.mem_add.1 hp with hp | hp
    · exact (ha.done p hp).imp_right fun h hdepth => hgood p hdepth (h hdepth)
    · exact .inr (hnew p hp)

theorem rounded_round {a : Sheet × Waiting × Tally} (hu : ∀ g ∈ u.groups, g ∈ gs) (h : round formulas before u = .ok a) :
    Rounded gs before u a.1 a.2.1 := by
  have hstart : Rounded gs before u before { u with groups := [] } :=
    ⟨rfl, rfl, fun _ hg => absurd hg not_mem_nil, fun _ _ => rfl, fun _ _ h => h, fun _ hp => .inl hp⟩
  exact foldlM_invariant (P := fun a : Sheet × Waiting × Tally => Rounded gs before u a.1 a.2.1)
    (fun _ _ g hg ha h => rounded_tryGroup (hu g hg) h ha) hstart h

variable {formulas : List (String × SlotSet)} {us vs : List Waiting}

/-- The groups of a sheet that wait are its own, and totals over cells that no group computes are right wherever they
were computed. -/
def Ready (gs : List SumGroup) (name : String) (w : Workbook) (us : List Waiting) : Prop :=
  ∀ u ∈ us, u.sheet = name → (∀ g ∈ u.groups, g ∈ gs) ∧
    ∀ p ∈ u.done, Within gs 1 p → ∀ s, w.sheet? name = some s → Good gs s p

theorem ready_roundOn {a a' : Workbook × List Waiting × Tally} (h : roundOn formulas a u = .ok a')
    (ha : Ready gs name a.1 (a.2.1 ++ u :: us)) : Ready gs name a'.1 (a'.2.1 ++ us) := by
  obtain ⟨w, vs, t⟩ := a
  unfold roundOn at h
  dsimp only at h ha
  split at h
  · cases h
    rwa [append_assoc, singleton_append]
  · next s hs =>
    obtain ⟨⟨s', v, n⟩, hround, h⟩ := of_bind h
    cases h
    have hown := name_of_sheet? hs
    have hmem : ∀ u' ∈ vs ++ [v] ++ us, u' = v ∨ u' ∈ vs ++ u :: us := by
      intro u' hu'
      rw [mem_append, mem_append, mem_singleton] at hu'
      rw [mem_append, mem_cons]
      rcases hu' with (hu' | hu') | hu'
      · exact .inr (.inl hu')
      · exact .inl hu'
      · exact .inr (.inr (.inr hu'))
    by_cases hname : u.sheet = name
    · obtain ⟨hgroups, hdone⟩ := ha u (mem_append_right _ mem_cons_self) hname
      have hr : Rounded gs s u s' v := rounded_round hgroups hround
      rw [hname] at hs hown
      have hs' : (w.putSheet s').sheet? name = some s' := sheet?_putSheet_self hs (hr.name.trans hown)
      intro u' hu' hname'
      rw [hs']
      rcases hmem u' hu' with rfl | hu'
      · refine ⟨hr.groups, fun p hp hdepth t ht => ?_⟩
        cases ht
        rcases hr.done p hp with hp | hgood
        · exact hr.good p hdepth (hdone p hp hdepth s hs)
        · exact hgood hdepth
      · obtain ⟨hgroups', hdone'⟩ := ha u' hu' hname'
        refine ⟨hgroups', fun p hp hdepth t ht => ?_⟩
        cases ht
        exact hr.good p hdepth (hdone' p hp hdepth s hs)
    · have hr : Rounded u.groups s u s' v := rounded_round (fun _ hg => hg) hround
      have hs' : (w.putSheet s').sheet? name = w.sheet? name := by
        refine sheet?_putSheet_of_ne _ ?_
        rw [hr.name, hown]
        exact hname
      intro u' hu' hname'
      rw [hs']
      rcases hmem u' hu' with rfl | hu'
      · exact absurd (hr.sheet.symm.trans hname') hname
      · exact ha u' hu' hname'

theorem ready_rounds (h : rounds formulas w us = .ok (w', vs, t)) (hready : Ready gs name w us) :
    Ready gs name w' vs := by
  have hrun : ∀ (us : List Waiting) (a a' : Workbook × List Waiting × Tally), us.foldlM (roundOn formulas) a = .ok a' →
      Ready gs name a.1 (a.2.1 ++ us) → Ready gs name a'.1 a'.2.1 := by
    intro us a a' h ha
    induction h using foldlM_induction with
    | nil => rwa [append_nil] at ha
    | cons hb _ ih => exact ih (ready_roundOn hb ha)
  exact hrun us _ _ h hready

theorem ready_settle (h : settle formulas n w us t = .ok (w', vs, t')) (hready : Ready gs name w us) :
    Ready gs name w' vs := by
  induction n generalizing w us t with
  | zero =>
    cases h
    exact hready
  | succ n ih =>
    obtain ⟨⟨w₁, us₁, t₁⟩, hround, h⟩ := of_bind h
    have hnext := ready_rounds hround hready
    dsimp only at h
    split at h
    · cases h
      exact hnext
    · exact ih h hnext

end Rounds

/-! The calculation -/

/-- After a calculation with a changed input, every cell of a group of sums has the total of its rectangle in the output,
if the sums below it are at most four deep, or five if every formula was computed with its group. If the rectangle has
whole numbers, the total is their exact sum. -/
theorem run_totals {fs : Files} {b : Blueprint} {o : Overrides} {w : Workbook} {t : Tally} (h : run fs b o = .ok (w, t))
    (hchange : hasChange b o = .ok true) {name : String} {gs : List SumGroup} (hgs : (name, gs) ∈ ofBlueprint b)
    (hown : ∀ g ∈ gs, ∀ p ∈ g.slots, ∃ e ∈ b.formulas, e.sheet = .text name ∧ e.slot = p)
    (hone : ∀ g ∈ gs, ∀ g' ∈ gs, ∀ p ∈ g.slots, p ∈ g'.slots → g = g') {s : Sheet} (hs : w.sheet? name = some s)
    {g : SumGroup} (hg : g ∈ gs) {p : Slot} (hp : p ∈ g.slots) (hdepth : Within gs (if t.kept = 0 then 5 else 4) p) :
    Holds s g p ∧ ∀ f : Slot → Int, (∀ d ∈ g.offsets.steps, Whole s (p.shift d) (f d)) →
      (g.offsets.steps.map fun d => (f d).natAbs).sum < 2 ^ 53 →
        (s.value p.position == .int (g.offsets.steps.map f).sum) = true := by
  have hnodup : ((ofBlueprint b).map Prod.fst).Nodup := by
    unfold ofBlueprint
    dsimp only
    rw [map_map]
    exact nodup_keys_bucketBy _ _
  unfold run at h
  obtain ⟨w₀, -, h⟩ := bind_eq_ok_iff.1 h
  obtain ⟨w₁, -, h⟩ := bind_eq_ok_iff.1 h
  obtain ⟨c, hc, h⟩ := bind_eq_ok_iff.1 h
  rw [hchange] at hc
  cases hc
  rw [if_neg (by decide)] at h
  obtain ⟨⟨w₂, waiting, t₂⟩, hsettle, h⟩ := bind_eq_ok_iff.1 h
  obtain ⟨w₃, hw₃, h⟩ := bind_eq_ok_iff.1 h
  obtain ⟨w₄, hw₄, h⟩ := bind_eq_ok_iff.1 h
  cases h
  have hready : Ready gs name w₂ waiting := by
    refine ready_settle hsettle fun u hu hname => ?_
    obtain ⟨x, hx, rfl⟩ := mem_map.1 hu
    have hsame : x = (name, gs) := inj_on_of_nodup_map hnodup hx hgs hname
    subst hsame
    exact ⟨fun g hg => hg, fun q hq => absurd hq Std.TreeSet.not_mem_emptyc⟩
  have hholds : Holds s g p := by
    split at hdepth
    · next hkept =>
      have hrest := length_eq_zero_iff.1 hkept
      rw [hrest] at hw₃
      cases hw₃
      refine fits_refreshAll hone hnodup hgs hw₄ ?_ s hs p hdepth g hg hp
      intro s₂ hs₂ q hq g' hg' hqg
      obtain ⟨e, he, hsheet, rfl⟩ := hown g' hg' q hqg
      have hdone := filter_eq_nil_iff.1 hrest e he
      rw [Bool.not_eq_true, Bool.not_eq_false', any_eq_true] at hdone
      obtain ⟨u, hu, hdone⟩ := hdone
      rw [Bool.and_eq_true, hsheet, Value.text_beq, decide_eq_true_eq] at hdone
      obtain ⟨g'', hg'', hqg'', hholds⟩ := (hready u hu hdone.1).2 e.slot hdone.2 hq s₂ hs₂
      rwa [hone g' hg' g'' hg'' e.slot hqg hqg'']
    · refine fits_refreshAll (n := 0) hone hnodup hgs hw₄ ?_ s hs p hdepth g hg hp
      exact fun _ _ q hq g hg hqg => absurd hqg (hq g hg)
  exact ⟨hholds, fun f hf hsum => hholds.sum hf hsum⟩

/-! A column of sums, each of the cell above it -/

def chainInput : Entry where
  sheet := .text "S"
  cell := .text "A1"
  row := 1
  col := 1
  kind := Entry.inputKind
  formula := .null
  value := .int 1
  included := true

def chainSum (row : Nat) : Entry where
  sheet := .text "S"
  cell := .text ("A" ++ Text.ofNat row)
  row := row
  col := 1
  kind := Entry.calculationKind
  formula := .text ("=SUM(A" ++ Text.ofNat (row - 1) ++ ":A" ++ Text.ofNat (row - 1) ++ ")")
  value := .int 1
  included := true
  group := .text "G"
  pattern := .text "=SUM(R[-1]C[0]:R[-1]C[0])"

def chain : Blueprint where
  source := "src.xlsx"
  template := "none.xlsx"
  order := ["S"]
  layouts := []
  entries := [("S", chainInput :: [2, 3, 4, 5, 6].map chainSum)]
  metadata := []

def chainGroup : SumGroup := ⟨.text "G", "S", ⟨-1, 0, -1, 0⟩, [⟨2, 1⟩, ⟨3, 1⟩, ⟨4, 1⟩, ⟨5, 1⟩, ⟨6, 1⟩]⟩

def chainEdits : Overrides := (∅ : Overrides).insert ⟨"S", "A1"⟩ (.int 5)

theorem ofBlueprint_chain : ofBlueprint chain = [("S", [chainGroup])] := by cbv

theorem chainEdits_get (k : CellName) :
    chainEdits[k]? = if (⟨"S", "A1"⟩ : CellName) = k then some (.int 5) else none := by
  unfold chainEdits
  rw [Std.HashMap.getElem?_insert]
  simp

theorem sortedEntries_chain : chain.sortedEntries "S" = chainInput :: [2, 3, 4, 5, 6].map chainSum :=
  mergeSort_of_pairwise (by decide)

theorem hasChange_chain : hasChange chain chainEdits = .ok true := by
  unfold hasChange
  simp only [chainEdits_get]
  rfl

theorem run_chain : ((run {} chain chainEdits).toOption.any fun r => r.2.kept = 0 && (r.1.sheet? "S").any fun s =>
    match s.value ⟨5, 1⟩ with
    | .int n => n == 5
    | _ => false) = true := by
  unfold run
  rw [hasChange_chain, ofBlueprint_chain]
  unfold Rebuild.workbook
  delta Rebuild.fillIn Rebuild.fill Rebuild.place Rebuild.content
  have horder : chain.order = ["S"] := rfl
  simp only [horder, foldlM_cons, foldlM_nil, sortedEntries_chain, chainEdits_get]
  decide +kernel

theorem run_totals_chain : ∃ (w : Workbook) (t : Tally) (s : Sheet), run {} chain chainEdits = .ok (w, t) ∧ t.kept = 0 ∧
    w.sheet? "S" = some s ∧ Within [chainGroup] 5 ⟨6, 1⟩ ∧ s.value ⟨5, 1⟩ = .int 5 ∧
      Holds s chainGroup ⟨6, 1⟩ ∧ (s.value ⟨6, 1⟩ == .int 5) = true := by
  obtain ⟨⟨w, t⟩, hrun, hfound⟩ := exists_ok_of_any run_chain
  rw [Bool.and_eq_true, decide_eq_true_eq, Option.any_eq_true] at hfound
  obtain ⟨hkept, s, hs, hfive⟩ := hfound
  have hvalue : s.value ⟨5, 1⟩ = .int 5 := by
    split at hfive
    · next n hn => rw [hn, eq_of_beq hfive]
    · cases hfive
  have hgs : ("S", [chainGroup]) ∈ ofBlueprint chain := by
    rw [ofBlueprint_chain]
    exact mem_singleton_self _
  have hown : ∀ g ∈ [chainGroup], ∀ p ∈ g.slots, ∃ e ∈ chain.formulas, e.sheet = .text "S" ∧ e.slot = p := by
    intro g hg p hp
    rw [mem_singleton.1 hg] at hp
    obtain ⟨row, hrow, rfl⟩ := mem_map.1 (show p ∈ [2, 3, 4, 5, 6].map fun row => (chainSum row).slot from hp)
    exact ⟨chainSum row, mem_map_of_mem (f := chainSum) hrow, rfl, rfl⟩
  have hone : ∀ g ∈ [chainGroup], ∀ g' ∈ [chainGroup], ∀ p ∈ g.slots, p ∈ g'.slots → g = g' :=
    fun g hg g' hg' _ _ _ => (mem_singleton.1 hg).trans (mem_singleton.1 hg').symm
  have hdepth : Within [chainGroup] 5 ⟨6, 1⟩ := by decide
  obtain ⟨hholds, hsum⟩ := run_totals hrun hasChange_chain hgs hown hone hs (mem_singleton_self _)
    (p := ⟨6, 1⟩) (by decide) (by rw [if_pos hkept]; exact hdepth)
  refine ⟨w, t, s, hrun, hkept, hs, hdepth, hvalue, hholds, hsum (fun _ => 5) ?_ (by decide)⟩
  intro d hd
  rw [mem_singleton.1 hd]
  exact .inl hvalue

end Calculation

end Sheetwork.Model
