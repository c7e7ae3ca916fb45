import Sheetwork.Proofs.Graph.Kahn
import Sheetwork.Proofs.Reference
import Sheetwork.Proofs.Vector.Partition
/-
  Vectors: what the schedule of groups and singles guarantees. Items that share no cell have one producer per cell
  (`getElem?_producers`), so an item waits for exactly the items that its cells read (`needs_waitEdges`), and without
  a cycle of items is scheduled after them (`pair_sublist_of_awaits`). Main statements: `evaluation_after_reads_iff`,
  `schedule_after_awaited`.
-/

open List

namespace Sheetwork

open Graph
open Relation (TransGen ReflTransGen transGen_swap reflTransGen_swap)

def FormulaCell.reads (tables : List String) (c : FormulaCell) : List CellRef :=
  (References.empty.addAll (c.conversion tables).references).allCells

def FormulaCell.Complete (tables : List String) (c : FormulaCell) : Prop := (c.conversion tables).complete = true

def FormulaCell.Reads (tables : List String) (c d : FormulaCell) : Prop := d.ref ∈ c.reads tables

instance (tables : List String) (c : FormulaCell) : Decidable (c.Complete tables) :=
  inferInstanceAs (Decidable (_ = true))

instance (tables : List String) (c d : FormulaCell) : Decidable (c.Reads tables d) :=
  inferInstanceAs (Decidable (_ ∈ _))

variable {tables : List String}

theorem FormulaCell.references_eq {c : FormulaCell} (h : c.Complete tables) :
    c.references tables = .ok (References.empty.addAll (c.conversion tables).references) := by
  have h : (c.conversion tables).complete = true := h
  simp [references, h]

theorem References.ofCells_eq {cells : List FormulaCell} (h : ∀ c ∈ cells, c.Complete tables) :
    ofCells tables cells = .ok (cells.foldl (fun acc c => acc.addAll (c.conversion tables).references) empty) := by
  refine foldlM_ok (fun acc c hc => ?_) _
  have h : (c.conversion tables).complete = true := h c hc
  rw [if_pos h]

namespace Vector

/-- An item's cells in the order of its loop: ascending by row or column. -/
def Item.evaluation : Item → List FormulaCell
  | group g => g.cells.mergeSort fun c d => g.direction.place c ≤ g.direction.place d
  | single c => [c]

def Item.Earlier : Item → FormulaCell → FormulaCell → Prop
  | group g, d, c => g.direction.place d < g.direction.place c
  | single _, _, _ => False

instance (it : Item) (d c : FormulaCell) : Decidable (it.Earlier d c) :=
  match it with
  | .group _ => inferInstanceAs (Decidable (_ < _))
  | .single _ => inferInstanceAs (Decidable False)

def items (cells : List FormulaCell) : List Item := (group cells).1.map Item.group ++ (group cells).2.map Item.single

def Awaits (tables : List String) (its : List Item) (it jt : Item) : Prop :=
  it ∈ its ∧ jt ∈ its ∧ it ≠ jt ∧ ∃ c ∈ it.cells, ∃ d ∈ jt.cells, c.Reads tables d

/-! The producer of a cell -/

section

variable {its : List Item} (hn : its.Pairwise fun it jt => it.produced.Disjoint jt.produced)

include hn

theorem getElem?_producers (r : CellRef) (j : Nat) :
    (producers its)[r]? = some j ↔ ∃ jt, its[j]? = some jt ∧ r ∈ jt.produced := by
  have hmem : ∀ x, x ∈ its.zipIdx.flatMap (fun y => y.1.produced.map (·, y.2)) ↔
      ∃ jt, its[x.2]? = some jt ∧ x.1 ∈ jt.produced := by
    simp [mk_mem_zipIdx_iff_getElem?, Prod.ext_iff]
  have hentered : producers its =
      (its.zipIdx.flatMap fun y => y.1.produced.map (·, y.2)).foldl (fun m x => m.insert x.1 x.2) ∅ := by
    simp only [producers, foldl_flatMap, foldl_map]
  rw [hentered, getElem?_entered fun x hx y hy heq => ?_]
  · exact ⟨fun ⟨x, hx, hr, hj⟩ => hr ▸ hj ▸ (hmem x).1 hx, fun h => ⟨(r, j), (hmem _).2 h, rfl, rfl⟩⟩
  · obtain ⟨it, hi, hx⟩ := (hmem x).1 hx
    obtain ⟨jt, hj, hy⟩ := (hmem y).1 hy
    obtain ⟨hi', rfl⟩ := List.getElem?_eq_some_iff.1 hi
    obtain ⟨hj', rfl⟩ := List.getElem?_eq_some_iff.1 hj
    have disjoint := pairwise_iff_getElem.1 hn
    by_contra hne
    rcases Nat.lt_or_gt_of_ne hne with h | h
    · exact disjoint _ _ hi' hj' h hx (heq ▸ hy)
    · exact disjoint _ _ hj' hi' h hy (heq ▸ hx)

theorem place_eq {i j : Nat} {it jt : Item} {r : CellRef} (hi : its[i]? = some it) (hj : its[j]? = some jt)
    (hr : r ∈ it.produced) (hr' : r ∈ jt.produced) : i = j := by
  have made := (getElem?_producers hn r i).mpr ⟨it, hi, hr⟩
  rw [(getElem?_producers hn r j).mpr ⟨jt, hj, hr'⟩] at made
  exact (Option.some.inj made).symm

theorem mem_waitsFor {i j : Nat} {it : Item} (hi : its[i]? = some it) {needed : List CellRef} :
    j ∈ waitsFor (producers its) i it needed ↔ j ≠ i ∧ ∃ jt, its[j]? = some jt ∧ ∃ r ∈ needed, r ∈ jt.produced := by
  rw [waitsFor, Ordered.mem_ofList, mem_filterMap]
  constructor
  · rintro ⟨r, hr, h⟩
    split at h
    · next k hk =>
      obtain ⟨hne, rfl⟩ : k ≠ i ∧ k = j := by simpa using h
      obtain ⟨jt, hjt, h⟩ := (getElem?_producers hn r k).mp hk
      exact ⟨hne, jt, hjt, r, (mem_filter.mp hr).1, h⟩
    · cases h
  · rintro ⟨hj, jt, hjt, r, hr, h⟩
    have made : (producers its)[r]? = some j := (getElem?_producers hn r j).mpr ⟨jt, hjt, h⟩
    refine ⟨r, mem_filter.mpr ⟨hr, ?_⟩, ?_⟩
    · -- the producer of `r` is not `it`, so `it` does not compute `r` itself
      rw [Bool.not_eq_true', contains_eq_mem, decide_eq_false_iff_not]
      exact fun own => hj (place_eq hn hjt hi h own)
    · rw [made]
      exact if_neg hj

/-- The edges of the schedule: from each item to those that wait for it. -/
def waitEdges (tables : List String) (its : List Item) : List (Nat × Nat) :=
  (its.zipIdx.map fun (it, i) => (waitsFor (producers its) i it (it.cells.flatMap (·.reads tables))).map (·, i)).flatten

theorem encodes_waitEdges (tables : List String) :
    Encodes (fun jt it => Awaits tables its it jt) its (waitEdges tables its) := by
  have reads : ∀ it jt : Item, (∃ r ∈ it.cells.flatMap (·.reads tables), r ∈ jt.produced) ↔
      ∃ c ∈ it.cells, ∃ d ∈ jt.cells, c.Reads tables d := by
    intro it jt
    simp only [mem_flatMap, Item.produced, mem_map]
    constructor
    · rintro ⟨r, ⟨c, hc, hr⟩, d, hd, rfl⟩
      exact ⟨c, hc, d, hd, hr⟩
    · rintro ⟨c, hc, d, hd, hr⟩
      exact ⟨d.ref, ⟨c, hc, hr⟩, d, hd, rfl⟩
  refine encodes_of_positions (R := fun jt it : Item => it ≠ jt ∧ ∃ c ∈ it.cells, ∃ d ∈ jt.cells,
    c.Reads tables d) (fun {jt it} => and_left_comm) fun {j i} => ?_
  simp only [Needs, waitEdges, mem_flatten, mem_map]
  constructor
  · rintro ⟨l, ⟨⟨it, k⟩, hk, rfl⟩, h⟩
    obtain ⟨j', hj', e⟩ := mem_map.mp h
    obtain ⟨rfl, rfl⟩ := Prod.mk.inj e
    have hit : its[k]? = some it := mk_mem_zipIdx_iff_getElem?.mp hk
    obtain ⟨hne, jt, hjt, h⟩ := (mem_waitsFor hn hit).mp hj'
    refine ⟨jt, it, hjt, hit, ?_, (reads it jt).mp h⟩
    rintro rfl
    obtain ⟨r, -, hr⟩ := h
    exact hne (place_eq hn hjt hit hr hr)
  · rintro ⟨jt, it, hjt, hit, hne, h⟩
    refine ⟨_, ⟨(it, i), mk_mem_zipIdx_iff_getElem?.mpr hit, rfl⟩, mem_map.mpr ⟨j, ?_, rfl⟩⟩
    refine (mem_waitsFor hn hit).mpr ⟨?_, jt, hjt, (reads it jt).mpr h⟩
    rintro rfl
    exact hne (Option.some.inj (hit.symm.trans hjt))

end

/-! The schedule -/

theorem needed_eq {it : Item} (h : ∀ c ∈ it.cells, c.Complete tables) :
    it.needed tables = .ok (it.cells.flatMap (·.reads tables)) := by
  rw [Item.needed, foldlM_ok (g := fun acc c => acc ++ c.reads tables) fun acc c hc => ?_, ← flatMap_eq_foldl]
  rw [FormulaCell.references_eq (h c hc)]
  rfl

variable {groups : List Group} {singles : List FormulaCell}

theorem schedule_eq (h : ∀ it ∈ groups.map Item.group ++ singles.map Item.single, ∀ c ∈ it.cells, c.Complete tables) :
    schedule tables groups singles = .ok (ordered (groups.map Item.group ++ singles.map Item.single)
        (waitEdges tables (groups.map Item.group ++ singles.map Item.single))) := by
  set its := groups.map Item.group ++ singles.map Item.single with hits
  have waits : its.zipIdx.mapM (fun (it, i) => do
      let needed ← it.needed tables
      pure ((waitsFor (producers its) i it needed).map (·, i))) =
      .ok (its.zipIdx.map fun (it, i) =>
        (waitsFor (producers its) i it (it.cells.flatMap (·.reads tables))).map (·, i)) := by
    refine mapM_ok ?_
    rintro ⟨it, i⟩ hi
    dsimp only
    rw [needed_eq (h it (fst_mem_of_mem_zipIdx hi))]
    rfl
  rw [schedule, ← hits]
  rw [waits]
  simp [ordered, waitEdges, bind, Except.bind, pure, Except.pure]

theorem complete_of_schedule {order : List Item} (h : schedule tables groups singles = .ok order) :
    ∀ it ∈ groups.map Item.group ++ singles.map Item.single, ∀ c ∈ it.cells, c.Complete tables := by
  intro it hit c hc
  obtain ⟨waits, hwaits, -⟩ := of_bind h
  obtain ⟨i, hi⟩ := getElem?_of_mem hit
  obtain ⟨_, hit⟩ := exists_of_mapM_ok hwaits (it, i) (mem_zipIdx_iff_getElem?.2 hi)
  obtain ⟨needed, hneeded, -⟩ := of_bind hit
  obtain ⟨before, after, hcells⟩ := append_of_mem hc
  rw [Item.needed, hcells] at hneeded
  obtain ⟨acc, acc', -, hstep, -⟩ := foldlM_append_cons hneeded
  by_contra broken
  rw [FormulaCell.references, if_neg (by exact broken)] at hstep
  cases hstep

variable {it : Item}

section

variable {its : List Item} (hn : its.Pairwise fun it jt => it.produced.Disjoint jt.produced)
include hn

theorem nodup_items (hne : ∀ it ∈ its, it.cells ≠ []) : its.Nodup := by
  refine hn.imp_of_mem fun {it jt} hit _ disjoint e => ?_
  obtain ⟨c, hc⟩ := exists_mem_of_ne_nil _ (hne it hit)
  have hr : c.ref ∈ it.produced := mem_map_of_mem hc
  exact disjoint hr (e ▸ hr)

theorem pair_sublist_of_awaits {jt : Item} (h : Awaits tables its it jt)
    (free : ∀ kt, ReflTransGen (Awaits tables its) it kt → ¬ TransGen (Awaits tables its) kt kt) :
    [jt, it] <+ ordered its (waitEdges tables its) := by
  have encodes := encodes_waitEdges hn tables
  refine encodes.pair_sublist_of_needs h h.1 ((encodes.acc_iff_no_cycle h.1).2 fun kt path cycle => ?_)
  exact free kt (reflTransGen_swap.1 path) (transGen_swap.1 cycle)

end

/-! Evaluation -/

theorem evaluation_group {g : Group} (h : g.IsRun) : (Item.group g).evaluation = g.cells := by
  refine mergeSort_of_pairwise ?_
  refine h.ascending.imp fun hlt => ?_
  exact decide_eq_true (le_of_lt hlt)

variable {cells : List FormulaCell} {order : List Item}

theorem pair_sublist_evaluation_iff (h : ∀ g, it = .group g → g.IsRun) {c d : FormulaCell} (hc : c ∈ it.cells)
    (hd : d ∈ it.cells) : [d, c] <+ it.evaluation ↔ it.Earlier d c := by
  cases it with
  | group g =>
    rw [evaluation_group (h g rfl)]
    exact pair_sublist_iff_lt (h g rfl).ascending hd hc
  | single e => simp [Item.evaluation, Item.Earlier]

theorem isRun_of_mem_items (hit : it ∈ items cells) (g : Group) (hg : it = .group g) : g.IsRun := by
  subst hg
  rcases mem_append.mp hit with h | h
  · obtain ⟨g', hg', e⟩ := mem_map.mp h
    exact Item.group.inj e ▸ isRun_of_mem_group hg'
  · obtain ⟨c, -, e⟩ := mem_map.mp h
    cases e

theorem evaluation_eq_cells (hit : it ∈ items cells) : it.evaluation = it.cells := by
  cases it with
  | group g => exact evaluation_group (isRun_of_mem_items hit g rfl)
  | single c => rfl

theorem flatMap_items_perm (hd : Distinct cells) : ((items cells).flatMap Item.cells).Perm cells := by
  have e : (items cells).flatMap Item.cells = (group cells).1.flatMap Group.cells ++ (group cells).2 := by
    rw [items, flatMap_append, flatMap_map, flatMap_map]
    congr 1
    exact flatMap_singleton' _
  rw [e]
  exact group_perm hd

theorem disjoint_produced (hd : Distinct cells) :
    (items cells).Pairwise fun it jt => it.produced.Disjoint jt.produced := by
  have h := ((flatMap_items_perm hd).map FormulaCell.ref).nodup_iff.2 hd
  rw [map_flatMap] at h
  exact (nodup_flatMap.1 h).2

theorem cells_ne_nil (hit : it ∈ items cells) : it.cells ≠ [] := by
  cases it with
  | group g => exact (isRun_of_mem_items hit g rfl).ne_nil
  | single c => exact cons_ne_nil c []

theorem evaluation_perm (hd : Distinct cells) (h : order.Perm (items cells)) :
    (order.flatMap Item.evaluation).Perm cells := by
  have e : order.flatMap Item.evaluation = order.flatMap Item.cells :=
    flatMap_congr fun it hit => evaluation_eq_cells (h.mem_iff.mp hit)
  rw [e]
  exact (h.flatMap_right Item.cells).trans (flatMap_items_perm hd)

/-- Reads that go backwards in the evaluation go backwards in the order of the items. -/
theorem acyclic_of_evaluation (hd : Distinct cells) (horder : order.Perm (items cells))
    (h : ∀ c ∈ cells, ∀ d ∈ cells, c.Reads tables d → [d, c] <+ order.flatMap Item.evaluation) (it : Item) :
    ¬ TransGen (Awaits tables (items cells)) it it := by
  have hnd : order.Nodup := horder.nodup_iff.mpr (nodup_items (disjoint_produced hd) fun jt => cells_ne_nil)
  have mem : ∀ {jt c}, jt ∈ items cells → c ∈ jt.cells → c ∈ cells := fun hjt hc =>
    (flatMap_items_perm hd).mem_iff.mp (mem_flatMap.mpr ⟨_, hjt, hc⟩)
  have step : ∀ {jt kt}, Awaits tables (items cells) jt kt → [kt, jt] <+ order := by
    rintro jt kt ⟨hjt, hkt, hne, c, hc, d, hdk, hr⟩
    refine pair_sublist_of_flatMap ?_ (horder.mem_iff.mpr hkt) (horder.mem_iff.mpr hjt) hne.symm
      ((evaluation_eq_cells hkt).symm ▸ hdk) ((evaluation_eq_cells hjt).symm ▸ hc)
      (h c (mem hjt hc) d (mem hkt hdk) hr)
    exact (evaluation_perm hd horder).nodup_iff.mpr hd.nodup
  exact fun hp => not_transGen_of_pair_sublist hnd (fun hs => step hs) it (transGen_swap.2 hp)

/-- Groups and singles are scheduled so that every cell is evaluated once; every cell comes after the
cells that it reads exactly if no items wait for each other in a cycle and inside a group cells
read only cells that the loop has already passed. -/
theorem evaluation_after_reads_iff (tables : List String) (cells : List FormulaCell)
    (hd : Distinct cells) (hc : ∀ c ∈ cells, c.Complete tables) :
    ∃ order, schedule tables (group cells).1 (group cells).2 = .ok order ∧ (order.flatMap Item.evaluation).Perm cells ∧
      ((∀ c ∈ cells, ∀ d ∈ cells, c.Reads tables d → [d, c] <+ order.flatMap Item.evaluation) ↔
        (∀ it, ¬ TransGen (Awaits tables (items cells)) it it) ∧
        ∀ it ∈ items cells, ∀ c ∈ it.cells, ∀ d ∈ it.cells, c.Reads tables d → it.Earlier d c) := by
  have hn := disjoint_produced hd
  let order := Graph.ordered (items cells) (waitEdges tables (items cells))
  have horder : order.Perm (items cells) := Graph.ordered_perm (encodes_waitEdges hn tables).within
  have mem : ∀ c, c ∈ cells ↔ ∃ it ∈ items cells, c ∈ it.cells := fun c =>
    (flatMap_items_perm hd).symm.mem_iff.trans mem_flatMap
  have once := evaluation_perm hd horder
  have hev : (order.flatMap Item.evaluation).Nodup := once.nodup_iff.mpr hd.nodup
  refine ⟨order, schedule_eq ?_, once, ⟨fun h => ⟨?_, ?_⟩, ?_⟩⟩
  · intro it hit c hcit
    exact hc c ((mem c).mpr ⟨it, hit, hcit⟩)
  · exact acyclic_of_evaluation hd horder h
  · intro it hit c hcit d hdit hr
    have hlist := h c ((mem c).mpr ⟨it, hit, hcit⟩) d ((mem d).mpr ⟨it, hit, hdit⟩) hr
    rw [← pair_sublist_evaluation_iff (isRun_of_mem_items hit) hcit hdit]
    have e := evaluation_eq_cells hit
    exact (Graph.pair_sublist_flatMap_iff hev (horder.mem_iff.mpr hit) (e ▸ hdit) (e ▸ hcit)).mp hlist
  · rintro ⟨acyclic, forwards⟩ c hcc d hdc hr
    obtain ⟨it, hit, hcit⟩ := (mem c).mp hcc
    obtain ⟨jt, hjt, hdjt⟩ := (mem d).mp hdc
    by_cases e : it = jt
    · subst e
      have hlist := (pair_sublist_evaluation_iff (isRun_of_mem_items hit) hcit hdjt).mpr
        (forwards it hit c hcit d hdjt hr)
      exact hlist.trans (sublist_flatten_of_mem (mem_map_of_mem (horder.mem_iff.mpr hit)))
    · have hlist := pair_sublist_of_awaits hn ⟨hit, hjt, e, c, hcit, d, hdjt, hr⟩ fun kt _ => acyclic kt
      exact Graph.pair_sublist_flatMap hlist ((evaluation_eq_cells hjt).symm ▸ hdjt)
        ((evaluation_eq_cells hit).symm ▸ hcit)

/-- Two cells, each of which reads the one below it. -/
def upward : List FormulaCell := [⟨"S", "A", 1, "=A2"⟩, ⟨"S", "A", 2, "=A3"⟩]

theorem items_upward : items upward = [.group ⟨.vertical, upward⟩] := by
  have run : Group.IsRun ⟨.vertical, upward⟩ := ⟨by decide, by decide +kernel, fun _ => by decide, nofun, by decide⟩
  rw [items, group_eq_singleton run]
  rfl

/-- They form a group, and its loop computes the upper cell before the lower one. -/
theorem evaluation_upward : Distinct upward ∧ (∀ c ∈ upward, c.Complete []) ∧ ∃ order,
      schedule [] (group upward).1 (group upward).2 = .ok order ∧
      (order.flatMap Item.evaluation).Perm upward ∧
      ¬ ∀ c ∈ upward, ∀ d ∈ upward, c.Reads [] d → [d, c] <+ order.flatMap Item.evaluation := by
  have distinct : Distinct upward := by decide
  have complete : ∀ c ∈ upward, c.Complete [] := by decide +kernel
  obtain ⟨order, h, once, after⟩ := evaluation_after_reads_iff [] upward distinct complete
  refine ⟨distinct, complete, order, h, once, fun reads => ?_⟩
  have forwards := (after.mp reads).2 (.group ⟨.vertical, upward⟩) (by rw [items_upward]; simp)
    ⟨"S", "A", 1, "=A2"⟩ (by decide) ⟨"S", "A", 2, "=A3"⟩ (by decide) (by decide +kernel)
  exact absurd forwards (by decide)

/-- Items that compute different cells have an order exactly if all their formulas convert. Each is in it once, and one
that waits for no cycle of items comes after every item that computes a cell which it reads. -/
theorem schedule_after_awaited (tables : List String) (groups : List Group) (singles : List FormulaCell) (its : List Item)
    (hits : its = groups.map Item.group ++ singles.map Item.single)
    (hn : its.Pairwise fun it jt => it.produced.Disjoint jt.produced) :
    ((∃ order, schedule tables groups singles = .ok order) ↔ ∀ it ∈ its, ∀ c ∈ it.cells, c.Complete tables) ∧
      ∀ order, schedule tables groups singles = .ok order → order ~ its ∧ ∀ it jt, Awaits tables its it jt →
        (∀ kt, ReflTransGen (Awaits tables its) it kt → ¬ TransGen (Awaits tables its) kt kt) → [jt, it] <+ order := by
  subst hits
  refine ⟨⟨?_, fun hc => ⟨_, schedule_eq hc⟩⟩, fun order h => ?_⟩
  · rintro ⟨order, h⟩
    exact complete_of_schedule h
  · obtain rfl := Except.ok.inj ((schedule_eq (complete_of_schedule h)).symm.trans h)
    exact ⟨ordered_perm (encodes_waitEdges hn tables).within, fun it jt => pair_sublist_of_awaits hn⟩

/-- As singles, the two formulas above are scheduled in the opposite order. -/
theorem schedule_upward : ∃ order, schedule [] [] upward = .ok order ∧ upward.reverse.map Item.single <+ order := by
  obtain ⟨returns, after⟩ := schedule_after_awaited [] [] upward (upward.map .single) rfl
    (by simp [upward, Item.produced, Item.cells, FormulaCell.ref])
  obtain ⟨order, h⟩ := returns.2 (by decide +kernel)
  have awaits : ∀ it ∈ upward.map Item.single, ∀ jt ∈ upward.map Item.single,
      (∃ c ∈ it.cells, ∃ d ∈ jt.cells, c.Reads [] d) → it.produced = [⟨"S", "A", 1⟩] ∧ jt.produced ≠ [⟨"S", "A", 1⟩] := by
    decide +kernel
  refine ⟨order, h, (after order h).2 _ _ ⟨by decide, by decide, by decide, _, mem_cons_self, _, mem_cons_self, ?_⟩
    fun kt _ => ?_⟩
  · decide +kernel
  · exact not_transGen_of_sides (P := (·.produced = _)) (fun h => awaits _ h.1 _ h.2.1 h.2.2.2) kt

end Vector

end Sheetwork
