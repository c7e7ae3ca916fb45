import Sheetwork.Proofs.Graph.Queue
import Sheetwork.Proofs.Vector.Schedule
/-
  Formulas: what the order of computation guarantees. The cells are taken in ascending order of their places, and the
  edges are the cells and the ranges that a formula reads (`needs_readEdges`), so which of two formulas is computed
  first is decided by turns (`pair_sublist_order_iff`). Main statements: `order_settles_before_cycles`,
  `order_after_columns_iff`.
-/

open List

namespace Sheetwork.Formula

open Graph Ordered
open FormulaCell (ref)
open Std.OrientedCmp (not_lt_of_lt)

variable {names : List String} {cells : List FormulaCell} {c : FormulaCell} {d : FormulaCell} {i : Nat}

theorem latest_eq (hd : Vector.Distinct cells) : latest cells = cells := by
  have put : ∀ (ds : List FormulaCell) (c : FormulaCell), c.ref ∉ ds.map ref → latest.put ds c = ds ++ [c] := by
    intro ds c h
    induction ds with
    | nil => rfl
    | cons d ds ih =>
      rw [map_cons, mem_cons, not_or] at h
      rw [latest.put, if_neg (Ne.symm h.1), ih h.2, cons_append]
  induction cells using reverseRecOn with
  | nil => rfl
  | append_singleton cs c ih =>
    have hc : c.ref ∉ cs.map ref := by
      intro hm
      unfold Vector.Distinct at hd
      rw [map_append, nodup_append] at hd
      exact hd.2.2 _ hm _ mem_cons_self rfl
    unfold latest at ih ⊢
    rw [foldl_concat, ih (hd.sublist (sublist_append_left _ _)), put cs c hc]

theorem ascending_perm (cells : List FormulaCell) : ascending cells ~ cells := mergeSort_perm cells _

theorem distinct_ascending (hd : Vector.Distinct cells) : Vector.Distinct (ascending cells) :=
  ((ascending_perm cells).map _).nodup_iff.2 hd

theorem pairwise_ascending (hd : Vector.Distinct cells) :
    (ascending cells).Pairwise fun c d => compare c.ref d.ref = .lt := by
  have le : (ascending cells).Pairwise fun c d => (compare c.ref d.ref).isLE :=
    pairwise_mergeSort (fun _ _ _ => Std.TransCmp.isLE_trans) (fun _ _ => isLE_total _ _) cells
  refine (le.and (pairwise_map.1 (distinct_ascending hd))).imp fun {c d} h => ?_
  cases e : compare c.ref d.ref with
  | lt => rfl
  | eq => exact absurd (Std.LawfulEqOrd.eq_of_compare e) h.2
  | gt =>
    rw [e] at h
    cases h.1

/-- What formulas read by themselves or in a range. -/
def readEdges (names : List String) (cells : List FormulaCell) : List (Nat × Nat) :=
  cells.flatMap fun c => edgesTo (positions ((ascending cells).map ref)) c (c.reads names)

theorem order_eq (hd : Vector.Distinct cells) (hc : ∀ c ∈ cells, c.Complete names) :
    order names cells = .ok (ordered (ascending cells) (readEdges names cells)) := by
  have edges : ∀ index, cells.mapM (fun c => do pure (edgesTo index c (← c.references names).allCells)) =
      .ok (cells.map fun c => edgesTo index c (c.reads names)) := by
    intro index
    refine mapM_ok fun c hm => ?_
    rw [FormulaCell.references_eq (hc c hm)]
    rfl
  unfold order
  rw [References.ofCells_eq hc]
  simp only [bind, Except.bind, latest_eq hd]
  simp only [bind, Except.bind] at edges
  rw [edges]
  simp only [ordered, readEdges, flatMap, getElem?_toArray, pure, Except.pure]

section

variable (hd : Vector.Distinct cells) {j : Nat}

include hd

theorem getElem?_index (hi : (ascending cells)[i]? = some c) :
    (positions ((ascending cells).map ref))[c.ref]? = some i := by
  rw [getElem?_positions (distinct_ascending hd), getElem?_map, hi]
  rfl

theorem needs_readEdges : Needs (readEdges names cells) i j ↔ ∃ d c,
    (ascending cells)[i]? = some d ∧ (ascending cells)[j]? = some c ∧ c.Reads names d := by
  have found : ∀ {r : CellRef}, (positions ((ascending cells).map ref))[r]? = some i ↔
      ∃ d, (ascending cells)[i]? = some d ∧ d.ref = r := by
    intro r
    rw [getElem?_positions (distinct_ascending hd), getElem?_map, Option.map_eq_some_iff]
  simp only [Needs, readEdges, edgesTo, mem_flatMap, mem_filterMap, mem_ofList, Option.map_eq_some_iff, Prod.mk.injEq]
  constructor
  · rintro ⟨c, hc, r, hr, k, hk, rfl, rfl⟩
    obtain ⟨d, hd', rfl⟩ := found.1 hk
    obtain ⟨m, hm⟩ := mem_iff_getElem?.1 ((ascending_perm cells).mem_iff.2 hc)
    rw [getElem?_index hd hm]
    exact ⟨d, c, hd', hm, hr⟩
  · rintro ⟨d, c, hi, hj, hr⟩
    refine ⟨c, (ascending_perm cells).mem_iff.1 (mem_of_getElem? hj), d.ref, hr, i, ?_, rfl, ?_⟩
    · exact found.2 ⟨d, hi, rfl⟩
    · rw [getElem?_index hd hj]
      rfl

theorem encodes_readEdges (names : List String) : Encodes (fun d c => d ∈ cells ∧ c ∈ cells ∧ c.Reads names d)
    (ascending cells) (readEdges names cells) := by
  refine encodes_of_positions (fun {d c} => ?_) (needs_readEdges hd)
  rw [(ascending_perm cells).mem_iff, (ascending_perm cells).mem_iff]

theorem snd_of_mem_block (hc : c ∈ cells) (hj : (ascending cells)[j]? = some d)
    (h : (i, j) ∈ (ofList (c.reads names)).filterMap fun r =>
      ((positions ((ascending cells).map ref))[r]?).map
        (·, ((positions ((ascending cells).map ref))[c.ref]?).getD 0)) : c = d := by
  obtain ⟨r, -, hr⟩ := mem_filterMap.1 h
  obtain ⟨k, -, hk⟩ := Option.map_eq_some_iff.1 hr
  obtain ⟨m, hm⟩ := mem_iff_getElem?.1 ((ascending_perm cells).mem_iff.2 hc)
  rw [getElem?_index hd hm, Prod.mk.injEq] at hk
  obtain ⟨rfl, rfl⟩ := hk
  exact Option.some.inj (hm.symm.trans hj)

theorem nodup_readEdges (names : List String) : (readEdges names cells).Nodup := by
  have distinct := distinct_ascending hd
  refine nodup_flatMap.2 ⟨fun c _ => ?_, ?_⟩
  · refine (nodup_ofList _).filterMap fun r r' e he he' => ?_
    obtain ⟨i, hi, rfl⟩ := Option.map_eq_some_iff.1 he
    obtain ⟨j, hj, hij⟩ := Option.map_eq_some_iff.1 he'
    rw [Prod.mk.injEq] at hij
    rw [getElem?_positions distinct] at hi hj
    rw [hij.1] at hj
    exact Option.some.inj (hi.symm.trans hj)
  · refine Pairwise.imp_of_mem (fun {c d} hc hd' hne => ?_) hd.nodup
    rintro ⟨i, j⟩ hi hj
    have hw := ((encodes_readEdges hd names).within (i, j) (mem_flatMap.2 ⟨c, hc, hi⟩)).2
    have hget := getElem?_eq_getElem hw
    exact hne ((snd_of_mem_block hd hc hget hi).trans (snd_of_mem_block hd hd' hget hj).symm)

/-- What decides which of two formulas is computed first: the formulas that they read by themselves or in
ranges; the places, if there are none; their order among the cells, if both wait for one formula. -/
def turns (names : List String) (cells : List FormulaCell) : Turns FormulaCell where
  needs d c := d ∈ cells ∧ c ∈ cells ∧ c.Reads names d
  first c d := compare c.ref d.ref = .lt
  among _ c d := [c, d] <+ cells

theorem numbered (names : List String) :
    Numbered (turns names cells) (ascending cells) (readEdges names cells) where
  toEncodes := encodes_readEdges hd names
  nodup := (distinct_ascending hd).nodup
  first := pairwise_ascending hd
  among := by
    intro i j k d c c' _ _ h _ hj hk
    have hnd := nodup_readEdges hd names
    have member : ∀ {m e}, (ascending cells)[m]? = some e → (i, m) ∈ readEdges names cells →
        e ∈ cells ∧ (i, m) ∈ (ofList (e.reads names)).filterMap fun r =>
          ((positions ((ascending cells).map ref))[r]?).map
            (·, ((positions ((ascending cells).map ref))[e.ref]?).getD 0) := by
      intro m e hm hmem
      obtain ⟨e', he', h⟩ := mem_flatMap.1 hmem
      obtain rfl := snd_of_mem_block hd he' hm h
      exact ⟨he', h⟩
    obtain ⟨hc, hjc⟩ := member hj (h.subset (by simp))
    obtain ⟨hc', hkc'⟩ := member hk (h.subset (by simp))
    have hne : c ≠ c' := by
      rintro rfl
      have hjk : j = k := (getElem?_inj (lt_of_getElem? hj) (distinct_ascending hd).nodup).1 (hj.trans hk.symm)
      exact ne_of_pair_sublist hnd h (by rw [hjk])
    exact pair_sublist_of_flatMap hnd hc hc' hne hjc hkc' h

theorem pair_sublist_order_iff (hc : c ∈ cells) (hd' : d ∈ cells) :
    [d, c] <+ ordered (ascending cells) (readEdges names cells) ↔
      Acc (turns names cells).needs d ∧ (Acc (turns names cells).needs c → Sooner (turns names cells) d c) ∨
        ¬ Acc (turns names cells).needs d ∧ ¬ Acc (turns names cells).needs c ∧ compare d.ref c.ref = .lt := by
  have mem : ∀ {e}, e ∈ cells → e ∈ ascending cells := fun he => (ascending_perm cells).mem_iff.2 he
  have places : [d, c] <+ ascending cells ↔ compare d.ref c.ref = .lt :=
    pair_sublist_pairwise_iff (pairwise_ascending hd) not_lt_of_lt (mem hd') (mem hc)
  rw [pair_sublist_ordered_iff (numbered hd names) not_lt_of_lt (pair_sublist_asymm hd.nodup) (mem hd')
    (mem hc), places]

/-! Cycles -/

/-- Reading formulas of the workbook, directly or through others, leads from this one to a cycle. -/
def DependsOnCycle (names : List String) (cells : List FormulaCell) (c : FormulaCell) : Prop :=
  ∃ d, Relation.ReflTransGen (turns names cells).needs d c ∧ Relation.TransGen (turns names cells).needs d d

theorem acc_iff_not_dependsOnCycle (hc : c ∈ cells) :
    Acc (turns names cells).needs c ↔ ¬ DependsOnCycle names cells c := by
  rw [(numbered hd names).acc_iff_no_cycle ((ascending_perm cells).mem_iff.2 hc), DependsOnCycle, not_exists]
  simp only [not_and]

end

/-- Every formula is computed once. One that depends on no cycle is computed after the formulas that it reads
and before all formulas that depend on a cycle. -/
theorem order_settles_before_cycles (names : List String) (cells : List FormulaCell)
    (hd : Vector.Distinct cells) (hc : ∀ c ∈ cells, c.Complete names) :
    ∃ found, order names cells = .ok found ∧ found ~ cells ∧ ∀ c ∈ cells, ¬ DependsOnCycle names cells c →
        (∀ d ∈ cells, c.Reads names d → [d, c] <+ found) ∧
        ∀ d ∈ cells, DependsOnCycle names cells d → [c, d] <+ found := by
  refine ⟨_, order_eq hd hc, ?_, fun c hcells hfree => ⟨fun d hd' hr => ?_, fun d hd' hcycle => ?_⟩⟩
  · exact (Graph.ordered_perm (encodes_readEdges hd _).within).trans (ascending_perm cells)
  · exact (numbered hd names).pair_sublist_of_needs ⟨hd', hcells, hr⟩ ((ascending_perm cells).mem_iff.2 hcells)
      ((acc_iff_not_dependsOnCycle hd hcells).2 hfree)
  · rw [pair_sublist_order_iff hd hd' hcells]
    have held : ¬ Acc (turns names cells).needs d := fun h => (acc_iff_not_dependsOnCycle hd hd').1 h hcycle
    exact .inl ⟨(acc_iff_not_dependsOnCycle hd hcells).2 hfree, fun h => absurd h held⟩

/-- Two formulas that read each other, one that reads them, and a chain beside them. -/
def loopCells : List FormulaCell :=
  [⟨"S", "A", 1, "=A2"⟩, ⟨"S", "A", 2, "=A1"⟩, ⟨"S", "B", 1, "=SUM(A1:A2)"⟩, ⟨"S", "C", 1, "=C2"⟩, ⟨"S", "C", 2, "=5"⟩]

/-- The chain comes first, with what it reads ahead of it; the sum over the cycle is left to the end. -/
theorem order_loopCells : Vector.Distinct loopCells ∧ (∀ c ∈ loopCells, c.Complete []) ∧
    ∃ found, order [] loopCells = .ok found ∧ found ~ loopCells ∧ [⟨"S", "C", 2, "=5"⟩, ⟨"S", "C", 1, "=C2"⟩] <+ found ∧
      [⟨"S", "C", 1, "=C2"⟩, ⟨"S", "B", 1, "=SUM(A1:A2)"⟩] <+ found := by
  have distinct : Vector.Distinct loopCells := by decide
  have complete : ∀ c ∈ loopCells, c.Complete [] := by decide +kernel
  have reads : ∀ c ∈ loopCells, ∀ d ∈ loopCells, c.Reads [] d ↔ (c.col, d.col, d.row) ∈
      [("A", "A", 3 - c.row), ("B", "A", 1), ("B", "A", 2), ("C", "C", c.row + 1)] := by decide +kernel
  have needs : ∀ {d c}, (turns [] loopCells).needs d c → c.col = "C" → d.col = "C" ∧ c.row < d.row := by
    intro d c h hcol
    have := (reads c h.2.1 d h.1).1 h.2.2
    simp only [hcol, mem_cons, Prod.mk.injEq] at this
    grind
  have path : ∀ {d c}, Relation.TransGen (turns [] loopCells).needs d c → c.col = "C" → d.col = "C" ∧ c.row < d.row := by
    intro d c h hcol
    induction h using Relation.TransGen.head_induction_on with
    | single h => exact needs h hcol
    | head h _ ih => exact ⟨(needs h ih.1).1, ih.2.trans (needs h ih.1).2⟩
  have free : ¬ DependsOnCycle [] loopCells ⟨"S", "C", 1, "=C2"⟩ := by
    rintro ⟨d, hd, hcycle⟩
    have hcol : d.col = "C" := by
      rcases Relation.reflTransGen_iff_eq_or_transGen.1 hd with rfl | hd
      · rfl
      · exact (path hd rfl).1
    exact absurd (path hcycle hcol).2 (Nat.lt_irrefl _)
  have cycle : DependsOnCycle [] loopCells ⟨"S", "B", 1, "=SUM(A1:A2)"⟩ := by
    have step : ∀ d ∈ loopCells, ∀ c ∈ loopCells, c.Reads [] d → (turns [] loopCells).needs d c :=
      fun d hd c hc hr => ⟨hd, hc, hr⟩
    refine ⟨⟨"S", "A", 1, "=A2"⟩, .single (step _ (by decide) _ (by decide) ?_),
      .tail (.single (step _ (by decide) ⟨"S", "A", 2, "=A1"⟩ (by decide) ?_)) (step _ (by decide) _ (by decide) ?_)⟩
    all_goals exact (reads _ (by decide) _ (by decide)).2 (by decide)
  obtain ⟨found, h, once, after⟩ := order_settles_before_cycles [] loopCells distinct complete
  obtain ⟨before, ahead⟩ := after _ (by decide) free
  refine ⟨distinct, complete, found, h, once, before _ (by decide) ?_, ahead _ (by decide) cycle⟩
  exact (reads _ (by decide) _ (by decide)).2 (by decide)

/-! Table columns -/

variable (tables : List Table)

def columnReads (c : FormulaCell) : List CellRef :=
  (References.empty.addAll (c.conversion (tables.map Table.name)).references).tables.flatMap fun t =>
    (tableNamed? tables t.table).elim [] (·.columnCells t.column)

def UsesColumn (c d : FormulaCell) : Prop := d.ref ∈ columnReads tables c

instance (tables : List Table) (c d : FormulaCell) : Decidable (UsesColumn tables c d) :=
  inferInstanceAs (Decidable (_ ∈ _))

/-- The values that flow from one formula of the workbook to another, table columns included. -/
def Feeds (cells : List FormulaCell) (d c : FormulaCell) : Prop :=
  d ∈ cells ∧ c ∈ cells ∧ (c.Reads (tables.map Table.name) d ∨ UsesColumn tables c d)

instance (tables : List Table) (cells : List FormulaCell) (d c : FormulaCell) : Decidable (Feeds tables cells d c) :=
  inferInstanceAs (Decidable (_ ∧ _ ∧ _))

/-- Without cycles every formula is computed once, after the formulas that it reads by themselves or in ranges.
It is computed after a formula of a table column that it uses exactly if that formula is sooner
by their other references and places alone. -/
theorem order_after_columns_iff (tables : List Table) (cells : List FormulaCell) (hd : Vector.Distinct cells)
    (hc : ∀ c ∈ cells, c.Complete (tables.map Table.name))
    (acyclic : ∀ c, ¬ Relation.TransGen (Feeds tables cells) c c) :
    ∃ found, order (tables.map Table.name) cells = .ok found ∧ found ~ cells ∧
      (∀ c ∈ cells, ∀ d ∈ cells, c.Reads (tables.map Table.name) d → [d, c] <+ found) ∧
      ∀ c ∈ cells, ∀ d ∈ cells, UsesColumn tables c d →
        ([d, c] <+ found ↔ Graph.Sooner (turns (tables.map Table.name) cells) d c) := by
  have h := numbered hd (tables.map Table.name)
  have mem : ∀ {c}, c ∈ cells → c ∈ ascending cells := fun hc => (ascending_perm cells).mem_iff.2 hc
  have acc : ∀ {c}, c ∈ cells → Acc (turns (tables.map Table.name) cells).needs c := fun hc =>
    h.acc_of_acyclic (fun hr => ⟨hr.1, hr.2.1, .inl hr.2.2⟩) acyclic (mem hc)
  refine ⟨_, order_eq hd hc, ?_, fun c hc d hd' hr => ?_, fun c hc d hd' _ => ?_⟩
  · exact (Graph.ordered_perm (encodes_readEdges hd _).within).trans (ascending_perm cells)
  · exact h.pair_sublist_of_needs ⟨hd', hc, hr⟩ (mem hc) (acc hc)
  · rw [pair_sublist_order_iff hd hc hd']
    simp only [acc hc, acc hd', true_and, forall_const, not_true_eq_false, false_and, or_false]

/-- A table whose column holds a formula, and a formula of an earlier place that adds the column up. -/
def soldTable : Table := ⟨"T", "S", "B1:B3", ["Sold"], 1, 2, 3, "B", "B"⟩

def soldCells : List FormulaCell := [⟨"S", "A", 1, "=SUM(T[Sold])"⟩, ⟨"S", "B", 2, "=C2*2"⟩]

/-- The sum is computed before the formula in the column. -/
theorem order_sold : Vector.Distinct soldCells ∧ (∀ c ∈ soldCells, c.Complete ["T"]) ∧
    (∀ c, ¬ Relation.TransGen (Feeds [soldTable] soldCells) c c) ∧
    UsesColumn [soldTable] ⟨"S", "A", 1, "=SUM(T[Sold])"⟩ ⟨"S", "B", 2, "=C2*2"⟩ ∧
    ∃ found, order ["T"] soldCells = .ok found ∧ found ~ soldCells ∧
      ¬ [⟨"S", "B", 2, "=C2*2"⟩, ⟨"S", "A", 1, "=SUM(T[Sold])"⟩] <+ found := by
  have distinct : Vector.Distinct soldCells := by decide
  have complete : ∀ c ∈ soldCells, c.Complete ["T"] := by decide +kernel
  have uses : UsesColumn [soldTable] ⟨"S", "A", 1, "=SUM(T[Sold])"⟩ ⟨"S", "B", 2, "=C2*2"⟩ := by decide +kernel
  have step : ∀ d ∈ soldCells, ∀ c ∈ soldCells, Feeds [soldTable] soldCells d c → d.col = "B" ∧ c.col ≠ "B" := by
    decide +kernel
  have acyclic : ∀ c, ¬ Relation.TransGen (Feeds [soldTable] soldCells) c c :=
    Graph.not_transGen_of_sides fun h => step _ h.1 _ h.2.1 h
  have none : ∀ c ∈ soldCells, ∀ d ∈ soldCells, ¬ c.Reads ["T"] d := by decide +kernel
  obtain ⟨found, h, once, -, after⟩ := order_after_columns_iff [soldTable] soldCells distinct complete acyclic
  refine ⟨distinct, complete, acyclic, uses, found, h, once, fun before => ?_⟩
  have sooner := (after _ (by decide) _ (by decide) uses).1 before
  cases sooner with
  | free _ _ hlt =>
    have hlt : compare (CellRef.mk "S" "B" 2) ⟨"S", "A", 1⟩ = .lt := hlt
    exact absurd hlt (by decide)
  | ready _ hy => exact none _ hy.2.1 _ hy.1 hy.2.2
  | waits _ _ hy _ _ => exact none _ hy.2.1 _ hy.1 hy.2.2
  | together hy _ _ _ _ => exact none _ hy.2.1 _ hy.1 hy.2.2

end Sheetwork.Formula
