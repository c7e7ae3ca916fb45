import Sheetwork.Plan.Script
import Sheetwork.Proofs.Graph.Kahn
import Sheetwork.Proofs.Reference
import Sheetwork.Proofs.Vector.Partition
/-
  Plans: units, and formulas that are ordered one by one. For formulas of distinct cells the units are a partition of
  the formulas (`flatMap_units_perm`), each under an id of its own (`nodup_ids`). Hence a cell has one unit
  (`unitOf?_eq_some`), and a unit needs another one exactly if a formula of it reads a cell of the other
  (`mem_unitEdges`).

  Formulas that are not kept together are evaluated each once (`evaluation_loosened_perm`), and without a cycle of
  cells each after those that it needs (`pair_sublist_loosened`).
-/

open List

namespace Sheetwork.Plan

open Job
open Ordered (ofList nodup_ofList)

/-- Formulas of distinct cells; no name of a cell has the mark that ends the name of a sheet. -/
structure Listed (js : List Job) : Prop where
  nodup : (js.map name).Nodup
  plain : ∀ j ∈ js, '!' ∉ j.name.cell.toList

namespace Listed

variable {js : List Job} (h : Listed js)

include h

theorem nodup_jobs : js.Nodup := Nodup.of_map _ h.nodup

theorem eq_of_name {i j : Job} (hi : i ∈ js) (hj : j ∈ js) (e : i.name = j.name) : i = j :=
  inj_on_of_nodup_map h.nodup hi hj e

end Listed

theorem sublist_grouped (js : List Job) : ((js.filterMap fun j => j.group.map (·, j)).map (·.2)).Sublist js := by
  induction js with
  | nil => exact Sublist.refl []
  | cons j js ih =>
    cases hg : j.group with
    | none => simpa [hg] using ih.cons j
    | some g => simpa [hg] using ih

variable {js : List Job} {n : CellName}

theorem flatMap_groupUnits_subperm (js : List Job) : ((groupUnits js).flatMap Batch.jobs).Subperm js := by
  refine (filter_sublist.flatMap Batch.jobs).subperm.trans ?_
  rw [flatMap_map]
  rw [← map_flatMap]
  exact ((flatMap_bucketBy_perm _ _).map _).subperm.trans (sublist_grouped js).subperm

theorem take_one_of_mem_bucketBy (h : (js.map name).Nodup) {b : CellName × List Job} (hb : b ∈ bucketBy name js) :
    b.2.take 1 = b.2 := by
  have hn : (b.2.map name).Nodup := by
    have sub := sublist_flatten_of_mem (mem_map_of_mem (f := Prod.snd) hb)
    have all := ((flatMap_bucketBy_perm name js).map name).nodup_iff.mpr h
    exact all.sublist (sub.map name)
  have same : ∀ j ∈ b.2, j.name = b.1 := fun j hj => key_of_mem_bucketBy hb hj
  match hjs : b.2 with
  | [] => rfl
  | [j] => rfl
  | i :: j :: r =>
    rw [hjs] at hn same
    have e : i.name = j.name := (same i (by simp)).trans (same j (by simp)).symm
    simp [e] at hn

theorem flatMap_singleUnits_perm {groups : List Batch} (h : (js.map name).Nodup) :
    ((singleUnits groups js).flatMap Batch.jobs).Perm (js.filter fun j => !groups.any (·.has j.name)) := by
  set singles := js.filter fun j => !groups.any (·.has j.name) with hs
  have hn : (singles.map name).Nodup := h.sublist (filter_sublist.map _)
  have e : (singleUnits groups js).flatMap Batch.jobs = (bucketBy name singles).flatMap Prod.snd := by
    rw [singleUnits, flatMap_map]
    exact flatMap_congr fun b hb => take_one_of_mem_bucketBy hn hb
  rw [e]
  exact flatMap_bucketBy_perm name singles

theorem flatMap_units_perm (h : (js.map name).Nodup) : ((units js).flatMap Batch.jobs).Perm js := by
  have rest := perm_flatten_append_rest ((groupUnits js).map Batch.jobs) h (flatMap_groupUnits_subperm js)
  have e : (fun j : Job => !((groupUnits js).map Batch.jobs).any fun run =>
      run.any fun i => i.name = j.name) = fun j => !(groupUnits js).any (·.has j.name) := by
    funext j
    rw [any_map]
    rfl
  rw [e] at rest
  rw [units, flatMap_append]
  exact ((flatMap_singleUnits_perm h).append_left _).trans rest

/-! Ids -/

theorem nodup_groupIds (js : List Job) : ((groupUnits js).map Batch.id).Nodup := by
  refine Nodup.sublist (filter_sublist.map Batch.id) ?_
  have ids := (nodup_keys_bucketBy Prod.fst (js.filterMap fun j => j.group.map (·, j))).map (f := ("g" ++ ·))
    fun g g' e => String.toList_inj.mp (by simpa using congrArg String.toList e)
  rw [map_map] at ids ⊢
  exact ids

def cellId (n : CellName) : String := "c" ++ n.sheet ++ "!" ++ n.cell

theorem cellId_inj {m : CellName} (hm : '!' ∉ m.cell.toList) (hn : '!' ∉ n.cell.toList) (e : cellId m = cellId n) :
    m = n := by
  have chars : 'c' :: m.sheet.toList ++ '!' :: m.cell.toList = 'c' :: n.sheet.toList ++ '!' :: n.cell.toList := by
    simpa [cellId] using congrArg String.toList e
  obtain ⟨hsheet, hcell⟩ := (append_cons_inj hm hn).1 chars
  exact congrArg₂ CellName.mk (String.toList_inj.mp (cons.inj hsheet).2) (String.toList_inj.mp hcell)

theorem map_id_singleUnits (groups : List Batch) : (singleUnits groups js).map Batch.id =
      ((bucketBy name (js.filter fun j => !groups.any (·.has j.name))).map Prod.fst).map cellId := by
  rw [singleUnits, map_map, map_map]
  rfl

theorem nodup_ids (h : Listed js) : ((units js).map Batch.id).Nodup := by
  rw [units, map_append]
  refine Nodup.append (nodup_groupIds js) ?_ ?_
  · rw [map_id_singleUnits]
    refine Nodup.map_on ?_ (nodup_keys_bucketBy _ _)
    have plain : ∀ n ∈ (bucketBy name (js.filter fun j => !(groupUnits js).any (·.has j.name))).map
        Prod.fst, '!' ∉ n.cell.toList := by
      intro n hn
      obtain ⟨j, hj, rfl⟩ := mem_map.mp (mem_keys_bucketBy.mp hn)
      exact h.plain j (mem_filter.mp hj).1
    exact fun m hm n hn e => cellId_inj (plain m hm) (plain n hn) e
  · intro id hg hc
    obtain ⟨u, hu, rfl⟩ := mem_map.mp hg
    obtain ⟨b, -, hb⟩ := mem_map.mp (mem_filter.mp hu).1
    rw [map_id_singleUnits] at hc
    obtain ⟨n, -, e⟩ := mem_map.mp hc
    -- the ids of groups and of cells begin with different letters
    have e := congrArg String.toList e
    rw [← hb] at e
    simp [cellId] at e

/-! Needs between units -/

theorem has_iff {u : Batch} : u.has n = true ↔ ∃ j ∈ u.jobs, j.name = n := by simp [Batch.has]

section

variable (h : Listed js)

include h

variable {u v : Batch}

theorem mem_units_iff {j : Job} : j ∈ js ↔ ∃ u ∈ units js, j ∈ u.jobs :=
  (flatMap_units_perm h.nodup).mem_iff.symm.trans mem_flatMap

theorem eq_of_id (hu : u ∈ units js) (hv : v ∈ units js) (e : u.id = v.id) : u = v :=
  inj_on_of_nodup_map (nodup_ids h) hu hv e

theorem eq_of_has (hu : u ∈ units js) (hv : v ∈ units js) (hun : u.has n) (hvn : v.has n) : u = v := by
  obtain ⟨i, hi, hin⟩ := has_iff.mp hun
  obtain ⟨j, hj, hjn⟩ := has_iff.mp hvn
  obtain rfl : i = j := h.eq_of_name ((mem_units_iff h).mpr ⟨u, hu, hi⟩)
    ((mem_units_iff h).mpr ⟨v, hv, hj⟩) (hin.trans hjn.symm)
  have disjoint := (nodup_flatMap.mp ((flatMap_units_perm h.nodup).nodup_iff.mpr h.nodup_jobs)).2
  have : Std.Symm (Function.onFun Disjoint Batch.jobs) := ⟨fun _ _ hd _ ha hb => hd hb ha⟩
  by_contra hne
  exact disjoint.forall hu hv hne hi hj

theorem unitOf?_eq_some {id : String} :
    unitOf? (units js) n = some id ↔ ∃ u ∈ units js, u.id = id ∧ u.has n = true := by
  rw [unitOf?, Option.map_eq_some_iff]
  constructor
  · rintro ⟨u, hu, rfl⟩
    exact ⟨u, mem_reverse.mp (mem_of_find?_eq_some hu), rfl, find?_some (p := fun u : Batch => u.has n) hu⟩
  · rintro ⟨u, hu, rfl, hn⟩
    refine ⟨u, find?_eq_some_of_unique (mem_reverse.2 hu) hn fun v hv hvn => ?_, rfl⟩
    exact eq_of_has h (mem_reverse.1 hv) hu hvn hn

theorem mem_unitEdges (hu : u ∈ units js) (hv : v ∈ units js) :
    (u.id, v.id) ∈ unitEdges (units js) js ↔ u ≠ v ∧ ∃ j ∈ v.jobs, ∃ d ∈ u.jobs, d.name ∈ j.needs := by
  rw [unitEdges, mem_flatMap]
  constructor
  · rintro ⟨j, hj, he⟩
    split at he
    · cases he
    · next mine hmine =>
      simp only [mem_filterMap, Option.ite_none_left_eq_some, Option.some.injEq, Prod.mk.injEq] at he
      obtain ⟨w, ⟨n, hn, hun⟩, hne, rfl, rfl⟩ := he
      obtain ⟨v', hv', e, hjv⟩ := (unitOf?_eq_some h).mp hmine
      obtain ⟨u', hu', e', hnu⟩ := (unitOf?_eq_some h).mp hun
      obtain rfl := eq_of_id h hv' hv e
      obtain rfl := eq_of_id h hu' hu e'
      obtain ⟨d, hd, rfl⟩ := has_iff.mp hnu
      obtain ⟨j', hj', e⟩ := has_iff.mp hjv
      obtain rfl := h.eq_of_name ((mem_units_iff h).mpr ⟨v', hv, hj'⟩) hj e
      exact ⟨fun e => hne (congrArg Batch.id e), j', hj', d, hd, hn⟩
  · rintro ⟨hne, j, hj, d, hd, hn⟩
    have mine := (unitOf?_eq_some h).mpr ⟨v, hv, rfl, has_iff.mpr ⟨j, hj, rfl⟩⟩
    have theirs := (unitOf?_eq_some h).mpr ⟨u, hu, rfl, has_iff.mpr ⟨d, hd, rfl⟩⟩
    refine ⟨j, (mem_units_iff h).mpr ⟨v, hv, hj⟩, ?_⟩
    simp only [mine, mem_filterMap, Option.ite_none_left_eq_some, Option.some.injEq, Prod.mk.injEq]
    exact ⟨u.id, ⟨d.name, hn, theirs⟩, fun e => hne (eq_of_id h hu hv e), rfl, trivial⟩

theorem mem_ids_of_mem_unitEdges {e : String × String} (he : e ∈ unitEdges (units js) js) :
    e.1 ∈ (units js).map Batch.id ∧ e.2 ∈ (units js).map Batch.id := by
  rw [unitEdges, mem_flatMap] at he
  obtain ⟨j, -, he⟩ := he
  cases mine : unitOf? (units js) j.name with
  | none => simp [mine] at he
  | some v =>
    simp only [mine, mem_filterMap, Option.ite_none_left_eq_some, Option.some.injEq] at he
    obtain ⟨w, ⟨n, -, hw⟩, -, rfl⟩ := he
    obtain ⟨u', hu', rfl, -⟩ := (unitOf?_eq_some h).mp hw
    obtain ⟨v', hv', rfl, -⟩ := (unitOf?_eq_some h).mp mine
    exact ⟨mem_map_of_mem hu', mem_map_of_mem hv'⟩

end

/-! Formulas one by one -/

/-- The number of a cell along a group; zero where the report has none. -/
def Job.place (along : Axis) (j : Job) : Int := (wholeOf j.record along.coordinate).toOption.getD 0

/-- The formulas of a step in the order in which a script evaluates them: a group along its row or
column, anything else as it is listed. -/
def Step.evaluation : Step → List Job
  | .cell j => [j]
  | .group js =>
    match js.head?.bind fun j => Axis.ofValue? (j.record.get "GroupDirection") with
    | some along => js.mergeSort fun i j => i.place along ≤ j.place along
    | none => js

def Step.jobs : Step → List Job
  | .cell j => [j]
  | .group js => js

theorem Step.evaluation_perm (s : Step) : s.evaluation ~ s.jobs := by
  cases s with
  | cell j => exact Perm.refl [j]
  | group js =>
    rw [Step.evaluation]
    split
    · exact mergeSort_perm js _
    · exact Perm.refl js

/-- A formula reads a cell that is computed by another one. -/
def CellNeeds (js : List Job) (m n : CellName) : Prop := ∃ j ∈ js, j.name = n ∧ m ∈ j.needs ∧ ∃ d ∈ js, d.name = m

/-- Needs lead from a cycle of cells to this one. -/
def DependsOnCycle (js : List Job) (n : CellName) : Prop :=
  ∃ m, Relation.ReflTransGen (CellNeeds js) m n ∧ Relation.TransGen (CellNeeds js) m m

theorem CellName.compare_eq : compare = compareLex (compareOn CellName.sheet) (compareOn CellName.cell) := by
  funext m n
  exact congrArg (Ordering.then _) Ordering.then_eq

instance : Std.TransOrd CellName := by
  rw [Std.TransOrd, CellName.compare_eq]
  infer_instance

instance : Std.LawfulEqOrd CellName where
  eq_of_compare := by
    rintro ⟨s, c⟩ ⟨s', c'⟩ h
    simpa [CellName.compare_eq, compareOn] using h

theorem needs_cellEdges {all : List Job} {names : List CellName} (hn : names.Nodup) {i k : Nat} :
    Graph.Needs (cellEdges all names) k i ↔ ∃ m n, names[k]? = some m ∧ names[i]? = some n ∧ m ≠ n ∧
      ∃ j ∈ all, j.name = n ∧ m ∈ j.needs := by
  have idx : ∀ m, names.idxOf? m = some k ↔ names[k]? = some m := by
    intro m
    rw [idxOf?_eq_some_iff, getElem?_eq_some_iff]
    refine ⟨fun ⟨hk, e, _⟩ => ⟨hk, e⟩, fun ⟨hk, e⟩ => ⟨hk, e, fun l hl el => ?_⟩⟩
    exact Nat.ne_of_lt hl (hn.getElem_inj_iff.mp (el.trans e.symm))
  simp only [Graph.Needs, cellEdges, mem_flatMap, mem_map, mem_filterMap,
    mem_eraseDups, mem_filter, decide_eq_true_eq, Prod.mk.injEq, Prod.exists,
    mk_mem_zipIdx_iff_getElem?]
  constructor
  · rintro ⟨n, i', hi, k', ⟨m, ⟨⟨j, ⟨hj, rfl⟩, hm⟩, hne⟩, hk⟩, rfl, rfl⟩
    exact ⟨m, j.name, (idx m).mp hk, hi, by simpa using hne, j, hj, rfl, hm⟩
  · rintro ⟨m, n, hk, hi, hne, j, hj, rfl, hm⟩
    exact ⟨j.name, i, hi, k, ⟨m, ⟨⟨j, ⟨hj, rfl⟩, hm⟩, by simpa using hne⟩, (idx m).mpr hk⟩, rfl, rfl⟩

section

variable {all : List Job} (hn : (js.map name).Nodup)

theorem loosened_eq : loosened js all =
    ((looseNames js all).filterMap fun n => js.reverse.find? (·.name = n)).map .cell := by
  rw [map_filterMap]
  rfl

theorem evaluation_loosened : (loosened js all).flatMap Step.evaluation =
    (looseNames js all).filterMap fun n => js.reverse.find? (·.name = n) := by
  rw [loosened_eq, flatMap_map]
  exact flatMap_singleton' _

/-- One of the cells is read by the formula of another one. -/
def NameNeeds (all : List Job) (names : List CellName) (m n : CellName) : Prop :=
  m ∈ names ∧ n ∈ names ∧ m ≠ n ∧ ∃ j ∈ all, j.name = n ∧ m ∈ j.needs

theorem encodes_cellEdges (all : List Job) (names : List CellName) :
    Graph.Encodes (NameNeeds all (ofList names)) (ofList names) (cellEdges all (ofList names)) :=
  Graph.encodes_of_positions Iff.rfl (needs_cellEdges (nodup_ofList names))

theorem NameNeeds.cellNeeds {m n : CellName} (hsub : ∀ j ∈ js, j ∈ all)
    (h : NameNeeds all (ofList (js.map name)) m n) : CellNeeds all m n := by
  obtain ⟨hm, -, -, j, hj, e, hneed⟩ := h
  obtain ⟨d, hd, rfl⟩ := mem_map.1 (Ordered.mem_ofList.1 hm)
  exact ⟨j, hj, e, hneed, d, hsub d hd, rfl⟩

include hn

theorem find?_reverse_eq {j : Job} (hj : j ∈ js) : js.reverse.find? (·.name = j.name) = some j :=
  find?_eq_some_of_unique (mem_reverse.2 hj) (decide_eq_true rfl) fun _ hi e =>
    inj_on_of_nodup_map hn (mem_reverse.1 hi) hj (of_decide_eq_true e)

theorem looseNames_perm : looseNames js all ~ js.map name := by
  refine (Graph.ordered_perm (encodes_cellEdges all _).within).trans ?_
  rw [perm_ext_iff_of_nodup (nodup_ofList _) hn]
  exact fun n => Ordered.mem_ofList

theorem evaluation_loosened_perm : (loosened js all).flatMap Step.evaluation ~ js := by
  have all' : (js.map name).filterMap (fun n => js.reverse.find? (·.name = n)) = js := by
    rw [filterMap_map]
    refine (filterMap_congr fun j hj => find?_reverse_eq hn hj).trans ?_
    exact filterMap_some
  rw [evaluation_loosened]
  conv => rhs; rw [← all']
  exact (looseNames_perm hn).filterMap _

theorem pair_sublist_loosened_iff {d j : Job} (hd : d ∈ js) (hj : j ∈ js) :
    [d, j] <+ (loosened js all).flatMap Step.evaluation ↔ [d.name, j.name] <+ looseNames js all := by
  have forwards : ∀ {i k}, i ∈ js → k ∈ js → [i.name, k.name] <+ looseNames js all →
      [i, k] <+ (loosened js all).flatMap Step.evaluation := by
    intro i k hi hk hik
    have e : [i.name, k.name].filterMap (fun n => js.reverse.find? (·.name = n)) = [i, k] := by
      simp [find?_reverse_eq hn hi, find?_reverse_eq hn hk]
    rw [evaluation_loosened, ← e]
    exact hik.filterMap _
  refine ⟨fun hdj => ?_, forwards hd hj⟩
  have once : ((loosened js all).flatMap Step.evaluation).Nodup :=
    (evaluation_loosened_perm hn).nodup_iff.2 (Nodup.of_map _ hn)
  have hne : d.name ≠ j.name := fun e => Graph.ne_of_pair_sublist once hdj (inj_on_of_nodup_map hn hd hj e)
  have listed : ∀ {i}, i ∈ js → i.name ∈ looseNames js all := fun hi =>
    (looseNames_perm hn).mem_iff.2 (mem_map_of_mem hi)
  refine (Graph.pair_sublist_or (listed hd) (listed hj) hne).resolve_right fun hjd => ?_
  exact Graph.pair_sublist_asymm once hdj (forwards hj hd hjd)

theorem pair_sublist_loosened (hsub : ∀ j ∈ js, j ∈ all) {d j : Job} (hd : d ∈ js) (hj : j ∈ js) (h : d.name ∈ j.needs)
    (free : ¬ DependsOnCycle all j.name) : [d, j] <+ (loosened js all).flatMap Step.evaluation := by
  have mem : ∀ {i}, i ∈ js → i.name ∈ ofList (js.map name) := fun hi => Ordered.mem_ofList.2 (mem_map_of_mem hi)
  have hne : d.name ≠ j.name := fun e => free ⟨j.name, .refl, .single ⟨j, hsub j hj, rfl, e ▸ h, j, hsub j hj, rfl⟩⟩
  have encodes := encodes_cellEdges all (js.map name)
  rw [pair_sublist_loosened_iff hn hd hj]
  refine encodes.pair_sublist_of_needs ⟨mem hd, mem hj, hne, j, hsub j hj, rfl, h⟩ (mem hj) ?_
  have needs : ∀ m n, NameNeeds all (ofList (js.map name)) m n → CellNeeds all m n := fun _ _ =>
    NameNeeds.cellNeeds hsub
  exact Graph.acc_of_no_cycle encodes.closed (mem hj) fun m path cycle =>
    free ⟨m, Relation.ReflTransGen.mono needs _ _ path, Relation.TransGen.mono needs m m cycle⟩

end

end Sheetwork.Plan
