import Sheetwork.Proofs.Graph.Components
import Sheetwork.Proofs.Plan.Units
import Sheetwork.Proofs.Text.Replacement
/-
  Plans: what the order of evaluation guarantees. The components of the unit graph are a partition of the units, and
  no edge leads to a later component, so the condensed graph has no cycle (`acc_condensed`). A unit that is on no
  cycle is a component of its own (`component_eq_singleton`) and is evaluated as it stands; the formulas of any other
  component are ordered one by one. Main statement: `evaluation_after_needs_iff`.
-/

open List

namespace Sheetwork.Plan

open Relation Graph Graph.Components CellName

/-! The condensed graph -/

section

variable {α : Type} [DecidableEq α] {comps : List (List α)} {edges : List (α × α)}

def number (comps : List (List α)) (a : α) : Nat := comps.findIdx (a ∈ ·)

theorem needs_condensed {i k : Nat} : Needs (condensed comps edges) i k ↔
    i < comps.length ∧ k ≠ i ∧ ∃ e ∈ edges, number comps e.1 = i ∧ number comps e.2 = k := by
  simp only [Needs, condensed, mem_flatMap, mem_range, mem_map, Ordered.mem_ofList,
    mem_filter, Bool.and_eq_true, decide_eq_true_eq, Prod.mk.injEq, number, Prod.exists]
  constructor
  · rintro ⟨i', hi, k', ⟨x, y, ⟨⟨a, b, he, rfl, rfl⟩, ha, hb⟩, rfl⟩, rfl, rfl⟩
    exact ⟨hi, hb, a, b, he, ha, rfl⟩
  · rintro ⟨hi, hne, a, b, he, rfl, rfl⟩
    exact ⟨_, hi, _, ⟨_, _, ⟨⟨a, b, he, rfl, rfl⟩, rfl, hne⟩, rfl⟩, rfl, rfl⟩

theorem getElem?_number {a : α} (ha : a ∈ comps.flatten) : ∃ c, comps[number comps a]? = some c ∧ a ∈ c := by
  obtain ⟨c, hc, hac⟩ := mem_flatten.mp ha
  have hlt : number comps a < comps.length := findIdx_lt_length_of_exists ⟨c, hc, decide_eq_true hac⟩
  refine ⟨comps[number comps a], getElem?_eq_getElem hlt, ?_⟩
  exact of_decide_eq_true (findIdx_getElem (w := hlt))

theorem number_eq (hn : comps.flatten.Nodup) {i : Nat} {c : List α} (hc : comps[i]? = some c) {a : α}
    (ha : a ∈ c) : number comps a = i := by
  obtain ⟨d, hd, had⟩ := getElem?_number (mem_flatten.mpr ⟨c, mem_of_getElem? hc, ha⟩)
  -- a node has one place only
  have disjoint := pairwise_iff_getElem.mp (nodup_flatten.mp hn).2
  obtain ⟨hi, rfl⟩ := List.getElem?_eq_some_iff.mp hc
  obtain ⟨hk, rfl⟩ := List.getElem?_eq_some_iff.mp hd
  rcases Nat.lt_trichotomy (number comps a) i with hlt | e | hlt
  · exact absurd ha (disjoint _ _ hk hi hlt had)
  · exact e
  · exact absurd had (disjoint _ _ hi hk hlt ha)

end

section

variable {α : Type} [Ord α] [Std.LawfulEqOrd α] [DecidableEq α] {nodes : List α}
  {edges : List (α × α)} {comps : List (List α)}
  (hc : AreComponents (targets edges) nodes comps) (he : ∀ e ∈ edges, e.1 ∈ nodes ∧ e.2 ∈ nodes) {c : List α}

include hc he

theorem lt_of_needs_condensed {i k : Nat} (h : Needs (condensed comps edges) i k) : k < i := by
  obtain ⟨-, hne, ⟨a, b⟩, hab, rfl, rfl⟩ := needs_condensed.mp h
  obtain ⟨c, hci, hac⟩ := getElem?_number ((hc.mem_flatten a).mpr (he _ hab).1)
  obtain ⟨d, hdk, hbd⟩ := getElem?_number ((hc.mem_flatten b).mpr (he _ hab).2)
  obtain ⟨hi, rfl⟩ := List.getElem?_eq_some_iff.mp hci
  obtain ⟨hk, rfl⟩ := List.getElem?_eq_some_iff.mp hdk
  by_contra hle
  have hlt : number comps a < number comps b := Nat.lt_of_le_of_ne (Nat.not_lt.mp hle) (Ne.symm hne)
  exact pairwise_iff_getElem.mp hc.backwards _ _ hi hk hlt a hac b (mem_targets.mpr hab) hbd

/-- A component needs another one if an edge leads from it to the other. -/
def ComponentNeeds (comps : List (List α)) (edges : List (α × α)) (c e : List α) : Prop :=
  c ∈ comps ∧ e ∈ comps ∧ c ≠ e ∧ ∃ p ∈ edges, p.1 ∈ c ∧ p.2 ∈ e

omit [Std.LawfulEqOrd α] in
theorem encodes_condensed : Encodes (ComponentNeeds comps edges) comps (condensed comps edges) := by
  refine encodes_of_positions Iff.rfl fun {i k} => ?_
  rw [needs_condensed]
  constructor
  · rintro ⟨-, hne, p, hp, rfl, rfl⟩
    obtain ⟨c, hci, hpc⟩ := getElem?_number ((hc.mem_flatten p.1).2 (he p hp).1)
    obtain ⟨e, hek, hpe⟩ := getElem?_number ((hc.mem_flatten p.2).2 (he p hp).2)
    refine ⟨c, e, hci, hek, ?_, p, hp, hpc, hpe⟩
    rintro rfl
    exact hne (number_eq hc.nodup hci hpe)
  · rintro ⟨c, e, hi, hk, hne, p, hp, hpc, hpe⟩
    refine ⟨lt_of_getElem? hi, ?_, p, hp, number_eq hc.nodup hi hpc, number_eq hc.nodup hk hpe⟩
    rintro rfl
    exact hne (Option.some.inj (hi.symm.trans hk))

theorem acc_condensed (k : Nat) : Acc (Needs (condensed comps edges)) k := by
  refine acc_of_no_cycles (fun h => mem_range.2 ((encodes_condensed hc he).within _ h).1) (fun i path => ?_) k
  have down : ∀ {i k}, TransGen (Needs (condensed comps edges)) i k → k < i := by
    intro i k path
    induction path with
    | single h => exact lt_of_needs_condensed hc he h
    | tail _ h ih => exact Nat.lt_trans (lt_of_needs_condensed hc he h) ih
  exact Nat.lt_irrefl i (down path)

theorem acc_componentNeeds (hcm : c ∈ comps) : Acc (ComponentNeeds comps edges) c := by
  obtain ⟨i, hi⟩ := mem_iff_getElem?.1 hcm
  exact ((encodes_condensed hc he).acc_iff hi).1 (acc_condensed hc he i)

theorem pair_sublist_components {a b : α} (hab : (a, b) ∈ edges) {d : List α} (hcm : c ∈ comps) (hdm : d ∈ comps)
    (ha : a ∈ c) (hb : b ∈ d) (hne : c ≠ d) : [c, d] <+ ordered comps (condensed comps edges) :=
  (encodes_condensed hc he).pair_sublist_of_needs ⟨hcm, hdm, hne, (a, b), hab, ha, hb⟩ hdm
    (acc_componentNeeds hc he hdm)

omit [Std.LawfulEqOrd α] he in
theorem component_eq_singleton (hcm : c ∈ comps) {a : α} (ha : a ∈ c)
    (h : ¬ TransGen (Edge (targets edges)) a a) : c = [a] := by
  have hn : c.Nodup := (nodup_flatten.mp hc.nodup).1 c hcm
  have same : ∀ b ∈ c, b = a := by
    intro b hb
    obtain ⟨hab, hba⟩ := (hc.mem_iff c hcm a ha b).mp hb
    by_contra hne
    rcases reflTransGen_iff_eq_or_transGen.mp hab with e | hab
    · exact hne e
    · exact h (hab.trans_left hba)
  refine perm_singleton.mp ((perm_ext_iff_of_nodup hn (nodup_singleton a)).mpr ?_)
  intro b
  rw [mem_singleton]
  exact ⟨same b, fun e => e ▸ ha⟩

end

/-! Units and their components -/

/-- One unit reads a cell of another one. -/
def UnitNeeds (js : List Job) (u v : Batch) : Prop :=
  u ∈ units js ∧ v ∈ units js ∧ u ≠ v ∧ ∃ j ∈ v.jobs, ∃ d ∈ u.jobs, d.name ∈ j.needs

variable {js : List Job} {u : Batch}

theorem not_transGen_of_singleton (h : units js = [u]) : ¬ TransGen (UnitNeeds js) u u := by
  intro path
  obtain ⟨v, ⟨-, hv, hne, -⟩, -⟩ := TransGen.head'_iff.mp path
  rw [h, mem_singleton] at hv
  exact hne hv.symm

def unitComponents (js : List Job) : List (List String) :=
  componentsOf ((units js).map Batch.id) (unitEdges (units js) js)

def jobsOf (js : List Job) (component : List String) : List Job := (members (units js) component).flatMap Batch.jobs

def block (js : List Job) (component : List String) : List Job :=
  (componentSteps (units js) js component).flatMap Step.evaluation

theorem evaluation_steps : (steps js).flatMap Step.evaluation = (unitOrder js).flatMap (block js) := flatMap_assoc

theorem eq_of_not_isGroup (hg : ¬ u.isGroup) {d j : Job} (hd : d ∈ u.jobs) (hj : j ∈ u.jobs) : d = j := by
  match hjs : u.jobs, (fun hle => hg (decide_eq_true hle) : ¬ 2 ≤ u.jobs.length) with
  | [], _ => simp [hjs] at hd
  | [i], _ =>
    rw [hjs, mem_singleton] at hd hj
    rw [hd, hj]
  | _ :: _ :: _, hlen => simp at hlen

theorem evaluationOrder_eq {sheets : List (String × List Record)} (hjobs : jobs sheets = .ok js)
    (hgroups : checkGroups js = .ok ⟨⟩) : evaluationOrder sheets = .ok (steps js) := by
  rw [evaluationOrder, hjobs]
  simp only [bind, Except.bind, hgroups, pure, Except.pure]

section Units

variable {js : List Job} (h : Listed js)

include h

variable {u : Batch} {c : List String} {j : Job}

theorem areComponents_units : AreComponents (targets (unitEdges (units js) js))
    ((units js).map Batch.id) (unitComponents js) :=
  areComponents_componentsOf fun _ he => (mem_ids_of_mem_unitEdges h he).2

theorem components_perm : unitOrder js ~ unitComponents js :=
  ordered_perm (encodes_condensed (areComponents_units h) fun _ => mem_ids_of_mem_unitEdges h).within

theorem find?_id (hu : u ∈ units js) : (units js).find? (·.id = u.id) = some u :=
  find?_eq_some_of_unique hu (decide_eq_true rfl) fun _ hv e => eq_of_id h hv hu (of_decide_eq_true e)

theorem mem_members : u ∈ members (units js) c ↔ u ∈ units js ∧ u.id ∈ c := by
  rw [members, mem_filterMap]
  constructor
  · rintro ⟨id, hid, hu⟩
    have e : u.id = id := by simpa using find?_some hu
    exact ⟨mem_of_find?_eq_some hu, e ▸ hid⟩
  · rintro ⟨hu, hid⟩
    exact ⟨u.id, hid, find?_id h hu⟩

theorem map_id_members (hc : c ∈ unitComponents js) : (members (units js) c).map Batch.id = c := by
  have ids : ∀ id ∈ c, ((units js).find? (·.id = id)).map Batch.id = some id := by
    intro id hid
    obtain ⟨u, hu, rfl⟩ := mem_map.mp (((areComponents_units h).mem_flatten id).mp (mem_flatten.mpr ⟨c, hc, hid⟩))
    rw [find?_id h hu, Option.map_some]
  rw [members, map_filterMap]
  exact (filterMap_congr ids).trans filterMap_some

theorem flatMap_members_perm : (unitComponents js).flatMap (members (units js)) ~ units js := by
  have hc := areComponents_units h
  have ids : (unitComponents js).flatten ~ (units js).map Batch.id :=
    (perm_ext_iff_of_nodup hc.nodup (nodup_ids h)).mpr hc.mem_flatten
  have all : ((units js).map Batch.id).filterMap (fun id => (units js).find? (·.id = id)) = units js := by
    rw [filterMap_map]
    refine (filterMap_congr fun u hu => find?_id h hu).trans ?_
    exact filterMap_some
  have order := ids.filterMap fun id => (units js).find? (·.id = id)
  rwa [all, filterMap_flatten, ← flatMap_def] at order

theorem nodup_members (hc : c ∈ unitComponents js) : ((jobsOf js c).map Job.name).Nodup := by
  have sub : members (units js) c <+ (unitComponents js).flatMap (members (units js)) :=
    sublist_flatten_of_mem (mem_map_of_mem hc)
  have all := ((flatMap_members_perm h).flatMap_right Batch.jobs).trans (flatMap_units_perm h.nodup)
  exact ((all.map Job.name).nodup_iff.mpr h.nodup).sublist ((sub.flatMap Batch.jobs).map Job.name)

theorem block_perm (hc : c ∈ unitComponents js) : block js c ~ jobsOf js c := by
  have hn := nodup_members h hc
  rw [jobsOf] at *
  rw [block, componentSteps]
  split
  · next u e =>
    rw [e, flatMap_singleton]
    split
    · rw [flatMap_singleton]
      exact (Step.group u.jobs).evaluation_perm
    · rw [flatMap_map]
      exact Perm.of_eq (flatMap_singleton' _)
  · exact evaluation_loosened_perm hn

theorem mem_block (hc : c ∈ unitComponents js) (hu : u ∈ units js) (hid : u.id ∈ c) (hj : j ∈ u.jobs) :
    j ∈ block js c :=
  (block_perm h hc).mem_iff.mpr (mem_flatMap.mpr ⟨u, (mem_members h).mpr ⟨hu, hid⟩, hj⟩)

theorem evaluation_steps_perm : (steps js).flatMap Step.evaluation ~ js := by
  rw [evaluation_steps]
  calc (unitOrder js).flatMap (block js)
      _ ~ (unitComponents js).flatMap (block js) := (components_perm h).flatMap_right _
      _ ~ (unitComponents js).flatMap (jobsOf js) := Perm.flatMap_left _ fun c hc => block_perm h hc
      _ = ((unitComponents js).flatMap (members (units js))).flatMap Batch.jobs := flatMap_assoc.symm
      _ ~ (units js).flatMap Batch.jobs := (flatMap_members_perm h).flatMap_right _
      _ ~ js := flatMap_units_perm h.nodup

theorem exists_component (hu : u ∈ units js) : ∃ c ∈ unitComponents js, u.id ∈ c :=
  mem_flatten.mp (((areComponents_units h).mem_flatten u.id).mpr (mem_map_of_mem hu))

theorem exists_jobsOf (hj : j ∈ js) : ∃ c ∈ unitComponents js, j ∈ jobsOf js c := by
  obtain ⟨u, hu, hju⟩ := (mem_units_iff h).1 hj
  obtain ⟨c, hc, hid⟩ := exists_component h hu
  exact ⟨c, hc, mem_flatMap.2 ⟨u, (mem_members h).2 ⟨hu, hid⟩, hju⟩⟩

variable (hu : u ∈ units js)

include hu

theorem edge_iff {v : Batch} (hv : v ∈ units js) :
    Edge (targets (unitEdges (units js) js)) u.id v.id ↔ UnitNeeds js u v := by
  rw [Edge, mem_targets, mem_unitEdges h hu hv]
  exact ⟨fun ⟨hne, hr⟩ => ⟨hu, hv, hne, hr⟩, fun ⟨_, _, hne, hr⟩ => ⟨hne, hr⟩⟩

theorem transGen_ids {id : String} (path : TransGen (Edge (targets (unitEdges (units js) js))) u.id id) :
    ∃ v ∈ units js, v.id = id ∧ TransGen (UnitNeeds js) u v := by
  have target : ∀ {a b}, Edge (targets (unitEdges (units js) js)) a b → ∃ v ∈ units js, v.id = b := by
    intro a b hab
    exact mem_map.mp (mem_ids_of_mem_unitEdges h (mem_targets.mp hab)).2
  induction path with
  | single hab =>
    obtain ⟨v, hv, rfl⟩ := target hab
    exact ⟨v, hv, rfl, .single ((edge_iff h hu hv).mp hab)⟩
  | tail _ hbc ih =>
    obtain ⟨v, hv, rfl, huv⟩ := ih
    obtain ⟨w, hw, rfl⟩ := target hbc
    exact ⟨w, hw, rfl, .tail huv ((edge_iff h hv hw).mp hbc)⟩

omit hu in
theorem component_of_acyclic (hc : c ∈ unitComponents js) (hu : u ∈ units js) (hid : u.id ∈ c)
    (acyclic : ¬ TransGen (UnitNeeds js) u u) : c = [u.id] := by
  refine component_eq_singleton (areComponents_units h) hc hid fun path => ?_
  obtain ⟨v, hv, e, huv⟩ := transGen_ids h hu path
  exact acyclic (eq_of_id h hv hu e ▸ huv)

theorem acyclic_of_component (hc : [u.id] ∈ unitComponents js) : ¬ TransGen (UnitNeeds js) u u := by
  intro path
  obtain ⟨v, huv, hvu⟩ := TransGen.head'_iff.mp path
  have hv := huv.2.1
  have ids : ∀ {a b}, UnitNeeds js a b → Edge (targets (unitEdges (units js) js)) a.id b.id :=
    fun hab => (edge_iff h hab.1 hab.2.1).mpr hab
  -- the path leaves the unit and comes back, so its next unit is of the same component
  have hmem : v.id ∈ [u.id] := ((areComponents_units h).mem_iff _ hc u.id (mem_singleton_self _)
    v.id).mpr ⟨Reach.edge (ids huv), ReflTransGen.lift Batch.id (fun _ _ => ids) _ _ hvu⟩
  exact huv.2.2.1 (eq_of_id h hv hu (mem_singleton.mp hmem)).symm

theorem jobsOf_singleton : jobsOf js [u.id] = u.jobs := by simp [jobsOf, members, find?_id h hu]

theorem componentSteps_alone :
    componentSteps (units js) js [u.id] = if u.isGroup then [.group u.jobs] else u.jobs.map .cell := by
  rw [componentSteps]
  simp only [members, filterMap_cons, find?_id h hu, filterMap_nil]

theorem block_alone : block js [u.id] = (Step.group u.jobs).evaluation := by
  rw [block, componentSteps_alone h hu]
  split
  · exact flatMap_singleton _ _
  · next hg =>
    have hperm : (Step.group u.jobs).evaluation ~ u.jobs := (Step.group u.jobs).evaluation_perm
    match hjs : u.jobs, (fun hle => hg (decide_eq_true hle) : ¬ 2 ≤ u.jobs.length) with
    | [], _ => rw [hjs] at hperm; exact hperm.symm.nil_eq
    | [i], _ => rw [hjs] at hperm; exact (perm_singleton.1 hperm).symm
    | _ :: _ :: _, hlen => simp at hlen

omit hu

theorem mem_of_mem_jobsOf (hj : j ∈ jobsOf js c) : j ∈ js := by
  obtain ⟨u, hu, hju⟩ := mem_flatMap.1 hj
  exact (mem_units_iff h).2 ⟨u, ((mem_members h).1 hu).1, hju⟩

variable (hc : c ∈ unitComponents js)

include hc

theorem exists_unit (hone : c.length = 1) : ∃ u ∈ units js, c = [u.id] := by
  obtain ⟨id, rfl⟩ := length_eq_one_iff.1 hone
  obtain ⟨u, hu, rfl⟩ := mem_map.1 (((areComponents_units h).mem_flatten id).1
    (mem_flatten.2 ⟨[id], hc, mem_singleton_self id⟩))
  exact ⟨u, hu, rfl⟩

theorem componentSteps_several (several : c.length ≠ 1) :
    componentSteps (units js) js c = loosened (jobsOf js c) js := by
  rw [componentSteps]
  split
  · next u hm =>
    have := congrArg length (map_id_members h hc)
    rw [hm] at this
    exact absurd this.symm several
  · rfl

theorem block_several (several : c.length ≠ 1) : block js c = (loosened (jobsOf js c) js).flatMap Step.evaluation := by
  rw [block, componentSteps_several h hc several]

/-- Inside a component that is no group by itself, cells without a cycle are in order. -/
theorem pair_sublist_block (acyclic : ∀ n, ¬ TransGen (CellNeeds js) n n)
    (groups : ∀ u ∈ units js, c = [u.id] → u.isGroup →
      ∀ j ∈ u.jobs, ∀ d ∈ u.jobs, d.name ∈ j.needs → [d, j] <+ (Step.group u.jobs).evaluation) {d : Job}
    (hd : d ∈ block js c) (hj : j ∈ block js c) (hneeds : d.name ∈ j.needs) : [d, j] <+ block js c := by
  have hd := (block_perm h hc).mem_iff.mp hd
  have hj := (block_perm h hc).mem_iff.mp hj
  by_cases hone : c.length = 1
  · obtain ⟨u, hu, rfl⟩ := exists_unit h hc hone
    rw [jobsOf_singleton h hu] at hd hj
    rw [block_alone h hu]
    by_cases hg : u.isGroup
    · exact groups u hu rfl hg j hj d hd hneeds
    · -- a formula by itself would need itself
      obtain rfl := eq_of_not_isGroup hg hd hj
      have hjs : d ∈ js := (mem_units_iff h).mpr ⟨u, hu, hd⟩
      exact absurd (.single ⟨d, hjs, rfl, hneeds, d, hjs, rfl⟩) (acyclic d.name)
  · rw [block_several h hc hone]
    exact pair_sublist_loosened (nodup_members h hc) (fun i => mem_of_mem_jobsOf h) hd hj hneeds
      fun ⟨m, _, cycle⟩ => acyclic m cycle

end Units

/-- Formulas of distinct cells are evaluated each once, and each after those that it needs exactly if
the cells have no cycle and, in every group that is on no cycle of units, formulas need only cells of
the group that the loop has already passed. -/
theorem evaluation_after_needs_iff (sheets : List (String × List Record)) (js : List Job)
    (hjobs : jobs sheets = .ok js) (hgroups : checkGroups js = .ok ⟨⟩) (h : Listed js) :
    ∃ plan, evaluationOrder sheets = .ok plan ∧ plan.flatMap Step.evaluation ~ js ∧
      ((∀ j ∈ js, ∀ d ∈ js, d.name ∈ j.needs → [d, j] <+ plan.flatMap Step.evaluation) ↔
        (∀ n, ¬ TransGen (CellNeeds js) n n) ∧
        ∀ u ∈ units js, u.isGroup → ¬ TransGen (UnitNeeds js) u u → ∀ j ∈ u.jobs, ∀ d ∈ u.jobs, d.name ∈ j.needs →
            [d, j] <+ (Step.group u.jobs).evaluation) := by
  have hc := areComponents_units h
  have he : ∀ e ∈ unitEdges (units js) js, _ := fun e => mem_ids_of_mem_unitEdges h
  have perm := evaluation_steps_perm h
  have hn : ((steps js).flatMap Step.evaluation).Nodup := perm.nodup_iff.mpr h.nodup_jobs
  refine ⟨steps js, ?_, perm, fun hneeds => ⟨not_transGen_of_pair_sublist ((perm.map Job.name).nodup_iff.2 h.nodup) ?_,
    ?_⟩, ?_⟩
  · exact evaluationOrder_eq hjobs hgroups
  · rintro m n ⟨j, hj, rfl, hm, d, hd, rfl⟩
    exact (hneeds j hj d hd hm).map Job.name
  · intro u hu hg acyclic j hj d hd hneed
    obtain ⟨c, hcm, hid⟩ := exists_component h hu
    have hdj := hneeds j ((mem_units_iff h).mpr ⟨u, hu, hj⟩) d ((mem_units_iff h).mpr ⟨u, hu, hd⟩) hneed
    rw [evaluation_steps] at hdj hn
    rw [← block_alone h hu, ← component_of_acyclic h hcm hu hid acyclic]
    exact (pair_sublist_flatMap_iff hn ((components_perm h).mem_iff.mpr hcm)
      (mem_block h hcm hu hid hd) (mem_block h hcm hu hid hj)).mp hdj
  · rintro ⟨acyclic, groups⟩ j hj d hd hneed
    obtain ⟨v, hv, hjv⟩ := (mem_units_iff h).mp hj
    obtain ⟨u, hu, hdu⟩ := (mem_units_iff h).mp hd
    obtain ⟨cv, hcv, hidv⟩ := exists_component h hv
    obtain ⟨cu, hcu, hidu⟩ := exists_component h hu
    have hdb := mem_block h hcu hu hidu hdu
    have hjb := mem_block h hcv hv hidv hjv
    rw [evaluation_steps]
    by_cases e : cu = cv
    · subst e
      have inside : [d, j] <+ block js cu := by
        refine pair_sublist_block h hcu acyclic ?_ hdb hjb hneed
        rintro w hw rfl hg
        exact groups w hw hg (acyclic_of_component h hw hcu)
      exact inside.trans (sublist_flatten_of_mem (mem_map_of_mem ((components_perm h).mem_iff.mpr hcu)))
    · have hne : u ≠ v := by
        rintro rfl
        exact e (hc.eq_of_mem hcu hcv hidu hidv)
      have edge := (mem_unitEdges h hu hv).mpr ⟨hne, j, hjv, d, hdu, hneed⟩
      exact pair_sublist_flatMap (pair_sublist_components hc he edge hcu hcv hidu hidv e) hdb hjb

/-- The row of a report for a formula of a group that runs down the first column. -/
def columnRow (cell : String) (row : Int) (formula references : String) : Record where
  fields := ["Cell", "Row", "Col", "Type", "Formula", "References", "GroupID", "GroupDirection"].map .text
  values := [.text cell, .int row, .int 1, .text "Calculation", .text formula, .text references, .int 1, .text "col"]

/-- Two formulas of a group, each of which reads the cell below it. -/
def upwardJobs : List Job :=
  [⟨⟨"S", "A1"⟩, [⟨"S", "A2"⟩], some "1", columnRow "A1" 1 "=A2" "A2"⟩,
    ⟨⟨"S", "A2"⟩, [⟨"S", "A3"⟩], some "1", columnRow "A2" 2 "=A3" "A3"⟩]

theorem units_upwardJobs : units upwardJobs = [⟨"g1", upwardJobs⟩] := rfl

theorem cellNeeds_upwardJobs {m n : CellName} (h : CellNeeds upwardJobs m n) : m = ⟨"S", "A2"⟩ ∧ n = ⟨"S", "A1"⟩ := by
  obtain ⟨j, hj, rfl, hm, d, hd, rfl⟩ := h
  simp only [upwardJobs, mem_cons, not_mem_nil, or_false] at hj hd
  rcases hj with rfl | rfl <;> rcases hd with rfl | rfl <;> simp_all

/-- Their loop runs down the column and computes the upper cell before the lower one. -/
theorem evaluation_upwardJobs :
    let sheets := [("S", [columnRow "A1" 1 "=A2" "A2", columnRow "A2" 2 "=A3" "A3"])]
    jobs sheets = .ok upwardJobs ∧ Listed upwardJobs ∧ (∀ n, ¬ TransGen (CellNeeds upwardJobs) n n) ∧
      ∃ plan, evaluationOrder sheets = .ok plan ∧ plan.flatMap Step.evaluation ~ upwardJobs ∧
        ¬ ∀ j ∈ upwardJobs, ∀ d ∈ upwardJobs, d.name ∈ j.needs → [d, j] <+ plan.flatMap Step.evaluation := by
  intro sheets
  have hjobs : jobs sheets = .ok upwardJobs := rfl
  have listed : Listed upwardJobs := ⟨by decide, by
    intro j hj
    rcases mem_pair.1 hj with rfl | rfl <;> decide⟩
  have acyclic : ∀ n, ¬ TransGen (CellNeeds upwardJobs) n n :=
    not_transGen_of_sides fun h => ⟨(cellNeeds_upwardJobs h).1, (cellNeeds_upwardJobs h).2 ▸ by decide⟩
  obtain ⟨plan, hplan, perm, order⟩ := evaluation_after_needs_iff sheets upwardJobs hjobs rfl listed
  refine ⟨hjobs, listed, acyclic, plan, hplan, perm, fun hneeds => ?_⟩
  have alone := not_transGen_of_singleton units_upwardJobs
  have forwards := (order.mp hneeds).2 ⟨"g1", upwardJobs⟩ (by rw [units_upwardJobs]; simp) rfl alone
    _ mem_cons_self _ (mem_cons_of_mem _ mem_cons_self) mem_cons_self
  have sorted : (Step.group upwardJobs).evaluation = upwardJobs :=
    mergeSort_of_pairwise (by decide)
  rw [sorted] at forwards
  exact pair_sublist_asymm listed.nodup_jobs forwards (Sublist.refl _)

/-! The plan -/

/-- A formula that depends on no cycle is in a later step than one that it needs, or in one group with it. -/
theorem exists_steps_of_needs (h : Listed js) {p q : Job} (hp : p ∈ js) (hq : q ∈ js)
    (hneed : q.name ∈ p.needs) (free : ¬ DependsOnCycle js p.name) :
    (∃ s t, [s, t] <+ steps js ∧ q ∈ s.jobs ∧ p ∈ t.jobs) ∨ ∃ g, .group g ∈ steps js ∧ q ∈ g ∧ p ∈ g := by
  have hc := areComponents_units h
  have step : ∀ {c j}, c ∈ unitComponents js → j ∈ jobsOf js c → ∃ s ∈ componentSteps (units js) js c, j ∈ s.jobs := by
    intro c j hcm hj
    obtain ⟨s, hs, hjs⟩ := mem_flatMap.1 ((block_perm h hcm).mem_iff.2 hj)
    exact ⟨s, hs, s.evaluation_perm.mem_iff.1 hjs⟩
  obtain ⟨c, hcm, hqc⟩ := exists_jobsOf h hq
  obtain ⟨e, hem, hpe⟩ := exists_jobsOf h hp
  by_cases hce : c = e
  · subst hce
    have inside : componentSteps (units js) js c <+ steps js :=
      sublist_flatten_of_mem (mem_map_of_mem ((components_perm h).mem_iff.2 hcm))
    by_cases hone : c.length = 1
    · obtain ⟨u, hu, rfl⟩ := exists_unit h hcm hone
      rw [jobsOf_singleton h hu] at hqc hpe
      rw [componentSteps_alone h hu] at inside
      by_cases hg : u.isGroup
      · rw [if_pos hg] at inside
        exact .inr ⟨u.jobs, inside.subset mem_cons_self, hqc, hpe⟩
      · obtain rfl := eq_of_not_isGroup hg hqc hpe
        exact absurd ⟨q.name, .refl, .single ⟨q, hq, rfl, hneed, q, hq, rfl⟩⟩ free
    · have hqp := pair_sublist_loosened (nodup_members h hcm) (fun i => mem_of_mem_jobsOf h) hqc hpe hneed free
      rw [evaluation_loosened] at hqp
      rw [componentSteps_several h hcm hone, loosened_eq] at inside
      exact .inl ⟨.cell q, .cell p, (hqp.map Step.cell).trans inside, mem_cons_self, mem_cons_self⟩
  · obtain ⟨u, hu, hqu⟩ := mem_flatMap.1 hqc
    obtain ⟨v, hv, hpv⟩ := mem_flatMap.1 hpe
    obtain ⟨hu, huc⟩ := (mem_members h).1 hu
    obtain ⟨hv, hve⟩ := (mem_members h).1 hv
    have hne : u ≠ v := by
      rintro rfl
      exact hce (hc.eq_of_mem hcm hem huc hve)
    have edge := (mem_unitEdges h hu hv).2 ⟨hne, p, hpv, q, hqu, hneed⟩
    have order := pair_sublist_components hc (fun _ => mem_ids_of_mem_unitEdges h) edge hcm hem huc hve hce
    obtain ⟨s, hs, hqs⟩ := step hcm hqc
    obtain ⟨t, ht, hpt⟩ := step hem hpe
    exact .inl ⟨s, t, pair_sublist_flatMap order hs ht, hqs, hpt⟩

/-- The mark that ends the name of a sheet is the first one, so a name of a sheet that has it is cut short. -/
theorem ofText_eq_iff (own : String) (n : CellName) :
    ofText own (n.sheet ++ "!" ++ n.cell) = n ↔ '!' ∉ n.sheet.toList := by
  have read : ∀ {a b : List Char}, '!' ∉ a → n.sheet.toList ++ '!' :: n.cell.toList = a ++ '!' :: b →
      ofText own (n.sheet ++ "!" ++ n.cell) = ⟨String.ofList a, String.ofList b⟩ := by
    intro a b ha e
    have chars : (n.sheet ++ "!" ++ n.cell).toList = a ++ '!' :: b := by simpa using e
    rw [ofText, Text.cut?, chars, show "!".toList = ['!'] from rfl, Text.cutL?_singleton ha]
    rfl
  constructor
  · intro hn hmark
    obtain ⟨a, b, e, ha⟩ := eq_append_cons_of_mem hmark
    rw [read ha (b := b ++ '!' :: n.cell.toList) (by rw [e]; simp)] at hn
    have hs := congrArg (·.sheet.toList) hn
    simp only [String.toList_ofList] at hs
    exact ha (hs ▸ hmark)
  · intro hmark
    rw [read hmark rfl, String.ofList_toList, String.ofList_toList]

/-- Every formula is in the plan once, by itself or in one group. A formula that depends on no cycle comes after each one
that it needs, unless both are of one group. What a formula needs is read from names of sheets and cells, which are read
as they are meant exactly if the sheet's name has no mark of its own. -/
theorem plan_orders_needs (sheets : List (String × List Record)) (js : List Job)
    (hjobs : jobs sheets = .ok js) (hgroups : checkGroups js = .ok ⟨⟩) (h : Listed js) :
    (∃ plan, evaluationOrder sheets = .ok plan ∧ plan.flatMap Step.jobs ~ js ∧
      ∀ p ∈ js, ¬ DependsOnCycle js p.name → ∀ q ∈ js, q.name ∈ p.needs →
        (∃ s t, [s, t] <+ plan ∧ q ∈ s.jobs ∧ p ∈ t.jobs) ∨ ∃ g, .group g ∈ plan ∧ q ∈ g ∧ p ∈ g) ∧
      ∀ (own : String) (n : CellName), ofText own (n.sheet ++ "!" ++ n.cell) = n ↔ '!' ∉ n.sheet.toList := by
  refine ⟨⟨steps js, evaluationOrder_eq hjobs hgroups, ?_, fun p hp free q hq hneed =>
    exists_steps_of_needs h hp hq hneed free⟩, ofText_eq_iff⟩
  exact (Perm.flatMap_left _ fun s _ => s.evaluation_perm.symm).trans (evaluation_steps_perm h)

/-- The row of a report for a single formula. -/
def formulaRow (cell formula references : String) : Record where
  fields := ["Cell", "Type", "Formula", "References"].map .text
  values := [.text cell, .text "Calculation", .text formula, .text references]

/-- A formula and one that it needs, on a sheet whose name has no mark and on one whose name has. -/
def markedJobs : List Job :=
  [⟨⟨"S", "A1"⟩, [⟨"S", "B1"⟩], none, formulaRow "A1" "=B1" "S!B1"⟩, ⟨⟨"S", "B1"⟩, [], none, formulaRow "B1" "=5" ""⟩,
    ⟨⟨"a!b", "A1"⟩, [⟨"a", "b!B1"⟩], none, formulaRow "A1" "=B1" "a!b!B1"⟩,
    ⟨⟨"a!b", "B1"⟩, [], none, formulaRow "B1" "=5" ""⟩]

/-- The first formula comes after the one that it needs; what the other one needs is not found. -/
theorem plan_orders_needs_marked :
    let sheets := ["S", "a!b"].map fun s => (s, [formulaRow "A1" "=B1" (s ++ "!B1"), formulaRow "B1" "=5" ""])
    jobs sheets = .ok markedJobs ∧ Listed markedJobs ∧ ¬ DependsOnCycle markedJobs ⟨"S", "A1"⟩ ∧
      (∃ plan, evaluationOrder sheets = .ok plan ∧ plan.flatMap Step.jobs ~ markedJobs ∧
        ((∃ s t, [s, t] <+ plan ∧ markedJobs[1] ∈ s.jobs ∧ markedJobs[0] ∈ t.jobs) ∨
          ∃ g, .group g ∈ plan ∧ markedJobs[1] ∈ g ∧ markedJobs[0] ∈ g)) ∧
      ofText "a!b" "a!b!B1" ≠ ⟨"a!b", "B1"⟩ := by
  intro sheets
  have hjobs : jobs sheets = .ok markedJobs := rfl
  have listed : Listed markedJobs := ⟨by decide, by decide⟩
  have free : ¬ DependsOnCycle markedJobs ⟨"S", "A1"⟩ := by
    rintro ⟨m, -, cycle⟩
    refine not_transGen_of_sides (P := (·.cell = "B1")) ?_ m cycle
    rintro _ _ ⟨j, hj, rfl, hneed, d, hd, rfl⟩
    revert j d
    decide
  obtain ⟨⟨plan, hplan, once, order⟩, reads⟩ := plan_orders_needs sheets markedJobs hjobs rfl listed
  refine ⟨hjobs, listed, free, ⟨plan, hplan, once, order _ (by simp) free _ (by simp) (by decide)⟩, ?_⟩
  exact fun hread => absurd ((reads "a!b" ⟨"a!b", "B1"⟩).1 hread) (by decide)

end Sheetwork.Plan
