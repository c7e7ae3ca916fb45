import Sheetwork.Proofs.Graph.Queue
import Sheetwork.Proofs.Plan.Evaluation
/-
  Plans: formulas that use defined names. The order of evaluation knows the references of a row alone, so a name in a
  formula makes no edge. What decides between two formulas is known all the same (`Ahead`): components of units are
  taken in turns (`numbered_condensed`), a group by itself in the order of its loop, and the formulas of a component
  of several units in turns of their own (`numbered_cellEdges`). Main statement: `evaluation_after_names_iff`.
-/

open List

namespace Sheetwork.Plan

open Relation Graph Graph.Components Step
open Ordered (ascending_ofList ofList)
open Std.OrientedCmp (not_lt_of_lt)

/-! Turns -/

/-- The components of units take turns in the order in which they were found. -/
def componentTurns (js : List Job) : Turns (List String) where
  needs c e := c ∈ unitComponents js ∧ e ∈ unitComponents js ∧ c ≠ e ∧ ∃ p ∈ unitEdges (units js) js, p.1 ∈ c ∧ p.2 ∈ e
  first c e := [c, e] <+ unitComponents js
  among _ c e := [c, e] <+ unitComponents js

/-- Single cells take turns in ascending order. -/
def cellTurns (js : List Job) (names : List CellName) : Turns CellName where
  needs m n := m ∈ names ∧ n ∈ names ∧ m ≠ n ∧ ∃ j ∈ js, j.name = n ∧ m ∈ j.needs
  first m n := compare m n = .lt
  among _ m n := compare m n = .lt

theorem pairwise_condensed {α : Type} [DecidableEq α] (comps : List (List α)) (edges : List (α × α)) :
    (condensed comps edges).Pairwise fun e f => e.1 = f.1 → e.2 < f.2 := by
  refine pairwise_flatMap.2 ⟨fun i _ => ?_, ?_⟩
  · refine pairwise_map.2 ((ascending_ofList _).imp fun {k m} h _ => ?_)
    exact Nat.compare_eq_lt.1 h
  · refine pairwise_lt_range.imp fun {i k} hik e he f hf hef => ?_
    obtain ⟨_, -, rfl⟩ := mem_map.1 he
    obtain ⟨_, -, rfl⟩ := mem_map.1 hf
    exact absurd hef (Nat.ne_of_lt hik)

theorem pairwise_cellEdges (all : List Job) (names : List CellName) :
    (cellEdges all names).Pairwise fun e f => e.1 = f.1 → e.2 < f.2 := by
  refine pairwise_flatMap.2 ⟨fun x _ => ?_, ?_⟩
  · refine pairwise_map.2 ?_
    have distinct : (((((all.filter (·.name = x.1)).flatMap Job.needs).filter (· ≠ x.1)).eraseDups).filterMap
        (names.idxOf? ·)).Nodup := by
      refine (nodup_eraseDups _).filterMap fun m m' k hm hm' => ?_
      obtain ⟨hk, e, -⟩ := idxOf?_eq_some_iff.1 hm
      obtain ⟨_, e', -⟩ := idxOf?_eq_some_iff.1 hm'
      exact e.symm.trans e'
    exact distinct.imp fun hne h => absurd h hne
  · refine (pairwise_zipIdx names 0).imp fun {x y} hxy e he f hf _ => ?_
    obtain ⟨_, -, rfl⟩ := mem_map.1 he
    obtain ⟨_, -, rfl⟩ := mem_map.1 hf
    exact hxy

section

variable {js : List Job} (h : Listed js)

include h

theorem numbered_condensed :
    Numbered (componentTurns js) (unitComponents js) (condensed (unitComponents js) (unitEdges (units js) js)) := by
  have listed : (unitComponents js).Pairwise fun c e => [c, e] <+ unitComponents js := pairwise_iff_forall_sublist.2 id
  exact ⟨encodes_condensed (areComponents_units h) fun e => mem_ids_of_mem_unitEdges h,
    (areComponents_units h).nodup_components, listed,
    fun _ _ hs _ => among_of_ascending listed (pairwise_condensed _ _) hs⟩

omit h in
theorem numbered_cellEdges (all : List Job) (names : List CellName) :
    Numbered (cellTurns all (ofList names)) (ofList names) (cellEdges all (ofList names)) :=
  ⟨encodes_cellEdges all names, Ordered.nodup_ofList names, ascending_ofList names,
    fun _ _ hs _ => among_of_ascending (ascending_ofList names) (pairwise_cellEdges _ _) hs⟩

end

/-! Which of two formulas is evaluated first -/

/-- A formula is evaluated before another one: its component has the earlier turn, or the loop of their group
passes it first, or, where units need one another, its cell has the earlier turn. -/
inductive Ahead (js : List Job) (d j : Job) : Prop
  | apart {c e : List String} (hc : c ∈ unitComponents js) (he : e ∈ unitComponents js) (hne : c ≠ e)
      (hd : d ∈ jobsOf js c) (hj : j ∈ jobsOf js e) (h : Sooner (componentTurns js) c e)
  | looped {u : Batch} (hu : u ∈ units js) (hc : [u.id] ∈ unitComponents js) (h : [d, j] <+ (group u.jobs).evaluation)
  | loose {c : List String} (hc : c ∈ unitComponents js) (several : c.length ≠ 1)
      (hd : d ∈ jobsOf js c) (hj : j ∈ jobsOf js c)
      (h : Sooner (cellTurns js (ofList ((jobsOf js c).map Job.name))) d.name j.name)

section

variable {js : List Job} (h : Listed js)

include h

variable {c : List String} {j d : Job}

theorem pair_sublist_several_iff (hc : c ∈ unitComponents js) (acyclic : ∀ n, ¬ TransGen (CellNeeds js) n n)
    (hd : d ∈ jobsOf js c) (hj : j ∈ jobsOf js c) : [d, j] <+ (loosened (jobsOf js c) js).flatMap evaluation ↔
      Sooner (cellTurns js (ofList ((jobsOf js c).map Job.name))) d.name j.name := by
  have numbered := numbered_cellEdges js ((jobsOf js c).map Job.name)
  have mem : ∀ {i}, i ∈ jobsOf js c → i.name ∈ ofList ((jobsOf js c).map Job.name) := fun hi =>
    Ordered.mem_ofList.2 (mem_map_of_mem hi)
  have acc : ∀ {n}, n ∈ ofList ((jobsOf js c).map Job.name) →
      Acc (cellTurns js (ofList ((jobsOf js c).map Job.name))).needs n :=
    numbered.acc_of_acyclic (NameNeeds.cellNeeds fun i => mem_of_mem_jobsOf h) acyclic
  have turns := pair_sublist_ordered_iff numbered not_lt_of_lt not_lt_of_lt (mem hd) (mem hj)
  simp only [acc (mem hd), acc (mem hj), true_and, forall_const, not_true_eq_false, false_and, or_false] at turns
  exact (pair_sublist_loosened_iff (nodup_members h hc) hd hj).trans turns

theorem pair_sublist_evaluation_iff (acyclic : ∀ n, ¬ TransGen (CellNeeds js) n n) (hd : d ∈ js) (hj : j ∈ js) :
    [d, j] <+ (steps js).flatMap evaluation ↔ Ahead js d j := by
  have hc := areComponents_units h
  have he : ∀ e ∈ unitEdges (units js) js, _ := fun e => mem_ids_of_mem_unitEdges h
  have hn : ((steps js).flatMap evaluation).Nodup := (evaluation_steps_perm h).nodup_iff.2 h.nodup_jobs
  have listed : ∀ {c}, c ∈ unitComponents js → c ∈ unitOrder js := fun hc => (components_perm h).mem_iff.2 hc
  have turns : ∀ {c e}, c ∈ unitComponents js → e ∈ unitComponents js →
      ([c, e] <+ unitOrder js ↔ Sooner (componentTurns js) c e) := by
    intro c e hcm hem
    have asymm : ∀ {c e}, [c, e] <+ unitComponents js → ¬ [e, c] <+ unitComponents js :=
      pair_sublist_asymm hc.nodup_components
    have acc : ∀ {c}, c ∈ unitComponents js → Acc (componentTurns js).needs c := acc_componentNeeds hc he
    refine (pair_sublist_ordered_iff (numbered_condensed h) asymm asymm hcm hem).trans ?_
    simp only [acc hcm, acc hem, true_and, forall_const, not_true_eq_false, false_and, or_false]
  obtain ⟨c, hcm, hdc⟩ := exists_jobsOf h hd
  obtain ⟨e, hem, hje⟩ := exists_jobsOf h hj
  rw [evaluation_steps] at hn ⊢
  have hdb := (block_perm h hcm).mem_iff.2 hdc
  have hjb := (block_perm h hem).mem_iff.2 hje
  constructor
  · intro hdj
    by_cases hce : c = e
    · subst hce
      have inside := (pair_sublist_flatMap_iff hn (listed hcm) hdb hjb).1 hdj
      by_cases hone : c.length = 1
      · obtain ⟨u, hu, rfl⟩ := exists_unit h hcm hone
        rw [block_alone h hu] at inside
        exact .looped hu hcm inside
      · rw [block_several h hcm hone] at inside
        exact .loose hcm hone hdc hje ((pair_sublist_several_iff h hcm acyclic hdc hje).1 inside)
    · refine .apart hcm hem hce hdc hje ((turns hcm hem).1 ?_)
      exact pair_sublist_of_flatMap hn (listed hcm) (listed hem) hce hdb hjb hdj
  · intro ahead
    cases ahead with
    | @apart c' e' hc' he' hne hd' hj' hturn =>
      refine pair_sublist_flatMap ((turns hc' he').2 hturn) ?_ ?_
      · exact (block_perm h hc').mem_iff.2 hd'
      · exact (block_perm h he').mem_iff.2 hj'
    | looped hu hone hloop =>
      rw [← block_alone h hu] at hloop
      exact hloop.trans (sublist_flatten_of_mem (mem_map_of_mem (listed hone)))
    | loose hc' several hd' hj' hturn =>
      have inside := (pair_sublist_several_iff h hc' acyclic hd' hj').2 hturn
      rw [← block_several h hc' several] at inside
      exact inside.trans (sublist_flatten_of_mem (mem_map_of_mem (listed hc')))

end

/-! Names -/

/-- The definition of a name refers to one cell and nothing else. -/
def Denotes (definition : String) (n : CellName) : Prop :=
  (referredCells ("=" ++ definition) n.sheet).map (fun (s, p) => CellName.mk s p.address) = [n]

variable (names : List (String × String))

/-- A formula has a name in it that denotes the cell of another one. -/
def UsesName (j d : Job) : Prop :=
  ∃ f, j.record.get "Formula" = .text f ∧
    ∃ def_ ∈ names, ((wholeName def_.1).search? (Text.drop 1 f)).isSome ∧ Denotes def_.2 d.name

/-- The values that flow from one cell to another, names included. -/
def Feeds (js : List Job) (m n : CellName) : Prop :=
  ∃ j ∈ js, j.name = n ∧ ∃ d ∈ js, d.name = m ∧ (m ∈ j.needs ∨ UsesName names j d)

theorem acyclic_of_feeds {names : List (String × String)} {js : List Job}
    (acyclic : ∀ n, ¬ TransGen (Feeds names js) n n) (n : CellName) : ¬ TransGen (CellNeeds js) n n := by
  intro path
  refine acyclic n (TransGen.mono (fun m k hmk => ?_) n n path)
  obtain ⟨j, hj, e, hneeds, d, hd, e'⟩ := hmk
  exact ⟨j, hj, e, d, hd, e', .inl hneeds⟩

/-- A plan evaluates every formula once. If no cell depends on itself through references and names, a formula that
uses the name of a cell is evaluated after the formula of that cell exactly if this formula is ahead, which
references, the order of the rows and loops decide and names do not. -/
theorem evaluation_after_names_iff (l : Listing) (js : List Job) (hjobs : jobs l.sheets = .ok js)
    (hgroups : checkGroups js = .ok ⟨⟩) (h : Listed js) (acyclic : ∀ n, ¬ TransGen (Feeds l.names js) n n) :
    ∃ plan, evaluationOrder l.sheets = .ok plan ∧ plan.flatMap evaluation ~ js ∧
      ∀ j ∈ js, ∀ d ∈ js, UsesName l.names j d → ([d, j] <+ plan.flatMap evaluation ↔ Ahead js d j) := by
  refine ⟨steps js, ?_, evaluation_steps_perm h, fun j hj d hd _ => ?_⟩
  · exact evaluationOrder_eq hjobs hgroups
  · exact pair_sublist_evaluation_iff h (acyclic_of_feeds acyclic) hd hj

/-- A formula that uses the name of a cell behind it. -/
def totalListing : Listing where
  sheets := [("S", [formulaRow "A1" "=Total" "", formulaRow "B1" "=C1*2" "S!C1"])]
  names := [("Total", "S!$B$1")]

def totalUse : Job := ⟨⟨"S", "A1"⟩, [], none, formulaRow "A1" "=Total" ""⟩

def totalCell : Job := ⟨⟨"S", "B1"⟩, [⟨"S", "C1"⟩], none, formulaRow "B1" "=C1*2" "S!C1"⟩

theorem denotes_total {n : CellName} (hs : n.sheet = "S") : Denotes "S!$B$1" n ↔ n = ⟨"S", "B1"⟩ := by
  have e : (referredCells ("=" ++ "S!$B$1") "S").map (fun (s, p) => CellName.mk s p.address) = [⟨"S", "B1"⟩] := by
    decide +kernel
  rw [Denotes, hs, e, cons.injEq, and_iff_left rfl]
  exact eq_comm

theorem feeds_total {m n : CellName} (h : Feeds totalListing.names [totalUse, totalCell] m n) :
    m = ⟨"S", "B1"⟩ ∧ n = ⟨"S", "A1"⟩ := by
  obtain ⟨j, hj, rfl, d, hd, rfl, h⟩ := h
  have sheet : d.name.sheet = "S" := by rcases mem_pair.1 hd with rfl | rfl <;> rfl
  rcases mem_pair.1 hj with rfl | rfl
  · rcases h with h | ⟨f, -, def_, hdef, -, hcell⟩
    · cases h
    · obtain rfl := mem_singleton.1 hdef
      exact ⟨(denotes_total sheet).1 hcell, rfl⟩
  · rcases h with h | ⟨f, hf, def_, hdef, hfound, -⟩
    · rcases mem_pair.1 hd with rfl | rfl <;> exact absurd h (by decide)
    · obtain rfl := mem_singleton.1 hdef
      obtain rfl : "=C1*2" = f := Value.text.inj hf
      cases hfound

/-- Neither formula needs the other, so the cells are taken as they are listed. -/
theorem not_ahead_total (h : Listed [totalUse, totalCell])
    (acyclic : ∀ n, ¬ TransGen (Feeds totalListing.names [totalUse, totalCell]) n n) :
    ¬ Ahead [totalUse, totalCell] totalCell totalUse := by
  have hsteps : steps [totalUse, totalCell] = [.cell totalUse, .cell totalCell] := by cbv
  rw [← pair_sublist_evaluation_iff h (acyclic_of_feeds acyclic) (by simp) (by simp), hsteps]
  intro hs
  have e : totalCell = totalUse := (cons.inj (hs.eq_of_length rfl)).1
  exact absurd (congrArg Job.name e) (by decide)

/-- The use of the name is evaluated first. -/
theorem evaluation_total : jobs totalListing.sheets = .ok [totalUse, totalCell] ∧ Listed [totalUse, totalCell] ∧
    UsesName totalListing.names totalUse totalCell ∧
    (∀ n, ¬ TransGen (Feeds totalListing.names [totalUse, totalCell]) n n) ∧
    ∃ plan, evaluationOrder totalListing.sheets = .ok plan ∧ plan.flatMap evaluation ~ [totalUse, totalCell] ∧
      ¬ [totalCell, totalUse] <+ plan.flatMap evaluation := by
  have hjobs : jobs totalListing.sheets = .ok [totalUse, totalCell] := rfl
  have listed : Listed [totalUse, totalCell] := ⟨by decide, by
    intro j hj
    rcases mem_pair.1 hj with rfl | rfl <;> decide⟩
  have uses : UsesName totalListing.names totalUse totalCell :=
    ⟨"=Total", rfl, ("Total", "S!$B$1"), mem_singleton_self _, by decide +kernel, (denotes_total rfl).2 rfl⟩
  have acyclic : ∀ n, ¬ TransGen (Feeds totalListing.names [totalUse, totalCell]) n n :=
    not_transGen_of_sides fun h => ⟨(feeds_total h).1, (feeds_total h).2 ▸ by decide⟩
  obtain ⟨plan, hplan, perm, after⟩ := evaluation_after_names_iff totalListing _ hjobs rfl listed acyclic
  refine ⟨hjobs, listed, uses, acyclic, plan, hplan, perm, fun hbefore => ?_⟩
  exact not_ahead_total listed acyclic ((after totalUse (by simp) totalCell (by simp) uses).1 hbefore)

end Sheetwork.Plan
