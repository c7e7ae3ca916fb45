import Sheetwork.Plan.Expression
import Sheetwork.Plan.Report
import Sheetwork.Proofs.Vector.Partition
/-
  Plans: the cells that carry the number of a group. Every run is a stretch of cells along a row or down a column
  (`stretch_of_mem_formGroups`), and a cell counts to the longest run through it, to the first of those that are
  equally long (`best_memberships`). A run that loses a cell keeps its length, so a group is one stretch of the size
  that it says exactly if its run loses no cell, or all of them (`group_whole_iff`).
-/

open List

namespace Sheetwork.Plan

open Entry (ofSources buckets)

/-! Runs are stretches -/

def Place.onward (along : Axis) (p : Place) (n : Nat) : Place :=
  match along with
  | .row => { p with col := p.col + n }
  | .col => { p with row := p.row + n }

def stretch (along : Axis) (p : Place) (n : Nat) : List Place := (range n).map (p.onward along)

variable {along : Axis} {p : Place} {g : List Place} {ps : List Place}

theorem Place.onward_zero : p.onward along 0 = p := by cases along <;> rfl

theorem Place.onward_succ (p : Place) (n : Nat) : (p.onward along 1).onward along n = p.onward along (n + 1) := by
  cases along <;> simp [onward, Nat.add_assoc, Nat.add_comm 1]

theorem nodup_stretch (along : Axis) (p : Place) (n : Nat) : (stretch along p n).Nodup := by
  refine nodup_range.map fun i j h => ?_
  cases along <;> simpa [Place.onward] using h

theorem stretch_of_isChain (h : (p :: g).IsChain fun a b => b = a.onward along 1) :
    p :: g = stretch along p (g.length + 1) := by
  induction g generalizing p with
  | nil => simp [stretch, p.onward_zero]
  | cons q g ih =>
    obtain ⟨rfl, hchain⟩ := isChain_cons_cons.1 h
    rw [length_cons, ih hchain, stretch, stretch, range_succ_eq_map (n := g.length + 1), map_cons, map_map,
      p.onward_zero]
    exact congrArg _ (map_congr_left fun n _ => p.onward_succ n)

theorem stretch_of_mem_runsBy (along : Axis) {κ : Type} [DecidableEq κ] {key : Place → κ} {coordinate : Place → Nat}
    (hnext : ∀ a b, key a = key b → coordinate b = coordinate a + 1 → b = a.onward along 1)
    (hg : g ∈ runsBy key coordinate ps) : (∃ along p, g = stretch along p g.length) ∧ ∀ p ∈ g, p ∈ ps := by
  obtain ⟨hlong, hmem, hkey, hrun⟩ := Vector.of_mem_longRuns hg
  have hchain : g.IsChain fun a b => b = a.onward along 1 :=
    hrun.imp_of_mem_imp fun a c ha hc hac => hnext a c (hkey a ha c hc) (of_decide_eq_true hac)
  obtain ⟨p, g, rfl⟩ := exists_cons_of_length_pos (Nat.lt_of_lt_of_le Nat.two_pos hlong)
  exact ⟨⟨along, p, stretch_of_isChain hchain⟩, hmem⟩

theorem stretch_of_mem_formGroups {buckets : List (List Place)} (hg : g ∈ formGroups buckets) :
    (∃ along p, g = stretch along p g.length) ∧ ∃ ps ∈ buckets, ∀ p ∈ g, p ∈ ps := by
  obtain ⟨ps, hps, hg⟩ := mem_flatMap.1 hg
  have hps := mem_of_mem_filter hps
  refine And.imp_right (fun (hmem : ∀ p ∈ g, p ∈ Ordered.sortOn Place.position ps) =>
    ⟨ps, hps, fun p hp => mem_mergeSort.1 (hmem p hp)⟩) ?_
  rcases mem_append.1 hg with hg | hg
  · exact stretch_of_mem_runsBy .row (fun ⟨_, _, _⟩ ⟨_, _, _⟩ hkey hnext => by simp_all [Place.onward]) hg
  · exact stretch_of_mem_runsBy .col (fun ⟨_, _, _⟩ ⟨_, _, _⟩ hkey hnext => by simp_all [Place.onward]) hg

/-! The run that a cell counts to -/

/-- No run through the cell is longer, and none before it is as long. -/
def Leads (groups : List (List Place)) (i : Nat) (p : Place) : Prop :=
  ∃ g, groups[i]? = some g ∧ p ∈ g ∧ ∀ j h, groups[j]? = some h → p ∈ h →
    h.length < g.length ∨ h.length = g.length ∧ i ≤ j

variable {groups : List (List Place)} {i : Nat}

theorem Leads.unique {j : Nat} (hi : Leads groups i p) (hj : Leads groups j p) : i = j := by
  obtain ⟨g, hg, hpg, hfirst⟩ := hi
  obtain ⟨h, hh, hph, hfirst'⟩ := hj
  have := hfirst j h hh hph
  have := hfirst' i g hg hpg
  omega

/-- What is known of a cell after some groups. -/
def Best (groups : List (List Place)) (p : Place) : Option Membership → Prop
  | none => ∀ g ∈ groups, p ∉ g
  | some m => ∃ i g, Leads groups i p ∧ groups[i]? = some g ∧ m = ⟨i + 1, directionOf g, g.length⟩

theorem getElem?_claim (m : Membership) (best : Std.HashMap Place Membership) (q : Place) :
    (m.claim best g)[q]? = if q ∈ g ∧ (best[q]?).all (·.size < m.size) then some m else best[q]? := by
  unfold Membership.claim
  induction g generalizing best with
  | nil => simp
  | cons p g ih =>
    rw [foldl_cons, ih]
    by_cases hpq : p = q
    · subst hpq
      by_cases hless : (best[p]?).all (·.size < m.size) = true
      · simp [hless]
      · simp [hless]
    · by_cases hless : (best[p]?).all (·.size < m.size) = true
      · simp [hless, Std.HashMap.getElem?_insert, hpq, Ne.symm hpq]
      · simp [hless, Ne.symm hpq]

/-- One more group takes the cells for which it is longer than all before. -/
theorem best_concat {o : Option Membership} (h : Best groups p o) (g : List Place) :
    Best (groups ++ [g]) p (if p ∈ g ∧ o.all (·.size < g.length) then
      some ⟨groups.length + 1, directionOf g, g.length⟩ else o) := by
  have hlast : (groups ++ [g])[groups.length]? = some g := getElem?_concat_length
  have hold : ∀ {j h}, (groups ++ [g])[j]? = some h → groups[j]? = some h ∨ j = groups.length ∧ h = g := by
    intro j h hj
    rcases Nat.lt_trichotomy j groups.length with hlt | rfl | hgt
    · exact .inl (by rwa [getElem?_append_left hlt] at hj)
    · exact .inr ⟨rfl, (Option.some.inj (hlast.symm.trans hj)).symm⟩
    · rw [getElem?_eq_none (by simp; omega)] at hj
      cases hj
  have keep : ∀ {j h}, groups[j]? = some h → (groups ++ [g])[j]? = some h := fun hj => by
    rwa [getElem?_append_left (List.getElem?_eq_some_iff.1 hj).1]
  cases o with
  | none =>
    by_cases hp : p ∈ g
    · rw [if_pos ⟨hp, rfl⟩]
      refine ⟨_, g, ⟨g, hlast, hp, fun j h' hj hph => ?_⟩, hlast, rfl⟩
      rcases hold hj with hj | ⟨rfl, rfl⟩
      · exact absurd hph (h h' (mem_of_getElem? hj))
      · exact .inr ⟨rfl, Nat.le_refl _⟩
    · rw [if_neg fun hpg => hp hpg.1]
      exact forall_mem_append.2 ⟨h, forall_mem_singleton.2 hp⟩
  | some m =>
    obtain ⟨i, f, ⟨f', hf', hpf, hfirst⟩, hf, rfl⟩ := h
    obtain rfl : f = f' := Option.some.inj (hf.symm.trans hf')
    by_cases hless : p ∈ g ∧ f.length < g.length
    · rw [if_pos (by simpa using hless)]
      refine ⟨_, g, ⟨g, hlast, hless.1, fun j h' hj hph => ?_⟩, hlast, rfl⟩
      rcases hold hj with hj | ⟨rfl, rfl⟩
      · have := hfirst j h' hj hph
        omega
      · exact .inr ⟨rfl, Nat.le_refl _⟩
    · rw [if_neg (by simpa using hless)]
      refine ⟨i, f, ⟨f, keep hf, hpf, fun j h' hj hph => ?_⟩, keep hf, rfl⟩
      rcases hold hj with hj | ⟨rfl, rfl⟩
      · exact hfirst j h' hj hph
      · have hi := (List.getElem?_eq_some_iff.1 hf).1
        have := mt (And.intro hph) hless
        omega

theorem best_memberships (groups : List (List Place)) (p : Place) : Best groups p (memberships groups)[p]? := by
  induction groups using reverseRecOn with
  | nil => simp [memberships, Best]
  | append_singleton groups g ih =>
    rw [memberships, zipIdx_append, foldl_append, ← memberships, zipIdx_singleton, foldl_cons, foldl_nil,
      getElem?_claim, Nat.zero_add]
    exact best_concat ih g

/-! The cells of a group -/

/-- The cells of a report that carry a number. -/
def carriers (es : List Entry) (id : Nat) : Finset Place :=
  ((es.filter fun e => e.member.id = id).map Entry.place).toFinset

/-- One stretch along a row or down a column. -/
def Adjoining (s : Finset Place) : Prop := ∃ along p n, s = (stretch along p n).toFinset

variable {cs : List Source} {e : Entry}

theorem member_cases (he : e ∈ ofSources cs groups) : (e.member.id = 0 ∧ ∀ i, ¬ Leads groups i e.place) ∨
      ∃ i g, Leads groups i e.place ∧ groups[i]? = some g ∧ e.member = ⟨i + 1, directionOf g, g.length⟩ := by
  obtain ⟨c, -, rfl⟩ := mem_map.1 he
  have hbest := best_memberships groups c.place
  cases hm : (memberships groups)[c.place]? with
  | none =>
    rw [hm] at hbest
    refine .inl ⟨rfl, ?_⟩
    rintro i ⟨g, hg, hpg, -⟩
    exact hbest g (mem_of_getElem? hg) hpg
  | some m =>
    rw [hm] at hbest
    exact .inr hbest

theorem member_iff (he : e ∈ ofSources cs groups) : e.member.id = i + 1 ↔ Leads groups i e.place := by
  rcases member_cases he with ⟨hid, hnone⟩ | ⟨j, g, hleads, -, hm⟩
  · exact iff_of_false (by omega) (hnone i)
  · rw [hm]
    exact ⟨fun h => Nat.succ.inj h ▸ hleads, fun h => congrArg (· + 1) (hleads.unique h)⟩

theorem size_of_leads (he : e ∈ ofSources cs groups) (h : Leads groups i e.place)
    (hg : groups[i]? = some g) : e.member.size = g.length := by
  rcases member_cases he with ⟨-, hnone⟩ | ⟨j, f, hleads, hf, hm⟩
  · exact absurd h (hnone i)
  · rw [← hleads.unique h, hf] at hg
    rw [hm, Option.some.inj hg]

theorem mem_carriers_iff (cs : List Source) (i : Nat) (p : Place) :
    p ∈ carriers (ofSources cs (formGroups (buckets cs))) (i + 1) ↔ Leads (formGroups (buckets cs)) i p := by
  simp only [carriers, mem_toFinset, mem_map, mem_filter, decide_eq_true_eq]
  constructor
  · rintro ⟨e, ⟨he, hid⟩, rfl⟩
    exact (member_iff he).1 hid
  · intro h
    have ⟨g, hg, hpg, _⟩ := h
    obtain ⟨-, ps, hps, hmem⟩ := stretch_of_mem_formGroups (mem_of_getElem? hg)
    obtain ⟨b, hb, rfl⟩ := mem_map.1 hps
    obtain ⟨x, hx, rfl⟩ := mem_map.1 (hmem p hpg)
    obtain ⟨c, hc, rfl⟩ := mem_map.1 (mem_of_mem_bucketBy hb hx)
    obtain ⟨e, he, rfl⟩ : ∃ e ∈ ofSources cs (formGroups (buckets cs)), e.source = c :=
      ⟨_, mem_map_of_mem (mem_of_mem_filter hc), rfl⟩
    exact ⟨e, ⟨he, (member_iff he).2 h⟩, rfl⟩

/-- A group is one stretch of the size that its cells say exactly if its run keeps all its cells, or
none: if no cell of it is on another run that is longer, or before it and as long. -/
theorem group_whole_iff (cs : List Source) (i : Nat) :
    let groups := formGroups (Entry.buckets cs)
    let es := Entry.ofSources cs groups
    (Adjoining (carriers es (i + 1)) ∧ ∀ e ∈ es, e.member.id = i + 1 → e.member.size = (carriers es (i + 1)).card) ↔
      ∀ g, groups[i]? = some g → (∀ p ∈ g, Leads groups i p) ∨ ∀ p ∈ g, ¬ Leads groups i p := by
  intro groups es
  have hmem : ∀ p, p ∈ carriers es (i + 1) ↔ Leads groups i p := mem_carriers_iff cs i
  have hempty : (∀ p, ¬ Leads groups i p) → Adjoining (carriers es (i + 1)) ∧
      ∀ e ∈ es, e.member.id = i + 1 → e.member.size = (carriers es (i + 1)).card := by
    refine fun hnone => ⟨⟨.row, default, 0, Finset.eq_empty_of_forall_notMem fun p hp => ?_⟩, fun e he hid => ?_⟩
    · exact hnone p ((hmem p).1 hp)
    · exact absurd ((member_iff he).1 hid) (hnone _)
  cases hg : groups[i]? with
  | none =>
    refine iff_of_true (hempty ?_) nofun
    rintro p ⟨g, hg', -⟩
    rw [hg] at hg'
    cases hg'
  | some g =>
    have hin : ∀ p, Leads groups i p → p ∈ g := by
      rintro p ⟨f, hf, hpf, -⟩
      rw [hg] at hf
      cases hf
      exact hpf
    obtain ⟨along, start, hstretch⟩ := (stretch_of_mem_formGroups (mem_of_getElem? hg)).1
    have hcard : g.toFinset.card = g.length :=
      toFinset_card_of_nodup (hstretch ▸ nodup_stretch along start g.length)
    constructor
    · rintro ⟨-, hsize⟩ _ ⟨⟩
      refine or_iff_not_imp_right.2 fun hsome => ?_
      obtain ⟨p, hp, hlead⟩ : ∃ p ∈ g, Leads groups i p := by simpa using hsome
      -- the carriers are cells of the run, and as many as the run has
      obtain ⟨e, he, hep⟩ := mem_map.1 (mem_toFinset.1 ((hmem p).2 hlead))
      obtain ⟨he, hid⟩ := mem_filter.1 he
      have hid := of_decide_eq_true hid
      have hall : carriers es (i + 1) = g.toFinset := by
        refine Finset.eq_of_subset_of_card_le (fun q hq => mem_toFinset.2 (hin q ((hmem q).1 hq))) ?_
        rw [hcard, ← hsize e he hid, size_of_leads he ((member_iff he).1 hid) hg]
      intro q hq
      rw [← hmem, hall]
      exact mem_toFinset.2 hq
    · intro hkeep
      rcases hkeep g rfl with hall | hnone
      · have heq : carriers es (i + 1) = g.toFinset := by
          ext q
          rw [hmem, mem_toFinset]
          exact ⟨hin q, hall q⟩
        refine ⟨⟨along, start, g.length, by rw [heq, ← hstretch]⟩, fun e he hid => ?_⟩
        rw [heq, hcard, size_of_leads he ((member_iff he).1 hid) hg]
      · exact hempty fun p hp => hnone p (hin p hp) hp

end Sheetwork.Plan
