import Sheetwork.Proofs.Layers.Cycles
import Sheetwork.Proofs.Layers.Order
/-
  Layers: cycles and levels of a script's parts. The search for cycles goes to dependents and comes back empty exactly
  if there is none. The level of a part goes back over all it needs, so that it is the length of the longest chain if
  there is one, and on a cycle it is never found (`findCycles_levels`).
-/

open List Relation

namespace Sheetwork.Layers.Code.Schedule

open Sheetwork.Graph

def Leads (m : Adjacency) (a b : Node) : Prop := b ∈ (m[a]?).getD []

theorem leads_adjacency {pairs : List (Node × Node)} {a b : Node} : Leads (adjacency pairs) a b ↔ (a, b) ∈ pairs := by
  unfold adjacency Leads
  induction pairs with
  | nil => simp
  | cons p pairs ih =>
    rw [foldr_cons, Std.HashMap.getElem?_insert, mem_cons, Prod.ext_iff]
    by_cases h : p.1 = a
    · subst h
      simp [ih]
    · simp [h, Ne.symm h, ih]

variable {needs : Adjacency} {fuel k : Nat} {n : Node} {c : List Node}

/-- The lengths of the chains that go back from a node. -/
def chainLengths (r : Node → Node → Prop) (n : Node) : Set Nat := {k | ∃ c, (n :: c).IsChain r ∧ c.length = k}

theorem isGreatest_levelFrom (h : levelFrom needs fuel n = .ok k) : IsGreatest (chainLengths (Leads needs) n) k := by
  induction fuel generalizing n k with
  | zero => cases h
  | succ fuel ih =>
    obtain ⟨below, hbelow, h⟩ := of_bind h
    cases h
    have hbelow := mapM_eq_ok_iff.1 hbelow
    refine ⟨?_, ?_⟩
    · cases hmax : (below.map (· + 1)).max? with
      | none => exact ⟨[], isChain_singleton n, rfl⟩
      | some m =>
        obtain ⟨l, hl, rfl⟩ := mem_map.1 (max?_eq_some_iff.1 hmax).1
        obtain ⟨p, hp, hlevel⟩ := exists_of_mem_right hbelow hl
        obtain ⟨c, hc, rfl⟩ := (ih hlevel).1
        exact ⟨p :: c, isChain_cons_cons.2 ⟨hp, hc⟩, rfl⟩
    · rintro _ ⟨_ | ⟨p, c⟩, hc, rfl⟩
      · exact Nat.zero_le _
      · obtain ⟨hp, hc⟩ := isChain_cons_cons.1 hc
        obtain ⟨l, hl, hlevel⟩ := exists_of_mem_left hbelow hp
        have hcl : c.length ≤ l := (ih hlevel).2 ⟨c, hc, rfl⟩
        have hl : l + 1 ∈ below.map (· + 1) := mem_map_of_mem hl
        cases hmax : (below.map (· + 1)).max? with
        | none => simp_all
        | some m => exact Nat.le_trans (Nat.succ_le_succ hcl) ((max?_eq_some_iff.1 hmax).2 _ hl)

theorem exists_levelFrom (h : ∀ k ∈ chainLengths (Leads needs) n, k < fuel) : ∃ k, levelFrom needs fuel n = .ok k := by
  induction fuel generalizing n with
  | zero => exact absurd (h 0 ⟨[], isChain_singleton n, rfl⟩) (Nat.not_lt_zero 0)
  | succ fuel ih =>
    obtain ⟨below, hbelow⟩ := exists_mapM_ok (l := (needs[n]?).getD []) fun p hp => ih (n := p) (by
      rintro _ ⟨c, hc, rfl⟩
      exact Nat.lt_of_succ_lt_succ (h _ ⟨p :: c, isChain_cons_cons.2 ⟨hp, hc⟩, rfl⟩))
    exact ⟨_, bind_ok hbelow rfl⟩

theorem acc_of_levelFrom (h : levelFrom needs fuel n = .ok k) : Acc (fun p n => Leads needs n p) n := by
  induction fuel generalizing n k with
  | zero => cases h
  | succ fuel ih =>
    obtain ⟨below, hbelow, -⟩ := of_bind h
    refine ⟨_, fun p hp => ?_⟩
    obtain ⟨l, hl⟩ := exists_of_mapM_ok hbelow p hp
    exact ih hl

theorem dropLast_subset_keys (h : (n :: c).IsChain (Leads needs)) : (n :: c).dropLast ⊆ needs.keys := by
  induction c generalizing n with
  | nil => exact nil_subset _
  | cons p c ih =>
    obtain ⟨hp, h⟩ := isChain_cons_cons.1 h
    refine cons_subset.2 ⟨?_, ih h⟩
    by_contra hn
    rw [Std.HashMap.mem_keys] at hn
    simp [Leads, hn] at hp

/-- Without cycles a chain has no more steps than there are nodes that need something. -/
theorem length_le_size (acyclic : ∀ n, ¬ TransGen (Leads needs) n n)
    (h : (n :: c).IsChain (Leads needs)) : c.length ≤ needs.size := by
  have hn : (n :: c).Nodup := (h.imp fun _ _ => TransGen.single).pairwise.imp fun path => by
    rintro rfl
    exact acyclic _ path
  have hle := ((hn.sublist (dropLast_sublist _)).subperm (dropLast_subset_keys h)).length_le
  simpa using hle

variable {s : Schedule} {p : Node}

theorem exists_edge : (∃ e ∈ s.allEdges, e.dependent = n ∧ e.precedent = p) ↔ s.Precedes p n := by
  simp only [allEdges, Ordered.mem_ofList]
  constructor
  · rintro ⟨_, he, rfl, rfl⟩
    exact he
  · exact fun he => ⟨_, he, rfl, rfl⟩

theorem leads_precedents : Leads s.precedents = fun n p => s.Precedes p n := by
  funext n p
  simp [precedents, leads_adjacency, ← exists_edge]

theorem leads_dependents : Leads s.dependents = s.Precedes := by
  funext p n
  simp [dependents, leads_adjacency, ← exists_edge, and_comm]

variable (hd : ∀ e ∈ s.edges, e.dependent ∈ s.added)

include hd

theorem mem_nodes_of_transGen (path : TransGen s.Precedes p n) : n ∈ s.nodes := by
  obtain ⟨_, -, h⟩ := TransGen.tail'_iff.1 path
  exact mem_nodes.2 (hd _ h)

theorem findCycles_eq_nil_iff : s.findCycles = .ok [] ↔ ∀ n, ¬ TransGen s.Precedes n n := by
  have hnext : ∀ {x y}, y ∈ (s.dependents[x]?).getD [] ↔ s.Precedes x y := fun {x y} =>
    iff_of_eq (congrFun₂ leads_dependents x y)
  refine ⟨fun h n path => ?_, fun acyclic => cycles_eq_nil fun c hc => ?_⟩
  · have hends := ends_of_cycles (fun x _ y hy => mem_nodes.2 (hd _ (hnext.1 hy))) ?_ h n
      (mem_nodes_of_transGen hd path)
    · simp only [Ends, hnext] at hends
      exact ne_of_acc hends.transGen (transGen_swap.2 path) rfl
    · have := ((Ordered.nodup_ofList s.added).subperm fun n => Ordered.mem_ofList.1).length_le
      rw [nodes]
      omega
  · obtain ⟨⟨a, p, rfl⟩, hc⟩ := hc
    simp only [hnext] at hc
    exact acyclic a ((pairwise_cons.1 (hc.imp fun _ _ => TransGen.single).pairwise).1 a (by simp))

/-- The search comes back with nothing exactly if there is no cycle, and exactly then the counts can be made. The
level of a node is then the length of the longest chain that goes back from it. -/
theorem findCycles_levels : (s.findCycles = .ok [] ↔ ∀ n, ¬ TransGen s.Precedes n n) ∧
    ((∃ c, s.counts = .ok c) ↔ ∀ n, ¬ TransGen s.Precedes n n) ∧
    ((∀ n, ¬ TransGen s.Precedes n n) → ∀ n, ∃ k, s.level n = .ok k ∧
      IsGreatest (chainLengths (fun n p => s.Precedes p n) n) k) := by
  have hlevel : (∀ n, ¬ TransGen s.Precedes n n) → ∀ n, ∃ k, s.level n = .ok k := fun acyclic n => by
    refine exists_levelFrom ?_
    rintro _ ⟨c, hc, rfl⟩
    have := length_le_size (fun n path => acyclic n (transGen_swap.1 (by rwa [leads_precedents] at path))) hc
    omega
  refine ⟨findCycles_eq_nil_iff hd, ⟨?_, fun acyclic => ?_⟩, fun acyclic n => ?_⟩
  · rintro ⟨c, h⟩ n path
    obtain ⟨_, -, h⟩ := of_bind h
    obtain ⟨_, h, -⟩ := of_bind h
    obtain ⟨_, h, -⟩ := of_bind h
    obtain ⟨_, h⟩ := exists_of_mapM_ok h n (mem_nodes_of_transGen hd path)
    obtain ⟨_, h, -⟩ := of_bind h
    have hacc := acc_of_levelFrom h
    rw [leads_precedents] at hacc
    exact ne_of_acc hacc.transGen path rfl
  · obtain ⟨placed, hplaced⟩ := exists_mapM_ok (l := s.nodes) (f := fun n => do pure (← s.level n, n)) fun n _ => by
      obtain ⟨k, hk⟩ := hlevel acyclic n
      exact ⟨_, bind_ok hk rfl⟩
    exact ⟨_, bind_ok ((findCycles_eq_nil_iff hd).2 acyclic) (bind_ok (bind_ok hplaced rfl) rfl)⟩
  · obtain ⟨k, hk⟩ := hlevel acyclic n
    have := isGreatest_levelFrom hk
    rw [leads_precedents] at this
    exact ⟨k, hk, this⟩

omit hd in
/-- Two cells that need each other are found, and nothing can be counted. -/
theorem findCycles_levels_pair :
    let a := Node.cell "S" "A1"
    let b := Node.cell "S" "B1"
    let s : Schedule := { added := [a, b], edges := [⟨a, b⟩, ⟨b, a⟩] }
    s.findCycles ≠ .ok [] ∧ ¬ ∃ c, s.counts = .ok c := by
  intro a b s
  have cyclic : TransGen s.Precedes a a := .tail (.single (mem_cons_of_mem _ mem_cons_self)) mem_cons_self
  obtain ⟨hfound, hcounts, -⟩ := findCycles_levels (s := s) (by decide)
  exact ⟨fun h => hfound.1 h _ cyclic, fun h => hcounts.1 h _ cyclic⟩

end Sheetwork.Layers.Code.Schedule
