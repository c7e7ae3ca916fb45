import Sheetwork.Model.Order
import Sheetwork.Proofs.Graph.Kahn
/-
  Models: what an order of computation guarantees. If there is one, the keys are distinct, it lists each of them once,
  and every key comes after those it needs (`order_spec`). Distinct keys that need only each other have one exactly if
  there is no cycle (`order_acyclic_iff`).
-/

open List

namespace Sheetwork.Model

open Graph

variable {keys found : List Place} {needs : List (Place × List Place)} {es : List (Nat × Nat)}

section

variable {index : Std.HashMap Place Nat} (h : edges index needs = .ok es)
include h

theorem exists_edge {x : Place × List Place} (hx : x ∈ needs) {d : Place} (hd : d ∈ x.2) :
    ∃ i, index[x.1]? = some i ∧ ((index[d]?).getD i, i) ∈ es := by
  obtain ⟨all, hall, h⟩ := of_bind h
  cases h
  obtain ⟨y, hy, hof⟩ := exists_of_mem_left (mapM_eq_ok_iff.1 hall) hx
  dsimp only at hof
  rw [if_neg (by simpa using ne_nil_of_mem hd)] at hof
  obtain ⟨i, hi, hof⟩ := of_bind hof
  cases hof
  refine ⟨i, ifNone_eq_ok_iff.1 hi, mem_flatMap.2 ⟨_, by rwa [Ordered.sortOn, mem_mergeSort], ?_⟩⟩
  exact mem_map.2 ⟨d, mem_eraseDups.2 hd, rfl⟩

/-- Edges lead from the position of what a key needs to its own; what is not there counts as the key itself. -/
theorem of_mem_edges {e : Nat × Nat} (he : e ∈ es) :
    ∃ x ∈ needs, ∃ i, index[x.1]? = some i ∧ ∃ d ∈ x.2, e = ((index[d]?).getD i, i) := by
  obtain ⟨all, hall, h⟩ := of_bind h
  cases h
  obtain ⟨y, hy, hey⟩ := mem_flatMap.1 he
  rw [Ordered.sortOn, mem_mergeSort] at hy
  obtain ⟨⟨k, ds⟩, hx, hof⟩ := exists_of_mem_right (mapM_eq_ok_iff.1 hall) hy
  dsimp only at hof
  split at hof
  · cases hof
    cases hey
  · obtain ⟨i, hi, hof⟩ := of_bind hof
    cases hof
    obtain ⟨d, hd, rfl⟩ := mem_map.1 hey
    exact ⟨_, hx, i, ifNone_eq_ok_iff.1 hi, d, mem_eraseDups.1 hd, rfl⟩

end

theorem within_edges (h : edges (positions keys) needs = .ok es) : Within keys.length es := by
  have hlt : ∀ {k : Place} {i : Nat}, (positions keys)[k]? = some i → i < keys.length := fun hi =>
    (List.getElem?_eq_some_iff.1 (getElem?_of_positions hi)).1
  intro e he
  obtain ⟨x, -, i, hi, d, -, rfl⟩ := of_mem_edges h he
  refine ⟨?_, hlt hi⟩
  cases hd : (positions keys)[d]? with
  | none => exact hlt hi
  | some j => exact hlt hd

/-- If what a filter leaves of the ordered positions is as long as the keys, it is all of them. -/
theorem all_kahn (hw : Within keys.length es) {p : Nat → Bool}
    (h : (((kahn keys.length es).filter p).filterMap (keys[·]?)).length = keys.length) :
    kahn keys.length es ~ range keys.length ∧ (∀ i < keys.length, p i = true) ∧
      (kahn keys.length es).filter p = kahn keys.length es := by
  have hsub : kahn keys.length es <+~ range keys.length :=
    (kahn_nodup hw).subperm fun i hi => mem_range.2 (lt_of_mem_kahn hw hi)
  have hle := hsub.length_le
  rw [length_range] at hle
  have hmap := length_filterMap_le (keys[·]?) ((kahn keys.length es).filter p)
  have hfilter := length_filter_le p (kahn keys.length es)
  have hperm : kahn keys.length es ~ range keys.length := hsub.perm_of_length_le (by rw [length_range]; omega)
  have hall := length_filter_eq_length_iff.1 (by omega : ((kahn keys.length es).filter p).length = _)
  refine ⟨hperm, fun i hi => hall i (hperm.mem_iff.2 (mem_range.2 hi)), filter_eq_self.2 hall⟩

theorem exists_of_order (h : order keys needs = .ok found) : ∃ es, edges (positions keys) needs = .ok es ∧
    found = ((kahn keys.length es).filter fun i => keys[i]?.bind ((positions keys)[·]?) = some i).filterMap (keys[·]?) ∧
      found.length = keys.length := by
  obtain ⟨es, hes, h⟩ := of_bind h
  simp only [getElem?_toArray] at h
  split at h
  · next hlength =>
    cases h
    exact ⟨es, hes, rfl, hlength⟩
  · cases h

theorem order_spec (h : order keys needs = .ok found) :
    found ~ keys ∧ keys.Nodup ∧ ∀ x ∈ needs, ∀ d ∈ x.2, [d, x.1] <+ found := by
  obtain ⟨es, hes, rfl, hlength⟩ := exists_of_order h
  have hw := within_edges hes
  obtain ⟨hperm, hlast, hfilter⟩ := all_kahn hw hlength
  rw [hfilter]
  have hposition : ∀ {i : Nat} {k : Place}, keys[i]? = some k → (positions keys)[k]? = some i := by
    intro i k hk
    have := of_decide_eq_true (hlast i (lt_of_getElem? hk))
    rwa [hk, Option.bind_some] at this
  refine ⟨perm_of_positions hperm, ?_, fun x hx d hd => ?_⟩
  · refine nodup_iff_injective_getElem.2 fun i j hij => Fin.ext ?_
    dsimp only at hij
    have hi := hposition (getElem?_eq_getElem i.isLt)
    have hj := hposition (getElem?_eq_getElem j.isLt)
    rw [← hij, hi] at hj
    exact Option.some.inj hj
  · obtain ⟨i, hi, hedge⟩ := exists_edge hes hx hd
    have hk := getElem?_of_positions hi
    have hsub := sublist_kahn hw (hperm.mem_iff.2 (mem_range.2 (lt_of_getElem? hk))) hedge
    cases hj : (positions keys)[d]? with
    | none =>
      -- a key that needs what is not there waits for itself
      rw [hj] at hsub
      exact absurd rfl (ne_of_pair_sublist (kahn_nodup hw) hsub)
    | some j =>
      rw [hj] at hsub
      exact pair_sublist_positions hsub (getElem?_of_positions hj) hk

/-! Keys that need only each other -/

def NeededBy (needs : List (Place × List Place)) (d k : Place) : Prop := ∃ x ∈ needs, x.1 = k ∧ d ∈ x.2

section

variable (hk : keys.Nodup) (hneeds : ∀ x ∈ needs, x.1 ∈ keys ∧ ∀ d ∈ x.2, d ∈ keys)
include hk hneeds

theorem exists_edges : ∃ es, edges (positions keys) needs = .ok es := by
  refine ⟨_, bind_ok (mapM_ok (g := fun x => if x.2.isEmpty then (0, []) else
    (keys.idxOf x.1, x.2.eraseDups.map fun d => (((positions keys)[d]?).getD (keys.idxOf x.1), keys.idxOf x.1)))
    fun x hx => ?_) rfl⟩
  dsimp only
  split
  · rfl
  · rw [(getElem?_positions hk).2 (getElem?_idxOf (hneeds x hx).1)]
    rfl

theorem encodes_edges (hes : edges (positions keys) needs = .ok es) : Encodes (NeededBy needs) keys es := by
  refine encodes_of_positions (R := NeededBy needs) ?_ ?_
  · refine fun {d k} => ⟨fun h => ?_, fun h => h.2.2⟩
    obtain ⟨x, hx, rfl, hd⟩ := h
    exact ⟨(hneeds x hx).2 d hd, (hneeds x hx).1, x, hx, rfl, hd⟩
  · refine fun {i j} => ⟨fun h => ?_, ?_⟩
    · obtain ⟨x, hx, m, hm, d, hd, he⟩ := of_mem_edges hes h
      obtain ⟨n, hn⟩ := mem_iff_getElem?.1 ((hneeds x hx).2 d hd)
      rw [(getElem?_positions hk).2 hn] at he
      cases he
      exact ⟨d, x.1, hn, getElem?_of_positions hm, x, hx, rfl, hd⟩
    · rintro ⟨d, k, hd, hk', x, hx, rfl, hdx⟩
      obtain ⟨m, hm, he⟩ := exists_edge hes hx hdx
      rw [(getElem?_positions hk).2 hd] at he
      rw [(getElem?_positions hk).2 hk'] at hm
      cases hm
      exact he

theorem length_found (hes : edges (positions keys) needs = .ok es)
    (hnone : ∀ k, ¬ Relation.TransGen (NeededBy needs) k k) :
    (((kahn keys.length es).filter fun i => keys[i]?.bind ((positions keys)[·]?) = some i).filterMap
      (keys[·]?)).length = keys.length := by
  have h := encodes_edges hk hneeds hes
  have hperm : kahn keys.length es ~ range keys.length := by
    refine (perm_ext_iff_of_nodup (kahn_nodup h.within) nodup_range).2 fun i => ?_
    rw [mem_kahn_iff h.within, mem_range, and_iff_left_iff_imp]
    intro hi
    exact (h.acc_iff (getElem?_eq_getElem hi)).2 (h.acc_of_acyclic id hnone (getElem_mem hi))
  rw [filter_eq_self.2 fun i hi => ?_]
  · exact (perm_of_positions hperm).length_eq
  · have hi := getElem?_eq_getElem (mem_range.1 (hperm.subset hi))
    rw [hi, Option.bind_some, (getElem?_positions hk).2 hi]
    exact decide_eq_true rfl

/-- Keys have an order exactly if no key needs itself through others: it lists each of them once, after those it
needs. If there is none, the fault says so. -/
theorem order_acyclic_iff : ((∀ k, ¬ Relation.TransGen (NeededBy needs) k k) → ∃ found, order keys needs = .ok found ∧
      found ~ keys ∧ ∀ d k, NeededBy needs d k → [d, k] <+ found) ∧
    ((∃ f, order keys needs = .error f ∧ f.cause = .noCode) ↔ ∃ k, Relation.TransGen (NeededBy needs) k k) := by
  obtain ⟨es, hes⟩ := exists_edges hk hneeds
  have hspec {found : List Place} (h : order keys needs = .ok found) :
      found ~ keys ∧ ∀ d k, NeededBy needs d k → [d, k] <+ found := by
    obtain ⟨hperm, -, hafter⟩ := order_spec h
    refine ⟨hperm, fun d k hdk => ?_⟩
    obtain ⟨x, hx, rfl, hd⟩ := hdk
    exact hafter x hx d hd
  have hfault {f : Fault} (h : order keys needs = .error f) :
      f.cause = .noCode ∧ ∃ k, Relation.TransGen (NeededBy needs) k k := by
    change (edges (positions keys) needs >>= _) = _ at h
    rw [hes] at h
    simp only [bind, Except.bind, getElem?_toArray] at h
    split at h
    · cases h
    · next hlength =>
      cases h
      refine ⟨rfl, ?_⟩
      by_contra hnone
      exact hlength (length_found hk hneeds hes (not_exists.1 hnone))
  refine ⟨fun hnone => ?_, ⟨fun h => ?_, fun h => ?_⟩⟩
  · cases h : order keys needs with
    | ok found => exact ⟨found, rfl, hspec h⟩
    | error f => exact absurd (hfault h).2 (not_exists.2 hnone)
  · obtain ⟨f, h, -⟩ := h
    exact (hfault h).2
  · obtain ⟨k, hcycle⟩ := h
    cases h : order keys needs with
    | ok found =>
      obtain ⟨hperm, hafter⟩ := hspec h
      exact absurd hcycle (not_transGen_of_pair_sublist (hperm.nodup_iff.2 hk) (hafter _ _) k)
    | error f => exact ⟨f, rfl, (hfault h).1⟩

end

/-- Two cells that need each other have no order. -/
theorem order_two_cells : ∃ f, order [⟨"S", "A1"⟩, ⟨"S", "B1"⟩]
    [(⟨"S", "A1"⟩, [⟨"S", "B1"⟩]), (⟨"S", "B1"⟩, [⟨"S", "A1"⟩])] = .error f ∧ f.cause = .noCode :=
  (order_acyclic_iff (by decide) (by decide)).2.2 ⟨⟨"S", "A1"⟩, .tail
    (.single ⟨_, .tail _ (.head _), rfl, .head _⟩) ⟨_, .head _, rfl, .head _⟩⟩

end Sheetwork.Model
