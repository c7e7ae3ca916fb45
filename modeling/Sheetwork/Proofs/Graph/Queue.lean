import Sheetwork.Proofs.Graph.Kahn
/-
  Graphs: which of two nodes leaves the queue first. Nodes that need nothing come first, in an order of their own. Any
  other node becomes ready with the last of the nodes that it needs, so of two such nodes the one whose last need left
  first is sooner; among nodes with one last need the order of the edges decides (`Sooner`).

  Main statements. `pair_sublist_iff_sooner`. `pairwise_sooner_kahn`: the queue order is a list by `Sooner`; one turn
  of the queue keeps it (`InTurn.take`). `pair_sublist_ordered_iff` says the same of a list whose elements are the
  nodes. Nodes that depend on no cycle are reached (`acc_iff_no_cycle`).
-/

open List

namespace Sheetwork.Graph

/-- What decides between two nodes: what they need, the order of those that need nothing and the order
of those that need a given node. -/
structure Turns (α : Type) where
  (needs first : α → α → Prop)
  among : α → α → α → Prop

variable {α : Type} {t : Turns α} {a b x y : α}

inductive Sooner (t : Turns α) : α → α → Prop
  | free {a b : α} (ha : ∀ x, ¬ t.needs x a) (hb : ∀ x, ¬ t.needs x b) (h : t.first a b) : Sooner t a b
  | ready {a b y : α} (ha : ∀ x, ¬ t.needs x a) (hb : t.needs y b) : Sooner t a b
  | waits {a b x y : α} (hx : t.needs x a) (lastx : ∀ z, t.needs z a → z ≠ x → Sooner t z x)
      (hy : t.needs y b) (lasty : ∀ z, t.needs z b → z ≠ y → Sooner t z y) (h : Sooner t x y) : Sooner t a b
  | together {a b x : α} (ha : t.needs x a) (lasta : ∀ z, t.needs z a → z ≠ x → Sooner t z x)
      (hb : t.needs x b) (lastb : ∀ z, t.needs z b → z ≠ x → Sooner t z x) (h : t.among x a b) : Sooner t a b

/-- The last of the nodes that a node needs. -/
def LastNeed (t : Turns α) (x a : α) : Prop := t.needs x a ∧ ∀ z, t.needs z a → z ≠ x → Sooner t z x

/-- A node that is sooner needs nothing, or its last need leaves first or with that of the other. -/
theorem sooner_cases (h : Sooner t a b) : (∀ x, ¬ t.needs x a) ∧ ((∀ x, ¬ t.needs x b) → t.first a b) ∨
    ∃ x y, LastNeed t x a ∧ LastNeed t y b ∧ (Sooner t x y ∨ x = y ∧ t.among x a b) := by
  cases h with
  | free ha _ h => exact .inl ⟨ha, fun _ => h⟩
  | ready ha hb => exact .inl ⟨ha, fun hnone => absurd hb (hnone _)⟩
  | waits hx lastx hy lasty h => exact .inr ⟨_, _, ⟨hx, lastx⟩, ⟨hy, lasty⟩, .inl h⟩
  | together ha lasta hb lastb h => exact .inr ⟨_, _, ⟨ha, lasta⟩, ⟨hb, lastb⟩, .inr ⟨rfl, h⟩⟩

section

variable {S : α → Prop} (asymm : ∀ {x y}, S x → S y → Sooner t x y → ¬ Sooner t y x)

include asymm

theorem LastNeed.unique (hS : ∀ z, t.needs z a → S z) (hx : LastNeed t x a) (hy : LastNeed t y a) : x = y := by
  by_contra hne
  exact asymm (hS x hx.1) (hS y hy.1) (hy.2 x hx.1 hne) (hx.2 y hy.1 (Ne.symm hne))

theorem sooner_asymm_step (hfirst : ∀ {x y}, t.first x y → ¬ t.first y x)
    (hamong : ∀ {z x y}, t.among z x y → ¬ t.among z y x) (ha : ∀ z, t.needs z a → S z)
    (hb : ∀ z, t.needs z b → S z) (hab : Sooner t a b) : ¬ Sooner t b a := by
  intro hba
  rcases sooner_cases hab with ⟨hna, hfree⟩ | ⟨x, y, hx, hy, hxy⟩
  · rcases sooner_cases hba with ⟨hnb, hfree'⟩ | ⟨y', x', hy', hx', -⟩
    · exact hfirst (hfree hnb) (hfree' hna)
    · exact hna x' hx'.1
  · rcases sooner_cases hba with ⟨hnb, -⟩ | ⟨y', x', hy', hx', hyx⟩
    · exact hnb y hy.1
    · obtain rfl := LastNeed.unique asymm ha hx hx'
      obtain rfl := LastNeed.unique asymm hb hy hy'
      have hnot : Sooner t x y → ¬ Sooner t y x := asymm (ha x hx.1) (hb y hy.1)
      rcases hxy with h | ⟨rfl, h⟩
      · rcases hyx with h' | ⟨rfl, -⟩
        · exact hnot h h'
        · exact hnot h h
      · rcases hyx with h' | ⟨-, h'⟩
        · exact hnot h' h'
        · exact hamong h h'

end

section

variable {l : List α} (hn : l.Nodup) (hneeds : ∀ {x a}, a ∈ l → t.needs x a → [x, a] <+ l)
  (hfirst : ∀ {x y}, t.first x y → ¬ t.first y x) (hamong : ∀ {z x y}, t.among z x y → ¬ t.among z y x)

include hn hneeds hfirst hamong

theorem sooner_asymm (ha : a ∈ l) (hb : b ∈ l) (hab : Sooner t a b) : ¬ Sooner t b a := by
  classical
  -- what a node needs has a lower position, so the induction is on a bound of the positions
  have key : ∀ n {a b}, a ∈ l ∧ l.idxOf a < n → b ∈ l ∧ l.idxOf b < n → Sooner t a b → ¬ Sooner t b a := by
    intro n
    induction n with
    | zero => exact fun ha => absurd ha.2 (Nat.not_lt_zero _)
    | succ n ih =>
      intro a b ha hb
      have back : ∀ {c}, c ∈ l ∧ l.idxOf c < n + 1 → ∀ z, t.needs z c → z ∈ l ∧ l.idxOf z < n := by
        intro c hc z hz
        have hzc := hneeds hc.1 hz
        have hlt := idxOf_lt_of_pair_sublist hn hzc
        exact ⟨hzc.subset mem_cons_self, by omega⟩
      exact sooner_asymm_step ih hfirst hamong (back ha) (back hb)
  exact key l.length ⟨ha, idxOf_lt_length_iff.2 ha⟩ ⟨hb, idxOf_lt_length_iff.2 hb⟩ hab

/-- In a list that is ordered by turns and has needs before what needs them, being before is being
sooner. -/
theorem pair_sublist_iff_sooner (hp : l.Pairwise (Sooner t)) (ha : a ∈ l) (hb : b ∈ l) : [a, b] <+ l ↔ Sooner t a b :=
  pair_sublist_pairwise_iff hp (sooner_asymm hn hneeds hfirst hamong ha hb) ha hb

end

/-! The queue -/

variable {n c : Nat} {edges : List (Nat × Nat)}

/-- Numbers that need nothing are taken in ascending order, those that need one node in the order of the
edges. -/
def turns (edges : List (Nat × Nat)) : Turns Nat where
  needs := Needs edges
  first := (· < ·)
  among x a b := [(x, a), (x, b)] <+ edges

theorem pair_sublist_edges {a b : Nat} (h : [b, c] <+ successors edges a) : [(a, b), (a, c)] <+ edges := by
  have e : (successors edges a).map (a, ·) = edges.filter (·.1 = a) := by
    rw [successors, map_map]
    refine (map_congr_left fun e he => ?_).trans (map_id _)
    have := (mem_filter.1 he).2
    simp only [decide_eq_true_eq] at this
    rw [← this]
    rfl
  have := h.map (a, ·)
  rw [e] at this
  exact this.trans filter_sublist

/-- The taken nodes and the queue are ordered by turns. -/
def InTurn (edges : List (Nat × Nat)) (taken queue : List Nat) : Prop :=
  (taken ++ queue).Pairwise (Sooner (turns edges))

theorem inTurn_start (n : Nat) (edges : List (Nat × Nat)) :
    InTurn edges [] ((range n).filter fun i => (degrees n edges)[i]? = some 0) := by
  have none : ∀ i ∈ (range n).filter fun i => (degrees n edges)[i]? = some 0, ∀ x, ¬ Needs edges x i := by
    intro i hi x hx
    obtain ⟨hlt, hdeg⟩ := mem_filter.1 hi
    rw [getElem?_degrees, if_pos (mem_range.1 hlt)] at hdeg
    have hzero : waiting edges [] i = 0 := by
      rw [waiting_nil]
      simpa using hdeg
    exact not_mem_nil (waiting_eq_zero.1 hzero x hx)
  have ascending : ((range n).filter fun i => (degrees n edges)[i]? = some 0).Pairwise (· < ·) :=
    Pairwise.filter _ pairwise_lt_range
  refine Pairwise.imp_of_mem ?_ ascending
  exact fun ha hb h => .free (none _ ha) (none _ hb) h

theorem exists_lastNeed {t : Turns Nat} {l : List Nat} (hp : l.Pairwise (Sooner t))
    (hneeds : ∀ x, t.needs x c → x ∈ l) (hc : ∃ x, t.needs x c) : ∃ x ∈ l, LastNeed t x c := by
  induction l using reverseRecOn with
  | nil =>
    obtain ⟨x, hx⟩ := hc
    cases hneeds x hx
  | append_singleton l z ih =>
    by_cases hz : t.needs z c
    · refine ⟨z, by simp, hz, fun w hw hne => ?_⟩
      have hwl : w ∈ l := by
        rcases mem_append.1 (hneeds w hw) with h | h
        · exact h
        · exact absurd (mem_singleton.1 h) hne
      exact (pairwise_append.1 hp).2.2 w hwl z (by simp)
    · obtain ⟨x, hx, hlast⟩ := ih (pairwise_append.1 hp).1 fun x hx => by
        rcases mem_append.1 (hneeds x hx) with h | h
        · exact h
        · exact absurd (mem_singleton.1 h ▸ hx) hz
      exact ⟨x, by simp [hx], hlast⟩

variable {taken queue : List Nat} {deg : Array Nat}

/-- Taking a node from the queue appends the nodes of which it is the last need. -/
theorem InTurn.take {a : Nat} (hw : Within n edges) (h : Progress n edges taken (a :: queue) deg)
    (hturn : InTurn edges taken (a :: queue)) :
    let bs := ((dependents n edges)[a]?).getD []
    InTurn edges (taken ++ [a]) (queue ++ ready bs (change Nat.pred bs deg)) := by
  have next := h.take hw
  have han : a < n := h.lt a (by simp)
  rw [getD_dependents han] at next ⊢
  have hs := ready_sublist (successors edges a) (change Nat.pred (successors edges a) deg)
  dsimp only at next ⊢
  generalize ready (successors edges a) _ = s at next hs ⊢
  have before : ∀ y ∈ taken, Sooner (turns edges) y a := fun y hy => (pairwise_append.1 hturn).2.2 y hy a mem_cons_self
  -- a node that becomes ready needs `a` and otherwise only nodes that were taken before it
  have last : ∀ b ∈ s, LastNeed (turns edges) a b := by
    intro b hb
    obtain ⟨⟨a', b'⟩, hmem, rfl⟩ := mem_map.1 (hs.subset hb)
    obtain ⟨hab, ha'⟩ := mem_filter.1 hmem
    obtain rfl : a' = a := by simpa using ha'
    refine ⟨hab, fun z hz hne => before z ?_⟩
    have hzero := (next.zero_iff b' (next.lt b' (by simp [hb]))).2 (by simp [hb])
    rcases mem_append.1 (waiting_eq_zero.1 hzero z hz) with h | h
    · exact h
    · exact absurd (mem_singleton.1 h) hne
  show ((taken ++ [a]) ++ (queue ++ s)).Pairwise _
  rw [append_assoc, singleton_append, ← cons_append, ← append_assoc]
  refine pairwise_append.2 ⟨hturn, ?_, fun c hc b hb => ?_⟩
  · refine pairwise_iff_forall_sublist.2 fun {b c} hbc => ?_
    have hb := last b (hbc.subset (by simp))
    have hc := last c (hbc.subset (by simp))
    exact .together hb.1 hb.2 hc.1 hc.2 (pair_sublist_edges (hbc.trans hs))
  · obtain ⟨hab, hlast⟩ := last b hb
    by_cases hneeds : ∃ x, Needs edges x c
    · have hzero := (h.zero_iff c (h.lt c hc)).2 hc
      obtain ⟨x, hx, hxc⟩ := exists_lastNeed (t := turns edges) (pairwise_append.1 hturn).1
        (waiting_eq_zero.1 hzero) hneeds
      exact .waits hxc.1 hxc.2 hab hlast (before x hx)
    · exact .ready (fun x hx => hneeds ⟨x, hx⟩) hab

theorem pairwise_sooner_drain (hw : Within n edges) (fuel : Nat) (h : Progress n edges taken queue deg)
    (hturn : InTurn edges taken queue) :
    (taken ++ drain (dependents n edges) fuel queue deg).Pairwise (Sooner (turns edges)) := by
  induction fuel generalizing taken queue deg with
  | zero => exact (pairwise_append.1 hturn).1 |>.sublist (by simp [Graph.drain])
  | succ fuel ih =>
    cases queue with
    | nil => simpa [Graph.drain, InTurn] using hturn
    | cons a queue =>
      have := ih (h.take hw) (hturn.take hw h)
      rw [Graph.drain]
      simpa using this

theorem pairwise_sooner_kahn (hw : Within n edges) : (kahn n edges).Pairwise (Sooner (turns edges)) :=
  pairwise_sooner_drain hw n (progress_start n edges) (inTurn_start n edges)

/-! The order of a list whose elements are the nodes -/

/-- The edges number what the elements of a list need; the list and the edges have the order of the
turns. -/
structure Numbered (t : Turns α) (l : List α) (edges : List (Nat × Nat)) : Prop extends Encodes t.needs l edges where
  nodup : l.Nodup
  first : l.Pairwise t.first
  among : ∀ {i j k x a b}, i ≠ j → i ≠ k → [(i, j), (i, k)] <+ edges → l[i]? = some x → l[j]? = some a →
    l[k]? = some b → t.among x a b

/-- Where the edges from each node ascend, what is ready at one time is in the order of the list. -/
theorem among_of_ascending {R : α → α → Prop} {l : List α} (hl : l.Pairwise R)
    (he : edges.Pairwise fun e f => e.1 = f.1 → e.2 < f.2) {i j k : Nat} (h : [(i, j), (i, k)] <+ edges)
    (ha : l[j]? = some a) (hb : l[k]? = some b) : R a b := by
  have hjk : j < k := pairwise_iff_forall_sublist.1 he h rfl
  obtain ⟨hj, rfl⟩ := List.getElem?_eq_some_iff.1 ha
  obtain ⟨hk, rfl⟩ := List.getElem?_eq_some_iff.1 hb
  exact pairwise_iff_getElem.1 hl j k hj hk hjk

section Numbered

variable {l : List α} (h : Numbered t l edges)

include h

theorem Numbered.needs_none {i : Nat} (ha : l[i]? = some a) (hi : ∀ k, ¬ Needs edges k i) (x : α) : ¬ t.needs x a := by
  intro hx
  obtain ⟨k, hk⟩ := mem_iff_getElem?.1 (h.closed hx (mem_of_getElem? ha))
  exact hi k ((h.needs_iff hk ha).2 hx)

theorem Numbered.sooner {i j : Nat} (hij : Sooner (turns edges) i j) (hi : Acc (Needs edges) i)
    (hj : Acc (Needs edges) j) (ha : l[i]? = some a) (hb : l[j]? = some b) : Sooner t a b := by
  -- a last need of a position is one of its element
  have last : ∀ {i k : Nat} {a x : α}, Acc (Needs edges) i → Needs edges k i → l[i]? = some a → l[k]? = some x →
      (∀ z, Needs edges z i → z ≠ k → ∀ {c y}, Acc (Needs edges) z → Acc (Needs edges) k → l[z]? = some c →
        l[k]? = some y → Sooner t c y) → ∀ z, t.needs z a → z ≠ x → Sooner t z x := by
    intro i k a x hi hki ha hx ih z hz hne
    obtain ⟨m, hm⟩ := mem_iff_getElem?.1 (h.closed hz (mem_of_getElem? ha))
    have hmi := (h.needs_iff hm ha).2 hz
    refine ih m hmi ?_ (hi.inv hmi) (hi.inv hki) hm hx
    rintro rfl
    exact hne (Option.some.inj (hm.symm.trans hx))
  induction hij generalizing a b with
  | @free i j hni hnj hlt =>
    refine .free (h.needs_none ha hni) (h.needs_none hb hnj) ?_
    obtain ⟨hi', rfl⟩ := List.getElem?_eq_some_iff.1 ha
    obtain ⟨hj', rfl⟩ := List.getElem?_eq_some_iff.1 hb
    exact pairwise_iff_getElem.1 h.first i j hi' hj' hlt
  | @ready i j k hni hkj =>
    obtain ⟨y, -, hy⟩ := h.exists_needs hb hkj
    exact .ready (h.needs_none ha hni) hy
  | @waits i j k m hki _ hmj _ _ ihk ihm ih =>
    obtain ⟨x, hx, hxa⟩ := h.exists_needs ha hki
    obtain ⟨y, hy, hyb⟩ := h.exists_needs hb hmj
    exact .waits hxa (last hi hki ha hx ihk) hyb (last hj hmj hb hy ihm) (ih (hi.inv hki) (hj.inv hmj) hx hy)
  | @together i j k hki _ hkj _ hk ihi ihj =>
    obtain ⟨x, hx, hxa⟩ := h.exists_needs ha hki
    have hxb := (h.needs_iff hx hb).1 hkj
    refine .together hxa (last hi hki ha hx ihi) hxb (last hj hkj hb hx ihj) ?_
    exact h.among (ne_of_acc hi hki) (ne_of_acc hj hkj) hk hx ha hb

variable (hfirst : ∀ {x y}, t.first x y → ¬ t.first y x) (hamong : ∀ {z x y}, t.among z x y → ¬ t.among z y x)

include hfirst hamong

theorem Numbered.pair_sublist_settled_iff (ha : a ∈ settled l edges) (hb : b ∈ settled l edges) :
    [a, b] <+ settled l edges ↔ Sooner t a b := by
  refine pair_sublist_iff_sooner (h.nodup_settled h.nodup) h.pair_sublist_settled hfirst hamong ?_ ha hb
  rw [settled_eq]
  refine pairwise_filterMap.2 ((pairwise_sooner_kahn h.within).imp_of_mem fun {i j} hi hj hij c hc d hd => ?_)
  exact h.sooner hij ((mem_kahn_iff h.within).1 hi).2 ((mem_kahn_iff h.within).1 hj).2 hc hd

theorem pair_sublist_ordered_iff (ha : a ∈ l) (hb : b ∈ l) : [a, b] <+ ordered l edges ↔
      Acc t.needs a ∧ (Acc t.needs b → Sooner t a b) ∨ ¬ Acc t.needs a ∧ ¬ Acc t.needs b ∧ [a, b] <+ l := by
  have e : ordered l edges = settled l edges ++ ((range l.length).filter (· ∉ kahn l.length edges)).filterMap (l[·]?) := by
    rw [ordered, kahnAll_eq, filterMap_append, settled_eq]
  have hperm := ordered_perm h.within
  have hrest : ((range l.length).filter (· ∉ kahn l.length edges)).filterMap (l[·]?) <+ l := by
    conv_rhs => rw [← filterMap_positions l]
    exact filter_sublist.filterMap _
  have settled_iff : ∀ {c}, c ∈ l → (c ∈ settled l edges ↔ Acc t.needs c) := fun hc => by
    rw [h.mem_settled_iff, and_iff_right hc]
  rw [e, pair_sublist_append_iff (e ▸ hperm.nodup_iff.2 h.nodup) h.nodup hrest (e ▸ hperm.mem_iff.2 ha)
    (e ▸ hperm.mem_iff.2 hb), settled_iff ha, settled_iff hb]
  refine or_congr_left (and_congr_right fun hacc => forall_congr' fun hacc' => ?_)
  exact h.pair_sublist_settled_iff hfirst hamong ((settled_iff ha).2 hacc) ((settled_iff hb).2 hacc')

end Numbered

end Sheetwork.Graph
