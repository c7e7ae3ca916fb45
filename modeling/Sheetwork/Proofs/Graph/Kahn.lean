import Sheetwork.Graph.Kahn
import Sheetwork.Proofs.Outcome
/-
  Graphs: what the queue order guarantees. `Progress` is the invariant of the queue: the degree of a node counts the
  edges from nodes not yet taken, and the nodes of degree zero are the taken ones and the queue. One turn of the queue
  keeps it (`Progress.take`), so the drained queue has it with nothing left (`progress_kahn`).

  Main statements. `mem_kahn_iff`. `kahnAll_perm`: the whole order lists every node once. `sublist_kahn`,
  `sublist_kahnAll`: an edge `(a, b)` puts `a` before `b`.

  The same for a list whose elements are the nodes: `ordered_perm`, `Encodes.pair_sublist_of_needs`.

  "`a` before `b` in `l`" is written `[a, b] <+ l` throughout. In a list without repetition this is a strict order,
  total on the elements (`pair_sublist_or`, `pair_sublist_asymm`, `pair_sublist_trans`). When every element stands for
  a block, blocks are ordered as their elements are (`pair_sublist_flatMap`, `pair_sublist_of_flatMap`).
-/

open List

namespace Sheetwork.Graph

variable {α β : Type} {l : List α} {a b c : α} {r : α → α → Prop}

theorem pair_sublist_cons_self (hb : b ∈ l) : [a, b] <+ a :: l := Sublist.cons_cons a (singleton_sublist.mpr hb)

theorem pair_sublist_or (ha : a ∈ l) (hb : b ∈ l) (hab : a ≠ b) : [a, b] <+ l ∨ [b, a] <+ l := by
  induction l with
  | nil => simp at ha
  | cons x l ih =>
    rcases mem_cons.mp ha with rfl | ha
    · exact Or.inl (pair_sublist_cons_self (mem_of_ne_of_mem hab.symm hb))
    · rcases mem_cons.mp hb with rfl | hb
      · exact Or.inr (pair_sublist_cons_self (mem_of_ne_of_mem hab ha))
      · exact (ih ha hb).imp (Sublist.cons x) (Sublist.cons x)

theorem ne_of_pair_sublist (hn : l.Nodup) (h : [a, b] <+ l) : a ≠ b := by
  have := hn.sublist h
  simpa using this

theorem idxOf_lt_of_pair_sublist [DecidableEq α] (hn : l.Nodup) (h : [a, b] <+ l) : l.idxOf a < l.idxOf b := by
  have ascending : l.Pairwise fun x y => l.idxOf x < l.idxOf y :=
    pairwise_iff_getElem.2 fun i j hi hj hij => by rwa [hn.idxOf_getElem, hn.idxOf_getElem]
  exact pairwise_iff_forall_sublist.1 ascending h

theorem pair_sublist_asymm (hn : l.Nodup) (hab : [a, b] <+ l) : ¬ [b, a] <+ l := by
  classical
  exact fun hba => Nat.lt_asymm (idxOf_lt_of_pair_sublist hn hab) (idxOf_lt_of_pair_sublist hn hba)

theorem pair_sublist_trans (hn : l.Nodup) (hab : [a, b] <+ l) (hbc : [b, c] <+ l) : [a, c] <+ l := by
  classical
  have hlt := Nat.lt_trans (idxOf_lt_of_pair_sublist hn hab) (idxOf_lt_of_pair_sublist hn hbc)
  have hne : a ≠ c := by
    rintro rfl
    exact Nat.lt_irrefl _ hlt
  refine (pair_sublist_or (hab.subset mem_cons_self) (hbc.subset (by simp)) hne).resolve_right fun hca => ?_
  exact Nat.lt_asymm hlt (idxOf_lt_of_pair_sublist hn hca)

theorem not_transGen_of_pair_sublist (hn : l.Nodup) (h : ∀ {a b}, r a b → [a, b] <+ l) (a : α) :
    ¬ Relation.TransGen r a a := by
  have path : ∀ {a b}, Relation.TransGen r a b → [a, b] <+ l := by
    intro a b hp
    induction hp with
    | single hs => exact h hs
    | tail _ hs ih => exact pair_sublist_trans hn ih (h hs)
  exact fun hp => ne_of_pair_sublist hn (path hp) rfl

/-- A node that no cycle leads to is reached backwards only finitely, if only nodes of a list lead to it. -/
theorem acc_of_no_cycle (closed : ∀ {x y}, r x y → y ∈ l → x ∈ l) (ha : a ∈ l)
    (hnone : ∀ d, Relation.ReflTransGen r d a → ¬ Relation.TransGen r d d) : Acc r a := by
  -- The elements that lead to `a` are finitely many, and on them paths lead nowhere back.
  let S := {x // x ∈ l ∧ Relation.ReflTransGen r x a}
  let R : S → S → Prop := fun x y => Relation.TransGen r x.1 y.1
  have : Finite S := (l.finite_toSet.subset fun x hx => hx.1).to_subtype
  have : Std.Irrefl R := ⟨fun x => hnone x.1 x.2.2⟩
  have wf : WellFounded R := Finite.wellFounded_of_trans_of_irrefl R
  have acc : ∀ x : S, Acc r x.1 := by
    intro x
    induction x using wf.induction with
    | _ x ih => exact ⟨_, fun y hy => ih ⟨y, closed hy x.2.1, .head hy x.2.2⟩ (.single hy)⟩
  exact acc ⟨a, ha, .refl⟩

theorem ne_of_acc (h : Acc r b) (ha : r a b) : a ≠ b := by
  rintro rfl
  induction h with
  | intro a _ ih => exact ih a ha ha

theorem acc_of_no_cycles (hl : ∀ {x y}, r x y → x ∈ l) (h : ∀ a, ¬ Relation.TransGen r a a) (b : α) : Acc r b :=
  ⟨_, fun _ hy => acc_of_no_cycle (fun hxy _ => hl hxy) (hl hy) fun d _ => h d⟩

variable {f : α → List β} {x y : β} {p q : List α} {taken queue : List Nat} {deg : Array Nat}

theorem pair_sublist_flatMap (hab : [a, b] <+ l) (hx : x ∈ f a) (hy : y ∈ f b) : [x, y] <+ l.flatMap f := by
  refine Sublist.trans ?_ (hab.flatMap f)
  have e : [a, b].flatMap f = f a ++ f b := by simp
  rw [e]
  exact (singleton_sublist.mpr hx).append (singleton_sublist.mpr hy)

theorem pair_sublist_of_flatMap (hn : (l.flatMap f).Nodup) (ha : a ∈ l) (hb : b ∈ l) (hab : a ≠ b)
    (hx : x ∈ f a) (hy : y ∈ f b) (h : [x, y] <+ l.flatMap f) : [a, b] <+ l := by
  rcases pair_sublist_or ha hb hab with h' | h'
  · exact h'
  · exact absurd (pair_sublist_flatMap h' hy hx) (pair_sublist_asymm hn h)

theorem pair_sublist_part_iff (hn : l.Nodup) (hp : p <+ l) (ha : a ∈ p) (hb : b ∈ p) :
    [a, b] <+ p ↔ [a, b] <+ l := by
  refine ⟨fun h => h.trans hp, fun h => ?_⟩
  refine (pair_sublist_or ha hb (ne_of_pair_sublist hn h)).resolve_right fun h' => ?_
  exact pair_sublist_asymm hn h (h'.trans hp)

theorem pair_sublist_append_iff (hn : (p ++ q).Nodup) (hl : l.Nodup) (hq : q <+ l) (ha : a ∈ p ++ q)
    (hb : b ∈ p ++ q) : [a, b] <+ p ++ q ↔ a ∈ p ∧ (b ∈ p → [a, b] <+ p) ∨ a ∉ p ∧ b ∉ p ∧ [a, b] <+ l := by
  have rest : ∀ {c}, c ∈ p ++ q → c ∉ p → c ∈ q := fun hc => (mem_append.1 hc).resolve_left
  by_cases hap : a ∈ p <;> by_cases hbp : b ∈ p
  · simp only [hap, hbp, not_true_eq_false, true_and, false_and, or_false, forall_const]
    exact (pair_sublist_part_iff hn (sublist_append_left p q) hap hbp).symm
  · simp only [hap, hbp, not_true_eq_false, true_and, false_and, or_false, false_implies, iff_true]
    exact (singleton_sublist.2 hap).append (singleton_sublist.2 (rest hb hbp))
  · simp only [hap, hbp, not_true_eq_false, false_and, and_false, or_false, iff_false]
    exact pair_sublist_asymm hn ((singleton_sublist.2 hbp).append (singleton_sublist.2 (rest ha hap)))
  · simp only [hap, hbp, not_false_eq_true, false_and, true_and, false_or]
    rw [← pair_sublist_part_iff hn (sublist_append_right p q) (rest ha hap) (rest hb hbp)]
    exact pair_sublist_part_iff hl hq (rest ha hap) (rest hb hbp)

theorem pair_sublist_pairwise_iff {R : α → α → Prop} (hl : l.Pairwise R) (asymm : R a b → ¬ R b a)
    (ha : a ∈ l) (hb : b ∈ l) : [a, b] <+ l ↔ R a b := by
  refine ⟨fun h => pairwise_iff_forall_sublist.1 hl h, fun h => ?_⟩
  have hab : a ≠ b := by
    rintro rfl
    exact asymm h h
  refine (pair_sublist_or ha hb hab).resolve_right fun hba => ?_
  exact asymm h (pairwise_iff_forall_sublist.1 hl hba)

theorem pair_sublist_flatMap_iff (hn : (l.flatMap f).Nodup) (ha : a ∈ l) (hx : x ∈ f a) (hy : y ∈ f a) :
    [x, y] <+ l.flatMap f ↔ [x, y] <+ f a :=
  (pair_sublist_part_iff hn (sublist_flatten_of_mem (mem_map_of_mem ha)) hx hy).symm

theorem pair_sublist_iff_lt {key : α → Int} (hl : l.Pairwise fun x y => key x < key y)
    (ha : a ∈ l) (hb : b ∈ l) : [a, b] <+ l ↔ key a < key b :=
  pair_sublist_pairwise_iff hl (fun h => Int.not_lt.2 (Int.le_of_lt h)) ha hb

variable {n a b : Nat} {edges : List (Nat × Nat)}

def Within (n : Nat) (edges : List (Nat × Nat)) : Prop := ∀ e ∈ edges, e.1 < n ∧ e.2 < n

def Needs (edges : List (Nat × Nat)) (a b : Nat) : Prop := (a, b) ∈ edges

/-! The arrays -/

def successors (edges : List (Nat × Nat)) (a : Nat) : List Nat := (edges.filter (·.1 = a)).map (·.2)

theorem getElem?_dependents : (dependents n edges)[a]? = if a < n then some (successors edges a) else none := by
  unfold dependents successors
  induction edges with
  | nil => simp [Array.getElem?_replicate]
  | cons e es ih =>
    rw [foldr_cons, Array.getElem?_modify, ih]
    by_cases h : e.1 = a
    · by_cases hn : a < n <;> simp [h, hn]
    · simp [h]

theorem getElem?_change (f : α → α) (bs : List Nat) (xs : Array α) :
    (change f bs xs)[b]? = xs[b]?.map f^[bs.count b] := by
  unfold change
  induction bs generalizing xs with
  | nil => simp
  | cons x bs ih =>
    rw [foldl_cons, ih, Array.getElem?_modify, count_cons]
    by_cases h : x = b
    · cases xs[b]? <;> simp [h]
    · simp [h]

theorem getElem?_degrees : (degrees n edges)[b]? = if b < n then some (edges.countP (·.2 = b)) else none := by
  rw [degrees, getElem?_change, Array.getElem?_replicate, count, countP_map]
  by_cases h : b < n
  · simp [h, Nat.succ_iterate]
    rfl
  · simp [h]

theorem mem_ready {bs : List Nat} : b ∈ ready bs deg ↔ b ∈ bs ∧ deg[b]? = some 0 := by
  change b ∈ bs.filter _ ∪ [] ↔ _
  simp

theorem nodup_ready (bs : List Nat) (deg : Array Nat) : (ready bs deg).Nodup := Nodup.union _ nodup_nil

theorem ready_sublist (bs : List Nat) (deg : Array Nat) : ready bs deg <+ bs := by
  obtain ⟨t, ht, e⟩ := sublist_suffix_of_union (bs.filter fun b => deg[b]? = some 0) []
  rw [append_nil] at e
  exact (e ▸ ht).trans filter_sublist

/-! The queue -/

/-- How many edges into `b` come from nodes not yet taken. -/
def waiting (edges : List (Nat × Nat)) (taken : List Nat) (b : Nat) : Nat :=
  edges.countP fun e => e.2 = b && !taken.contains e.1

theorem waiting_nil : waiting edges [] b = edges.countP (·.2 = b) := by
  simp [waiting]

theorem waiting_eq_zero : waiting edges taken b = 0 ↔ ∀ a, Needs edges a b → a ∈ taken := by
  unfold waiting
  rw [countP_eq_zero]
  constructor
  · intro h a ha
    simpa using h (a, b) ha
  · rintro h ⟨a, b'⟩ he
    by_cases hb : b' = b
    · subst hb
      simpa using h a he
    · simp [hb]

theorem count_successors : (successors edges a).count b = edges.countP fun e => e.1 = a && e.2 = b := by
  rw [count, successors, countP_map, countP_filter]
  congr 1
  funext e
  rw [Bool.and_comm]
  rfl

theorem waiting_take (ha : a ∉ taken) (b : Nat) :
    waiting edges taken b = waiting edges (taken ++ [a]) b + (successors edges a).count b := by
  rw [count_successors]
  unfold waiting
  induction edges with
  | nil => rfl
  | cons e es ih =>
    rw [countP_cons, countP_cons, countP_cons, ih]
    by_cases hb : e.2 = b
    · by_cases he : e.1 = a
      · simp [hb, he, ha]
        omega
      · by_cases ht : e.1 ∈ taken
        · simp [hb, he, ht]
        · simp [hb, he, ht]
          omega
    · simp [hb]

theorem getD_dependents (h : a < n) : ((dependents n edges)[a]?).getD [] = successors edges a := by
  rw [getElem?_dependents, if_pos h]
  rfl

/-- The state of the queue: which nodes were taken, in their order, which are ready, and how many
edges each node still waits for. -/
structure Progress (n : Nat) (edges : List (Nat × Nat)) (taken queue : List Nat) (deg : Array Nat) : Prop where
  nodup : (taken ++ queue).Nodup
  lt : ∀ a ∈ taken ++ queue, a < n
  degree : ∀ b, b < n → deg[b]? = some (waiting edges taken b)
  zero_iff : ∀ b, b < n → (waiting edges taken b = 0 ↔ b ∈ taken ++ queue)
  ordered : ∀ b ∈ taken, ∀ a, Needs edges a b → [a, b] <+ taken

theorem progress_start (n : Nat) (edges : List (Nat × Nat)) :
    Progress n edges [] ((range n).filter fun i => (degrees n edges)[i]? = some 0) (degrees n edges) where
  nodup := Nodup.filter _ nodup_range
  lt a ha := mem_range.mp (mem_of_mem_filter ha)
  degree b hb := by rw [getElem?_degrees, if_pos hb, waiting_nil]
  zero_iff b hb := by
    rw [nil_append, mem_filter, getElem?_degrees, if_pos hb, waiting_nil]
    simp [hb]
  ordered := nofun

theorem Progress.take (hw : Within n edges) (h : Progress n edges taken (a :: queue) deg) :
    let bs := ((dependents n edges)[a]?).getD []
    Progress n edges (taken ++ [a]) (queue ++ ready bs (change Nat.pred bs deg)) (change Nat.pred bs deg) := by
  have han : a < n := h.lt a (by simp)
  have hat : a ∉ taken := by
    intro hm
    have := disjoint_of_nodup_append h.nodup hm
    simp at this
  rw [getD_dependents han]
  intro bs
  have bound : ∀ b ∈ bs, b < n := by
    intro b hb
    obtain ⟨e, he, rfl⟩ := mem_map.mp hb
    exact (hw e (mem_of_mem_filter he)).2
  have split : ∀ b, waiting edges taken b = waiting edges (taken ++ [a]) b + bs.count b := fun b => waiting_take hat b
  have degree : ∀ b, b < n → (change Nat.pred bs deg)[b]? = some (waiting edges (taken ++ [a]) b) := by
    intro b hb
    rw [getElem?_change, h.degree b hb, Option.map_some, Nat.pred_iterate, split b, Nat.add_sub_cancel]
  -- a node becomes ready exactly if its last edge came from `a`
  have ready_iff : ∀ b, b < n → (b ∈ ready bs (change Nat.pred bs deg) ↔
      b ∈ bs ∧ waiting edges (taken ++ [a]) b = 0) := by
    intro b hb
    rw [mem_ready, degree b hb, Option.some.injEq]
  have ready_lt : ∀ b ∈ ready bs (change Nat.pred bs deg), b < n := fun b hb => bound b (mem_ready.1 hb).1
  have hparts : taken ++ [a] ++ (queue ++ ready bs (change Nat.pred bs deg)) =
    taken ++ a :: queue ++ ready bs (change Nat.pred bs deg) := by simp
  refine ⟨?_, ?_, degree, ?_, ?_⟩
  · rw [hparts]
    refine Nodup.append h.nodup (nodup_ready _ _) ?_
    intro b hb hr
    have hbn := ready_lt b hr
    have hz := (h.zero_iff b hbn).mpr hb
    have hc := count_pos_iff.mpr ((ready_iff b hbn).mp hr).1
    have := split b
    omega
  · intro b hb
    rw [hparts, mem_append] at hb
    exact hb.elim (h.lt b) (ready_lt b)
  · intro b hb
    have := split b
    rw [hparts, mem_append, ← h.zero_iff b hb, ready_iff b hb, ← count_pos_iff]
    omega
  · intro b hb c hc
    rcases mem_append.1 hb with hb | hb
    · exact (h.ordered b hb c hc).trans (sublist_append_left _ _)
    · obtain rfl := mem_singleton.1 hb
      have hzero := waiting_eq_zero.1 ((h.zero_iff b han).2 (by simp))
      exact (singleton_sublist.2 (hzero c hc)).append (Sublist.refl _)

theorem Progress.length_le (h : Progress n edges taken queue deg) : taken.length + queue.length ≤ n := by
  have hsub : (taken ++ queue).Subperm (range n) := subperm_of_subset h.nodup fun a ha => mem_range.mpr (h.lt a ha)
  simpa using hsub.length_le

section

variable (hw : Within n edges)

include hw

theorem Progress.drain (fuel : Nat) (h : Progress n edges taken queue deg) (hf : n ≤ fuel + taken.length) :
    ∃ deg', Progress n edges (taken ++ drain (dependents n edges) fuel queue deg) [] deg' := by
  induction fuel generalizing taken queue deg with
  | zero =>
    have := h.length_le
    have hq : queue = [] := length_eq_zero_iff.mp (by omega)
    subst hq
    exact ⟨deg, by simpa [Graph.drain] using h⟩
  | succ fuel ih =>
    cases queue with
    | nil => exact ⟨deg, by simpa [Graph.drain] using h⟩
    | cons a queue =>
      obtain ⟨deg', h'⟩ := ih (h.take hw) (by simp; omega)
      refine ⟨deg', ?_⟩
      rw [Graph.drain]
      simpa using h'

theorem progress_kahn : ∃ deg, Progress n edges (kahn n edges) [] deg := by
  unfold kahn
  simpa using (progress_start n edges).drain hw n (by simp)

/-! What can be ordered -/

theorem kahn_nodup : (kahn n edges).Nodup := by
  obtain ⟨deg, h⟩ := progress_kahn hw
  simpa using h.nodup

theorem lt_of_mem_kahn (ha : a ∈ kahn n edges) : a < n := by
  obtain ⟨deg, h⟩ := progress_kahn hw
  exact h.lt a (by simpa using ha)

theorem mem_kahn_iff_needs (hb : b < n) : b ∈ kahn n edges ↔ ∀ a, Needs edges a b → a ∈ kahn n edges := by
  obtain ⟨deg, h⟩ := progress_kahn hw
  have := h.zero_iff b hb
  rw [append_nil] at this
  rw [← this, waiting_eq_zero]

theorem sublist_kahn (hb : b ∈ kahn n edges) (hab : Needs edges a b) : [a, b] <+ kahn n edges := by
  obtain ⟨deg, h⟩ := progress_kahn hw
  exact h.ordered b hb a hab

/-- The nodes that can be ordered are those that depend on no cycle. -/
theorem mem_kahn_iff : b ∈ kahn n edges ↔ b < n ∧ Acc (Needs edges) b := by
  constructor
  · intro hb
    refine ⟨lt_of_mem_kahn hw hb, ?_⟩
    -- what a node needs has a lower position in the order
    induction b using (measure (kahn n edges).idxOf).wf.induction with
    | _ b ih =>
      refine ⟨_, fun a ha => ?_⟩
      have hab := sublist_kahn hw hb ha
      exact ih a (idxOf_lt_of_pair_sublist (kahn_nodup hw) hab) (hab.subset mem_cons_self)
  · rintro ⟨hb, hacc⟩
    induction hacc with
    | intro b _ ih => exact (mem_kahn_iff_needs hw hb).mpr fun a ha => ih a ha (hw (a, b) ha).1

end

/-! The whole order -/

theorem kahnAll_eq : kahnAll n edges = kahn n edges ++ (range n).filter (· ∉ kahn n edges) := by
  unfold kahnAll
  dsimp only
  congr 1
  refine filter_congr fun i hi => ?_
  simp only [getElem?_change, Array.getElem?_replicate, mem_range.mp hi, ← count_eq_zero]
  cases (kahn n edges).count i with
  | zero => rfl
  | succ k => simp [Function.iterate_fixed]

theorem kahnAll_perm (hw : Within n edges) : (kahnAll n edges).Perm (range n) := by
  rw [kahnAll_eq]
  have hmem : (range n).filter (· ∈ kahn n edges) ~ kahn n edges := by
    rw [perm_ext_iff_of_nodup (Nodup.filter _ nodup_range) (kahn_nodup hw)]
    intro a
    simpa using fun ha => lt_of_mem_kahn hw ha
  refine (hmem.symm.append_right _).trans ?_
  have := filter_append_perm (· ∈ kahn n edges) (range n)
  simpa using this

theorem sublist_kahnAll (hw : Within n edges) (hab : Needs edges a b)
    (hb : Acc (Needs edges) b) : [a, b] <+ kahnAll n edges := by
  have hmem : b ∈ kahn n edges := (mem_kahn_iff hw).mpr ⟨(hw (a, b) hab).2, hb⟩
  exact (sublist_kahn hw hmem hab).trans (sublist_append_left _ _)

/-! The order of a list whose elements are the nodes -/

section Ordered

variable {α : Type} {l : List α} {p : List Nat} {i j : Nat} {R : α → α → Prop}

theorem filterMap_positions (l : List α) : (range l.length).filterMap (l[·]?) = l := by
  have all : (range l.length).map (l[·]?) = l.map some := ext_getElem (by simp) (by simp +contextual)
  have := congrArg (filterMap id) all
  simpa [filterMap_map] using this

theorem perm_of_positions (h : p ~ range l.length) : p.filterMap (l[·]?) ~ l := by
  have := h.filterMap (l[·]?)
  rwa [filterMap_positions] at this

theorem pair_sublist_positions (h : [i, j] <+ p) {a b : α} (ha : l[i]? = some a) (hb : l[j]? = some b) :
    [a, b] <+ p.filterMap (l[·]?) := by
  have order := h.filterMap (l[·]?)
  have e : [i, j].filterMap (l[·]?) = [a, b] := by simp [ha, hb]
  rwa [e] at order

theorem ordered_perm (hw : Within l.length edges) : ordered l edges ~ l := perm_of_positions (kahnAll_perm hw)

theorem settled_eq :
    settled l edges = (kahn l.length edges).filterMap (l[·]?) := by simp only [settled, getElem?_toArray]

theorem settled_sublist (l : List α) (edges : List (Nat × Nat)) : settled l edges <+ ordered l edges := by
  rw [settled_eq, ordered, kahnAll_eq, filterMap_append]
  exact sublist_append_left _ _

section

variable [BEq α] [Hashable α] [LawfulBEq α] [LawfulHashable α] {a : α}

theorem getElem?_of_positions (h : (positions l)[a]? = some i) : l[i]? = some a := by
  rw [positions, getElem?_foldl_enter (f := Prod.fst) (g := Prod.snd), Std.HashMap.getElem?_empty, Option.or_none,
    Option.map_eq_some_iff] at h
  obtain ⟨x, hx, rfl⟩ := h
  have hkey : x.1 = a := eq_of_beq (find?_some (p := fun x : α × Nat => x.1 == a) hx)
  rw [← hkey]
  exact mem_zipIdx_iff_getElem?.1 (mem_reverse.1 (mem_of_find?_eq_some hx))

theorem getElem?_positions (hl : l.Nodup) : (positions l)[a]? = some i ↔ l[i]? = some a := by
  refine ⟨getElem?_of_positions, fun hi => ?_⟩
  refine (getElem?_entered (f := Prod.fst) (g := Prod.snd) fun x hx y hy hxy => ?_).2
    ⟨(a, i), mem_zipIdx_iff_getElem?.2 hi, rfl, rfl⟩
  rw [mem_zipIdx_iff_getElem?] at hx hy
  exact (getElem?_inj (lt_of_getElem? hx) hl).1 (hx.trans (hxy ▸ hy.symm))

end

/-- The edges number what the elements of a list need. -/
structure Encodes (needs : α → α → Prop) (l : List α) (edges : List (Nat × Nat)) : Prop where
  within : Within l.length edges
  needs_iff : ∀ {i j a b}, l[i]? = some a → l[j]? = some b → (Needs edges i j ↔ needs a b)
  closed : ∀ {x a}, needs x a → a ∈ l → x ∈ l

theorem encodes_of_positions {needs : α → α → Prop} (hneeds : ∀ {a b}, needs a b ↔ a ∈ l ∧ b ∈ l ∧ R a b)
    (h : ∀ {i j}, Needs edges i j ↔ ∃ a b, l[i]? = some a ∧ l[j]? = some b ∧ R a b) : Encodes needs l edges where
  within := by
    rintro ⟨i, j⟩ hij
    obtain ⟨a, b, ha, hb, -⟩ := h.1 hij
    exact ⟨lt_of_getElem? ha, lt_of_getElem? hb⟩
  needs_iff := by
    intro i j a b ha hb
    rw [h, hneeds]
    constructor
    · rintro ⟨a', b', ha', hb', hr⟩
      obtain rfl := Option.some.inj (ha.symm.trans ha')
      obtain rfl := Option.some.inj (hb.symm.trans hb')
      exact ⟨mem_of_getElem? ha, mem_of_getElem? hb, hr⟩
    · exact fun hr => ⟨a, b, ha, hb, hr.2.2⟩
  closed := fun hxa _ => (hneeds.1 hxa).1

namespace Encodes

variable {needs : α → α → Prop} (h : Encodes needs l edges) {a b x : α}

include h

theorem exists_needs (hb : l[j]? = some b) (hij : Needs edges i j) : ∃ a, l[i]? = some a ∧ needs a b := by
  have hi : i < l.length := (h.within (i, j) hij).1
  exact ⟨l[i], getElem?_eq_getElem hi, (h.needs_iff (getElem?_eq_getElem hi) hb).1 hij⟩

theorem acc_iff (ha : l[i]? = some a) : Acc (Needs edges) i ↔ Acc needs a := by
  constructor
  · intro hi
    induction hi generalizing a with
    | intro i _ ih =>
      refine ⟨_, fun x hx => ?_⟩
      obtain ⟨k, hk⟩ := mem_iff_getElem?.1 (h.closed hx (mem_of_getElem? ha))
      exact ih k ((h.needs_iff hk ha).2 hx) hk
  · intro hacc
    induction hacc generalizing i with
    | intro a _ ih =>
      refine ⟨_, fun k hk => ?_⟩
      obtain ⟨x, hx, hxa⟩ := h.exists_needs ha hk
      exact ih x hxa hx

theorem acc_of_acyclic (hR : ∀ {x a}, needs x a → R x a) (acyclic : ∀ a, ¬ Relation.TransGen R a a)
    (ha : a ∈ l) : Acc needs a :=
  acc_of_no_cycle h.closed ha fun d _ path => acyclic d (Relation.TransGen.mono (fun _ _ => hR) d d path)

theorem acc_iff_no_cycle (ha : a ∈ l) : Acc needs a ↔
    ∀ d, Relation.ReflTransGen needs d a → ¬ Relation.TransGen needs d d := by
  constructor
  · intro hacc d hda hcycle
    have hd : Acc (Relation.TransGen needs) d := by
      rcases Relation.reflTransGen_iff_eq_or_transGen.1 hda with rfl | hda
      · exact hacc.transGen
      · exact hacc.transGen.inv hda
    induction hd with
    | intro d _ ih => exact ih d hcycle (.trans hcycle.to_reflTransGen hda) hcycle
  · exact acc_of_no_cycle h.closed ha

theorem nodup_settled (hn : l.Nodup) : (settled l edges).Nodup :=
  ((ordered_perm h.within).nodup_iff.2 hn).sublist (settled_sublist l edges)

theorem mem_settled_iff : a ∈ settled l edges ↔ a ∈ l ∧ Acc needs a := by
  rw [settled_eq, mem_filterMap]
  constructor
  · rintro ⟨i, hi, ha⟩
    exact ⟨mem_of_getElem? ha, (h.acc_iff ha).1 ((mem_kahn_iff h.within).1 hi).2⟩
  · rintro ⟨ha, hacc⟩
    obtain ⟨i, hi⟩ := mem_iff_getElem?.1 ha
    exact ⟨i, (mem_kahn_iff h.within).2 ⟨lt_of_getElem? hi, (h.acc_iff hi).2 hacc⟩, hi⟩

theorem pair_sublist_settled (ha : a ∈ settled l edges) (hx : needs x a) : [x, a] <+ settled l edges := by
  rw [settled_eq] at ha ⊢
  obtain ⟨j, hj, hja⟩ := mem_filterMap.1 ha
  obtain ⟨i, hi⟩ := mem_iff_getElem?.1 (h.closed hx (mem_of_getElem? hja))
  exact pair_sublist_positions (sublist_kahn h.within hj ((h.needs_iff hi hja).2 hx)) hi hja

theorem pair_sublist_of_needs (hx : needs x a) (ha : a ∈ l) (hacc : Acc needs a) : [x, a] <+ ordered l edges := by
  obtain ⟨i, hi⟩ := mem_iff_getElem?.1 (h.closed hx ha)
  obtain ⟨j, hj⟩ := mem_iff_getElem?.1 ha
  exact pair_sublist_positions (sublist_kahnAll h.within ((h.needs_iff hi hj).2 hx) ((h.acc_iff hj).2 hacc)) hi hj

end Encodes

theorem not_transGen_of_sides {P : α → Prop} (h : ∀ {a b}, R a b → P a ∧ ¬ P b) (a : α) :
    ¬ Relation.TransGen R a a := by
  intro path
  obtain ⟨_, out, -⟩ := Relation.TransGen.head'_iff.1 path
  obtain ⟨_, -, back⟩ := Relation.TransGen.tail'_iff.1 path
  exact (h back).2 (h out).1

end Ordered

end Sheetwork.Graph
