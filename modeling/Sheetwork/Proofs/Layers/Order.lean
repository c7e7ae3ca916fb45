import Sheetwork.Layers.Code.Order
import Sheetwork.Layers.Engine
import Sheetwork.Proofs.Graph.Queue
import Sheetwork.Proofs.Reference
/-
  Layers: three orders of calculation. Of the formulas of a workbook those are ordered that depend on no cycle
  (`order_readings`). In the other two orders a node that needs what is not there waits for itself (`Waits`), and so
  does what depends on it (`acc_waits_iff`). An engine therefore leaves out every formula that goes back to an input
  (`order_latest`), and the parts of a script that do so stand last, by their names (`sort_acyclic`).
-/

open List Relation

namespace Sheetwork.Graph

variable {α : Type} {l : List α} {edges : List (Nat × Nat)} {R : α → α → Prop} {a : α}

/-- A node waits for those that it needs, and for itself if it needs what is not there. -/
def Waits (R : α → α → Prop) (l : List α) (x a : α) : Prop := x ∈ l ∧ a ∈ l ∧ (R x a ∨ x = a ∧ ∃ y, R y a ∧ y ∉ l)

theorem encodes_waits [BEq α] [Hashable α] [LawfulBEq α] [LawfulHashable α] (hn : l.Nodup)
    (h : ∀ {i j}, Needs edges i j ↔ ∃ p a, l[j]? = some a ∧ R p a ∧ ((positions l)[p]?).getD j = i) :
    Encodes (Waits R l) l edges := by
  refine encodes_of_positions Iff.rfl fun {i j} => h.trans ⟨?_, ?_⟩
  · rintro ⟨p, a, ha, hpa, rfl⟩
    cases hp : (positions l)[p]? with
    | some k => exact ⟨p, a, getElem?_of_positions hp, ha, .inl hpa⟩
    | none =>
      refine ⟨a, a, ha, ha, .inr ⟨rfl, p, hpa, fun hm => ?_⟩⟩
      obtain ⟨k, hk⟩ := mem_iff_getElem?.1 hm
      rw [(getElem?_positions hn).2 hk] at hp
      cases hp
  · rintro ⟨p, a, hp, ha, hpa | ⟨rfl, y, hy, hnot⟩⟩
    · exact ⟨p, a, ha, hpa, by rw [(getElem?_positions hn).2 hp]; rfl⟩
    · refine ⟨y, p, ha, hy, ?_⟩
      cases hk : (positions l)[y]? with
      | some k => exact absurd (mem_of_getElem? (getElem?_of_positions hk)) hnot
      | none => exact (getElem?_inj (lt_of_getElem? ha) hn).1 (ha.trans hp.symm)

/-- Where needs make no cycle, a node waits in vain exactly if it goes back to what is not there. -/
theorem acc_waits_iff (hR : Acc R a) (ha : a ∈ l) : Acc (Waits R l) a ↔ ∀ d, ReflTransGen R d a → d ∈ l := by
  constructor
  · intro hacc
    induction hacc with
    | intro a hacc ih =>
      intro d hd
      rcases hd.cases_tail with rfl | ⟨y, hdy, hya⟩
      · exact ha
      · have hy : y ∈ l := by
          by_contra hy
          exact ne_of_acc ⟨a, hacc⟩ ⟨ha, ha, .inr ⟨rfl, y, hya, hy⟩⟩ rfl
        exact ih y ⟨hy, ha, .inl hya⟩ (hR.inv hya) hy d hdy
  · intro hall
    induction hR with
    | intro a _ ih =>
      refine ⟨_, ?_⟩
      rintro x ⟨hx, -, hxa | ⟨-, y, hya, hy⟩⟩
      · exact ih x hxa hx fun d hd => hall d (hd.tail hxa)
      · exact absurd (hall y (.single hya)) hy

theorem map_settled {α β : Type} (f : α → β) (l : List α) (edges : List (Nat × Nat)) :
    (settled l edges).map f = settled (l.map f) edges := by
  simp [settled_eq, map_filterMap]

section

variable (h : Encodes (Waits R l) l edges) (hR : ∀ a, Acc R a)

include h hR

theorem mem_settled_waits_iff : a ∈ settled l edges ↔ a ∈ l ∧ ∀ d, ReflTransGen R d a → d ∈ l := by
  rw [h.mem_settled_iff]
  exact and_congr_right fun ha => acc_waits_iff (hR a) ha

theorem pair_sublist_settled_waits {p : α} (ha : a ∈ settled l edges) (hp : R p a) : [p, a] <+ settled l edges := by
  obtain ⟨hal, hall⟩ := (mem_settled_waits_iff h hR).1 ha
  exact h.pair_sublist_settled ha ⟨hall p (.single hp), hal, .inl hp⟩

end

end Sheetwork.Graph

namespace Sheetwork.Layers

open Sheetwork.Graph

namespace Graph

def Reads (g : Graph) (p c : String) : Prop := p ∈ g.formulas ∧ c ∈ g.formulas ∧ p ∈ g.precedentsOf c

/-- The order of a workbook lists the formulas that depend on no cycle, each once and after all formulas
that it reads. -/
theorem order_readings (w : Workbook) (found : List (List String)) :
    let g : Graph := { readings w with cycles := found }
    g.order.Nodup ∧
    (∀ c, c ∈ g.order ↔ c ∈ g.formulas ∧ ∀ d, ReflTransGen g.Reads d c → ¬ TransGen g.Reads d d) ∧
    ∀ p c, c ∈ g.order → g.Reads p c → [p, c] <+ g.order := by
  intro g
  have hn : g.formulas.Nodup := Ordered.nodup_ofList _
  have h : Encodes g.Reads g.formulas (g.formulas.zipIdx.flatMap fun x => (g.precedentsOf x.1).filterMap fun p =>
      ((positions g.formulas)[p]?).map (·, x.2)) := by
    refine encodes_of_positions Iff.rfl fun {i j} => ?_
    simp only [Needs, mem_flatMap, mem_filterMap, Option.map_eq_some_iff, getElem?_positions hn, Prod.exists,
      mk_mem_zipIdx_iff_getElem?, Prod.mk.injEq]
    constructor
    · rintro ⟨c, j, hc, p, hp, i, hi, rfl, rfl⟩
      exact ⟨p, c, hi, hc, hp⟩
    · rintro ⟨p, c, hi, hc, hp⟩
      exact ⟨c, j, hc, p, hp, i, hi, rfl, rfl⟩
  refine ⟨h.nodup_settled hn, fun c => h.mem_settled_iff.trans (and_congr_right h.acc_iff_no_cycle), fun p c => ?_⟩
  exact h.pair_sublist_settled

end Graph

namespace Engine

def Entry.reads (e : Entry) : List Place :=
  match formulaText e with
  | .ok (some f) => references f e.place.sheet
  | _ => []

def Reads (es : List Entry) (p q : Place) : Prop := ∃ e ∈ es, e.place = q ∧ p ∈ e.reads

theorem map_putBy {α κ : Type} [DecidableEq κ] (key : α → κ) (a : α) (l : List α) :
    (putBy key a l).map key = if key a ∈ l.map key then l.map key else l.map key ++ [key a] := by
  induction l with
  | nil => rfl
  | cons b l ih =>
    rw [putBy]
    by_cases h : key b = key a
    · simp [h]
    · rw [if_neg h, map_cons, ih, map_cons]
      split <;> simp_all [eq_comm]

theorem nodup_latest (all : List Entry) : ((latest all).map Entry.place).Nodup := by
  unfold latest
  induction all using reverseRecOn with
  | nil => exact nodup_nil
  | append_singleton es e ih =>
    rw [foldl_concat, map_putBy]
    split
    · exact ih
    · next h => exact nodup_append.2 ⟨ih, nodup_singleton _, by simpa using h⟩

/-- The edges to a formula from what it reads; what is no formula counts as the formula itself. -/
def edgesTo (es : List Entry) (x : Entry × Nat) : List (Nat × Nat) :=
  x.1.reads.map fun p => (((positions (es.map Entry.place))[p]?).getD x.2, x.2)

theorem order_eq {es : List Entry} (ht : ∀ e ∈ es, ∃ f, formulaText e = .ok f) :
    order es = .ok (settled es ((Ordered.sortOn (·.1.place) es.zipIdx).flatMap (edgesTo es))) := by
  refine bind_ok (mapM_ok (g := edgesTo es) fun ⟨e, i⟩ hx => ?_) rfl
  rw [Ordered.sortOn, mem_mergeSort] at hx
  obtain ⟨f, hf⟩ := ht e (fst_mem_of_mem_zipIdx hx)
  dsimp only
  rw [edgesTo, Entry.reads, hf]
  cases f <;> rfl

theorem encodes_edgesTo {es : List Entry} (hn : (es.map Entry.place).Nodup) :
    Encodes (Waits (Reads es) (es.map Entry.place)) (es.map Entry.place)
      ((Ordered.sortOn (·.1.place) es.zipIdx).flatMap (edgesTo es)) := by
  refine encodes_waits hn fun {i j} => ?_
  simp only [Needs, edgesTo, mem_flatMap, mem_map, Ordered.sortOn, mem_mergeSort, Prod.exists,
    mk_mem_zipIdx_iff_getElem?, Prod.mk.injEq, getElem?_map, Option.map_eq_some_iff]
  constructor
  · rintro ⟨e, k, he, p, hp, rfl, rfl⟩
    exact ⟨p, e.place, ⟨e, he, rfl⟩, ⟨e, mem_of_getElem? he, rfl, hp⟩, rfl⟩
  · rintro ⟨p, q, ⟨e, he, rfl⟩, ⟨d, hd, heq, hp⟩, rfl⟩
    obtain rfl := inj_on_of_nodup_map hn hd (mem_of_getElem? he) heq
    exact ⟨d, j, he, p, hp, rfl, rfl⟩

/-- Without cycles an engine orders the formulas that go back to formulas only, each once and after all that it
reads. -/
theorem order_latest {all : List Entry} (ht : ∀ e ∈ latest all, ∃ f, formulaText e = .ok f)
    (acyclic : ∀ p, ¬ TransGen (Reads (latest all)) p p) :
    ∃ found, order (latest all) = .ok found ∧ (found.map Entry.place).Nodup ∧
      (∀ p, p ∈ found.map Entry.place ↔ p ∈ (latest all).map Entry.place ∧
        ∀ d, ReflTransGen (Reads (latest all)) d p → d ∈ (latest all).map Entry.place) ∧
      ∀ d p, p ∈ found.map Entry.place → Reads (latest all) d p → [d, p] <+ found.map Entry.place := by
  have h := encodes_edgesTo (nodup_latest all)
  have hR := acc_of_no_cycles (l := (latest all).flatMap Entry.reads)
    (fun ⟨e, he, _, hp⟩ => mem_flatMap.2 ⟨e, he, hp⟩) acyclic
  refine ⟨_, order_eq ht, ?_⟩
  rw [map_settled]
  exact ⟨h.nodup_settled (nodup_latest all), fun p => mem_settled_waits_iff h hR, fun d p => pair_sublist_settled_waits h hR⟩

/-- A formula that reads an input is not in the order. -/
theorem order_latest_input :
    let e : Entry := ⟨⟨"S", "B1"⟩, .text "=A1", 0, .null, false⟩
    ∃ found, order (latest [e]) = .ok found ∧ e.place ∉ found.map Entry.place := by
  intro e
  have hreads : e.reads = [⟨"S", "A1"⟩] := by decide +kernel
  have reads : ∀ {p q}, Reads (latest [e]) p q ↔ p = ⟨"S", "A1"⟩ ∧ q = e.place := fun {p q} => by
    simp [Reads, latest, putBy, hreads, and_comm, eq_comm]
  obtain ⟨found, hfound, -, hmem, -⟩ := @order_latest [e] (forall_mem_singleton.2 ⟨_, rfl⟩)
    (not_transGen_of_pair_sublist (l := [⟨"S", "A1"⟩, e.place]) (by decide) fun h => by
      rw [(reads.1 h).1, (reads.1 h).2])
  refine ⟨found, hfound, fun h => ?_⟩
  exact absurd (((hmem _).1 h).2 ⟨"S", "A1"⟩ (.single (reads.2 ⟨rfl, rfl⟩))) (by decide)

end Engine

end Sheetwork.Layers

namespace Sheetwork.Layers.Code

open Sheetwork.Graph

/-- What nodes are compared by: groups come first. -/
def Node.parts : Node → Nat × Int × String × String
  | group id => (0, id, "", "")
  | cell sheet address => (1, 0, sheet, address)

theorem Node.compare_eq : compare = compareLex (compareOn fun n : Node => n.parts.1)
    (compareLex (compareOn fun n => n.parts.2.1)
      (compareLex (compareOn fun n => n.parts.2.2.1) (compareOn fun n => n.parts.2.2.2))) := by
  funext m n
  cases m <;> cases n <;> first | rfl | exact congrArg (Ordering.then _) Ordering.then_eq

instance : Std.TransOrd Node := by
  rw [Std.TransOrd, Node.compare_eq]
  infer_instance

instance : Std.LawfulEqOrd Node where
  eq_of_compare := by
    rintro (_ | _) (_ | _) h <;> simp_all [Node.compare_eq, compareOn, Node.parts]

theorem Edge.compare_eq : compare = compareLex (compareOn Edge.dependent) (compareOn Edge.precedent) := by
  funext d e
  exact congrArg (Ordering.then _) Ordering.then_eq

instance : Std.LawfulEqOrd Edge where
  compare_self := by simp [Edge.compare_eq, Std.ReflCmp.compare_self]
  eq_of_compare := by
    rintro ⟨d, p⟩ ⟨d', p'⟩ h
    simpa [Edge.compare_eq, compareOn] using h

namespace Schedule

variable {s : Schedule}

def Precedes (s : Schedule) (p n : Node) : Prop := ⟨n, p⟩ ∈ s.edges

theorem mem_nodes {n : Node} : n ∈ s.nodes ↔ n ∈ s.added := Ordered.mem_ofList

theorem encodes_numbered (s : Schedule) : Encodes (Waits s.Precedes s.nodes) s.nodes s.numbered := by
  have hn : s.nodes.Nodup := Ordered.nodup_ofList _
  refine encodes_waits hn fun {i j} => ?_
  simp only [Needs, numbered, mem_filterMap, Option.map_eq_some_iff, getElem?_positions hn, Prod.mk.injEq, allEdges,
    Ordered.mem_ofList]
  constructor
  · rintro ⟨⟨n, p⟩, he, k, hk, rfl, rfl⟩
    exact ⟨p, n, hk, he, rfl⟩
  · rintro ⟨p, n, hn, he, rfl⟩
    exact ⟨⟨n, p⟩, he, j, hn, rfl, rfl⟩

theorem acc_precedes (acyclic : ∀ n, ¬ TransGen s.Precedes n n) (n : Node) : Acc s.Precedes n :=
  acc_of_no_cycles (l := s.edges.map Edge.precedent) (mem_map_of_mem (f := Edge.precedent)) acyclic n

/-- Without cycles all parts are sorted, each once. A part comes before one that needs it exactly if it goes back to
parts only or its name comes first. -/
theorem sort_acyclic (hd : ∀ e ∈ s.edges, e.dependent ∈ s.added) (acyclic : ∀ n, ¬ TransGen s.Precedes n n) :
    ∃ found, s.sort = .ok found ∧ found.Nodup ∧ (∀ n, n ∈ found ↔ n ∈ s.added) ∧ ∀ p n, p ∈ s.added → s.Precedes p n →
        ([p, n] <+ found ↔ (∀ d, ReflTransGen s.Precedes d p → d ∈ s.added) ∨ compare p n = .lt) := by
  have h := encodes_numbered s
  have hR := acc_precedes acyclic
  have hall : s.allEdges.all (fun e => s.nodes.contains e.dependent ||
      !(settled s.nodes s.numbered).contains e.precedent) = true := by
    refine all_eq_true.2 fun e he => ?_
    rw [contains_iff_mem.2 (mem_nodes.2 (hd e (Ordered.mem_ofList.1 he))), Bool.true_or]
  set K := settled s.nodes s.numbered with hK
  set L := s.nodes.filter (!K.contains ·) with hL
  have hL : ∀ {n}, n ∈ L ↔ n ∈ s.added ∧ n ∉ K := by
    intro n
    rw [hL, mem_filter, mem_nodes]
    simp
  have hK : ∀ {n}, n ∈ K ↔ n ∈ s.added ∧ ∀ d, ReflTransGen s.Precedes d n → d ∈ s.added := by
    intro n
    simp only [hK, mem_settled_waits_iff h hR, mem_nodes]
  have hnodes : s.nodes.Nodup := Ordered.nodup_ofList _
  have hn : (K ++ L).Nodup := (h.nodup_settled hnodes).append (hnodes.filter _) fun n hnK hnL => (hL.1 hnL).2 hnK
  have hmem : ∀ n, n ∈ K ++ L ↔ n ∈ s.added := by
    intro n
    rw [mem_append, hL]
    have := @hK n
    tauto
  refine ⟨K ++ L, if_pos hall, hn, hmem, fun p n hp hpn => ?_⟩
  have hnode : n ∈ s.added := hd _ hpn
  have hpair : [p, n] <+ s.nodes ↔ compare p n = .lt :=
    pair_sublist_pairwise_iff (Ordered.ascending_ofList _) Std.OrientedCmp.not_lt_of_lt (mem_nodes.2 hp)
      (mem_nodes.2 hnode)
  have hafter : n ∈ K → [p, n] <+ K := fun hnK => pair_sublist_settled_waits h hR hnK hpn
  have hback : n ∈ K → p ∈ K := fun hnK => (hafter hnK).subset mem_cons_self
  rw [pair_sublist_append_iff hn hnodes filter_sublist ((hmem p).2 hp) ((hmem n).2 hnode), hpair]
  have := @hK p
  tauto

/-- What waits for an empty cell comes last, and there by its name. -/
theorem sort_empty_cell :
    let cell := Node.cell "S"
    ∃ found, sort { added := [cell "A1", cell "B1"], edges := [⟨cell "A1", cell "B1"⟩, ⟨cell "B1", cell "C1"⟩] } =
      .ok found ∧ ¬ [cell "B1", cell "A1"] <+ found := by
  intro cell
  obtain ⟨found, hfound, -, -, hafter⟩ := sort_acyclic
    (s := { added := [cell "A1", cell "B1"], edges := [⟨cell "A1", cell "B1"⟩, ⟨cell "B1", cell "C1"⟩] }) (by decide)
    (not_transGen_of_pair_sublist (l := [cell "C1", cell "B1", cell "A1"]) (by decide) fun {p n} h => by
      simp [Precedes] at h
      rcases h with ⟨rfl, rfl⟩ | ⟨rfl, rfl⟩ <;> simp)
  refine ⟨found, hfound, fun h => ?_⟩
  rcases (hafter _ _ (by decide) mem_cons_self).1 h with h | h
  · exact absurd (h (cell "C1") (.single (mem_cons_of_mem _ mem_cons_self))) (by decide)
  · cases h

end Schedule

end Sheetwork.Layers.Code
