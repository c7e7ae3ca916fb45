import Sheetwork.Graph.Components
import Sheetwork.Proofs.Graph.Kahn
import Sheetwork.Proofs.Reference
/-
  Graphs: what the depth-first search finds. `Valid` says what holds of a search between two nodes: nothing is listed
  twice, lower nodes of the stack reach the higher ones, and closed components are strongly connected and lead only to
  themselves and to components closed before (`Settled`). `Explored` says what a visit adds: the nodes it leaves on
  the stack reach the visited one, and the lowest height they meet is the one it returns. One look at a successor
  keeps the invariant of the open node (`Exploring.look`), hence the fold over all of them does, and the visit of a
  node (`explored_visit`) and the whole search follow.

  Main statements. `areComponents_components`: every node is in one component, nodes share a component exactly if each
  reaches the other, and no edge leads to a later component. `componentsOf_by_leads` says it of a graph given by its
  edges.
-/

open List

namespace Sheetwork.Graph

namespace Components

open Relation

variable {α : Type} (next : α → List α)

def Edge (x y : α) : Prop := y ∈ next x

def Reach : α → α → Prop := ReflTransGen (Edge next)

/-- Components, the latest first: not empty, strongly connected, and without edges to later ones or out of
them all. -/
structure Settled (cs : List (List α)) : Prop where
  ne_nil : ∀ c ∈ cs, c ≠ []
  connected : ∀ c ∈ cs, ∀ x ∈ c, ∀ y ∈ c, Reach next x y
  backwards : cs.Pairwise fun d c => ∀ x ∈ c, ∀ w ∈ next x, w ∉ d
  closed : ∀ x ∈ cs.flatten, ∀ w ∈ next x, w ∈ cs.flatten

variable {x y : α} {cs : List (List α)}

variable {next} {as : List α}

theorem Reach.edge (h : y ∈ next x) : Reach next x y := ReflTransGen.single h

theorem Reach.refl (x : α) : Reach next x x := ReflTransGen.refl

theorem Reach.trans {z : α} (h : Reach next x y) (h' : Reach next y z) : Reach next x z := ReflTransGen.trans h h'

theorem Settled.mem_of_reach (h : Settled next cs) (hx : x ∈ cs.flatten) (hxy : Reach next x y) : y ∈ cs.flatten := by
  induction hxy with
  | refl => exact hx
  | tail _ edge ih => exact h.closed _ ih _ edge

section

variable [DecidableEq α] {x : α}

theorem height_cons_self (x : α) (l : List α) : height x (x :: l) = l.length := by simp [height]

theorem height_append_of_notMem (bs : List α) (h : x ∉ as) : height x (as ++ bs) = height x bs := by
  induction as with
  | nil => rfl
  | cons a as ih =>
    rw [mem_cons, not_or] at h
    rw [cons_append, height, if_neg h.1, ih h.2]

theorem height_lt_of_mem {l : List α} (h : x ∈ l) : height x l < l.length := by
  induction l with
  | nil => simp at h
  | cons a l ih =>
    rw [height, length_cons]
    split
    · omega
    · next hne =>
      have := ih (mem_of_ne_of_mem hne h)
      omega

theorem length_le_height (bs : List α) (h : x ∈ as) : bs.length ≤ height x (as ++ bs) := by
  induction as with
  | nil => simp at h
  | cons a as ih =>
    rw [cons_append, height]
    split
    · rw [length_append]
      omega
    · next hne => exact ih (mem_of_ne_of_mem hne h)

end

/-! The invariant of the search -/

variable (next)

/-- The search between two nodes; `nodes` holds all that it can meet. -/
structure Valid (nodes : List α) (s : Walk α) : Prop where
  nodup : (s.stack ++ s.closed.flatten).Nodup
  mem_seen : ∀ x, x ∈ s.seen ↔ x ∈ s.stack ++ s.closed.flatten
  mem_nodes : ∀ x ∈ s.seen, x ∈ nodes
  upwards : s.stack.Pairwise fun high low => Reach next low high
  settled : Settled next s.closed

/-- A node that the search has met, at `low` or higher if it is still on the stack. -/
def Met [DecidableEq α] (t : Walk α) (low : Nat) (w : α) : Prop := w ∈ t.seen ∧ (w ∈ t.stack → low ≤ height w t.stack)

/-- What the open node `x` above `s` has explored: `above` are the nodes left on the stack above it,
`done` its successors looked at so far, `low` the lowest height met. -/
structure Exploring [DecidableEq α] (nodes : List α) (s : Walk α) (x : α) (done : List α) (low : Nat)
    (t : Walk α) (above : List α) : Prop where
  valid : Valid next nodes t
  stack : t.stack = above ++ x :: s.stack
  closed : ∃ cs, t.closed = cs ++ s.closed
  back : ∀ y ∈ above, Reach next y x
  met : ∀ y ∈ above, ∀ w ∈ next y, Met t low w
  met_done : ∀ w ∈ done, Met t low w
  reached : ∃ z ∈ x :: s.stack, height z (x :: s.stack) = low ∧ Reach next x z

/-- What a visit of `x` from `s` has found when it is over: the nodes `above` that it left on the stack, if
any, reach a node below them. -/
structure Explored [DecidableEq α] (nodes : List α) (s : Walk α) (x : α) (low : Nat) (t : Walk α)
    (above : List α) : Prop where
  valid : Valid next nodes t
  stack : t.stack = above ++ s.stack
  closed : ∃ cs, t.closed = cs ++ s.closed
  seen : x ∈ t.seen
  back : ∀ y ∈ above, Reach next y x
  met : ∀ y ∈ above, ∀ w ∈ next y, Met t low w
  reached : above = [] ∧ low = s.stack.length ∨ ∃ z ∈ s.stack, height z s.stack = low ∧ Reach next x z

variable {next} {nodes : List α} {s t : Walk α}

theorem Valid.mem_stack_of_seen (hs : Valid next nodes s) (ht : Valid next nodes t)
    (hclosed : ∃ cs, t.closed = cs ++ s.closed) (hy : y ∈ s.seen) (hyt : y ∈ t.stack) : y ∈ s.stack := by
  rcases mem_append.mp ((hs.mem_seen y).mp hy) with h | h
  · exact h
  · obtain ⟨cs, e⟩ := hclosed
    have hin : y ∈ t.closed.flatten := by
      rw [e, flatten_append]
      exact mem_append_right _ h
    exact absurd rfl ((nodup_append.mp ht.nodup).2.2 y hyt y hin)

theorem Valid.enter (hs : Valid next nodes s) (hx : x ∉ s.seen) (hn : x ∈ nodes) (hr : ∀ y ∈ s.stack, Reach next y x) :
    Valid next nodes (s.enter x) where
  nodup := nodup_cons.mpr ⟨fun h => hx ((hs.mem_seen x).mpr h), hs.nodup⟩
  mem_seen y := by
    show y ∈ x :: s.seen ↔ y ∈ x :: (s.stack ++ s.closed.flatten)
    rw [mem_cons, mem_cons, hs.mem_seen]
  mem_nodes := forall_mem_cons.2 ⟨hn, hs.mem_nodes⟩
  upwards := pairwise_cons.mpr ⟨hr, hs.upwards⟩
  settled := hs.settled

variable [DecidableEq α] {w : α}

theorem Met.mono {low low' : Nat} (h : Met t low w) (hle : low' ≤ low) : Met t low' w :=
  ⟨h.1, fun hw => Nat.le_trans hle (h.2 hw)⟩

theorem exploring_enter (hs : Valid next nodes s) (hx : x ∉ s.seen) (hn : x ∈ nodes)
    (hr : ∀ y ∈ s.stack, Reach next y x) :
    Exploring next nodes s x [] s.stack.length (s.enter x) [] where
  valid := hs.enter hx hn hr
  stack := rfl
  closed := ⟨[], rfl⟩
  back := by simp
  met := by simp
  met_done := by simp
  reached := ⟨x, mem_cons_self, height_cons_self x s.stack, Reach.refl x⟩

theorem Explored.seen_subset {low : Nat} {above : List α} (h : Explored next nodes s x low t above)
    (hs : Valid next nodes s) : s.seen ⊆ t.seen := by
  intro y hy
  obtain ⟨cs, e⟩ := h.closed
  rw [h.valid.mem_seen, h.stack, e, flatten_append]
  have := (hs.mem_seen y).1 hy
  simp only [mem_append] at this ⊢
  tauto

namespace Exploring

variable {done above : List α} {low : Nat} (h : Exploring next nodes s x done low t above)

include h

theorem low_le : low ≤ s.stack.length := by
  obtain ⟨z, hz, rfl, -⟩ := h.reached
  have := height_lt_of_mem hz
  rw [length_cons] at this
  omega

theorem reach_open (hy : y ∈ t.stack) : Reach next y x := by
  have up := h.valid.upwards
  rw [h.stack] at hy up
  rcases mem_append.mp hy with hy | hy
  · exact h.back y hy
  · rcases mem_cons.mp hy with rfl | hy
    · exact Reach.refl y
    · exact (pairwise_cons.mp (pairwise_append.mp up).2.1).1 y hy

theorem height_eq (hy : y ∈ t.stack) (hlow : height y t.stack < low) :
    y ∈ x :: s.stack ∧ height y (x :: s.stack) = height y t.stack := by
  have hle := h.low_le
  rw [h.stack] at hy hlow ⊢
  have hnot : y ∉ above := by
    intro hin
    have := length_le_height (x :: s.stack) hin
    rw [length_cons] at this
    omega
  refine ⟨?_, (height_append_of_notMem (x :: s.stack) hnot).symm⟩
  exact (mem_append.mp hy).resolve_left hnot

/-- What is met on the stack may be lower. -/
theorem reached_min {z : α} (hz : z ∈ t.stack) (hxz : Reach next x z) : ∃ z' ∈ x :: s.stack,
    height z' (x :: s.stack) = min low (height z t.stack) ∧ Reach next x z' := by
  rcases Nat.lt_or_ge (height z t.stack) low with hlt | hge
  · obtain ⟨hmem, e⟩ := h.height_eq hz hlt
    exact ⟨z, hmem, by rw [e, Nat.min_eq_right (Nat.le_of_lt hlt)], hxz⟩
  · rw [Nat.min_eq_left hge]
    exact h.reached

/-- A successor on the stack: the lowest height met may fall. -/
theorem look_stack (hw : w ∈ next x) (hws : w ∈ t.stack) :
    Exploring next nodes s x (done ++ [w]) (min low (height w t.stack)) t above where
  __ := h
  met y hy v hv := (h.met y hy v hv).mono (Nat.min_le_left _ _)
  met_done v hv := by
    rcases mem_append.mp hv with hv | hv
    · exact (h.met_done v hv).mono (Nat.min_le_left _ _)
    · rw [mem_singleton.mp hv]
      exact ⟨(h.valid.mem_seen w).mpr (mem_append_left _ hws), fun _ => Nat.min_le_right _ _⟩
  reached := h.reached_min hws (Reach.edge hw)

/-- A successor in a closed component changes nothing. -/
theorem look_closed (hws : w ∉ t.stack) (hseen : w ∈ t.seen) : Exploring next nodes s x (done ++ [w]) low t above where
  __ := h
  met_done v hv := by
    rcases mem_append.mp hv with hv | hv
    · exact h.met_done v hv
    · rw [mem_singleton.mp hv]
      exact ⟨hseen, fun hin => absurd hin hws⟩

theorem look_new {l : Nat} {t' : Walk α} {above' : List α} (hw : w ∈ next x)
    (hnew : w ∉ t.seen) (hv : Explored next nodes t w l t' above') :
    Exploring next nodes s x (done ++ [w]) (min low l) t' (above' ++ above) := by
  -- what was met before the visit is where it was
  have old : ∀ v, Met t low v → Met t' (min low l) v := by
    rintro v ⟨hseen, hle⟩
    refine ⟨hv.seen_subset h.valid hseen, fun hvs => ?_⟩
    have hin := h.valid.mem_stack_of_seen hv.valid hv.closed hseen hvs
    have hnot : v ∉ above' := by
      intro hin'
      have nodup := (nodup_append.mp hv.valid.nodup).1
      rw [hv.stack] at nodup
      exact (nodup_append.mp nodup).2.2 v hin' v hin rfl
    rw [hv.stack, height_append_of_notMem t.stack hnot]
    exact Nat.le_trans (Nat.min_le_left _ _) (hle hin)
  refine ⟨hv.valid, ?_, ?_, ?_, ?_, ?_, ?_⟩
  · rw [hv.stack, h.stack, append_assoc]
  · obtain ⟨cs, e⟩ := h.closed
    obtain ⟨cs', e'⟩ := hv.closed
    exact ⟨cs' ++ cs, by rw [e', e, append_assoc]⟩
  · intro y hy
    rcases mem_append.mp hy with hy | hy
    · rcases hv.reached with ⟨rfl, -⟩ | ⟨z, hz, -, hwz⟩
      · simp at hy
      · exact (hv.back y hy).trans (hwz.trans (h.reach_open hz))
    · exact h.back y hy
  · intro y hy v hvy
    rcases mem_append.mp hy with hy | hy
    · exact (hv.met y hy v hvy).mono (Nat.min_le_right _ _)
    · exact old v (h.met y hy v hvy)
  · intro v hvd
    rcases mem_append.mp hvd with hvd | hvd
    · exact old v (h.met_done v hvd)
    · rw [mem_singleton.mp hvd]
      refine ⟨hv.seen, fun hws => ?_⟩
      -- a node left on the stack by its own visit lies above `x`
      have hnot : w ∉ t.stack := fun hin => hnew ((h.valid.mem_seen w).mpr (mem_append_left _ hin))
      rw [hv.stack] at hws ⊢
      have hin := (mem_append.mp hws).resolve_right hnot
      have hle := length_le_height t.stack hin
      have hlow := h.low_le
      rw [h.stack, length_append, length_cons] at hle
      rw [h.stack]
      exact Nat.le_trans (Nat.min_le_left _ _) (by omega)
  · rcases hv.reached with ⟨-, rfl⟩ | ⟨z, hz, rfl, hwz⟩
    · have hlow := h.low_le
      rw [h.stack, length_append, length_cons, Nat.min_eq_left (by omega)]
      exact h.reached
    · exact h.reached_min hz ((Reach.edge hw).trans hwz)

theorem look {visit : Walk α → α → Nat × Walk α} (hw : w ∈ next x)
    (hvisit : w ∉ t.seen → ∃ above', Explored next nodes t w (visit t w).1 (visit t w).2 above') :
    ∃ above', Exploring next nodes s x (done ++ [w]) (Components.look visit (low, t) w).1
      (Components.look visit (low, t) w).2 above' ∧ t.seen ⊆ (Components.look visit (low, t) w).2.seen := by
  unfold Components.look
  dsimp only
  split
  · next hstack => exact ⟨above, h.look_stack hw hstack, fun _ hy => hy⟩
  · next hstack =>
    split
    · next hseen => exact ⟨above, h.look_closed hstack hseen, fun _ hy => hy⟩
    · next hseen =>
      obtain ⟨above', hv⟩ := hvisit hseen
      exact ⟨_, h.look_new hw hseen hv, hv.seen_subset h.valid⟩

variable (hdone : ∀ w ∈ next x, w ∈ done)

include hdone

theorem met_of_done : ∀ y ∈ above ++ [x], ∀ w ∈ next y, Met t low w := by
  intro y hy w hw
  rcases mem_append.mp hy with hy | hy
  · exact h.met y hy w hw
  · rw [mem_singleton.mp hy] at hw
    exact h.met_done w (hdone w hw)

/-- The open node meets nothing below it: it closes a component. -/
theorem close (hs : Valid next nodes s) (hlow : low = s.stack.length) :
    Explored next nodes s x s.stack.length (t.close s.stack.length) [] := by
  have cut : t.stack.length - s.stack.length = (above ++ [x]).length := by
    rw [h.stack, length_append, length_append, length_cons, length_singleton]
    omega
  have stack : t.stack = (above ++ [x]) ++ s.stack := by rw [h.stack, append_assoc]; rfl
  have e : t.close s.stack.length = { t with stack := s.stack, closed := (above ++ [x]) :: t.closed } := by
    rw [Walk.close, cut, stack, drop_left, take_left]
  have perm : (s.stack ++ ((above ++ [x]) :: t.closed).flatten).Perm (t.stack ++ t.closed.flatten) := by
    rw [stack, flatten_cons, ← append_assoc]
    exact Perm.append_right _ perm_append_comm
  have reach : ∀ y ∈ above ++ [x], Reach next y x ∧ Reach next x y := by
    intro y hy
    refine ⟨h.reach_open (by rw [stack]; exact mem_append_left _ hy), ?_⟩
    have up := h.valid.upwards
    rw [h.stack, pairwise_append] at up
    rcases mem_append.mp hy with hy | hy
    · exact up.2.2 y hy x mem_cons_self
    · rw [mem_singleton.mp hy]
      exact Reach.refl x
  -- a successor on the stack is at least as high as `x`
  have out : ∀ y ∈ above ++ [x], ∀ w ∈ next y, w ∈ above ++ [x] ∨ w ∈ t.closed.flatten := by
    intro y hy w hw
    have met := h.met_of_done hdone y hy w hw
    rcases mem_append.mp ((h.valid.mem_seen w).mp met.1) with hin | hin
    · left
      by_contra hnot
      have hle := met.2 hin
      rw [stack] at hin hle
      rw [height_append_of_notMem _ hnot] at hle
      have := height_lt_of_mem ((mem_append.mp hin).resolve_left hnot)
      omega
    · exact Or.inr hin
  rw [e]
  have nodup := perm.nodup_iff.mpr h.valid.nodup
  have settled : Settled next ((above ++ [x]) :: t.closed) := by
    refine ⟨forall_mem_cons.2 ⟨by simp, h.valid.settled.ne_nil⟩, forall_mem_cons.2 ⟨?_, h.valid.settled.connected⟩,
      pairwise_cons.2 ⟨fun c hc y hy w hw hwa => ?_, h.valid.settled.backwards⟩, fun y hy w hw => ?_⟩
    · exact fun y hy z hz => (reach y hy).1.trans (reach z hz).2
    · have hin := h.valid.settled.closed y (mem_flatten.2 ⟨c, hc, hy⟩) w hw
      exact (nodup_append.1 (nodup_append.1 nodup).2.1).2.2 w hwa w hin rfl
    · rcases mem_append.1 hy with hy | hy
      · exact mem_append.2 (out y hy w hw)
      · exact mem_append_right _ (h.valid.settled.closed y hy w hw)
  refine ⟨⟨nodup, ?_, h.valid.mem_nodes, hs.upwards, settled⟩, rfl, ?_, ?_, by simp, by simp, Or.inl ⟨rfl, rfl⟩⟩
  · intro y
    exact (h.valid.mem_seen y).trans perm.mem_iff.symm
  · obtain ⟨cs, e⟩ := h.closed
    exact ⟨(above ++ [x]) :: cs, by rw [e]; rfl⟩
  · exact (h.valid.mem_seen x).mpr (mem_append_left _ (by rw [h.stack]; simp))

/-- The open node meets a lower one: it stays on the stack. -/
theorem keep (hlow : low ≠ s.stack.length) : Explored next nodes s x low t (above ++ [x]) := by
  refine ⟨h.valid, ?_, h.closed, ?_, ?_, h.met_of_done hdone, Or.inr ?_⟩
  · rw [h.stack, append_assoc]
    rfl
  · exact (h.valid.mem_seen x).mpr (mem_append_left _ (by rw [h.stack]; simp))
  · intro y hy
    exact h.reach_open (by rw [h.stack]; simp at hy ⊢; tauto)
  · obtain ⟨z, hz, e, hxz⟩ := h.reached
    have hne : z ≠ x := by
      rintro rfl
      rw [height_cons_self] at e
      exact hlow e.symm
    refine ⟨z, mem_of_ne_of_mem hne hz, ?_, hxz⟩
    rw [← e, height, if_neg hne]

end Exploring

/-! The search -/

def unseen (nodes : List α) (s : Walk α) : Nat := (nodes.filter (· ∉ s.seen)).length

theorem unseen_mono (h : s.seen ⊆ t.seen) : unseen nodes t ≤ unseen nodes s := by
  refine Sublist.length_le (monotone_filter_right nodes fun y hy => ?_)
  simp only [decide_eq_true_eq] at hy ⊢
  exact fun hin => hy (h hin)

theorem unseen_enter (hx : x ∉ s.seen) (hn : x ∈ nodes) : unseen nodes (s.enter x) < unseen nodes s := by
  have hmem : x ∈ nodes.filter (· ∉ s.seen) := mem_filter.mpr ⟨hn, decide_eq_true hx⟩
  have e : nodes.filter (· ∉ (s.enter x).seen) = (nodes.filter (· ∉ s.seen)).filter (· ≠ x) := by simp [Walk.enter]
  rw [unseen, unseen, e]
  exact length_filter_lt_length_iff_exists.mpr ⟨x, hmem, by simp⟩

/-- The search between two nodes that it starts from. -/
def Rests (next : α → List α) (nodes : List α) (s : Walk α) : Prop := Valid next nodes s ∧ s.stack = []

def turn (next : α → List α) (fuel : Nat) (s : Walk α) (x : α) : Walk α :=
  if x ∈ s.seen then s else (visit next fuel s x).2

variable (hnodes : ∀ y ∈ nodes, ∀ w ∈ next y, w ∈ nodes) {fuel : Nat}

include hnodes

theorem explored_visit (fuel : Nat) :
    ∀ {s : Walk α} {x : α}, Valid next nodes s → x ∉ s.seen → x ∈ nodes → (∀ y ∈ s.stack, Reach next y x) →
    unseen nodes s ≤ fuel → ∃ above, Explored next nodes s x (visit next fuel s x).1 (visit next fuel s x).2 above := by
  induction fuel with
  | zero =>
    intro s x _ hx hn _ hfuel
    have := unseen_enter hx hn
    omega
  | succ fuel ih =>
    intro s x hs hx hn hr hfuel
    have hbound : unseen nodes (s.enter x) ≤ fuel := by
      have := unseen_enter hx hn
      omega
    -- the successors one by one, with those done so far
    have loop : ∀ (ws done : List α) (low : Nat) (t : Walk α) (above : List α),
        (∀ w ∈ ws, w ∈ next x) → Exploring next nodes s x done low t above →
        unseen nodes t ≤ fuel → ∃ above', Exploring next nodes s x (done ++ ws)
          (ws.foldl (look (visit next fuel)) (low, t)).1
          (ws.foldl (look (visit next fuel)) (low, t)).2 above' := by
      intro ws
      induction ws with
      | nil =>
        intro done low t above _ h _
        exact ⟨above, by simpa using h⟩
      | cons w ws ihw =>
        intro done low t above hws h hfuel
        have hw := hws w mem_cons_self
        have hws := fun v hv => hws v (mem_cons_of_mem w hv)
        rw [foldl_cons, show done ++ w :: ws = (done ++ [w]) ++ ws by simp]
        obtain ⟨above', h', subset⟩ := h.look hw fun hseen => ih h.valid hseen (hnodes x hn w hw)
          (fun y hy => (h.reach_open hy).trans (Reach.edge hw)) hfuel
        exact ihw _ _ _ _ hws h' (Nat.le_trans (unseen_mono subset) hfuel)
    obtain ⟨above, h⟩ := loop (next x) [] _ _ _ (fun _ hw => hw) (exploring_enter hs hx hn hr) hbound
    rw [visit]
    dsimp only
    split
    · next hlow => exact ⟨[], h.close (by simp) hs hlow⟩
    · next hlow => exact ⟨_, h.keep (by simp) hlow⟩

theorem rests_turn (hfuel : nodes.length ≤ fuel) (hs : Rests next nodes s) (hx : x ∈ nodes) :
    Rests next nodes (turn next fuel s x) ∧ s.seen ⊆ (turn next fuel s x).seen ∧ x ∈ (turn next fuel s x).seen := by
  unfold turn
  split
  · next hseen => exact ⟨hs, fun _ h => h, hseen⟩
  · next hseen =>
    obtain ⟨above, hv⟩ := explored_visit hnodes fuel hs.1 hseen hx (by simp [hs.2])
      (Nat.le_trans (length_filter_le _ _) hfuel)
    refine ⟨⟨hv.valid, ?_⟩, hv.seen_subset hs.1, hv.seen⟩
    -- nothing lies below the first node, so its visit leaves nothing on the stack
    rcases hv.reached with ⟨rfl, -⟩ | ⟨z, hz, -⟩
    · rw [hv.stack, hs.2]
      rfl
    · rw [hs.2] at hz
      cases hz

theorem exists_valid (hfuel : nodes.length ≤ fuel) : ∃ s : Walk α, Valid next nodes s ∧ s.stack = [] ∧
      (∀ y ∈ nodes, y ∈ s.seen) ∧ components next fuel nodes = s.closed.reverse := by
  have loop : ∀ (xs : List α) (s : Walk α), (∀ y ∈ xs, y ∈ nodes) → Rests next nodes s →
      Rests next nodes (xs.foldl (turn next fuel) s) ∧ s.seen ⊆ (xs.foldl (turn next fuel) s).seen ∧
        ∀ y ∈ xs, y ∈ (xs.foldl (turn next fuel) s).seen := by
    intro xs
    induction xs with
    | nil => exact fun s _ hs => ⟨hs, fun _ h => h, nofun⟩
    | cons x xs ih =>
      intro s hxs hs
      obtain ⟨hu, before, hxu⟩ := rests_turn hnodes hfuel hs (hxs x mem_cons_self)
      obtain ⟨ht, subset, hall⟩ := ih _ (fun y hy => hxs y (mem_cons_of_mem x hy)) hu
      exact ⟨ht, fun y hy => subset (before hy), forall_mem_cons.2 ⟨subset hxu, hall⟩⟩
  have start : Valid next nodes {} :=
    ⟨nodup_nil, fun x => Iff.rfl, by simp, Pairwise.nil, nofun, nofun, Pairwise.nil, nofun⟩
  obtain ⟨ht, -, hall⟩ := loop nodes {} (fun _ h => h) ⟨start, rfl⟩
  exact ⟨_, ht.1, ht.2, hall, rfl⟩

omit hnodes

variable {c : List α}

omit [DecidableEq α] in
theorem Settled.tail (h : Settled next (c :: cs)) : Settled next cs := by
  obtain ⟨hc, later⟩ := pairwise_cons.1 h.backwards
  refine ⟨(forall_mem_cons.1 h.ne_nil).2, (forall_mem_cons.1 h.connected).2, later, fun x hx w hw => ?_⟩
  refine (mem_append.1 (h.closed x (mem_append_right _ hx) w hw)).resolve_left ?_
  obtain ⟨d, hd, hxd⟩ := mem_flatten.1 hx
  exact hc d hd x hxd w hw

omit [DecidableEq α] in
theorem Settled.mem_component (h : Settled next cs) (hn : cs.flatten.Nodup) (hc : c ∈ cs) (hx : x ∈ c)
    (hxy : Reach next x y) (hyx : Reach next y x) : y ∈ c := by
  induction cs with
  | nil => cases hc
  | cons d cs ih =>
    have hy := h.mem_of_reach (mem_flatten.mpr ⟨c, hc, hx⟩) hxy
    obtain ⟨-, hn, disjoint⟩ := nodup_append.mp hn
    rcases mem_cons.mp hc with rfl | hc
    · refine (mem_append.mp hy).resolve_right fun hy => ?_
      exact disjoint x hx x (h.tail.mem_of_reach hy hyx) rfl
    · exact ih h.tail hn hc

end Components

open Components

variable {α : Type} {nodes : List α} {edges : List (α × α)}

/-- A list of the strongly connected components of a graph, without edges to later ones. -/
structure AreComponents {α : Type} (next : α → List α) (nodes : List α) (cs : List (List α)) : Prop where
  ne_nil : ∀ c ∈ cs, c ≠ []
  nodup : cs.flatten.Nodup
  mem_flatten : ∀ x, x ∈ cs.flatten ↔ x ∈ nodes
  mem_iff : ∀ c ∈ cs, ∀ x ∈ c, ∀ y, y ∈ c ↔ Reach next x y ∧ Reach next y x
  backwards : cs.Pairwise fun c d => ∀ x ∈ c, ∀ w ∈ next x, w ∉ d

namespace AreComponents

variable {next : α → List α} {cs : List (List α)} (h : AreComponents next nodes cs)

include h

theorem nodup_components : cs.Nodup := by
  refine Pairwise.imp_of_mem (fun {c d} hc _ disjoint e => ?_) (nodup_flatten.1 h.nodup).2
  obtain ⟨x, hx⟩ := exists_mem_of_ne_nil c (h.ne_nil c hc)
  exact disjoint hx (e ▸ hx)

variable {c d : List α} {x y : α}

theorem eq_of_mem (hc : c ∈ cs) (hd : d ∈ cs) (hx : x ∈ c) (hx' : x ∈ d) : c = d := by
  have disjoint : ∀ {c d}, [c, d] <+ cs → c.Disjoint d := pairwise_iff_forall_sublist.1 (nodup_flatten.1 h.nodup).2
  by_contra hne
  rcases pair_sublist_or hc hd hne with hcd | hdc
  · exact disjoint hcd hx hx'
  · exact disjoint hdc hx' hx

/-- What a component leads to is in it or in an earlier one, since no edge leads to a later one. -/
theorem exists_mem_of_reach (hnodes : ∀ x ∈ nodes, ∀ w ∈ next x, w ∈ nodes) (hc : c ∈ cs) (hx : x ∈ c)
    (hxy : Reach next x y) : ∃ d ∈ cs, y ∈ d ∧ (d = c ∨ [d, c] <+ cs) := by
  induction hxy with
  | refl => exact ⟨c, hc, hx, .inl rfl⟩
  | @tail y z _ hyz ih =>
    obtain ⟨d, hd, hyd, hdc⟩ := ih
    have hy := (h.mem_flatten y).1 (List.mem_flatten.2 ⟨d, hd, hyd⟩)
    obtain ⟨e, he, hze⟩ := List.mem_flatten.1 ((h.mem_flatten z).2 (hnodes y hy z hyz))
    refine ⟨e, he, hze, ?_⟩
    by_cases hed : e = d
    · exact hed ▸ hdc
    · have before : [e, d] <+ cs := (pair_sublist_or he hd hed).resolve_right fun later =>
        pairwise_iff_forall_sublist.1 h.backwards later y hyd z hyz hze
      exact .inr (hdc.elim (· ▸ before) (pair_sublist_trans h.nodup_components before))

end AreComponents

theorem areComponents_components [DecidableEq α] {next : α → List α} (hnodes : ∀ y ∈ nodes, ∀ w ∈ next y, w ∈ nodes)
    (hfuel : nodes.length ≤ fuel) : AreComponents next nodes (components next fuel nodes) := by
  obtain ⟨s, hs, hstack, hall, e⟩ := exists_valid hnodes hfuel
  have hn : s.closed.flatten.Nodup := by
    have := hs.nodup
    rwa [hstack] at this
  have perm : (s.closed.reverse).flatten.Perm s.closed.flatten := s.closed.reverse_perm.flatten
  rw [e]
  refine ⟨fun c hc => hs.settled.ne_nil c (mem_reverse.mp hc), perm.nodup_iff.mpr hn, fun x => ?_,
    fun c hc x hx y => ?_, ?_⟩
  · have hseen := hs.mem_seen x
    rw [hstack, nil_append] at hseen
    rw [perm.mem_iff, ← hseen]
    exact ⟨hs.mem_nodes x, hall x⟩
  · rw [mem_reverse] at hc
    exact ⟨fun hy => ⟨hs.settled.connected c hc x hx y hy, hs.settled.connected c hc y hy x hx⟩,
      fun h => hs.settled.mem_component hn hc hx h.1 h.2⟩
  · exact pairwise_reverse.mpr hs.settled.backwards

def targets {α : Type} [Ord α] [DecidableEq α] (edges : List (α × α)) (x : α) : List α :=
  Ordered.ofList ((edges.filter (·.1 = x)).map (·.2))

theorem mem_targets [Ord α] [Std.LawfulEqOrd α] [DecidableEq α] {x y : α} : y ∈ targets edges x ↔ (x, y) ∈ edges := by
  rw [targets, Ordered.mem_ofList]
  simp

theorem areComponents_componentsOf [Ord α] [Std.LawfulEqOrd α] [DecidableEq α] (h : ∀ e ∈ edges, e.2 ∈ nodes) :
    AreComponents (targets edges) nodes (componentsOf nodes edges) :=
  areComponents_components (fun _ _ w hw => h _ (mem_targets.mp hw)) (by omega)

def Leads (edges : List (α × α)) : α → α → Prop := Relation.ReflTransGen fun x y => (x, y) ∈ edges

theorem reach_targets [Ord α] [Std.LawfulEqOrd α] [DecidableEq α] : Reach (targets edges) = Leads edges := by
  unfold Reach Leads Edge
  simp only [mem_targets]

/-- Where all edges lead to nodes, every node is in one component and there once; two nodes share a component
exactly if each leads to the other; and a component comes after all others that it leads to. -/
theorem componentsOf_by_leads {α : Type} [Ord α] [Std.LawfulEqOrd α] [DecidableEq α] (nodes : List α)
    (edges : List (α × α)) (h : ∀ e ∈ edges, e.2 ∈ nodes) :
    (∀ x, (componentsOf nodes edges).flatten.count x = if x ∈ nodes then 1 else 0) ∧
      (∀ x ∈ nodes, ∀ y, (∃ c ∈ componentsOf nodes edges, x ∈ c ∧ y ∈ c) ↔ Leads edges x y ∧ Leads edges y x) ∧
      ∀ c ∈ componentsOf nodes edges, ∀ d ∈ componentsOf nodes edges, c ≠ d →
        (∃ x ∈ c, ∃ y ∈ d, Leads edges x y) → [d, c] <+ componentsOf nodes edges := by
  have hc := areComponents_componentsOf h
  simp only [← reach_targets]
  refine ⟨fun x => ?_, fun x hx y => ?_, ?_⟩
  · simp only [hc.nodup.count, hc.mem_flatten]
  · obtain ⟨c, hcm, hxc⟩ := mem_flatten.1 ((hc.mem_flatten x).2 hx)
    rw [← hc.mem_iff c hcm x hxc]
    constructor
    · rintro ⟨d, hd, hxd, hyd⟩
      rwa [hc.eq_of_mem hcm hd hxc hxd]
    · exact fun hy => ⟨c, hcm, hxc, hy⟩
  · rintro c hcm d hd hne ⟨x, hx, y, hy, hxy⟩
    have inside : ∀ z ∈ nodes, ∀ w ∈ targets edges z, w ∈ nodes := fun z _ w hw => h _ (mem_targets.1 hw)
    obtain ⟨e, he, hye, hec⟩ := hc.exists_mem_of_reach inside hcm hx hxy
    rw [hc.eq_of_mem hd he hy hye] at hne ⊢
    exact hec.resolve_left hne.symm

/-- Two nodes that lead to each other, and a third one behind them. -/
theorem componentsOf_by_leads_pair :
    let edges := [("a", "b"), ("b", "a"), ("b", "c")]
    (∀ e ∈ edges, e.2 ∈ ["a", "b", "c"]) ∧ (∃ c ∈ componentsOf ["a", "b", "c"] edges, "a" ∈ c ∧ "b" ∈ c) ∧
      [["c"], ["b", "a"]] <+ componentsOf ["a", "b", "c"] edges := by
  intro edges
  have inside : ∀ e ∈ edges, e.2 ∈ ["a", "b", "c"] := by decide
  have found : componentsOf ["a", "b", "c"] edges = [["c"], ["b", "a"]] := by cbv
  obtain ⟨-, shared, order⟩ := componentsOf_by_leads ["a", "b", "c"] edges inside
  refine ⟨inside, (shared "a" (by decide) "b").2 ⟨.single (by decide), .single (by decide)⟩, ?_⟩
  refine order ["b", "a"] (by simp [found]) ["c"] (by simp [found]) (by decide) ⟨"b", by simp, "c", by simp, ?_⟩
  exact .single (by decide)

end Sheetwork.Graph
