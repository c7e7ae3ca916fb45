import Sheetwork.Layers.Graph
import Sheetwork.Proofs.Outcome
/-
  Layers: the cycles that a graph of formulas records. The path of a search runs along edges, so a node of it that is
  met again closes a walk. Without closed walks only the path of a search is open, and none fails. As long as no cycle
  is found, all paths end that begin at nodes the search has left (`Clear`), so that a search which finds none has
  seen that there is none (`ends_of_cycles`).
-/

open List

namespace Sheetwork.Graph

variable {α : Type} [BEq α] [LawfulBEq α] {next : α → List α} {path : List α} {a : α}

/-- A walk along edges that comes back to where it begins. -/
def ClosedWalk (next : α → List α) (c : List α) : Prop :=
  (∃ a p, c = a :: (p ++ [a])) ∧ c.IsChain fun x y => y ∈ next x

section

variable (hpath : (path ++ [a]).IsChain fun x y => y ∈ next x)

include hpath

theorem closedWalk_drop {b : α} (hb : b ∈ next a) {i : Nat} (hi : (path ++ [a]).findIdx? (· == b) = some i) :
    ClosedWalk next ((path ++ [a]).drop i ++ ((path ++ [a]).drop i).head?.toList) := by
  obtain ⟨hlt, hbeq, -⟩ := findIdx?_eq_some_iff_getElem.1 hi
  have hdrop := drop_eq_getElem_cons hlt
  rw [eq_of_beq hbeq] at hdrop
  have hhead : ((path ++ [a]).drop i).head?.toList = [b] := by rw [hdrop]; rfl
  rw [hhead]
  refine ⟨⟨b, (path ++ [a]).drop (i + 1), by rw [hdrop]; rfl⟩, (hpath.drop i).append (isChain_singleton b) ?_⟩
  rw [length_append, length_singleton] at hlt
  rw [drop_append_of_le_length (Nat.le_of_lt_succ hlt), getLast?_concat]
  rintro _ ⟨⟩ _ ⟨⟩
  exact hb

variable [Hashable α] {name : α → String} {visit : Search α → α → Outcome (Bool × Search α)} {fuel : Nat}
  {st : Search α} {q r : Bool × Search α}

omit [LawfulBEq α] hpath in
theorem look_cases {b : α} (h : Search.look name visit path q b = .ok r) :
    q.1 = true ∧ r = q ∨ q.1 = false ∧ (b ∉ q.2.visited ∧ visit q.2 b = .ok r ∨ b ∈ q.2.visited ∧
      ((∃ i, path.findIdx? (· == b) = some i ∧ r = (true, { q.2 with cycles := q.2.cycles ++ [path.drop i] })) ∨
        b ∉ q.2.open_ ∧ r = q)) := by
  obtain ⟨_ | _, st⟩ := q
  · refine .inr ⟨rfl, ?_⟩
    rw [Search.look, if_neg Bool.false_ne_true] at h
    split at h
    · next hb => exact .inl ⟨by simpa using hb, h⟩
    · next hb =>
      refine .inr ⟨by simpa using hb, ?_⟩
      split at h
      · split at h <;> cases h
        next hi => exact .inl ⟨_, hi, rfl⟩
      · next hb =>
        cases h
        exact .inr ⟨by simpa using hb, rfl⟩
  · cases h
    exact .inl ⟨rfl, rfl⟩

/-- The cycles found are closed walks, once their first nodes are put at their ends. -/
def Recorded (next : α → List α) (st : Search α) : Prop := ∀ c ∈ st.cycles, ClosedWalk next (c ++ c.head?.toList)

theorem recorded_descend (hst : Recorded next st) (h : descend name next fuel path st a = .ok r) :
    Recorded next r.2 := by
  induction fuel generalizing path st a r with
  | zero =>
    cases h
    exact hst
  | succ fuel ih =>
    obtain ⟨q, hq, h⟩ := of_bind h
    have hq : Recorded next q.2 := by
      refine foldlM_invariant (P := fun q => Recorded next q.2) (fun q q' b hb hq h => ?_) hst hq
      obtain ⟨-, rfl⟩ | ⟨-, ⟨-, h⟩ | ⟨-, ⟨i, hi, rfl⟩ | ⟨-, rfl⟩⟩⟩ := look_cases h
      · exact hq
      · exact ih (hpath.append (isChain_singleton b) (by simpa using hb)) hq h
      · exact forall_mem_append.2 ⟨hq, forall_mem_singleton.2 (closedWalk_drop hpath hb hi)⟩
      · exact hq
    dsimp only at h
    split at h <;> cases h <;> exact hq

/-- No cycle is found, and only the path is open. -/
def Idle (path : List α) (r : Bool × Search α) : Prop := r.1 = false ∧ ∀ x ∈ r.2.open_, x ∈ path

theorem exists_descend [LawfulHashable α] (hnone : ∀ c, ¬ ClosedWalk next c) (hst : ∀ x ∈ st.open_, x ∈ path) :
    ∃ r, descend name next fuel path st a = .ok r ∧ Idle path r := by
  induction fuel generalizing path st a with
  | zero => exact ⟨_, rfl, rfl, hst⟩
  | succ fuel ih =>
    refine exists_bind (exists_foldlM (P := Idle (path ++ [a])) (fun q b hb hq => ?_) ⟨rfl, fun x hx => ?_⟩)
      fun q hq => ?_
    · obtain ⟨_, st⟩ := q
      obtain ⟨rfl, hopen⟩ := hq
      rw [Search.look, if_neg Bool.false_ne_true]
      split
      · exact ih (hpath.append (isChain_singleton b) (by simpa using hb)) hopen
      · split
        · next hb' =>
          cases hi : (path ++ [a]).findIdx? (· == b) with
          | some i => exact absurd (closedWalk_drop hpath hb hi) (hnone _)
          | none => exact absurd (findIdx?_eq_none_iff.1 hi b (hopen b hb')) (by simp)
        · exact ⟨_, rfl, rfl, hopen⟩
    · rw [Std.HashSet.mem_insert, beq_iff_eq] at hx
      exact mem_append.2 (hx.symm.imp (hst x) (by simp +contextual))
    · obtain ⟨_, st⟩ := q
      obtain ⟨rfl, hopen⟩ := hq
      refine ⟨_, rfl, rfl, fun x hx => ?_⟩
      rw [Std.HashSet.mem_erase, beq_eq_false_iff_ne] at hx
      simpa [hx.1.symm] using hopen x hx.2

end

variable [Hashable α] {name : α → String} {fuel : Nat} {starts : List α}

theorem closedWalk_of_cycles {cs : List (List α)} (h : cycles name next fuel starts = .ok cs) :
    ∀ c ∈ cs, ClosedWalk next (c ++ c.head?.toList) := by
  obtain ⟨st, hst, h⟩ := of_bind h
  cases h
  refine foldlM_invariant (P := Recorded next) (fun st st' a _ hst h => ?_) (by simp [Recorded]) hst
  split at h
  · cases h
    exact hst
  · obtain ⟨r, hr, rfl⟩ := map_eq_ok_iff.1 h
    exact recorded_descend (isChain_singleton a) hst hr

theorem cycles_eq_nil [LawfulHashable α] (hnone : ∀ c, ¬ ClosedWalk next c) :
    cycles name next fuel starts = .ok [] := by
  obtain ⟨cs, hcs, -⟩ : ∃ cs, cycles name next fuel starts = .ok cs ∧ True := by
    refine exists_bind (exists_foldlM (P := fun st => ∀ x ∈ st.open_, x ∈ []) (fun st a _ hst => ?_) (by simp))
      fun _ _ => ⟨_, rfl, trivial⟩
    split
    · exact ⟨st, rfl, hst⟩
    · obtain ⟨r, hr, -, hopen⟩ := exists_descend (isChain_singleton a) hnone hst
      exact ⟨r.2, map_eq_ok_iff.2 ⟨r, hr, rfl⟩, hopen⟩
  rw [hcs, eq_nil_iff_forall_not_mem.2 fun c hc => hnone _ (closedWalk_of_cycles hcs c hc)]

/-! What a search that finds no cycle has seen -/

/-- No path from a node goes on forever. -/
abbrev Ends (next : α → List α) : α → Prop := Acc fun y x => y ∈ next x

variable {st : Search α} {done done' nodes : List α} {q r : Bool × Search α}

/-- As long as no cycle is found, all paths end that begin at nodes seen and not open. -/
def Clear (next : α → List α) (r : Bool × Search α) : Prop :=
  r.2.cycles = [] → r.1 = false ∧ ∀ x ∈ r.2.visited, x ∉ r.2.open_ → Ends next x

/-- The search has gone on from `st` through some nodes. -/
structure Searched (next : α → List α) (st : Search α) (done : List α) (r : Bool × Search α) : Prop where
  clear : Clear next r
  visited : ∀ x ∈ st.visited, x ∈ r.2.visited
  ends : r.2.cycles = [] → st.cycles = [] ∧ (∀ x ∈ r.2.open_, x ∈ st.open_) ∧ ∀ x ∈ done, Ends next x

namespace Searched

omit [LawfulBEq α]

theorem trans (h : Searched next st done q) (h' : Searched next q.2 done' r) : Searched next st (done ++ done') r := by
  refine ⟨h'.clear, fun x hx => h'.visited x (h.visited x hx), fun hr => ?_⟩
  obtain ⟨hq, hopen', hdone'⟩ := h'.ends hr
  obtain ⟨hst, hopen, hdone⟩ := h.ends hq
  exact ⟨hst, fun x hx => hopen x (hopen' x hx), forall_mem_append.2 ⟨hdone, hdone'⟩⟩

theorem refl (hq : Clear next q) (hdone : q.2.cycles = [] → ∀ x ∈ done, Ends next x) : Searched next q.2 done q :=
  ⟨hq, fun _ hx => hx, fun hc => ⟨hc, fun _ hx => hx, hdone hc⟩⟩

theorem of_cycle (hvisited : ∀ x ∈ st.visited, x ∈ r.2.visited) (hne : r.2.cycles ≠ []) : Searched next st done r :=
  ⟨fun hc => absurd hc hne, hvisited, fun hc => absurd hc hne⟩

end Searched

variable [LawfulHashable α] (hnodes : ∀ x ∈ nodes, ∀ y ∈ next x, y ∈ nodes)

include hnodes

-- a path goes on only to nodes not seen yet, so that it is no longer than there are nodes
theorem searched_descend (hst : Clear next (false, st)) (hpath : (path ++ [a]).Nodup) (hin : path ++ [a] ⊆ nodes)
    (hseen : ∀ x ∈ path, x ∈ st.visited) (hfuel : nodes.length ≤ path.length + fuel)
    (h : descend name next fuel path st a = .ok r) : Searched next st [a] r := by
  induction fuel generalizing path st a r with
  | zero =>
    have := (hpath.subperm hin).length_le
    rw [length_append, length_singleton] at this
    omega
  | succ fuel ih =>
    obtain ⟨q, hq, h⟩ := of_bind h
    have loop : Searched next { st with visited := st.visited.insert a, open_ := st.open_.insert a } (next a) q := by
      refine foldlM_induction (motive := fun l p _ => Clear next p → (∀ x ∈ path ++ [a], x ∈ p.2.visited) →
        l ⊆ next a → Searched next p.2 l q) (fun hp _ _ => .refl hp (by simp))
        (fun {b l p p'} hb _ ih' hp hseen hl => ?_) hq (fun hc => ⟨rfl, fun x hx ho => ?_⟩) (fun x hx => ?_) (Subset.refl _)
      · obtain ⟨hb', hl⟩ := cons_subset.1 hl
        have step : Searched next p.2 [b] p' := by
          obtain ⟨hfound, rfl⟩ | ⟨hfound, ⟨hnew, h⟩ | ⟨hold, ⟨_, _, rfl⟩ | ⟨hopen, rfl⟩⟩⟩ := look_cases hb
          · exact .refl hp fun hc => by simp [(hp hc).1] at hfound
          · refine ih (fun hc => ⟨rfl, (hp hc).2⟩) (hpath.append (nodup_singleton b) ?_) ?_ hseen ?_ h
            · exact disjoint_singleton.2 fun hb => hnew (hseen b hb)
            · exact append_subset.2 ⟨hin, by simpa using hnodes a (hin (by simp)) b hb'⟩
            · rw [length_append, length_singleton]
              omega
          · exact .of_cycle (fun x hx => hx) (by simp)
          · exact .refl hp fun hc => by simpa using (hp hc).2 b hold hopen
        exact step.trans (ih' step.clear (fun x hx => step.visited x (hseen x hx)) hl)
      · simp only [Std.HashSet.mem_insert, beq_iff_eq, not_or] at hx ho
        exact (hst hc).2 x (hx.resolve_left ho.1) ho.2
      · rw [Std.HashSet.mem_insert, beq_iff_eq]
        exact (mem_append.1 hx).symm.imp (by simp +contextual) (hseen x)
    have hvisited : ∀ x ∈ st.visited, x ∈ q.2.visited := fun x hx => loop.visited x (by simp [hx])
    dsimp only at h
    split at h <;> cases h
    · next hfound => exact .of_cycle hvisited fun hc => by simp [(loop.clear hc).1] at hfound
    · have ends : q.2.cycles = [] → Ends next a := fun hc => ⟨_, (loop.ends hc).2.2⟩
      refine ⟨fun hc => ⟨rfl, fun x hx ho => ?_⟩, hvisited,
        fun hc => ⟨(loop.ends hc).1, fun x hx => ?_, by simpa using ends hc⟩⟩
      · by_cases hxa : x = a
        · exact hxa ▸ ends hc
        · exact (loop.clear hc).2 x hx fun ho' => ho (Std.HashSet.mem_erase.2 ⟨by simpa using Ne.symm hxa, ho'⟩)
      · obtain ⟨hne, hx⟩ := Std.HashSet.mem_erase.1 hx
        exact (Std.HashSet.mem_insert.1 ((loop.ends hc).2.1 x hx)).resolve_left (by simp [hne])

theorem ends_of_cycles (hfuel : nodes.length ≤ fuel) (h : cycles name next fuel nodes = .ok []) :
    ∀ a ∈ nodes, Ends next a := by
  obtain ⟨st, hst, h⟩ := of_bind h
  have hc : st.cycles = [] := Except.ok.inj h
  have run : Searched next {} ([] ++ nodes) (false, st) := by
    refine foldlM_induction (motive := fun l q _ => ∀ done, Searched next {} done (false, q) → l ⊆ nodes →
      Searched next {} (done ++ l) (false, st)) (fun done hp _ => by rwa [append_nil])
      (fun {a l q q'} ha _ ih done hq hl => ?_) hst []
      (.refl (q := (false, {})) (by simp [Clear]) (by simp)) (Subset.refl _)
    obtain ⟨ha', hl⟩ := cons_subset.1 hl
    rw [append_cons]
    refine ih _ (hq.trans ?_) hl
    split at ha
    · next hold =>
      cases ha
      refine .refl hq.clear fun hc => forall_mem_singleton.2 ((hq.clear hc).2 a hold fun ho => ?_)
      exact absurd ((hq.ends hc).2.1 a ho) Std.HashSet.not_mem_empty
    · obtain ⟨r, hr, rfl⟩ := map_eq_ok_iff.1 ha
      have h := searched_descend hnodes hq.clear (nodup_singleton a) (by simpa using ha') (by simp)
        (by simpa using hfuel) hr
      exact ⟨fun hc => ⟨rfl, (h.clear hc).2⟩, h.visited, h.ends⟩
  exact (run.ends hc).2.2

end Sheetwork.Graph

namespace Sheetwork.Layers.Graph

open Sheetwork.Graph

/-- Without a cycle there is a graph, and it records none. All cycles that a graph records are walks along
precedents that come back. -/
theorem cycles_closed (w : Workbook) :
    ((∀ c, ¬ ClosedWalk (readings w).precedentsOf c) → ofWorkbook w = .ok { readings w with cycles := [] }) ∧
    ∀ g, ofWorkbook w = .ok g → ∀ c ∈ g.cycles, ClosedWalk g.precedentsOf c := by
  rw [ofWorkbook, findCycles]
  refine ⟨fun hnone => ?_, fun g h => ?_⟩
  · rw [cycles_eq_nil hnone]
    rfl
  · obtain ⟨_, hcs, h⟩ := of_bind h
    cases h
    obtain ⟨_, hfound, hcs⟩ := of_bind hcs
    cases hcs
    exact forall_mem_map.2 (closedWalk_of_cycles hfound)

end Sheetwork.Layers.Graph
