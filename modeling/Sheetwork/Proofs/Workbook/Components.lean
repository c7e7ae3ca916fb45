import Sheetwork.Layers.Structured
import Sheetwork.Proofs.Model.StructuredInputs
import Sheetwork.Proofs.Plan.StructuredInputs
/-
  Workbooks: patches are connected components. What filling reaches is joined to its queue by steps
  (`exists_joined_of_mem_fill`), and no step leads from it to what is left (`fill_closed`), so every patch that is
  begun is one (`component_of_mem_start`). Main statement: `components_patches`.
-/

open List

namespace Sheetwork

open Ordered
open Relation (ReflTransGen)

theorem Slot.mem_neighbours_comm {p q : Slot} (h : q ∈ p.neighbours) : p ∈ q.neighbours := by
  obtain ⟨r, c⟩ := p
  obtain ⟨r', c'⟩ := q
  simp only [neighbours, mem_cons, Slot.mk.injEq, not_mem_nil, or_false] at h ⊢
  omega

namespace Patches

variable {todo cells : List Slot} {p q : Slot} {a : List Slot × List (List Slot)}

/-- A step up, down, left or right inside a set of cells. -/
def Touches (cells : List Slot) (p q : Slot) : Prop := p ∈ cells ∧ q ∈ cells ∧ q ∈ p.neighbours

theorem joined_comm (path : ReflTransGen (Touches cells) p q) : ReflTransGen (Touches cells) q p := by
  have : Std.Symm (Touches cells) := ⟨fun _ _ step => ⟨step.2.1, step.1, Slot.mem_neighbours_comm step.2.2⟩⟩
  exact ReflTransGen.stdSymm.symm p q path

theorem joined_mono (h : todo ⊆ cells) (path : ReflTransGen (Touches todo) p q) : ReflTransGen (Touches cells) p q :=
  ReflTransGen.mono (fun _ _ step => ⟨h step.1, h step.2.1, step.2.2⟩) p q path

theorem exists_joined_of_mem_fill (queue : List Slot) (hp : p ∈ (fill todo queue).1) :
    ∃ q ∈ queue, ReflTransGen (Touches todo) q p := by
  fun_induction fill todo queue with
  | case1 todo => cases hp
  | case2 todo q queue hq rest patch left hfill ih =>
    rcases mem_cons.1 hp with rfl | hp
    · exact ⟨p, mem_cons_self, .refl⟩
    · rw [hfill] at ih
      obtain ⟨n, hn, path⟩ := ih hp
      have path := joined_mono erase_subset path
      rcases mem_append.1 hn with hn | hn
      · exact ⟨n, mem_cons_of_mem q hn, path⟩
      · obtain ⟨hn, hrest⟩ := mem_filter.1 hn
        exact ⟨q, mem_cons_self, .head ⟨hq, mem_of_mem_erase (of_decide_eq_true hrest), hn⟩ path⟩
  | case3 todo q queue hq ih =>
    obtain ⟨n, hn, path⟩ := ih hp
    exact ⟨n, mem_cons_of_mem q hn, path⟩

theorem fill_closed (hd : todo.Nodup) (queue : List Slot) : (∀ q ∈ queue, q ∉ (fill todo queue).2) ∧
    ∀ p ∈ (fill todo queue).1, ∀ q ∈ p.neighbours, q ∉ (fill todo queue).2 := by
  fun_induction fill todo queue with
  | case1 todo => simp
  | case2 todo p queue hp rest patch left hfill ih =>
    have hleft : left ⊆ rest := by
      have := fill_perm rest (queue ++ p.neighbours.filter (· ∈ rest))
      rw [hfill] at this
      exact fun q hq => this.subset (mem_append_right _ hq)
    rw [hfill] at ih
    obtain ⟨hqueue, hpatch⟩ := ih (hd.erase p)
    refine ⟨forall_mem_cons.2 ⟨fun h => hd.not_mem_erase (hleft h), fun q hq => ?_⟩,
      forall_mem_cons.2 ⟨fun q hq h => ?_, hpatch⟩⟩
    · exact hqueue q (mem_append_left _ hq)
    · exact hqueue q (mem_append_right _ (mem_filter.2 ⟨hq, decide_eq_true (hleft h)⟩)) h
  | case3 todo p queue hp ih =>
    have hleft := fill_perm todo queue
    exact ⟨forall_mem_cons.2 ⟨fun h => hp (hleft.subset (mem_append_right _ h)), (ih hd).1⟩, (ih hd).2⟩

/-- A connected component of cells. -/
structure Component (cells part : List Slot) : Prop where
  ne_nil : part ≠ []
  mem_iff : ∀ p ∈ part, ∀ q, q ∈ part ↔ ReflTransGen (Touches cells) p q

section

variable (hd : cells.Nodup) (hperm : a.2.flatten ++ a.1 ~ cells) (h : ∀ part ∈ a.2, Component cells part)
include hd hperm h

/-- A cell of the patch that begins at `p` is joined to another cell exactly if that is in the patch. -/
theorem mem_fill_iff {x y : Slot} (hx : x ∈ (fill a.1 [p]).1) :
    y ∈ (fill a.1 [p]).1 ↔ ReflTransGen (Touches cells) x y := by
  have hnodup := hperm.nodup_iff.2 hd
  have hfill := fill_perm a.1 [p]
  have joined : ∀ {y}, y ∈ (fill a.1 [p]).1 → ReflTransGen (Touches cells) p y := by
    intro y hy
    obtain ⟨q, hq, path⟩ := exists_joined_of_mem_fill [p] hy
    obtain rfl := mem_singleton.1 hq
    exact joined_mono (fun z hz => hperm.subset (mem_append_right _ hz)) path
  refine ⟨fun hy => (joined_comm (joined hx)).trans (joined hy), fun path => ?_⟩
  induction path with
  | refl => exact hx
  | @tail y z _ step hy =>
    rcases mem_append.1 (hperm.symm.subset step.2.1) with hz | hz
    · -- a step to a patch from before begins in that patch
      obtain ⟨part, hpart, hz⟩ := mem_flatten.1 hz
      have hback := ((h part hpart).mem_iff z hz y).2 (joined_comm (.single step))
      exact absurd (hfill.subset (mem_append_left _ hy))
        (disjoint_of_nodup_append hnodup (mem_flatten.2 ⟨part, hpart, hback⟩))
    · refine (mem_append.1 (hfill.symm.subset hz)).resolve_right ?_
      exact (fill_closed (nodup_append.1 hnodup).2.1 [p]).2 y hy z step.2.2

theorem component_of_mem_start (p : Slot) : ∀ part ∈ (start a p).2, Component cells part := by
  unfold Patches.start
  split
  · next hp =>
    exact forall_mem_append.2 ⟨h, forall_mem_singleton.2
      ⟨ne_nil_of_mem (mem_fill hp []), fun x hx y => mem_fill_iff hd hperm h hx⟩⟩
  · exact h

end

/-- The connected components of cells, each once. -/
structure Components (cells : List Slot) (parts : List (List Slot)) : Prop where
  each : ∀ part ∈ parts, Component cells part
  disjoint : parts.Pairwise List.Disjoint
  covers : ∀ p, p ∈ cells ↔ ∃ part ∈ parts, p ∈ part

theorem components_ofCells (hd : cells.Nodup) : Components cells (ofCells cells) := by
  have built := foldlRecOn cells start (b := (cells, []))
    (motive := fun a => a.2.flatten ++ a.1 ~ cells ∧ ∀ part ∈ a.2, Component cells part) ⟨.refl _, by simp⟩
    fun _ h p _ => ⟨start_perm h.1 p, component_of_mem_start hd h.1 h.2 p⟩
  have perm := flatten_ofCells_perm hd
  refine ⟨built.2, (nodup_flatten.1 (perm.nodup_iff.2 hd)).2, fun p => ?_⟩
  rw [← perm.mem_iff, mem_flatten]

end Patches

open Patches

theorem Plan.Structured.map_at_patches (inputs all : List Item) :
    (patches inputs all).map (fun p => p.items.map Item.at_) = (ofCells (ofList (inputs.map Item.at_))).map ofList := by
  rw [patches, map_map]
  refine map_congr_left fun part hpart => map_at_filterMap fun s hs => ?_
  exact exists_getElem?_byPlace (mem_ofList.1 (mem_of_mem_ofCells (nodup_ofList _) hpart (mem_ofList.1 hs)))

end Sheetwork
