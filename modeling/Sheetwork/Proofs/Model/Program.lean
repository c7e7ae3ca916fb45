import Sheetwork.Model.Program
import Sheetwork.Proofs.Model.Order
import Sheetwork.Proofs.Model.Rebuild
import Sheetwork.Proofs.Model.References
import Sheetwork.Proofs.Vector.Partition
/-
  Models: the formulas of a program.
-/

open List

namespace Sheetwork.Model

open Compiled (place ofFormula address)

namespace Program

variable {formulas : List (Place × Slot × String)} {cs : List Compiled} {α : Type} {compiled : List Compiled}
  {c : Compiled} {e : Entry} {f : String}

theorem forall₂_made {β : Type} {f : α → Outcome β} {l : List α} (h : ∀ a ∈ l, ∃ b, f a = .ok b) :
    Forall₂ (fun a b => f a = .ok b) l (l.filterMap fun a => (f a).toOption) := by
  induction l with
  | nil => exact .nil
  | cons a l ih =>
    obtain ⟨b, hb⟩ := h a mem_cons_self
    rw [filterMap_cons, hb]
    exact .cons hb (ih fun a ha => h a (mem_cons_of_mem _ ha))

variable (hd : (compiled.map place).Nodup)

include hd

theorem getElem?_table {i : Nat} (hc : compiled[i]? = some c) : (table compiled)[c.place]? = some (i, c) := by
  refine (getElem?_entered (f := fun x : Compiled × Nat => x.1.place) (g := fun x => (x.2, x.1)) ?_).2
    ⟨(c, i), mem_zipIdx_iff_getElem?.2 hc, rfl, rfl⟩
  intro x hx y hy hxy
  have hx := mem_zipIdx_iff_getElem?.1 hx
  have hy := mem_zipIdx_iff_getElem?.1 hy
  have hidx : x.2 = y.2 := by
    refine (getElem?_inj ?_ hd).1 ?_
    · rw [length_map]
      exact lt_of_getElem? hx
    · rw [getElem?_map, getElem?_map, hx, hy]
      exact congrArg some hxy
  rw [hidx, hy] at hx
  rw [hidx, ← Option.some.inj hx]

theorem map_table (hc : c ∈ compiled) : (table compiled)[c.place]?.map (·.2) = some c := by
  obtain ⟨i, hi⟩ := mem_iff_getElem?.1 hc
  rw [getElem?_table hd hi]
  rfl

theorem filterMap_table : (compiled.map place).filterMap (fun k => (table compiled)[k]?.map (·.2)) = compiled := by
  rw [filterMap_map]
  exact (filterMap_congr fun _ => map_table hd).trans filterMap_some

theorem needsOf_eq : needsOf compiled = compiled.map fun c => (c.place, c.needs) := by
  have hall : ∀ x ∈ compiled.zipIdx, (if (table compiled)[x.1.place]?.any (·.1 = x.2) then
      some (x.1.place, x.1.needs) else none) = some (x.1.place, x.1.needs) := by
    intro x hx
    rw [getElem?_table hd (mem_zipIdx_iff_getElem?.1 hx)]
    simp
  unfold needsOf
  rw [filterMap_congr hall, filterMap_eq_map']
  conv_rhs => rw [← zipIdx_map_fst 0 compiled, map_map]
  rfl

omit hd

theorem exists_of_ofFormulas (h : ofFormulas formulas = .ok cs) : ∃ compiled found,
    List.Forall₂ (fun f c => ofFormula (cellsOf formulas) f.1 f.2.2 = .ok c) formulas compiled ∧
      order (compiled.map place) (needsOf compiled) = .ok found ∧
        cs = found.filterMap fun k => (table compiled)[k]?.map (·.2) := by
  unfold ofFormulas at h
  dsimp only at h
  split at h
  · cases h
  · next herrors =>
    obtain ⟨found, hfound, h⟩ := of_bind h
    cases h
    rw [filterMap_map] at hfound
    rw [filterMap_map]
    refine ⟨_, found, forall₂_made fun f hf => ?_, hfound, rfl⟩
    rw [Bool.not_eq_true', Bool.not_eq_false, List.isEmpty_iff, List.filterMap_eq_nil_iff] at herrors
    have hnone := herrors _ (mem_map_of_mem hf)
    split at hnone
    · cases hnone
    · next c hc => exact ⟨c, hc⟩

/-- The formulas of a program in their order: each once, and after those that it needs. -/
def Arranged (formulas : List (Place × Slot × String)) (compiled cs : List Compiled) : Prop :=
  Forall₂ (fun f c => ofFormula (cellsOf formulas) f.1 f.2.2 = .ok c) formulas compiled ∧ cs ~ compiled ∧
    (cs.map place).Nodup ∧ ∀ c ∈ cs, ∀ d ∈ c.needs, [d, c.place] <+ cs.map place

theorem ofFormulas_spec (h : ofFormulas formulas = .ok cs) : ∃ compiled, Arranged formulas compiled cs := by
  obtain ⟨compiled, found, hmade, hfound, rfl⟩ := exists_of_ofFormulas h
  obtain ⟨hperm, hd, hafter⟩ := order_spec hfound
  rw [needsOf_eq hd] at hafter
  have hplaces : (found.filterMap fun k => (table compiled)[k]?.map (·.2)).map place = found := by
    rw [map_filterMap]
    refine (filterMap_congr fun k hk => ?_).trans filterMap_some
    obtain ⟨c, hc, rfl⟩ := mem_map.1 (hperm.mem_iff.1 hk)
    rw [map_table hd hc]
    rfl
  have hcs := hperm.filterMap fun k => (table compiled)[k]?.map (·.2)
  rw [filterMap_table hd] at hcs
  refine ⟨compiled, hmade, hcs, ?_, fun c hc d hdn => ?_⟩
  · rw [hplaces]
    exact hperm.nodup_iff.2 hd
  · rw [hplaces]
    exact hafter _ (mem_map_of_mem (hcs.mem_iff.1 hc)) d hdn

/-! Programs of blueprints -/

variable {b : Blueprint}

theorem mem_formulaEntries : e ∈ formulaEntries b ↔
    ∃ name ∈ b.order, e ∈ b.entriesOf name ∧ e.formula.truthy = true := by
  unfold formulaEntries Blueprint.sortedEntries Ordered.sortOn
  simp only [mem_flatMap, mem_filter, mem_mergeSort]

/-- A formula of a program and the entry that it comes from. -/
structure Stands (b : Blueprint) (c : Compiled) (name : String) (p : Position) (e : Entry) (f : String) : Prop where
  sheet : name ∈ b.order
  entry : e ∈ b.entriesOf name
  slot : e.slot = p.slot
  onSheet : p.OnSheet
  place : c.place = ⟨name, p.address⟩
  formula : e.formula = .text f
  truthy : e.formula.truthy = true
  expr : Expr.ofFormula c.place f = .ok c.expr

theorem address_slot (p : Position) (hp : p.OnSheet) : address p.row p.col = p.address := by
  have hcol := hp.col_pos
  unfold address Position.address Position.colName Text.ofInt
  rw [if_pos (by omega)]

theorem exists_find?_bucket {κ : Type} [DecidableEq κ] (key : α → κ) {xs : List α} {x : α} (hx : x ∈ xs) :
    ∃ b, (bucketBy key xs).find? (·.1 = key x) = some b ∧ x ∈ b.2 := by
  obtain ⟨b, hb, hkey, hxb⟩ := exists_bucket key hx
  refine ⟨b, find?_eq_some_of_unique hb (decide_eq_true hkey) fun b' hb' hkey' => ?_, hxb⟩
  exact inj_on_of_nodup_map (nodup_keys_bucketBy key xs) hb' hb ((of_decide_eq_true hkey').trans hkey.symm)

theorem of_formulaText (h : formulaText e = .ok f) : e.formula = .text f := by
  unfold formulaText at h
  split at h
  · next s hs =>
    rw [hs]
    split at h
    · cases h
    · split at h
      · cases h
        rfl
      · cases h
  · cases h

theorem exists_formulas (h : ofBlueprint b = .ok cs) : ∃ formulas compiled,
    Forall₂ (fun e f => f.1 = placeOf e ∧ f.2.1 = e.slot ∧ e.formula = .text f.2.2) (formulaEntries b) formulas ∧
      Arranged formulas compiled cs := by
  unfold ofBlueprint at h
  dsimp only at h
  split at h
  · cases h
  · obtain ⟨formulas, hformulas, h⟩ := of_bind h
    obtain ⟨compiled, hmade⟩ := ofFormulas_spec h
    refine ⟨formulas, compiled, (mapM_eq_ok_iff.1 hformulas).imp fun e f hf => ?_, hmade⟩
    obtain ⟨text, htext, hf⟩ := of_bind hf
    cases hf
    exact ⟨rfl, rfl, of_formulaText htext⟩

theorem of_ofFormula {cells : List (String × List Node)} {p : Place} (h : ofFormula cells p f = .ok c) : c.place = p ∧
    c.name = Compiled.functionName p ∧ Expr.ofFormula p f = .ok c.expr ∧ ∃ ns, needs cells f p.sheet = .ok ns ∧
    c.needs = (ns.map fun n => Place.mk n.sheet (address n.row n.col)).filter (· ≠ p) := by
  obtain ⟨e, code, he, -, h⟩ := of_bind₂ h
  obtain ⟨ns, hns, h⟩ := of_bind h
  cases h
  exact ⟨rfl, rfl, he, ns, hns, rfl⟩

section

variable {name : String}

variable (hb : b.Sound)
include hb

theorem exists_stands (he : e ∈ formulaEntries b) (hf : e.formula = .text f) (hplace : c.place = placeOf e)
    (hexpr : Expr.ofFormula (placeOf e) f = .ok c.expr) : ∃ name p, Stands b c name p e f := by
  obtain ⟨name, hname, he, htruthy⟩ := mem_formulaEntries.1 he
  obtain ⟨hsheet, p, hp, hslot, hcell⟩ := hb.entry name hname e he
  refine ⟨name, p, hname, he, hslot, hp, ?_, hf, htruthy, hplace ▸ hexpr⟩
  rw [hplace, placeOf, hsheet, hcell]
  rfl

variable (h : ofBlueprint b = .ok cs)
include h

theorem stands_of_mem (hc : c ∈ cs) : ∃ name p e f, Stands b c name p e f := by
  obtain ⟨formulas, compiled, hentries, hmade, hperm, -⟩ := exists_formulas h
  obtain ⟨f, hf, hc⟩ := exists_of_mem_right hmade (hperm.mem_iff.1 hc)
  obtain ⟨e, he, hplace, -, hformula⟩ := exists_of_mem_right hentries hf
  obtain ⟨hcplace, -, hexpr, -⟩ := of_ofFormula hc
  obtain ⟨name, p, hstands⟩ := exists_stands hb he hformula (hcplace.trans hplace) (hplace ▸ hexpr)
  exact ⟨name, p, e, f.2.2, hstands⟩

theorem exists_stands_of_entry (hname : name ∈ b.order) (he : e ∈ b.entriesOf name) (hformula : e.formula.truthy = true) :
    ∃ c ∈ cs, ∃ p f, Stands b c name p e f := by
  obtain ⟨formulas, compiled, hentries, hmade, hperm, -⟩ := exists_formulas h
  obtain ⟨f, hf, hplace, -, hf'⟩ := exists_of_mem_left hentries (mem_formulaEntries.2 ⟨name, hname, he, hformula⟩)
  obtain ⟨c, hc, hmade⟩ := exists_of_mem_left hmade hf
  obtain ⟨hcplace, -, hexpr, -⟩ := of_ofFormula hmade
  obtain ⟨name', p, hstands⟩ := exists_stands hb (mem_formulaEntries.2 ⟨name, hname, he, hformula⟩) hf'
    (hcplace.trans hplace) (hplace ▸ hexpr)
  have hsame : name' = name := by
    have := (hb.entry name' hstands.sheet e hstands.entry).1
    rw [(hb.entry name hname e he).1] at this
    exact (Value.text.inj this).symm
  exact ⟨c, hperm.mem_iff.2 hc, p, f.2.2, hsame ▸ hstands⟩

theorem before_of_reads {c' : Compiled} (hc : c ∈ cs) (hc' : c' ∈ cs) (hne : c'.place ≠ c.place) {p : Position}
    (hp : p.OnSheet) (hplace : c'.place = ⟨name, p.address⟩) {x : String × String} (hx : x ∈ c.expr.refs)
    (hname : x.1 = name) {k : Context} {ps : List Position} (hps : k.reads x = .ok ps) (hread : p ∈ ps) :
    [c'.place, c.place] <+ cs.map place := by
  obtain ⟨formulas, compiled, hentries, hmade, hperm, -, hafter⟩ := exists_formulas h
  obtain ⟨f, hf, hc₁⟩ := exists_of_mem_right hmade (hperm.mem_iff.1 hc)
  obtain ⟨f', hf', hc₂⟩ := exists_of_mem_right hmade (hperm.mem_iff.1 hc')
  obtain ⟨hplace₁, -, hexpr, ns, hns, hneeds⟩ := of_ofFormula hc₁
  obtain ⟨hplace₂, -⟩ := of_ofFormula hc₂
  refine hafter c hc c'.place ?_
  have hslot : f'.2.1 = p.slot := by
    obtain ⟨e, he, hfplace, hslot, hformula⟩ := exists_of_mem_right hentries hf'
    obtain ⟨name', he', hmem, -⟩ := mem_formulaEntries.1 he
    obtain ⟨hsheet, q, hq, hslot', hcell⟩ := hb.entry name' he' e hmem
    rw [hslot, hslot']
    have haddress : q.address = p.address := by
      have := congrArg Place.cell (hplace₂.symm.trans hplace)
      rw [hfplace, placeOf, hcell] at this
      exact this
    rw [Position.address_inj.1 haddress]
  have hnode : Node.mk name p.row p.col ∈ formulas.map fun f => Node.mk f.1.sheet f.2.1.row f.2.1.col := by
    refine mem_map.2 ⟨f', hf', ?_⟩
    rw [← hplace₂, hplace, hslot]
    rfl
  obtain ⟨there, hthere, hmem⟩ := exists_find?_bucket Node.sheet hnode
  rw [hneeds, mem_filter]
  refine ⟨mem_map.2 ⟨_, mem_needs hexpr hns hx (hname ▸ hthere) hps hmem hread rfl rfl, ?_⟩, ?_⟩
  · rw [hplace]
    exact congrArg _ (address_slot p hp)
  · rw [← hplace₁]
    exact decide_eq_true hne

omit hb in
theorem nodup_places : (cs.map place).Nodup := by
  obtain ⟨_, _, _, _, _, hd, _⟩ := exists_formulas h
  exact hd

end

end Program

end Sheetwork.Model
