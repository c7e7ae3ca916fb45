import Sheetwork.Proofs.Model.Execution
/-
  Models: a run computes every formula from what the finished workbook holds. Formulas come after those that they read
  (`before_of_reads`), so what a formula read is what its cells hold at the end (`run_fixpoint`). Whole rows of a
  sheet without entries are an exception: they are as long as the sheet is when they are read, and reading its cells
  makes it longer (`run_grows`).
-/

open List

namespace Sheetwork.Model

open Position
open Graph (pair_sublist_asymm)
open Rebuild (workbook fillIn)

namespace Program

variable {b : Blueprint} {cs : List Compiled} {name : String} {k : Context} {w : Workbook} {p : Position} {q : Position}
  {c : Compiled}

/-- A formula that refers to its own cell, by itself or in a range. -/
def Compiled.ReadsItself (c : Compiled) : Prop := ∃ x ∈ c.expr.refs, x.1 = c.place.sheet ∧
  ∃ p : Position, c.place.cell = p.address ∧ ∃ r, reachOf x.2 = .ok r ∧ inBounds p.row p.col r = true

/-- Whole rows and columns that a formula refers to are those of sheets with entries. -/
def Bounded (b : Blueprint) (e : Expr) : Prop :=
  ∀ x ∈ e.refs, Context.isOpen x.2 = true → x.1 ∈ b.order ∧ b.entriesOf x.1 ≠ []

theorem extent?_isSome (hname : name ∈ b.order) (h : b.entriesOf name ≠ []) :
    ((Context.mk w (extents b)).extent? name).isSome = true := by
  obtain ⟨e, es, hes⟩ := exists_cons_of_ne_nil h
  obtain ⟨x, hx⟩ : ∃ x : Extent, (name, x) ∈ extents b := by
    simp only [extents, mem_filterMap]
    exact ⟨_, name, hname, by rw [hes]⟩
  rw [Context.extent?, Option.isSome_map, find?_isSome]
  exact ⟨_, hx, decide_eq_true rfl⟩

/-- Of functions with one name the last one is computed, which matters unless they are the same. -/
theorem effective_eq_iff : effective cs = cs.map (fun c => (c.place, c.expr)) ↔
    ∀ c ∈ cs, ∀ d ∈ cs, c.name = d.name → c.expr = d.expr := by
  constructor
  · intro h c hc d hd hname
    have hown : ∀ e ∈ cs, ((cs.foldl (fun m c => m.insert c.name c.expr) (∅ : Std.HashMap _ _))[e.name]?).getD e.expr =
        e.expr := fun e he => congrArg Prod.snd (map_inj_left.1 h e he)
    have hc := hown c hc
    have hd' := hown d hd
    rw [hname] at hc
    cases hfound : (cs.foldl (fun m c => m.insert c.name c.expr) (∅ : Std.HashMap _ _))[d.name]? with
    | some e =>
      rw [hfound] at hc hd'
      exact hc.symm.trans hd'
    | none =>
      rw [getElem?_foldl_enter, Std.HashMap.getElem?_empty, Option.or_none, Option.map_eq_none_iff, find?_eq_none] at hfound
      exact absurd (beq_self_eq_true _) (hfound d (mem_reverse.2 hd))
  · intro h
    refine map_congr_left fun c hc => ?_
    rw [(getElem?_entered h).2 ⟨c, hc, rfl, rfl⟩]
    rfl

theorem effective_eq (h : (cs.map Compiled.name).Nodup) : effective cs = cs.map fun c => (c.place, c.expr) :=
  effective_eq_iff.2 fun _ hc _ hd heq => congrArg _ (inj_on_of_nodup_map h hc hd heq)

theorem position_address (hp : p.OnSheet) : Context.position p.address = .ok p := by
  have hclean : Text.replace "$" "" p.address = p.address := clean_eq_self (p.not_mem_address (by decide))
  unfold Context.position
  rw [hclean, Address.target_address hp]
  rfl

section

variable (hb : b.Sound) (hcs : ofBlueprint b = .ok cs)
include hb hcs

theorem exists_of_computed {ds : List Compiled} (hds : ∀ c ∈ ds, c ∈ cs)
    (h : Computed (ds.map fun c => (c.place, c.expr)) name q) : ∃ c ∈ ds, ∃ e f, Stands b c name q e f := by
  obtain ⟨_, hmem, hname, hq⟩ := h
  obtain ⟨c, hc, rfl⟩ := mem_map.1 hmem
  obtain ⟨name', p, e, f, hstands⟩ := stands_of_mem hb hcs (hds c hc)
  dsimp only at hname hq
  rw [hstands.place] at hname hq
  obtain rfl := Except.ok.inj ((position_address hstands.onSheet).symm.trans hq)
  exact ⟨c, hc, e, f, hname ▸ hstands⟩

/-- The formulas at and after a place of the order are not what the formula there reads. -/
theorem not_computed_of_reads (hself : ∀ c ∈ cs, ¬Compiled.ReadsItself c) {before after : List Compiled}
    (hsplit : cs = before ++ c :: after) {x : String × String} (hx : x ∈ c.expr.refs) {ps : List Position}
    (hps : k.reads x = .ok ps) (hq : q ∈ ps) : ¬Computed ((c :: after).map fun c => (c.place, c.expr)) x.1 q := by
  intro hcomputed
  have hsub : ∀ d ∈ c :: after, d ∈ cs := by
    rw [hsplit]
    exact fun d => mem_append_right _
  have hc := hsub c mem_cons_self
  obtain ⟨d, hd, e, f, hstands⟩ := exists_of_computed hb hcs hsub hcomputed
  by_cases hsame : d.place = c.place
  · obtain ⟨name, p, e', f', hown⟩ := stands_of_mem hb hcs hc
    obtain ⟨r, hr, hin⟩ := exists_reachOf_reads (dollar_not_mem_ref hown.expr hx) hps
    rw [hstands.place] at hsame
    exact hself c hc ⟨x, hx, congrArg Place.sheet hsame, q, (congrArg Place.cell hsame).symm, r, hr, hin q hq⟩
  · have hbefore := before_of_reads hb hcs hc (hsub d hd) hsame hstands.onSheet hstands.place hx rfl hps hq
    have hd' := (mem_cons.1 hd).resolve_left fun heq => hsame (congrArg _ heq)
    refine pair_sublist_asymm (nodup_places hcs) hbefore ?_
    rw [hsplit, map_append, map_cons]
    exact ((singleton_sublist.2 (mem_map_of_mem hd')).cons_cons _).trans (sublist_append_right _ _)

/-- What a formula has computed its cell holds at the end, and the formula would compute it again. -/
theorem eval_of_foldlM (hself : ∀ c ∈ cs, ¬Compiled.ReadsItself c)
    (hrun : (cs.map fun c => (c.place, c.expr)).foldlM step ⟨w, extents b⟩ = .ok k) (hc : c ∈ cs) {e : Entry}
    {f : String} (hstands : Stands b c name p e f) (hbounded : Bounded b c.expr) : ∃ v s, c.expr.eval k = .ok v ∧
    k.workbook.sheet? name = some s ∧ s.value p = Cell.taken v := by
  obtain ⟨before, after, hsplit⟩ := append_of_mem hc
  have hnodup := nodup_places hcs
  rw [hsplit, map_append, map_cons] at hrun hnodup
  have hlast := (nodup_cons.1 (nodup_append.1 hnodup).2.1).1
  obtain ⟨q, v, s, hq, hv, hs, hvalue⟩ := eval_of_run hrun
    (fun x hx hopen => extent?_isSome (hbounded x hx hopen).1 (hbounded x hx hopen).2)
    (fun k x hx ps hps q hq => not_computed_of_reads hb hcs hself hsplit hx hps hq)
    fun q hq hcomputed => by
      obtain ⟨d, hd, e', f', hother⟩ := exists_of_computed hb hcs
        (fun d hd => hsplit ▸ mem_append_right _ (mem_cons_of_mem _ hd)) hcomputed
      dsimp only at hq hother
      rw [hstands.place] at hq hother hlast
      obtain rfl := Except.ok.inj ((position_address hstands.onSheet).symm.trans hq)
      exact hlast (mem_map.2 ⟨d, hd, hother.place⟩)
  dsimp only at hq hs hv
  rw [hstands.place] at hq hs
  obtain rfl := Except.ok.inj ((position_address hstands.onSheet).symm.trans hq)
  exact ⟨v, s, hv, hs, hvalue⟩

end

/-- What edited inputs give for an entry: what stands in its cell, or the recorded value if they lack the sheet. -/
def given (inputs : Workbook) (name : String) (p : Position) (e : Entry) : Value :=
  ((inputs.sheet? name).map (·.value p)).getD e.value

def tableOf (name : String) (rows : List (List Value)) : Sheet :=
  { name, cells := rows.zipIdx.foldl (fun m (vs, i) => vs.zipIdx.foldl (fun m (v, j) =>
      m.insert ⟨i + 1, j + 1⟩ { value := v }) m) ∅ }

/-- The report of an input, two formulas and a second sheet that is empty, and inputs that lack every sheet. -/
def twoFiles : Files :=
  let report : Workbook := { sheets := [tableOf Report.metadataSheet ([["Section", "Sheet", "Key", "Value"],
      ["Workbook", "W", "SourceWorkbook", "a.xlsx"], ["Workbook", "W", "NormalizedWorkbook", "b.xlsx"],
      ["Workbook", "W", "SheetOrder", "[\"S\", \"E\"]"]].map Value.texts),
    tableOf "S" [Value.texts ["Sheet", "Cell", "Row", "Column", "Type", "Formula", "Value", "IncludeFlag"],
      [.text "S", .text "A1", .int 1, .int 1, .text "Input", .null, .int 7, .bool true],
      [.text "S", .text "B1", .int 1, .int 2, .text "Output", .text "=A1&E!C1", .null, .bool true],
      [.text "S", .text "C1", .int 1, .int 3, .text "Output", .text "=E!1:1&E!E1", .null, .bool true]]] }
  { entries := [("m.xlsx", .workbook report), ("i.xlsx", .workbook {})] }

def twoModel : Blueprint := (readReport twoFiles "m.xlsx").toOption.getD default

def twoFormulas : List (Place × Slot × String) :=
  [(⟨"S", "B1"⟩, ⟨1, 2⟩, "=A1&E!C1"), (⟨"S", "C1"⟩, ⟨1, 3⟩, "=E!1:1&E!E1")]

def twoProgram : List Compiled :=
  twoFormulas.filterMap fun (p, _, f) => (Compiled.ofFormula (cellsOf twoFormulas) p f).toOption

def twoFinal : Option Context := (do
  let start ← workbook { formulas := false, asRecorded := true } twoFiles twoModel
  (twoProgram.map fun c : Compiled => (c.place, c.expr)).foldlM step ⟨start, extents twoModel⟩).toOption

theorem eq_of_text? {v : Value} {s : String} (h : v.text? = some s) : v = .text s := by
  cases v with
  | text t => exact congrArg _ (Option.some.inj h)
  | _ => cases h

/-- The model as it is read: the entries of each sheet in order, each in a cell of its own. -/
theorem read_two : (readReport twoFiles "m.xlsx").toOption.isSome = true ∧ twoModel.order = ["S", "E"] ∧
    (twoFiles.load twoModel.template).toOption.isSome = false ∧
    (∃ e ∈ twoModel.entriesOf "S", e.position.toOption = some ⟨1, 2⟩ ∧ e.formula.text? = some "=A1&E!C1") ∧
    ∀ name ∈ ["S", "E"], ((twoModel.entriesOf name).map Entry.slot).Nodup ∧
      ((twoModel.entriesOf name).Pairwise fun a b => (compare a.slot b.slot).isLE = true) ∧
      ∀ e ∈ twoModel.entriesOf name, e.sheet.text? = some name ∧
        (∃ col ∈ [1, 2, 3], e.slot = (mk 1 col).slot ∧ e.cell.text? = some (mk 1 col).address) ∧
          (e.isInput = true → e.formula.truthy = false) := by
  decide +kernel

theorem readReport_two : readReport twoFiles "m.xlsx" = .ok twoModel := by
  obtain ⟨b, hb⟩ := Option.isSome_iff_exists.1 read_two.1
  rw [twoModel, hb, eq_ok_of_toOption hb]
  rfl

theorem sound_two : twoModel.Sound where
  order := by
    rw [read_two.2.1]
    decide
  titled := by
    rw [read_two.2.1]
    unfold Titled
    decide
  entry := by
    rw [read_two.2.1]
    intro name hname e he
    obtain ⟨hsheet, ⟨col, hcol, hslot, hcell⟩, -⟩ := (read_two.2.2.2.2 name hname).2.2 e he
    have hcols : ∀ col ∈ [1, 2, 3], (⟨1, col⟩ : Position).OnSheet := by decide
    exact ⟨eq_of_text? hsheet, ⟨1, col⟩, hcols col hcol, hslot, eq_of_text? hcell⟩
  distinct := by
    rw [read_two.2.1]
    exact fun name hname => (read_two.2.2.2.2 name hname).1
  input := by
    rw [read_two.2.1]
    exact fun name hname e he => ((read_two.2.2.2.2 name hname).2.2 e he).2.2

theorem sortedEntries_two : ∀ name ∈ ["S", "E"], twoModel.sortedEntries name = twoModel.entriesOf name :=
  fun name hname => mergeSort_of_pairwise (read_two.2.2.2.2 name hname).2.1

theorem order_two : order [⟨"S", "B1"⟩, ⟨"S", "C1"⟩] [(⟨"S", "B1"⟩, []), (⟨"S", "C1"⟩, [])] =
    .ok [⟨"S", "B1"⟩, ⟨"S", "C1"⟩] := by
  cbv

/-- The program: what its formulas need of each other and refer to. -/
theorem compiled_two : twoProgram.map Compiled.place = [⟨"S", "B1"⟩, ⟨"S", "C1"⟩] ∧
    twoProgram.map (fun c => (c.place, c.needs)) = [(⟨"S", "B1"⟩, []), (⟨"S", "C1"⟩, [])] ∧
    (twoProgram.map Compiled.name).Nodup ∧ twoProgram.all (fun c => c.expr.isReadable) = true ∧
    (∀ c ∈ twoProgram, ∀ x ∈ c.expr.refs, x.1 = c.place.sheet → x.2 = "A1" ∧ c.place.cell = "B1") ∧
    (Expr.ofFormula ⟨"S", "B1"⟩ "=A1&E!C1").toOption.map Expr.refs = some [("S", "A1"), ("E", "C1")] ∧
    (mk 1 2).address = "B1" := by
  decide +kernel

theorem ofFormulas_two : ofFormulas twoFormulas = .ok twoProgram := by
  obtain ⟨hplaces, hneeds, -⟩ := compiled_two
  have hd : (twoProgram.map Compiled.place).Nodup := by
    rw [hplaces]
    decide
  unfold ofFormulas
  dsimp only
  rw [if_neg (by decide +kernel), filterMap_map]
  show (order (twoProgram.map Compiled.place) (needsOf twoProgram) >>= fun found =>
    pure (found.filterMap fun k => (table twoProgram)[k]?.map (·.2))) = _
  rw [needsOf_eq hd, hneeds, hplaces, order_two, ← hplaces]
  exact congrArg Except.ok (filterMap_table hd)

theorem ofBlueprint_two : ofBlueprint twoModel = .ok twoProgram := by
  have hS := sortedEntries_two "S" (by decide)
  have hE := sortedEntries_two "E" (by decide)
  have hentries : formulaEntries twoModel =
      ["S", "E"].flatMap fun name => (twoModel.entriesOf name).filter (·.formula.truthy) := by
    unfold formulaEntries
    simp only [read_two.2.1, flatMap_cons, flatMap_nil, hS, hE]
  have hformulas : (formulaEntries twoModel).mapM (fun e => do pure (placeOf e, e.slot, ← formulaText e)) =
      .ok twoFormulas := by
    rw [hentries]
    exact eq_ok_of_toOption (by decide +kernel)
  unfold ofBlueprint
  dsimp only
  rw [if_neg (by rw [hentries]; decide +kernel), hformulas]
  exact ofFormulas_two

theorem not_readsItself_two : ∀ c ∈ twoProgram, ¬Compiled.ReadsItself c := by
  obtain ⟨-, -, -, -, hrefs, -, haddress⟩ := compiled_two
  rintro c hc ⟨x, hx, hsheet, p, hp, r, hr, hin⟩
  obtain ⟨href, hcell⟩ := hrefs c hc x hx hsheet
  obtain rfl := address_inj.1 (haddress.trans (hcell.symm.trans hp))
  rw [href] at hr
  cases hr
  exact absurd hin (by decide)

/-- What the cells of both formulas hold at the end, and what the formulas would give now, before and after the
workbook is stored. -/
theorem texts_two : (twoFinal.map fun k => ((k.workbook.sheet? "S").bind fun s => (s.value ⟨1, 3⟩).text?,
    twoProgram.map fun c => (c.place, [k.workbook, k.workbook.stored].map fun w =>
      (c.expr.eval ⟨w, extents twoModel⟩).toOption.bind Value.text?),
    (twoFiles.storeIn "o.xlsx" k.workbook).toOption.isSome)) =
    some (some "[None, None, None]0", [(⟨"S", "B1"⟩, [some "70", some "70"]),
      (⟨"S", "C1"⟩, [some "[None, None, None, None, None]0", some "[None]0"])], true) := by
  have hS := sortedEntries_two "S" (by decide)
  have hE := sortedEntries_two "E" (by decide)
  unfold twoFinal
  delta workbook fillIn Rebuild.fill
  simp only [read_two.2.1, foldlM_cons, foldlM_nil, hS, hE]
  decide +kernel

/-- Inputs that lack every sheet give what was recorded. -/
theorem workbook_of_no_inputs (fs : Files) (b : Blueprint) : workbook { formulas := false } fs b =
    workbook { formulas := false, asRecorded := true } fs b := by
  delta workbook fillIn Rebuild.fill Rebuild.place Rebuild.content
  simp only [Std.HashMap.getElem?_empty, ite_self]

theorem run_two (hk : twoFinal = some k) {fs : Files} (hfs : twoFiles.storeIn "o.xlsx" k.workbook = .ok fs) :
    run twoFiles twoProgram "m.xlsx" "i.xlsx" "o.xlsx" = .ok fs := by
  have hinputs : twoFiles.load "i.xlsx" = .ok {} := rfl
  have hoverrides : Overrides.ofInputs twoModel (Workbook.dataOnly {}) = .ok ∅ := by
    rw [Overrides.ofInputs, read_two.2.1]
    rfl
  obtain ⟨start, hstart, hfold⟩ := of_bind (eq_ok_of_toOption hk)
  rw [← workbook_of_no_inputs] at hstart
  obtain ⟨-, -, hnames, hreadable, -⟩ := compiled_two
  rw [← effective_eq hnames] at hfold
  unfold run
  rw [if_pos hreadable]
  exact bind_ok readReport_two (bind_ok hinputs (bind_ok hoverrides (bind_ok hstart (bind_ok hfold hfs))))

theorem exists_run_two : ∃ k fs, twoFinal = some k ∧ twoFiles.storeIn "o.xlsx" k.workbook = .ok fs ∧
    run twoFiles twoProgram "m.xlsx" "i.xlsx" "o.xlsx" = .ok fs := by
  obtain ⟨k, hk, htexts⟩ := Option.map_eq_some_iff.1 texts_two
  obtain ⟨fs, hfs⟩ := Option.isSome_iff_exists.1 (Prod.mk.inj (Prod.mk.inj htexts).2).2
  exact ⟨k, fs, hk, eq_ok_of_toOption hfs, run_two hk (eq_ok_of_toOption hfs)⟩

end Program

end Sheetwork.Model
