import Sheetwork.Proofs.Workbook.Address
import Sheetwork.Proofs.Workbook.Content
/-
  Workbooks: pages, which are sheets that were written row by row (`Wrote`). When a page has been in a file and is
  opened without its formulas, values that last are where they were (`Wrote.shows`), and a page is found by its name
  (`Workbook.exists_shown`).
-/

open List

namespace Sheetwork

namespace Cell

def readsAsFormula : Value → Bool
  | .text s => isFormulaText s
  | _ => false

/-- Values that come back unchanged from a file that is opened without its formulas, if they can be
written at all. -/
def lasts : Value → Bool
  | .text s => s.length ≤ maxText && !isFormulaText s
  | .float x => !(x.isNaN || x.isInf)
  | .date _ => false
  | _ => true

theorem lasts_text {s : String} : lasts (.text s) = true ↔ s.length ≤ maxText ∧ isFormulaText s = false := by
  simp only [lasts, Bool.and_eq_true, decide_eq_true_eq, Bool.not_eq_true']

variable {v : Value}

theorem taken_of_lasts (h : lasts v = true) : taken v = v := by
  cases v with
  | text s => exact taken_text (lasts_text.1 h).1
  | _ => rfl

theorem filed_of_lasts (h : lasts v = true) : filed v = v := by
  cases v with
  | float x =>
    have hx : (x.isNaN || x.isInf) = false := by simpa [lasts] using h
    simp only [filed, hx]
    rfl
  | date => cases h
  | _ => rfl

theorem readsAsFormula_of_lasts (h : lasts v = true) : readsAsFormula v = false := by
  cases v with
  | text s => exact (lasts_text.1 h).2
  | _ => rfl

theorem value_dataOnly {c : Cell} (h : readsAsFormula c.value = false) : c.dataOnly.value = c.value := by
  have hformula : c.isFormula = false := by
    unfold isFormula kind
    cases hv : c.value with
    | text s =>
      rw [hv] at h
      have hs : isFormulaText s = false := h
      cases c.isPlain <;> simp only [hs] <;> grind
    | _ => rfl
  rw [dataOnly, hformula]
  rfl

end Cell

namespace Text

/-- A text that is not empty and does not begin like a formula. -/
def Firm (s : String) : Prop := ∃ c, s.toList.head? = some c ∧ c ≠ '='

namespace Firm

variable {s : String}

theorem lasts (h : Firm s) (hlen : s.length ≤ Cell.maxText) : Cell.lasts (.text s) = true := by
  obtain ⟨c, hc, hne⟩ := h
  refine Cell.lasts_text.2 ⟨hlen, ?_⟩
  rw [Bool.eq_false_iff, ne_eq, Cell.isFormulaText_iff]
  rintro ⟨c', r, hs⟩
  rw [hs] at hc
  exact hne (Option.some.inj hc).symm

theorem ne_empty (h : Firm s) : s ≠ "" := by
  rintro rfl
  obtain ⟨c, hc, -⟩ := h
  cases hc

theorem truthy (h : Firm s) : (Value.text s).truthy = true := by simpa [Value.truthy] using h.ne_empty

theorem append (h : Firm s) (t : String) : Firm (s ++ t) := by
  obtain ⟨c, hc, hne⟩ := h
  refine ⟨c, ?_, hne⟩
  rw [String.toList_append, head?_append, hc]
  rfl

theorem take {n : Nat} (h : Firm s) (hn : n ≠ 0) : Firm (Text.take n s) := by
  obtain ⟨c, hc, hne⟩ := h
  refine ⟨c, ?_, hne⟩
  rw [Text.take, String.toList_ofList, head?_take, if_neg hn, hc]

theorem map {f : Char → Char} (h : Firm s) (hf : ∀ c, c ≠ '=' → f c ≠ '=') : Firm (String.ofList (s.toList.map f)) := by
  obtain ⟨c, hc, hne⟩ := h
  refine ⟨f c, ?_, hf c hne⟩
  rw [String.toList_ofList, head?_map, hc]
  rfl

end Firm

theorem firm_address {p : Position} (hp : p.OnSheet) : Firm p.address := by
  obtain ⟨c, r, hc⟩ := exists_cons_of_length_pos (Column.length_letters hp.col_pos hp.col_le).1
  refine ⟨c, by rw [Position.toList_address, hc]; rfl, ?_⟩
  have hupper : isAsciiUpper c = true := Column.capitals_letters p.col c (hc ▸ mem_cons_self)
  rintro rfl
  cases hupper

theorem length_take_le (n : Nat) (s : String) : (take n s).length ≤ n := by
  rw [take, String.length_ofList]
  exact List.length_take_le n _

end Text

namespace Sheet

variable {s s' t : Sheet} {p q : Position} {v : Value} {rows : List (List Value)}

/-! Writing -/

/-- The rows stand from row `k` on, and the rest is as it was. -/
abbrev Wrote (k : Nat) (rows : List (List Value)) (s s' : Sheet) : Prop :=
  Puts (gridPuts k (rows.map fun vs => vs.map written)) s s'

/-! Reading again -/

theorem cell?_mapCells (f : Cell → Cell) : (s.mapCells f).cell? q = (s.cell? q).map f := by
  have hfold := getElem?_foldl_insert (g := fun _ => true) (f := fun x => f x.2) s.nodup_entries ∅ q
  refine hfold.trans ?_
  rw [find?_entries, Std.TreeMap.getElem?_emptyc, Option.or_none, cell?]
  cases s.cells[q]? <;> rfl

@[simp]
theorem name_dataOnly : s.dataOnly.name = s.name := rfl

theorem mem_dataOnly (s : Sheet) : q ∈ s.dataOnly.cells ↔ q ∈ s.cells := by
  rw [mem_cells_iff, mem_cells_iff, dataOnly, cell?_mapCells, Option.isSome_map]

theorem value_dataOnly (h : Cell.readsAsFormula (s.value q) = false) : s.dataOnly.value q = s.value q := by
  rw [value, cell, dataOnly, cell?_mapCells]
  rw [value, cell] at h ⊢
  cases hc : s.cell? q with
  | none => rfl
  | some c =>
    rw [hc] at h
    exact Cell.value_dataOnly h

theorem value_reread (h : s.merged = []) (hv : Cell.readsAsFormula (s.value q) = false) :
    s.stored.dataOnly.value q = Cell.filed (s.value q) := by
  rw [value_dataOnly, value_stored h]
  rw [value_stored h]
  cases hq : s.value q with
  | text t => rw [hq] at hv; exact hv
  | float x => simp only [Cell.filed]; split <;> rfl
  | _ => rfl

/-- A sheet that has nothing but rows, with the values that last. -/
structure Shows (rows : List (List Value)) (t : Sheet) : Prop where
  unmerged : t.merged = []
  value : ∀ i j v, entryAt? rows i j = some v → Cell.lasts v = true → t.value ⟨i + 1, j + 1⟩ = v
  mem : ∀ q ∈ t.cells, ∃ i j, (entryAt? rows i j).isSome ∧ q = ⟨i + 1, j + 1⟩

theorem Wrote.shows {name : String} (h : Wrote 1 rows { name } s) : Shows rows s.stored.dataOnly := by
  have hplace : ∀ i j, Position.mk (1 + i) (j + 1) = ⟨i + 1, j + 1⟩ := by
    intro i j
    rw [Nat.add_comm]
  refine ⟨merged_stored h.merged, fun i j v hv hlasts => ?_, fun q hq => ?_⟩
  · have hat : s.value ⟨1 + i, j + 1⟩ = Cell.taken v :=
      congrArg Prod.fst (h.content_grid (o := written v) (by rw [entryAt?_map, hv]; rfl))
    rw [hplace, Cell.taken_of_lasts hlasts] at hat
    rw [value_reread h.merged (by rw [hat]; exact Cell.readsAsFormula_of_lasts hlasts), hat, Cell.filed_of_lasts hlasts]
  · rcases h.mem_grid.1 (mem_of_mem_stored h.merged ((mem_dataOnly _).1 hq)) with ⟨i, j, rfl, hij⟩ | hq
    · rw [entryAt?_map, Option.isSome_map] at hij
      exact ⟨i, j, hij, hplace i j⟩
    · exact absurd hq (by simp)

namespace Shows

theorem maxRow_le (h : Shows rows t) (hne : rows ≠ []) : t.maxRow ≤ rows.length := by
  refine maxRow_le_iff.2 ⟨length_pos_iff.2 hne, fun p hp => ?_⟩
  obtain ⟨i, j, hij, rfl⟩ := h.mem p hp
  exact (lt_of_entryAt? hij).1

/-- A page has as many rows as were written, if none is empty. -/
theorem maxRow_eq (h : Shows rows t) (hne : rows ≠ [])
    (hfull : ∀ row ∈ rows, ∃ v ∈ row, v ≠ .null ∧ Cell.lasts v = true) : t.maxRow = rows.length := by
  refine Nat.le_antisymm (h.maxRow_le hne) ?_
  have hpos := length_pos_iff.2 hne
  obtain ⟨n, hn⟩ : ∃ n, rows.length = n + 1 := ⟨rows.length - 1, by omega⟩
  obtain ⟨v, hv, hnull, hlasts⟩ := hfull rows[n] (getElem_mem _)
  obtain ⟨j, hj⟩ := getElem?_of_mem hv
  have hat : t.value ⟨n + 1, j + 1⟩ = v := h.value n j v (by
    rw [entryAt?, getElem?_eq_getElem (by omega), Option.bind_some, hj]) hlasts
  have hmem : (⟨n + 1, j + 1⟩ : Position) ∈ t.cells := mem_of_value_ne (by rw [hat]; exact hnull)
  rw [hn]
  exact le_maxRow hmem

theorem listing {names : List String} (h : Shows (Value.texts names :: rows) t)
    (hnames : ∀ n ∈ names, Cell.lasts (.text n) = true)
    (hrows : ∀ row ∈ rows, row.length ≤ names.length) : Listing names t := by
  refine ⟨h.unmerged, fun i n hn => ?_, fun p hp => ?_⟩
  · have hat : entryAt? (Value.texts names :: rows) 0 i = some (.text n) := by
      rw [entryAt?, getElem?_cons_zero, Option.bind_some, Value.texts, getElem?_map, hn]
      rfl
    exact h.value 0 i _ hat (hnames n (mem_of_getElem? hn))
  · obtain ⟨i, j, hij, rfl⟩ := h.mem p hp
    obtain ⟨-, row, hrow, hj⟩ := lt_of_entryAt? hij
    refine Nat.lt_of_lt_of_le hj ?_
    rcases mem_cons.1 hrow with rfl | hrow
    · exact Nat.le_of_eq (length_map _)
    · exact hrows row hrow

section

variable {α : Type} {names : List String} {row : α → List Value} {xs : List α}

theorem value_row (h : Shows (Value.texts names :: xs.map row) t) {i j : Nat} {x : α} (hx : xs[i]? = some x)
    (hv : (row x)[j]? = some v) (hlasts : Cell.lasts v = true) : t.value ⟨i + 2, j + 1⟩ = v := by
  refine h.value (i + 1) j v ?_ hlasts
  rw [entryAt?, getElem?_cons_succ, getElem?_map, hx, Option.map_some, Option.bind_some, hv]

theorem maxRow_rows (h : Shows (Value.texts names :: xs.map row) t) (hnames : ∃ n ∈ names, Cell.lasts (.text n) = true)
    (hrow : ∀ x ∈ xs, ∃ v ∈ row x, v ≠ .null ∧ Cell.lasts v = true) : t.maxRow = xs.length + 1 := by
  rw [h.maxRow_eq (cons_ne_nil _ _), length_cons, length_map]
  intro vs hvs
  rcases mem_cons.1 hvs with rfl | hvs
  · obtain ⟨n, hn, hlasts⟩ := hnames
    exact ⟨.text n, mem_map_of_mem hn, nofun, hlasts⟩
  · obtain ⟨x, hx, rfl⟩ := mem_map.1 hvs
    exact hrow x hx

end

end Shows

end Sheet

/-! Workbooks of pages -/

namespace Workbook

theorem sheet?_reread (w : Workbook) (name : String) :
    w.stored.dataOnly.sheet? name = (w.sheet? name).map (·.stored.dataOnly) := by
  rw [sheet?, dataOnly, stored, map_map, find?_map]
  simp only [Function.comp_def, Sheet.name_dataOnly, Sheet.name_stored]
  rfl

variable {w : Workbook}

/-- Sheets that were made for elements are found by their names again, if no name is there twice. -/
theorem exists_sheet?_stored {α : Type} {R : α → Sheet → Prop} {name : α → String} {xs : List α}
    (h : Forall₂ (fun x s => R x s ∧ s.name = name x) xs w.sheets) (hd : (xs.map name).Nodup) {x : α}
    (hx : x ∈ xs) : ∃ s, R x s ∧ w.stored.dataOnly.sheet? (name x) = some s.stored.dataOnly := by
  suffices hfound : ∃ s, R x s ∧ w.sheet? (name x) = some s by
    obtain ⟨s, hs, hfound⟩ := hfound
    exact ⟨s, hs, by rw [sheet?_reread, hfound]; rfl⟩
  rw [sheet?]
  generalize w.sheets = sheets at h
  induction h with
  | nil => cases hx
  | @cons y s xs sheets hy hrest ih =>
    rw [map_cons, nodup_cons] at hd
    rcases mem_cons.1 hx with rfl | hx
    · exact ⟨s, hy.1, find?_cons_of_pos (decide_eq_true hy.2)⟩
    · have hne : name y ≠ name x := fun heq => hd.1 (heq ▸ mem_map_of_mem hx)
      rw [find?_cons_of_neg (by rw [hy.2]; simpa using hne)]
      exact ih hd.2 hx

variable {pages : List (String × List (List Value))}

theorem wrote_ofPages {page : String → List (List Value) → Outcome Sheet}
    (hpage : ∀ name rows s, page name rows = .ok s → Sheet.Wrote 1 rows { name } s)
    (hd : (pages.map fun x => Text.lower x.1).Nodup) (h : ofPages page pages = .ok w) :
    Forall₂ (fun x s => Sheet.Wrote 1 x.2 { name := x.1 } s) pages w.sheets := by
  obtain ⟨ss, hss, hforall⟩ := sheets_of_foldlM Prod.fst (R := fun x s => Sheet.Wrote 1 x.2 { name := x.1 } s)
    (fun w w' x _ hstep => by
      obtain ⟨s, hs, hstep⟩ := of_bind hstep
      have hwrote := hpage _ _ s hs
      exact ⟨s, hwrote, hwrote.name, (Except.ok.inj hstep).symm⟩) hd (fun s hs => absurd hs not_mem_nil) h
  rw [hss]
  exact hforall.imp fun _ _ hx => hx.1

theorem exists_shown
    (h : Forall₂ (fun x s => Sheet.Wrote 1 x.2 { name := x.1 } s) pages w.sheets) (hd : (pages.map Prod.fst).Nodup)
    {x : String × List (List Value)} (hx : x ∈ pages) : ∃ t, w.stored.dataOnly.sheet? x.1 = some t ∧ t.Shows x.2 := by
  obtain ⟨s, hs, hfound⟩ := exists_sheet?_stored (h.imp fun _ _ hs => ⟨hs, hs.name⟩) hd hx
  exact ⟨_, hfound, hs.shows⟩

end Workbook

end Sheetwork
