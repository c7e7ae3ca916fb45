import Sheetwork.Plan.Structured
import Sheetwork.Proofs.Plan.Cells
import Sheetwork.Proofs.Plan.Corner
import Sheetwork.Proofs.Vector.Partition
import Sheetwork.Proofs.Workbook.Page
import Sheetwork.Proofs.Workbook.Patches
/-
  Plans: inputs in tables are loaded as they were recorded. A draft has a line for each item of its patches, which are
  small or become tables, and the patches of the rows of sheets cover their inputs, one at each place
  (`exists_covers`). Each kind of line sets its cell when the workbook of the draft is read again: `putSingles_eq` for
  the settings, `entries_eq` and `putTable_eq` for the tables, whichever way they are turned. Main statement:
  `load_gives_inputs`.
-/

open List

namespace Sheetwork.Plan.Structured

open Tables Draft Ordered
open Function (comp_def)
open Address (maxRow)
open Cell (maxText lasts)
open Value (text_beq texts)
open Text (Firm contains lower)

variable {d d' : Draft} {ls : List (Placed × Item)} {ts : List Placed} {sheet : String} {p : Patch}
  {sheets : List (String × List Record)} {x : Item} {cells : List Slot} {xs : List Item} {t : Placed} {s : Sheet}

theorem firm_safeSheetName {s : String} (h : Firm s) : Firm (safeSheetName s) := by
  refine (h.map fun c hc => ?_).take (by decide)
  split
  · decide
  · exact hc

theorem firm_name_ofPatch (h : Firm sheet) (count : Nat) (p : Patch) (i : Nat) :
    Firm (Placed.ofPatch sheet count p i).name := by
  refine firm_safeSheetName ?_
  split
  · exact ((h.take (by decide)).append _).append _
  · exact h

/-! Patches and sheets -/

theorem getElem?_byPlace (s : Slot) : (byPlace xs)[s]? = xs.reverse.find? fun x => x.at_ == s := by
  unfold byPlace
  rw [getElem?_foldl_enter (f := Item.at_) (g := fun x => x), Std.HashMap.getElem?_empty, Option.or_none,
    Option.map_id']

theorem of_getElem?_byPlace {s : Slot} (h : (byPlace xs)[s]? = some x) : x ∈ xs ∧ x.at_ = s := by
  rw [getElem?_byPlace] at h
  have hat : (x.at_ == s) = true := find?_some (p := fun x : Item => x.at_ == s) h
  exact ⟨mem_reverse.1 (mem_of_find?_eq_some h), eq_of_beq hat⟩

theorem exists_getElem?_byPlace {s : Slot} (h : s ∈ xs.map Item.at_) : ∃ y, (byPlace xs)[s]? = some y ∧ y.at_ = s := by
  obtain ⟨x, hx, rfl⟩ := mem_map.1 h
  obtain ⟨y, hy⟩ : ∃ y, (byPlace xs)[x.at_]? = some y := by
    rw [getElem?_byPlace]
    exact Option.isSome_iff_exists.1 (find?_isSome.2 ⟨x, mem_reverse.2 hx, beq_self_eq_true x.at_⟩)
  exact ⟨y, hy, (of_getElem?_byPlace hy).2⟩

/-- A patch whose items are on its area, one at each of its places. -/
structure Patch.Sound (p : Patch) : Prop where
  places : ∃ cells, p.items.map Item.at_ = ofList cells ∧ p.area = SlotBox.around cells
  rowLabels : p.rowLabels.map Prod.fst = p.area.rows
  colLabels : p.colLabels.map Prod.fst = p.area.cols

theorem map_at_filterMap {m : Std.HashMap Slot Item}
    (h : ∀ s ∈ cells, ∃ x, m[s]? = some x ∧ x.at_ = s) : (cells.filterMap fun s => m[s]?).map Item.at_ = cells := by
  induction cells with
  | nil => rfl
  | cons s cells ih =>
    obtain ⟨x, hx, hat⟩ := h s mem_cons_self
    rw [filterMap_cons_some hx, map_cons, hat, ih fun s' hs' => h s' (mem_cons_of_mem _ hs')]

theorem sound_ofCells {inputs all : Std.HashMap Slot Item}
    (h : ∀ s ∈ cells, ∃ x, inputs[s]? = some x ∧ x.at_ = s) : (Patch.ofCells inputs all cells).Sound := by
  refine ⟨⟨cells, map_at_filterMap fun s hs => h s (mem_ofList.1 hs), rfl⟩, ?_, ?_⟩ <;>
    rw [Patch.ofCells, map_map] <;> exact map_id _

/-- The patches of inputs are sound, and their items are the inputs, one at each place. -/
theorem mem_patches {inputs all : List Item} : (∀ p ∈ patches inputs all, p.Sound ∧ ∀ x ∈ p.items, x ∈ inputs) ∧
      ∀ x ∈ inputs, ∃ p ∈ patches inputs all, ∃ y ∈ p.items, y.at_ = x.at_ := by
  have hd := nodup_ofList (inputs.map Item.at_)
  constructor
  · intro p hp
    obtain ⟨q, hq, rfl⟩ := mem_map.1 hp
    refine ⟨sound_ofCells fun s hs => exists_getElem?_byPlace ?_, fun x hx => ?_⟩
    · exact mem_ofList.1 (Patches.mem_of_mem_ofCells hd hq hs)
    obtain ⟨s, -, hs⟩ := mem_filterMap.1 hx
    exact (of_getElem?_byPlace hs).1
  · intro x hx
    obtain ⟨q, hq, hs⟩ := Patches.exists_mem_ofCells hd (mem_ofList.2 (mem_map_of_mem hx))
    obtain ⟨y, hy, hat⟩ := exists_getElem?_byPlace (mem_map_of_mem hx)
    exact ⟨_, mem_map_of_mem hq, y, mem_filterMap.2 ⟨x.at_, mem_ofList.2 hs, hy⟩, hat⟩

/-- What lists of rows give to a draft: sound patches of their inputs, one at each place. -/
structure Covers (sheets : List (String × List Record)) (ts : List Placed) : Prop where
  sound : ∀ t ∈ ts, ∃ x ∈ sheets, t.sheet = x.1 ∧ t.patch.Sound ∧ (Firm x.1 → Firm t.name) ∧ t.name.length ≤ 31 ∧
    ∀ i ∈ t.patch.items, ∃ r ∈ x.2, isInput r = true ∧ itemOf r = .ok i
  complete : ∀ x ∈ sheets, ∀ r ∈ x.2, isInput r = true → ∃ i, itemOf r = .ok i ∧
    ∃ t ∈ ts, t.sheet = x.1 ∧ ∃ y ∈ t.patch.items, y.at_ = i.at_

theorem exists_covers_addSheet {rows : List Record} (h : d.addSheet sheet rows = .ok d') :
    ∃ ts, d'.placed = d.placed ++ ts ∧ Covers [(sheet, rows)] ts := by
  unfold addSheet at h
  dsimp only at h
  split at h
  · next hempty =>
    cases h
    refine ⟨[], (append_nil _).symm, nofun, forall_mem_singleton.2 fun r hr hinput => ?_⟩
    rw [List.isEmpty_iff, List.filter_eq_nil_iff] at hempty
    exact absurd hinput (hempty r hr)
  · obtain ⟨inputs, all, hinputs, -, h⟩ := of_bind₂ h
    cases h
    obtain ⟨hsound, hcomplete⟩ := @mem_patches inputs all
    refine ⟨_, rfl, fun t ht => ?_, forall_mem_singleton.2 fun r hr hinput => ?_⟩
    · obtain ⟨i, hi, rfl⟩ := mem_mapIdx.1 ht
      have hp := hsound _ (getElem_mem hi)
      refine ⟨_, mem_singleton_self _, rfl, hp.1, fun h => firm_name_ofPatch h _ _ _, Text.length_take_le _ _, ?_⟩
      intro x hx
      obtain ⟨r, hr, heq⟩ := exists_of_mem_right (mapM_eq_ok_iff.1 hinputs) (hp.2 x hx)
      obtain ⟨hr, hinput⟩ := mem_filter.1 hr
      exact ⟨r, hr, hinput, heq⟩
    · obtain ⟨i, hi, heq⟩ := exists_of_mem_left (mapM_eq_ok_iff.1 hinputs) (mem_filter.2 ⟨hr, hinput⟩)
      obtain ⟨p, hp, y, hy, hat⟩ := hcomplete i hi
      obtain ⟨k, hk, rfl⟩ := getElem_of_mem hp
      exact ⟨i, heq, _, mem_mapIdx.2 ⟨k, hk, rfl⟩, rfl, y, hy, hat⟩

theorem exists_covers (h : sheets.foldlM (fun (d : Draft) (n, rows) => d.addSheet n rows) d = .ok d') :
    ∃ ts, d'.placed = d.placed ++ ts ∧ Covers sheets ts := by
  induction h using foldlM_induction with
  | nil => exact ⟨[], (append_nil _).symm, nofun, nofun⟩
  | cons he _ ih =>
    obtain ⟨ts, hplaced, hsound, hcomplete⟩ := exists_covers_addSheet he
    obtain ⟨ts', hplaced', hsound', hcomplete'⟩ := ih
    refine ⟨ts ++ ts', by rw [hplaced', hplaced, append_assoc], forall_mem_append.2 ⟨fun t ht => ?_, fun t ht => ?_⟩,
      forall_mem_cons.2 ⟨fun r hr hinput => ?_, fun x hx r hr hinput => ?_⟩⟩
    · obtain ⟨x, hx, h⟩ := hsound t ht
      exact ⟨x, mem_cons.2 (.inl (mem_singleton.1 hx)), h⟩
    · exact (hsound' t ht).imp fun _ => .imp_left (mem_cons_of_mem _)
    · obtain ⟨i, hi, t, ht, h⟩ := hcomplete _ mem_cons_self r hr hinput
      exact ⟨i, hi, t, mem_append_left _ ht, h⟩
    · obtain ⟨i, hi, t, ht, h⟩ := hcomplete' x hx r hr hinput
      exact ⟨i, hi, t, mem_append_right _ ht, h⟩

/-! Reading lists -/

theorem column_eq {names : List String} {t : Sheet} (h : Sheet.Listing names t) (hd : names.Nodup) {i : Nat}
    {n : String} (hn : names[i]? = some n) (default : Nat) : column t n default = i + 1 := by
  have hi : i < names.length := lt_of_getElem? hn
  have hne : names ≠ [] := ne_nil_of_length_pos (by omega)
  unfold column
  dsimp only
  rw [h.maxCol_eq hne, find?_eq_some_of_unique (mem_reverse.2 (mem_map.2 ⟨i, mem_range.2 hi, rfl⟩))]
  · rfl
  · rw [h.named i n hn, text_beq, decide_eq_true rfl]
  · intro c hc hvalue
    obtain ⟨j, hj, rfl⟩ := mem_map.1 (mem_reverse.1 hc)
    have hj : j < names.length := mem_range.1 hj
    rw [h.named j _ (getElem?_eq_getElem hj), text_beq, decide_eq_true_eq] at hvalue
    have hij : i = j := (getElem?_inj hi hd).1 (by rw [hn, getElem?_eq_getElem hj, hvalue])
    rw [hij]

theorem forall₂_rows {α : Type} {R : Nat → α → Prop} {xs : List α} {t : Sheet} (h : t.maxRow = xs.length + 1)
    (hR : ∀ i x, xs[i]? = some x → R (i + 2) x) : Forall₂ R (rows t) xs := by
  unfold rows
  rw [h, Nat.add_sub_cancel, forall₂_map_left_iff]
  exact forall₂_range hR

theorem foldl_of_forall₂ {α β γ : Type} {f : γ → α → γ} {g : γ → β → γ} {as : List α} {bs : List β}
    (h : Forall₂ (fun a b => ∀ c, f c a = g c b) as bs) (c : γ) : as.foldl f c = bs.foldl g c := by
  induction h generalizing c with
  | nil => rfl
  | cons hab _ ih => rw [foldl_cons, foldl_cons, hab, ih]

theorem filterMapM_of_forall₂ {α β γ : Type} {f : α → Outcome (Option γ)} {g : β → Option γ} {as : List α} {bs : List β}
    (h : Forall₂ (fun a b => f a = .ok (g b)) as bs) : as.filterMapM f = .ok (bs.filterMap g) := by
  induction h with
  | nil => rfl
  | @cons a b as bs hab _ ih =>
    rw [filterMapM_cons, hab, filterMap_cons]
    cases hb : g b with
    | none => exact ih
    | some x =>
      rw [ih]
      rfl

/-- Lines that come back from a file: they name a sheet and a place on it, and their values last. -/
structure Fine (l : Placed × Item) : Prop where
  sheet : Firm l.1.sheet ∧ l.1.sheet.length ≤ maxText
  place : ∃ p : Position, p.OnSheet ∧ l.2.at_ = p.slot ∧ l.2.cell = .text p.address
  value : lasts l.2.value = true

def spot (l : Placed × Item) : Spot := ⟨l.1.sheet, l.2.at_.row, l.2.at_.col⟩

theorem rowCol?_address {p : Position} (hp : p.OnSheet) : rowCol? p.address = some (p.row, p.col) := by
  have hchars : (Corner.mk p.row p.col false false).chars = p.address.toList := by
    rw [Position.toList_address]
    rfl
  have hread := rowCol?_chars (a := ⟨p.row, p.col, false, false⟩) ⟨hp.col_pos, hp.col_le⟩
  rwa [hchars, String.ofList_toList] at hread

theorem putSingles_eq {t : Sheet} (c : Cells) (h : t.Shows (texts configColumns :: ls.map fun l => l.1.settingRow l.2))
    (hfine : ∀ l ∈ ls, Fine l) : putSingles c t = c.setAll (ls.map fun l => (spot l, l.2.value)) := by
  have hlisting : Sheet.Listing configColumns t := h.listing (by decide) (forall_mem_map.2 fun _ _ => Nat.le_refl _)
  have hmaxRow : t.maxRow = ls.length + 1 := h.maxRow_rows ⟨"Cell", by decide, by decide⟩ fun l hl =>
    ⟨_, mem_cons_self, nofun, (hfine l hl).sheet.1.lasts (hfine l hl).sheet.2⟩
  unfold putSingles Cells.setAll
  rw [column_eq hlisting (by decide) (i := 0) rfl, column_eq hlisting (by decide) (i := 1) rfl,
    column_eq hlisting (by decide) (i := 3) rfl, foldl_map]
  refine foldl_of_forall₂ (forall₂_rows hmaxRow fun i l hl c => ?_) c
  obtain ⟨⟨hfirm, hlen⟩, ⟨p, hp, hat, hcell⟩, hlasts⟩ := hfine l (mem_of_getElem? hl)
  have haddress := Text.firm_address hp
  have hne : p.address.isEmpty = false := by
    rw [Bool.eq_false_iff, ne_eq, String.isEmpty_iff]
    exact haddress.ne_empty
  rw [h.value_row hl (j := 0) rfl (hfirm.lasts hlen), h.value_row hl (j := 1) rfl (hcell ▸ haddress.lasts
    (Nat.le_trans (Position.length_address_le hp) (by decide))), h.value_row hl (j := 3) rfl hlasts, hcell]
  dsimp only
  have htruthy : (Value.text l.1.sheet).truthy = true := hfirm.truthy
  rw [htruthy, hne, rowCol?_address hp, spot, hat]
  rfl

/-- What an index says about an input in a table. -/
def Placed.entry (t : Placed) (x : Item) : Tables.Entry := ⟨.text t.sheet, t.kind, x.at_.row, x.at_.col⟩

theorem firm_kind (t : Placed) : Firm t.kind ∧ t.kind.length ≤ maxText := by
  unfold Placed.kind
  split
  · exact ⟨⟨'S', by decide, by decide⟩, by decide⟩
  · split <;> exact ⟨⟨'T', by decide, by decide⟩, by decide⟩

theorem truthy_coordinate {p : Position} (hp : p.OnSheet) :
    (toValue p.slot.row).truthy = true ∧ (toValue p.slot.col).truthy = true := by
  have htruthy : ∀ n : Nat, 1 ≤ n → (Value.int n).truthy = true := by
    intro n hn
    show decide ((n : Int) ≠ 0) = true
    rw [decide_eq_true_eq]
    omega
  exact ⟨htruthy _ hp.row_pos, htruthy _ hp.col_pos⟩

theorem entries_eq {t : Sheet} (h : t.Shows (texts indexColumns :: ls.map fun l => l.1.indexRow l.2))
    (hfine : ∀ l ∈ ls, Fine l) (hname : ∀ l ∈ ls, l.1.patch.isSmall = false →
      Firm l.1.name ∧ l.1.name.length ≤ maxText ∧ l.1.name ≠ "Config") :
    entries t = .ok ((ls.filter fun l => !l.1.patch.isSmall).map fun l => (l.1.name, l.1.entry l.2)) := by
  have hlisting : Sheet.Listing indexColumns t := h.listing (by decide) (forall_mem_map.2 fun l _ => Nat.le_refl _)
  have hmaxRow : t.maxRow = ls.length + 1 := h.maxRow_rows ⟨"Cell", by decide, by decide⟩ fun l hl =>
    ⟨.text l.1.sheet, mem_cons_self, nofun, (hfine l hl).sheet.1.lasts (hfine l hl).sheet.2⟩
  unfold entries
  rw [column_eq hlisting (by decide) (i := 0) rfl, column_eq hlisting (by decide) (i := 1) rfl,
    column_eq hlisting (by decide) (i := 2) rfl, column_eq hlisting (by decide) (i := 4) rfl,
    column_eq hlisting (by decide) (i := 5) rfl, ← filterMap_eq_filter, map_filterMap]
  refine filterMapM_of_forall₂ (forall₂_rows hmaxRow fun i l hl => ?_)
  have hmem := mem_of_getElem? hl
  obtain ⟨⟨hfirm, hlen⟩, ⟨p, hp, hat, -⟩, -⟩ := hfine l hmem
  obtain ⟨hrow, hcol⟩ := truthy_coordinate hp
  cases hsmall : l.1.patch.isSmall with
  | true =>
    have htarget : t.value ⟨i + 2, 1 + 1⟩ = .text "Config" :=
      h.value_row hl (by rw [Placed.indexRow, Placed.target, hsmall]; rfl) (by decide)
    simp only [htarget, text_beq, decide_true, Bool.not_true, Bool.and_false, Option.guard, hsmall]
    rfl
  | false =>
    obtain ⟨hnfirm, hnlen, hconfig⟩ := hname l hmem hsmall
    have hsource : t.value ⟨i + 2, 0 + 1⟩ = .text l.1.sheet := h.value_row hl rfl (hfirm.lasts hlen)
    have htarget : t.value ⟨i + 2, 1 + 1⟩ = .text l.1.name :=
      h.value_row hl (by rw [Placed.indexRow, Placed.target, hsmall]; rfl) (hnfirm.lasts hnlen)
    have hkind : t.value ⟨i + 2, 2 + 1⟩ = .text l.1.kind :=
      h.value_row hl rfl ((firm_kind l.1).1.lasts (firm_kind l.1).2)
    have hrowAt : t.value ⟨i + 2, 4 + 1⟩ = toValue p.slot.row := h.value_row hl (by rw [← hat]; rfl) rfl
    have hcolAt : t.value ⟨i + 2, 5 + 1⟩ = toValue p.slot.col := h.value_row hl (by rw [← hat]; rfl) rfl
    have hsheet : (Value.text l.1.sheet).truthy = true := hfirm.truthy
    simp only [hsource, htarget, hkind, hrowAt, hcolAt, hrow, hcol, hsheet, hnfirm.truthy, (firm_kind l.1).1.truthy,
      text_beq, decide_eq_false hconfig, Option.guard, hsmall, Placed.entry, Bool.not_false, Option.map_some, hat,
      if_true]
    rfl

/-! Reading tables -/

namespace Patch.Sound

theorem on_area (h : p.Sound) (hx : x ∈ p.items) : (p.area.minRow ≤ x.at_.row ∧ x.at_.row ≤ p.area.maxRow) ∧
    p.area.minCol ≤ x.at_.col ∧ x.at_.col ≤ p.area.maxCol := by
  obtain ⟨cells, hitems, harea⟩ := h.places
  have hmem : x.at_ ∈ cells := mem_ofList.1 (hitems ▸ mem_map_of_mem hx)
  rw [harea]
  exact ⟨SlotBox.around_row hmem, SlotBox.around_col hmem⟩

theorem valueAt_eq (h : p.Sound) (hx : x ∈ p.items) : p.valueAt x.at_.row x.at_.col = x.value := by
  obtain ⟨cells, hitems, -⟩ := h.places
  have hd : (p.items.map Item.at_).Nodup := hitems ▸ nodup_ofList cells
  rw [Patch.valueAt, find?_eq_some_of_unique hx (decide_eq_true rfl) fun y hy hat =>
    inj_on_of_nodup_map hd hy hx (of_decide_eq_true hat)]
  rfl

theorem least_eq (h : p.Sound) {rows cols : List Int} (hrows : ∀ n, n ∈ rows ↔ ∃ x ∈ p.items, x.at_.row = n)
    (hcols : ∀ n, n ∈ cols ↔ ∃ x ∈ p.items, x.at_.col = n) :
    least rows = p.area.minRow ∧ least cols = p.area.minCol := by
  obtain ⟨cells, hitems, harea⟩ := h.places
  have hcell : ∀ s, s ∈ cells ↔ ∃ x ∈ p.items, x.at_ = s := by
    intro s
    rw [← mem_ofList, ← hitems, mem_map]
  have hmap : ∀ (g : Slot → Int) n, n ∈ cells.map g ↔ ∃ x ∈ p.items, g x.at_ = n := by
    intro g n
    rw [mem_map]
    constructor
    · rintro ⟨s, hs, rfl⟩
      obtain ⟨x, hx, rfl⟩ := (hcell s).1 hs
      exact ⟨x, hx, rfl⟩
    · rintro ⟨x, hx, rfl⟩
      exact ⟨x.at_, (hcell _).2 ⟨x, hx, rfl⟩, rfl⟩
  rw [harea]
  exact ⟨SlotBox.getD_min?_congr fun n => (hrows n).trans (hmap _ n).symm,
    SlotBox.getD_min?_congr fun n => (hcols n).trans (hmap _ n).symm⟩

end Patch.Sound

/-- Where a table has the value of an item: below the headings and right of the labels. -/
theorem entryAt?_table (h : p.Sound) (hx : x ∈ p.items) : Sheet.entryAt? p.table
    ((if p.isTransposed then x.at_.col - p.area.minCol else x.at_.row - p.area.minRow).toNat + 1)
    ((if p.isTransposed then x.at_.row - p.area.minRow else x.at_.col - p.area.minCol).toNat + 1) = some x.value := by
  obtain ⟨⟨hrlo, hrhi⟩, hclo, hchi⟩ := h.on_area hx
  have hrow := p.area.getElem?_rows hrlo hrhi
  have hcol := p.area.getElem?_cols hclo hchi
  unfold Patch.table Sheet.entryAt?
  split
  · rw [← h.colLabels, getElem?_map] at hcol
    obtain ⟨l, hl, heq⟩ := Option.map_eq_some_iff.1 hcol
    rw [getElem?_cons_succ, getElem?_map, hl, Option.map_some, Option.bind_some, getElem?_cons_succ,
      getElem?_map, hrow, Option.map_some, heq, h.valueAt_eq hx]
  · rw [← h.rowLabels, getElem?_map] at hrow
    obtain ⟨l, hl, heq⟩ := Option.map_eq_some_iff.1 hrow
    rw [getElem?_cons_succ, getElem?_map, hl, Option.map_some, Option.bind_some, getElem?_cons_succ,
      getElem?_map, hcol, Option.map_some, heq, h.valueAt_eq hx]

theorem transposed_kind (h : t.patch.isSmall = false) :
    contains "transposed" (lower t.kind) = t.patch.isTransposed := by
  unfold Placed.kind
  rw [h]
  cases t.patch.isTransposed
  · exact (by decide +kernel : contains "transposed" (lower "Table") = false)
  · exact (by decide +kernel : contains "transposed" (lower "Table(transposed)") = true)

theorem exists_positionOf (h : p.Sound) (hx : x ∈ p.items) (hfits : p.table.length ≤ maxRow) :
    ∃ q, (if p.isTransposed then positionOf (x.at_.col - p.area.minCol + 2) (x.at_.row - p.area.minRow + 2)
      else positionOf (x.at_.row - p.area.minRow + 2) (x.at_.col - p.area.minCol + 2)) = .ok q ∧
        ∀ s : Sheet, s.Shows p.table → lasts x.value = true → s.value q = x.value := by
  have hentry := entryAt?_table h hx
  have hlt := (Sheet.lt_of_entryAt? (Option.isSome_iff_exists.2 ⟨_, hentry⟩)).1
  obtain ⟨⟨hrlo, -⟩, hclo, -⟩ := h.on_area hx
  cases ht : p.isTransposed
  all_goals
    simp only [ht, if_true, Bool.false_eq_true, if_false] at hentry hlt ⊢
    refine ⟨_, positionOf_eq_ok_iff.2 ⟨by omega, by omega, by omega, rfl⟩, fun s hs hlasts => ?_⟩
    rw [← hs.value _ _ _ hentry hlasts]
    congr 2 <;> omega

theorem putTable_eq {es : List Tables.Entry} (h : t.patch.Sound) (hlarge : t.patch.isSmall = false)
    (hs : s.Shows t.patch.table) (hes : ∀ e, e ∈ es ↔ ∃ x ∈ t.patch.items, t.entry x = e)
    (hlasts : ∀ x ∈ t.patch.items, lasts x.value = true)
    (hfits : t.patch.table.length ≤ maxRow) (c : Cells) :
    putTable c s es = c.setAll (es.map fun e => (⟨t.sheet, e.row, e.col⟩, t.patch.valueAt e.row e.col)) := by
  have hcoordinate : ∀ (f : Tables.Entry → Int) (n : Int), n ∈ es.map f ↔ ∃ x ∈ t.patch.items, f (t.entry x) = n := by
    intro f n
    simp only [mem_map, hes, exists_exists_and_eq_and]
  obtain ⟨htop, hleft⟩ := h.least_eq (hcoordinate Tables.Entry.row) (hcoordinate Tables.Entry.col)
  have htransposed : ∀ x ∈ t.patch.items,
      (es.any fun e => contains "transposed" (lower e.kind)) = t.patch.isTransposed := by
    intro x hx
    rw [Bool.eq_iff_iff, any_eq_true]
    constructor
    · rintro ⟨e, he, hkind⟩
      obtain ⟨y, -, rfl⟩ := (hes e).1 he
      rwa [← transposed_kind hlarge]
    · intro hkind
      exact ⟨_, (hes _).2 ⟨x, hx, rfl⟩, by rwa [← transposed_kind hlarge] at hkind⟩
  unfold putTable Cells.setAll
  rw [htop, hleft, foldl_map]
  refine foldl_ext _ _ _ fun c e he => ?_
  obtain ⟨x, hx, rfl⟩ := (hes e).1 he
  obtain ⟨q, hq, hvalue⟩ := exists_positionOf h hx hfits
  rw [htransposed x hx]
  dsimp only [Placed.entry]
  rw [hq, h.valueAt_eq hx]
  dsimp only
  rw [hvalue s hs (hlasts x hx)]
  rfl

variable {w : Workbook}

theorem exists_setAll_tables {xs : List (Placed × Item)}
    (hxs : ∀ t x, (t, x) ∈ xs ↔ t ∈ ts ∧ x ∈ t.patch.items) (hd : (ts.map Placed.name).Nodup)
    (hts : ∀ t ∈ ts, t.patch.Sound ∧ t.patch.isSmall = false ∧ t.patch.table.length ≤ maxRow ∧
      ∃ s, w.sheet? t.name = some s ∧ s.Shows t.patch.table)
    (hlasts : ∀ t ∈ ts, ∀ x ∈ t.patch.items, lasts x.value = true) (c : Cells) :
    ∃ zs, (bucketBy Prod.fst (xs.map fun x => (x.1.name, x.1.entry x.2))).foldl (fun c (name, es) =>
        ((w.sheet? name).map fun s => putTable c s (es.map (·.2))).getD c) c = c.setAll zs ∧
      ∀ z, z ∈ zs ↔ ∃ t ∈ ts, ∃ x ∈ t.patch.items, z = (⟨t.sheet, x.at_.row, x.at_.col⟩, x.value) := by
  have hkey : ∀ n, n ∈ (bucketBy Prod.fst (xs.map fun x => (x.1.name, x.1.entry x.2))).map Prod.fst ↔
      ∃ t ∈ ts, t.name = n ∧ ∃ x, x ∈ t.patch.items := by
    intro n
    rw [mem_keys_bucketBy, map_map, mem_map]
    constructor
    · rintro ⟨⟨t, x⟩, hx, rfl⟩
      obtain ⟨ht, hx⟩ := (hxs t x).1 hx
      exact ⟨t, ht, rfl, x, hx⟩
    · rintro ⟨t, ht, rfl, x, hx⟩
      exact ⟨(t, x), (hxs t x).2 ⟨ht, hx⟩, rfl⟩
  have hsets := Cells.exists_setAll_foldl (bucketBy Prod.fst (xs.map fun x => (x.1.name, x.1.entry x.2)))
    (f := fun c b => ((w.sheet? b.1).map fun s => putTable c s (b.2.map (·.2))).getD c)
    (R := fun b z => ∃ t ∈ ts, t.name = b.1 ∧ ∃ x ∈ t.patch.items, z = (⟨t.sheet, x.at_.row, x.at_.col⟩, x.value))
    (fun b hb c => ?_) c
  · obtain ⟨zs, hzs, hmem⟩ := hsets
    refine ⟨zs, hzs, fun z => (hmem z).trans ⟨fun ⟨_, _, t, ht, _, hz⟩ => ⟨t, ht, hz⟩, ?_⟩⟩
    rintro ⟨t, ht, x, hx, hz⟩
    obtain ⟨b, hb, hname⟩ := mem_map.1 ((hkey t.name).2 ⟨t, ht, rfl, x, hx⟩)
    exact ⟨b, hb, t, ht, hname.symm, x, hx, hz⟩
  obtain ⟨t, ht, hname, -⟩ := (hkey b.1).1 (mem_map_of_mem hb)
  have hunique : ∀ t' ∈ ts, t'.name = b.1 → t' = t := fun t' ht' hname' =>
    inj_on_of_nodup_map hd ht' ht (hname'.trans hname.symm)
  obtain ⟨hsound, hlarge, hfits, s, hs, hshows⟩ := hts t ht
  have hes : ∀ e, e ∈ b.2.map Prod.snd ↔ ∃ x ∈ t.patch.items, t.entry x = e := by
    intro e
    simp only [mem_map, mem_bucketBy_iff hb]
    constructor
    · rintro ⟨y, ⟨⟨⟨t', x⟩, hx, rfl⟩, hkey'⟩, rfl⟩
      obtain ⟨ht', hx⟩ := (hxs t' x).1 hx
      obtain rfl := hunique t' ht' hkey'
      exact ⟨x, hx, rfl⟩
    · rintro ⟨x, hx, rfl⟩
      exact ⟨_, ⟨⟨(t, x), (hxs t x).2 ⟨ht, hx⟩, rfl⟩, hname⟩, rfl⟩
  rw [← hname, hs, Option.map_some, Option.getD_some]
  refine ⟨_, putTable_eq hsound hlarge hshows hes (hlasts t ht) hfits c, fun z => mem_map.trans ?_⟩
  constructor
  · rintro ⟨e, he, rfl⟩
    obtain ⟨x, hx, rfl⟩ := (hes e).1 he
    exact ⟨t, ht, rfl, x, hx, Prod.ext rfl (hsound.valueAt_eq hx)⟩
  · rintro ⟨t', ht', hname', x, hx, rfl⟩
    obtain rfl := hunique t' ht' (hname'.trans hname)
    exact ⟨_, (hes _).2 ⟨x, hx, rfl⟩, Prod.ext rfl (hsound.valueAt_eq hx)⟩

/-! Loading a draft -/

theorem wrote_page {name : String} {rows : List (List Value)} (h : page name rows = .ok s) :
    Sheet.Wrote 1 rows { name } s := by
  obtain ⟨s, hs, h⟩ := of_bind h
  cases h
  have hwrote := Sheet.Puts.of_writeRows hs
  cases rows with
  | nil => exact hwrote
  | cons vs rows => exact hwrote.restyleRow (by simp) _

theorem mem_lines : (t, x) ∈ d.lines ↔ t ∈ d.placed ∧ x ∈ t.patch.items := by simp [lines]

theorem exists_setAll_load (hw : d.workbook = .ok w) (hd : (d.pages.map fun x => lower x.1).Nodup)
    (hfits : ∀ x ∈ d.tables, x.2.length ≤ maxRow) (hfine : ∀ l ∈ d.lines, Fine l)
    (hts : ∀ t ∈ d.placed, t.patch.Sound ∧ Firm t.name ∧ t.name.length ≤ maxText) (c : Cells) :
    ∃ zs, load c w.stored.dataOnly = .ok (c.setAll zs) ∧ ∀ z, z ∈ zs ↔ ∃ l ∈ d.lines, z = (spot l, l.2.value) := by
  have hwrote := Workbook.wrote_ofPages (fun _ _ _ => wrote_page) hd hw
  have hpages : (d.pages.map Prod.fst).Nodup := by
    refine Nodup.of_map lower ?_
    rwa [map_map]
  obtain ⟨index, hindex, hshowsIndex⟩ := Workbook.exists_shown hwrote hpages mem_cons_self
  obtain ⟨config, hconfig, hshowsConfig⟩ := Workbook.exists_shown hwrote hpages (mem_cons_of_mem _ mem_cons_self)
  have hnames := hpages
  rw [pages, map_cons, map_cons, nodup_cons, nodup_cons, tables, map_map] at hnames
  obtain ⟨-, hnotConfig, hdistinct⟩ := hnames
  have htabled : ∀ t, t ∈ d.tabled ↔ t ∈ d.placed ∧ t.patch.isSmall = false := fun t => by simp [tabled]
  have hsingles := putSingles_eq c hshowsConfig fun l hl => hfine l (mem_of_mem_filter hl)
  have hentries := entries_eq hshowsIndex hfine (by
    intro l hl hlarge
    have ht := (mem_lines.1 hl).1
    exact ⟨(hts _ ht).2.1, (hts _ ht).2.2, fun heq => hnotConfig (mem_map.2 ⟨l.1, (htabled _).2 ⟨ht, hlarge⟩, heq⟩)⟩)
  have hlines : ∀ t x, (t, x) ∈ d.lines.filter (fun l => !l.1.patch.isSmall) ↔ t ∈ d.tabled ∧ x ∈ t.patch.items := by
    intro t x
    rw [mem_filter, mem_lines, htabled, Bool.not_eq_true', and_right_comm]
  obtain ⟨zs, hzs, hmem⟩ := exists_setAll_tables (w := w.stored.dataOnly) hlines hdistinct
    (fun t ht => ⟨(hts t ((htabled t).1 ht).1).1, ((htabled t).1 ht).2, hfits _ (mem_map_of_mem ht),
      Workbook.exists_shown hwrote hpages (mem_cons_of_mem _ (mem_cons_of_mem _ (mem_map_of_mem ht)))⟩)
    (fun t ht x hx => (hfine (t, x) (mem_lines.2 ⟨((htabled t).1 ht).1, hx⟩)).value) (putSingles c config)
  refine ⟨d.settings.map (fun l => (spot l, l.2.value)) ++ zs, ?_, fun z => ?_⟩
  · rw [Cells.setAll_append, ← hsingles, ← hzs]
    unfold load
    rw [hconfig, hindex]
    dsimp only
    rw [hentries]
    rfl
  · rw [mem_append, mem_map, hmem]
    constructor
    · rintro (⟨l, hl, rfl⟩ | ⟨t, ht, x, hx, rfl⟩)
      · exact ⟨l, mem_of_mem_filter hl, rfl⟩
      · exact ⟨(t, x), mem_lines.2 ⟨((htabled t).1 ht).1, hx⟩, rfl⟩
    · rintro ⟨l, hl, rfl⟩
      cases hsmall : l.1.patch.isSmall with
      | true => exact .inl ⟨l, mem_filter.2 ⟨hl, hsmall⟩, rfl⟩
      | false => exact .inr ⟨l.1, (htabled _).2 ⟨(mem_lines.1 hl).1, hsmall⟩, l.2, (mem_lines.1 hl).2, rfl⟩

def Gives (sheets : List (String × List Record)) (s : Spot) (v : Value) : Prop :=
  ∃ x ∈ sheets, ∃ r ∈ x.2, isInput r = true ∧ ∃ i, itemOf r = .ok i ∧ s = ⟨x.1, i.at_.row, i.at_.col⟩ ∧ i.value = v

/-- Rows as a report has them: the cell of an input is named by its row and column and has one value, which a
file keeps. -/
structure Regular (sheets : List (String × List Record)) : Prop where
  name : ∀ x ∈ sheets, Firm x.1 ∧ x.1.length ≤ maxText
  place : ∀ x ∈ sheets, ∀ r ∈ x.2, isInput r = true → ∀ i, itemOf r = .ok i →
    ∃ p : Position, p.OnSheet ∧ i.at_ = p.slot ∧ i.cell = .text p.address
  lasts : ∀ s v, Gives sheets s v → lasts v = true
  single : ∀ s v v', Gives sheets s v → Gives sheets s v' → v = v'

theorem fine_of_regular (hr : Regular sheets) (hc : Covers sheets d.placed) :
    ∀ l ∈ d.lines, Fine l ∧ Gives sheets (spot l) l.2.value := by
  intro l hl
  obtain ⟨ht, hl⟩ := mem_lines.1 hl
  obtain ⟨x, hx, hsheet, -, -, -, hitems⟩ := hc.sound l.1 ht
  obtain ⟨r, hr', hinput, hitem⟩ := hitems l.2 hl
  have hgives : Gives sheets (spot l) l.2.value := ⟨x, hx, r, hr', hinput, l.2, hitem, by rw [spot, hsheet], rfl⟩
  exact ⟨⟨hsheet ▸ hr.name x hx, hr.place x hx r hr' hinput _ hitem, hr.lasts _ _ hgives⟩, hgives⟩

/-- Unedited tables set every input to its recorded value, and no other cell to another value. -/
theorem load_gives_inputs (hr : Regular sheets)
    (hadd : sheets.foldlM (fun (d : Draft) (n, rows) => d.addSheet n rows) {} = .ok d) (hw : d.workbook = .ok w)
    (hnames : (d.pages.map fun x => Text.lower x.1).Nodup) (hfits : ∀ x ∈ d.tables, x.2.length ≤ Address.maxRow)
    (c : Cells) : ∃ c', load c w.stored.dataOnly = .ok c' ∧ (∀ s v, Gives sheets s v → c'.value s = .ok v) ∧
      ∀ s, (∀ v, ¬Gives sheets s v) → c'.value s = c.value s := by
  obtain ⟨ts, rfl, hcovers⟩ : ∃ ts, d = ⟨ts⟩ ∧ Covers sheets ts := by
    obtain ⟨ts, hplaced, hcovers⟩ := exists_covers hadd
    exact ⟨ts, congrArg mk hplaced, hcovers⟩
  have hfine := fine_of_regular (d := ⟨ts⟩) hr hcovers
  obtain ⟨zs, hload, hmem⟩ := exists_setAll_load hw hnames hfits (fun l hl => (hfine l hl).1) (by
    intro t ht
    obtain ⟨x, hx, -, hsound, hfirm, hlen, -⟩ := hcovers.sound t ht
    exact ⟨hsound, hfirm (hr.name x hx).1, Nat.le_trans hlen (by decide)⟩) c
  have hgives : ∀ z ∈ zs, Gives sheets z.1 z.2 := by
    intro z hz
    obtain ⟨l, hl, rfl⟩ := (hmem z).1 hz
    exact (hfine l hl).2
  refine ⟨_, hload, fun s v hsv => ?_, fun s hs => ?_⟩
  · obtain ⟨x, hx, r, hrow, hinput, i, hi, rfl, rfl⟩ := id hsv
    obtain ⟨j, hj, t, ht, hsheet, y, hy, hat⟩ := hcovers.complete x hx r hrow hinput
    obtain rfl : i = j := Except.ok.inj (hi.symm.trans hj)
    have hl : (t, y) ∈ lines ⟨ts⟩ := mem_lines.2 ⟨ht, hy⟩
    have hspot : spot (t, y) = ⟨x.1, i.at_.row, i.at_.col⟩ := by rw [spot, hsheet, hat]
    have hvalue : y.value = i.value := hr.single _ _ _ (hspot ▸ (hfine _ hl).2) hsv
    refine Cells.value_setAll ((hmem _).2 ⟨_, hl, by rw [hspot, hvalue]⟩) (fun z hz heq => ?_) c
    exact hr.single _ _ _ (heq ▸ hgives z hz) hsv
  · refine Cells.value_setAll_of_not_mem (fun z hz heq => ?_) c
    exact hs z.2 (heq ▸ hgives z hz)

/-! A table below years, with a gap, and a setting -/

def yearCells : List (Position × Value × Kind) :=
  [(⟨1, 2⟩, .int 2020, .output), (⟨1, 3⟩, .int 2021, .output), (⟨2, 2⟩, .int 1, .input),
    (⟨2, 3⟩, .int 2, .input), (⟨3, 2⟩, .int 3, .input), (⟨5, 5⟩, .text "x", .input)]

def yearRow (x : Position × Value × Kind) : Record :=
  ⟨texts ["Type", "IncludeFlag", "Row", "Col", "Cell", "Value"],
    [.text x.2.2.name, .bool true, .int x.1.row, .int x.1.col, .text x.1.address, x.2.1]⟩

def yearItem (x : Position × Value × Kind) : Item := ⟨x.1.slot, .text x.1.address, x.2.1⟩

def yearItems : List Item := yearCells.map yearItem

def yearSheets : List (String × List Record) := [("S", yearCells.map yearRow)]

theorem itemOf_yearRow (x : Position × Value × Kind) : itemOf (yearRow x) = .ok (yearItem x) := rfl

theorem gives_years {s : Spot} {v : Value} (h : Gives yearSheets s v) :
    ∃ x ∈ yearCells, s = ⟨"S", x.1.row, x.1.col⟩ ∧ x.2.1 = v := by
  obtain ⟨y, hy, r, hr, -, i, hi, rfl, rfl⟩ := h
  rw [mem_singleton.1 hy] at hr ⊢
  obtain ⟨x, hx, rfl⟩ := mem_map.1 hr
  obtain rfl := Except.ok.inj ((itemOf_yearRow x).symm.trans hi)
  exact ⟨x, hx, rfl, rfl⟩

theorem regular_years : Regular yearSheets := by
  have hall : ∀ x ∈ yearCells, x.1.OnSheet ∧ lasts x.2.1 = true := by decide
  have hdistinct : (yearCells.map Prod.fst).Nodup := by decide
  refine ⟨fun y hy => ?_, fun y hy r hr _ i hi => ?_, fun s v hsv => ?_, fun s v v' hv hv' => ?_⟩
  · rw [mem_singleton.1 hy]
    exact ⟨⟨'S', by decide, by decide⟩, by decide⟩
  · rw [mem_singleton.1 hy] at hr
    obtain ⟨x, hx, rfl⟩ := mem_map.1 hr
    obtain rfl := Except.ok.inj ((itemOf_yearRow x).symm.trans hi)
    exact ⟨x.1, (hall x hx).1, rfl, rfl⟩
  · obtain ⟨x, hx, -, rfl⟩ := gives_years hsv
    exact (hall x hx).2
  · obtain ⟨x, hx, hs, rfl⟩ := gives_years hv
    obtain ⟨x', hx', hs', rfl⟩ := gives_years hv'
    have hat : x.1 = x'.1 := by
      have hspot := hs.symm.trans hs'
      rw [Spot.mk.injEq, Int.natCast_inj, Int.natCast_inj] at hspot
      exact congrArg₂ Position.mk hspot.2.1 hspot.2.2
    rw [inj_on_of_nodup_map hdistinct hx hx' hat]

theorem patches_years : patches (yearItems.drop 2) yearItems =
    [⟨⟨2, 2, 3, 3⟩, (yearItems.drop 2).take 3, [(2, .text "Line1"), (3, .text "Line2")],
        [(2, .int 2020), (3, .int 2021)]⟩,
      ⟨⟨5, 5, 5, 5⟩, yearItems.drop 5, [(5, .text "Line1")], [(5, .text "Col1")]⟩] := by
  cbv

theorem exists_workbook_years : ∃ d w, yearSheets.foldlM (fun (d : Draft) (n, rows) => d.addSheet n rows) {} = .ok d ∧
    d.workbook = .ok w ∧ (d.pages.map fun x => lower x.1).Nodup ∧ ∀ x ∈ d.tables, x.2.length ≤ maxRow := by
  have hadd : yearSheets.foldlM (fun (d : Draft) (n, rows) => d.addSheet n rows) {} =
      .ok ⟨(patches (yearItems.drop 2) yearItems).mapIdx fun i p =>
        .ofPatch "S" (patches (yearItems.drop 2) yearItems).length p i⟩ := rfl
  rw [patches_years] at hadd
  rw [hadd]
  generalize hd : mk _ = d
  have hok : (d.workbook.toOption.any fun _ => decide ((d.pages.map fun x => lower x.1).Nodup ∧
      ∀ x ∈ d.tables, x.2.length ≤ maxRow)) = true := by
    rw [← hd]
    decide +kernel
  obtain ⟨w, hw, hok⟩ := exists_ok_of_any hok
  exact ⟨d, w, rfl, hw, of_decide_eq_true hok⟩

def blank : Cells := { workbook := { sheets := [{ name := "S" }] } }

theorem value_blank : blank.value ⟨"S", 3, 3⟩ = .ok .null := by
  unfold Cells.value
  rw [show blank.known = ∅ from rfl, Std.HashMap.getElem?_empty]
  rfl

/-- The last value of the turned table comes back to its cell, and the gap beside it stays empty. -/
theorem load_years : ∃ d w c', yearSheets.foldlM (fun (d : Draft) (n, rows) => d.addSheet n rows) {} = .ok d ∧
    d.workbook = .ok w ∧ load blank w.stored.dataOnly = .ok c' ∧
      c'.value ⟨"S", 3, 2⟩ = .ok (.int 3) ∧ c'.value ⟨"S", 3, 3⟩ = .ok .null := by
  obtain ⟨d, w, hd, hw, hnames, hfits⟩ := exists_workbook_years
  obtain ⟨c', hload, hgives, hother⟩ :=
    load_gives_inputs regular_years hd hw hnames hfits blank
  have hmem : (⟨3, 2⟩, .int 3, .input) ∈ yearCells := mem_of_getElem? (i := 4) rfl
  refine ⟨d, w, c', hd, hw, hload, hgives _ _ ?_, ?_⟩
  · exact ⟨_, mem_singleton_self _, yearRow (⟨3, 2⟩, .int 3, .input), mem_map_of_mem hmem, by decide,
      _, itemOf_yearRow _, rfl, rfl⟩
  · rw [hother, value_blank]
    intro v hv
    obtain ⟨x, hx, hs, -⟩ := gives_years hv
    have hall : ∀ x ∈ yearCells, (⟨"S", 3, 3⟩ : Spot) ≠ ⟨"S", x.1.row, x.1.col⟩ := by decide
    exact hall x hx hs

end Sheetwork.Plan.Structured
