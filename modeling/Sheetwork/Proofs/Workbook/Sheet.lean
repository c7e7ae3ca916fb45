import Sheetwork.Proofs.Outcome
import Sheetwork.Workbook.Basic
/-
  Workbooks: what the operations on a sheet do to its cells. A sheet is seen through the cell at each position
  (`Sheet.cell`) and the positions where cells exist; its size bounds these (`maxRow_le_iff`, `maxCol_le_iff`). A file
  keeps of a sheet without merged areas what it keeps of every cell (`cell?_stored`).

  What is written to cells one after the other (`Sheet.Puts`) is read back where nothing else is written
  (`Puts.content_of_mem`). A listing has names of fields in its first row, and rows that are written below are read
  back as records: the field of a name is what the row has in the column of the name (`Listing.forall₂_records`).
-/

open List

namespace Sheetwork

open Cell Value

theorem Position.compare_eq : compare = compareLex (compareOn Position.row) (compareOn Position.col) := by
  funext p q
  exact congrArg (Ordering.then _) Ordering.then_eq

instance : Std.TransOrd Position := by
  rw [Std.TransOrd, Position.compare_eq]
  infer_instance

instance : Std.LawfulEqOrd Position where
  eq_of_compare := by
    rintro ⟨r, c⟩ ⟨r', c'⟩ h
    simpa [Position.compare_eq, compareOn] using h

namespace Sheet

variable {s s' : Sheet} {p q : Position} {c : Cell} {v : Value}

/-! Cells -/

theorem cell?_insert : (s.insert p c).cell? q = if p = q then some c else s.cell? q := by
  rw [cell?, insert, Std.TreeMap.getElem?_insert]
  simp only [Std.LawfulEqCmp.compare_eq_iff_eq]
  rfl

theorem cell_insert (s : Sheet) (p : Position) (c : Cell) (q : Position) :
    (s.insert p c).cell q = if p = q then c else s.cell q := by
  rw [cell, cell?_insert]
  split <;> rfl

theorem mem_insert : q ∈ (s.insert p c).cells ↔ p = q ∨ q ∈ s.cells := by
  rw [insert, Std.TreeMap.mem_insert, Std.LawfulEqCmp.compare_eq_iff_eq]

theorem forall_mem_insert {P : Position → Prop} (hp : P p) (h : ∀ q ∈ s.cells, P q) : ∀ q ∈ (s.insert p c).cells, P q :=
  fun _ hq => (mem_insert.1 hq).elim (fun heq => heq ▸ hp) (h _)

theorem mem_cells_iff : q ∈ s.cells ↔ (s.cell? q).isSome := Std.TreeMap.mem_iff_isSome_getElem?

theorem mem_of_value_ne (h : s.value q ≠ .null) : q ∈ s.cells := by
  rw [mem_cells_iff]
  cases hc : s.cell? q with
  | some c => rfl
  | none =>
    rw [value, cell, hc] at h
    exact absurd rfl h

theorem mem_touch : q ∈ (s.touch p).cells ↔ p = q ∨ q ∈ s.cells := by
  rw [touch]
  split
  · next h =>
    refine ⟨.inr, ?_⟩
    rintro (rfl | hq)
    · exact h
    · exact hq
  · exact mem_insert

theorem mem_modify {f : Cell → Cell} : q ∈ (s.modify p f).cells ↔ p = q ∨ q ∈ s.cells := mem_insert

theorem mem_restyle {f : Style → Style} : q ∈ (s.restyle p f).cells ↔ p = q ∨ q ∈ s.cells := mem_modify

variable (s p q)

@[simp]
theorem cell_touch : (s.touch p).cell q = s.cell q := by
  rw [touch]
  split
  · rfl
  · next h =>
    refine (cell_insert s p {} q).trans ?_
    split
    · next hpq =>
      subst hpq
      have hnone : s.cell? p = none := by
        rw [← Option.not_isSome_iff_eq_none, ← mem_cells_iff, ← Std.TreeMap.contains_iff_mem]
        exact h
      rw [cell, hnone]
      rfl
    · rfl

@[simp]
theorem value_touch : (s.touch p).value q = s.value q := by rw [value, cell_touch, value]

theorem cell_modify (f : Cell → Cell) : (s.modify p f).cell q = if p = q then f (s.cell q) else s.cell q := by
  rw [modify, cell_insert]
  split
  · next h => rw [h]
  · rfl

variable (f : Style → Style)

@[simp]
theorem value_restyle : (s.restyle p f).value q = s.value q := by
  rw [value, restyle, cell_modify]
  split <;> rfl

@[simp]
theorem name_restyle : (s.restyle p f).name = s.name := rfl

theorem merged_restyle : (s.restyle p f).merged = s.merged := rfl

theorem merged_touch : (s.touch p).merged = s.merged := by
  rw [touch]
  split <;> rfl

theorem name_touch : (s.touch p).name = s.name := by
  rw [touch]
  split <;> rfl

end Sheet

/-! Assigning -/

def Cell.taken : Value → Value
  | .text s => .text (Text.take maxText s)
  | v => v

theorem Cell.of_assign {c c' : Cell} {v : Value} (h : c.assign v = .ok c') : c'.value = taken v ∧ c'.isPlain = false := by
  cases v with
  | text s =>
    simp only [assign] at h
    split at h
    · cases h
    · cases h
      exact ⟨rfl, rfl⟩
  | list | tuple | keyed | complex => cases h
  | _ =>
    cases h
    exact ⟨rfl, rfl⟩

theorem Cell.taken_text {s : String} (h : s.length ≤ maxText) : taken (.text s) = .text s := by
  rw [taken, Text.take, take_of_length_le (by rwa [String.length_toList]), String.ofList_toList]

namespace Sheet

variable {s s' : Sheet} {p q : Position} {c : Cell} {v : Value} {n : Nat}

theorem put_eq_ok_iff : s.put p v = .ok s' ↔
    s.isHidden p = false ∧ ∃ c, (s.cell p).assign v = .ok c ∧ s' = s.insert p c := by
  rw [put]
  split
  · next h => simp [h]
  · next h =>
    rw [Bool.not_eq_true] at h
    cases (s.cell p).assign v with
    | error e =>
      refine ⟨nofun, ?_⟩
      rintro ⟨-, c, ⟨⟩, -⟩
    | ok c =>
      constructor
      · rintro ⟨⟩
        exact ⟨h, c, rfl, rfl⟩
      · rintro ⟨-, c, ⟨⟩, rfl⟩
        rfl

variable (h : s.put p v = .ok s')

include h

theorem value_of_put (q : Position) : s'.value q = if p = q then taken v else s.value q := by
  obtain ⟨-, c, hc, rfl⟩ := put_eq_ok_iff.1 h
  rw [value, cell_insert]
  split
  · exact (of_assign hc).1
  · rfl

theorem mem_of_put : q ∈ s'.cells ↔ p = q ∨ q ∈ s.cells := by
  obtain ⟨-, c, -, rfl⟩ := put_eq_ok_iff.1 h
  exact mem_insert

theorem merged_of_put : s'.merged = s.merged := by
  obtain ⟨-, c, -, rfl⟩ := put_eq_ok_iff.1 h
  rfl

theorem name_of_put : s'.name = s.name := by
  obtain ⟨-, c, -, rfl⟩ := put_eq_ok_iff.1 h
  rfl

omit h

def content (s : Sheet) (p : Position) : Value × Bool := ((s.cell p).value, (s.cell p).isPlain)

@[simp]
theorem content_restyle (s : Sheet) (p : Position) (f : Style → Style) (q : Position) :
    (s.restyle p f).content q = s.content q := by
  rw [content, restyle, cell_modify]
  split <;> rfl

@[simp]
theorem content_touch (s : Sheet) (p q : Position) : (s.touch p).content q = s.content q := by
  rw [content, cell_touch, content]

theorem content_of_put (h : s.put p v = .ok s') (q : Position) :
    s'.content q = if p = q then (taken v, false) else s.content q := by
  obtain ⟨-, c, hc, rfl⟩ := put_eq_ok_iff.1 h
  rw [content, cell_insert]
  split
  · rw [(of_assign hc).1, (of_assign hc).2]
  · rfl

/-! Writing -/

/-- What is written to a cell, if anything. -/
abbrev Ink := Option (Value × Bool)

section Puts

variable {ps qs : List (Position × Ink)} {t : Sheet} {o : Ink} {α : Type}

/-- What is written to cells, one after the other; where it is nothing, a cell is there all the same. -/
structure Puts (ps : List (Position × Ink)) (s s' : Sheet) : Prop where
  name : s'.name = s.name
  merged : s'.merged = s.merged
  mem : ∀ q, q ∈ s'.cells ↔ q ∈ ps.map Prod.fst ∨ q ∈ s.cells
  content : ∀ q, s'.content q = ps.foldl (fun c x => if x.1 = q then x.2.getD c else c) (s.content q)

def written (v : Value) : Ink := some (taken v, false)

theorem puts_of_put (h : s.put p v = .ok s') : Puts [(p, written v)] s s' where
  name := name_of_put h
  merged := merged_of_put h
  mem q := by rw [mem_of_put h, map_singleton, mem_singleton, eq_comm]
  content := content_of_put h

theorem foldl_put (hsame : ∀ o', (q, o') ∈ ps → o' = o) (c : Value × Bool) :
    ps.foldl (fun c x => if x.1 = q then x.2.getD c else c) c = if q ∈ ps.map Prod.fst then o.getD c else c := by
  induction ps generalizing c with
  | nil => rfl
  | cons x ps ih =>
    rw [foldl_cons, ih fun o' ho' => hsame o' (mem_cons_of_mem _ ho')]
    by_cases hx : x.1 = q
    · obtain rfl : x.2 = o := hsame x.2 (hx ▸ mem_cons_self)
      rw [if_pos hx, map_cons, hx, if_pos mem_cons_self]
      split
      · cases x.2 <;> rfl
      · rfl
    · simp only [if_neg hx, map_cons, mem_cons, Ne.symm hx, false_or]

namespace Puts

theorem nil (s : Sheet) : Puts [] s s := ⟨rfl, rfl, by simp, fun _ => rfl⟩

theorem append (h : Puts ps s s') (h' : Puts qs s' t) : Puts (ps ++ qs) s t where
  name := h'.name.trans h.name
  merged := h'.merged.trans h.merged
  mem q := by rw [h'.mem, h.mem, map_append, mem_append, or_left_comm, or_assoc]
  content q := by rw [h'.content, h.content, foldl_append]

theorem of_foldlM {g : α → List (Position × Ink)} {step : Sheet → α → Outcome Sheet} {xs : List α}
    (hstep : ∀ x ∈ xs, ∀ s s', step s x = .ok s' → Puts (g x) s s') (h : xs.foldlM step s = .ok s') :
    Puts (xs.flatMap g) s s' := by
  induction h using foldlM_induction with
  | nil => exact nil _
  | cons ht _ ih => exact (hstep _ mem_cons_self _ _ ht).append (ih fun y hy => hstep y (mem_cons_of_mem _ hy))

/-- The look of cells that are there does not matter. -/
theorem restyle (h : Puts ps s s') (hp : p ∈ ps.map Prod.fst) (f : Style → Style) : Puts ps s (s'.restyle p f) where
  name := h.name
  merged := h.merged
  mem q := by
    rw [mem_restyle, h.mem, or_iff_right_of_imp]
    rintro rfl
    exact .inl hp
  content q := by rw [content_restyle, h.content]

theorem content_of_mem (h : Puts ps s s') (hx : (q, o) ∈ ps) (hsame : ∀ o', (q, o') ∈ ps → o' = o) :
    s'.content q = o.getD (s.content q) := by
  rw [h.content, foldl_put hsame, if_pos (mem_map.2 ⟨_, hx, rfl⟩)]

theorem content_of_not_mem (h : Puts ps s s') (hq : q ∉ ps.map Prod.fst) : s'.content q = s.content q := by
  rw [h.content, foldl_put (o := none) fun o' ho' => absurd (mem_map.2 ⟨_, ho', rfl⟩) hq, if_neg hq]

end Puts

/-! Rows -/

def entryAt? (rows : List (List α)) (i j : Nat) : Option α := rows[i]?.bind (·[j]?)

theorem entryAt?_map {β : Type} (f : α → β) (rows : List (List α)) (i j : Nat) :
    entryAt? (rows.map fun xs => xs.map f) i j = (entryAt? rows i j).map f := by
  rw [entryAt?, entryAt?, getElem?_map]
  cases rows[i]? <;> simp

theorem lt_of_entryAt? {rows : List (List α)} {i j : Nat} (h : (entryAt? rows i j).isSome) :
    i < rows.length ∧ ∃ xs ∈ rows, j < xs.length := by
  obtain ⟨x, hx⟩ := Option.isSome_iff_exists.1 h
  obtain ⟨xs, hi, hj⟩ := Option.bind_eq_some_iff.1 hx
  exact ⟨lt_of_getElem? hi, xs, mem_of_getElem? hi, lt_of_getElem? hj⟩

/-- What is written to rows from row `k` on, and from the first cell on. -/
def gridPuts (k : Nat) (rows : List (List Ink)) : List (Position × Ink) :=
  rows.zipIdx.flatMap fun x => x.1.zipIdx.map fun y => (⟨k + x.2, y.2 + 1⟩, y.1)

variable {k i j : Nat} {rows : List (List Ink)}

theorem mem_gridPuts : (p, o) ∈ gridPuts k rows ↔ ∃ i j, p = ⟨k + i, j + 1⟩ ∧ entryAt? rows i j = some o := by
  simp only [gridPuts, mem_flatMap, mem_map, Prod.exists, mem_zipIdx_iff_getElem?, entryAt?,
    Option.bind_eq_some_iff, Prod.mk.injEq]
  constructor
  · rintro ⟨os, i, hi, _, j, hj, rfl, rfl⟩
    exact ⟨i, j, rfl, os, hi, hj⟩
  · rintro ⟨i, j, rfl, os, hi, hj⟩
    exact ⟨os, i, hi, o, j, hj, rfl, rfl⟩

namespace Puts

theorem mem_grid (h : Puts (gridPuts k rows) s s') :
    q ∈ s'.cells ↔ (∃ i j, q = ⟨k + i, j + 1⟩ ∧ (entryAt? rows i j).isSome) ∨ q ∈ s.cells := by
  rw [h.mem, mem_map]
  refine or_congr_left ⟨?_, ?_⟩
  · rintro ⟨x, hx, rfl⟩
    obtain ⟨i, j, hq, ho⟩ := mem_gridPuts.1 hx
    exact ⟨i, j, hq, by rw [ho]; rfl⟩
  · rintro ⟨i, j, hq, ho⟩
    obtain ⟨o, ho⟩ := Option.isSome_iff_exists.1 ho
    exact ⟨_, mem_gridPuts.2 ⟨i, j, hq, ho⟩, rfl⟩

theorem content_grid (h : Puts (gridPuts k rows) s s') (ho : entryAt? rows i j = some o) :
    s'.content ⟨k + i, j + 1⟩ = o.getD (s.content ⟨k + i, j + 1⟩) := by
  refine h.content_of_mem (mem_gridPuts.2 ⟨i, j, rfl, ho⟩) fun o' ho' => ?_
  obtain ⟨i', j', heq, ho'⟩ := mem_gridPuts.1 ho'
  obtain ⟨rfl, rfl⟩ : i = i' ∧ j = j' := by
    rw [Position.mk.injEq] at heq
    omega
  exact Option.some.inj (ho'.symm.trans ho)

theorem restyleRow {os : List Ink} (h : Puts (gridPuts k (os :: rows)) s s') (hn : n ≤ os.length)
    (f : Style → Style) : Puts (gridPuts k (os :: rows)) s (s'.restyleRow k n f) := by
  refine foldlRecOn _ _ h fun t ht j hj => ?_
  have hat := getElem?_eq_getElem (Nat.lt_of_lt_of_le (mem_range.1 hj) hn)
  exact ht.restyle (mem_map.2 ⟨_, mem_gridPuts.2 ⟨0, j, rfl, hat⟩, rfl⟩) f

variable {step : Sheet → α × Nat → Outcome Sheet} {xs : List α}

theorem of_row {g : α → Ink} (hstep : ∀ s s' x i, step s (x, i) = .ok s' → Puts [(⟨k, i + 1⟩, g x)] s s')
    (h : xs.zipIdx.foldlM step s = .ok s') : Puts (gridPuts k [xs.map g]) s s' := by
  have hputs := of_foldlM (fun x _ s s' => hstep s s' x.1 x.2) h
  rw [← map_eq_flatMap] at hputs
  simpa [gridPuts, zipIdx_map, Function.comp_def] using hputs

theorem of_rows {g : α → List Ink} (hstep : ∀ s s' x i, step s (x, i) = .ok s' → Puts (gridPuts (k + i) [g x]) s s')
    (h : xs.zipIdx.foldlM step s = .ok s') : Puts (gridPuts k (xs.map g)) s s' := by
  have hputs := of_foldlM (fun x _ s s' => hstep s s' x.1 x.2) h
  simpa [gridPuts, zipIdx_map, flatMap_map] using hputs

theorem of_writeRow {vs : List Value} (h : s.writeRow k vs = .ok s') : Puts (gridPuts k [vs.map written]) s s' :=
  of_row (fun _ _ _ _ => puts_of_put) h

theorem of_writeRows {rows : List (List Value)} (h : s.writeRows k rows = .ok s') :
    Puts (gridPuts k (rows.map fun vs => vs.map written)) s s' :=
  of_rows (fun _ _ _ _ => of_writeRow) h

end Puts

end Puts

/-! Size -/

theorem foldl_max_le {α : Type} {f : α → Nat} {xs : List α} {m : Nat} :
    xs.foldl (fun m x => max m (f x)) m ≤ n ↔ m ≤ n ∧ ∀ x ∈ xs, f x ≤ n := by
  induction xs generalizing m with
  | nil => simp
  | cons x xs ih => rw [foldl_cons, ih, Nat.max_le, forall_mem_cons, and_assoc]

theorem mem_entries : (q, c) ∈ s.entries ↔ s.cell? q = some c := Std.TreeMap.mem_toList_iff_getElem?_eq_some

theorem foldl_cells_le_iff {f : Position → Nat} :
    s.cells.foldl (fun m p _ => max m (f p)) 1 ≤ n ↔ 1 ≤ n ∧ ∀ p ∈ s.cells, f p ≤ n := by
  rw [Std.TreeMap.foldl_eq_foldl_toList, foldl_max_le]
  refine and_congr_right fun _ => ⟨fun h p hp => ?_, fun h x hx => ?_⟩
  · obtain ⟨c, hc⟩ := Option.isSome_iff_exists.1 (mem_cells_iff.1 hp)
    exact h (p, c) (mem_entries.2 hc)
  · exact h x.1 (mem_cells_iff.2 (Option.isSome_iff_exists.2 ⟨x.2, mem_entries.1 hx⟩))

theorem maxRow_le_iff : s.maxRow ≤ n ↔ 1 ≤ n ∧ ∀ p ∈ s.cells, p.row ≤ n := foldl_cells_le_iff

theorem maxCol_le_iff : s.maxCol ≤ n ↔ 1 ≤ n ∧ ∀ p ∈ s.cells, p.col ≤ n := foldl_cells_le_iff

theorem le_maxRow (h : p ∈ s.cells) : p.row ≤ s.maxRow := (maxRow_le_iff.1 (Nat.le_refl _)).2 p h

theorem le_maxCol (h : p ∈ s.cells) : p.col ≤ s.maxCol := (maxCol_le_iff.1 (Nat.le_refl _)).2 p h

/-! Files -/

theorem getElem?_foldl_insert {g : Position × Cell → Bool} {f : Position × Cell → Cell}
    {xs : List (Position × Cell)} (hd : (xs.map Prod.fst).Nodup) (m : Std.TreeMap Position Cell)
    (q : Position) : (xs.foldl (fun m x => if g x then m.insert x.1 (f x) else m) m)[q]? =
      ((xs.find? fun x => x.1 = q).bind fun x => if g x then some (f x) else none).or m[q]? := by
  induction xs generalizing m with
  | nil => rfl
  | cons x xs ih =>
    obtain ⟨hx, hd⟩ := nodup_cons.1 hd
    have hstep : (if g x then m.insert x.1 (f x) else m)[q]? =
        if x.1 = q ∧ g x then some (f x) else m[q]? := by
      by_cases hg : g x
      · simp only [hg, if_true, Std.TreeMap.getElem?_insert, Std.LawfulEqCmp.compare_eq_iff_eq, and_true]
      · simp [hg]
    rw [foldl_cons, ih hd, hstep, find?_cons]
    by_cases hq : x.1 = q
    · have hnone : xs.find? (fun x => x.1 = q) = none := by
        rw [find?_eq_none]
        intro y hy hyq
        exact hx (mem_map.2 ⟨y, hy, by rw [hq]; simpa using hyq⟩)
      by_cases hg : g x <;> simp [hq, hg, hnone]
    · simp [hq]

theorem cell_of_mem_entries (h : (q, c) ∈ s.entries) : s.cell q = c := by
  rw [cell, mem_entries.1 h]
  rfl

theorem find?_entries : (s.entries.find? fun x => x.1 = q) = (s.cell? q).map (q, ·) := by
  cases hc : s.cell? q with
  | none =>
    rw [Option.map_none, find?_eq_none]
    rintro ⟨p, c⟩ hx hq
    obtain rfl : p = q := by simpa using hq
    cases hc.symm.trans (mem_entries.1 hx)
  | some c =>
    refine find?_eq_some_of_unique (mem_entries.2 hc) (decide_eq_true rfl) ?_
    rintro ⟨p, d⟩ hx hq
    obtain rfl : p = q := of_decide_eq_true hq
    cases hc.symm.trans (mem_entries.1 hx)
    rfl

theorem nodup_entries (s : Sheet) : (s.entries.map Prod.fst).Nodup := by
  have h : s.entries.Pairwise fun a b => ¬ compare a.1 b.1 = .eq := Std.TreeMap.distinct_keys_toList
  rw [Nodup, pairwise_map]
  exact h.imp fun hne heq => hne (Std.LawfulEqCmp.compare_eq_iff_eq.2 heq)

def kept (c : Cell) : Option Cell := if c.stored.isKept then some c.stored else none

theorem getElem?_kept (h : s.isHidden q = false) : (s.entries.foldl (fun m x =>
    if x.2.stored.isKept && !s.isHidden x.1 then m.insert x.1 x.2.stored else m)
      (∅ : Std.TreeMap Position Cell))[q]? = (s.cell? q).bind kept := by
  rw [getElem?_foldl_insert (f := fun x => x.2.stored) (g := fun x => x.2.stored.isKept && !s.isHidden x.1)
    s.nodup_entries, find?_entries, Std.TreeMap.getElem?_emptyc, Option.or_none]
  cases s.cell? q with
  | none => rfl
  | some c =>
    show (if (c.stored.isKept && !s.isHidden q) = true then some c.stored else none) = _
    rw [h, Bool.not_false, Bool.and_true]
    rfl

theorem cell?_stored (h : s.merged = []) (q : Position) : s.stored.cell? q = (s.cell? q).bind kept := by
  have hkept := getElem?_kept (s := s) (q := q) (by rw [isHidden, h]; rfl)
  rw [stored, h]
  exact hkept

theorem mem_of_mem_stored (h : s.merged = []) (hq : q ∈ s.stored.cells) : q ∈ s.cells := by
  rw [mem_cells_iff, cell?_stored h] at hq
  rw [mem_cells_iff]
  cases hc : s.cell? q with
  | some c => rfl
  | none => rw [hc] at hq; cases hq

theorem merged_stored (h : s.merged = []) : s.stored.merged = [] := by
  rw [stored, h]
  rfl

end Sheet

/-! Records -/

theorem Value.text_beq (a b : String) : ((text a : Value) == .text b) = decide (a = b) := by
  show eq _ _ = _
  rw [eq, eqAtom] <;> nofun

namespace Record

variable {names : List String} {vs : List Value} {n : String} {v : Value} {i : Nat}

theorem get?_of_nodup (hd : names.Nodup) (hn : names[i]? = some n) (hv : vs[i]? = some v) :
    get? ⟨names.map .text, vs⟩ n = some v := by
  have hat : ((names.map text).zip vs)[i]? = some (.text n, v) :=
    getElem?_zip_eq_some.2 ⟨by rw [getElem?_map, hn]; rfl, hv⟩
  rw [get?, find?_eq_some_of_unique (mem_reverse.2 (mem_of_getElem? hat)) ((text_beq n n).trans (decide_eq_true rfl))]
  · rfl
  rintro ⟨k, u⟩ hx hname
  obtain ⟨j, hj⟩ := getElem?_of_mem (mem_reverse.1 hx)
  obtain ⟨hkey, hvalue⟩ := getElem?_zip_eq_some.1 hj
  rw [getElem?_map] at hkey
  obtain ⟨m, hm, rfl⟩ := Option.map_eq_some_iff.1 hkey
  obtain rfl : m = n := of_decide_eq_true ((text_beq m n).symm.trans hname)
  obtain rfl : i = j := (getElem?_inj (lt_of_getElem? hn) hd).1 (hn.trans hm.symm)
  cases hvalue.symm.trans hv
  rfl

theorem get_of_nodup (hd : names.Nodup) (hn : names[i]? = some n) (hv : vs[i]? = some v) :
    get ⟨names.map .text, vs⟩ n = v := by
  rw [get, get?_of_nodup hd hn hv]
  rfl

end Record

namespace Sheet

variable {s s' : Sheet} {rows : List (List Ink)}

theorem of_withWidths (s : Sheet) (ws : List Float) : (s.withWidths ws).name = s.name ∧
    (s.withWidths ws).cells = s.cells ∧ (s.withWidths ws).merged = s.merged :=
  foldlRecOn (motive := fun t : Sheet => t.name = s.name ∧ t.cells = s.cells ∧ t.merged = s.merged) _ _
    ⟨rfl, rfl, rfl⟩ fun _ ht _ _ => ht

/-- A sheet with names of fields in its first row and nothing to their right. -/
structure Listing (names : List String) (s : Sheet) : Prop where
  unmerged : s.merged = []
  named : ∀ i n, names[i]? = some n → s.value ⟨1, i + 1⟩ = .text n
  narrow : ∀ p ∈ s.cells, p.col ≤ names.length

namespace Listing

variable {names : List String}

theorem puts (h : Listing names s) {k : Nat} (hk : 1 < k)
    (hlen : ∀ os ∈ rows, os.length ≤ names.length) (hp : Puts (gridPuts k rows) s s') : Listing names s' := by
  refine ⟨hp.merged.trans h.unmerged, fun i n hn => ?_, fun p hmem => ?_⟩
  · rw [← h.named i n hn]
    refine congrArg Prod.fst (hp.content_of_not_mem fun hmem => ?_)
    obtain ⟨x, hx, heq⟩ := mem_map.1 hmem
    obtain ⟨i', j, hat, -⟩ := mem_gridPuts.1 hx
    have : 1 = k + i' := congrArg Position.row (heq.symm.trans hat)
    omega
  · rcases hp.mem_grid.1 hmem with ⟨i, j, rfl, ho⟩ | hmem
    · obtain ⟨-, os, hos, hj⟩ := lt_of_entryAt? ho
      exact Nat.lt_of_lt_of_le hj (hlen os hos)
    · exact h.narrow p hmem

theorem maxCol_eq (h : Listing names s) (hne : names ≠ []) : s.maxCol = names.length := by
  have hpos := length_pos_iff.2 hne
  have hle : s.maxCol ≤ names.length := maxCol_le_iff.2 ⟨hpos, h.narrow⟩
  obtain ⟨i, hi⟩ : ∃ i, names.length = i + 1 := ⟨names.length - 1, by omega⟩
  have hlast : s.value ⟨1, i + 1⟩ = .text names[i] := h.named i _ (getElem?_eq_getElem (by omega))
  have hmem : (⟨1, i + 1⟩ : Position) ∈ s.cells := mem_of_value_ne (by rw [hlast]; nofun)
  have : i + 1 ≤ s.maxCol := le_maxCol hmem
  omega

theorem headings_eq (h : Listing names s) (hne : names ≠ []) : s.headings = names.map .text := by
  rw [headings, rowValues, h.maxCol_eq hne]
  refine ext_getElem (by simp) fun i hi hi' => ?_
  rw [length_map] at hi'
  rw [getElem_map, getElem_range, getElem_map, h.named i _ (getElem?_eq_getElem hi')]

/-- The record of a row: its field of a name is what the row has in the column of the name. -/
theorem exists_record (h : Listing names s) (hne : names ≠ []) (hd : names.Nodup) {row : Nat} (hrow : 1 < row)
    {p : Position} (hp : p ∈ s.cells) (hle : row ≤ p.row) :
    ∃ r, s.records[row - 2]? = some r ∧ ∀ i n, names[i]? = some n → r.get n = s.value ⟨row, i + 1⟩ := by
  have hmax : p.row ≤ s.maxRow := le_maxRow hp
  have hi : row - 2 < s.maxRow - 1 := by omega
  have hrow' : row - 2 + 2 = row := by omega
  refine ⟨_, by rw [records, getElem?_map, getElem?_range hi]; rfl, fun i n hn => ?_⟩
  have hlt : i < names.length := lt_of_getElem? hn
  dsimp only
  rw [h.headings_eq hne, h.maxCol_eq hne, hrow']
  exact Record.get_of_nodup hd hn (by rw [getElem?_map, getElem?_range hlt]; rfl)

theorem of_puts {name : String} (hshort : ∀ n ∈ names, n.length ≤ maxText)
    (h : Puts (gridPuts 1 [(names.map .text).map written]) { name } s) : Listing names s ∧ ∀ p ∈ s.cells, p.row ≤ 1 := by
  have hmem : ∀ p ∈ s.cells, p.row = 1 ∧ p.col ≤ names.length := by
    intro p hp
    rcases h.mem_grid.1 hp with ⟨i, j, rfl, ho⟩ | hp
    · cases i with
      | zero => exact ⟨rfl, by simpa [entryAt?] using ho⟩
      | succ i => cases ho
    · exact absurd hp (by simp)
  refine ⟨⟨h.merged, fun i n hn => ?_, fun p hp => (hmem p hp).2⟩, fun p hp => Nat.le_of_eq (hmem p hp).1⟩
  have hat := h.content_grid (i := 0) (j := i) (o := written (.text n)) (by simp [entryAt?, hn])
  exact (congrArg Prod.fst hat).trans (taken_text (hshort n (mem_of_getElem? hn)))

/-- Rows that are written below the names are read back as records. -/
theorem forall₂_records (hne : names ≠ []) (hd : names.Nodup)
    (hlen : ∀ os ∈ rows, os.length = names.length) (h : Listing names s) (hrows : ∀ p ∈ s.cells, p.row ≤ 1)
    (hp : Puts (gridPuts 2 rows) s s') : Listing names s' ∧ Forall₂ (fun os (r : Record) =>
      ∀ (i : Nat) n o, names[i]? = some n → os[i]? = some o → r.get n = (o.getD (.null, false)).1) rows s'.records := by
  have hlisting := h.puts (by decide) (fun os hos => Nat.le_of_eq (hlen os hos)) hp
  have hcell : ∀ i < rows.length, (⟨2 + i, 0 + 1⟩ : Position) ∈ s'.cells := fun i hi =>
    hp.mem_grid.2 (.inl ⟨i, 0, rfl, by
      rw [entryAt?, getElem?_eq_getElem hi, Option.bind_some, isSome_getElem?, hlen _ (getElem_mem hi)]
      exact length_pos_iff.2 hne⟩)
  have hsize : s'.maxRow - 1 = rows.length := by
    have hle : s'.maxRow ≤ rows.length + 1 := maxRow_le_iff.2 ⟨by omega, fun p hmem => by
      rcases hp.mem_grid.1 hmem with ⟨i, j, rfl, ho⟩ | hmem
      · have := (lt_of_entryAt? ho).1
        show 2 + i ≤ _
        omega
      · have := hrows p hmem
        omega⟩
    cases hn : rows.length with
    | zero => omega
    | succ n =>
      have : 2 + n ≤ s'.maxRow := le_maxRow (hcell n (by omega))
      omega
  refine ⟨hlisting, forall₂_iff_get.2 ⟨by rw [records, length_map, length_range, hsize], fun i hi hi' j n o hn ho => ?_⟩⟩
  obtain ⟨r, hr, hget⟩ := hlisting.exists_record hne hd (by omega : 1 < 2 + i) (hcell i hi) (Nat.le_refl _)
  have hr' : s'.records.get ⟨i, hi'⟩ = r := by
    rw [Nat.add_sub_cancel_left, getElem?_eq_getElem hi'] at hr
    exact Option.some.inj hr
  have hnew : s.content ⟨2 + i, j + 1⟩ = (.null, false) := by
    have hnew : (⟨2 + i, j + 1⟩ : Position) ∉ s.cells := fun hmem => by
      have : 2 + i ≤ 1 := hrows _ hmem
      omega
    rw [mem_cells_iff, Option.not_isSome_iff_eq_none] at hnew
    rw [content, cell, hnew]
    rfl
  rw [hr', hget j n hn, ← hnew, ← hp.content_grid (by rw [entryAt?, getElem?_eq_getElem hi]; exact ho)]
  rfl

theorem of_writeRows (hne : names ≠ []) (hd : names.Nodup) {rows : List (List Value)}
    (hlen : ∀ vs ∈ rows, vs.length = names.length) (h : Listing names s) (hrows : ∀ p ∈ s.cells, p.row ≤ 1)
    (hwrite : s.writeRows 2 rows = .ok s') : s'.name = s.name ∧ Listing names s' ∧ Forall₂ (fun vs (r : Record) =>
      ∀ (i : Nat) n v, names[i]? = some n → vs[i]? = some v → r.get n = taken v) rows s'.records := by
  have hputs := Puts.of_writeRows hwrite
  obtain ⟨hlisting, hrecords⟩ := forall₂_records hne hd
    (forall_mem_map.2 fun vs hvs => (length_map _).trans (hlen vs hvs)) h hrows hputs
  rw [forall₂_map_left_iff] at hrecords
  refine ⟨hputs.name, hlisting, hrecords.imp fun vs r hget i n v hn hv => ?_⟩
  exact hget i n (written v) hn (by rw [getElem?_map, hv]; rfl)

end Listing

end Sheet

/-! Files -/

/-- What a file keeps of a value. -/
def Cell.filed : Value → Value
  | .float x => if x.isNaN || x.isInf then .null else .float x
  | .date d => .datetime ⟨d, TimeOfDay.midnight⟩
  | v => v

theorem Cell.value_stored (c : Cell) : c.stored.value = filed c.value := by
  rw [stored]
  cases c.value <;> rfl

theorem Cell.value_of_kept (o : Option Cell) : ((o.bind Sheet.kept).getD {}).value = filed (o.getD {}).value := by
  cases o with
  | none => rfl
  | some c =>
    rw [Option.bind_some, Option.getD_some, ← value_stored, Sheet.kept]
    split
    · rfl
    · next hkept =>
      rw [isKept, Bool.or_eq_true, not_or] at hkept
      cases hv : c.stored.value with
      | null => rfl
      | _ =>
        rw [hv] at hkept
        exact absurd rfl hkept.1

namespace Sheet

variable {names : List String} {s : Sheet}

theorem value_stored (h : s.merged = []) (q : Position) : s.stored.value q = filed (s.value q) := by
  rw [value, cell, cell?_stored h]
  exact value_of_kept _

theorem Listing.stored (h : Listing names s) : Listing names s.stored := by
  refine ⟨merged_stored h.unmerged, fun i n hn => ?_, fun p hp => h.narrow p (mem_of_mem_stored h.unmerged hp)⟩
  rw [value_stored h.unmerged, h.named i n hn]
  rfl

end Sheet

/-! Sheets of a workbook -/

namespace Workbook

variable {w : Workbook} {s t : Sheet} {name : String}

theorem sheet?_putSheet :
    (w.putSheet s).sheet? name = if name = s.name then (w.sheet? name).map fun _ => s else w.sheet? name := by
  unfold putSheet sheet?
  induction w.sheets with
  | nil => simp
  | cons t ts ih =>
    rw [map_cons]
    by_cases ht : t.name = s.name
    · by_cases hname : name = s.name
      · simp [ht, hname]
      · rw [if_pos ht, find?_cons_of_neg (by simpa using Ne.symm hname), ih, if_neg hname, if_neg hname,
          find?_cons_of_neg (by simpa [ht] using Ne.symm hname)]
    · by_cases htname : t.name = name
      · have hname : name ≠ s.name := htname ▸ ht
        simp [htname, hname]
      · rw [if_neg ht, find?_cons_of_neg (by simpa using htname), ih, find?_cons_of_neg (by simpa using htname)]

theorem name_of_sheet? (h : w.sheet? name = some s) : s.name = name := by
  have hfound := find?_some h
  exact of_decide_eq_true hfound

theorem sheet?_putSheet_self (h : w.sheet? name = some t) (hname : s.name = name) :
    (w.putSheet s).sheet? name = some s := by
  rw [sheet?_putSheet, if_pos hname.symm, h]
  rfl

theorem sheet?_putSheet_of_ne (w : Workbook) (h : s.name ≠ name) : (w.putSheet s).sheet? name = w.sheet? name := by
  rw [sheet?_putSheet, if_neg (Ne.symm h)]

end Workbook

end Sheetwork
