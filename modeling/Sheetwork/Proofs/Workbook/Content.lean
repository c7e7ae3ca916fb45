import Sheetwork.Proofs.Text.Pattern
import Sheetwork.Proofs.Workbook.Sheet
/-
  Workbooks: what cells hold. The content of a cell is its value and whether a text is plain; it decides whether the
  cell has a formula (`formula?_of_content`). Looks do not change it, and merging an area changes only what the area
  hides (`content_merge`).

  A step that writes to a sheet is told by the places that it may write to and by what the others keep
  (`Sheet.Writes`); steps compose, and a loop writes where one of its steps does (`Sheet.Writes.of_foldlM`). A file
  keeps what no area hides (`value_stored_of_shown`).

  Sheets that are appended under names of their own keep their names (`sheets_of_foldlM`).
-/

open List

namespace Sheetwork

open Text

theorem Cell.formula?_eq_some_iff {c : Cell} {f : String} : c.formula? = some f ↔
    c.value = .text f ∧ c.isPlain = false ∧ isFormulaText f = true := by
  rw [formula?, isFormula, kind]
  cases c.value with
  | text t =>
    cases c.isPlain with
    | true => simp
    | false =>
      by_cases ht : isFormulaText t = true
      · simp only [ht, Bool.false_eq_true, if_false, if_true, decide_true, Value.text?,
          Option.some.injEq, Value.text.injEq, true_and]
        exact ⟨fun h => ⟨h, h ▸ ht⟩, And.left⟩
      · by_cases herror : errorTexts.contains t = true
        all_goals
          simp only [ht, herror, Bool.false_eq_true, if_false, if_true, Value.text.injEq, true_and,
            reduceCtorEq, decide_false, false_iff, not_and]
          rintro rfl
          exact ht
  | _ => simp

theorem Cell.isFormulaText_iff {f : String} : isFormulaText f = true ↔ ∃ c r, f.toList = '=' :: c :: r := by
  rw [isFormulaText]
  split
  · next c r hf => simp [hf]
  · next hf =>
    refine ⟨nofun, ?_⟩
    rintro ⟨c, r, heq⟩
    exact absurd heq (hf c r)

namespace Sheet

variable {s s' : Sheet} {p q : Position} {v : Value} {a : Area}

theorem formula?_of_content {f : String} (h : s.content p = (.text f, false))
    (hf : Cell.isFormulaText f = true) : (s.cell p).formula? = some f :=
  Cell.formula?_eq_some_iff.2 ⟨congrArg Prod.fst h, congrArg Prod.snd h, hf⟩

/-! Merged areas -/

theorem content_closeCorner (s : Sheet) (a : Area) (q : Position) : (s.closeCorner a).content q = s.content q := by
  rw [closeCorner]
  split
  · exact content_touch s a.corner q
  · exact content_restyle s a.corner _ q

theorem name_closeCorner (s : Sheet) (a : Area) : (s.closeCorner a).name = s.name := by
  rw [closeCorner]
  split
  · exact name_touch s a.corner
  · rfl

theorem contains_of_mem_positions (h : q ∈ a.positions) : a.contains q = true := by
  obtain ⟨i, hi, h⟩ := mem_flatMap.1 h
  obtain ⟨j, hj, rfl⟩ := mem_map.1 h
  rw [mem_range] at hi hj
  simp only [Area.contains, Bool.and_eq_true, decide_eq_true_eq]
  omega

theorem content_merge (s : Sheet) (h : (a.contains q && a.corner != q) = false) :
    (s.merge a).content q = s.content q := by
  rw [← content_closeCorner s a q]
  have hcells : ∀ m : Std.TreeMap Position Cell, ∀ lines : Border,
      (a.positions.foldl (fun m p => if p = a.corner then m else m.insert p (hiddenCell a lines p)) m)[q]? = m[q]? := by
    intro m lines
    refine foldlRecOn (motive := fun m' : Std.TreeMap Position Cell => m'[q]? = m[q]?) _ _ rfl fun m' hm' p hp => ?_
    split
    · exact hm'
    · next hne =>
      have hpq : p ≠ q := by
        rintro rfl
        rw [contains_of_mem_positions hp, Bool.true_and, bne_eq_false_iff_eq] at h
        exact hne h.symm
      rw [Std.TreeMap.getElem?_insert, if_neg (by rwa [Std.LawfulEqCmp.compare_eq_iff_eq]), hm']
  exact congrArg (fun c : Option Cell => ((c.getD {}).value, (c.getD {}).isPlain)) (hcells _ _)

theorem name_merge (s : Sheet) (a : Area) : (s.merge a).name = s.name := name_closeCorner s a

theorem content_foldl_merge {areas : List Area} (h : ∀ a ∈ areas, (a.contains q && a.corner != q) = false) (s : Sheet) :
    (areas.foldl merge s).content q = s.content q :=
  foldlRecOn (motive := fun t : Sheet => t.content q = s.content q) _ _ rfl
    fun t ht a ha => (content_merge t (h a ha)).trans ht

theorem name_foldl_merge (areas : List Area) (s : Sheet) : (areas.foldl merge s).name = s.name :=
  foldlRecOn (motive := fun t : Sheet => t.name = s.name) _ _ rfl fun t ht a _ => (name_merge t a).trans ht

theorem content_congr (h : s.cells = s'.cells) (q : Position) : s.content q = s'.content q := by
  rw [content, content, cell, cell, cell?, cell?, h]

theorem isHidden_eq_false_iff : s.isHidden q = false ↔ ∀ a ∈ s.merged, (a.contains q && a.corner != q) = false :=
  any_eq_false.trans (forall₂_congr fun _ _ => by rw [Bool.not_eq_true])

theorem merged_merge : (s.merge a).merged = if s.merged.any a.within then s.merged else s.merged ++ [a] := by
  have hclosed : (s.closeCorner a).merged = s.merged := by
    rw [closeCorner]
    split
    · exact merged_touch s a.corner
    · exact merged_restyle s a.corner _
  rw [← hclosed]
  rfl

theorem mem_merged_merge {b : Area} (h : b ∈ (s.merge a).merged) : b ∈ s.merged ∨ b = a := by
  rw [merged_merge] at h
  split at h
  · exact .inl h
  · exact (mem_append.1 h).imp id mem_singleton.1

@[simp]
theorem name_stored (s : Sheet) : s.stored.name = s.name := by rw [stored, name_foldl_merge]

theorem value_stored_of_shown (h : s.isHidden q = false) : s.stored.value q = Cell.filed (s.value q) := by
  have hcontent := content_foldl_merge (isHidden_eq_false_iff.1 h) { s with
    cells := s.entries.foldl (fun m x =>
      if x.2.stored.isKept && !s.isHidden x.1 then m.insert x.1 x.2.stored else m) ∅
    tables := []
    merged := [] }
  refine Eq.trans ?_ (Cell.value_of_kept (s.cell? q))
  rw [← getElem?_kept h]
  exact congrArg Prod.fst hcontent

/-! Cells that show a value -/

/-- A cell took a value, and no area hides it. -/
def Has (s : Sheet) (q : Position) (v : Value) : Prop := s.value q = Cell.taken v ∧ s.isHidden q = false

/-- What cells outside `W` have they keep. -/
structure Writes (W : Position → Prop) (s s' : Sheet) : Prop where
  name : s'.name = s.name
  has : ∀ q v, ¬W q → s.Has q v → s'.Has q v

namespace Writes

variable {t : Sheet} {W W' : Position → Prop}

theorem refl (W : Position → Prop) (s : Sheet) : Writes W s s := ⟨rfl, fun _ _ _ h => h⟩

theorem mono (h : Writes W s s') (hW : ∀ q, W q → W' q) : Writes W' s s' :=
  ⟨h.name, fun q v hq => h.has q v fun hw => hq (hW q hw)⟩

variable {α : Type} {f : Sheet → α → Outcome Sheet} {xs : List α}

theorem trans (h : Writes W s s') (h' : Writes W s' t) : Writes W s t :=
  ⟨h'.name.trans h.name, fun q v hq hv => h'.has q v hq (h.has q v hq hv)⟩

theorem of_foldlM {W : α → Position → Prop} (hstep : ∀ x ∈ xs, ∀ s s', f s x = .ok s' → Writes (W x) s s')
    (h : xs.foldlM f s = .ok s') : Writes (fun q => ∃ x ∈ xs, W x q) s s' := by
  induction h using foldlM_induction with
  | nil => exact refl _ _
  | cons ht _ ih =>
    refine ((hstep _ mem_cons_self _ _ ht).mono fun q hq => ⟨_, mem_cons_self, hq⟩).trans ?_
    refine (ih fun y hy => hstep y (mem_cons_of_mem _ hy)).mono ?_
    rintro q ⟨y, hy, hq⟩
    exact ⟨y, mem_cons_of_mem _ hy, hq⟩

/-- What one step of a fold writes stays, if the later steps write elsewhere. -/
theorem of_disjoint {W : α → Position → Prop} (hstep : ∀ x ∈ xs, ∀ s s', f s x = .ok s' → Writes (W x) s s')
    (hd : xs.Pairwise fun x y => ∀ q, W x q → ¬W y q) (h : xs.foldlM f s = .ok s') :
    Writes (fun q => ∃ x ∈ xs, W x q) s s' ∧
      ∀ x ∈ xs, ∃ t t', f t x = .ok t' ∧ ∀ q v, W x q → t'.Has q v → s'.Has q v := by
  refine ⟨of_foldlM hstep h, fun x hx => ?_⟩
  -- the elements after it write elsewhere
  obtain ⟨before, after, rfl⟩ := append_of_mem hx
  obtain ⟨t, t', -, ht, hafter⟩ := foldlM_append_cons h
  have hrest := of_foldlM (fun y hy => hstep y (mem_append_right _ (mem_cons_of_mem _ hy))) hafter
  refine ⟨t, t', ht, fun q v hq hv => hrest.has q v ?_ hv⟩
  rintro ⟨y, hy, hwrites⟩
  exact rel_of_pairwise_cons (pairwise_append.1 hd).2.1 hy q hq hwrites

end Writes

theorem writes_restyle (s : Sheet) (p : Position) (f : Style → Style) : Writes (fun _ => False) s (s.restyle p f) := by
  refine ⟨name_restyle s p f, fun q v _ hv => ⟨(value_restyle s p q f).trans hv.1, ?_⟩⟩
  exact hv.2

theorem writes_of_put (h : s.put p v = .ok s') : Writes (· = p) s s' ∧ s'.Has p v := by
  have hmerged := merged_of_put h
  refine ⟨⟨name_of_put h, fun q u hq hu => ⟨?_, ?_⟩⟩, ?_, ?_⟩
  · rw [value_of_put h, if_neg fun heq => hq heq.symm]
    exact hu.1
  · rw [isHidden, hmerged]
    exact hu.2
  · rw [value_of_put h, if_pos rfl]
  · rw [isHidden, hmerged]
    exact (put_eq_ok_iff.1 h).1

theorem writes_merge (s : Sheet) (a : Area) : Writes (fun q => (a.contains q && a.corner != q) = true) s (s.merge a) := by
  refine ⟨name_merge s a, fun q v hq hv => ⟨?_, ?_⟩⟩
  · have := congrArg Prod.fst (content_merge s (Bool.eq_false_iff.2 hq))
    exact this.trans hv.1
  · refine isHidden_eq_false_iff.2 fun b hb => ?_
    rcases mem_merged_merge hb with hb | rfl
    · exact isHidden_eq_false_iff.1 hv.2 b hb
    · exact Bool.eq_false_iff.2 hq

end Sheet

/-! Appended sheets -/

namespace Workbook

variable {w w' : Workbook}

theorem freeName_eq {name : String} (h : ∀ s ∈ w.sheets, lower s.name ≠ lower name) : w.freeName name = name := by
  rw [freeName, if_neg]
  rw [any_eq_true]
  rintro ⟨n, hn, heq⟩
  obtain ⟨s, hs, rfl⟩ := mem_map.1 hn
  exact h s hs (of_decide_eq_true heq)

theorem append_eq {s : Sheet} (h : ∀ t ∈ w.sheets, lower t.name ≠ lower s.name) :
    (w.append s).sheets = w.sheets ++ [s] := by
  rw [append, freeName_eq h]

theorem exists_lowerFrom_append (b xs ys : List Char) : ∃ u b', lowerFrom b (xs ++ ys) = u ++ lowerFrom b' ys := by
  induction xs generalizing b with
  | nil => exact ⟨[], b, rfl⟩
  | cons x xs ih =>
    obtain ⟨u, b', hu⟩ := ih (x :: b)
    exact ⟨_, b', by rw [cons_append, lowerFrom, hu, ← append_assoc]⟩

/-- A name with a number behind it ends with a digit, in small letters too. -/
theorem exists_getLast?_lower (name : String) (k : Int) :
    ∃ c, (lower (name ++ ofInt k)).toList.getLast? = some c ∧ isAsciiDigit c = true := by
  obtain ⟨u, n, hk, -⟩ := exists_toList_ofInt k
  obtain ⟨v, c, hc⟩ := eq_nil_or_concat (natL n) |>.resolve_left Nat.toDigits_ne_nil
  have hdigit : isAsciiDigit c = true := isAsciiDigit_of_mem_natL (n := n) (by rw [hc]; simp)
  have hcode := isAsciiDigit_iff.1 hdigit
  obtain ⟨u', b, hlower⟩ := exists_lowerFrom_append [] (name.toList ++ u ++ v) [c]
  refine ⟨c, ?_, hdigit⟩
  rw [lower, String.toList_ofList, String.toList_append, hk, hc, concat_eq_append, ← append_assoc, ← append_assoc,
    hlower, lowerFrom, if_neg (by omega), if_neg (by omega), lowerChar, if_pos (by omega),
    if_neg (by rw [isAsciiUpper_iff]; omega)]
  exact getLast?_concat

/-- No sheet that is appended gets the name of the sheet of the start, in whichever letters. -/
theorem lower_freeName_ne (h : "Sheet" ∈ w.sheetNames) (name : String) : lower (w.freeName name) ≠ lower "Sheet" := by
  intro heq
  rw [freeName] at heq
  split at heq
  · obtain ⟨c, hc, hdigit⟩ := exists_getLast?_lower name ((w.numbersAfter name).foldl max 0 + 1)
    have ht : (lower "Sheet").toList.getLast? = some 't' := by decide +kernel
    rw [heq, ht] at hc
    cases hc
    cases hdigit
  · next hfree => exact hfree (any_eq_true.2 ⟨_, h, decide_eq_true heq.symm⟩)

/-- Sheets that are made one after the other stand one after the other, if no name is there twice. -/
theorem sheets_of_foldlM {α : Type} (name : α → String) {R : α → Sheet → Prop} {step : Workbook → α → Outcome Workbook}
    {xs : List α} (hstep : ∀ w w', ∀ x ∈ xs, step w x = .ok w' → ∃ s, R x s ∧ s.name = name x ∧ w' = w.append s)
    (hd : (xs.map fun x => lower (name x)).Nodup)
    (hnew : ∀ s ∈ w.sheets, ∀ x ∈ xs, lower s.name ≠ lower (name x)) (h : xs.foldlM step w = .ok w') :
    ∃ ss, w'.sheets = w.sheets ++ ss ∧ Forall₂ (fun x s => R x s ∧ s.name = name x) xs ss := by
  induction h using foldlM_induction with
  | nil => exact ⟨[], (append_nil _).symm, .nil⟩
  | @cons x xs w w₁ hw₁ _ ih =>
    obtain ⟨s, hs, hname, rfl⟩ := hstep w w₁ x mem_cons_self hw₁
    obtain ⟨hx, hd⟩ := nodup_cons.1 hd
    have happend : (w.append s).sheets = w.sheets ++ [s] := append_eq fun t ht => hname ▸ hnew t ht x mem_cons_self
    obtain ⟨ss, hss, hrel⟩ := ih (fun w w' y hy => hstep w w' y (mem_cons_of_mem _ hy)) hd (fun t ht y hy => by
      rw [happend, mem_append, mem_singleton] at ht
      rcases ht with ht | rfl
      · exact hnew t ht y (mem_cons_of_mem _ hy)
      · rw [hname]
        exact fun heq => hx (mem_map.2 ⟨y, hy, heq.symm⟩))
    exact ⟨s :: ss, by rw [hss, happend, append_assoc, singleton_append], .cons ⟨hs, hname⟩ hrel⟩

end Workbook

end Sheetwork
