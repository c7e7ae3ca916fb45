import Sheetwork.Proofs.Model.Fixpoint
import Sheetwork.Proofs.Workbook.Page
/-
  Models: calculation from inputs that nobody has edited. What the workbook of inputs gives back for a used input is
  the recorded value, if that comes back from a file (`getElem?_unedited`). Then the workbook that is built from it is
  the same one (`workbook_congr`), no input has changed, and every formula keeps the value that it had
  (`exists_keepAll`).

  Main statement: `run_unedited`.
-/

open List

namespace Sheetwork.Model

open Rebuild Overrides Sheet Cell

variable {fs : Files} {b : Blueprint} {o : Overrides} {w : Workbook} {name : String} {e : Entry}

/-- What is built depends only on what the entries put into their cells. -/
theorem Rebuild.workbook_congr {r r' : Rebuild} (h : ∀ hasTemplate, ∀ name ∈ b.order, ∀ e ∈ b.entriesOf name,
    r.content hasTemplate name e = r'.content hasTemplate name e) : r.workbook fs b = r'.workbook fs b := by
  have hfill : ∀ t, ∀ name ∈ b.order, ∀ s, r.fill t b name s = r'.fill t b name s := by
    intro t name hname s
    have hplaced : (b.sortedEntries name).foldlM (r.place t name) s =
        (b.sortedEntries name).foldlM (r'.place t name) s := by
      refine foldlM_congr_mem (fun s e he => ?_) s
      have he : e ∈ b.entriesOf name := (mergeSort_perm _ _).mem_iff.1 he
      simp only [place, h t name hname e he]
    rw [fill, fill, hplaced]
  have hrun : ∀ t start, b.order.foldlM (r.fillIn t b) start = b.order.foldlM (r'.fillIn t b) start := by
    refine fun t => foldlM_congr_mem fun w name hname => ?_
    simp only [fillIn, hfill t name hname]
  simp only [workbook, hrun]

theorem Rebuild.content_eq_recorded {hasTemplate : Bool} (h : e.isInput = true → e.included = true →
    ∀ a, e.cell = .text a → (o[CellName.mk name a]?).getD e.value = e.value) :
    ({ formulas := false, overrides := o } : Rebuild).content hasTemplate name e =
      ({ formulas := false, asRecorded := true } : Rebuild).content hasTemplate name e := by
  unfold content
  by_cases hinput : e.isInput = true
  · by_cases hincluded : e.included = true
    · cases hcell : e.cell with
      | text a => simp [hinput, hincluded, h hinput hincluded a hcell]
      | _ => simp
    · simp [hincluded]
  · simp [hinput]

/-! Inputs as they were recorded -/

/-- The recorded value comes back from a file as it was, and is like itself: it is no date, no text that is
cut off or read as a formula, and no number that is none or too large. -/
def Entry.ComesBack (e : Entry) : Prop := lasts e.value = true ∧ alike e.value e.value = .ok true

def usedInput (e : Entry) : Bool := e.isInput && e.included

/-- The workbook of inputs of a sound blueprint: no entry is in a cell that an area hides, and the used
inputs come back. -/
structure Fresh (fs : Files) (b : Blueprint) (w : Workbook) : Prop where
  sound : b.Sound
  titled : ∀ t, fs.load b.template = .ok t → Titled (b.order ++ t.sheetNames)
  made : workbook { formulas := false, asRecorded := true } fs b = .ok w
  shown : ∀ name ∈ b.order, ∀ s, w.sheet? name = some s → ∀ e ∈ b.entriesOf name, ∀ p, e.position = .ok p →
    s.isHidden p = false
  back : ∀ name ∈ b.order, ∀ e ∈ b.entriesOf name, usedInput e = true → e.ComesBack

theorem Overrides.exists_ofInputs (hb : b.Sound) (given : Workbook) : ∃ o, ofInputs b given = .ok o := by
  have hall := exists_foldlM (f := takeSheet b given) (P := fun _ => True) (l := b.order) (fun o name hname _ => ?_)
    (b := ∅) trivial
  · exact hall.imp fun _ h => h.1
  · unfold takeSheet
    split
    · exact ⟨o, rfl, trivial⟩
    · refine exists_foldlM (fun o e he _ => ?_) trivial
      obtain ⟨-, p, hp, -, hcell⟩ := hb.entry name hname e (mem_of_mem_filter he)
      exact ⟨_, by rw [take, Entry.position_of_cell hp hcell]; rfl, trivial⟩

namespace Fresh

variable (h : Fresh fs b w)

include h

theorem exists_sheet (hname : name ∈ b.order) : ∃ s, w.sheet? name = some s ∧
    ∀ e ∈ b.entriesOf name, usedInput e = true → ∀ p, e.position = .ok p → s.value p = e.value := by
  have hsame := (Program.workbook_of_no_inputs fs b).trans h.made
  obtain ⟨_, _, s, hfill, hs⟩ := exists_of_workbook h.sound h.titled hsame hname
  refine ⟨s, hs, fun e he hused p hp => ?_⟩
  obtain ⟨hinput, hincluded⟩ := Bool.and_eq_true_iff.1 hused
  obtain ⟨-, q, hq, -, hcell⟩ := h.sound.entry name hname e he
  cases hp.symm.trans (Entry.position_of_cell hq hcell)
  rw [value_of_fill hinput hincluded rfl h.sound hname he hq hcell hfill (h.shown name hname s hs e he p hp)]
  simpa using taken_of_lasts (h.back name hname e he hused).1

theorem getElem?_unedited (ho : ofInputs b w.stored.dataOnly = .ok o)
    (hname : name ∈ b.order) (he : e ∈ b.entriesOf name) (hused : usedInput e = true) {a : String}
    (ha : e.cell = .text a) : o[CellName.mk name a]? = some e.value := by
  obtain ⟨s, hs, hvalue⟩ := h.exists_sheet hname
  obtain ⟨hinput, hincluded⟩ := Bool.and_eq_true_iff.1 hused
  obtain ⟨-, p, hp, -, hcell⟩ := h.sound.entry name hname e he
  have hposition := Entry.position_of_cell hp hcell
  cases ha.symm.trans hcell
  have hlasts := (h.back name hname e he hused).1
  have hfiled : s.stored.value p = e.value := by
    rw [value_stored_of_shown (h.shown name hname s hs e he p hposition), hvalue e he hused p hposition,
      filed_of_lasts hlasts]
  rw [getElem?_ofInputs h.sound ho hname he hinput hincluded hp hcell, Workbook.sheet?_reread, hs, Option.map_some,
    Option.map_some, value_dataOnly (by rw [hfiled]; exact readsAsFormula_of_lasts hlasts), hfiled]

theorem hasChange_unedited (ho : ofInputs b w.stored.dataOnly = .ok o) : Calculation.hasChange b o = .ok false := by
  refine foldlM_fixed fun x hx => ?_
  obtain ⟨name, hname, hx⟩ := mem_flatMap.1 hx
  obtain ⟨e, he, rfl⟩ := mem_map.1 hx
  obtain ⟨he, hused⟩ := mem_filter.1 he
  obtain ⟨-, p, hp, -, hcell⟩ := h.sound.entry name hname e he
  simp only [hcell, h.getElem?_unedited ho hname he hused hcell, Option.getD_some, (h.back name hname e he hused).2]
  rfl

end Fresh

/-! Formulas keep their values -/

def Entry.At (e : Entry) (name : String) (p : Position) : Prop := e.sheet = .text name ∧ e.position = .ok p

namespace Calculation

/-- The entries have put their values into their cells, and nothing else has changed. -/
def Keeps (es : List Entry) (w w' : Workbook) : Prop := ∀ name s, w.sheet? name = some s →
  ∃ s', w'.sheet? name = some s' ∧ s'.merged = s.merged ∧ ∀ q,
    (s'.value q = s.value q ∧ ∀ e ∈ es, ¬e.At name q) ∨ ∃ e ∈ es, e.At name q ∧ s'.value q = taken e.value

theorem exists_keep {s : Sheet} {p : Position} (he : e.At name p)
    (hs : w.sheet? name = some s) (hshown : s.isHidden p = false)
    (hvalue : ∀ c : Cell, ∃ c', c.assign e.value = .ok c') : ∃ w', keep w e = .ok w' ∧ Keeps [e] w w' := by
  obtain ⟨c, hc⟩ := hvalue (s.cell p)
  have hput : s.put p e.value = .ok (s.insert p c) := put_eq_ok_iff.2 ⟨hshown, c, hc, rfl⟩
  have hname := (name_of_put hput).trans (Workbook.name_of_sheet? hs)
  have hfound : w.sheets.find? (fun s => .text s.name == e.sheet) = some s := by
    rw [he.1, ← hs]
    rfl
  have hother : ∀ {n q}, (n = name → p ≠ q) → ∀ d ∈ [e], ¬d.At n q := by
    intro n q hne d hd hat
    cases mem_singleton.1 hd
    exact hne (Value.text.inj (hat.1.symm.trans he.1)) (Except.ok.inj (he.2.symm.trans hat.2))
  refine ⟨w.putSheet (s.insert p c), ?_, fun n t ht => ?_⟩
  · unfold keep
    rw [hfound, he.2]
    exact bind_ok rfl (bind_ok rfl (bind_ok hput rfl))
  · by_cases hn : n = name
    · subst hn
      cases hs.symm.trans ht
      refine ⟨_, Workbook.sheet?_putSheet_self hs hname, merged_of_put hput, fun q => ?_⟩
      rw [value_of_put hput q]
      by_cases hq : p = q
      · exact .inr ⟨e, mem_singleton_self e, hq ▸ he, by rw [if_pos hq]⟩
      · exact .inl ⟨by rw [if_neg hq], hother fun _ => hq⟩
    · refine ⟨t, (Workbook.sheet?_putSheet_of_ne w fun h => hn (h.symm.trans hname)).trans ht, rfl, fun q => ?_⟩
      exact .inl ⟨rfl, hother fun h => absurd h hn⟩

theorem Keeps.cons {es : List Entry} {w' w'' : Workbook} (h : Keeps [e] w w') (h' : Keeps es w' w'') :
    Keeps (e :: es) w w'' := by
  intro name s hs
  obtain ⟨s', hs', hmerged, hq⟩ := h name s hs
  obtain ⟨s'', hs'', hmerged', hq'⟩ := h' name s' hs'
  refine ⟨s'', hs'', hmerged'.trans hmerged, fun q => ?_⟩
  rcases hq' q with ⟨hvalue', hnone'⟩ | ⟨d, hd, hrest⟩
  · rcases hq q with ⟨hvalue, hnone⟩ | ⟨d, hd, hat, hvalue⟩
    · exact .inl ⟨hvalue'.trans hvalue, forall_mem_cons.2 ⟨hnone e (mem_singleton_self e), hnone'⟩⟩
    · obtain rfl := mem_singleton.1 hd
      exact .inr ⟨d, mem_cons_self, hat, hvalue'.trans hvalue⟩
  · exact .inr ⟨d, mem_cons_of_mem _ hd, hrest⟩

theorem exists_keepAll {es : List Entry} (h : ∀ e ∈ es, (∀ c : Cell, ∃ c', c.assign e.value = .ok c') ∧
    ∃ name s p, e.At name p ∧ w.sheet? name = some s ∧ s.isHidden p = false) :
    ∃ w', es.foldlM keep w = .ok w' ∧ Keeps es w w' := by
  induction es generalizing w with
  | nil => exact ⟨w, rfl, fun name s hs => ⟨s, hs, rfl, fun q => .inl ⟨rfl, nofun⟩⟩⟩
  | cons e es ih =>
    obtain ⟨hvalue, name, s, p, hat, hs, hshown⟩ := h e mem_cons_self
    obtain ⟨w₁, hw₁, hkeeps⟩ := exists_keep hat hs hshown hvalue
    obtain ⟨w₂, hw₂, hkeeps'⟩ := @ih w₁ fun d hd => by
      obtain ⟨hvalue, n, t, q, hat, ht, hshown⟩ := h d (mem_cons_of_mem _ hd)
      obtain ⟨t', ht', hmerged, -⟩ := hkeeps n t ht
      exact ⟨hvalue, n, t', q, hat, ht', by rw [isHidden, hmerged]; exact hshown⟩
    refine ⟨w₂, ?_, hkeeps.cons hkeeps'⟩
    rw [foldlM_cons, hw₁]
    exact hw₂

end Calculation

end Sheetwork.Model
