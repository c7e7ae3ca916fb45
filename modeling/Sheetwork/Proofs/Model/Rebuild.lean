import Sheetwork.Model.Structured
import Sheetwork.Proofs.Workbook.Address
import Sheetwork.Proofs.Workbook.Content
/-
  Models: what the workbook of a blueprint holds. Every sheet of the blueprint is there, and a cell that is not hidden
  in it holds what the entry of the cell puts there (`exists_of_workbook`). For inputs that are used this is what the
  edited inputs have at the place, or the recorded value if they do not have the sheet (`getElem?_ofInputs`).
-/

open List

namespace Sheetwork

open Sheet Workbook

namespace Sheet

variable {s s' s'' : Sheet} {q : Position} {a : Area}

/-- A sheet after more areas were merged: cells that it shows were shown before and keep their values. -/
structure Covers (s s' : Sheet) : Prop where
  name : s'.name = s.name
  shown : ∀ q, s'.isHidden q = false → s.isHidden q = false ∧ s'.value q = s.value q

namespace Covers

theorem refl (s : Sheet) : Covers s s := ⟨rfl, fun _ h => ⟨h, rfl⟩⟩

theorem trans (h : Covers s s') (h' : Covers s' s'') : Covers s s'' := by
  refine ⟨h'.name.trans h.name, fun q hq => ?_⟩
  obtain ⟨hq', hvalue'⟩ := h'.shown q hq
  obtain ⟨hq, hvalue⟩ := h.shown q hq'
  exact ⟨hq, hvalue'.trans hvalue⟩

theorem of_foldlM {α : Type} {f : Sheet → α → Outcome Sheet} {xs : List α}
    (hstep : ∀ s s' x, f s x = .ok s' → Covers s s') (h : xs.foldlM f s = .ok s') : Covers s s' :=
  foldlM_invariant (P := Covers s) (fun _ _ x _ ht hf => ht.trans (hstep _ _ x hf)) (refl s) h

end Covers

/-- The corner of an area in another is hidden by neither, so all that the inner area hides the outer one hides too. -/
theorem hides_of_within {b : Area} (hw : a.within b = true) (h : (b.contains q && b.corner != q) = false) :
    (a.contains q && a.corner != q) = false := by
  simp only [Area.within, Area.contains, Area.corner, Bool.and_eq_true, decide_eq_true_eq, Bool.and_eq_false_iff,
    decide_eq_false_iff_not, bne_eq_false_iff_eq] at hw h ⊢
  by_contra hnot
  simp only [not_or, not_not] at hnot
  have hq : Position.mk b.minRow b.minCol = q := by
    rcases h with h | h
    · omega
    · exact h
  refine hnot.2 ?_
  subst hq
  rw [Position.mk.injEq]
  dsimp only at hnot
  omega

theorem covers_merge (s : Sheet) (a : Area) : Covers s (s.merge a) := by
  refine ⟨name_merge s a, fun q hq => ?_⟩
  rw [isHidden_eq_false_iff, merged_merge] at hq
  have hkept : s.isHidden q = false ∧ (a.contains q && a.corner != q) = false := by
    rw [isHidden_eq_false_iff]
    split at hq
    · next hany =>
      obtain ⟨b, hb, hw⟩ := any_eq_true.1 hany
      exact ⟨hq, hides_of_within hw (hq b hb)⟩
    · exact ⟨fun b hb => hq b (mem_append_left _ hb), hq a (mem_append_right _ (mem_singleton_self a))⟩
  exact ⟨hkept.1, congrArg Prod.fst (content_merge s hkept.2)⟩

theorem covers_of_eq (hname : s'.name = s.name) (hcells : s'.cells = s.cells) (hmerged : s'.merged = s.merged) :
    Covers s s' := by
  refine ⟨hname, fun q hq => ⟨?_, ?_⟩⟩
  · rw [isHidden, ← hmerged]
    exact hq
  · exact congrArg Prod.fst (content_congr hcells q)

end Sheet

namespace Model

open Sheet (Covers)

namespace Layout

variable {s s' : Sheet} {v : Value} {l : Layout}

theorem covers_of_mergeAll (h : l.mergeAll s = .ok s') : Covers s s' := by
  obtain ⟨vs, -, h⟩ := of_bind h
  refine Covers.of_foldlM (fun t t' v ht => ?_) h
  obtain ⟨a, -, ht⟩ := of_bind ht
  cases ht
  exact covers_merge t a

theorem covers_of_setHeight (h : setHeight s v = .ok s') : Covers s s' := by
  iterate 3 obtain ⟨_, -, h⟩ := of_bind h
  obtain ⟨height, _, -, -, h⟩ := of_bind₂ h
  cases h
  cases height with
  | none => exact Covers.refl s
  | some _ => exact covers_of_eq rfl rfl rfl

theorem covers_of_setWidth (h : setWidth s v = .ok s') : Covers s s' := by
  iterate 4 obtain ⟨_, -, h⟩ := of_bind h
  cases h
  exact covers_of_eq rfl rfl rfl

theorem covers_of_setMark (h : setFreeze s v = .ok s' ∨ setTab s v = .ok s') : Covers s s' := by
  unfold setFreeze setTab at h
  rcases h with h | h
  all_goals
    split at h
    · cases h
      exact Covers.refl s
    · cases h
      exact Covers.refl s
    · obtain ⟨_, -, h⟩ := of_bind h
      cases h
      exact covers_of_eq rfl rfl rfl
    · cases h

theorem covers_of_apply (h : l.apply s = .ok s') : Covers s s' := by
  obtain ⟨s₁, s₂, h₁, h₂, h⟩ := of_bind₂ h
  obtain ⟨s₃, rows, h₃, -, h⟩ := of_bind₂ h
  obtain ⟨s₄, columns, h₄, -, h₅⟩ := of_bind₂ h
  have hmarked := ((covers_of_mergeAll h₁).trans (covers_of_setMark (.inl h₂))).trans (covers_of_setMark (.inr h₃))
  have hrows : Covers s₃ s₄ := Covers.of_foldlM (fun _ _ _ => covers_of_setHeight) h₄
  have hcolumns : Covers s₄ s' := Covers.of_foldlM (fun _ _ _ => covers_of_setWidth) h₅
  exact (hmarked.trans hrows).trans hcolumns

end Layout

/-- Titles that agree but for case are the same. -/
def Titled (names : List String) : Prop := ∀ a ∈ names, ∀ b ∈ names, Text.lower a = Text.lower b → a = b

/-- Sheets have titles of their own, entries stand on the sheet and in the cell that they name, each in a cell of its
own, and inputs have no formula. -/
structure Blueprint.Sound (b : Blueprint) : Prop where
  order : b.order.Nodup
  titled : Titled b.order
  entry : ∀ name ∈ b.order, ∀ e ∈ b.entriesOf name, e.sheet = .text name ∧
    ∃ p : Position, p.OnSheet ∧ e.slot = p.slot ∧ e.cell = .text p.address
  distinct : ∀ name ∈ b.order, ((b.entriesOf name).map Entry.slot).Nodup
  input : ∀ name ∈ b.order, ∀ e ∈ b.entriesOf name, e.isInput = true → e.formula.truthy = false

theorem positionOf_address {p : Position} (hp : p.OnSheet) : positionOf (.text p.address) = .ok p := by
  show (Address.target p.address >>= _) = _
  rw [Address.target_address hp]
  rfl

theorem Entry.position_of_cell {e : Entry} {p : Position} (hp : p.OnSheet) (h : e.cell = .text p.address) :
    e.position = .ok p := by
  rw [Entry.position, h, positionOf_address hp]

namespace Rebuild

variable {r : Rebuild} {hasTemplate : Bool} {b : Blueprint} {name : String} {s s' : Sheet} {e : Entry} {p : Position}

theorem of_dress (h : dress s p e = .ok s') : s'.name = s.name ∧ s'.merged = s.merged ∧ ∀ q, s'.value q = s.value q := by
  obtain ⟨look, -, h⟩ := of_bind h
  cases look with
  | none =>
    cases h
    exact ⟨rfl, rfl, fun _ => rfl⟩
  | some l =>
    cases h
    exact ⟨name_restyle s p _, merged_restyle s p _, fun q => value_restyle s p q _⟩

theorem of_place (hp : e.position = .ok p) (h : r.place hasTemplate name s e = .ok s') :
    s'.name = s.name ∧ s'.merged = s.merged ∧ ∀ q, q ≠ p → s'.value q = s.value q := by
  unfold place at h
  rw [hp] at h
  change (if _ then _ else _) = _ at h
  split at h
  · cases h
    exact ⟨rfl, rfl, fun _ _ => rfl⟩
  · obtain ⟨content, -, h⟩ := of_bind h
    cases content with
    | none =>
      cases h
      exact ⟨rfl, rfl, fun _ _ => rfl⟩
    | some v =>
      obtain ⟨t, ht, h⟩ := of_bind h
      have hput : t.name = s.name ∧ t.merged = s.merged ∧ ∀ q, q ≠ p → t.value q = s.value q := by
        refine ⟨name_of_put ht, merged_of_put ht, fun q hq => ?_⟩
        rw [value_of_put ht, if_neg fun heq => hq heq.symm]
      split at h
      · cases h
        exact hput
      · obtain ⟨hname, hmerged, hvalue⟩ := of_dress h
        exact ⟨hname.trans hput.1, hmerged.trans hput.2.1, fun q hq => (hvalue q).trans (hput.2.2 q hq)⟩

theorem of_foldlM_place {es : List Entry} (hp : ∀ x ∈ es, ∃ p, x.position = .ok p)
    (h : es.foldlM (r.place hasTemplate name) s = .ok s') : s'.name = s.name ∧ s'.merged = s.merged := by
  refine foldlM_invariant (P := fun t : Sheet => t.name = s.name ∧ t.merged = s.merged) ?_ ⟨rfl, rfl⟩ h
  rintro t t' x hx ⟨hname, hmerged⟩ ht
  obtain ⟨p, hp⟩ := hp x hx
  obtain ⟨hname', hmerged', -⟩ := of_place hp ht
  exact ⟨hname'.trans hname, hmerged'.trans hmerged⟩

theorem exists_of_fill (h : r.fill hasTemplate b name s = .ok s') :
    ∃ t, (b.sortedEntries name).foldlM (r.place hasTemplate name) s = .ok t ∧ Covers t s' := by
  obtain ⟨t, ht, h⟩ := of_bind h
  refine ⟨t, ht, ?_⟩
  split at h
  · split at h
    · cases h
      exact Covers.refl _
    · exact Layout.covers_of_apply h
  · cases h
    exact Covers.refl _

theorem exists_position (hb : b.Sound) (hname : name ∈ b.order) {x : Entry} (hx : x ∈ b.sortedEntries name) :
    ∃ q, x.position = .ok q ∧ x.slot = q.slot := by
  have hperm : b.sortedEntries name ~ b.entriesOf name := mergeSort_perm _ _
  obtain ⟨-, q, hq, hslot, hcell⟩ := hb.entry name hname x (hperm.mem_iff.1 hx)
  exact ⟨q, Entry.position_of_cell hq hcell, hslot⟩

theorem name_of_fill (hb : b.Sound) (hname : name ∈ b.order) (h : r.fill hasTemplate b name s = .ok s') :
    s'.name = s.name := by
  obtain ⟨t, ht, hcovers⟩ := exists_of_fill h
  refine hcovers.name.trans (of_foldlM_place (fun x hx => ?_) ht).1
  obtain ⟨q, hq, -⟩ := exists_position hb hname hx
  exact ⟨q, hq⟩

variable (hinput : e.isInput = true) (hincluded : e.included = true) (hr : r.asRecorded = false)
include hinput hincluded hr

/-- What a used input puts into its cell: a value that is given for it, or the recorded one. -/
theorem value_of_place (hp : e.position = .ok p) {a : String} (hcell : e.cell = .text a) (hshown : s.isHidden p = false)
    (h : r.place hasTemplate name s e = .ok s') :
    s'.value p = Cell.taken (r.overrides[(CellName.mk name a)]?.getD e.value) := by
  unfold place at h
  rw [hp] at h
  change (if _ then _ else _) = _ at h
  rw [if_neg (by rw [hshown]; decide)] at h
  unfold content at h
  rw [if_pos hinput, hcell, hincluded, hr] at h
  obtain ⟨content, hcontent, h⟩ := of_bind h
  obtain rfl := Except.ok.inj hcontent
  obtain ⟨t, ht, h⟩ := of_bind h
  have hput : t.value p = Cell.taken (r.overrides[(CellName.mk name a)]?.getD e.value) := by
    rw [value_of_put ht, if_pos rfl]
    rfl
  split at h
  · cases h
    exact hput
  · exact ((of_dress h).2.2 p).trans hput

theorem value_of_fill (hb : b.Sound) (hname : name ∈ b.order) (he : e ∈ b.entriesOf name) (hp : p.OnSheet)
    (hcell : e.cell = .text p.address) (h : r.fill hasTemplate b name s = .ok s') (hshown : s'.isHidden p = false) :
    s'.value p = Cell.taken (r.overrides[(CellName.mk name p.address)]?.getD e.value) := by
  obtain ⟨t, ht, hcovers⟩ := exists_of_fill h
  obtain ⟨hshown, hvalue⟩ := hcovers.shown p hshown
  rw [hvalue]
  have hperm : b.sortedEntries name ~ b.entriesOf name := mergeSort_perm _ _
  have hpe := Entry.position_of_cell hp hcell
  have hstart : s.isHidden p = false := by
    rw [isHidden, ← (of_foldlM_place (fun x hx => (exists_position hb hname hx).imp fun _ => And.left) ht).2]
    exact hshown
  -- The other entries have cells of their own.
  refine foldlM_through (k := Entry.slot) (P := fun u : Sheet => u.isHidden p = false)
    (Q := fun u => u.value p = Cell.taken (r.overrides[(CellName.mk name p.address)]?.getD e.value))
    ((hperm.map Entry.slot).nodup_iff.2 (hb.distinct name hname)) (hperm.mem_iff.2 he) (fun u u' x hx _ hu h => ?_)
    (fun u u' hu h => value_of_place hinput hincluded hr hpe hcell hu h) (fun u u' x hx hne hu h => ?_) hstart ht
  all_goals obtain ⟨q, hq, hslot⟩ := exists_position hb hname hx
  · rwa [isHidden, (of_place hq h).2.1]
  · rw [(of_place hq h).2.2 p ?_, hu]
    rintro rfl
    obtain ⟨q', hq', hslot'⟩ := exists_position hb hname (hperm.mem_iff.2 he)
    rw [Except.ok.inj (hq'.symm.trans hpe)] at hslot'
    exact hne (hslot.trans hslot'.symm)

end Rebuild

/-! Workbooks -/

namespace Rebuild

variable {r : Rebuild} {hasTemplate : Bool} {b : Blueprint} {name : String} {w w' : Workbook} {names : List String}

/-- Filling puts one sheet into a workbook, under its own title if that is like no other. -/
theorem of_fillIn (hb : b.Sound) (hname : name ∈ b.order) (htitled : Titled names) (hnames : name ∈ names)
    (hw : ∀ u ∈ w.sheets, u.name ∈ names) (h : r.fillIn hasTemplate b w name = .ok w') :
    (∀ u ∈ w'.sheets, u.name ∈ names) ∧ (∀ n, n ≠ name → w'.sheet? n = w.sheet? n) ∧
      ∃ s s', r.fill hasTemplate b name s = .ok s' ∧ w'.sheet? name = some s' := by
  have hput : ∀ (v : Workbook) (s s' : Sheet), (∀ u ∈ v.sheets, u.name ∈ names) → v.sheet? name = some s →
      r.fill hasTemplate b name s = .ok s' → (∀ u ∈ (v.putSheet s').sheets, u.name ∈ names) ∧
        (∀ n, n ≠ name → (v.putSheet s').sheet? n = v.sheet? n) ∧ (v.putSheet s').sheet? name = some s' := by
    intro v s s' hv hs hs'
    have hname' := (name_of_fill hb hname hs').trans (name_of_sheet? hs)
    refine ⟨fun u hu => ?_, fun n hn => sheet?_putSheet_of_ne _ fun heq => hn (heq.symm.trans hname'),
      sheet?_putSheet_self hs hname'⟩
    obtain ⟨t, ht, rfl⟩ := mem_map.1 hu
    split
    · exact hname' ▸ hnames
    · exact hv t ht
  unfold fillIn at h
  split at h
  · next s hs =>
    obtain ⟨s', hs', h⟩ := of_bind h
    cases h
    obtain ⟨hall, hother, hself⟩ := hput w s s' hw hs hs'
    exact ⟨hall, hother, s, s', hs', hself⟩
  · next hnone =>
    obtain ⟨_, s', -, hs', h⟩ := of_bind₂ h
    cases h
    have hfree : w.freeName name = name := by
      refine freeName_eq fun u hu heq => ?_
      exact find?_eq_none.1 hnone u hu (decide_eq_true (htitled _ (hw u hu) _ hnames heq))
    rw [hfree] at hs'
    have hadd : (w.addSheet name).sheets = w.sheets ++ [({ name := name } : Sheet)] := by rw [addSheet, hfree]
    have hfind : ∀ n, (w.addSheet name).sheet? n =
        (w.sheet? n).or (if name = n then some { name := name } else none) := by
      intro n
      rw [sheet?, hadd, find?_append, find?_singleton]
      simp only [decide_eq_true_eq, sheet?]
    have hnew : ∀ u ∈ (w.addSheet name).sheets, u.name ∈ names := by
      intro u hu
      rw [hadd, mem_append, mem_singleton] at hu
      rcases hu with hu | rfl
      · exact hw u hu
      · exact hnames
    have hsheet : (w.addSheet name).sheet? name = some { name := name } := by
      rw [hfind, hnone, if_pos rfl, Option.none_or]
    obtain ⟨hall, hother, hself⟩ := hput _ _ s' hnew hsheet hs'
    refine ⟨hall, fun n hn => ?_, _, s', hs', hself⟩
    rw [hother n hn, hfind, if_neg fun heq => hn heq.symm, Option.or_none]

theorem names_of_emptyWorkbook (hb : b.Sound) (h : emptyWorkbook b = .ok w) : ∀ u ∈ w.sheets, u.name ∈ b.order := by
  have hd : (b.order.map fun name => Text.lower name).Nodup := hb.order.map_on fun a ha c hc => hb.titled a ha c hc
  have hstep : ∀ w w' : Workbook, ∀ name ∈ b.order, addEmpty b w name = .ok w' →
      ∃ s : Sheet, True ∧ s.name = id name ∧ w' = w.append s := by
    intro w w' name _ hw'
    obtain ⟨_, s, -, hs, hw'⟩ := of_bind₂ hw'
    cases hw'
    refine ⟨s, trivial, ?_, rfl⟩
    cases hl : b.layout? name with
    | none =>
      rw [hl] at hs
      cases hs
      rfl
    | some l =>
      rw [hl] at hs
      exact (Layout.covers_of_apply hs).name
  intro u hu
  obtain ⟨ss, hss, hrel⟩ := sheets_of_foldlM id hstep hd (fun u hu => absurd hu not_mem_nil) h
  rw [hss] at hu
  obtain ⟨name, hname, -, rfl⟩ := exists_of_mem_right hrel hu
  exact hname

/-- Every sheet of a blueprint is in its workbook, and the used inputs are in their cells. -/
theorem exists_of_workbook {fs : Files} (hb : b.Sound)
    (htemplate : ∀ t, fs.load b.template = .ok t → Titled (b.order ++ t.sheetNames)) (h : r.workbook fs b = .ok w)
    (hname : name ∈ b.order) : ∃ hasTemplate s s', r.fill hasTemplate b name s = .ok s' ∧ w.sheet? name = some s' := by
  obtain ⟨start, hasTemplate, names, htitled, horder, hw, h⟩ : ∃ start hasTemplate names, Titled names ∧
      (∀ n ∈ b.order, n ∈ names) ∧ (∀ u ∈ start.sheets, u.name ∈ names) ∧
        b.order.foldlM (r.fillIn hasTemplate b) start = .ok w := by
    unfold workbook at h
    dsimp only at h
    split at h
    · obtain ⟨start, hstart, h⟩ := of_bind h
      exact ⟨start, _, _, htemplate start hstart, fun n => mem_append_left _,
        fun u hu => mem_append_right _ (mem_map_of_mem hu), h⟩
    · obtain ⟨start, hstart, h⟩ := of_bind h
      exact ⟨start, _, b.order, hb.titled, fun n hn => hn, names_of_emptyWorkbook hb hstart, h⟩
  -- Sheets that are filled before or after the sheet leave it as it is.
  refine ⟨hasTemplate, (foldlM_through (k := id) (P := fun w : Workbook => ∀ u ∈ w.sheets, u.name ∈ names)
    (Q := fun w => (∀ u ∈ w.sheets, u.name ∈ names) ∧ ∃ s s', r.fill hasTemplate b name s = .ok s' ∧ w.sheet? name = some s')
    (by rw [map_id]; exact hb.order) hname (fun _ _ n hn _ hw h => (of_fillIn hb hn htitled (horder n hn) hw h).1)
    (fun _ _ hw h => ?_) (fun _ _ n hn hne hw h => ?_) hw h).2⟩
  · obtain ⟨hall, -, hself⟩ := of_fillIn hb hname htitled (horder name hname) hw h
    exact ⟨hall, hself⟩
  · obtain ⟨hall, hother, -⟩ := of_fillIn hb hn htitled (horder n hn) hw.1 h
    obtain ⟨s, s', hfill, hs'⟩ := hw.2
    exact ⟨hall, s, s', hfill, (hother name hne.symm).trans hs'⟩

end Rebuild

/-! Edited inputs -/

namespace Overrides

variable {b : Blueprint} {o o' : Overrides} {given : Workbook} {name : String} {p : Position} {s : Sheet}

/-- Values that are given for cells are those that a workbook has there. -/
def Faithful (given : Workbook) (o : Overrides) : Prop := ∀ (k : CellName) (v : Value), o[k]? = some v →
  ∃ s p, given.sheet? k.sheet = some s ∧ positionOf (.text k.cell) = .ok p ∧ s.value p = v

theorem Faithful.insert (h : Faithful given o) (hs : given.sheet? name = some s)
    (hp : p.OnSheet) : Faithful given (o.insert ⟨name, p.address⟩ (s.value p)) := by
  intro k v hk
  rw [Std.HashMap.getElem?_insert] at hk
  split at hk
  · next heq =>
    obtain rfl := eq_of_beq heq
    exact ⟨s, p, hs, positionOf_address hp, Option.some.inj hk⟩
  · exact h k v hk

theorem of_take (hs : given.sheet? name = some s) {es : List Entry}
    (hes : ∀ e ∈ es, ∃ p : Position, p.OnSheet ∧ e.cell = .text p.address) (ho : Faithful given o)
    (h : es.foldlM (take s name) o = .ok o') :
    Faithful given o' ∧ (∀ k, k ∈ o → k ∈ o') ∧ ∀ e ∈ es, ∀ a, e.cell = .text a → CellName.mk name a ∈ o' := by
  induction es generalizing o with
  | nil =>
    cases h
    exact ⟨ho, fun _ hk => hk, fun e he => absurd he not_mem_nil⟩
  | cons e es ih =>
    obtain ⟨p, hp, hcell⟩ := hes e mem_cons_self
    have htake : take s name o e = .ok (o.insert ⟨name, p.address⟩ (s.value p)) := by
      rw [take, hcell, Entry.position_of_cell hp hcell]
      rfl
    rw [foldlM_cons, htake] at h
    obtain ⟨hall, hkeep, hmem⟩ := ih (fun e he => hes e (mem_cons_of_mem _ he)) (ho.insert hs hp) h
    refine ⟨hall, fun k hk => hkeep k (Std.HashMap.mem_insert.2 (.inr hk)), fun d hd a ha => ?_⟩
    rcases mem_cons.1 hd with rfl | hd
    · rw [hcell] at ha
      cases ha
      exact hkeep _ Std.HashMap.mem_insert_self
    · exact hmem d hd a ha

theorem of_takeSheet (hb : b.Sound) (hname : name ∈ b.order) (ho : Faithful given o)
    (h : takeSheet b given o name = .ok o') : Faithful given o' ∧ (∀ k, k ∈ o → k ∈ o') ∧
      ∀ s, given.sheet? name = some s → ∀ e ∈ b.entriesOf name, e.isInput = true → e.included = true →
        ∀ a, e.cell = .text a → CellName.mk name a ∈ o' := by
  unfold takeSheet at h
  split at h
  · next hnone =>
    cases h
    exact ⟨ho, fun _ hk => hk, fun s hs => absurd (hnone.symm.trans hs) nofun⟩
  · next s hs =>
    have hcells : ∀ e ∈ (b.entriesOf name).filter fun e => e.isInput && e.included,
        ∃ p : Position, p.OnSheet ∧ e.cell = .text p.address := by
      intro e he
      obtain ⟨-, p, hp, -, hcell⟩ := hb.entry name hname e (mem_of_mem_filter he)
      exact ⟨p, hp, hcell⟩
    obtain ⟨hall, hkeep, hmem⟩ := of_take hs hcells ho h
    refine ⟨hall, hkeep, fun _ _ e he hinput hincluded => hmem e (mem_filter.2 ⟨he, ?_⟩)⟩
    rw [hinput, hincluded]
    rfl

theorem getElem?_ofInputs (hb : b.Sound) (h : ofInputs b given = .ok o) (hname : name ∈ b.order) {e : Entry}
    (he : e ∈ b.entriesOf name) (hinput : e.isInput = true) (hincluded : e.included = true) (hp : p.OnSheet)
    (hcell : e.cell = .text p.address) : o[CellName.mk name p.address]? = (given.sheet? name).map (·.value p) := by
  obtain ⟨hall, hmem⟩ : Faithful given o ∧ ((given.sheet? name).isSome = true → CellName.mk name p.address ∈ o) := by
    refine foldlM_through (k := id) (P := Faithful given)
      (Q := fun o => Faithful given o ∧ ((given.sheet? name).isSome = true → CellName.mk name p.address ∈ o))
      (by rw [map_id]; exact hb.order) hname (fun _ _ n hn _ ho h => (of_takeSheet hb hn ho h).1)
      (fun _ _ ho h => ?_) (fun _ _ n hn _ ho h => ?_)
      (fun k v hk => by simp at hk) h
    · obtain ⟨hthere, -, hmem⟩ := of_takeSheet hb hname ho h
      refine ⟨hthere, fun hsome => ?_⟩
      obtain ⟨s, hs⟩ := Option.isSome_iff_exists.1 hsome
      exact hmem s hs e he hinput hincluded _ hcell
    · obtain ⟨hfaithful, hkeep, -⟩ := of_takeSheet hb hn ho.1 h
      exact ⟨hfaithful, fun hsome => hkeep _ (ho.2 hsome)⟩
  cases hs : given.sheet? name with
  | none =>
    cases ho : o[CellName.mk name p.address]? with
    | none => rfl
    | some v =>
      obtain ⟨s, -, hs', -⟩ := hall _ v ho
      rw [hs] at hs'
      cases hs'
  | some s =>
    obtain ⟨v, hv⟩ := Option.isSome_iff_exists.1 (Std.HashMap.mem_iff_isSome_getElem?.1 (hmem (by rw [hs]; rfl)))
    obtain ⟨s', q, hs', hq, rfl⟩ := hall _ v hv
    rw [hs] at hs'
    cases hs'
    rw [positionOf_address hp] at hq
    cases hq
    exact hv

end Overrides

end Model

end Sheetwork
