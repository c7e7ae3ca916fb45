import Sheetwork.Proofs.Model.Program
/-
  Models: computing formulas one after the other. The value of an expression depends on the cells of its references
  alone (`Expr.eval_of_shown`, `Context.Changes.shown_eq`), and a step changes the cell of its formula alone
  (`changes_of_step`). So a formula that reads no cell computed with it or after it has its value at the end of a run
  too (`eval_of_run`).
-/

open List

namespace Sheetwork.Model

open Sheet Workbook

namespace Context

variable {c c' c'' : Context} {W W' : String → Position → Prop} {x : String × String}

def shown (c : Context) (x : String × String) : Outcome Value :=
  if (spot? x.2.toList).isSome then Engine.referred <$> c.cell x.1 x.2 else .list <$> c.range x.1 x.2

def isOpen (ref : String) : Bool :=
  match Text.cutL? [':'] (Text.replace "$" "" ref).toList with
  | none => false
  | some (a, b) => !((spot? a).isSome && (spot? b).isSome)

/-- The sheets stay, and cells outside `W` keep their values; areas stay merged as they are. -/
structure Changes (W : String → Position → Prop) (c c' : Context) : Prop where
  extents : c'.extents = c.extents
  sheet : ∀ name s, c.workbook.sheet? name = some s → ∃ s', c'.workbook.sheet? name = some s' ∧
    s'.merged = s.merged ∧ ∀ q, ¬W name q → s'.value q = s.value q

namespace Changes

theorem refl (W : String → Position → Prop) (c : Context) : Changes W c c :=
  ⟨rfl, fun _ s h => ⟨s, h, rfl, fun _ _ => rfl⟩⟩

theorem mono (h : Changes W c c') (hW : ∀ name q, W name q → W' name q) : Changes W' c c' := by
  refine ⟨h.extents, fun name s hs => ?_⟩
  obtain ⟨s', hs', hmerged, hvalue⟩ := h.sheet name s hs
  exact ⟨s', hs', hmerged, fun q hq => hvalue q fun hw => hq (hW name q hw)⟩

theorem trans (h : Changes W c c') (h' : Changes W c' c'') : Changes W c c'' := by
  refine ⟨h'.extents.trans h.extents, fun name s hs => ?_⟩
  obtain ⟨s', hs', hmerged, hvalue⟩ := h.sheet name s hs
  obtain ⟨s'', hs'', hmerged', hvalue'⟩ := h'.sheet name s' hs'
  exact ⟨s'', hs'', hmerged'.trans hmerged, fun q hq => (hvalue' q hq).trans (hvalue q hq)⟩

theorem putSheet {s s' : Sheet} (hs : c.workbook.sheet? s.name = some s) (hname : s'.name = s.name)
    (hmerged : s'.merged = s.merged) (hvalue : ∀ q, ¬W s.name q → s'.value q = s.value q) :
    Changes W c { c with workbook := c.workbook.putSheet s' } := by
  refine ⟨rfl, fun name t ht => ?_⟩
  by_cases h : s'.name = name
  · rw [← h, hname, hs] at ht
    cases ht
    refine ⟨s', sheet?_putSheet_self (h ▸ hname ▸ hs) h, hmerged, fun q hq => hvalue q ?_⟩
    rwa [← hname, h]
  · exact ⟨t, (sheet?_putSheet_of_ne _ h).trans ht, rfl, fun _ _ => rfl⟩

theorem look (c : Context) (name ref : String) : Changes (fun _ _ => False) c (c.look name ref) := by
  unfold Context.look
  split
  · next s ps hs _ =>
    have hname := name_of_sheet? hs
    obtain ⟨hn, hm, hv⟩ := foldlRecOn (motive := fun t : Sheet => t.name = s.name ∧ t.merged = s.merged ∧
      ∀ q, t.value q = s.value q) ps touch ⟨rfl, rfl, fun _ => rfl⟩ fun t h p _ =>
        ⟨(name_touch t p).trans h.1, (merged_touch t p).trans h.2.1, fun q => (value_touch t p q).trans (h.2.2 q)⟩
    exact putSheet (hname ▸ hs) hn hm fun q _ => hv q
  · exact refl _ _

/-- The rectangle of a reference, if it reaches no further than the recorded cells of its sheet. -/
theorem rectangle_eq (h : Changes W c c') {s s' : Sheet} (hname : s'.name = s.name) {ref : String}
    (hopen : isOpen ref = true → (c.extent? s.name).isSome = true) : c'.rectangle s' ref = c.rectangle s ref := by
  have hextent : c'.extent? s.name = c.extent? s.name := by rw [extent?, extent?, h.extents]
  unfold Context.rectangle
  dsimp only
  rw [hname, hextent]
  unfold isOpen at hopen
  split
  · rfl
  · next a b hcut =>
    rw [hcut] at hopen
    split
    · rfl
    · next hspots =>
      have hclosed : ((spot? a).isSome && (spot? b).isSome) = false := by
        rw [Bool.and_eq_false_iff, Option.isSome_eq_false_iff, Option.isSome_eq_false_iff]
        by_contra hboth
        rw [not_or, Option.isNone_iff_eq_none, Option.isNone_iff_eq_none] at hboth
        obtain ⟨p, hp⟩ := Option.ne_none_iff_exists'.1 hboth.1
        obtain ⟨q, hq⟩ := Option.ne_none_iff_exists'.1 hboth.2
        exact hspots p q hp hq
      obtain ⟨e, he⟩ := Option.isSome_iff_exists.1 (hopen ((Bool.not_eq_true' _).mpr hclosed))
      rw [he]
      rfl

variable (h : Changes W c c') (hopen : isOpen x.2 = true → (c.extent? x.1).isSome = true)
include h hopen

theorem positions_of {ps : List Position} (hps : c.positions x.1 x.2 = .ok ps) : c'.positions x.1 x.2 = .ok ps := by
  obtain ⟨s, hs, hps⟩ := of_bind hps
  have hs := ifNone_eq_ok_iff.1 hs
  obtain ⟨s', hs', -⟩ := h.sheet _ _ hs
  obtain ⟨e, he, hps⟩ := of_bind hps
  have hname := name_of_sheet? hs
  refine bind_ok (ifNone_eq_ok_iff.2 hs') (bind_ok ?_ hps)
  rw [h.rectangle_eq ((name_of_sheet? hs').trans hname.symm) (hname ▸ hopen)]
  exact he

theorem shown_of {v : Value} (hv : c.shown x = .ok v) (hkept : ∀ ps, c.reads x = .ok ps → ∀ q ∈ ps, ¬W x.1 q) :
    c'.shown x = .ok v := by
  unfold Context.reads at hkept
  unfold shown Context.cell Context.range Context.sheet at hv ⊢
  split at hv
  · next hspot =>
    obtain ⟨u, hu, rfl⟩ := map_eq_ok_iff.1 hv
    obtain ⟨s, p, hs, hp, hu⟩ := of_bind₂ hu
    obtain ⟨s', hs', -, hvalue⟩ := h.sheet _ _ (ifNone_eq_ok_iff.1 hs)
    have hp' : ¬W x.1 p := hkept [p] (by rw [if_pos hspot, hp]; rfl) p (mem_singleton_self p)
    rw [if_pos hspot]
    refine map_eq_ok_iff.2 ⟨u, bind_ok (ifNone_eq_ok_iff.2 hs') (bind_ok hp ?_), rfl⟩
    rw [hvalue p hp']
    exact hu
  · next hspot =>
    obtain ⟨us, hus, rfl⟩ := map_eq_ok_iff.1 hv
    obtain ⟨s, ps, hs, hps, hus⟩ := of_bind₂ hus
    obtain ⟨s', hs', -, hvalue⟩ := h.sheet _ _ (ifNone_eq_ok_iff.1 hs)
    have hps' := h.positions_of hopen hps
    rw [if_neg hspot]
    refine map_eq_ok_iff.2 ⟨us, bind_ok (ifNone_eq_ok_iff.2 hs') (bind_ok hps' ?_), rfl⟩
    rw [← hus, map_congr_left fun q hq => hvalue q (hkept ps (by rw [if_neg hspot, hps]) q hq)]

end Changes

end Context

namespace Expr

variable {c c' : Context}

mutual

theorem eval_of_shown (e : Expr) {v : Value} (h : ∀ x ∈ e.refs, ∀ u, c.shown x = .ok u → c'.shown x = .ok u)
    (he : e.eval c = .ok v) : e.eval c' = .ok v := by
  cases e with
  | number | text | bool | error =>
    unfold eval at he ⊢
    exact he
  | ref sheet r =>
    unfold eval at he ⊢
    exact h (sheet, r) (mem_singleton_self _) v he
  | signed s e =>
    unfold eval at he ⊢
    obtain ⟨u, hu, he⟩ := of_bind he
    exact bind_ok (eval_of_shown e h hu) he
  | binary o a b =>
    unfold eval at he ⊢
    obtain ⟨u, u', hu, hu', he⟩ := of_bind₂ he
    have ha := eval_of_shown a (fun x hx => h x (mem_append_left _ hx)) hu
    have hb := eval_of_shown b (fun x hx => h x (mem_append_right _ hx)) hu'
    exact bind_ok ha (bind_ok hb he)
  | call name args =>
    unfold eval at he ⊢
    obtain ⟨f, us, hf, hus, he⟩ := of_bind₂ he
    exact bind_ok hf (bind_ok (evals_of_shown args h hus) he)

theorem evals_of_shown (es : List Expr) {vs : List Value}
    (h : ∀ x ∈ allRefs es, ∀ u, c.shown x = .ok u → c'.shown x = .ok u) (he : evals c es = .ok vs) :
    evals c' es = .ok vs := by
  cases es with
  | nil =>
    unfold evals at he ⊢
    exact he
  | cons e es =>
    unfold evals at he ⊢
    obtain ⟨v, us, hv, hus, he⟩ := of_bind₂ he
    have hv' := eval_of_shown e (fun x hx => h x (mem_append_left _ hx)) hv
    have hus' := evals_of_shown es (fun x hx => h x (mem_append_right _ hx)) hus
    exact bind_ok hv' (bind_ok hus' he)

end

end Expr

namespace Program

open Context (Changes)

variable {c c' : Context} {f : Place × Expr} {fs gs : List (Place × Expr)}

theorem changes_of_step (h : step c f = .ok c') : ∃ p v, Context.position f.1.cell = .ok p ∧ f.2.eval c = .ok v ∧
    Changes (fun name q => name = f.1.sheet ∧ q = p) c c' ∧
      ∃ s, c'.workbook.sheet? f.1.sheet = some s ∧ s.isHidden p = false ∧ s.value p = Cell.taken v := by
  obtain ⟨v, hv, h⟩ := of_bind h
  have hlook : Changes (fun _ _ => False) c (f.2.refs.foldl (fun c r => c.look r.1 r.2) c) :=
    foldlRecOn _ _ (Changes.refl _ c) fun k h r _ => h.trans (Changes.look k r.1 r.2)
  obtain ⟨s, p, hs, hp, h⟩ := of_bind₂ h
  obtain ⟨s', hput, h⟩ := of_bind h
  cases h
  have hs := ifNone_eq_ok_iff.1 hs
  have hname := name_of_sheet? hs
  have hname' := name_of_put hput
  refine ⟨p, v, hp, hv, (hlook.mono fun _ _ => False.elim).trans ?_, s', ?_, ?_, ?_⟩
  · refine Changes.putSheet (hname ▸ hs) hname' (merged_of_put hput) fun q hq => ?_
    rw [value_of_put hput, if_neg fun heq => hq ⟨hname, heq.symm⟩]
  · exact sheet?_putSheet_self hs (hname'.trans hname)
  · rw [isHidden, merged_of_put hput]
    exact (put_eq_ok_iff.1 hput).1
  · rw [value_of_put hput, if_pos rfl]

def Computed (fs : List (Place × Expr)) (name : String) (q : Position) : Prop :=
  ∃ f ∈ fs, name = f.1.sheet ∧ Context.position f.1.cell = .ok q

theorem Computed.mono (hsub : ∀ f ∈ fs, f ∈ gs) (name : String) (q : Position)
    (h : Computed fs name q) : Computed gs name q := by
  obtain ⟨f, hf, h⟩ := h
  exact ⟨f, hsub f hf, h⟩

theorem changes_of_run (h : fs.foldlM step c = .ok c') : Changes (Computed fs) c c' := by
  induction h using foldlM_induction with
  | nil => exact Changes.refl _ _
  | cons hk _ ih =>
    obtain ⟨p, v, hp, -, hstep, -⟩ := changes_of_step hk
    refine (hstep.mono ?_).trans (ih.mono (Computed.mono fun f => mem_cons_of_mem _))
    rintro name q ⟨rfl, rfl⟩
    exact ⟨_, mem_cons_self, rfl, hp⟩

/-- A formula that reads no cell computed with it or after it has its value at the end of the run too, and the cell
has taken it. -/
theorem eval_of_run (h : (fs ++ f :: gs).foldlM step c = .ok c')
    (hopen : ∀ x ∈ f.2.refs, Context.isOpen x.2 = true → (c.extent? x.1).isSome = true)
    (hreads : ∀ k : Context, ∀ x ∈ f.2.refs, ∀ ps, k.reads x = .ok ps → ∀ q ∈ ps, ¬Computed (f :: gs) x.1 q)
    (hlast : ∀ p, Context.position f.1.cell = .ok p → ¬Computed gs f.1.sheet p) :
    ∃ p v s, Context.position f.1.cell = .ok p ∧ f.2.eval c' = .ok v ∧ c'.workbook.sheet? f.1.sheet = some s ∧
      s.value p = Cell.taken v := by
  rw [foldlM_append] at h
  obtain ⟨k, hbefore, h⟩ := of_bind h
  have hafter := changes_of_run h
  obtain ⟨k', hstep, h⟩ := of_bind h
  obtain ⟨p, v, hp, hv, -, s, hs, -, hvalue⟩ := changes_of_step hstep
  obtain ⟨s', hs', -, hkept⟩ := (changes_of_run h).sheet _ _ hs
  refine ⟨p, v, s', hp, Expr.eval_of_shown _ (fun x hx u hu => ?_) hv, hs', (hkept p (hlast p hp)).trans hvalue⟩
  refine hafter.shown_of ?_ hu (hreads k x hx)
  rw [Context.extent?, (changes_of_run hbefore).extents]
  exact hopen x hx

end Program

end Sheetwork.Model
