import Mathlib
import Sheetwork.Fault
/-
  Outcomes: what a computation with a result has computed on the way. A sequence has a result if both parts have one
  (`bind_eq_ok_iff`), a map over a list if every element has one (`mapM_eq_ok_iff`), and what a fold does is shown
  step by step (`foldlM_induction`, `foldlM_invariant`). What has been entered one after the other is looked up under
  its key (`getElem?_entered`).
-/

open List

namespace Sheetwork

variable {ε α β : Type} {x : Except ε α} {a : α} {f : α → Except ε β} {b : β} {Q : β → Prop}

theorem bind_eq_ok_iff : x >>= f = .ok b ↔ ∃ a, x = .ok a ∧ f a = .ok b := by
  cases x with
  | error e =>
    refine ⟨nofun, ?_⟩
    rintro ⟨a, ⟨⟩, -⟩
  | ok a =>
    refine ⟨fun h => ⟨a, rfl, h⟩, ?_⟩
    rintro ⟨_, ⟨⟩, h⟩
    exact h

theorem bind_ok (hx : x = .ok a) (h : f a = .ok b) : x >>= f = .ok b := bind_eq_ok_iff.2 ⟨a, hx, h⟩

theorem of_bind (h : x >>= f = .ok b) : ∃ a, x = .ok a ∧ f a = .ok b := bind_eq_ok_iff.1 h

theorem of_bind₂ {γ : Type} {g : α → β → Except ε γ} {c : γ} (h : (x >>= fun a => f a >>= g a) = .ok c) :
    ∃ a b, x = .ok a ∧ f a = .ok b ∧ g a b = .ok c := by
  obtain ⟨a, ha, h⟩ := of_bind h
  obtain ⟨b, hb, h⟩ := of_bind h
  exact ⟨a, b, ha, hb, h⟩

theorem exists_bind {P : α → Prop} (hx : ∃ a, x = .ok a ∧ P a)
    (hf : ∀ a, P a → ∃ b, f a = .ok b ∧ Q b) : ∃ b, x >>= f = .ok b ∧ Q b := by
  obtain ⟨a, rfl, ha⟩ := hx
  exact hf a ha

theorem map_eq_ok_iff {f : α → β} : f <$> x = .ok b ↔ ∃ a, x = .ok a ∧ f a = b := by
  rw [map_eq_pure_bind, bind_eq_ok_iff]
  simp only [pure, Except.pure, Except.ok.injEq]

theorem ifNone_eq_ok_iff {f : Fault} {o : Option α} : f.ifNone o = .ok a ↔ o = some a := by
  cases o with
  | none => exact ⟨nofun, nofun⟩
  | some b => exact ⟨fun h => congrArg some (Except.ok.inj h), fun h => congrArg Except.ok (Option.some.inj h)⟩

theorem eq_ok_of_toOption (h : x.toOption = some a) : x = .ok a := by
  cases x with
  | error _ => cases h
  | ok _ => exact congrArg _ (Option.some.inj h)

variable {l : List α} {bs : List β} {R : α → β → Prop} {p : α → Bool} {i : Nat}

theorem exists_ok_of_any (h : x.toOption.any p = true) : ∃ a, x = .ok a ∧ p a = true := by
  obtain ⟨a, ha, hp⟩ := (Option.any_eq_true _ _).1 h
  exact ⟨a, eq_ok_of_toOption ha, hp⟩

theorem mapM_ok {g : α → β} (h : ∀ x ∈ l, f x = .ok (g x)) : l.mapM f = .ok (l.map g) := by
  induction l with
  | nil => rfl
  | cons x l ih =>
    rw [mapM_cons, h x mem_cons_self, ih fun y hy => h y (mem_cons_of_mem _ hy)]
    rfl

theorem foldlM_ok {f : β → α → Except ε β} {g : β → α → β} (h : ∀ b, ∀ x ∈ l, f b x = .ok (g b x)) (b : β) :
    l.foldlM f b = .ok (l.foldl g b) := by
  induction l generalizing b with
  | nil => rfl
  | cons x l ih =>
    rw [foldlM_cons, h b x mem_cons_self]
    exact ih (fun b y hy => h b y (mem_cons_of_mem _ hy)) (g b x)

theorem mapM_eq_ok_iff : l.mapM f = .ok bs ↔ Forall₂ (fun x b => f x = .ok b) l bs := by
  induction l generalizing bs with
  | nil =>
    rw [forall₂_nil_left_iff]
    exact ⟨fun h => (Except.ok.inj h).symm, fun h => by rw [h]; rfl⟩
  | cons x l ih =>
    rw [mapM_cons, bind_eq_ok_iff, forall₂_cons_left_iff]
    constructor
    · rintro ⟨b, hb, h⟩
      obtain ⟨cs, hcs, h⟩ := of_bind h
      cases h
      exact ⟨b, cs, hb, ih.1 hcs, rfl⟩
    · rintro ⟨b, cs, hb, hcs, rfl⟩
      exact ⟨b, hb, bind_ok (ih.2 hcs) rfl⟩

theorem lt_of_getElem? (h : l[i]? = some a) : i < l.length := (List.getElem?_eq_some_iff.1 h).1

theorem exists_getElem?_right (h : Forall₂ R l bs) {x : α} (hx : l[i]? = some x) : ∃ b, bs[i]? = some b ∧ R x b := by
  obtain ⟨hi, rfl⟩ := List.getElem?_eq_some_iff.1 hx
  have hi' : i < bs.length := h.length_eq ▸ hi
  exact ⟨bs[i], getElem?_eq_getElem hi', h.get hi hi'⟩

theorem exists_of_mem_left (h : Forall₂ R l bs) {x : α} (hx : x ∈ l) : ∃ b ∈ bs, R x b := by
  obtain ⟨i, hi⟩ := getElem?_of_mem hx
  obtain ⟨b, hb, hr⟩ := exists_getElem?_right h hi
  exact ⟨b, mem_of_getElem? hb, hr⟩

theorem exists_of_mem_right (h : Forall₂ R l bs) (hb : b ∈ bs) : ∃ x ∈ l, R x b :=
  exists_of_mem_left (Forall₂.flip h) hb

theorem forall₂_range {P : Nat → α → Prop} (h : ∀ i x, l[i]? = some x → P i x) : Forall₂ P (range l.length) l := by
  refine forall₂_iff_get.2 ⟨length_range, fun i hi hi' => ?_⟩
  rw [get_eq_getElem, getElem_range]
  exact h i _ (getElem?_eq_getElem hi')

theorem exists_of_mapM_ok (h : l.mapM f = .ok bs) : ∀ x ∈ l, ∃ b, f x = .ok b := by
  intro x hx
  obtain ⟨b, -, hb⟩ := exists_of_mem_left (mapM_eq_ok_iff.1 h) hx
  exact ⟨b, hb⟩

theorem exists_mapM_ok (h : ∀ x ∈ l, ∃ b, f x = .ok b) : ∃ bs, l.mapM f = .ok bs := by
  induction l with
  | nil => exact ⟨[], rfl⟩
  | cons x l ih =>
    obtain ⟨⟨b, hb⟩, hl⟩ := forall_mem_cons.1 h
    obtain ⟨bs, hbs⟩ := ih hl
    exact ⟨b :: bs, mapM_eq_ok_iff.2 (.cons hb (mapM_eq_ok_iff.1 hbs))⟩

theorem mem_filterMapM_iff {f : α → Except ε (Option β)} (h : l.filterMapM f = .ok bs) :
    b ∈ bs ↔ ∃ x ∈ l, f x = .ok (some b) := by
  induction l generalizing bs with
  | nil =>
    cases h
    simp
  | cons y l ih =>
    rw [filterMapM_cons] at h
    obtain ⟨o, ho, h⟩ := of_bind h
    cases o with
    | none =>
      rw [ih h, exists_mem_cons_iff, ho]
      simp
    | some c =>
      obtain ⟨cs, hcs, h⟩ := of_bind h
      cases h
      rw [mem_cons, ih hcs, exists_mem_cons_iff, ho, Except.ok.injEq, Option.some.injEq, eq_comm]

theorem foldl_iff {P : β → Prop} {Q : α → Prop} {f : β → α → β} (h : ∀ b a, P (f b a) ↔ Q a ∨ P b) :
    P (l.foldl f b) ↔ (∃ a ∈ l, Q a) ∨ P b := by
  induction l generalizing b with
  | nil => simp
  | cons a l ih =>
    rw [foldl_cons, ih, h, exists_mem_cons_iff]
    exact or_left_comm.trans or_assoc.symm

variable {f g : β → α → Except ε β} {P : β → Prop} {b b' : β}

/-- To show what a fold with a result has done, go on from each step. -/
@[elab_as_elim]
theorem foldlM_induction {motive : ∀ l b, foldlM f b l = .ok b' → Prop} (nil : motive [] b' rfl)
    (cons : ∀ {a l b c} (ha : f b a = .ok c) h, motive l c h → motive (a :: l) b (bind_ok ha h))
    (h : l.foldlM f b = .ok b') : motive l b h := by
  induction l generalizing b with
  | nil =>
    cases h
    exact nil
  | cons a l ih =>
    obtain ⟨c, ha, h⟩ := of_bind h
    exact cons ha h (ih h)

theorem foldlM_invariant (hstep : ∀ b b' a, a ∈ l → P b → f b a = .ok b' → P b') (hb : P b)
    (h : l.foldlM f b = .ok b') : P b' := by
  induction h using foldlM_induction with
  | nil => exact hb
  | cons ha _ ih => exact ih (fun b b' x hx => hstep b b' x (mem_cons_of_mem _ hx)) (hstep _ _ _ mem_cons_self hb ha)

theorem foldlM_append_cons {r : List α} (h : (l ++ a :: r).foldlM f b = .ok b') :
    ∃ c d, l.foldlM f b = .ok c ∧ f c a = .ok d ∧ r.foldlM f d = .ok b' := by
  simp only [foldlM_append, foldlM_cons] at h
  exact of_bind₂ h

/-- A fold over elements with keys of their own turns what holds before one of them into what holds behind it, if the
others keep both. -/
theorem foldlM_through {κ : Type} {k : α → κ} (hd : (l.map k).Nodup) (ha : a ∈ l)
    (hbefore : ∀ b b' x, x ∈ l → k x ≠ k a → P b → f b x = .ok b' → P b') (hat : ∀ b b', P b → f b a = .ok b' → Q b')
    (hafter : ∀ b b' x, x ∈ l → k x ≠ k a → Q b → f b x = .ok b' → Q b') (hb : P b)
    (h : l.foldlM f b = .ok b') : Q b' := by
  obtain ⟨u, v, rfl⟩ := append_of_mem ha
  rw [map_append, map_cons, nodup_middle, nodup_cons, ← map_append] at hd
  have hne : ∀ x ∈ u ++ v, k x ≠ k a := fun x hx heq => hd.1 (heq ▸ mem_map_of_mem hx)
  obtain ⟨c, d, hc, hcd, hv⟩ := foldlM_append_cons h
  have hP : P c := foldlM_invariant
    (fun b b' x hx => hbefore b b' x (mem_append_left _ hx) (hne x (mem_append_left _ hx))) hb hc
  exact foldlM_invariant (fun b b' x hx => hafter b b' x (mem_append_right _ (mem_cons_of_mem _ hx))
    (hne x (mem_append_right _ hx))) (hat c d hP hcd) hv

theorem exists_foldlM (hstep : ∀ b, ∀ a ∈ l, P b → ∃ b', f b a = .ok b' ∧ P b') (hb : P b) :
    ∃ b', l.foldlM f b = .ok b' ∧ P b' := by
  induction l generalizing b with
  | nil => exact ⟨b, rfl, hb⟩
  | cons a l ih =>
    obtain ⟨c, hc, hP⟩ := hstep b a mem_cons_self hb
    rw [foldlM_cons, hc]
    exact ih (fun b x hx => hstep b x (mem_cons_of_mem _ hx)) hP

theorem foldlM_fixed (h : ∀ a ∈ l, f b a = .ok b) : l.foldlM f b = .ok b := by
  obtain ⟨_, hall, rfl⟩ := exists_foldlM (f := f) (P := (· = b)) (fun _ a ha hb => ⟨b, by rw [hb, h a ha], rfl⟩) rfl
  exact hall

theorem foldlM_congr_mem (h : ∀ b, ∀ a ∈ l, f b a = g b a) (b : β) : l.foldlM f b = l.foldlM g b := by
  induction l generalizing b with
  | nil => rfl
  | cons a l ih =>
    rw [foldlM_cons, foldlM_cons, h b a mem_cons_self]
    exact bind_congr fun c => ih (fun b x hx => h b x (mem_cons_of_mem _ hx)) c

/-! Tables that are filled entry by entry -/

theorem find?_eq_some_of_unique {x : α} (hx : x ∈ l) (hp : p x) (h : ∀ y ∈ l, p y → y = x) : l.find? p = some x := by
  cases hfind : l.find? p with
  | none => exact absurd hp (find?_eq_none.1 hfind x hx)
  | some y => rw [h y (mem_of_find?_eq_some hfind) (find?_some hfind)]

section

variable {κ ν : Type} [BEq κ] [Hashable κ] [LawfulBEq κ] [LawfulHashable κ] {f : α → κ} {g : α → ν}

/-- Of two entries under one key the later counts. -/
theorem getElem?_foldl_enter (l : List α) (m : Std.HashMap κ ν) (k : κ) :
    (l.foldl (fun m x => m.insert (f x) (g x)) m)[k]? = ((l.reverse.find? fun x => f x == k).map g).or m[k]? := by
  induction l generalizing m with
  | nil => rfl
  | cons x l ih =>
    rw [foldl_cons, ih, reverse_cons, find?_append, Std.HashMap.getElem?_insert]
    cases l.reverse.find? fun x => f x == k with
    | some y => rfl
    | none =>
      simp only [Option.map_none, Option.none_or, find?_singleton]
      by_cases hx : f x == k
      · rw [if_pos hx, if_pos hx]
        rfl
      · rw [if_neg hx, if_neg hx]
        rfl

/-- What is found in a table whose entries do not contradict each other. -/
theorem getElem?_entered (h : ∀ x ∈ l, ∀ y ∈ l, f x = f y → g x = g y) {k : κ} {v : ν} :
    (l.foldl (fun m x => m.insert (f x) (g x)) (∅ : Std.HashMap κ ν))[k]? = some v ↔ ∃ x ∈ l, f x = k ∧ g x = v := by
  rw [getElem?_foldl_enter, Std.HashMap.getElem?_empty, Option.or_none, Option.map_eq_some_iff]
  constructor
  · rintro ⟨x, hx, hv⟩
    have hkey : (f x == k) = true := find?_some (p := fun x => f x == k) hx
    exact ⟨x, mem_reverse.1 (mem_of_find?_eq_some hx), eq_of_beq hkey, hv⟩
  · rintro ⟨x, hx, hkey, hv⟩
    cases hfind : l.reverse.find? fun x => f x == k with
    | none => exact absurd (beq_of_eq hkey) (find?_eq_none.1 hfind x (mem_reverse.2 hx))
    | some y =>
      have hy : y ∈ l := mem_reverse.1 (mem_of_find?_eq_some hfind)
      have hykey : f y = k := eq_of_beq (find?_some (p := fun x => f x == k) hfind)
      exact ⟨y, rfl, (h y hy x hx (hykey.trans hkey.symm)).trans hv⟩

end

theorem nodup_eraseDups [DecidableEq α] : ∀ l : List α, l.eraseDups.Nodup
  | [] => by simp
  | a :: l => by
    rw [eraseDups_cons, nodup_cons]
    exact ⟨by simp, nodup_eraseDups _⟩
termination_by l => l.length
decreasing_by exact Nat.lt_succ_of_le (length_filter_le _ _)

end Sheetwork
