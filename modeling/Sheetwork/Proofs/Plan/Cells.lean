import Sheetwork.Plan.Cells
import Sheetwork.Proofs.Workbook.Sheet
/-
  Plans: what setting cells does to the values of all. A cell that was set has its value (`Cells.value_set_self`),
  whether its sheet takes it or not, and the others keep theirs (`Cells.value_set_of_ne`). Many cells that are set one
  after the other have what was set, if no two values contradict each other (`Cells.value_setAll`).
-/

open List

namespace Sheetwork

namespace Plan

/-! Setting cells -/

theorem positionOf_eq_ok_iff {row col : Int} {p : Position} : positionOf row col = .ok p ↔
    1 ≤ row ∧ 1 ≤ col ∧ row ≤ Address.maxRow ∧ p = ⟨row.toNat, col.toNat⟩ := by
  unfold positionOf
  split
  · next h =>
    simp only [Bool.or_eq_true, decide_eq_true_eq] at h
    refine ⟨nofun, ?_⟩
    omega
  · next h =>
    simp only [Bool.or_eq_true, decide_eq_true_eq, not_or] at h
    refine ⟨fun hp => ⟨by omega, by omega, by omega, (Except.ok.inj hp).symm⟩, ?_⟩
    intro hp
    rw [hp.2.2.2]

def Spot.valueIn (s : Spot) (w : Workbook) : Outcome Value := do
  let sheet ← w.sheet s.sheet
  pure (sheet.value (← positionOf s.row s.col))

namespace Cells

variable {c c' : Cells} {s t : Spot} {v : Value} {xs : List (Spot × Value)}

theorem known_set : (c.set s v).1.known = c.known.insert s v := by
  unfold set
  dsimp only
  split <;> rfl

theorem value_set_self : (c.set s v).1.value s = .ok v := by
  unfold value
  rw [known_set, Std.HashMap.getElem?_insert_self]

theorem valueIn_of_written {w : Workbook} (h : c.written s v = .ok w) (hne : s ≠ t) :
    t.valueIn w = t.valueIn c.workbook := by
  obtain ⟨sheet, p, hsheet, hp, h⟩ := of_bind₂ h
  obtain ⟨sheet', hput, h⟩ := of_bind h
  cases h
  have hfound : c.workbook.sheet? s.sheet = some sheet := by
    unfold Workbook.sheet at hsheet
    cases hs : c.workbook.sheet? s.sheet with
    | none => rw [hs] at hsheet; cases hsheet
    | some x => rw [hs] at hsheet; exact congrArg some (Except.ok.inj hsheet)
  have hname : sheet'.name = s.sheet := by
    rw [Sheet.name_of_put hput]
    exact of_decide_eq_true (find?_some (p := fun x : Sheet => decide (x.name = s.sheet)) hfound)
  unfold Spot.valueIn Workbook.sheet
  rw [Workbook.sheet?_putSheet, hname]
  split
  · next hsame =>
    rw [hsame, hfound]
    -- on the sheet itself another cell is another position
    cases hq : positionOf t.row t.col with
    | error e => rfl
    | ok q =>
      have hpq : p ≠ q := by
        rintro rfl
        obtain ⟨hr, hc, -, rfl⟩ := positionOf_eq_ok_iff.1 hp
        obtain ⟨hr', hc', -, heq⟩ := positionOf_eq_ok_iff.1 hq
        rw [Position.mk.injEq] at heq
        refine hne ?_
        obtain ⟨a, b, d⟩ := s
        simp only at hsame hr hc hr' hc' heq
        rw [Spot.mk.injEq]
        exact ⟨hsame.symm, by omega, by omega⟩
      show Except.ok (sheet'.value q) = Except.ok (sheet.value q)
      rw [Sheet.value_of_put hput, if_neg hpq]
  · rfl

theorem value_set_of_ne (c : Cells) (v : Value) (hne : s ≠ t) : (c.set s v).1.value t = c.value t := by
  have hbeq : (s == t) = false := by simpa using hne
  unfold value
  rw [known_set, Std.HashMap.getElem?_insert, hbeq]
  cases c.known[t]? with
  | some u => rfl
  | none =>
    show t.valueIn (c.set s v).1.workbook = t.valueIn c.workbook
    unfold set
    dsimp only
    split
    · next w hw => exact valueIn_of_written hw hne
    · rfl

def setAll (c : Cells) (xs : List (Spot × Value)) : Cells := xs.foldl (fun c x => (c.set x.1 x.2).1) c

theorem setAll_append (xs ys : List (Spot × Value)) : c.setAll (xs ++ ys) = (c.setAll xs).setAll ys := foldl_append

theorem value_setAll_of_not_mem (h : ∀ x ∈ xs, x.1 ≠ t) (c : Cells) : (c.setAll xs).value t = c.value t := by
  refine foldlRecOn (motive := fun c' : Cells => c'.value t = c.value t) _ _ rfl fun c' hc' x hx => ?_
  rw [value_set_of_ne c' x.2 (h x hx), hc']

theorem value_setAll (hx : (s, v) ∈ xs) (hsame : ∀ x ∈ xs, x.1 = s → x.2 = v)
    (c : Cells) : (c.setAll xs).value s = .ok v := by
  induction xs generalizing c with
  | nil => cases hx
  | cons y ys ih =>
    have hrest : ∀ x ∈ ys, x.1 = s → x.2 = v := fun x hx => hsame x (mem_cons_of_mem _ hx)
    by_cases hys : (s, v) ∈ ys
    · exact ih hys hrest _
    · obtain rfl : (s, v) = y := (mem_cons.1 hx).resolve_right hys
      have hlater : ∀ x ∈ ys, x.1 ≠ s := by
        intro x hx heq
        have hxv : x = (s, v) := Prod.ext heq (hrest x hx heq)
        exact hys (hxv ▸ hx)
      show ((c.set s v).1.setAll ys).value s = .ok v
      rw [value_setAll_of_not_mem hlater, value_set_self]

theorem exists_setAll_foldl {α : Type} {f : Cells → α → Cells} {R : α → Spot × Value → Prop} (xs : List α)
    (h : ∀ x ∈ xs, ∀ c, ∃ zs, f c x = c.setAll zs ∧ ∀ z, z ∈ zs ↔ R x z) (c : Cells) :
    ∃ zs, xs.foldl f c = c.setAll zs ∧ ∀ z, z ∈ zs ↔ ∃ x ∈ xs, R x z := by
  induction xs generalizing c with
  | nil => exact ⟨[], rfl, by simp⟩
  | cons x xs ih =>
    obtain ⟨zs, hzs, hmem⟩ := h x mem_cons_self c
    obtain ⟨zs', hzs', hmem'⟩ := ih (fun y hy => h y (mem_cons_of_mem _ hy)) (f c x)
    refine ⟨zs ++ zs', ?_, fun z => ?_⟩
    · rw [foldl_cons, hzs', hzs, setAll_append]
    · rw [mem_append, hmem, hmem', exists_mem_cons_iff]

end Cells

end Plan

end Sheetwork
