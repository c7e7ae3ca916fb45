import Sheetwork.Layers.Code.Expression
import Sheetwork.Proofs.Text.Strewn
/-
  Layers: calls of `IF` are opened up one after the other. A step may bring a new call into being at its seams, but it
  takes a capital I away and puts none (`count_of_openFirst?`), so that no text can be opened up for ever, and what is
  left at the end has no call of `IF` (`openConditionals_ends`).
-/

open List Relation

namespace Sheetwork.Layers.Code

open Text

variable {s t a b : List Char}

theorem stripL_sublist (s : List Char) : stripL s <+ s := by
  have hright : (stripL s).reverse <+ (s.dropWhile isBlank).reverse := by
    rw [stripL, stripWhileL, dropRightWhileL, reverse_reverse]
    exact dropWhile_sublist _
  exact (reverse_sublist.1 hright).trans (dropWhile_sublist _)

theorem flatten_splitFrom_sublist (depth : Int) (cur s : List Char) :
    (splitFrom depth cur s).flatten <+ cur.reverse ++ s := by
  induction s generalizing depth cur with
  | nil =>
    rw [splitFrom, append_nil]
    split
    · exact nil_sublist _
    · simpa using stripL_sublist cur.reverse
  | cons c s ih =>
    have hgo (depth : Int) : (splitFrom depth (c :: cur) s).flatten <+ cur.reverse ++ c :: s := by
      simpa using ih depth (c :: cur)
    rw [splitFrom]
    split_ifs
    · exact hgo _
    · exact hgo _
    · exact (stripL_sublist _).append ((ih depth []).cons c)
    · exact hgo _

theorem count_conditional_le (inner : List Char) : (conditional inner).count 'I' ≤ inner.count 'I' := by
  have hparts : (arguments inner).flatten.count 'I' ≤ inner.count 'I' :=
    (flatten_splitFrom_sublist 0 [] inner).count_le 'I'
  rw [conditional]
  split
  · next hargs =>
    simp [hargs, count_append] at hparts ⊢
    omega
  · next hargs =>
    simp [hargs, count_append] at hparts ⊢
    omega
  · simp [count_append]

theorem eq_of_closing? {d : Nat} (h : closing? d s = some (a, b)) : s = a ++ ')' :: b := by
  induction s generalizing d a with
  | nil => cases h
  | cons c s ih =>
    rw [closing?] at h
    split at h
    · next hc =>
      cases h
      rw [Bool.and_eq_true, decide_eq_true_eq] at hc
      rw [hc.1, nil_append]
    · obtain ⟨⟨a', b'⟩, hab, he⟩ := Option.map_eq_some_iff.1 h
      cases he
      rw [ih hab, cons_append]

/-- A step takes a capital I away and puts none. -/
theorem count_of_openFirst? (h : openFirst? s = some t) : t.count 'I' < s.count 'I' := by
  obtain ⟨⟨before, after⟩, hcut, rfl⟩ := Option.map_eq_some_iff.1 h
  have hs : s.count 'I' = before.count 'I' + (after.count 'I' + 1) := by
    rw [eq_of_cutL? hcut, count_append, count_append, Nat.add_comm (count 'I' after)]
    rfl
  rw [hs]
  dsimp only
  split
  · next inner rest hclosing =>
    have hle := count_conditional_le inner
    rw [eq_of_closing? hclosing]
    simp [count_append]
    omega
  · have hle := (drop_sublist 1 after).count_le 'I'
    have hempty : (conditional []).count 'I' = 0 := Nat.le_zero.1 (count_conditional_le [])
    rw [count_append, count_append, hempty]
    omega

theorem openFirst?_eq_none_iff : openFirst? s = none ↔ ¬ "IF(".toList <:+: s := by
  rw [openFirst?, Option.map_eq_none_iff, cutL?_eq_none_iff (by simp)]

def Opens (s t : List Char) : Prop := openFirst? s = some t

theorem openFuel_ends {fuel : Nat} (h : s.count 'I' < fuel) :
    ReflTransGen Opens s (openFuel fuel s) ∧ openFirst? (openFuel fuel s) = none := by
  induction fuel generalizing s with
  | zero => exact absurd h (Nat.not_lt_zero _)
  | succ fuel ih =>
    rw [openFuel]
    split
    · next t ht =>
      have hlt := count_of_openFirst? ht
      obtain ⟨hrun, hnone⟩ := ih (s := t) (by omega)
      exact ⟨.head ht hrun, hnone⟩
    · next hnone => exact ⟨.refl, hnone⟩

/-- There is a step as long as there is a call of `IF`, no text has steps without end, and the steps from a text end
with what it is opened up to, which has no call of `IF`. -/
theorem openConditionals_ends (formula : String) : (∀ s, (∃ t, Opens s t) ↔ "IF(".toList <:+: s) ∧
    WellFounded (Function.swap Opens) ∧ ReflTransGen Opens formula.toList (openConditionals formula).toList ∧
    ¬ "IF(".toList <:+: (openConditionals formula).toList := by
  have hfuel : formula.toList.count 'I' < formula.length + 1 := Nat.lt_succ_of_le count_le_length
  have hend : (openConditionals formula).toList = openFuel (formula.length + 1) formula.toList := String.toList_ofList
  obtain ⟨hrun, hnone⟩ := openFuel_ends hfuel
  rw [← hend] at hrun hnone
  refine ⟨fun s => ?_, ?_, hrun, openFirst?_eq_none_iff.1 hnone⟩
  · rw [← not_iff_not, ← openFirst?_eq_none_iff, Option.eq_none_iff_forall_ne_some, not_exists]
    rfl
  · exact Subrelation.wf count_of_openFirst? (measure (count 'I')).wf

end Sheetwork.Layers.Code
