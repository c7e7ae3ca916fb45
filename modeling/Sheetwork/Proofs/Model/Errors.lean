import Sheetwork.Model.Context
import Sheetwork.Proofs.Outcome
/-
  Models: error values in expressions. An error passes through signs, arithmetic and joining, and a comparison stops
  it (`eval_exposed`).
-/

namespace Sheetwork.Model

open Engine

def Engine.Operator.compares : Operator → Bool
  | .eq | .ne | .gt | .ge | .lt | .le => true
  | _ => false

variable {a b u v : Value} {vs : List Value} {o : Operator}

theorem mem_flattenAll (h : isError v = true) (hv : v ∈ vs) : v ∈ Value.flattenAll vs := by
  induction vs with
  | nil => cases hv
  | cons x vs ih =>
    rw [Value.flattenAll, List.mem_append]
    rcases List.mem_cons.1 hv with rfl | hv
    · cases v with
      | text s => exact .inl (by simp [Value.flatten])
      | _ => cases h
    · exact .inr (ih hv)

theorem isError_unlessError {f : Outcome Value} (h : ∃ u ∈ vs, isError u = true)
    (hv : unlessError vs f = .ok v) : isError v = true := by
  unfold unlessError at hv
  split at hv
  · next he =>
    cases hv
    exact List.find?_some he
  · next he =>
    obtain ⟨u, hu, herror⟩ := h
    exact absurd herror (List.find?_eq_none.1 he u (mem_flattenAll herror hu))

theorem isError_apply (ho : o.compares = false) (h : isError a = true ∨ isError b = true)
    (hv : o.apply a b = .ok v) : isError v = true := by
  have hpair : ∃ u ∈ [a, b], isError u = true := by simpa using h
  cases o with
  | eq | ne | gt | ge | lt | le => cases ho
  | _ => exact isError_unlessError hpair hv

theorem exists_bool_apply (ho : o.compares = true) (hv : o.apply a b = .ok v) : ∃ t, v = .bool t := by
  have hcompare {test : Value → Value → Outcome Bool} (h : compare test a b = .ok v) : ∃ t, v = .bool t := by
    obtain ⟨x, t, -, -, h⟩ := of_bind₂ h
    exact ⟨t, (Except.ok.inj h).symm⟩
  cases o with
  | eq | ne | gt | ge | lt | le => rw [Operator.apply] at hv; exact hcompare hv
  | _ => cases ho

namespace Expr

/-- The operands that stand under signs, arithmetic and joining only. -/
def exposed : Expr → List Expr
  | signed _ e => exposed e
  | binary o a b => if o.compares then [] else exposed a ++ exposed b
  | e => [e]

theorem isError_eval (k : Context) (e : Expr) (hv : e.eval k = .ok v) {l : Expr} {w : Value}
    (hl : l ∈ e.exposed) (hw : l.eval k = .ok w) (herror : isError w = true) : isError v = true := by
  fun_induction exposed e generalizing v with
  | case1 s e ih =>
    rw [eval] at hv
    obtain ⟨u, hu, hv⟩ := of_bind hv
    have hpass := ih hu hl
    rw [Sign.apply, if_pos hpass] at hv
    exact Except.ok.inj hv ▸ hpass
  | case2 => cases hl
  | case3 o a b ho iha ihb =>
    rw [eval] at hv
    obtain ⟨x, y, hx, hy, hv⟩ := of_bind₂ hv
    refine isError_apply (Bool.eq_false_iff.2 ho) ?_ hv
    exact (List.mem_append.1 hl).imp (iha hx) (ihb hy)
  | case4 e =>
    rw [List.mem_singleton.1 hl, hv] at hw
    exact Except.ok.inj hw ▸ herror

/-- An expression with an error among its exposed operands is an error if it has a value, and what a comparison
gives is a truth value, whatever its operands are. -/
theorem eval_exposed (k : Context) :
    (∀ e v l w, eval k e = .ok v → l ∈ exposed e → eval k l = .ok w → isError w = true → isError v = true) ∧
      ∀ o a b v, o.compares = true → eval k (binary o a b) = .ok v → ∃ t, v = .bool t := by
  refine ⟨fun e v l w hv hl hw => isError_eval k e hv hl hw, fun o a b v ho hv => ?_⟩
  rw [eval] at hv
  obtain ⟨x, -, hv⟩ := bind_eq_ok_iff.1 hv
  obtain ⟨y, -, hv⟩ := bind_eq_ok_iff.1 hv
  exact exists_bool_apply ho hv

end Expr

end Sheetwork.Model
