import Sheetwork.Plan.Functions
import Sheetwork.Proofs.Model.Execution
/-
  Models and plans: arguments are computed before their function, those of a choice as well. A call has the value of
  its function at the values of its arguments, and none if an argument has none (`Expr.eval_call_iff`).

  Main statement: `eval_choice_iff`.
-/

open List

namespace Sheetwork

open Plan.Functions Script.Expr Model.Engine

theorem Script.Expr.eval_call_iff {sc : Scope} {f : Expr} {g : List Value → Outcome Value} {args : List Expr}
    {v : Value} (hg : (dotted? f).bind sc.function? = some g) (hargs : ∀ e ∈ args, ∀ x, e ≠ spread x) :
    (call f args []).eval sc = .ok v ↔ ∃ vs, Forall₂ (fun e v => e.eval sc = .ok v) args vs ∧ g vs = .ok v := by
  have hall : evalAll sc args = args.mapM (eval sc) := by
    induction args with
    | nil => rw [evalAll]; rfl
    | cons e es ih =>
      rw [evalAll, mapM_cons, ih fun e he => hargs e (mem_cons_of_mem _ he)]
      split
      · exact absurd rfl (hargs _ mem_cons_self _)
      · rfl
  rw [eval, hg]
  simp only [hall, bind_eq_ok_iff, mapM_eq_ok_iff]
  rw [evalNamed]
  simp

theorem Model.Expr.eval_call_iff {k : Context} {name : String} {args : List Expr} {v : Value} :
    (call name args).eval k = .ok v ↔ ∃ f, Engine.function? name = some f ∧
      ∃ vs, Forall₂ (fun e v => e.eval k = .ok v) args vs ∧ f.2.apply vs = .ok v := by
  have hall : evals k args = args.mapM (eval k) := by
    induction args with
    | nil => rw [evals]; rfl
    | cons e es ih => rw [evals, mapM_cons, ih]
  rw [eval]
  simp only [bind_eq_ok_iff, ifNone_eq_ok_iff, hall, mapM_eq_ok_iff]

/-- A choice has a value exactly if its test and both its branches have values and the test decides, and what is to
stand in for errors exactly if it and what it may replace have values. So a branch that is not taken can fail the
formula, and a failure that was to be replaced does, in models as in scripts. -/
theorem eval_choice_iff (k : Model.Context) (cells : Plan.Cells) :
    (∀ c t e v, (Model.Expr.call "IF" [c, t, e]).eval k = .ok v ↔ ∃ a b d, c.eval k = .ok a ∧ t.eval k = .ok b ∧
      e.eval k = .ok d ∧ choose a b d = .ok v) ∧
    (∀ x e v, (Model.Expr.call "IFERROR" [x, e]).eval k = .ok v ↔ ∃ a b, x.eval k = .ok a ∧ e.eval k = .ok b ∧
      (if isError a then b else a) = v) ∧
    let sc := scope cells
    (∀ c t e v, (∀ a ∈ [c, t, e], ∀ x, a ≠ .spread x) → ((call (.name "_xl_if") [c, t, e] []).eval sc =
      .ok v ↔ ∃ a b d, c.eval sc = .ok a ∧ t.eval sc = .ok b ∧ e.eval sc = .ok d ∧ (if a.truthy then b else d) = v)) ∧
    ∀ x e v, (∀ a ∈ [x, e], ∀ y, a ≠ .spread y) → ((call (.name "_xl_iferror") [x, e] []).eval sc =
      .ok v ↔ ∃ a b, x.eval sc = .ok a ∧ e.eval sc = .ok b ∧ (if isFault a then b else a) = v) := by
  have hif : function? "IF" = some ("xl_if", .choose) := by decide +kernel
  have hiferror : function? "IFERROR" = some ("xl_iferror", .unlessFaulty) := by decide +kernel
  refine ⟨fun c t e v => ?_, fun x e v => ?_, fun c t e v h => ?_, fun x e v h => ?_⟩
  · simp [Model.Expr.eval_call_iff, hif, forall₂_cons_left_iff, Model.Engine.Function.apply, and_assoc]
  · simp [Model.Expr.eval_call_iff, hiferror, forall₂_cons_left_iff, Model.Engine.Function.apply, and_assoc]
  · rw [eval_call_iff rfl h]
    simp [forall₂_cons_left_iff, three, arity, fit?, and_assoc]
  · rw [eval_call_iff rfl h]
    simp [forall₂_cons_left_iff, two, arity, fit?, and_assoc]

end Sheetwork
