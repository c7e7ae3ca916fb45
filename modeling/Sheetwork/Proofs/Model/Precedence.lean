import Sheetwork.Model.Expr
import Sheetwork.Proofs.Outcome
/-
  Models: how formulas are read. A phrase is a formula with its brackets, and a table of bindings says which phrases
  need no more of them (`Fits`). A reading by a table gives the meaning of every phrase that fits it
  (`expression_whole`), so no two such phrases of one text differ in meaning. The table of spreadsheets binds signs
  before percent signs and powers to the left; the table in use does neither, and what it reads is the phrase with
  these turned around (`fits_turned`). That changes the meaning of every phrase that has one of them outside brackets
  (`plain_of_expr`).
-/

open List

namespace Sheetwork.Model

open Engine Formula

/-! Phrases -/

mutual

/-- A formula with its brackets. -/
inductive Phrase where
  | operand (k : OperandKind) (s : String)
  | enclosed (t : Phrase)
  /-- A call without arguments. -/
  | bare (name : String)
  | call (name : String) (args : Phrases)
  | signed (minus : Bool) (t : Phrase)
  | percent (t : Phrase)
  | binary (o : Operator) (a b : Phrase)

inductive Phrases where
  | last (t : Phrase)
  | more (t : Phrase) (rest : Phrases)

end

def Engine.Operator.mark (o : Operator) : String := ((operators.find? (·.2.2 = o)).map (·.1)).getD ""

theorem ofMark?_mark (o : Operator) : Operator.ofMark? o.mark = some o := by cases o <;> decide

mutual

def Phrase.lexemes : Phrase → List Lexeme
  | .operand k s => [⟨.operand k, s⟩]
  | .enclosed t => ⟨.opening .term, "("⟩ :: (t.lexemes ++ [⟨.closing .term, ")"⟩])
  | .bare name => [⟨.opening .arguments, name⟩, ⟨.closing .arguments, ")"⟩]
  | .call name args => ⟨.opening .arguments, name⟩ :: (args.lexemes ++ [⟨.closing .arguments, ")"⟩])
  | .signed minus t => ⟨.sign, if minus then "-" else "+"⟩ :: t.lexemes
  | .percent t => t.lexemes ++ [⟨.percent, "%"⟩]
  | .binary o a b => a.lexemes ++ ⟨.operator, o.mark⟩ :: b.lexemes

def Phrases.lexemes : Phrases → List Lexeme
  | .last t => t.lexemes
  | .more t rest => t.lexemes ++ ⟨.comma, ","⟩ :: rest.lexemes

end

mutual

/-- What a phrase means; its operands are read from left to right. -/
def Phrase.expr (p : Place) : Phrase → Outcome Expr
  | .operand k s => Expr.ofOperand p k s
  | .enclosed t => t.expr p
  | .bare name => .ok (.call (Expr.functionName (Text.dropLast 1 name)) [])
  | .call name args => do pure (.call (Expr.functionName (Text.dropLast 1 name)) (← args.exprs p))
  | .signed minus t => do pure (.signed (if minus then .minus else .plus) (← t.expr p))
  | .percent t => do pure (.signed .percent (← t.expr p))
  | .binary o a b => do
    let a ← a.expr p
    pure (.binary o a (← b.expr p))

def Phrases.exprs (p : Place) : Phrases → Outcome (List Expr)
  | .last t => do pure [← t.expr p]
  | .more t rest => do
    let e ← t.expr p
    pure (e :: (← rest.exprs p))

end

namespace Expr

/-! Tables of bindings -/

variable (b : Binding)

/-- An operator of this strength behind the phrase does not belong to its last operand. -/
def Shut (strength : Nat) : Phrase → Prop
  | .signed _ t => strength < b.sign ∧ Shut strength t
  | .binary o _ r => strength < (b.operator o).2 ∧ Shut strength r
  | _ => True

mutual

/-- Operands outside brackets bind at least as tightly as the operators that they belong to. -/
def Fits : Nat → Phrase → Prop
  | _, .operand _ _ | _, .bare _ => True
  | _, .enclosed t => Fits 0 t
  | _, .call _ args => AllFit args
  | _, .signed _ t => Fits b.sign t
  | least, .percent t => least ≤ b.percent ∧ Shut b b.percent t ∧ Fits least t
  | least, .binary o l r =>
    least ≤ (b.operator o).1 ∧ Shut b (b.operator o).1 l ∧ Fits least l ∧ Fits (b.operator o).2 r

def AllFit : Phrases → Prop
  | .last t => Fits 0 t
  | .more t rest => Fits 0 t ∧ AllFit rest

end

/-- What follows a phrase: nothing, something that ends it, or an operator of a strength. -/
inductive Next : List Lexeme → Option Nat → Prop
  | nil : Next [] none
  | closing {t : Lexeme} {ts : List Lexeme} (h : closes t = true) : Next (t :: ts) none
  | percent (ts : List Lexeme) : Next (⟨.percent, "%"⟩ :: ts) (some b.percent)
  | operator (o : Operator) (ts : List Lexeme) : Next (⟨.operator, o.mark⟩ :: ts) (some (b.operator o).1)

/-- The operators on the left edge of a phrase. -/
def spine : Phrase → Nat
  | .percent t => spine t + 1
  | .binary _ l _ => spine l + 1
  | _ => 0

variable {b} {p : Place} {ts : List Lexeme} {m : Option Nat} {least fuel s : Nat} {t : Phrase} {o : Operator} {e : Expr}

open Phrase (lexemes expr)

attribute [local simp] lexemes Phrases.lexemes expression operations operand arguments

theorem spine_lt (t : Phrase) : spine t < t.lexemes.length := by
  cases t with
  | percent t =>
    have := spine_lt t
    simp only [spine, lexemes, length_append, length_singleton]
    omega
  | binary o l r =>
    have := spine_lt l
    simp only [spine, lexemes, length_append, length_cons]
    omega
  | _ => simp [spine, lexemes]

theorem operations_stop (h : Next b ts m) (hm : ∀ s ∈ m, s < least) (e : Expr) :
    operations b p (fuel + 1) least e ts = .ok (e, ts) := by
  cases h with
  | nil => rfl
  | closing h => rw [operations, if_pos h]
  | percent => exact if_pos (hm _ rfl)
  | operator o =>
    rw [operations, if_neg (show ¬closes ⟨.operator, o.mark⟩ = true from nofun)]
    rw [ofMark?_mark]
    exact if_pos (hm _ rfl)

theorem operations_percent (h : least ≤ b.percent) (e : Expr) :
    operations b p (fuel + 1) least e (⟨.percent, "%"⟩ :: ts) = operations b p fuel least (.signed .percent e) ts := by
  exact if_neg (Nat.not_lt.2 h)

theorem operations_operator (h : least ≤ (b.operator o).1) (e : Expr) :
    operations b p (fuel + 1) least e (⟨.operator, o.mark⟩ :: ts) = expression b p fuel (b.operator o).2 ts >>= fun r =>
        operations b p fuel least (.binary o e r.1) r.2 := by
  rw [operations, if_neg (show ¬closes ⟨.operator, o.mark⟩ = true from nofun)]
  rw [ofMark?_mark]
  exact if_neg (Nat.not_lt.2 h)

theorem exists_lexemes_eq_cons (t : Phrase) : ∃ c cs, t.lexemes = c :: cs ∧ c.kind ≠ .closing .arguments := by
  cases t with
  | percent t =>
    obtain ⟨c, cs, h, hc⟩ := exists_lexemes_eq_cons t
    exact ⟨c, cs ++ [_], by rw [lexemes, h]; rfl, hc⟩
  | binary o l r =>
    obtain ⟨c, cs, h, hc⟩ := exists_lexemes_eq_cons l
    exact ⟨c, cs ++ _, by rw [lexemes, h]; rfl, hc⟩
  | _ => exact ⟨_, _, rfl, nofun⟩

theorem exists_argument_eq_cons (args : Phrases) : ∃ c cs, args.lexemes = c :: cs ∧ c.kind ≠ .closing .arguments := by
  cases args with
  | last t => exact exists_lexemes_eq_cons t
  | more t rest =>
    obtain ⟨c, cs, h, hc⟩ := exists_lexemes_eq_cons t
    exact ⟨c, cs ++ _, by rw [Phrases.lexemes, h]; rfl, hc⟩

theorem expression_of_operand (hspine : spine t = 0)
    (h : operand b p fuel (t.lexemes ++ ts) = t.expr p >>= fun e => .ok (e, ts)) (least : Nat) :
    expression b p (fuel + 1) least (t.lexemes ++ ts) =
      t.expr p >>= fun e => operations b p (fuel - spine t) least e ts := by
  rw [expression, h, hspine]
  cases t.expr p <;> rfl

/-- Behind a phrase that is read in full the reading stops at what binds less tightly. -/
theorem bind_operations_stop {x : Outcome Expr} (h : Next b ts m) (hm : ∀ s ∈ m, s < least) (hfuel : 0 < fuel) :
    (x >>= fun e => operations b p fuel least e ts) = x >>= fun e => .ok (e, ts) := by
  obtain ⟨fuel, rfl⟩ := Nat.exists_eq_add_one.2 hfuel
  simp only [operations_stop h hm]

mutual

/-- A phrase is read up to its end, and the reading goes on with what follows. -/
theorem expression_lexemes (t : Phrase) (fuel : Nat) {least : Nat} (ht : Fits b least t) {ts : List Lexeme}
    {m : Option Nat} (hnext : Next b ts m) (hm : ∀ s ∈ m, Shut b s t) (hfuel : 2 * t.lexemes.length ≤ fuel) :
    expression b p (fuel + 1) least (t.lexemes ++ ts) =
      t.expr p >>= fun e => operations b p (fuel - spine t) least e ts := by
  have hspine := spine_lt t
  cases t with
  | operand | bare =>
    obtain ⟨fuel, rfl⟩ := Nat.exists_eq_add_one.2 (show 0 < fuel by omega)
    exact expression_of_operand rfl rfl _
  | enclosed t =>
    have hlt := spine_lt t
    simp only [lexemes, length_cons, length_append, length_nil] at hfuel
    obtain ⟨fuel, rfl⟩ := Nat.exists_eq_add_of_le' (show 2 ≤ fuel by omega)
    refine expression_of_operand rfl ?_ _
    have hclose : Next b (⟨.closing .term, ")"⟩ :: ts) none := .closing rfl
    rw [lexemes, cons_append, append_assoc, operand]
    dsimp only
    rw [singleton_append, expression_lexemes t _ ht hclose nofun (by omega),
      bind_operations_stop hclose nofun (by omega), expr]
    cases t.expr p <;> rfl
  | call name args =>
    simp only [lexemes, length_cons, length_append, length_nil] at hfuel
    obtain ⟨fuel, rfl⟩ := Nat.exists_eq_add_of_le' (show 3 ≤ fuel by omega)
    refine expression_of_operand rfl ?_ _
    obtain ⟨c, cs, hargs, hc⟩ := exists_argument_eq_cons args
    have hread := arguments_lexemes args fuel ht ts (by omega) (functionName (Text.dropLast 1 name)) []
    rw [hargs, cons_append] at hread
    rw [lexemes, hargs, cons_append, append_assoc, singleton_append, cons_append, operand]
    dsimp only
    rw [if_neg hc, hread, expr]
    cases args.exprs p <;> rfl
  | signed minus t =>
    have hlt := spine_lt t
    simp only [lexemes, length_cons] at hfuel
    obtain ⟨fuel, rfl⟩ := Nat.exists_eq_add_of_le' (show 2 ≤ fuel by omega)
    refine expression_of_operand rfl ?_ _
    rw [lexemes, cons_append, operand]
    dsimp only
    rw [expression_lexemes t _ ht hnext (fun s hs => (hm s hs).2) (by omega),
      bind_operations_stop hnext (fun s hs => (hm s hs).1) (by omega), expr]
    cases t.expr p <;> cases minus <;> rfl
  | percent t =>
    obtain ⟨hleast, hshut, ht⟩ := ht
    have hlt := spine_lt t
    simp only [lexemes, length_append, length_singleton] at hfuel
    obtain ⟨rest, hrest⟩ := Nat.exists_eq_add_one.2 (show 0 < fuel - spine t by omega)
    have hleft := expression_lexemes t fuel ht (.percent ts) (by rintro s ⟨⟩; exact hshut) (by omega)
    rw [lexemes, append_assoc, singleton_append, hleft, hrest, expr, spine, Nat.sub_succ, hrest]
    cases t.expr p with
    | error f => rfl
    | ok e => exact operations_percent hleast e
  | binary o l r =>
    obtain ⟨hleast, hshut, hl, hr⟩ := ht
    have hlt := spine_lt l
    have hlt' := spine_lt r
    simp only [lexemes, length_append, length_cons] at hfuel
    obtain ⟨rest, hrest⟩ := Nat.exists_eq_add_of_le' (show 2 ≤ fuel - spine l by omega)
    have hleft := expression_lexemes l fuel hl (.operator o (r.lexemes ++ ts)) (by rintro s ⟨⟩; exact hshut) (by omega)
    have hright := expression_lexemes r rest hr hnext (fun s hs => (hm s hs).2) (by omega)
    rw [bind_operations_stop hnext (fun s hs => (hm s hs).1) (by omega)] at hright
    rw [lexemes, append_assoc, cons_append, hleft, hrest, expr, spine, Nat.sub_succ, hrest]
    cases l.expr p with
    | error f => rfl
    | ok e =>
      show operations b p (rest + 1 + 1) least e _ = _
      rw [operations_operator hleast, hright]
      cases r.expr p <;> rfl

theorem arguments_lexemes (args : Phrases) (fuel : Nat) (h : AllFit b args) (ts : List Lexeme)
    (hfuel : 2 * args.lexemes.length ≤ fuel) (name : String) (acc : List Expr) :
    arguments b p (fuel + 2) name acc (args.lexemes ++ ⟨.closing .arguments, ")"⟩ :: ts) =
      args.exprs p >>= fun es => .ok (.call name (acc.reverse ++ es), ts) := by
  cases args with
  | last t =>
    have hlt := spine_lt t
    have hclose : Next b (⟨.closing .arguments, ")"⟩ :: ts) none := .closing rfl
    simp only [Phrases.lexemes] at hfuel
    rw [Phrases.lexemes, arguments, expression_lexemes t _ h hclose nofun hfuel,
      bind_operations_stop hclose nofun (by omega), Phrases.exprs]
    cases t.expr p with
    | error f => rfl
    | ok e =>
      show Except.ok (Expr.call name (e :: acc).reverse, ts) = _
      rw [reverse_cons]
      rfl
  | more t rest =>
    have hlt := spine_lt t
    simp only [Phrases.lexemes, length_append, length_cons] at hfuel
    obtain ⟨fuel, rfl⟩ := Nat.exists_eq_add_one.2 (show 0 < fuel by omega)
    have hnext : Next b (⟨.comma, ","⟩ :: (rest.lexemes ++ ⟨.closing .arguments, ")"⟩ :: ts)) none := .closing rfl
    rw [Phrases.lexemes, append_assoc, cons_append, arguments,
      expression_lexemes t _ h.1 hnext nofun (by omega), bind_operations_stop hnext nofun (by omega),
      Phrases.exprs]
    cases t.expr p with
    | error f => rfl
    | ok e =>
      have hrest := arguments_lexemes rest fuel h.2 ts (by omega) name (e :: acc)
      simp only [reverse_cons, append_assoc, singleton_append] at hrest
      exact hrest.trans (by cases rest.exprs p <;> rfl)

end

theorem expression_whole (ht : Fits b 0 t) (hfuel : 2 * t.lexemes.length < fuel) :
    expression b p fuel 0 t.lexemes = t.expr p >>= fun e => .ok (e, []) := by
  have hlt := spine_lt t
  obtain ⟨fuel, rfl⟩ := Nat.exists_eq_add_one.2 (show 0 < fuel by omega)
  have hread := expression_lexemes t fuel ht (p := p) .nil nofun (by omega)
  rw [append_nil] at hread
  rw [hread, bind_operations_stop .nil nofun (by omega)]

theorem ofLexemes_of_fits (ht : Fits binding 0 t) : ofLexemes p t.lexemes = t.expr p := by
  have hne : t.lexemes.isEmpty = false := by
    obtain ⟨c, cs, h, -⟩ := exists_lexemes_eq_cons t
    rw [h]
    rfl
  rw [ofLexemes, hne, if_neg (by decide), expression_whole ht (by omega)]
  cases t.expr p <;> rfl

theorem expr_eq_of_fits {u : Phrase} (ht : Fits b 0 t) (hu : Fits b 0 u) (h : t.lexemes = u.lexemes) :
    t.expr p = u.expr p := by
  have hread := (expression_whole (p := p) ht (Nat.lt_succ_self _)).symm
  rw [h, expression_whole hu (Nat.lt_succ_self _)] at hread
  cases ht : t.expr p <;> cases hu : u.expr p <;> rw [ht, hu] at hread <;> cases hread <;> rfl

/-! The table of spreadsheets -/

/-- Signs bind most tightly, then percent signs and then the operators, all of them to the left. -/
def sheetBinding : Binding where
  operator o := ((binding.operator o).1, (binding.operator o).1 + 1)
  sign := 70
  percent := 60

/-- A percent sign goes behind the operand of the signs before it. -/
def percentIn : Phrase → Phrase
  | .signed minus t => .signed minus (percentIn t)
  | t => .percent t

/-- A power of a power goes to its exponent. -/
def powerIn (t : Phrase) : Phrase → Phrase
  | .binary .pow l r => .binary .pow l (powerIn t r)
  | l => .binary .pow l t

mutual

/-- The phrase as it is read. -/
def turned : Phrase → Phrase
  | .enclosed t => .enclosed (turned t)
  | .call name args => .call name (allTurned args)
  | .signed minus t => .signed minus (turned t)
  | .percent t => percentIn (turned t)
  | .binary o l r => if o = .pow then powerIn (turned r) (turned l) else .binary o (turned l) (turned r)
  | t => t

def allTurned : Phrases → Phrases
  | .last t => .last (turned t)
  | .more t rest => .more (turned t) (allTurned rest)

end

attribute [local simp] percentIn powerIn turned allTurned

theorem lexemes_percentIn (t : Phrase) : (percentIn t).lexemes = t.lexemes ++ [⟨.percent, "%"⟩] := by
  cases t with
  | signed minus t => rw [percentIn, lexemes, lexemes_percentIn t]; rfl
  | _ => rfl

theorem lexemes_powerIn (t l : Phrase) :
    (powerIn t l).lexemes = l.lexemes ++ ⟨.operator, Operator.mark .pow⟩ :: t.lexemes := by
  fun_cases powerIn t l with
  | case1 l r => rw [lexemes, lexemes_powerIn t r, lexemes, append_assoc]; rfl
  | case2 => rw [lexemes]

mutual

theorem lexemes_turned (t : Phrase) : (turned t).lexemes = t.lexemes := by
  cases t with
  | enclosed t | signed minus t => rw [turned, lexemes, lexemes_turned t, lexemes]
  | call name args => rw [turned, lexemes, lexemes_allTurned args, lexemes]
  | percent t => rw [turned, lexemes_percentIn, lexemes_turned t, lexemes]
  | binary o l r =>
    rw [turned]
    split
    · next h => rw [lexemes_powerIn, lexemes_turned l, lexemes_turned r, lexemes, h]
    · rw [lexemes, lexemes_turned l, lexemes_turned r, lexemes]
  | _ => rfl

theorem lexemes_allTurned (args : Phrases) : (allTurned args).lexemes = args.lexemes := by
  cases args with
  | last t => exact lexemes_turned t
  | more t rest => rw [allTurned, Phrases.lexemes, lexemes_turned t, lexemes_allTurned rest, Phrases.lexemes]

end

def outer? : Phrase → Option Operator
  | .binary o _ _ => some o
  | _ => none

theorem outer?_percentIn (t : Phrase) : outer? (percentIn t) = none := by cases t <;> rfl

theorem outer?_powerIn (t l : Phrase) : outer? (powerIn t l) = some .pow := by fun_cases powerIn t l <;> rfl

theorem outer?_turned (t : Phrase) : outer? (turned t) = outer? t := by
  cases t with
  | percent t => exact outer?_percentIn _
  | binary o l r =>
    rw [turned]
    split
    · next h => rw [outer?_powerIn, outer?, h]
    · rfl
  | _ => rfl

theorem strength_le (o : Operator) : (binding.operator o).1 ≤ 50 := by cases o <;> decide

theorem strength_lt (h : o ≠ .pow) : (binding.operator o).1 < 50 := by
  revert h
  cases o <;> decide

theorem eq_pow_of_le (h : 50 ≤ (binding.operator o).1) : o = .pow := by
  by_contra hne
  exact absurd (strength_lt hne) (Nat.not_lt.2 h)

theorem after_eq (h : o ≠ .pow) : (binding.operator o).2 = (sheetBinding.operator o).2 := by
  revert h
  cases o <;> decide

theorem outer?_eq_none (h : Fits binding least t) (hleast : 50 < least) : outer? t = none := by
  cases t with
  | binary o l r => exact absurd (Nat.le_trans h.1 (strength_le o)) (by omega)
  | _ => rfl

theorem shut_of_outer? {t : Phrase} {least : Nat} (h : Fits binding least t) (hs : s < 70)
    (ho : outer? t = none) : Shut binding s t := by
  cases t with
  | signed minus t => exact ⟨hs, shut_of_outer? h hs (outer?_eq_none h (by decide))⟩
  | binary o l r => cases ho
  | _ => trivial

theorem fits_percentIn {t : Phrase} {least : Nat} (h : Fits binding least t) (hleast : least ≤ 80)
    (ho : outer? t = none) : Fits binding least (percentIn t) := by
  cases t with
  | signed minus t => exact fits_percentIn (t := t) h (by decide) (outer?_eq_none h (by decide))
  | binary o l r => cases ho
  | _ => exact ⟨hleast, trivial, h⟩

theorem shut_percentIn (t : Phrase) (hs : s < 70) : Shut binding s (percentIn t) := by
  cases t with
  | signed minus t => exact ⟨hs, shut_percentIn t hs⟩
  | _ => trivial

theorem fits_powerIn {t l : Phrase} {least : Nat} (hleast : least ≤ 50) (hl : Fits binding least l)
    (ho : ∀ o ∈ outer? l, o = .pow) (ht : Fits binding 50 t) : Fits binding least (powerIn t l) := by
  fun_cases powerIn t l with
  | case1 l r =>
    obtain ⟨-, hshut, hl, hr⟩ := hl
    refine ⟨hleast, hshut, hl, fits_powerIn (Nat.le_refl 50) hr (fun o ho => ?_) ht⟩
    cases r with
    | binary o' _ _ => exact eq_pow_of_le (Option.some.inj ho ▸ hr.1)
    | _ => cases ho
  | case2 l hne =>
    have hnone : outer? l = none := by
      cases l with
      | binary o _ _ => exact (hne _ _ (by rw [ho o rfl])).elim
      | _ => rfl
    exact ⟨hleast, shut_of_outer? hl (by decide) hnone, hl, ht⟩

theorem shut_powerIn (hs : s < 50) (ht : Shut binding s t) (l : Phrase) : Shut binding s (powerIn t l) := by
  fun_cases powerIn t l with
  | case1 l r => exact ⟨hs, shut_powerIn hs ht r⟩
  | case2 => exact ⟨hs, ht⟩

theorem shut_turned {t : Phrase} (hs : s < 50) (h : Shut sheetBinding s t) : Shut binding s (turned t) := by
  cases t with
  | signed minus t => exact ⟨h.1, shut_turned hs h.2⟩
  | percent t => exact shut_percentIn _ (by omega)
  | binary o l r =>
    rw [turned]
    split
    · exact shut_powerIn hs (shut_turned hs h.2) _
    · next hne => exact ⟨after_eq hne ▸ h.1, shut_turned hs h.2⟩
  | _ => trivial

theorem fits_mono {t : Phrase} {m n : Nat} (h : Fits b n t) (hmn : m ≤ n) : Fits b m t := by
  cases t with
  | percent t => exact ⟨Nat.le_trans hmn h.1, h.2.1, fits_mono h.2.2 hmn⟩
  | binary o l r => exact ⟨Nat.le_trans hmn h.1, h.2.1, fits_mono h.2.2.1 hmn, h.2.2.2⟩
  | _ => exact h

mutual

theorem fits_turned {t : Phrase} {least : Nat} (h : Fits sheetBinding least t) : Fits binding least (turned t) := by
  cases t with
  | enclosed t | signed minus t => exact fits_turned (t := t) h
  | call name a => exact allFit_turned (a := a) h
  | percent t =>
    obtain ⟨hleast, hshut, h⟩ := h
    have hnone : outer? t = none := by
      cases t with
      | binary o _ _ => exact absurd (Nat.lt_of_lt_of_le hshut.1 (Nat.succ_le_succ (strength_le o))) (by decide)
      | _ => rfl
    exact fits_percentIn (fits_turned h) (Nat.le_trans hleast (by decide)) ((outer?_turned t).trans hnone)
  | binary o l r =>
    obtain ⟨hleast, hshut, hl, hr⟩ := h
    rw [turned]
    split
    · next hpow =>
      subst hpow
      refine fits_powerIn hleast (fits_turned hl) (fun o ho => ?_) (fits_mono (fits_turned hr) (by decide))
      rw [outer?_turned] at ho
      cases l with
      | binary o' _ _ => exact eq_pow_of_le (Option.some.inj ho ▸ Nat.le_of_lt_succ hshut.1)
      | _ => cases ho
    · next hne => exact ⟨hleast, shut_turned (strength_lt hne) hshut, fits_turned hl, after_eq hne ▸ fits_turned hr⟩
  | _ => trivial

theorem allFit_turned {a : Phrases} (h : AllFit sheetBinding a) : AllFit binding (allTurned a) := by
  cases a with
  | last t => exact fits_turned (t := t) h
  | more t rest => exact ⟨fits_turned h.1, allFit_turned h.2⟩

end

/-! Phrases that both tables read in the same way -/

mutual

/-- No percent sign stands behind a sign and no power is raised to a power but in brackets. -/
def Plain : Phrase → Prop
  | .enclosed t | .signed _ t => Plain t
  | .call _ args => AllPlain args
  | .percent t => (∀ minus u, t ≠ .signed minus u) ∧ Plain t
  | .binary o l r => (o = .pow → outer? l ≠ some .pow) ∧ Plain l ∧ Plain r
  | _ => True

def AllPlain : Phrases → Prop
  | .last t => Plain t
  | .more t rest => Plain t ∧ AllPlain rest

end

theorem percentIn_eq (h : ∀ minus u, t ≠ .signed minus u) : percentIn t = .percent t := by
  cases t with
  | signed minus u => exact absurd rfl (h minus u)
  | _ => rfl

theorem powerIn_eq {l : Phrase} (h : outer? l ≠ some .pow) : powerIn t l = .binary .pow l t := by
  fun_cases powerIn t l with
  | case1 => exact absurd rfl h
  | case2 => rfl

mutual

theorem turned_of_plain {t : Phrase} (h : Plain t) : turned t = t := by
  cases t with
  | enclosed t | signed minus t => rw [turned, turned_of_plain (t := t) h]
  | call name a => rw [turned, allTurned_of_plain (a := a) h]
  | percent t => rw [turned, turned_of_plain h.2, percentIn_eq h.1]
  | binary o l r =>
    rw [turned, turned_of_plain h.2.1, turned_of_plain h.2.2]
    split
    · next hpow => rw [powerIn_eq (h.1 hpow), hpow]
    · rfl
  | _ => rfl

theorem allTurned_of_plain {a : Phrases} (h : AllPlain a) : allTurned a = a := by
  cases a with
  | last t => rw [allTurned, turned_of_plain (t := t) h]
  | more t rest => rw [allTurned, turned_of_plain h.1, allTurned_of_plain h.2]

end

theorem expr_signed {minus : Bool} (h : (Phrase.signed minus t).expr p = .ok e) :
    ∃ u, t.expr p = .ok u ∧ e = .signed (if minus then .minus else .plus) u := by
  obtain ⟨u, hu, h⟩ := of_bind h
  exact ⟨u, hu, (Except.ok.inj h).symm⟩

theorem expr_percent (h : (Phrase.percent t).expr p = .ok e) : ∃ u, t.expr p = .ok u ∧ e = .signed .percent u := by
  obtain ⟨u, hu, h⟩ := of_bind h
  exact ⟨u, hu, (Except.ok.inj h).symm⟩

theorem expr_binary {l r : Phrase} (h : (Phrase.binary o l r).expr p = .ok e) :
    ∃ u v, l.expr p = .ok u ∧ r.expr p = .ok v ∧ e = .binary o u v := by
  obtain ⟨u, v, hu, hv, h⟩ := of_bind₂ h
  exact ⟨u, v, hu, hv, (Except.ok.inj h).symm⟩

/-- How many powers stand one in the base of the other. -/
def powers : Expr → Nat
  | .binary o l _ => if o = .pow then powers l + 1 else 0
  | _ => 0

theorem powers_powerIn {t l : Phrase} {e : Expr} (h : (powerIn t l).expr p = .ok e) : ∃ u, l.expr p = .ok u ∧
    powers e ≤ powers u + 1 ∧ (outer? l = some .pow → powers e ≤ powers u) := by
  revert h
  fun_cases powerIn t l with
  | case1 l r =>
    intro h
    obtain ⟨u, v, hu, hv, rfl⟩ := expr_binary h
    obtain ⟨w, hw, -⟩ := powers_powerIn hv
    exact ⟨.binary .pow u w, by rw [expr, hu, hw]; rfl, Nat.le_succ _, fun _ => Nat.le_refl _⟩
  | case2 l hne =>
    intro h
    obtain ⟨u, v, hu, -, rfl⟩ := expr_binary h
    refine ⟨u, hu, Nat.le_refl _, fun ho => ?_⟩
    cases l with
    | binary o l r => exact (hne l r (by rw [Option.some.inj ho])).elim
    | _ => cases ho

theorem powers_percentIn (h : (percentIn t).expr p = .ok e) : powers e = 0 := by
  cases t <;> obtain ⟨_, -, h⟩ := of_bind h <;> cases h <;> rfl

theorem powers_turned {t : Phrase} {e e' : Expr} (h : t.expr p = .ok e) (h' : (turned t).expr p = .ok e') :
    powers e' ≤ powers e := by
  cases t with
  | enclosed t => exact powers_turned (t := t) h h'
  | operand | bare => exact Nat.le_of_eq (congrArg powers (Except.ok.inj (h'.symm.trans h)))
  | call | signed =>
    obtain ⟨_, -, h'⟩ := of_bind h'
    cases h'
    exact Nat.zero_le _
  | percent t => rw [powers_percentIn h']; exact Nat.zero_le _
  | binary o l r =>
    obtain ⟨u, v, hu, -, rfl⟩ := expr_binary h
    rw [turned] at h'
    split at h'
    · next hpow =>
      obtain ⟨w, hw, hle, -⟩ := powers_powerIn h'
      have hbase := powers_turned hu hw
      rw [powers, if_pos hpow]
      omega
    · next hne =>
      obtain ⟨_, _, -, -, rfl⟩ := expr_binary h'
      rw [powers, if_neg hne]
      exact Nat.zero_le _

mutual

theorem plain_of_expr {t : Phrase} {e : Expr} (h : t.expr p = .ok e) (h' : (turned t).expr p = .ok e) : Plain t := by
  cases t with
  | enclosed t => exact plain_of_expr (t := t) h h'
  | call name a =>
    obtain ⟨es, hes, h⟩ := of_bind h
    obtain ⟨es', hes', h'⟩ := of_bind h'
    cases h
    cases h'
    exact allPlain_of_exprs (a := a) hes hes'
  | signed minus t =>
    obtain ⟨u, hu, rfl⟩ := expr_signed h
    obtain ⟨u', hu', heq⟩ := expr_signed h'
    cases heq
    exact plain_of_expr (t := t) hu hu'
  | percent t =>
    obtain ⟨u, hu, rfl⟩ := expr_percent h
    have hsigned : ∀ minus w, turned t ≠ .signed minus w := by
      intro minus w hw
      rw [turned, hw, percentIn] at h'
      obtain ⟨_, -, heq⟩ := expr_signed h'
      cases minus <;> cases heq
    rw [turned, percentIn_eq hsigned] at h'
    obtain ⟨u', hu', heq⟩ := expr_percent h'
    cases heq
    exact ⟨fun minus w hw => hsigned minus (turned w) (by rw [hw, turned]), plain_of_expr hu hu'⟩
  | binary o l r =>
    obtain ⟨u, v, hu, hv, rfl⟩ := expr_binary h
    have hbase : o = .pow → outer? l ≠ some .pow := by
      rintro rfl hl
      obtain ⟨w, hw, -, hle⟩ := powers_powerIn h'
      have hle := Nat.le_trans (hle ((outer?_turned l).trans hl)) (powers_turned hu hw)
      exact absurd hle (Nat.not_succ_le_self _)
    have hturned : turned (.binary o l r) = .binary o (turned l) (turned r) := by
      rw [turned]
      split
      · next hpow => rw [powerIn_eq (by rw [outer?_turned]; exact hbase hpow), hpow]
      · rfl
    rw [hturned] at h'
    obtain ⟨u', v', hu', hv', heq⟩ := expr_binary h'
    cases heq
    exact ⟨hbase, plain_of_expr hu hu', plain_of_expr hv hv'⟩
  | _ => trivial

theorem allPlain_of_exprs {a : Phrases} {es : List Expr} (h : a.exprs p = .ok es)
    (h' : (allTurned a).exprs p = .ok es) : AllPlain a := by
  cases a with
  | last t =>
    obtain ⟨e, he, h⟩ := of_bind h
    obtain ⟨e', he', h'⟩ := of_bind h'
    cases h
    cases h'
    exact plain_of_expr (t := t) he he'
  | more t rest =>
    obtain ⟨e, es, he, hes, h⟩ := of_bind₂ h
    obtain ⟨e', es', he', hes', h'⟩ := of_bind₂ h'
    cases h
    cases h'
    exact ⟨plain_of_expr he he', allPlain_of_exprs hes hes'⟩

end

/-- A formula of a spreadsheet has one meaning by its table. It is read as its turned phrase, which
means the same exactly if the phrase is plain. -/
theorem ofLexemes_sheet {t : Phrase} (ht : Fits sheetBinding 0 t) (p : Place) :
    ofLexemes p t.lexemes = (turned t).expr p ∧ (∀ e, t.expr p = .ok e → (ofLexemes p t.lexemes = .ok e ↔ Plain t)) ∧
      ∀ u, Fits sheetBinding 0 u → u.lexemes = t.lexemes → u.expr p = t.expr p := by
  have hread : ofLexemes p t.lexemes = (turned t).expr p := by
    rw [← lexemes_turned, ofLexemes_of_fits (fits_turned ht)]
  refine ⟨hread, fun e he => ?_, fun u hu h => expr_eq_of_fits hu ht h⟩
  rw [hread]
  exact ⟨plain_of_expr he, fun hplain => by rw [turned_of_plain hplain, he]⟩

/-- `2^3^-4%` is `(2^3)^((-4)%)`, and is read as `2^(3^(-(4%)))`. -/
def towering : Phrase :=
  .binary .pow (.binary .pow (.operand .number "2") (.operand .number "3"))
    (.percent (.signed true (.operand .number "4")))

theorem ofLexemes_towering : Fits sheetBinding 0 towering ∧
    ofLexemes ⟨"S", "A1"⟩ towering.lexemes = .ok (.binary .pow (.number "2")
      (.binary .pow (.number "3") (.signed .minus (.signed .percent (.number "4"))))) ∧
    ofLexemes ⟨"S", "A1"⟩ towering.lexemes ≠ towering.expr ⟨"S", "A1"⟩ := by
  have hfits : Fits sheetBinding 0 towering := by
    simp [towering, Fits, Shut, sheetBinding, binding]
  obtain ⟨hread, hplain, -⟩ := ofLexemes_sheet hfits ⟨"S", "A1"⟩
  refine ⟨hfits, hread, fun h => ?_⟩
  exact ((hplain _ rfl).1 h).1 rfl rfl

end Expr

end Sheetwork.Model
