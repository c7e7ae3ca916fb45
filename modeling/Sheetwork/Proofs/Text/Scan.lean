import Sheetwork.Proofs.Outcome
import Sheetwork.Proofs.Text.Pattern
/-
  Text: searching and replacing from left to right. A pattern that takes a character with each match (`Takes`) leaves
  everything else as it stands: what it writes is written character by character and match by match (`Scans`).
-/

open List

namespace Sheetwork.Text

namespace Pattern

variable {s : Array Char} {i fuel : Nat} {cs : Captures} {k : Follow} {t : Char → Bool} {p : Pattern} {m : Match}

theorem run_ahead_one {h : Bool} : run s (ahead h (one t)) i cs k = if (s[i]?).any t = h then k i cs else none := by
  rw [run, run]
  cases s[i]? with
  | none => cases h <;> rfl
  | some c => cases ht : t c <;> cases h <;> simp [ht]

/-! What a match takes -/

/-- Every match takes at least one character. -/
def Takes (p : Pattern) : Prop :=
  ∀ ⦃s : Array Char⦄ ⦃i : Nat⦄ ⦃cs : Captures⦄ ⦃k : Follow⦄ ⦃r : Nat × Captures⦄,
    run s p i cs k = some r → i < s.size ∧ ∃ j ds, i < j ∧ k j ds = some r

namespace Takes

variable {a b : Pattern}

theorem seq_left (h : Takes a) : Takes (a ++ b) := by
  intro s i cs k r hrun
  obtain ⟨hi, j, ds, hij, hrun⟩ := h hrun
  obtain ⟨l, es, hjl, hrun⟩ := run_continues b hrun
  exact ⟨hi, l, es, by omega, hrun⟩

theorem lt_stop (h : Takes p) (hm : p.matchAt? s i = some m) : i < s.size ∧ m.start = i ∧ i < m.stop := by
  obtain ⟨x, hx, rfl⟩ := Option.map_eq_some_iff.1 hm
  obtain ⟨hi, j, ds, hij, hk⟩ := h hx
  cases hk
  exact ⟨hi, rfl, hij⟩

theorem matchAt?_none (h : Takes p) (hi : s.size ≤ i) : p.matchAt? s i = none := by
  rw [Option.eq_none_iff_forall_ne_some]
  intro m hm
  have := (h.lt_stop hm).1
  omega

end Takes

variable {f : Match → String} {out : List Char}

/-- The text that is written from a place on: each match as `f` says, all else as it is. -/
inductive Scans (p : Pattern) (f : Match → String) (s : Array Char) : Nat → List Char → Prop
  | stop {i : Nat} (hi : s.size ≤ i) : Scans p f s i []
  | skip {i : Nat} {c : Char} {out : List Char} (hc : s[i]? = some c)
      (hm : p.matchAt? s i = none) (h : Scans p f s (i + 1) out) : Scans p f s i (c :: out)
  | hit {i : Nat} {m : Match} {out : List Char} (hm : p.matchAt? s i = some m)
      (h : Scans p f s m.stop out) : Scans p f s i ((f m).toList ++ out)

theorem le_start_of_searchFrom? (h : p.searchFrom? s fuel i = some m) : i ≤ m.start := by
  induction fuel generalizing i with
  | zero => cases h
  | succ fuel ih =>
    rcases orElse_cases h with h | h
    · obtain ⟨x, -, rfl⟩ := Option.map_eq_some_iff.1 h
      exact Nat.le_refl i
    · have := ih h
      omega

theorem allFrom_skip (hi : i < s.size) (hm : p.matchAt? s i = none) :
    p.allFrom s (fuel + 1) i false = p.allFrom s (fuel + 1) (i + 1) false := by
  have hfuel : s.size - i = s.size - (i + 1) + 1 := by omega
  rw [allFrom, allFrom, if_neg Bool.false_ne_true, if_neg Bool.false_ne_true, hm, hfuel]
  rfl

theorem spliceFrom_skip {c : Char} (hc : s[i]? = some c) (f : Match → String) :
    spliceFrom s i ((p.allFrom s fuel (i + 1) false).map fun m => (m, f m)) =
      c :: spliceFrom s (i + 1) ((p.allFrom s fuel (i + 1) false).map fun m => (m, f m)) := by
  have hextract : ∀ j, i < j → (s.extract i j).toList = c :: (s.extract (i + 1) j).toList := by
    intro j hj
    have hi : i < s.toList.length := by exact (Array.getElem?_eq_some_iff.1 hc).1
    have hci : s.toList[i] = c := by
      rw [← Array.getElem?_toList, getElem?_eq_getElem hi] at hc
      exact Option.some.inj hc
    rw [Array.toList_extract, Array.toList_extract, extract_eq_take_drop,
      extract_eq_take_drop, drop_eq_getElem_cons hi, hci,
      show j - i = j - (i + 1) + 1 by omega, take_succ_cons]
  cases hms : p.allFrom s fuel (i + 1) false with
  | nil => exact hextract _ (Array.getElem?_eq_some_iff.1 hc).1
  | cons m ms =>
    have hstart : i + 1 ≤ m.start := by
      cases fuel with
      | zero => cases hms
      | succ fuel =>
        rw [allFrom, if_neg Bool.false_ne_true] at hms
        split at hms
        · cases hms
        · next n hn =>
          cases hms
          rcases orElse_cases hn with hn | hn
          · obtain ⟨x, -, rfl⟩ := Option.map_eq_some_iff.1 hn
            exact Nat.le_refl _
          · have := le_start_of_searchFrom? hn
            omega
    rw [map_cons, spliceFrom, spliceFrom, hextract _ (by omega), cons_append]

theorem spliceFrom_of_scans (hp : p.Takes) (h : Scans p f s i out) (hf : s.size - i < fuel) :
    spliceFrom s i ((p.allFrom s fuel i false).map fun m => (m, f m)) = out := by
  induction h generalizing fuel with
  | stop hi =>
    rw [allFrom_nil fun j hj => hp.matchAt?_none (by omega), map_nil, spliceFrom, Array.toList_extract,
      extract_eq_take_drop, Nat.sub_eq_zero_of_le hi, take_zero]
  | skip hc hm _ ih =>
    obtain ⟨fuel, rfl⟩ : ∃ n, fuel = n + 1 := ⟨fuel - 1, by omega⟩
    rw [allFrom_skip (Array.getElem?_eq_some_iff.1 hc).1 hm, spliceFrom_skip hc, ih (by omega)]
  | @hit i m out hm _ ih =>
    obtain ⟨hi, hstart, hstop⟩ := hp.lt_stop hm
    obtain ⟨fuel, rfl⟩ : ∃ n, fuel = n + 1 := ⟨fuel - 1, by omega⟩
    rw [allFrom, if_neg Bool.false_ne_true, hm]
    dsimp only [Option.orElse_some]
    rw [decide_eq_false (by omega), map_cons, spliceFrom, ih (by omega), hstart, Array.toList_extract,
      extract_eq_take_drop, Nat.sub_self, take_zero, nil_append]

theorem replaceAll_of_scans (hp : p.Takes) {w : List Char} (h : Scans p f w.toArray 0 out) :
    p.replaceAll f (String.ofList w) = String.ofList out := by
  rw [replaceAll, String.toList_ofList, splice, spliceFrom_of_scans hp h (by omega)]

theorem allFrom_hit (hp : p.Takes) (hm : p.matchAt? s i = some m) :
    p.allFrom s (fuel + 1) i false = m :: p.allFrom s fuel m.stop false := by
  obtain ⟨-, hstart, hstop⟩ := hp.lt_stop hm
  rw [allFrom, if_neg Bool.false_ne_true, hm]
  dsimp only [Option.orElse_some]
  rw [decide_eq_false (by omega)]

theorem replaceAllM_eq {ε : Type} {f : Match → Except ε String} {g : Match → String} {s : String}
    (h : ∀ m ∈ p.all s, f m = .ok (g m)) : p.replaceAllM f s = .ok (p.replaceAll g s) := by
  have hmapM : (p.all s).mapM f = .ok ((p.all s).map g) := mapM_ok h
  unfold replaceAllM replaceAll splice
  unfold all at hmapM
  simp only [hmapM, bind, Except.bind, ← map_prod_left_eq_zip]
  rfl

end Pattern

end Sheetwork.Text
