import Sheetwork.Plan.Reference
import Sheetwork.Proofs.Text.Replacement
import Sheetwork.Proofs.Workbook.Address
/-
  Plans: addresses as formulas write them, letters and digits with dollar signs. Their row and column are read from
  them, dollar signs left out (`rowCol?_chars`).
-/

open List
open String (ofList toList_ofList)

namespace Sheetwork.Plan

open Text Text.Pattern Column

def Corner.Nameable (a : Corner) : Prop := 1 ≤ a.col ∧ a.col ≤ last

def Corner.chars (a : Corner) : List Char := dollars a.colFixed ++ (letters a.col ++ (dollars a.rowFixed ++ natL a.row))

variable {a : Corner} {s : Array Char} {i : Nat} {cs : Captures} {k : Follow} {r : Nat × Captures}

/-- The letters and what follows them, up to a bound that is large enough. -/
theorem run_letters (ha : a.Nameable) {most : Option Nat} {w : List Char} (h : Stands s i (letters a.col ++ w))
    (hi : i ≤ s.size) (hw : ∀ c, w.head? = some c → isAsciiUpper c = false) (hm : ∀ n, most = some n → 3 ≤ n)
    (hk : k (i + (letters a.col).length) cs = some r) : run s (rep true 1 most upperLetter) i cs k = some r := by
  have hlen := length_letters ha.1 ha.2
  exact run_rep_one h hi (capitals_letters _) hlen.1 (fun n hn => Nat.le_trans hlen.2 (hm n hn)) (.inl hw) hk

theorem filter_chars : a.chars.filter (· ≠ '$') = letters a.col ++ natL a.row := by
  have hd : ∀ b, (dollars b).filter (· ≠ '$') = [] := by decide
  have keep {l : List Char} {p : Char → Bool} (hl : ∀ c ∈ l, p c = true) (hp : p '$' ≠ true) :
      l.filter (· ≠ '$') = l := by
    refine filter_eq_self.2 fun c hc => decide_eq_true ?_
    rintro rfl
    exact hp (hl _ hc)
  rw [Corner.chars, filter_append, filter_append, filter_append, hd, hd, keep (capitals_letters _) (by decide),
    keep (fun _ => isAsciiDigit_of_mem_natL) (by decide)]
  rfl

theorem rowCol?_chars (ha : a.Nameable) : rowCol? (ofList a.chars) = some (a.row, a.col) := by
  have hplain : Text.replace "$" "" (ofList a.chars) = ofList (letters a.col ++ natL a.row) := by
    have hchars : (ofList a.chars).toList = a.chars := toList_ofList
    show ofList (replaceL ['$'] [] (ofList a.chars).toList) = _
    rw [hchars, replaceL_singleton_nil, filter_chars]
  have h : Stands (letters a.col ++ natL a.row).toArray 0 (letters a.col ++ (natL a.row ++ [])) := by
    rw [append_nil]
    exact Stands.start _
  have h₁ := h.append
  have hletters : ∀ c, (natL a.row ++ []).head? = some c → isAsciiUpper c = false :=
    fun c hc => isAsciiUpper_eq_false_of_digit (isAsciiDigit_head?_natL hc)
  have hsize : (letters a.col ++ natL a.row).toArray.size = (letters a.col).length + (natL a.row).length := by simp
  have hrun : addressPattern.matchAt? (letters a.col ++ natL a.row).toArray 0 =
      some ⟨(letters a.col ++ natL a.row).toArray, 0, 0 + (letters a.col).length + (natL a.row).length,
        [(2, 0 + (letters a.col).length, 0 + (letters a.col).length + (natL a.row).length),
        (1, 0, 0 + (letters a.col).length)]⟩ := by
    refine matchAt?_of_run (run_letters ha h (Nat.zero_le _) hletters ?_ (run_digits h₁ (by omega) nofun rfl))
    rintro n ⟨⟩
    exact Nat.le_refl 3
  have hnum : number (ofList (letters a.col)) = a.col := by rw [number_capitals (capitals_letters _), spelled_letters]
  have hcol := h.extract
  have hrow := h₁.extract
  rw [rowCol?, hplain, leadingCell?, begin?, toList_ofList, hrun]
  show some (natOfDigits (ofList (Array.extract _ _ _).toList).toList,
    (number (ofList (Array.extract _ _ _).toList)).toNat) = _
  rw [hcol, hrow, hnum, toList_ofList, natOfDigits_natL]
  rfl

end Sheetwork.Plan
