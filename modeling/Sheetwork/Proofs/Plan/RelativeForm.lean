import Sheetwork.Proofs.Plan.Corner
import Sheetwork.Proofs.Workbook.Patches
/-
  Plans: corners of references as they are seen from a cell. A relative form shows a number, a distance or nothing for
  each coordinate, and what it shows puts the corner at any other cell. It shows nothing at all for a free corner at
  the cell itself (`placed_seenFrom`): a range that ends there loses its end.
-/

open List

namespace Sheetwork.Plan

open Text Corner

variable {a : Corner} {p q : Position} {fixed : Bool} {n : Nat} {origin base : Int}

/-- What stands behind the letter of a coordinate. -/
def shown (fixed : Bool) (n : Nat) (origin : Int) : Option String :=
  if fixed then some (ofNat n)
  else if (n : Int) = origin then none
  else some ("[" ++ ofInt (n - origin) ++ "]")

theorem coordinate_eq (mark : String) : coordinate mark fixed n origin = mark ++ (shown fixed n origin).getD "" := by
  unfold coordinate shown
  split
  · rfl
  · split
    · rw [Option.getD_none, String.append_empty]
    · rw [Option.getD_some, String.append_assoc, String.append_assoc, String.append_assoc]

theorem shown_eq_none_iff : shown fixed n origin = none ↔ fixed = false ∧ (n : Int) = origin := by
  unfold shown
  cases fixed <;> simp

/-- A free coordinate is moved, and a fixed one stays. -/
def movedBy (fixed : Bool) (n : Nat) (by_ : Int) : Nat := if fixed then n else (n + by_).toNat

theorem absolute_shown (hn : n < 10 ^ 7) (ho : (n - origin).natAbs < 10 ^ 7) (h : 1 ≤ movedBy fixed n (base - origin)) :
    absolute (shown fixed n origin) base = ((movedBy fixed n (base - origin) : Int), fixed) := by
  have hlen : ∀ {m : Nat}, m < 10 ^ 7 → (natL m).length ≤ Number.maxDigits := fun hm =>
    Nat.le_trans ((Nat.length_toDigits_le_iff (by decide) (by decide)).2 hm) (by decide)
  unfold shown
  cases fixed with
  | true =>
    obtain ⟨c, cs, hc, hdigit⟩ := exists_natL_eq_cons n
    have hstart : startsWith "[" (ofNat n) = false := by
      show ['['].isPrefixOf (String.ofList (natL n)).toList = false
      have hne : '[' ≠ c := by
        rintro rfl
        cases hdigit
      rw [String.toList_ofList, hc, isPrefixOf_cons_cons, beq_false_of_ne hne, Bool.false_and]
    rw [if_pos rfl, absolute, hstart, Number.int?_ofNat (hlen hn)]
    rfl
  | false =>
    have hmoved : (movedBy false n (base - origin) : Int) = base + (n - origin) := by
      rw [movedBy, if_neg Bool.false_ne_true] at h ⊢
      omega
    rw [if_neg Bool.false_ne_true, hmoved]
    split
    · next heq => simp [absolute, heq]
    · have hchars : ("[" ++ ofInt (n - origin) ++ "]").toList = '[' :: ((ofInt (n - origin)).toList ++ [']']) := by simp
      have hslice : slice 1 (("[" ++ ofInt (n - origin) ++ "]").length - 1) ("[" ++ ofInt (n - origin) ++ "]") =
          ofInt (n - origin) := by
        rw [slice, ← String.length_toList, hchars]
        simp
      have hstart : startsWith "[" ("[" ++ ofInt (n - origin) ++ "]") = true := by
        show ['['].isPrefixOf _ = true
        rw [hchars]
        rfl
      rw [absolute, hstart, if_pos rfl, hslice, Number.int?_ofInt (hlen ho)]
      rfl

def Corner.position (a : Corner) : Position := ⟨a.row, a.col⟩

/-- The corner with its free coordinates moved as one cell is from another. -/
def Corner.moved (a : Corner) (p q : Position) : Corner :=
  { a with row := movedBy a.rowFixed a.row (q.row - p.row), col := movedBy a.colFixed a.col (q.col - p.col) }

theorem placed_shown (ha : a.position.OnSheet) (hp : p.OnSheet) (hmoved : (a.moved p q).position.OnSheet) :
    placed (shown a.rowFixed a.row p.row) (shown a.colFixed a.col p.col) q.row q.col =
      .ok (String.ofList (a.moved p q).chars) := by
  obtain ⟨har, har', hac, hac'⟩ := ha
  obtain ⟨hpr, hpr', hpc, hpc'⟩ := hp
  obtain ⟨hmr, -, hmc, hmc'⟩ := hmoved
  simp only [position] at har har' hac hac'
  have hlimits : Address.maxRow < 10 ^ 7 ∧ Column.last < 10 ^ 7 := by decide
  have hname : Address.columnName (a.moved p q).col = .ok (Column.name _) :=
    Address.columnName_eq_ok_iff.2 ⟨⟨Int.ofNat_le.2 hmc, Int.ofNat_le.2 hmc'⟩, rfl⟩
  have hdollar : ∀ b : Bool, (if b then "$" else "") = String.ofList (dollars b) := by decide
  rw [placed, absolute_shown (by omega) (by omega) hmr, absolute_shown (by omega) (by omega) hmc]
  dsimp only
  rw [Corner.moved] at hname ⊢
  rw [hname, hdollar, hdollar]
  refine congrArg Except.ok (String.toList_injective ?_)
  simp only [chars, Column.name, ofInt, ofNat, String.toList_append, String.toList_ofList, Int.toNat_natCast,
    append_assoc]

/-- What the relative form of a corner shows puts it, moved, at any cell. It shows nothing exactly for a free corner
at the cell that it is seen from, and then the end of a range is taken for missing. -/
theorem placed_of_seenFrom (ha : a.position.OnSheet) (hp : p.OnSheet) (hmoved : (a.moved p q).position.OnSheet) :
    ∃ row col : Option String, a.seenFrom p.row p.col = "R" ++ row.getD "" ++ ("C" ++ col.getD "") ∧
      placed row col q.row q.col = .ok (String.ofList (a.moved p q).chars) ∧
      ((row.isSome || col.isSome) = false ↔ a = ⟨p.row, p.col, false, false⟩) := by
  refine ⟨_, _, ?_, placed_shown ha hp hmoved, ?_⟩
  · rw [seenFrom, coordinate_eq, coordinate_eq]
  · rw [Bool.or_eq_false_iff, Option.isSome_eq_false_iff, Option.isSome_eq_false_iff, Option.isNone_iff_eq_none,
      Option.isNone_iff_eq_none, shown_eq_none_iff, shown_eq_none_iff]
    obtain ⟨row, col, rowFixed, colFixed⟩ := a
    simp only [mk.injEq, Int.natCast_inj]
    tauto

theorem placed_of_seenFrom_below : ∃ row col : Option String,
    seenFrom ⟨2, 3, false, true⟩ 5 2 = "R" ++ row.getD "" ++ ("C" ++ col.getD "") ∧
      placed row col 8 9 = .ok (String.ofList (chars ⟨5, 3, false, true⟩)) := by
  obtain ⟨row, col, hseen, hplaced, -⟩ := placed_of_seenFrom (a := ⟨2, 3, false, true⟩) (p := ⟨5, 2⟩) (q := ⟨8, 9⟩)
    (by decide) (by decide) (by decide)
  exact ⟨row, col, hseen, hplaced⟩

end Sheetwork.Plan
