import Sheetwork.Proofs.Reference
import Sheetwork.Proofs.Text.Pattern
import Sheetwork.Workbook.Address
/-
  Workbooks: addresses are read back as what they name. The address of a position on a sheet has the position as its
  target (`target_address`), the name of an area is read as the area (`area?_name`), and a range of two addresses is
  matched by its letters and digits (`exists_begin?_range`).
-/

open List
open String (toList_ofList toList_append ofList)

namespace Sheetwork

open Text Text.Pattern Column Position

structure Position.OnSheet (p : Position) : Prop where
  row_pos : 1 ≤ p.row
  row_le : p.row ≤ Address.maxRow
  col_pos : 1 ≤ p.col
  col_le : p.col ≤ last

/-- A column and a row are told apart in an address. -/
theorem Column.append_natL_inj {cs ds : List Char} {m n : Nat} (hc : Capitals cs) (hd : Capitals ds) :
    cs ++ natL m = ds ++ natL n ↔ cs = ds ∧ m = n := by
  refine ⟨fun h => ?_, fun ⟨hcol, hrow⟩ => by rw [hcol, hrow]⟩
  have htake : ∀ {cs : List Char} (n : Nat), Capitals cs → (cs ++ natL n).takeWhile isAsciiUpper = cs := by
    intro cs n hcs
    refine (span_append hcs fun c hc => isAsciiUpper_eq_false_of_digit ?_).1
    exact isAsciiDigit_head?_natL (v := []) (by rwa [append_nil])
  have hcol : cs = ds := by rw [← htake m hc, h, htake n hd]
  rw [hcol] at h
  exact ⟨hcol, by rw [← natOfDigits_natL m, append_cancel_left h, natOfDigits_natL]⟩

namespace Position

variable {p q : Position}

instance : Decidable p.OnSheet :=
  decidable_of_iff (1 ≤ p.row ∧ p.row ≤ Address.maxRow ∧ 1 ≤ p.col ∧ p.col ≤ last)
    ⟨fun ⟨hr, hr', hc, hc'⟩ => ⟨hr, hr', hc, hc'⟩, fun ⟨hr, hr', hc, hc'⟩ => ⟨hr, hr', hc, hc'⟩⟩

theorem toList_colName : p.colName.toList = letters p.col := by
  rw [colName, name, toList_ofList, Int.toNat_natCast]

theorem toList_address : p.address.toList = letters p.col ++ natL p.row := by
  rw [address, toList_append, toList_colName, ofNat, toList_ofList]

variable {c : Char}

theorem not_mem_address (hc : (isAsciiUpper c || isDecimal c) = false) (p : Position) : c ∉ p.address.toList := by
  rw [Bool.or_eq_false_iff] at hc
  rw [toList_address, mem_append]
  rintro (h | h)
  · exact Bool.false_ne_true (hc.1.symm.trans (capitals_letters _ _ h))
  · exact Bool.false_ne_true (hc.2.symm.trans (isDecimal_of_mem_natL h))

theorem address_inj : p.address = q.address ↔ p = q := by
  refine ⟨fun h => ?_, congrArg _⟩
  have h := congrArg String.toList h
  rw [toList_address, toList_address, append_natL_inj (capitals_letters _) (capitals_letters _)] at h
  have hcol := congrArg spelled h.1
  rw [spelled_letters, spelled_letters, Int.natCast_inj] at hcol
  exact mk.injEq .. ▸ ⟨h.2, hcol⟩

theorem OnSheet.length_row_le (hp : p.OnSheet) : (natL p.row).length ≤ 7 :=
  (Nat.length_toDigits_le_iff (by decide) (by decide)).2 (Nat.lt_of_le_of_lt hp.row_le (by decide))

theorem length_address_le (hp : p.OnSheet) : p.address.length ≤ 10 := by
  have hletters := (length_letters hp.col_pos hp.col_le).2
  have hdigits := hp.length_row_le
  rw [← String.length_toList, toList_address, length_append]
  omega

theorem toList_range : (p.address ++ ":" ++ q.address).toList =
    letters p.col ++ (natL p.row ++ ':' :: (letters q.col ++ natL q.row)) := by
  rw [toList_append, toList_append, toList_address, toList_address, append_assoc, append_assoc]
  rfl

end Position

theorem exists_begin?_range {p q : Position} (hp : p.OnSheet) (hq : q.OnSheet) :
    ∃ m, areaForm.begin? (p.address ++ ":" ++ q.address) = some m ∧
      m.group 1 = p.colName ∧ m.group 2 = ofNat p.row ∧ m.group 3 = q.colName ∧ m.group 4 = ofNat q.row := by
  have h₀ := Stands.start (p.address ++ ":" ++ q.address).toList
  rw [begin?]
  generalize (p.address ++ ":" ++ q.address).toList.toArray = s at h₀ ⊢
  rw [toList_range, ← append_nil (natL q.row)] at h₀
  have h₁ := h₀.append
  have h₂ := h₁.append
  have h₃ := h₂.tail
  have h₄ := h₃.append
  have hsize := h₀.size (Nat.zero_le _)
  simp only [length_append, length_cons, length_nil] at hsize
  have hdigits : ∀ (n : Nat) (v : List Char) (c : Char), (natL n ++ v).head? = some c → isAsciiUpper c = false := by
    intro n v c hc
    exact isAsciiUpper_eq_false_of_digit (isAsciiDigit_head?_natL hc)
  have hmatch := matchAt?_of_run (i := 0) (s := s) (p := areaForm)
    (run_rep_one h₀ (by omega) (capitals_letters _) (length_letters hp.col_pos hp.col_le).1 nofun
      (.inl (hdigits _ _)) (run_digits h₁ (by omega) (by rintro c ⟨⟩; decide)
        ((run_one h₂ (by decide)).trans (run_rep_one h₃ (by omega) (capitals_letters _)
          (length_letters hq.col_pos hq.col_le).1 nofun (.inl (hdigits _ _)) (run_digits h₄ (by omega) nofun rfl)))))
  exact ⟨_, hmatch, congrArg ofList h₀.extract, congrArg ofList h₁.extract,
    congrArg ofList h₃.extract, congrArg ofList h₄.extract⟩

namespace Address

variable {ls r : List Char} {n : Nat} {p : Position}

theorem columnOf_capitals (h : Capitals ls) : columnOf ls = (spelled ls).toNat := by
  have hupper : ∀ c ∈ ls, c.toUpper = c := by
    intro c hc
    have hcap := isAsciiUpper_iff.1 (h c hc)
    have hlower : c.isLower = false := by
      simp only [Char.isLower, Bool.and_eq_false_iff, decide_eq_false_iff_not, ge_iff_le, UInt32.le_iff_toNat_le]
      have ha : ('a' : Char).val.toNat = 97 := rfl
      have hc : c.toNat = c.val.toNat := rfl
      omega
    rw [Char.toUpper, dif_neg (by simpa [Char.isLower] using hlower)]
  rw [columnOf, map_congr_left hupper, map_id']

theorem columnOf_letters : columnOf (letters n) = n := by
  rw [columnOf_capitals (capitals_letters n), spelled_letters, Int.toNat_natCast]

theorem isAsciiLetter_of_mem_letters (h : c ∈ letters n) : isAsciiLetter c = true := by
  rw [isAsciiLetter, capitals_letters n c h, Bool.true_or]

theorem columnNumber_name (h : 1 ≤ n) (hlast : n ≤ last) : columnNumber (name n) = .ok n := by
  obtain ⟨hlo, hhi⟩ := length_letters h hlast
  have hletters : (letters n).all isAsciiLetter = true := all_eq_true.2 fun c hc => isAsciiLetter_of_mem_letters hc
  rw [columnNumber, name, toList_ofList, Int.toNat_natCast]
  simp only [hlo, hhi, hletters, columnOf_letters, decide_true, Bool.and_self, if_true]

/-! Corners -/

variable {t : Char → Bool}

theorem cons_append_ne_dollar {cs : List Char} (hall : ∀ d ∈ c :: cs, t d = true)
    (ht : t '$' = false) (r' : List Char) : c :: cs ++ r ≠ '$' :: r' := by
  rintro ⟨⟩
  exact Bool.false_ne_true (ht.symm.trans (hall '$' mem_cons_self))

theorem columnPart_append (hall : ∀ c ∈ ls, isAsciiLetter c = true) (hlo : 1 ≤ ls.length) (hhi : ls.length ≤ 3)
    (hr : ∀ c, r.head? = some c → isAsciiLetter c = false) : columnPart (ls ++ r) = (some ls, r) := by
  obtain ⟨c, cs, rfl⟩ := exists_cons_of_length_pos (by omega : 0 < ls.length)
  rw [columnPart]
  · rw [takeWhile_take_append hall hhi hr, isEmpty_cons, if_neg (by decide), drop_left]
  · exact cons_append_ne_dollar hall (by decide)

theorem columnPart_letters (h : 1 ≤ n) (hlast : n ≤ last) (hr : ∀ c, r.head? = some c → isAsciiLetter c = false) :
    columnPart (letters n ++ r) = (some (letters n), r) := by
  obtain ⟨hlo, hhi⟩ := length_letters h hlast
  exact columnPart_append (fun c hc => isAsciiLetter_of_mem_letters hc) hlo hhi hr

theorem rowPart_append {ds : List Char} (hall : ∀ c ∈ ds, isDecimal c = true) (hne : ds ≠ [])
    (hr : ∀ c, r.head? = some c → isDecimal c = false) : rowPart (ds ++ r) = (some ds, r) := by
  obtain ⟨c, cs, rfl⟩ := exists_cons_of_ne_nil hne
  have hspan := span_append hall hr
  rw [rowPart]
  · rw [hspan.1, hspan.2, isEmpty_cons, if_neg (by decide)]
  · exact cons_append_ne_dollar hall (by decide)

theorem rowPart_natL (n : Nat) (hr : ∀ c, r.head? = some c → isDecimal c = false) :
    rowPart (natL n ++ r) = (some (natL n), r) := by
  obtain ⟨c, cs, hc, -⟩ := exists_natL_eq_cons n
  exact rowPart_append (fun c hc => isDecimal_of_mem_natL hc) (by rw [hc]; exact cons_ne_nil c cs) hr

theorem isAsciiLetter_head?_natL (n : Nat) (r : List Char) (c : Char)
    (h : (natL n ++ r).head? = some c) : isAsciiLetter c = false :=
  isAsciiLetter_eq_false_of_decimal (isDecimal_of_digit (isAsciiDigit_head?_natL h))

theorem corner_address (hp : p.OnSheet) (hr : ∀ c, r.head? = some c → isDecimal c = false) :
    columnPart (letters p.col ++ (natL p.row ++ r)) = (some (letters p.col), natL p.row ++ r) ∧
      rowPart (natL p.row ++ r) = (some (natL p.row), r) :=
  ⟨columnPart_letters hp.col_pos hp.col_le (isAsciiLetter_head?_natL _ _), rowPart_natL p.row hr⟩

theorem bounds_address (hp : p.OnSheet) : bounds p.address = .ok ⟨some p.col, some p.row, some p.col, some p.row⟩ := by
  obtain ⟨hcol, hrow⟩ := corner_address (r := []) hp nofun
  rw [bounds, toList_address, ← append_nil (natL p.row), hcol]
  dsimp only
  rw [hrow]
  simp [columnOf_letters, natOfDigits_natL]

theorem bounds_range {q : Position} (hp : p.OnSheet) (hq : q.OnSheet) :
    bounds (p.address ++ ":" ++ q.address) = .ok ⟨some p.col, some p.row, some q.col, some q.row⟩ := by
  obtain ⟨hcol, hrow⟩ := corner_address (r := ':' :: (letters q.col ++ natL q.row)) hp (by rintro c ⟨⟩; decide)
  obtain ⟨hcol', hrow'⟩ := corner_address (r := []) hq nofun
  rw [append_nil] at hcol' hrow'
  rw [bounds, toList_range, hcol]
  dsimp only
  rw [hrow]
  split
  · next heq => cases heq
  · next heq => cases heq
  · next r heq =>
    cases heq
    rw [hcol']
    rw [hrow']
    simp [columnOf_letters, natOfDigits_natL]
  · next hother => exact absurd rfl (hother _)

theorem target_address (hp : p.OnSheet) : target p.address = .ok (.cell p) := by
  have hcolon : p.address.toList.contains ':' = false := by
    rw [Bool.eq_false_iff, ne_eq, contains_iff_mem]
    exact p.not_mem_address (by decide)
  have hrow : ¬ (p.row = 0 ∨ maxRow < p.row) := by
    have := hp.row_pos
    have := hp.row_le
    omega
  rw [target, bounds_address hp]
  show (if _ then _ else _) = _
  rw [if_neg (by rw [hcolon]; decide), if_neg (by simpa using hrow)]
  rfl

end Address

/-! Blanks and numbers -/

variable {s b : List Char}

theorem Text.dropRightWhileL_append (hb : ∀ c ∈ b, t c = true)
    (hlast : ∀ c, s.getLast? = some c → t c = false) : dropRightWhileL t (s ++ b) = s := by
  rw [dropRightWhileL, reverse_append, (span_append (fun c hc => hb c (mem_reverse.1 hc)) (by rwa [head?_reverse])).2,
    reverse_reverse]

/-- What is stripped stands at both ends of a text whose own ends stay. -/
theorem Text.stripWhileL_append {a : List Char} (ha : ∀ c ∈ a, t c = true)
    (hb : ∀ c ∈ b, t c = true) (hhead : ∀ c, s.head? = some c → t c = false)
    (hlast : ∀ c, s.getLast? = some c → t c = false) : stripWhileL t (a ++ (s ++ b)) = s := by
  rw [stripWhileL]
  cases s with
  | nil => rw [nil_append, dropWhile_append_of_pos ha, dropWhile_eq_nil_iff.2 hb]; rfl
  | cons c s => rw [(span_append ha (r := c :: s ++ b) hhead).2, dropRightWhileL_append hb hlast]

theorem Text.stripWhileL_eq_self (h : ∀ c ∈ s, t c = false) : stripWhileL t s = s := by
  have hstrip := stripWhileL_append (a := []) (b := []) nofun nofun (fun c hc => h c (mem_of_head? hc))
    fun c hc => h c (mem_of_getLast? hc)
  rwa [append_nil] at hstrip

theorem Text.isBlank_eq_false (h : 48 ≤ c.toNat ∧ c.toNat ≤ 57 ∨ 65 ≤ c.toNat ∧ c.toNat ≤ 90) : isBlank c = false := by
  simp only [isBlank, Bool.or_eq_false_iff, Bool.and_eq_false_iff, decide_eq_false_iff_not]
  omega

theorem Position.plain_of_mem_address {p : Position} (h : c ∈ p.address.toList) : c ≠ ';' ∧ isBlank c = false := by
  rw [toList_address, mem_append] at h
  have hrange : 48 ≤ c.toNat ∧ c.toNat ≤ 57 ∨ 65 ≤ c.toNat ∧ c.toNat ≤ 90 := by
    rcases h with h | h
    · exact .inr (isAsciiUpper_iff.1 (capitals_letters _ c h))
    · exact .inl (isAsciiDigit_iff.1 (isAsciiDigit_of_mem_natL h))
  refine ⟨?_, ?_⟩
  · rintro rfl
    exact absurd hrange (by decide)
  · exact isBlank_eq_false hrange

theorem Number.scanDigitsFrom_eq (h : ∀ c ∈ s, isDecimal c = true) (inside : Bool) :
    scanDigitsFrom isDecimal inside s = (s, []) := by
  induction s generalizing inside with
  | nil => rfl
  | cons c s ih => rw [scanDigitsFrom, if_pos (h c mem_cons_self), ih fun d hd => h d (mem_cons_of_mem _ hd)]

theorem Number.int?_ofInt {k : Int} (h : (natL k.natAbs).length ≤ maxDigits) : int? (Text.ofInt k) = some k := by
  have hread : ∀ (neg : Bool) (u : List Char), (∀ c ∈ u, isBlank c = false) →
      scanSign (u ++ natL k.natAbs) = (neg, natL k.natAbs) →
      int? (ofList (u ++ natL k.natAbs)) = some (signed neg k.natAbs) := by
    intro neg u hu hsign
    obtain ⟨c, cs, hc, -⟩ := exists_natL_eq_cons k.natAbs
    have hblank : ∀ d ∈ u ++ natL k.natAbs, isBlank d = false := fun d hd =>
      (mem_append.1 hd).elim (hu d) fun hd => isBlank_eq_false (.inl (isAsciiDigit_iff.1 (isAsciiDigit_of_mem_natL hd)))
    have hscan : scanDigits (natL k.natAbs) = (natL k.natAbs, []) :=
      scanDigitsFrom_eq (fun d hd => isDecimal_of_mem_natL hd) false
    have hvalue := natOfDigits_natL k.natAbs
    rw [int?, toList_ofList, stripL, stripWhileL_eq_self hblank, hsign]
    dsimp only
    rw [hscan]
    rw [hc] at h hvalue ⊢
    rw [length_cons] at h
    dsimp only
    rw [if_neg (by omega), hvalue]
  cases k with
  | ofNat n =>
    obtain ⟨c, cs, hc, hdigit⟩ := exists_natL_eq_cons n
    have hc' := isAsciiDigit_iff.1 hdigit
    have hsign : scanSign (natL n) = (false, natL n) := by
      rw [hc, scanSign]
      all_goals
        rintro r ⟨⟩
        exact absurd hc'.1 (by decide)
    exact hread false [] nofun hsign
  | negSucc n =>
    have htext : Text.ofInt (.negSucc n) = ofList (['-'] ++ natL (n + 1)) := by
      rw [Text.ofInt, Text.ofNat, String.ofList_append]
    rw [htext]
    exact hread true ['-'] (fun c hc => by rw [mem_singleton.1 hc]; rfl) rfl

theorem Number.int?_ofNat {n : Nat} (h : (natL n).length ≤ maxDigits) : int? (Text.ofNat n) = some n :=
  int?_ofInt (k := n) h

namespace Area

structure OnSheet (a : Area) : Prop where
  corner : a.corner.OnSheet
  last : a.last.OnSheet
  rows : a.minRow ≤ a.maxRow
  cols : a.minCol ≤ a.maxCol

theorem bounds_name {a : Area} (h : a.OnSheet) :
    Address.bounds a.name = .ok ⟨some a.minCol, some a.minRow, some a.maxCol, some a.maxRow⟩ := by
  rw [name]
  split
  · next heq =>
    rw [address_inj] at heq
    have hcol : a.minCol = a.maxCol := congrArg col heq
    have hrow : a.minRow = a.maxRow := congrArg row heq
    rw [Address.bounds_address h.corner, ← hcol, ← hrow]
    rfl
  · exact Address.bounds_range h.corner h.last

theorem area?_name {a : Area} (h : a.OnSheet) : Address.area? a.name = some a := by
  have hrow : 1 ≤ a.minRow := h.corner.row_pos
  have hlast : a.maxRow ≤ Address.maxRow := h.last.row_le
  rw [Address.area?, bounds_name h]
  dsimp only
  rw [if_pos (by simp [hrow, hlast, h.rows, h.cols])]

end Area

end Sheetwork
