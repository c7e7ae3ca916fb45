import Sheetwork.Plan.Functions.Lookup
import Sheetwork.Proofs.Number.Whole
/-
  Plans: a table reaches a lookup as the list of its values, row by row. The lookup takes it to be as wide as the
  first number, from the wanted column on, that divides how many values there are (as high, where it looks along the
  first row). That is the table's own width just when no number below it, from the wanted column on, divides its size.
-/

open List

namespace Sheetwork.Plan.Functions

structure IsTable (rows : List (List Value)) (r n : Nat) : Prop where
  length_eq : rows.length = r
  width_eq : ∀ row ∈ rows, row.length = n

def columns (n : Nat) (rows : List (List Value)) : List (List Value) := (range n).map fun j => rows.map (at_ · j)

/-- A key that can be looked up: two numbers are compared as floats, and both have to be in range. -/
def Comparable (wanted key : Value) : Prop :=
  key.isNumber = true → wanted.isNumber = true → (∃ x, key.toFloat = .ok x) ∧ ∃ y, wanted.toFloat = .ok y

def holds (answer : Outcome Bool) : Bool := answer.toOption == some true

/-- The entry of the first line that starts with the wanted key. -/
def lookedUp (same : Value → Value → Outcome Bool) (wanted : Value) (k : Nat) (lines : List (List Value)) : Value :=
  ((lines.find? fun line => holds (same wanted (at_ line 0))).map (at_ · (k - 1))).getD .null

/-! ### Tables as lists -/

variable {r n m k d j p : Nat}

theorem length_flatten_table {rows : List (List Value)} (h : IsTable rows r n) :
    rows.flatten.length = r * n := by
  rw [length_flatten, map_congr_left h.width_eq, map_const', sum_replicate, h.length_eq, smul_eq_mul]

theorem at_flatten (hj : j < n) : ∀ {rows : List (List Value)} (_ : ∀ row ∈ rows, row.length = n) (i : Nat),
    at_ rows.flatten (i * n + j) = at_ (rows[i]?.getD []) j
  | [], _, i => by simp [at_]
  | row :: rows, h, 0 => by
    have hrow : j < row.length := by rw [h row mem_cons_self]; exact hj
    rw [Nat.zero_mul, Nat.zero_add, at_, flatten_cons, getElem?_append_left hrow]
    rfl
  | row :: rows, h, i + 1 => by
    have hrow := h row mem_cons_self
    have hshift : (i + 1) * n + j - row.length = i * n + j := by rw [hrow, Nat.succ_mul]; omega
    rw [at_, flatten_cons, getElem?_append_right (by rw [hrow, Nat.succ_mul]; omega), hshift]
    exact at_flatten hj (fun row' h' => h row' (mem_cons_of_mem row h')) i

/-! ### The guessed width -/

theorem divisorFrom_eq_some (hd : d ∣ m) (hm : 0 < m) : ∀ {fuel k : Nat}, k ≤ d → m < fuel + k →
    (∀ e, k ≤ e → e < d → ¬ e ∣ m) → divisorFrom m fuel k = some d
  | 0, k, hk, hfuel, _ => absurd (Nat.le_of_dvd hm hd) (by omega)
  | fuel + 1, k, hk, hfuel, hleast => by
    rw [divisorFrom, if_neg (by have := Nat.le_of_dvd hm hd; omega)]
    rcases Nat.lt_or_eq_of_le hk with hlt | rfl
    · rw [if_neg fun h => hleast k (Nat.le_refl k) hlt (Nat.dvd_of_mod_eq_zero h)]
      exact divisorFrom_eq_some hd hm hlt (by omega) fun e he => hleast e (by omega)
    · rw [if_pos (Nat.mod_eq_zero_of_dvd hd)]

theorem exists_least_divisor (hn : n ∣ m) (hk : k ≤ n) :
    ∃ d, k ≤ d ∧ d ≤ n ∧ d ∣ m ∧ ∀ e, k ≤ e → e < d → ¬ e ∣ m := by
  have hex : ∃ d, k ≤ d ∧ d ∣ m := ⟨n, hk, hn⟩
  obtain ⟨hle, hdvd⟩ := Nat.find_spec hex
  exact ⟨Nat.find hex, hle, Nat.find_le ⟨hk, hn⟩, hdvd, fun e he hlt hd => Nat.find_min hex hlt ⟨he, hd⟩⟩

theorem whole_int (hlt : k < 2 ^ 53) : whole (.int k) = .ok (k : Int) := by
  have hk : (k : Int).natAbs < 2 ^ 53 := hlt
  show (Value.floatOfInt k >>= Value.intOfFloat) = _
  rw [Value.floatOfInt, Number.isInf_ofInt hk]
  show Value.intOfFloat (Number.ofInt k) = _
  rw [Value.intOfFloat, Number.truncate?_ofInt hk]

section

variable {vs : List Value} (hm : vs.length = m) (hpos : 0 < m) (hk : 1 ≤ k) (hlt : k < 2 ^ 53)
  (hd : d ∣ m) (hle : k ≤ d) (hleast : ∀ e, k ≤ e → e < d → ¬ e ∣ m)
include hm hpos hk hlt hd hle hleast

theorem shape_eq : shape (.list vs) (.int k) = .ok (some (vs, k, d)) := by
  subst hm
  obtain ⟨v, vs', rfl⟩ := exists_cons_of_length_pos hpos
  show (whole (.int k) >>= _) = _
  rw [whole_int hlt]
  show (if (k : Int) < 1 then _ else _) = _
  rw [if_neg (by omega), Int.toNat_natCast, divisorFrom_eq_some hd hpos hle (by omega) hleast]
  rfl

theorem vlookup_eq {wanted : Value} : vlookup wanted (.list vs) (.int k) (.bool false) = firstBeside (sameKey wanted)
    ((range (m / d)).map fun i => (at_ vs (i * d), at_ vs (i * d + k - 1))) := by
  rw [vlookup, shape_eq hm hpos hk hlt hd hle hleast, ← hm]
  rfl

theorem hlookup_eq {wanted : Value} : hlookup wanted (.list vs) (.int k) (.bool false) = firstBeside (sameHeading wanted)
    ((range (m / d)).map fun c => (at_ vs c, at_ vs ((k - 1) * (m / d) + c))) := by
  rw [hlookup, shape_eq hm hpos hk hlt hd hle hleast, ← hm]
  rfl

end

/-! ### The first key -/

section

variable {wanted key : Value} (h : Comparable wanted key)

include h

theorem exists_isCloseTo (hnum : (key.isNumber && wanted.isNumber) = true) : ∃ b, isCloseTo key wanted = .ok b := by
  rw [Bool.and_eq_true] at hnum
  obtain ⟨⟨x, hx⟩, y, hy⟩ := h hnum.1 hnum.2
  rw [isCloseTo, hx, hy]
  exact ⟨_, rfl⟩

theorem exists_sameKey : ∃ b, sameKey wanted key = .ok b := by
  unfold sameKey
  split_ifs with heq hnum
  · exact ⟨true, rfl⟩
  · exact exists_isCloseTo h hnum
  · exact ⟨_, rfl⟩

theorem exists_sameHeading : ∃ b, sameHeading wanted key = .ok b := by
  unfold sameHeading
  split_ifs with heq hnum
  · exact ⟨true, rfl⟩
  · exact exists_isCloseTo h hnum
  · split <;> exact ⟨_, rfl⟩

end

theorem firstBeside_eq {test : Value → Outcome Bool} : ∀ {pairs : List (Value × Value)},
    (∀ x ∈ pairs, ∃ b, test x.1 = .ok b) →
    firstBeside test pairs = .ok (((pairs.find? fun x => holds (test x.1)).map Prod.snd).getD .null)
  | [], _ => rfl
  | (k, v) :: pairs, h => by
    obtain ⟨b, hb⟩ := h (k, v) mem_cons_self
    have hrest := firstBeside_eq fun x hx => h x (mem_cons_of_mem (k, v) hx)
    rw [firstBeside, find?_cons, hb]
    cases b with
    | true => rfl
    | false => exact hrest

variable {same : Value → Value → Outcome Bool} {lines : List (List Value)}

theorem firstBeside_lines {wanted : Value} (h : ∀ line ∈ lines, ∃ b, same wanted (at_ line 0) = .ok b) :
    firstBeside (same wanted) (lines.map fun line => (at_ line 0, at_ line (k - 1))) =
      .ok (lookedUp same wanted k lines) := by
  rw [firstBeside_eq fun x hx => ?_, find?_map, Option.map_map]
  · rfl
  · obtain ⟨line, hline, rfl⟩ := mem_map.1 hx
    exact h line hline

/-! ### Tables that are read by their own width -/

theorem map_eq_map_range {α : Type} (f : List Value → α) (rows : List (List Value)) :
    rows.map f = (range rows.length).map fun i => f (rows[i]?.getD []) := by
  refine ext_getElem (by simp) fun i hi _ => ?_
  rw [length_map] at hi
  simp [hi]

theorem at_map_at_ (rows : List (List Value)) (i j : Nat) : at_ (rows.map (at_ · j)) i = at_ (rows[i]?.getD []) j := by
  rw [at_, getElem?_map]
  cases rows[i]? with
  | none => rfl
  | some row => rfl

def VlookupReads (r n k : Nat) : Prop :=
  ∀ rows wanted, IsTable rows r n → (∀ row ∈ rows, Comparable wanted (at_ row 0)) →
    vlookup wanted (.list rows.flatten) (.int k) (.bool false) = .ok (lookedUp sameKey wanted k rows)

def HlookupReads (r n k : Nat) : Prop :=
  ∀ rows wanted, IsTable rows r n → (∀ col ∈ columns n rows, Comparable wanted (at_ col 0)) →
    hlookup wanted (.list rows.flatten) (.int k) (.bool false) = .ok (lookedUp sameHeading wanted k (columns n rows))

theorem vlookupReads (hr : 1 ≤ r) (hk : 1 ≤ k) (hlt : k < 2 ^ 53) (hkn : k ≤ n)
    (hleast : ∀ d, k ≤ d → d < n → ¬ d ∣ r * n) : VlookupReads r n k := by
  intro rows wanted htable hcomparable
  have hlen := length_flatten_table htable
  have hn : 0 < n := Nat.lt_of_lt_of_le hk hkn
  rw [vlookup_eq hlen (Nat.mul_pos hr hn) hk hlt (Nat.dvd_mul_left n r) hkn hleast, Nat.mul_div_cancel _ hn,
    ← firstBeside_lines fun row hrow => exists_sameKey (hcomparable row hrow)]
  congr 1
  rw [map_eq_map_range, htable.length_eq]
  refine map_congr_left fun i _ => Prod.ext ?_ ?_
  · exact at_flatten hn htable.width_eq i
  · show at_ rows.flatten (i * n + k - 1) = _
    rw [Nat.add_sub_assoc hk]
    exact at_flatten (by omega) htable.width_eq i

theorem hlookupReads (hn : 1 ≤ n) (hk : 1 ≤ k) (hlt : k < 2 ^ 53) (hkr : k ≤ r)
    (hleast : ∀ d, k ≤ d → d < r → ¬ d ∣ r * n) : HlookupReads r n k := by
  intro rows wanted htable hcomparable
  have hlen := length_flatten_table htable
  have hr : 0 < r := Nat.lt_of_lt_of_le hk hkr
  rw [hlookup_eq hlen (Nat.mul_pos hr hn) hk hlt (Nat.dvd_mul_right r n) hkr hleast, Nat.mul_div_cancel_left _ hr,
    ← firstBeside_lines fun col hcol => exists_sameHeading (hcomparable col hcol)]
  congr 1
  rw [columns, map_map]
  refine map_congr_left fun j hj => Prod.ext ?_ ?_
  · have hat := at_flatten (mem_range.1 hj) htable.width_eq 0
    rw [Nat.zero_mul, Nat.zero_add] at hat
    exact hat.trans (at_map_at_ rows 0 j).symm
  · exact (at_flatten (mem_range.1 hj) htable.width_eq (k - 1)).trans (at_map_at_ rows (k - 1) j).symm

/-! ### Tables that are not -/

/-- A table of empty texts but for one. -/
def spotted (r n p : Nat) : List (List Value) :=
  (range r).map fun i => (range n).map fun j => .text (if i * n + j = p then "a" else "")

theorem isTable_spotted (r n p : Nat) : IsTable (spotted r n p) r n where
  length_eq := by rw [spotted, length_map, length_range]
  width_eq row hrow := by
    obtain ⟨i, _, rfl⟩ := mem_map.1 hrow
    rw [length_map, length_range]

theorem at_spotted {i : Nat} (hi : i < r) (hj : j < n) :
    at_ ((spotted r n p)[i]?.getD []) j = .text (if i * n + j = p then "a" else "") := by
  simp [at_, spotted, hi, hj]

theorem at_flatten_spotted {q : Nat} (hq : q < r * n) :
    at_ (spotted r n p).flatten q = .text (if q = p then "a" else "") := by
  have hn : 0 < n := Nat.pos_of_mul_pos_left (Nat.zero_lt_of_lt hq)
  have hsplit : q / n * n + q % n = q := Nat.div_add_mod' q n
  have hat := at_flatten (Nat.mod_lt q hn) (isTable_spotted r n p).width_eq (q / n)
  rw [at_spotted (Nat.div_lt_of_lt_mul (by rwa [Nat.mul_comm])) (Nat.mod_lt q hn), hsplit] at hat
  exact hat

theorem comparable_text (s : String) (v : Value) : Comparable (.text s) v := fun _ h => by cases h

theorem lookedUp_eq_null (hsame : same (.text "a") (.text "") = .ok false) (h : ∀ line ∈ lines, at_ line 0 = .text "") :
    lookedUp same (.text "a") k lines = .null := by
  rw [lookedUp, find?_eq_none.2 fun line hline => ?_]
  · rfl
  · rw [h line hline, hsame]
    decide

theorem firstBeside_ne_null (hsame : same (.text "a") (.text "a") = .ok true)
    (hok : ∀ key, ∃ b, same (.text "a") key = .ok b) {pairs : List (Value × Value)}
    (htext : ∀ x ∈ pairs, ∃ s, x.2 = .text s) (hkey : ∃ x ∈ pairs, x.1 = .text "a") :
    firstBeside (same (.text "a")) pairs ≠ .ok .null := by
  rw [firstBeside_eq fun x _ => hok x.1]
  cases hfind : pairs.find? fun x => holds (same (.text "a") x.1) with
  | none =>
    obtain ⟨x, hx, hxkey⟩ := hkey
    have hnot := find?_eq_none.1 hfind x hx
    rw [hxkey, hsame] at hnot
    exact absurd rfl hnot
  | some x =>
    obtain ⟨s, hs⟩ := htext x (mem_of_find?_eq_some hfind)
    intro hnull
    have hval : x.2 = .null := Except.ok.inj hnull
    rw [hs] at hval
    cases hval

theorem not_vlookupReads (hr : 1 ≤ r) (hk : 1 ≤ k) (hlt : k < 2 ^ 53) (hle : k ≤ d) (hdn : d < n)
    (hd : d ∣ r * n) (hleast : ∀ e, k ≤ e → e < d → ¬ e ∣ r * n) : ¬ VlookupReads r n k := by
  intro hreads
  have htable := isTable_spotted r n d
  have hlen := length_flatten_table htable
  have hbound : n ≤ r * n := Nat.le_mul_of_pos_left n hr
  have hnull : lookedUp sameKey (.text "a") k (spotted r n d) = .null := by
    refine lookedUp_eq_null (by decide) fun row hrow => ?_
    obtain ⟨i, hi, rfl⟩ := getElem_of_mem hrow
    have hat := at_spotted (p := d) (i := i) (by rwa [htable.length_eq] at hi) (Nat.zero_lt_of_lt hdn)
    rw [getElem?_eq_getElem hi, if_neg ?_] at hat
    · exact hat
    · cases i with
      | zero => omega
      | succ i => rw [Nat.succ_mul]; omega
  obtain ⟨m, hm⟩ := hd
  have hread := hreads (spotted r n d) (.text "a") htable fun _ _ => comparable_text "a" _
  rw [vlookup_eq hlen (by omega) hk hlt ⟨m, hm⟩ hle hleast, hnull, hm,
    Nat.mul_div_cancel_left _ (by omega)] at hread
  refine firstBeside_ne_null (by decide) (fun key => exists_sameKey (comparable_text "a" key)) ?_ ?_ hread
  · intro x hx
    obtain ⟨i, hi, rfl⟩ := mem_map.1 hx
    have hi' := Nat.mul_le_mul_left d (mem_range.1 hi)
    rw [← hm, Nat.mul_succ, Nat.mul_comm] at hi'
    exact ⟨_, at_flatten_spotted (by omega)⟩
  · have hone : 1 < m := Nat.lt_of_mul_lt_mul_left (a := d) (by omega)
    refine ⟨_, mem_map.2 ⟨1, mem_range.2 hone, rfl⟩, ?_⟩
    rw [Nat.one_mul, at_flatten_spotted (by omega), if_pos rfl]

theorem not_hlookupReads (hn : 1 ≤ n) (hk : 1 ≤ k) (hlt : k < 2 ^ 53) (hle : k ≤ d) (hdr : d < r)
    (hd : d ∣ r * n) (hleast : ∀ e, k ≤ e → e < d → ¬ e ∣ r * n) : ¬ HlookupReads r n k := by
  intro hreads
  have htable := isTable_spotted r n n
  have hlen := length_flatten_table htable
  have hnull : lookedUp sameHeading (.text "a") k (columns n (spotted r n n)) = .null := by
    refine lookedUp_eq_null (by decide) fun col hcol => ?_
    obtain ⟨j, hj, rfl⟩ := mem_map.1 hcol
    rw [at_map_at_, at_spotted (by omega) (mem_range.1 hj), Nat.zero_mul, Nat.zero_add,
      if_neg (Nat.ne_of_lt (mem_range.1 hj))]
  obtain ⟨m, hm⟩ := hd
  have hmn : n < m := Nat.lt_of_mul_lt_mul_left (a := d) (hm ▸ Nat.mul_lt_mul_of_pos_right hdr hn)
  have hread := hreads (spotted r n n) (.text "a") htable fun _ _ => comparable_text "a" _
  rw [hlookup_eq hlen (Nat.mul_pos (by omega) hn) hk hlt ⟨m, hm⟩ hle hleast, hnull, hm,
    Nat.mul_div_cancel_left _ (by omega)] at hread
  refine firstBeside_ne_null (by decide) (fun key => exists_sameHeading (comparable_text "a" key)) ?_ ?_ hread
  · intro x hx
    obtain ⟨c, hc, rfl⟩ := mem_map.1 hx
    have hc' := mem_range.1 hc
    have hk' := Nat.mul_le_mul_right m (show k - 1 + 1 ≤ d by omega)
    rw [← hm, Nat.succ_mul] at hk'
    exact ⟨_, at_flatten_spotted (by omega)⟩
  · refine ⟨_, mem_map.2 ⟨n, mem_range.2 hmn, rfl⟩, ?_⟩
    have hbound : m ≤ r * n := hm ▸ Nat.le_mul_of_pos_left m (by omega)
    rw [at_flatten_spotted (by omega), if_pos rfl]

/-- Every table of some shape is read as it stands just when its width, or its height, is the first
divisor of its size from the wanted column, or row, on. -/
theorem lookup_reads_table_iff (hr : 1 ≤ r) (hn : 1 ≤ n) (hk : 1 ≤ k) (hlt : k < 2 ^ 53) :
    (k ≤ n → (VlookupReads r n k ↔ ∀ d, k ≤ d → d < n → ¬ d ∣ r * n)) ∧
      (k ≤ r → (HlookupReads r n k ↔ ∀ d, k ≤ d → d < r → ¬ d ∣ r * n)) := by
  refine ⟨fun hkn => ⟨fun hreads => ?_, vlookupReads hr hk hlt hkn⟩,
    fun hkr => ⟨fun hreads => ?_, hlookupReads hn hk hlt hkr⟩⟩
  · obtain ⟨d, hle, hdn, hd, hleast⟩ := exists_least_divisor (Nat.dvd_mul_left n r) hkn
    rcases Nat.lt_or_eq_of_le hdn with hlow | rfl
    · exact absurd hreads (not_vlookupReads hr hk hlt hle hlow hd hleast)
    · exact hleast
  · obtain ⟨d, hle, hdr, hd, hleast⟩ := exists_least_divisor (Nat.dvd_mul_right r n) hkr
    rcases Nat.lt_or_eq_of_le hdr with hlow | rfl
    · exact absurd hreads (not_hlookupReads hn hk hlt hle hlow hd hleast)
    · exact hleast

/-- Two rows of three are read for their third column and not for their second. -/
theorem lookup_reads_two_by_three : VlookupReads 2 3 3 ∧ ¬ VlookupReads 2 3 2 ∧ HlookupReads 2 3 2 :=
  ⟨((lookup_reads_table_iff (by decide) (by decide) (by decide) (by decide)).1 (by decide)).2
      fun d hle hlt => absurd hle (by omega),
    fun hreads => ((lookup_reads_table_iff (by decide) (by decide) (by decide) (by decide)).1 (by decide)).1
      hreads 2 (by decide) (by decide) (by decide),
    ((lookup_reads_table_iff (by decide) (by decide) (by decide) (by decide)).2 (by decide)).2
      fun d hle hlt => absurd hle (by omega)⟩

end Sheetwork.Plan.Functions
