import Sheetwork.Proofs.Formula.Drag
import Sheetwork.Proofs.Text.Pattern
import Sheetwork.Proofs.Text.Replacement
/-
  Formulas: shifting gives back what was dragged. A reference is a qualifier and one or two corners
  (`Mention.Spelled`), and is read from its text whatever the corners are; shifting keeps the qualifier and moves the
  corners (`Mention.shift?_eq`), if the qualifier is found again (`Mention.Shiftable`). Main statements:
  `rewrites_shift`, `dragged_of_dragPattern_eq`.
-/

open List

namespace Sheetwork.Formula

open Text Mention MentionKind

/-! Corners -/

def Corner.text (c : Corner) : List Char := dollars c.colFixed ++ (c.col ++ (dollars c.rowFixed ++ c.row))

/-- One to three capitals, and digits. -/
structure Corner.WellFormed (c : Corner) : Prop where
  capitals : Column.Capitals c.col
  col_ne : c.col ≠ []
  col_le : c.col.length ≤ 3
  digits : ∀ d ∈ c.row, isDecimal d = true
  row_ne : c.row ≠ []

variable {b : Bool} {r s : List Char} {c : Corner}

/-- No digit stands at the beginning of the text. -/
def NoDigit (r : List Char) : Prop := ∀ d, r.head? = some d → isDecimal d = false

theorem dollar_dollars (h : r.head? ≠ some '$') : dollar (dollars b ++ r) = (b, r) := by
  cases b with
  | true => rfl
  | false =>
    rw [dollars, if_neg Bool.false_ne_true, nil_append]
    unfold dollar
    split
    · exact absurd rfl h
    · rfl

theorem eq_of_dollar (h : dollar s = (b, r)) : s = dollars b ++ r := by
  unfold dollar at h
  split at h <;> cases h <;> rfl

theorem capitals_append {col : List Char} (hc : Column.Capitals col) (hlen : col.length ≤ 3)
    (hr : ∀ d, r.head? = some d → isAsciiUpper d = false) : capitals (col ++ r) = col :=
  takeWhile_take_append hc hlen hr

theorem corner?_of_dollar {s₁ s₂ : List Char} {b' : Bool} (h₁ : dollar s = (b, s₁))
    (h₂ : dollar (s₁.drop (capitals s₁).length) = (b', s₂)) :
    corner? s = if (capitals s₁).isEmpty || (s₂.takeWhile isDecimal).isEmpty then none
      else some (⟨b, capitals s₁, b', s₂.takeWhile isDecimal⟩, s₂.dropWhile isDecimal) := by
  simp only [corner?, h₁, h₂]

theorem corner?_text (hc : c.WellFormed) (hr : NoDigit r) : corner? (c.text ++ r) = some (c, r) := by
  obtain ⟨d, ds, hd⟩ := exists_cons_of_ne_nil hc.col_ne
  obtain ⟨e, es, he⟩ := exists_cons_of_ne_nil hc.row_ne
  have hupper : isAsciiUpper d = true := hc.capitals d (by rw [hd]; exact mem_cons_self)
  have hdecimal : isDecimal e = true := hc.digits e (by rw [he]; exact mem_cons_self)
  have hcol : (c.col ++ (dollars c.rowFixed ++ (c.row ++ r))).head? ≠ some '$' := by
    rw [hd, cons_append, head?_cons]
    rintro ⟨⟩
    cases hupper
  have hrow : (c.row ++ r).head? ≠ some '$' := by
    rw [he, cons_append, head?_cons]
    rintro ⟨⟩
    cases hdecimal
  have hstop : ∀ x, (dollars c.rowFixed ++ (c.row ++ r)).head? = some x → isAsciiUpper x = false := by
    intro x hx
    cases hfixed : c.rowFixed with
    | true =>
      rw [hfixed] at hx
      cases hx
      rfl
    | false =>
      rw [hfixed, he] at hx
      cases hx
      exact isAsciiUpper_eq_false_of_decimal hdecimal
  have hcapitals := capitals_append hc.capitals hc.col_le hstop
  obtain ⟨htake, hdrop⟩ := span_append hc.digits hr
  have htext : c.text ++ r = dollars c.colFixed ++ (c.col ++ (dollars c.rowFixed ++ (c.row ++ r))) := by
    simp only [Corner.text, append_assoc]
  have hdollar : dollar ((c.col ++ (dollars c.rowFixed ++ (c.row ++ r))).drop
      (capitals (c.col ++ (dollars c.rowFixed ++ (c.row ++ r)))).length) = (c.rowFixed, c.row ++ r) := by
    rw [hcapitals, drop_left, dollar_dollars hrow]
  rw [htext, corner?_of_dollar (dollar_dollars hcol) hdollar, hcapitals, htake, hdrop,
    isEmpty_eq_false_iff.2 hc.col_ne, isEmpty_eq_false_iff.2 hc.row_ne]
  rfl

theorem of_corner? (h : corner? s = some (c, r)) : c.WellFormed ∧ s = c.text ++ r ∧ NoDigit r := by
  obtain ⟨b, s₁, h₁⟩ : ∃ b s₁, dollar s = (b, s₁) := ⟨_, _, rfl⟩
  obtain ⟨b', s₂, h₂⟩ : ∃ b' s₂, dollar (s₁.drop (capitals s₁).length) = (b', s₂) := ⟨_, _, rfl⟩
  rw [corner?_of_dollar h₁ h₂] at h
  split at h
  · cases h
  · next hne =>
    rw [Bool.or_eq_true, not_or, List.isEmpty_iff, List.isEmpty_iff] at hne
    cases h
    have hcol : s₁ = capitals s₁ ++ s₁.drop (capitals s₁).length := by
      have hstart : capitals s₁ <+: s₁ := ( takeWhile_prefix isAsciiUpper).trans ( take_prefix 3 s₁)
      exact (prefix_iff_eq_append.1 hstart).symm
    refine ⟨⟨fun d hd => mem_takeWhile_imp hd, hne.1, ?_, fun d hd => mem_takeWhile_imp hd, hne.2⟩, ?_, fun d hd => ?_⟩
    · exact Nat.le_trans ( takeWhile_prefix isAsciiUpper).length_le (length_take_le 3 s₁)
    · rw [eq_of_dollar h₁]
      simp only [Corner.text, append_assoc, takeWhile_append_dropWhile]
      rw [← eq_of_dollar h₂, ← hcol]
    · have hstop := head?_dropWhile_not isDecimal s₂
      rw [hd] at hstop
      simpa using hstop

/-- The corners of a range with a colon between them, or the corner of a cell. -/
def cornersText (a : Corner) : Option Corner → List Char
  | none => a.text
  | some b => a.text ++ ':' :: b.text

section

variable {a : Corner} {last : Option Corner} {range : Bool}

theorem corners?_text (ha : a.WellFormed) (hlast : ∀ b, last = some b → b.WellFormed) (hr : NoDigit r) :
    corners? last.isSome (cornersText a last ++ r) = some (a, last, r) := by
  cases last with
  | none => rw [corners?, cornersText, corner?_text ha hr]; rfl
  | some b =>
    have hcolon : NoDigit (':' :: (b.text ++ r)) := by
      rintro d ⟨⟩
      decide
    rw [corners?, cornersText, append_assoc, cons_append, corner?_text ha hcolon]
    simp only [Option.isSome_some, if_true, endCorner?, corner?_text (hlast b rfl) hr]

theorem of_corners? (h : corners? range s = some (a, last, r)) : range = last.isSome ∧ a.WellFormed ∧
    (∀ b, last = some b → b.WellFormed) ∧ s = cornersText a last ++ r ∧ NoDigit r := by
  unfold corners? at h
  split at h
  · cases h
  · next c u hc =>
    obtain ⟨hwf, rfl, hu⟩ := of_corner? hc
    split at h
    · next hrange =>
      split at h
      · next b v hend =>
        cases h
        cases u with
        | nil => cases hend
        | cons d u =>
          unfold endCorner? at hend
          split at hend
          · next heq =>
            cases heq
            obtain ⟨hwf', rfl, hv⟩ := of_corner? hend
            refine ⟨hrange, hwf, ?_, ?_, hv⟩
            · rintro c ⟨⟩
              exact hwf'
            · rw [cornersText, append_assoc, cons_append]
          · cases hend
      · cases h
    · next hrange =>
      cases h
      rw [Bool.not_eq_true] at hrange
      exact ⟨hrange, hwf, nofun, rfl, hu⟩

end

/-! What stands before the corners -/

variable {n f : List Char} {sheet : String} {m : Mention} {pos : Nat} {k : MentionKind} {t : Target} {c : Char}

theorem plainSheet?_quoted (hn : ∀ c ∈ n, isQuotable c = true) (hne : n ≠ []) (r : List Char) :
    plainSheet? ('\'' :: (n ++ '\'' :: '!' :: r)) = some (n, r) := by
  have hspan := span_append (t := isQuotable) (r := '\'' :: '!' :: r) hn (by rintro c ⟨⟩; rfl)
  simp only [plainSheet?, hspan, isEmpty_eq_false_iff.2 hne]
  rfl

theorem plainSheet?_bare {u : List Char} (hc : (isAsciiLetter c || c = '_') = true)
    (hu : ∀ d ∈ u, isWord d = true) (r : List Char) : plainSheet? (c :: (u ++ '!' :: r)) = some (c :: u, r) := by
  have hspan := span_append (t := isWord) (r := '!' :: r) hu (by rintro d ⟨⟩; rfl)
  have hquote : c ≠ '\'' := by
    rintro rfl
    cases hc
  unfold plainSheet?
  split
  · next heq => exact absurd (cons.inj heq).1 hquote
  · next heq =>
    cases heq
    simp only [hc, hspan, if_true]
  · next heq => cases heq

theorem plainSheet?_cases (h : plainSheet? s = some (n, r)) :
    (s = '\'' :: (n ++ '\'' :: '!' :: r) ∧ (∀ c ∈ n, isQuotable c = true) ∧ n ≠ []) ∨ ∃ c u, n = c :: u ∧
    s = c :: (u ++ '!' :: r) ∧ (isAsciiLetter c || c = '_') = true ∧ ∀ d ∈ u, isWord d = true := by
  unfold plainSheet? at h
  split at h
  · next u =>
    dsimp only at h
    split at h
    · next rest hrest =>
      split at h
      · cases h
      · next hne =>
        cases h
        refine .inl ⟨?_, fun c hc => mem_takeWhile_imp hc, by simpa using hne⟩
        rw [← hrest, takeWhile_append_dropWhile]
    · cases h
  · next c u _ =>
    split at h
    · next hletter =>
      split at h
      · next rest hrest =>
        cases h
        refine .inr ⟨c, u.takeWhile isWord, rfl, ?_, hletter, fun d hd => mem_takeWhile_imp hd⟩
        rw [← hrest, takeWhile_append_dropWhile]
      · cases h
    · cases h
  · cases h

theorem exists_plainSheet?_append (h : plainSheet? s = some (n, r)) :
    ∃ p, s = p ++ r ∧ ∀ r', plainSheet? (p ++ r') = some (n, r') := by
  rcases plainSheet?_cases h with ⟨rfl, hn, hne⟩ | ⟨c, u, rfl, rfl, hc, hu⟩
  · refine ⟨'\'' :: (n ++ ['\'', '!']), by simp, fun r' => ?_⟩
    simpa using plainSheet?_quoted hn hne r'
  · refine ⟨c :: (u ++ ['!']), by simp, fun r' => ?_⟩
    simpa using plainSheet?_bare hc hu r'

def quote (b : Bool) : List Char := if b then ['\''] else []

theorem unquote_quote (hc : c ≠ '\'') (b : Bool) (r : List Char) : unquote (quote b ++ c :: r) = c :: r := by
  cases b with
  | true => rfl
  | false =>
    unfold unquote
    split
    · next heq => exact absurd (cons.inj heq).1 hc
    · rfl

theorem exists_quote (s : List Char) : ∃ b, s = quote b ++ unquote s := by
  unfold unquote
  split
  · exact ⟨true, rfl⟩
  · exact ⟨false, rfl⟩

theorem workbookSheet?_text (hf : ∀ c ∈ f, decide (c ≠ ']') = true) (hf' : f ≠ []) (hn : ∀ c ∈ n, isUnquoted c = true)
    (hn' : n ≠ []) (b b' : Bool) (r : List Char) :
    workbookSheet? (quote b ++ '[' :: (f ++ ']' :: (n ++ (quote b' ++ '!' :: r)))) = some (f, n, r) := by
  have hfile := span_append (r := ']' :: (n ++ (quote b' ++ '!' :: r))) hf (by rintro c ⟨⟩; rfl)
  have hname := span_append (r := quote b' ++ '!' :: r) hn (by cases b' <;> rintro c ⟨⟩ <;> rfl)
  rw [workbookSheet?, unquote_quote (by decide)]
  simp only [hfile, hname, unquote_quote (by decide : '!' ≠ '\''), isEmpty_eq_false_iff.2 hf',
    isEmpty_eq_false_iff.2 hn']
  rfl

theorem workbookSheet?_cases (h : workbookSheet? s = some (f, n, r)) :
    ∃ b b', s = quote b ++ '[' :: (f ++ ']' :: (n ++ (quote b' ++ '!' :: r))) ∧
      (∀ c ∈ f, decide (c ≠ ']') = true) ∧ f ≠ [] ∧ (∀ c ∈ n, isUnquoted c = true) ∧ n ≠ [] := by
  rw [workbookSheet?] at h
  split at h
  · next u hu =>
    split at h
    · next v hv =>
      split at h
      · next rest hrest =>
        dsimp only at h
        split at h
        · cases h
        · next hne =>
          cases h
          obtain ⟨b, hb⟩ := exists_quote s
          obtain ⟨b', hb'⟩ := exists_quote (v.dropWhile isUnquoted)
          rw [Bool.or_eq_true, not_or, List.isEmpty_iff, List.isEmpty_iff] at hne
          have hfile : ∀ c ∈ u.takeWhile (· ≠ ']'), decide (c ≠ ']') = true := by
            intro c hc
            have := mem_takeWhile_imp hc
            exact this
          refine ⟨b, b', ?_, hfile, hne.1, fun c hc => mem_takeWhile_imp hc, hne.2⟩
          rw [← hrest, ← hb', takeWhile_append_dropWhile, ← hv, takeWhile_append_dropWhile, ← hu, ← hb]
      · cases h
    · cases h
  · cases h

theorem exists_workbookSheet?_append (h : workbookSheet? s = some (f, n, r)) :
    ∃ p, s = p ++ r ∧ ∀ r', workbookSheet? (p ++ r') = some (f, n, r') := by
  obtain ⟨b, b', rfl, hf, hf', hn, hn'⟩ := workbookSheet?_cases h
  refine ⟨quote b ++ '[' :: (f ++ ']' :: (n ++ (quote b' ++ ['!']))), by simp, fun r' => ?_⟩
  simpa using workbookSheet?_text hf hf' hn hn' b b' r'

theorem MentionKind.exists_qualifier (h : k.here? s = some (t, r)) : ∃ p u, s = p ++ u ∧
    ∀ u', k.here? (p ++ u') = (corners? k.isRange u').map fun (a, last, r') => (⟨t.file, t.sheet, a, last⟩, r') := by
  cases k with
  | localRange | localCell =>
    obtain ⟨_, -, ht⟩ := Option.map_eq_some_iff.1 h
    cases ht
    exact ⟨[], s, rfl, fun _ => rfl⟩
  | sheetRange | sheetCell =>
    obtain ⟨⟨n, u⟩, hn, h⟩ := Option.bind_eq_some_iff.1 h
    obtain ⟨_, -, ht⟩ := Option.map_eq_some_iff.1 h
    cases ht
    obtain ⟨p, rfl, hp⟩ := exists_plainSheet?_append hn
    exact ⟨p, u, rfl, fun u' => by rw [here?, hp]; rfl⟩
  | workbookRange | workbookCell =>
    obtain ⟨⟨f, n, u⟩, hn, h⟩ := Option.bind_eq_some_iff.1 h
    obtain ⟨_, -, ht⟩ := Option.map_eq_some_iff.1 h
    cases ht
    obtain ⟨p, rfl, hp⟩ := exists_workbookSheet?_append hn
    exact ⟨p, u, rfl, fun u' => by rw [here?, hp]; rfl⟩

/-- A reference is a name, or none, and corners; behind the same name other corners of the same shape
are read as well. -/
theorem MentionKind.exists_here?_append (h : k.here? s = some (t, r)) : t.at_.WellFormed ∧
    (∀ b, t.last = some b → b.WellFormed) ∧ NoDigit r ∧ ∃ p, s = p ++ (cornersText t.at_ t.last ++ r) ∧
    ∀ a last r', a.WellFormed → (∀ b, last = some b → b.WellFormed) → last.isSome = t.last.isSome → NoDigit r' →
    k.here? (p ++ (cornersText a last ++ r')) = some (⟨t.file, t.sheet, a, last⟩, r') := by
  obtain ⟨p, u, rfl, hp⟩ := exists_qualifier h
  obtain ⟨file, own, a, last⟩ := t
  rw [hp] at h
  obtain ⟨_, hc, ht⟩ := Option.map_eq_some_iff.1 h
  cases ht
  obtain ⟨hrange, ha, hlast, rfl, hr⟩ := of_corners? hc
  refine ⟨ha, hlast, hr, p, rfl, fun a' last' r' ha' hlast' hsome hr' => ?_⟩
  rw [hp, hrange, ← hsome, corners?_text ha' hlast' hr']
  rfl

/-! Where references stand -/

theorem foundIn_induction {P : List Mention → Prop} (hnil : P [])
    (hstep : ∀ k found x, x ∈ finds k.here? 0 0 s → P found → P (accept s sheet k found x)) : P (foundIn s sheet) :=
  foldlRecOn _ _ hnil fun _ hfound k _ => foldlRecOn _ _ hfound fun found hfound x hx => hstep k found x hx hfound

theorem accept_cases (s : List Char) (sheet : String) (k : MentionKind) (found : List Mention)
    (x : Nat × Nat × Target) : accept s sheet k found x = found ∨
      accept s sheet k found x = found ++ [⟨x.2.2.file, x.2.2.sheet.getD sheet, x.2.2.at_, x.2.2.last,
        x.1, x.2.1, (s.drop x.1).take (x.2.1 - x.1)⟩] ∧
        ∀ f ∈ found, overlaps (x.1, x.2.1) (f.start, f.stop) = false := by
  unfold accept
  dsimp only
  split
  · exact .inl rfl
  · next h =>
    refine .inr ⟨rfl, fun f hf => ?_⟩
    simp only [Bool.or_eq_true, not_or, any_eq_true, not_exists, not_and] at h
    exact Bool.eq_false_of_not_eq_true (h.1.2 f hf)

theorem here?_of_mem_finds {α : Type} {here : List Char → Option (α × List Char)} {skip : Nat} {x : Nat × Nat × α}
    (h : x ∈ finds here pos skip s) : ∃ u v r, s = u ++ v ∧ v ≠ [] ∧ x.1 = pos + u.length ∧ here v = some (x.2.2, r) ∧
      x.2.1 = x.1 + (v.length - r.length) := by
  fun_induction finds here pos skip s with
  | case1 => cases h
  | case3 pos c r a rest hh n ih =>
    rcases mem_cons.1 h with rfl | h
    · exact ⟨[], c :: r, rest, rfl, by simp, rfl, hh, rfl⟩
    · obtain ⟨u, v, t, rfl, hne, hx, hh, hstop⟩ := ih h
      exact ⟨c :: u, v, t, rfl, hne, by rw [hx, length_cons]; omega, hh, hstop⟩
  | case2 pos c r _ ih | case4 pos c r _ ih =>
    obtain ⟨u, v, t, rfl, hne, hx, hh, hstop⟩ := ih h
    exact ⟨c :: u, v, t, rfl, hne, by rw [hx, length_cons]; omega, hh, hstop⟩

/-- The reference stands in the text from its start to its stop. -/
def Mention.Within (s : List Char) (m : Mention) : Prop :=
  ∃ u r, s = u ++ (m.raw ++ r) ∧ m.start = u.length ∧ m.stop = u.length + m.raw.length

/-- The reference is written as `p` and its corners; with other corners behind `p` it is a reference
to the same sheet. -/
structure Mention.Spelled (sheet : String) (m : Mention) (p : List Char) : Prop where
  raw : m.raw = p ++ cornersText m.at_ m.last
  at_ : m.at_.WellFormed
  last : ∀ b, m.last = some b → b.WellFormed
  reads : ∃ (k : MentionKind) (own : Option String), own.getD sheet = m.sheet ∧ ∀ a last,
    a.WellFormed → (∀ b, last = some b → b.WellFormed) → last.isSome = m.last.isSome →
      k.here? (p ++ cornersText a last) = some (⟨m.file, own, a, last⟩, [])

theorem within_of_mem_foundIn (h : m ∈ foundIn s sheet) : m.Within s ∧ ∃ p, m.Spelled sheet p := by
  refine foundIn_induction (P := fun found => ∀ m ∈ found, m.Within s ∧ ∃ p, m.Spelled sheet p)
    (fun m hm => absurd hm not_mem_nil) (fun k found x hx hfound m hm => ?_) m h
  rcases accept_cases s sheet k found x with hsame | ⟨hnew, -⟩
  · rw [hsame] at hm
    exact hfound m hm
  · rw [hnew] at hm
    rcases mem_append.1 hm with hm | hm
    · exact hfound m hm
    · obtain ⟨u, v, r, rfl, -, hstart, hhere, hstop⟩ := here?_of_mem_finds hx
      obtain ⟨hat, hlast, hr, p, rfl, hagain⟩ := exists_here?_append hhere
      rw [Nat.zero_add] at hstart
      rw [← append_assoc, length_append, Nat.add_sub_cancel] at hstop
      have hraw : ((u ++ (p ++ (cornersText x.2.2.at_ x.2.2.last ++ r))).drop x.1).take
          (x.2.1 - x.1) = p ++ cornersText x.2.2.at_ x.2.2.last := by
        rw [hstop, hstart, Nat.add_sub_cancel_left, drop_left, ← append_assoc, take_left]
      cases mem_singleton.1 hm
      refine ⟨⟨u, r, ?_, hstart, ?_⟩, p, hraw, hat, hlast, k, x.2.2.sheet, rfl, ?_⟩
      · dsimp only
        rw [hraw, append_assoc]
      · dsimp only
        rw [hraw, hstop, hstart]
      · intro a last ha hl hsome
        have := hagain a last [] ha hl hsome nofun
        rwa [append_nil] at this

theorem pairwise_foundIn (s : List Char) (sheet : String) : (foundIn s sheet).Pairwise fun a b =>
    overlaps (a.start, a.stop) (b.start, b.stop) = false := by
  refine foundIn_induction (P := fun found => found.Pairwise fun a b =>
    overlaps (a.start, a.stop) (b.start, b.stop) = false) .nil fun k found x _ hfound => ?_
  rcases accept_cases s sheet k found x with hsame | ⟨hnew, hapart⟩
  · rw [hsame]
    exact hfound
  · rw [hnew]
    refine pairwise_append.2 ⟨hfound, pairwise_singleton _ _, fun a ha b hb => ?_⟩
    cases mem_singleton.1 hb
    exact (overlaps_comm ..).trans (hapart a ha)

theorem Mention.start_lt_stop {p : List Char} (h : m.Within s) (hp : m.Spelled sheet p) : m.start < m.stop := by
  obtain ⟨u, r, -, hstart, hstop⟩ := h
  have hpos : 0 < m.raw.length := by
    rw [hp.raw, length_append]
    have hcol := length_pos_iff.2 hp.at_.col_ne
    cases m.last <;> simp only [cornersText, Corner.text, length_append] <;> omega
  omega

theorem pairwise_mentionsIn (s : List Char) (sheet : String) :
    (mentionsIn s sheet).Pairwise fun a b => a.stop ≤ b.start := by
  have hsorted : (mentionsIn s sheet).Pairwise fun a b => a.start ≤ b.start := by
    refine (pairwise_mergeSort ?_ ?_ (foundIn s sheet)).imp fun h => of_decide_eq_true h
    · intro a b c hab hbc
      exact decide_eq_true (Nat.le_trans (of_decide_eq_true hab) (of_decide_eq_true hbc))
    · intro a b
      simpa using Nat.le_total a.start b.start
  have hapart : (mentionsIn s sheet).Pairwise fun a b =>
      overlaps (a.start, a.stop) (b.start, b.stop) = false := by
    refine (mergeSort_perm _ _).symm.pairwise (pairwise_foundIn s sheet) fun {a b} hab => ?_
    exact (overlaps_comm ..).trans hab
  have hpos : ∀ m ∈ mentionsIn s sheet, m.start < m.stop := by
    intro m hm
    obtain ⟨hwithin, p, hp⟩ := within_of_mem_foundIn (mem_mergeSort.1 hm)
    exact start_lt_stop hwithin hp
  refine (hsorted.and hapart).imp_of_mem fun {a b} ha hb hab => ?_
  have := hpos b hb
  have hoverlap := hab.2
  simp only [overlaps, Bool.and_eq_false_iff, decide_eq_false_iff_not] at hoverlap
  omega

/-! Putting texts in the place of references -/

section

variable {ms : List Mention}

theorem substitute_eq_weave (f : Mention → List Char) (hsep : ms.Pairwise fun a b => a.stop ≤ b.start)
    (hms : ∀ m ∈ ms, pos ≤ m.start ∧ m.start ≤ m.stop) :
    substitute f pos (s.drop pos) ms = weave (gapsFrom s pos ms) (ms.map f) := by
  induction ms generalizing pos with
  | nil => rfl
  | cons m ms ih =>
    obtain ⟨hsep, hrest⟩ := pairwise_cons.1 hsep
    obtain ⟨hstart, hstop⟩ := hms m mem_cons_self
    have hdrop : (s.drop pos).drop (m.stop - pos) = s.drop m.stop := by
      rw [drop_drop, Nat.add_sub_cancel' (Nat.le_trans hstart hstop)]
    rw [substitute, gapsFrom, map_cons, weave, hdrop, drop_take, append_assoc,
      ih hrest fun n hn => ⟨hsep n hn, (hms n (mem_cons_of_mem _ hn)).2⟩]

theorem substitute_raw (hsep : ms.Pairwise fun a b => a.stop ≤ b.start)
    (hms : ∀ m ∈ ms, pos ≤ m.start ∧ m.Within s) : substitute raw pos (s.drop pos) ms = s.drop pos := by
  induction ms generalizing pos with
  | nil => rfl
  | cons m ms ih =>
    obtain ⟨hsep, hrest⟩ := pairwise_cons.1 hsep
    obtain ⟨hpos, u, r, rfl, hstart, hstop⟩ := hms m mem_cons_self
    have hdrop : ((u ++ (m.raw ++ r)).drop pos).drop (m.stop - pos) = (u ++ (m.raw ++ r)).drop m.stop := by
      rw [drop_drop, Nat.add_sub_cancel' (by omega)]
    have hbehind : (u ++ (m.raw ++ r)).drop m.stop = r := by rw [hstop, ← append_assoc, ← length_append, drop_left]
    rw [substitute, hdrop, ih hrest fun n hn => ⟨hsep n hn, (hms n (mem_cons_of_mem _ hn)).2⟩,
      hbehind, ← drop_take, hstart, take_left, append_assoc,
      drop_append_of_le_length (by omega)]

def Mention.unnamed (m : Mention) : Mention := { m with sheet := "" }

theorem substitute_unnamed {f : Mention → List Char} (hf : ∀ m, f m.unnamed = f m) (pos : Nat) (s : List Char)
    (ms : List Mention) : substitute f pos s (ms.map unnamed) = substitute f pos s ms := by
  induction ms generalizing pos s with
  | nil => rfl
  | cons m ms ih =>
    rw [map_cons, substitute, substitute, ih, hf]
    rfl

end

theorem map_unnamed_mentionsIn (s : List Char) (a b : String) :
    (mentionsIn s a).map unnamed = (mentionsIn s b).map unnamed := by
  have hany : ∀ (x : Nat × Nat) (l : List Mention), l.any (fun f => overlaps x (f.start, f.stop)) =
      (l.map unnamed).any fun f => overlaps x (f.start, f.stop) := by
    intro x l
    rw [any_map]
    rfl
  have haccept : ∀ k x (found found' : List Mention), found.map unnamed = found'.map unnamed →
        (accept s a k found x).map unnamed = (accept s b k found' x).map unnamed := by
    intro k x found found' h
    unfold accept
    dsimp only
    rw [hany, h, ← hany]
    split
    · exact h
    · rw [map_append, map_append, h]
      rfl
  have hfound : (foundIn s a).map unnamed = (foundIn s b).map unnamed :=
    foldl_rel (r := fun x y : List Mention => x.map unnamed = y.map unnamed) rfl fun k _ found found' h => foldl_rel
        (r := fun x y : List Mention => x.map unnamed = y.map unnamed) h
          fun x _ found found' h => haccept k x found found' h
  have hsort : ∀ l : List Mention, (l.mergeSort fun a b => a.start ≤ b.start).map unnamed =
      (l.map unnamed).mergeSort fun a b => a.start ≤ b.start :=
    fun l => map_mergeSort fun _ _ _ _ => rfl
  rw [mentionsIn, mentionsIn, hsort, hsort, hfound]

/-! Shifted references -/

def Corner.plain (c : Corner) : Corner := { c with row := natL c.rowNumber }

theorem Corner.WellFormed.plain {c : Corner} (h : c.WellFormed) : c.plain.WellFormed :=
  ⟨h.capitals, h.col_ne, h.col_le, fun _ hd => isDecimal_of_mem_natL hd, Nat.toDigits_ne_nil⟩

variable {rows cols : Int} {f g : String} {p : List Char}

theorem Column.one_le_spelled {cs : List Char} (h : Column.Capitals cs) (hne : cs ≠ []) : 1 ≤ Column.spelled cs := by
  have hpow := (Column.spelled_bounds h).1
  have hlen := length_pos_iff.2 hne
  have : (26 : Int) ^ 1 ≤ 26 ^ cs.length := by exact_mod_cast Nat.pow_le_pow_right (by decide : 0 < 26) hlen
  omega

theorem Corner.shift?_eq {a b : Corner} (h : a.Dragged cols rows b) (ha : a.WellFormed) (hb : b.WellFormed)
    (hrow : 1 ≤ b.rowNumber) : a.shift? rows cols = some b.plain.text := by
  have hcol : (a.moved rows cols).1 = Column.spelled b.col := by
    rw [h.col, moved, column, Column.number_capitals ha.capitals]
  have hrow' : (a.moved rows cols).2 = b.rowNumber := by rw [h.row, moved]
  have hpos := Column.one_le_spelled hb.capitals hb.col_ne
  rw [shift?]
  simp only [hcol, hrow']
  rw [if_neg (by simp; omega), Column.letters_spelled hb.capitals, Int.toNat_natCast]
  simp only [text, plain, dollars, h.colFixed, h.rowFixed, append_assoc]

/-- A reference comes back when it is shifted: what stands before its corners is found again, and
its rows are rows of a sheet. -/
structure Mention.Shiftable (m : Mention) : Prop where
  qualifier : m.raw = m.qualifier ++ cornersText m.at_ m.last
  row : 1 ≤ m.at_.rowNumber
  lastRow : ∀ e, m.last = some e → 1 ≤ e.rowNumber

instance (m : Mention) : Decidable m.Shiftable :=
  decidable_of_iff (m.raw = m.qualifier ++ cornersText m.at_ m.last ∧ 1 ≤ m.at_.rowNumber ∧
    ∀ e ∈ m.last, 1 ≤ e.rowNumber)
    ⟨fun h => ⟨h.1, h.2.1, h.2.2⟩, fun h => ⟨h.qualifier, h.row, h.lastRow⟩⟩

theorem Mention.shift?_eq {n : Mention} {p' : List Char} (hm : m.Spelled sheet p) (hq : m.Shiftable)
    (hn : n.Spelled sheet p') (hn' : n.Shiftable) (h : m.reference.Dragged cols rows n.reference) : n.sheet = m.sheet ∧
      m.last.isSome = n.last.isSome ∧
      m.shift? rows cols = some (p ++ cornersText n.at_.plain (n.last.map Corner.plain)) := by
  have hp : m.qualifier = p := by
    have := hq.qualifier
    rw [hm.raw] at this
    exact (append_cancel_right this).symm
  unfold reference at h
  unfold shift?
  cases hlast : m.last <;> cases hlast' : n.last <;> rw [hlast, hlast'] at h
  · rw [Corner.shift?_eq h.2 hm.at_ hn.at_ hn'.row, hp]
    exact ⟨h.1, rfl, rfl⟩
  · exact h.elim
  · exact h.elim
  · next e e' =>
    rw [Corner.shift?_eq h.2.1 hm.at_ hn.at_ hn'.row]
    dsimp only
    rw [Corner.shift?_eq h.2.2 (hm.last e hlast) (hn.last e' hlast') (hn'.lastRow e' hlast'), hp]
    refine ⟨h.1, rfl, ?_⟩
    simp only [Option.map_some, cornersText, append_assoc]

def Mention.shifted (rows cols : Int) (m : Mention) : List Char := (m.shift? rows cols).getD m.raw

theorem Mention.shifted_unnamed (rows cols : Int) (m : Mention) :
    m.unnamed.shifted rows cols = m.shifted rows cols := by
  unfold shifted shift? qualifier unnamed
  dsimp only

/-! Formulas that refer to the same -/

/-- Corners of one cell with the same marks. -/
structure Corner.Same (a b : Corner) : Prop where
  colFixed : a.colFixed = b.colFixed
  col : a.column = b.column
  rowFixed : a.rowFixed = b.rowFixed
  row : a.rowNumber = b.rowNumber

theorem Corner.same_refl (c : Corner) : c.Same c := ⟨rfl, rfl, rfl, rfl⟩

theorem Corner.same_plain (c : Corner) : c.plain.Same c := ⟨rfl, rfl, rfl, natOfDigits_natL _⟩

/-- The text is a reference, to the same workbook, sheet and cells and with the same marks. -/
def Mention.WrittenAs (sheet : String) (m : Mention) (u : List Char) : Prop :=
  ∃ (k : MentionKind) (t : Target), k.here? u = some (t, []) ∧ t.file = m.file ∧
    t.sheet.getD sheet = m.sheet ∧ t.at_.Same m.at_ ∧ Option.Rel Corner.Same t.last m.last

/-- The formula is the other but for how the references are written. -/
def Rewrites (sheet g f : String) : Prop :=
  ∃ us, f = String.ofList ('=' :: weave (gaps g sheet) us) ∧ Forall₂ (WrittenAs sheet) (mentions g sheet) us

theorem Mention.Spelled.writtenAs (h : m.Spelled sheet p) : m.WrittenAs sheet m.raw := by
  obtain ⟨k, own, hown, hreads⟩ := h.reads
  refine ⟨k, _, h.raw ▸ hreads m.at_ m.last h.at_ h.last rfl, rfl, hown, Corner.same_refl _, ?_⟩
  cases m.last with
  | none => exact .none
  | some e => exact .some (Corner.same_refl e)

theorem spelled_of_mem (h : m ∈ mentions f sheet) : m.Within (body f) ∧ ∃ p, m.Spelled sheet p :=
  within_of_mem_foundIn (mem_mergeSort.1 h)

theorem spelled_of_mem_mentions (h : m ∈ mentions f sheet) : m.reference.Spelled := by
  obtain ⟨-, p, hp⟩ := spelled_of_mem h
  unfold reference
  cases hm : m.last with
  | none => exact hp.at_.capitals
  | some e => exact ⟨hp.at_.capitals, (hp.last e hm).capitals⟩

theorem substitute_mentions (g : Mention → List Char) :
    substitute g 0 (body f) (mentions f sheet) = weave (gaps f sheet) ((mentions f sheet).map g) := by
  refine substitute_eq_weave g (pairwise_mentionsIn _ _) fun m hm => ⟨Nat.zero_le _, ?_⟩
  obtain ⟨hwithin, p, hp⟩ := spelled_of_mem hm
  exact Nat.le_of_lt (start_lt_stop hwithin hp)

theorem body_eq_weave (f sheet : String) : body f = weave (gaps f sheet) ((mentions f sheet).map raw) := by
  rw [← substitute_mentions]
  exact (substitute_raw (pairwise_mentionsIn _ _) fun m hm => ⟨Nat.zero_le _, (spelled_of_mem hm).1⟩).symm

theorem eq_body (hf : startsWith "=" f = true) : f = String.ofList ('=' :: body f) := by
  obtain ⟨r, hr⟩ := isPrefixOf_iff_prefix.1 hf
  have hlist : f.toList = '=' :: r := hr.symm
  have hbody : body f = r := by
    rw [body, hlist]
    rfl
  rw [hbody, ← hlist, String.ofList_toList]

theorem rewrites_refl (hf : startsWith "=" f = true) (sheet : String) : Rewrites sheet f f := by
  refine ⟨_, (body_eq_weave f sheet).symm ▸ eq_body hf, ?_⟩
  rw [forall₂_map_right_iff, forall₂_same]
  intro m hm
  obtain ⟨-, p, hp⟩ := spelled_of_mem hm
  exact hp.writtenAs

theorem shift_eq (hf : startsWith "=" f = true) (hmoved : ¬ (rows = 0 ∧ cols = 0)) (sheet : String) :
    shift f "" rows cols = String.ofList ('=' :: weave (gaps f sheet)
        ((mentions f sheet).map (shifted rows cols))) := by
  have hsub : substitute (shifted rows cols) 0 (body f) (mentions f "") =
      substitute (shifted rows cols) 0 (body f) (mentions f sheet) := by
    rw [← substitute_unnamed (shifted_unnamed rows cols), mentions,
      map_unnamed_mentionsIn _ "" sheet, substitute_unnamed (shifted_unnamed rows cols), mentions]
  have hfun : (fun m : Mention => (m.shift? rows cols).getD m.raw) = shifted rows cols := rfl
  rw [← substitute_mentions, ← hsub, shift, if_neg (by simpa using hmoved), hf, hfun]
  dsimp only
  rw [if_pos rfl]

/-- Of two formulas of one drag pattern, the first shifted by the distance of their cells is the second
but for how the references are written. -/
theorem rewrites_shift {col row : Int}
    (hpattern : dragPattern f sheet col row = dragPattern g sheet (col + cols) (row + rows))
    (hf : startsWith "=" f = true) (hmoved : ¬ (rows = 0 ∧ cols = 0)) (hgaps : ∀ u ∈ gaps f sheet, '@' ∉ u)
    (hgaps' : ∀ u ∈ gaps g sheet, '@' ∉ u) (hms : ∀ m ∈ mentions f sheet, m.Shiftable)
    (hns : ∀ n ∈ mentions g sheet, n.Shiftable) : Rewrites sheet g (shift f "" rows cols) := by
  refine ⟨_, (shift_eq hf hmoved sheet).trans (by rw [gaps_eq_of_dragPattern hgaps hgaps' hpattern]), ?_⟩
  rw [forall₂_map_right_iff]
  refine (forall₂_iff_zip.2 ?_ : Forall₂ (fun m n => WrittenAs sheet n
    (m.shifted rows cols)) (mentions f sheet) (mentions g sheet)).flip
  obtain ⟨hlen, htoken⟩ := forall₂_iff_zip.1 (forall₂_token hpattern)
  refine ⟨hlen, fun {m n} hmn => ?_⟩
  obtain ⟨hm, hn⟩ := of_mem_zip hmn
  have hdragged := dragged_of_token (htoken hmn)
  rw [show col + cols - col = cols by omega, show row + rows - row = rows by omega] at hdragged
  obtain ⟨-, p, hp⟩ := spelled_of_mem hm
  obtain ⟨-, p', hp'⟩ := spelled_of_mem hn
  obtain ⟨hsheet, hlast, hshift⟩ := shift?_eq hp (hms m hm) hp' (hns n hn) hdragged
  obtain ⟨k, own, hown, hreads⟩ := hp.reads
  have hfile : m.file = n.file := congrArg DragToken.file (htoken hmn)
  have hplain : ∀ b, n.last.map Corner.plain = some b → b.WellFormed := by
    intro b hb
    obtain ⟨e, he, rfl⟩ := Option.map_eq_some_iff.1 hb
    exact (hp'.last e he).plain
  have hread := hreads _ _ hp'.at_.plain hplain (by rw [Option.isSome_map, hlast])
  refine ⟨k, _, by rw [shifted, hshift, Option.getD_some]; exact hread, hfile,
    hown.trans hsheet.symm, Corner.same_plain _, ?_⟩
  cases n.last with
  | none => exact .none
  | some e => exact .some (Corner.same_plain e)

theorem MentionKind.here?_nil : k.here? [] = none := by cases k <;> rfl

theorem Rewrites.exists_toList (h : Rewrites sheet g f) (hg : ∃ c r, g.toList = '=' :: c :: r) :
    ∃ c r, f.toList = '=' :: c :: r := by
  obtain ⟨us, rfl, hus⟩ := h
  obtain ⟨c, r, hg⟩ := hg
  have hbody : body g = c :: r := by
    rw [body, hg]
    rfl
  rw [String.toList_ofList]
  cases hwoven : weave (gaps g sheet) us with
  | cons d t => exact ⟨d, t, rfl⟩
  | nil =>
    have hgaps : gaps g sheet ≠ [] := by
      rw [gaps]
      cases mentions g sheet <;> exact cons_ne_nil _ _
    obtain ⟨a, as, ha⟩ := exists_cons_of_ne_nil hgaps
    cases hus' : us with
    | nil =>
      rw [hus', forall₂_nil_right_iff] at hus
      have hfull := body_eq_weave g sheet
      rw [hus, map_nil, ← hus', hwoven, hbody] at hfull
      cases hfull
    | cons u us =>
      rw [hus'] at hus hwoven
      obtain ⟨m, ms, ⟨k, t, hread, -⟩, -, -⟩ := forall₂_cons_right_iff.1 hus
      rw [ha, weave, append_eq_nil_iff, append_eq_nil_iff] at hwoven
      rw [hwoven.2.1, k.here?_nil] at hread
      cases hread

/-! What a pattern tells -/

theorem mem_of_mem_gapsFrom {s g : List Char} {ms : List Mention}
    (hg : g ∈ gapsFrom s pos ms) (hc : c ∈ g) : c ∈ s := by
  induction ms generalizing pos with
  | nil =>
    obtain rfl := mem_singleton.1 hg
    exact mem_of_mem_drop hc
  | cons m ms ih =>
    rcases mem_cons.1 hg with rfl | hg
    · exact mem_of_mem_take (mem_of_mem_drop hc)
    · exact ih hg

theorem notMem_gaps (hf : c ∉ f.toList) (sheet : String) : ∀ g ∈ gaps f sheet, c ∉ g := by
  intro g hg hc
  refine hf ?_
  have hbody : c ∈ body f := mem_of_mem_gapsFrom hg hc
  unfold body at hbody
  split at hbody
  · next r hlist =>
    rw [hlist]
    exact mem_cons_of_mem _ hbody
  · exact hbody

/-- Formulas of one pattern are woven from the same texts and from references of the same files, each
one of `g` that of `f`, moved from cell to cell. -/
theorem dragged_of_dragPattern_eq {f g sheet : String} {col row col' row' : Int} (hf : '@' ∉ f.toList)
    (hg : '@' ∉ g.toList) (h : dragPattern f sheet col row = dragPattern g sheet col' row') :
    gaps f sheet = gaps g sheet ∧ body f = weave (gaps f sheet) ((mentions f sheet).map Mention.raw) ∧
      body g = weave (gaps g sheet) ((mentions g sheet).map Mention.raw) ∧
      Forall₂ (fun m n => n.file = m.file ∧ m.reference.Dragged (col' - col) (row' - row) n.reference)
        (mentions f sheet) (mentions g sheet) := by
  refine ⟨gaps_eq_of_dragPattern (notMem_gaps hf sheet) (notMem_gaps hg sheet) h,
    body_eq_weave f sheet, body_eq_weave g sheet, (forall₂_token h).imp fun m n hmn => ?_⟩
  exact ⟨(congrArg DragToken.file hmn).symm, Mention.dragged_of_token hmn⟩

theorem dragged_of_dragPattern_eq_total : dragPattern "=A1*$B$2+SUM('[x]T'!A$1:$Z3)" "S" 3 1 =
        dragPattern "=AB2*$B$2+SUM('[x]T'!AB$1:$Z4)" "S" 30 2 ∧
      Forall₂ (fun m n => n.file = m.file ∧ m.reference.Dragged 27 1 n.reference)
        (mentions "=A1*$B$2+SUM('[x]T'!A$1:$Z3)" "S")
        (mentions "=AB2*$B$2+SUM('[x]T'!AB$1:$Z4)" "S") := by
  have h : dragPattern "=A1*$B$2+SUM('[x]T'!A$1:$Z3)" "S" 3 1 =
      dragPattern "=AB2*$B$2+SUM('[x]T'!AB$1:$Z4)" "S" 30 2 := by cbv
  exact ⟨h, (dragged_of_dragPattern_eq (by decide) (by decide) h).2.2.2⟩

end Sheetwork.Formula
