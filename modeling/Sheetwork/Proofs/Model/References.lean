import Sheetwork.Model.Context
import Sheetwork.Model.Order
import Sheetwork.Proofs.Outcome
import Sheetwork.Proofs.Text.Replacement
import Sheetwork.Proofs.Workbook.Address
/-
  Models: what an expression refers to.
-/

open List

namespace Sheetwork.Model

open Formula Column

def Mentions (p : Place) (ts : List Lexeme) (x : String × String) : Prop :=
  ∃ t ∈ ts, t.kind = .operand .range ∧ Expr.ofOperand p .range t.text = .ok (.ref x.1 x.2)

variable {x : String × String} {t : Lexeme}

theorem Mentions.mono {p : Place} {ts us : List Lexeme} (h : Mentions p ts x) (hs : ts <:+ us) : Mentions p us x := by
  obtain ⟨t, ht, h⟩ := h
  exact ⟨t, hs.subset ht, h⟩

namespace Expr

variable {b : Binding} {p : Place} {fuel : Nat}

/-- What is read from lexemes refers to what they mention and to what it was begun with. -/
def Reads (p : Place) (ts : List Lexeme) (begun : List (String × String)) (r : Expr × List Lexeme) : Prop :=
  r.2 <:+ ts ∧ ∀ x ∈ r.1.refs, x ∈ begun ∨ Mentions p ts x

theorem refs_ofOperand {k : OperandKind} {e : Expr} (hk : t.kind = .operand k) (h : ofOperand p k t.text = .ok e)
    (hx : x ∈ e.refs) : t.kind = .operand .range ∧ ofOperand p .range t.text = .ok (.ref x.1 x.2) := by
  cases k with
  | range =>
    refine ⟨hk, ?_⟩
    rw [h]
    unfold ofOperand at h
    dsimp only at h
    split at h
    · cases h
    · cases h
      rw [mem_singleton.1 hx]
  | _ =>
    cases h
    cases hx

theorem allRefs_eq (es : List Expr) : allRefs es = es.flatMap refs := by
  induction es with
  | nil => rfl
  | cons e es ih => rw [allRefs, ih, flatMap_cons]

theorem Reads.mono {ts us : List Lexeme} {begun begun' : List (String × String)} {r : Expr × List Lexeme}
    (h : Reads p ts begun r) (hs : ts <:+ us) (hb : ∀ x ∈ begun, x ∈ begun' ∨ Mentions p us x) : Reads p us begun' r :=
  ⟨h.1.trans hs, fun x hx => (h.2 x hx).elim (hb x) fun hm => .inr (hm.mono hs)⟩

mutual

theorem reads_expression (fuel : Nat) {least : Nat} {ts : List Lexeme} {r : Expr × List Lexeme}
    (h : expression b p fuel least ts = .ok r) : Reads p ts [] r := by
  cases fuel with
  | zero => cases h
  | succ fuel =>
    unfold expression at h
    obtain ⟨⟨e, us⟩, he, h⟩ := of_bind h
    have hfirst := reads_operand fuel he
    exact (reads_operations fuel h).mono hfirst.1 fun x hx => (hfirst.2 x hx).imp_left nofun

theorem reads_operations (fuel : Nat) {least : Nat} {e : Expr} {ts : List Lexeme} {r : Expr × List Lexeme}
    (h : operations b p fuel least e ts = .ok r) : Reads p ts e.refs r := by
  have hself : ∀ us, Reads p us e.refs (e, us) := fun us => ⟨suffix_rfl, fun x hx => .inl hx⟩
  cases fuel with
  | zero => cases h
  | succ fuel =>
    cases ts with
    | nil =>
      cases h
      exact hself []
    | cons t ts =>
      have htail : ts <:+ t :: ts := suffix_cons t ts
      unfold operations at h
      split at h
      · cases h
        exact hself _
      · split at h
        · split at h
          · cases h
            exact hself _
          · exact (reads_operations fuel h).mono htail fun x hx => .inl hx
        · split at h
          · cases h
          · next o _ =>
            split at h
            next before after _ =>
            split at h
            · cases h
              exact hself _
            · obtain ⟨⟨a, us⟩, ha, h⟩ := of_bind h
              have hright : Reads p (t :: ts) [] (a, us) := (reads_expression fuel ha).mono htail nofun
              refine (reads_operations fuel h).mono hright.1 fun x hx => ?_
              rcases mem_append.1 hx with hx | hx
              · exact .inl hx
              · exact .inr ((hright.2 x hx).resolve_left nofun)
        · cases h
          exact hself _

theorem reads_operand (fuel : Nat) {ts : List Lexeme} {r : Expr × List Lexeme} (h : operand b p fuel ts = .ok r) :
    Reads p ts [] r := by
  cases fuel with
  | zero => cases h
  | succ fuel =>
    cases ts with
    | nil => cases h
    | cons t ts =>
      have htail : ts <:+ t :: ts := suffix_cons t ts
      unfold operand at h
      split at h
      · obtain ⟨⟨e, us⟩, he, h⟩ := of_bind h
        cases h
        exact (reads_expression fuel he).mono htail nofun
      · obtain ⟨⟨e, us⟩, he, h⟩ := of_bind h
        have hinner : Reads p (t :: ts) [] (e, us) := (reads_expression fuel he).mono htail nofun
        dsimp only at h
        split at h
        · cases h
        · split at h
          · cases h
            exact ⟨(suffix_cons _ _).trans hinner.1, hinner.2⟩
          · cases h
      · dsimp only at h
        split at h
        · split at h
          · cases h
            exact ⟨(suffix_cons _ _).trans htail, nofun⟩
          · exact (reads_arguments fuel h).mono htail nofun
        · exact (reads_arguments fuel h).mono htail nofun
      · next k hk =>
        obtain ⟨e, he, h⟩ := of_bind h
        cases h
        exact ⟨htail, fun x hx => .inr ⟨t, mem_cons_self, refs_ofOperand hk he hx⟩⟩
      · cases h

theorem reads_arguments (fuel : Nat) {name : String} {acc : List Expr} {ts : List Lexeme} {r : Expr × List Lexeme}
    (h : arguments b p fuel name acc ts = .ok r) : Reads p ts (allRefs acc) r := by
  cases fuel with
  | zero => cases h
  | succ fuel =>
    unfold arguments at h
    obtain ⟨⟨e, us⟩, he, h⟩ := of_bind h
    have harg := reads_expression fuel he
    have hacc : ∀ x ∈ allRefs (e :: acc), x ∈ allRefs acc ∨ Mentions p ts x := by
      intro x hx
      rcases mem_append.1 hx with hx | hx
      · exact (harg.2 x hx).imp_left nofun
      · exact .inl hx
    dsimp only at h
    split at h
    · cases h
    · next c us =>
      have hrest : us <:+ ts := (suffix_cons _ _).trans harg.1
      split at h
      · exact (reads_arguments fuel h).mono hrest hacc
      · split at h
        · cases h
          refine ⟨hrest, fun x hx => hacc x ?_⟩
          have hx : x ∈ allRefs (e :: acc).reverse := hx
          rw [allRefs_eq, mem_flatMap] at hx ⊢
          obtain ⟨a, ha, hxa⟩ := hx
          exact ⟨a, mem_reverse.1 ha, hxa⟩
        · cases h

end

theorem mentions_of_mem_refs {ts : List Lexeme} {e : Expr} (h : ofLexemes p ts = .ok e)
    (hx : x ∈ e.refs) : Mentions p ts x := by
  unfold ofLexemes at h
  split at h
  · cases h
  · obtain ⟨⟨e', rest⟩, he, h⟩ := of_bind h
    dsimp only at h
    split at h
    · cases h
      exact ((reads_expression _ he).2 x hx).resolve_left nofun
    · cases h

end Expr

/-! Bounds and rectangles -/

theorem toList_clean (s : String) : (Text.replace "$" "" s).toList = s.toList.filter (· ≠ '$') := by
  rw [Text.replace, String.toList_ofList]
  exact Text.replaceL_singleton_nil '$' s.toList

theorem mem_span {lo hi n : Int} : n ∈ Context.span lo hi ↔ lo ≤ n ∧ n ≤ hi := by
  unfold Context.span
  rw [mem_map]
  constructor
  · rintro ⟨i, hi, rfl⟩
    rw [mem_range] at hi
    omega
  · rintro ⟨hlo, hhi⟩
    exact ⟨(n - lo).toNat, mem_range.2 (by omega), by omega⟩

variable {q : Position} {s ref name formula : String} {e : Extent} {c : Context} {ps : List Position} {p : Place}
  {cells : List (String × List Node)} {ns : List Node} {there : String × List Node} {x : String × String} {n : Node}

theorem capitals_of_isLetters {ls : List Char} (h : isLetters ls = true) : Column.Capitals ls := by
  unfold isLetters at h
  rw [Bool.and_eq_true, all_eq_true] at h
  exact h.2

theorem of_onSheet {row col : Int} (h : Context.onSheet row col = .ok q) :
    (q.row : Int) = row ∧ (q.col : Int) = col := by
  unfold Context.onSheet Address.columnName at h
  obtain ⟨name, hname, h⟩ := of_bind h
  split at hname
  · next hcol =>
    split at h
    · next hrow =>
      cases h
      simp only [Bool.and_eq_true, decide_eq_true_eq] at hcol hrow
      dsimp only
      omega
    · cases h
  · cases hname

theorem clean_eq_self (h : '$' ∉ s.toList) : Text.replace "$" "" s = s := by
  refine String.toList_inj.1 ?_
  rw [toList_clean, filter_eq_self]
  intro c hc
  exact decide_eq_true fun heq => h (heq ▸ hc)

theorem dollar_not_mem_clean (s : String) : '$' ∉ (Text.replace "$" "" s).toList := by
  rw [toList_clean, mem_filter]
  exact fun h => absurd h.2 (by decide)

theorem clean_clean : Text.replace "$" "" (Text.replace "$" "" s) = Text.replace "$" "" s :=
  clean_eq_self (dollar_not_mem_clean s)

theorem reachOf_clean {b : Address.Bounds} (h : reachOf s = .ok b) : reachOf (Text.replace "$" "" s) = .ok b := by
  unfold reachOf at h ⊢
  dsimp only at h ⊢
  rw [clean_clean]
  split at h
  · cases hspot : spot? (Text.replace "$" "" s).toList with
    | none =>
      rw [hspot] at h
      cases h
    | some p =>
      rw [hspot] at h
      exact h
  · split at h
    · exact h
    · split at h
      · next hdigits => rwa [if_pos hdigits]
      · next hdigits =>
        rw [if_neg hdigits]
        split at h
        · next hletters => rwa [if_pos hletters]
        · cases h

theorem exists_bounds_lines {left right : List Char} {a b c d : Int} {u u' : Fault}
    (he : (if isDigits left && isDigits right then pure ⟨Text.natOfDigits left, Text.natOfDigits right, a, b⟩
      else if isLetters left && isLetters right then pure ⟨c, d, spelled left, spelled right⟩
      else .error u : Outcome Extent) = .ok e) : ∃ bounds, (if isDigits left && isDigits right then
        .ok ⟨none, some (Text.natOfDigits left), none, some (Text.natOfDigits right)⟩
      else if isLetters left && isLetters right then
        .ok ⟨some (spelled left).toNat, none, some (spelled right).toNat, none⟩
      else .error u' : Outcome Address.Bounds) = .ok bounds ∧
      ∀ row col, e.minRow ≤ row → row ≤ e.maxRow → e.minCol ≤ col → col ≤ e.maxCol →
        inBounds row col bounds = true := by
  split at he
  · next hdigits =>
    cases he
    rw [if_pos hdigits]
    refine ⟨_, rfl, fun row col h₁ h₂ h₃ h₄ => ?_⟩
    simp only [inBounds, Option.all_some, Option.all_none, Bool.true_and, Bool.and_eq_true, decide_eq_true_eq]
    exact ⟨h₁, h₂⟩
  · next hdigits =>
    split at he
    · next hletters =>
      cases he
      rw [if_neg hdigits, if_pos hletters]
      rw [Bool.and_eq_true] at hletters
      have hleft := spelled_nonneg (capitals_of_isLetters hletters.1)
      refine ⟨_, rfl, fun row col h₁ h₂ h₃ h₄ => ?_⟩
      dsimp only at h₃ h₄
      simp only [inBounds, Option.all_some, Option.all_none, Bool.and_true, Bool.and_eq_true, decide_eq_true_eq]
      omega
    · cases he

theorem exists_reachOf_rectangle {s : Sheet} (he : c.rectangle s ref = .ok e) : ∃ b, reachOf ref = .ok b ∧
    ∀ row col, e.minRow ≤ row → row ≤ e.maxRow → e.minCol ≤ col → col ≤ e.maxCol → inBounds row col b = true := by
  unfold Context.rectangle at he
  unfold reachOf
  dsimp only at he ⊢
  cases hcut : Text.cutL? [':'] (Text.replace "$" "" ref).toList with
  | none =>
    rw [hcut] at he
    obtain ⟨p, hp, he⟩ := of_bind he
    cases he
    dsimp only
    rw [ifNone_eq_ok_iff.1 hp]
    refine ⟨_, rfl, fun row col h₁ h₂ h₃ h₄ => ?_⟩
    simp only [inBounds, Option.all_some, Bool.and_eq_true, decide_eq_true_eq]
    omega
  | some parts =>
    obtain ⟨left, right⟩ := parts
    rw [hcut] at he
    dsimp only at he ⊢
    cases hp : spot? left with
    | none =>
      rw [hp] at he
      exact exists_bounds_lines he
    | some p =>
      cases hq : spot? right with
      | none =>
        rw [hp, hq] at he
        exact exists_bounds_lines he
      | some q =>
        rw [hp, hq] at he
        cases he
        refine ⟨_, rfl, fun row col h₁ h₂ h₃ h₄ => ?_⟩
        dsimp only at h₁ h₂ h₃ h₄
        simp only [inBounds, Option.all_some, Bool.and_eq_true, decide_eq_true_eq]
        omega

theorem exists_reachOf_positions (h : c.positions name ref = .ok ps) :
    ∃ b, reachOf ref = .ok b ∧ ∀ q ∈ ps, inBounds q.row q.col b = true := by
  obtain ⟨s, e, -, he, h⟩ := of_bind₂ h
  obtain ⟨b, hb, hin⟩ := exists_reachOf_rectangle he
  refine ⟨b, hb, fun q hq => ?_⟩
  obtain ⟨⟨row, col⟩, hmem, hon⟩ := exists_of_mem_right (mapM_eq_ok_iff.1 h) hq
  obtain ⟨r, hr, hmem⟩ := mem_flatMap.1 hmem
  obtain ⟨k, hk, heq⟩ := mem_map.1 hmem
  cases heq
  obtain ⟨hrow, hcol⟩ := of_onSheet hon
  rw [mem_span] at hr hk
  rw [hrow, hcol]
  exact hin row col hr.1 hr.2 hk.1 hk.2

/-! Reading -/

def Context.reads (c : Context) (x : String × String) : Outcome (List Position) :=
  if (spot? x.2.toList).isSome then (fun p => [p]) <$> Context.position x.2 else c.positions x.1 x.2

theorem spot?_plain {s : List Char} {p : Spot} (h : spot? s = some p) (hs : '$' ∉ s) : ∃ ls ds, s = ls ++ ds ∧
    isLetters ls = true ∧ isDigits ds = true ∧ p.row = Text.natOfDigits ds ∧ p.col = (spelled ls).toNat := by
  have hmark : ∀ r : List Char, '$' ∉ r → fixedMark r = (false, r) := by
    intro r hr
    unfold fixedMark
    split
    · exact absurd mem_cons_self hr
    · rfl
  unfold spot? at h
  rw [hmark s hs] at h
  dsimp only at h
  rw [hmark _ fun hmem => hs ((dropWhile_sublist _).subset hmem)] at h
  split at h
  · next hparts =>
    rw [Bool.and_eq_true] at hparts
    cases h
    exact ⟨_, _, takeWhile_append_dropWhile.symm, hparts.1, hparts.2, rfl, rfl⟩
  · cases h

theorem bounds_spot {p : Spot} (h : spot? s.toList = some p) (hs : '$' ∉ s.toList) :
    Address.bounds s = .ok ⟨some p.col, some p.row, some p.col, some p.row⟩ ∧ ':' ∉ s.toList := by
  obtain ⟨ls, ds, hparts, hls, hds, hrow, hcol⟩ := spot?_plain h hs
  have hcapitals := capitals_of_isLetters hls
  unfold isLetters at hls
  unfold isDigits at hds
  simp only [Bool.and_eq_true, Bool.not_eq_true', isEmpty_eq_false_iff, decide_eq_true_eq, all_eq_true] at hls hds
  constructor
  · have hcolumn : Address.columnPart (ls ++ ds) = (some ls, ds) :=
      Address.columnPart_append (fun c hc => by rw [Text.isAsciiLetter, hls.2 c hc, Bool.true_or])
        (length_pos_iff.2 hls.1.1) hls.1.2 fun c hc => Text.isAsciiLetter_eq_false_of_decimal (hds.2 c (mem_of_head? hc))
    have hrows : Address.rowPart (ds ++ []) = (some ds, []) := Address.rowPart_append hds.2 hds.1 (by simp)
    rw [append_nil] at hrows
    rw [Address.bounds, hparts, hcolumn]
    dsimp only
    rw [hrows]
    rw [Option.map_some, Option.map_some, Address.columnOf_capitals hcapitals, hrow, hcol]
  · rw [hparts, mem_append]
    rintro (hmem | hmem)
    · exact absurd (hls.2 _ hmem) (by decide)
    · exact absurd (hds.2 _ hmem) (by decide)

theorem position_spot {p : Spot} (h : spot? s.toList = some p) (hs : '$' ∉ s.toList) (hq : Context.position s = .ok q) :
    q = ⟨p.row, p.col⟩ := by
  obtain ⟨hbounds, hcolon⟩ := bounds_spot h hs
  unfold Context.position Address.target at hq
  rw [clean_eq_self hs, hbounds] at hq
  obtain ⟨t, ht, hq⟩ := of_bind hq
  change (if s.toList.contains ':' = true then _ else _) = _ at ht
  rw [if_neg (by simpa using hcolon)] at ht
  split at ht
  · cases ht
  · cases ht
    cases hq
    rfl

theorem exists_reachOf_reads (hs : '$' ∉ ref.toList) (h : c.reads (name, ref) = .ok ps) :
    ∃ b, reachOf ref = .ok b ∧ ∀ q ∈ ps, inBounds q.row q.col b = true := by
  unfold Context.reads at h
  split at h
  · next hspot =>
    obtain ⟨q, hq, rfl⟩ := map_eq_ok_iff.1 h
    obtain ⟨p, hp⟩ := Option.isSome_iff_exists.1 hspot
    refine ⟨⟨some p.col, some p.row, some p.col, some p.row⟩, ?_, fun q' hq' => ?_⟩
    · unfold reachOf
      dsimp only
      rw [clean_eq_self hs, Text.cutL?_eq_none mem_cons_self (bounds_spot hp hs).2, hp]
      rfl
    · rw [mem_singleton.1 hq', position_spot hp hs hq]
      simp [inBounds]
  · exact exists_reachOf_positions h

/-! Needs -/

theorem Node.compare_eq : compare =
    compareLex (compareOn Node.sheet) (compareLex (compareOn Node.row) (compareOn Node.col)) := by
  funext m n
  exact congrArg (fun o => Ordering.then _ (Ordering.then _ o)) Ordering.then_eq

instance : Std.LawfulEqOrd Node where
  compare_self := by simp [Node.compare_eq, Std.ReflCmp.compare_self]
  eq_of_compare := by
    rintro ⟨s, r, c⟩ ⟨s', r', c'⟩ h
    simpa [Node.compare_eq, compareOn] using h

/-- The formula cells at the positions of a reference are among those that its lexeme reaches. -/
theorem mem_reached {sheet : String} (ht : t.kind = .operand .range)
    (hread : Expr.ofOperand p .range t.text = .ok (.ref sheet ref)) (h : reached cells p.sheet t = .ok ns)
    (hthere : cells.find? (·.1 = sheet) = some there) (hps : c.reads (sheet, ref) = .ok ps)
    (hn : n ∈ there.2) (hq : q ∈ ps) (hrow : n.row = q.row) (hcol : n.col = q.col) : n ∈ ns := by
  unfold Expr.ofOperand at hread
  unfold reached at h
  dsimp only at hread h
  rw [if_neg (by simp [Lexeme.isRange, ht])] at h
  split at hread
  · cases hread
  · next hreference =>
    rw [if_neg hreference] at h
    obtain ⟨hsheet, href⟩ := Expr.ref.inj (Except.ok.inj hread)
    rw [hsheet] at h
    rw [← href] at hps
    rw [hthere] at h
    obtain ⟨b, hb, h⟩ := of_bind h
    cases h
    obtain ⟨b', hb', hin⟩ := exists_reachOf_reads (dollar_not_mem_clean _) hps
    obtain rfl := Except.ok.inj (hb'.symm.trans (reachOf_clean hb))
    rw [mem_filter, hrow, hcol]
    exact ⟨hn, hin q hq⟩

theorem mem_needs {e : Expr} (he : Expr.ofFormula p formula = .ok e) (h : needs cells formula p.sheet = .ok ns)
    (hx : x ∈ e.refs) (hthere : cells.find? (·.1 = x.1) = some there) (hps : c.reads x = .ok ps)
    (hn : n ∈ there.2) (hq : q ∈ ps) (hrow : n.row = q.row) (hcol : n.col = q.col) : n ∈ ns := by
  obtain ⟨ts, hts, he⟩ := of_bind he
  obtain ⟨t, ht, hkind, hread⟩ := Expr.mentions_of_mem_refs he hx
  obtain ⟨ts', hts', h⟩ := of_bind h
  obtain rfl := Except.ok.inj (hts.symm.trans hts')
  obtain ⟨found, hfound, h⟩ := of_bind h
  cases h
  obtain ⟨reach, hmem, hreach⟩ := exists_of_mem_left (mapM_eq_ok_iff.1 hfound) ht
  rw [Ordered.mem_ofList, mem_flatten]
  exact ⟨reach, hmem, mem_reached hkind hread hreach hthere hps hn hq hrow hcol⟩

theorem dollar_not_mem_ref {e : Expr} (he : Expr.ofFormula p formula = .ok e) (hx : x ∈ e.refs) : '$' ∉ x.2.toList := by
  obtain ⟨ts, -, he⟩ := of_bind he
  obtain ⟨t, -, -, hread⟩ := Expr.mentions_of_mem_refs he hx
  unfold Expr.ofOperand at hread
  dsimp only at hread
  split at hread
  · cases hread
  · obtain ⟨-, href⟩ := Expr.ref.inj (Except.ok.inj hread)
    rw [← href]
    exact dollar_not_mem_clean _

end Sheetwork.Model
