import Sheetwork.Formula.Conversion
import Sheetwork.Proofs.Text.Strewn
/-
  Formulas: the conversion to a script. Main statements: `convert_fails_iff`, `call_texts_iff`, `seen_newline_iff`.
-/

open List Relation

namespace Sheetwork.Formula

open Text Token Text

variable {cx : Context} {c b : Char} {r s t a : List Char} {n : Nesting}

/-! Steps -/

/-- What a step leaves to be read: the rest, and each text that is converted on its own. -/
def Leads (cx : Context) : List Char → List Char → Prop
  | [], _ => False
  | c :: r, t => t = (step cx c r).rest ∨ ∃ a ∈ (step cx c r).texts, t = stripL a

theorem length_lt_of_leads (h : Leads cx s t) : t.length < s.length := by
  cases s with
  | nil => cases h
  | cons c r =>
    have hleft := left_step_le cx c r
    rcases h with rfl | ⟨a, ha, rfl⟩
    · exact Nat.lt_succ_of_le (Nat.le_trans (step cx c r).length_rest_le hleft)
    · exact Nat.lt_succ_of_le (Nat.le_trans (length_stripL_le a) (Nat.le_trans (length_le_of_mem_texts ha) hleft))

theorem scan_cons (cx : Context) (c : Char) (r : List Char) : scan cx (c :: r) =
    ((step cx c r).conversion ((step cx c r).texts.map (expression cx))).andThen (scan cx (step cx c r).rest) := by
  rw [scan]
  exact congrArg (fun cs => (conversion cs _).andThen _) (attach_map_val ..)

/-- What ends a conversion: a string without a closing quote, or a row of too many digits. -/
def Token.Broken : Token → Prop
  | unclosed => True
  | piece (.ref r) _ => r.isReadable = false
  | asText t => t.Broken
  | _ => False

theorem complete_andThen (a b : Conversion) : (a.andThen b).complete = (a.complete && b.complete) := by
  unfold Conversion.andThen
  split <;> simp_all [Conversion.after]

theorem complete_joined (cs : List Conversion) : (Conversion.joined cs).complete = cs.all Conversion.complete := by
  fun_induction Conversion.joined cs with
  | case1 => rfl
  | case2 c => simp
  | case3 c cs _ ih =>
    rw [complete_andThen, all_cons, ← ih]
    rfl

theorem complete_conversion (t : Token) (e : List Char → Conversion) :
    (t.conversion (t.texts.map e)).complete = true ↔ ¬ t.Broken ∧ ∀ a ∈ t.texts, (e a).complete = true := by
  induction t with
  | unclosed => simp [conversion, Token.Broken]
  | piece p rest =>
    cases p <;> simp [conversion, Token.Broken, texts, Conversion.ofPiece]
    split <;> simp_all
  | group inner rest =>
    simp [conversion, Token.Broken, texts, complete_andThen, Conversion.joined, Conversion.after]
  | call name inner rest =>
    simp only [conversion, callConversion]
    split <;> simp [Token.Broken, texts, complete_andThen, Conversion.after, Conversion.silenced, complete_joined]
  | asText t ih =>
    show (t.conversion (t.texts.map e)).asText.complete = true ↔ _
    rw [Conversion.asText, complete_andThen, Bool.and_true]
    exact ih

theorem complete_expression : (expression cx s).complete = (scan cx (stripL s)).complete := by
  rw [expression]
  split
  · next h => rw [isEmpty_iff.1 h, scan]; rfl
  · rfl

theorem complete_scan_iff : (scan cx s).complete = true ↔
    ∀ c r, ReflTransGen (Leads cx) s (c :: r) → ¬ (step cx c r).Broken := by
  induction hn : s.length using Nat.strong_induction_on generalizing s with
  | _ n ih =>
    subst hn
    cases s with
    | nil =>
      rw [scan]
      refine iff_of_true rfl fun c r h => ?_
      rcases ReflTransGen.cases_head_iff.1 h with h | ⟨t, ht, -⟩
      · cases h
      · cases ht
    | cons c r =>
      rw [scan_cons, complete_andThen, Bool.and_eq_true, complete_conversion]
      have next : ∀ t, Leads cx (c :: r) t → ((scan cx t).complete = true ↔ _) := fun t ht =>
        ih t.length (length_lt_of_leads ht) rfl
      simp only [complete_expression]
      constructor
      · rintro ⟨⟨hsound, htexts⟩, hrest⟩ c' r' h
        rcases ReflTransGen.cases_head_iff.1 h with h | ⟨t, ht, h⟩
        · cases h
          exact hsound
        · refine (next t ht).1 ?_ c' r' h
          rcases ht with rfl | ⟨a, ha, rfl⟩
          · exact hrest
          · exact htexts a ha
      · intro h
        have sound : ∀ t, Leads cx (c :: r) t → (scan cx t).complete = true := fun t ht =>
          (next t ht).2 fun c' r' h' => h c' r' (h'.head ht)
        exact ⟨⟨h c r .refl, fun a ha => sound _ (.inr ⟨a, ha, rfl⟩)⟩, sound _ (.inl rfl)⟩

theorem token_ne_unclosed (cx : Context) (c : Char) (r : List Char) : token cx c r ≠ .unclosed := by
  unfold token
  dsimp only
  repeat' split
  all_goals simp

theorem step_eq_unclosed_iff : step cx c r = .unclosed ↔ c = '"' ∧ '"' ∉ r := by
  have hnext : ∀ s, nextToken cx s ≠ .unclosed := by
    intro s
    unfold nextToken
    split
    · simp
    · exact token_ne_unclosed _ _ _
  have hcut := cutL?_eq_none_iff (s := r) (p := ['"']) (by simp)
  rw [List.singleton_infix_iff] at hcut
  unfold step
  split
  · next hc =>
    rw [← hcut]
    cases cutL? ['"'] r <;> simp [hc]
  · next hc =>
    simp only [hc, false_and, iff_false]
    split
    · simp
    · split
      · simp
      · split
        · simp
        · exact hnext _

/-- All that is left to be read after a step is shorter, and a conversion fails exactly if it comes to a string without
a closing quote or to a row of too many digits. -/
theorem convert_fails_iff (cx : Context) (formula : String) :
    (∀ s t, Leads cx s t → t.length < s.length) ∧ (∀ c r, step cx c r = .unclosed ↔ c = '"' ∧ '"' ∉ r) ∧
      ((convert cx formula).complete = false ↔
        ∃ c r, ReflTransGen (Leads cx) (stripL (body formula)) (c :: r) ∧ (step cx c r).Broken) := by
  refine ⟨fun s t => length_lt_of_leads, fun c r => step_eq_unclosed_iff, ?_⟩
  rw [convert, complete_expression, ← Bool.not_eq_true, complete_scan_iff]
  push Not
  rfl

/-! Arguments -/

/-- Whether all that is open after a text was open before it, and no comma or closing parenthesis stands outside. -/
def isArgument (n : Nesting) : List Char → Bool
  | [] => n = .outside
  | c :: a => !((c = ')' || c = ',') && n = .outside) && isArgument (n.step c) a

theorem closing?_append (h : isArgument n a = true) (s : List Char) :
    closing? n (a ++ s) = (closing? .outside s).map fun p => (a ++ p.1, p.2) := by
  induction a generalizing n with
  | nil => simp [of_decide_eq_true h]
  | cons c a ih =>
    obtain ⟨hc, ha⟩ : _ ∧ isArgument (n.step c) a = true := Bool.and_eq_true_iff.1 h
    rw [cons_append, closing?, if_neg (by grind), ih ha, Option.map_map]
    rfl

theorem splitCommas_append (h : isArgument n a = true) (cur s : List Char) :
    splitCommas n cur (a ++ s) = splitCommas .outside (a.reverse ++ cur) s := by
  induction a generalizing n cur with
  | nil => rw [of_decide_eq_true h]; rfl
  | cons c a ih =>
    obtain ⟨hc, ha⟩ : _ ∧ isArgument (n.step c) a = true := Bool.and_eq_true_iff.1 h
    rw [cons_append, splitCommas, if_neg (by grind), ih ha, reverse_cons, append_assoc]
    rfl

section

variable {as : List (List Char)} (has : ∀ a ∈ as, isArgument .outside a = true)

include has

theorem enclosed_joinL (rest : List Char) : enclosed (joinL [','] as ++ ')' :: rest) = (joinL [','] as, rest) := by
  have hclose : closing? .outside (joinL [','] as ++ ')' :: rest) = some (joinL [','] as, rest) := by
    fun_induction joinL [','] as with
    | case1 => rfl
    | case2 a => rw [closing?_append (has a mem_cons_self)]; simp [closing?]
    | case3 a as _ ih =>
      rw [append_assoc, append_assoc, closing?_append (has a mem_cons_self), singleton_append, closing?,
        if_neg (by decide), show Nesting.outside.step ',' = .outside from rfl, ih (forall_mem_cons.1 has).2]
      simp
  rw [enclosed, hclose]
  rfl

theorem arguments_joinL : arguments (joinL [','] as) = (as.map stripL).filter fun a => !a.isEmpty := by
  fun_induction joinL [','] as with
  | case1 => rfl
  | case2 a =>
    rw [arguments, ← append_nil a, splitCommas_append (has a mem_cons_self), splitCommas]
    cases a <;> simp [stripL, stripWhileL, dropRightWhileL]
  | case3 a as _ ih =>
    rw [arguments, append_assoc, splitCommas_append (has a mem_cons_self), singleton_append, splitCommas,
      if_pos ⟨rfl, rfl⟩, map_cons, filter_cons, map_cons, filter_cons, append_nil, reverse_reverse,
      ← ih (forall_mem_cons.1 has).2, arguments]

end

theorem eq_of_callHead? {n : List Char} (h : callHead? (c :: r) = some (n, s)) :
    isNameLetter c = true ∧ c :: r = n ++ '(' :: s := by
  have := takeWhile_append_dropWhile (p := isNameChar) (l := r)
  unfold callHead? at h
  grind

theorem callHead?_of_token {name inner left : List Char} (h : token cx c r = .call name inner left) :
    ∃ u, callHead? (c :: r) = some (name, u) ∧ enclosed u = (inner, left) := by
  unfold token at h
  dsimp only at h
  repeat' split at h
  all_goals cases h
  next u hu => exact ⟨u, hu, rfl⟩

theorem step_of_token (hblank : isBlank c = false) (hstart : c ≠ '"' ∧ c ≠ '&' ∧ c ≠ '(')
    (hop : operator? c r = none) : step cx c r = token cx c r := by
  simp [step, hstart, hop, nextToken, hblank]

theorem step_of_letter (cx : Context) (r : List Char) (h : isNameLetter c = true) :
    isBlank c = false ∧ step cx c r = token cx c r := by
  have hblank : isBlank c = false := by
    simp only [isNameLetter, isAsciiLetter, Bool.or_eq_true, isAsciiUpper_iff, isAsciiLower_iff,
      decide_eq_true_eq] at h
    simp [isBlank]
    omega
  have hsign : ∀ d ∈ ['"', '&', '(', '<', '>', '=', '^', ',', ' ', '%', '+', '-', '*', '/'], c ≠ d := by
    rintro d hd rfl
    exact absurd (any_eq_true.2 ⟨c, hd, h⟩) (by decide +kernel)
  simp only [forall_mem_cons] at hsign
  refine ⟨hblank, step_of_token hblank ⟨hsign.1, hsign.2.1, hsign.2.2.1⟩ ?_⟩
  unfold operator?
  split <;> simp_all

/-- A call converts its arguments, each at its place, exactly if none is blank: a blank one is left out. -/
theorem call_texts_iff {as : List (List Char)} {name inner left rest : List Char}
    (hcall : token cx c r = .call name inner left)
    (htext : c :: r = name ++ '(' :: (joinL [','] as ++ ')' :: rest))
    (has : ∀ a ∈ as, isArgument .outside a = true) :
    let call := callConversion name ((token cx c r).texts.map (expression cx))
    scan cx (c :: r) = call.andThen (scan cx rest) ∧ scan cx ('&' :: c :: r) = call.asText.andThen (scan cx rest) ∧
      (token cx c r).texts = (as.map stripL).filter (fun a => !a.isEmpty) ∧
      ((token cx c r).texts = as.map stripL ↔ ∀ a ∈ as, stripL a ≠ []) := by
  obtain ⟨u, hhead, hin⟩ := callHead?_of_token hcall
  obtain ⟨hletter, hu⟩ := eq_of_callHead? hhead
  rw [htext] at hu
  obtain rfl := (cons.inj (append_cancel_left hu)).2
  rw [enclosed_joinL has, Prod.mk.injEq] at hin
  obtain ⟨rfl, rfl⟩ := hin
  obtain ⟨hblank, hstep⟩ := step_of_letter cx r hletter
  have hand : step cx '&' (c :: r) = .asText (token cx c r) := by simp [step, nextToken, hblank]
  refine ⟨?_, ?_, ?_⟩
  · rw [scan_cons, hstep, hcall]
    rfl
  · rw [scan_cons, hand, hcall]
    rfl
  · have htexts : (token cx c r).texts = (as.map stripL).filter (fun a => !a.isEmpty) := by
      rw [hcall, texts, arguments_joinL has]
    refine ⟨htexts, ?_⟩
    rw [htexts, filter_eq_self, forall_mem_map]
    simp

theorem call_texts_skips : (token ⟨"S", []⟩ 'I' "F(A1,,\"a,(\")".toList).texts ≠
    ["A1".toList, [], "\"a,(\"".toList].map stripL := by
  have hcall : token ⟨"S", []⟩ 'I' "F(A1,,\"a,(\")".toList = .call "IF".toList "A1,,\"a,(\"".toList [] := by
    decide +kernel
  have htext : 'I' :: "F(A1,,\"a,(\")".toList =
      "IF".toList ++ '(' :: (joinL [','] ["A1".toList, [], "\"a,(\"".toList] ++ ')' :: []) := by decide +kernel
  exact fun h => (call_texts_iff hcall htext (by decide)).2.2.2.1 h [] (by simp) rfl

/-! Blanks -/

/-- What is seen of a conversion: whether it is complete, its text and its references. -/
def Conversion.seen (c : Conversion) : Bool × List Char × List Reference :=
  (c.complete, c.pieces.flatMap Piece.render, c.references)

theorem seen_text (t : List Char) (d : Conversion) : ((Conversion.ofPiece (.text t)).andThen d).seen =
    (d.complete, t ++ d.pieces.flatMap Piece.render, d.references) := rfl

theorem seen_scan_space : (scan cx (' ' :: s)).seen = (scan cx s).seen := by
  rw [scan_cons]
  exact seen_text [] _

theorem step_of_blank (hb : b = '\n' ∨ b = '\t') (hc : isBlank c = false) : step cx b (c :: r) = token cx c r := by
  have hskip : ∀ b, isBlank b = true → nextToken cx (b :: c :: r) = token cx c r := by
    intro b hb
    simp [nextToken, hb, hc]
  rcases hb with rfl | rfl <;> exact hskip _ rfl

/-- An operator that is read as a sign of its own is not written as one. -/
theorem token_of_operator? (cx : Context) (h : operator? c r = some (t, s)) (hc : c ≠ ' ') :
    token cx c r = .piece (.text [c]) r ∧ ((∃ u, t = ' ' :: u) ∨ t = [c, ' '] ∧ s = r) := by
  unfold operator? at h
  split at h
  case h_9 =>
    split at h
    · next hmem =>
      cases h
      have hrfl : ∀ c ∈ "<>+-*/".toList, token cx c r = .piece (.text [c]) r := by
        show ∀ c ∈ ['<', '>', '+', '-', '*', '/'], _
        simp only [forall_mem_cons]
        exact ⟨rfl, rfl, rfl, rfl, rfl, rfl, nofun⟩
      exact ⟨hrfl c (contains_iff_mem.1 hmem), .inl ⟨_, rfl⟩⟩
    · cases h
  all_goals cases h
  all_goals first | exact ⟨rfl, .inl ⟨_, rfl⟩⟩ | exact ⟨rfl, .inr ⟨rfl, rfl⟩⟩ | exact absurd rfl hc

theorem exists_seen_asText (a d : Conversion) : ∃ u, (a.asText.andThen d).seen.2.1 = ' ' :: u := by
  unfold Conversion.asText Conversion.andThen
  repeat' split
  all_goals exact ⟨_, rfl⟩

theorem stringBody_append {u : List Char} (h : '"' ∉ u) (s : List Char) :
    stringBody (u ++ s) = (u ++ (stringBody s).1, (stringBody s).2) := by
  induction u with
  | nil => rfl
  | cons c u ih =>
    rw [mem_cons, not_or] at h
    rw [cons_append, stringBody, ih h.2]
    all_goals grind

/-- Behind a newline or a tab a string goes on at a doubled quote, and it needs no closing one. -/
theorem seen_string_iff (hb : b = '\n' ∨ b = '\t') :
    (scan cx (b :: '"' :: r)).seen = (scan cx ('"' :: r)).seen ↔ ∃ u v, cutL? ['"'] r = some (u, v) ∧ v.head? ≠ some '"' := by
  have htoken : token cx '"' r = .piece (.text ('"' :: (stringBody r).1 ++ ['"'])) (stringBody r).2 := rfl
  rw [scan_cons, step_of_blank hb rfl, scan_cons cx '"' r, htoken, step, if_pos rfl]
  by_cases hr : '"' ∈ r
  · obtain ⟨u, v, rfl, hu⟩ := eq_append_cons_of_mem hr
    rw [cutL?_singleton hu v, stringBody_append hu]
    by_cases hv : v.head? = some '"'
    · obtain ⟨w, rfl⟩ := head?_eq_some_iff.1 hv
      refine iff_of_false (fun h => ?_) (by simp)
      have htext : '"' :: (u ++ (stringBody ('"' :: '"' :: w)).1 ++ ['"']) ++ _ = '"' :: (u ++ ['"']) ++ _ :=
        congrArg (·.2.1) h
      simp [stringBody] at htext
    · have hbody : stringBody ('"' :: v) = ([], v) := by cases v <;> simp_all [stringBody]
      rw [hbody, append_nil]
      exact iff_of_true rfl ⟨u, v, rfl, hv⟩
  · rw [cutL?_eq_none (mem_singleton_self _) hr]
    refine iff_of_false (fun h => ?_) (by simp)
    cases congrArg (·.2.1) h

/-- Before a token a newline or a tab is read as a space is, unless the token is an operator or such a string. -/
theorem seen_newline_iff {b : Char} (hb : b = '\n' ∨ b = '\t') (hblank : isBlank c = false) (hc : c ≠ '(') :
    (scan cx (b :: c :: r)).seen = (scan cx (' ' :: c :: r)).seen ↔ c ≠ '&' ∧ operator? c r = none ∧
      (c = '"' → ∃ u v, cutL? ['"'] r = some (u, v) ∧ v.head? ≠ some '"') := by
  rw [seen_scan_space]
  by_cases hquote : c = '"'
  · subst hquote
    rw [seen_string_iff hb]
    simp [operator?]
  rw [scan_cons, step_of_blank hb hblank, scan_cons cx c r]
  have hspace : c ≠ ' ' := by
    rintro rfl
    cases hblank
  constructor
  · intro h
    have hand : c ≠ '&' := by
      rintro rfl
      obtain ⟨u, hu⟩ := exists_seen_asText ((nextToken cx r).conversion _) (scan cx (nextToken cx r).rest)
      exact absurd (cons.inj ((congrArg (·.2.1) h).trans hu)).1 (by decide)
    refine ⟨hand, Option.eq_none_iff_forall_ne_some.2 fun ⟨t, s⟩ ht => ?_, fun h => absurd h hquote⟩
    obtain ⟨htoken, htext⟩ := token_of_operator? cx ht hspace
    have hstep : step cx c r = .piece (.text t) s := by simp [step, hquote, hand, ht]
    rw [htoken, hstep] at h
    have h : [c] ++ (scan cx r).pieces.flatMap Piece.render = t ++ (scan cx s).pieces.flatMap Piece.render :=
      congrArg (·.2.1) h
    rcases htext with ⟨u, rfl⟩ | ⟨rfl, rfl⟩
    · exact hspace (cons.inj h).1
    · simpa using congrArg length h
  · rintro ⟨hand, hop, -⟩
    rw [step_of_token hblank ⟨hquote, hand, hc⟩ hop]

theorem seen_newline_concatenation :
    (scan ⟨"S", []⟩ "\n&B1".toList).seen ≠ (scan ⟨"S", []⟩ " &B1".toList).seen := fun h =>
  ((seen_newline_iff (.inl rfl) (by decide) (by decide)).1 h).1 rfl

end Sheetwork.Formula
