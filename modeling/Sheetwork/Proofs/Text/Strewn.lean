import Sheetwork.Number.Binary
import Sheetwork.Proofs.Text.Replacement
import Sheetwork.Proofs.Text.Scan
/-
  Text: words of one class that are strewn over a text, each with a dollar sign before it or not. A pattern that takes
  such words (`TakesWords`) cuts every text into stretches and words (`exists_strewn`): its matches are the words, and
  replacing fills the places of the words. If a mark is put for the words and a word for the mark, the text comes back
  exactly if it holds no mark and every word is the one that is put (`replaceL_marked_iff`).
-/

open List
open String (ofList)

namespace Sheetwork.Text

/-- A word with a dollar sign before it or not. -/
structure Word where
  fixed : Bool
  chars : List Char

def Word.text (w : Word) : List Char := dollars w.fixed ++ w.chars

/-- A text up to its first word, and each word with the text behind it. -/
structure Strewn where
  head : List Char
  tail : List (Word × List Char)

namespace Strewn

def words (x : Strewn) : List Word := x.tail.map Prod.fst

def stretches (x : Strewn) : List (List Char) := x.head :: x.tail.map Prod.snd

def fill (g : Word → List Char) (x : Strewn) : List Char := x.head ++ x.tail.flatMap fun p => g p.1 ++ p.2

def text (x : Strewn) : List Char := x.fill Word.text

/-- The stretches changed, the words kept. -/
def mapText (h : List Char → List Char) (x : Strewn) : Strewn := ⟨h x.head, x.tail.map fun p => (p.1, h p.2)⟩

/-- Words of a class that go as far as they can: behind each stands the end, a dollar sign or a
character of another class. -/
def Apart (t : Char → Bool) : List (Word × List Char) → Prop
  | [] => True
  | (w, u) :: r =>
    w.chars ≠ [] ∧ (∀ c ∈ w.chars, t c = true) ∧ (∀ c, u.head? = some c → t c = false) ∧
      (u = [] → ∀ p, r.head? = some p → p.1.fixed = true) ∧ Apart t r

variable {t : Char → Bool} {u : List Char} {w : Word} {r : List (Word × List Char)} {x : Strewn}

theorem fill_cons (g : Word → List Char) (h : List Char) : fill g ⟨h, (w, u) :: r⟩ = h ++ (g w ++ fill g ⟨u, r⟩) := by
  simp [fill]

theorem fill_congr {g g' : Word → List Char} (h : ∀ w ∈ x.words, g w = g' w) : x.fill g = x.fill g' := by
  have htail : ∀ p ∈ x.tail, g p.1 ++ p.2 = g' p.1 ++ p.2 := fun p hp => by rw [h p.1 (mem_map_of_mem hp)]
  rw [fill, fill, flatMap, flatMap, map_congr_left htail]

theorem Apart.of_mem (h : Apart t x.tail) (hw : w ∈ x.words) : w.chars ≠ [] ∧ ∀ c ∈ w.chars, t c = true := by
  obtain ⟨h0, r⟩ := x
  induction r with
  | nil => cases hw
  | cons p r ih =>
    obtain ⟨hne, hall, -, -, hr⟩ := h
    rcases mem_cons.1 hw with rfl | hw
    · exact ⟨hne, hall⟩
    · exact ih hr hw

variable {c : Char}

/-- What stands behind a word does not continue it, whatever is put for the words. -/
theorem Apart.head?_fill (h : Apart t ((w, u) :: r)) (hd : t '$' = false) (a : Word → List Char)
    (hc : (fill (fun w => dollars w.fixed ++ a w) ⟨u, r⟩).head? = some c) : t c = false := by
  obtain ⟨-, -, hu, hnext, -⟩ := h
  cases u with
  | cons d u => exact hu c hc
  | nil =>
    cases r with
    | nil => cases hc
    | cons p r =>
      have hfixed := hnext rfl p rfl
      rw [fill_cons, hfixed] at hc
      cases hc
      exact hd

theorem Apart.eq_of_fill_eq {a b : Word → List Char} (h : Apart t x.tail) (hd : t '$' = false)
    (ha : ∀ w ∈ x.words, ∀ c ∈ a w, t c = true) (hb : ∀ w ∈ x.words, ∀ c ∈ b w, t c = true)
    (he : x.fill (fun w => dollars w.fixed ++ a w) = x.fill fun w => dollars w.fixed ++ b w) :
    ∀ w ∈ x.words, a w = b w := by
  obtain ⟨h0, r⟩ := x
  induction r generalizing h0 with
  | nil => exact fun w hw => absurd hw not_mem_nil
  | cons p r ih =>
    obtain ⟨w, u⟩ := p
    have take : ∀ d : Word → List Char, (∀ w' ∈ words ⟨h0, (w, u) :: r⟩, ∀ c ∈ d w', t c = true) →
        (d w ++ fill (fun w => dollars w.fixed ++ d w) ⟨u, r⟩).takeWhile t = d w := by
      intro d hdw
      exact (span_append (hdw w mem_cons_self) fun c hc => h.head?_fill hd d hc).1
    rw [fill_cons, fill_cons, append_assoc, append_assoc] at he
    have htail := append_cancel_left (append_cancel_left he)
    have hw : a w = b w := by rw [← take a ha, ← take b hb, htail]
    rw [hw] at htail
    intro v hv
    rcases mem_cons.1 hv with rfl | hv
    · exact hw
    · exact ih u h.2.2.2.2 (fun v hv => ha v (mem_cons_of_mem _ hv))
        (fun v hv => hb v (mem_cons_of_mem _ hv)) (append_cancel_left htail) v hv

end Strewn

/-! Marks -/

section Mark

variable {p new s u v r : List Char}

theorem afterL?_eq_some_iff : afterL? p s = some r ↔ s = p ++ r := by
  refine ⟨eq_of_afterL?, ?_⟩
  rintro rfl
  exact afterL?_self p r

theorem cutL?_eq_none_iff (hp : p ≠ []) : cutL? p s = none ↔ ¬ p <:+: s := by
  constructor
  · rintro h ⟨a, b, rfl⟩
    induction a with
    | nil =>
      obtain ⟨c, p, rfl⟩ := exists_cons_of_ne_nil hp
      have hafter : afterL? (c :: p) (c :: p ++ b) = some b := afterL?_eq_some_iff.2 rfl
      rw [nil_append, cons_append, cutL?, ← cons_append, hafter] at h
      cases h
    | cons d a ih =>
      rw [cons_append, cons_append, cutL?] at h
      split at h
      · cases h
      · exact ih (Option.map_eq_none_iff.1 h)
  · intro h
    rw [Option.eq_none_iff_forall_ne_some]
    rintro ⟨a, b⟩ hab
    exact h ⟨a, b, by rw [eq_of_cutL? hab, append_assoc]⟩

theorem replaceL_nil (hp : p ≠ []) : replaceL p new [] = [] := by
  refine replaceL_of_none hp ?_
  rw [cutL?, if_neg (by simpa using hp)]

theorem replaceL_cons (hp : p ≠ []) (hc : c ∉ p) (s : List Char) : replaceL p new (c :: s) = c :: replaceL p new s := by
  have happend : replaceL p new ([] ++ c :: s) = _ := Text.replaceL_append hp hc [] s
  rwa [replaceL_nil hp] at happend

/-- A mark: its first character occurs in it only once. -/
def IsMark : List Char → Prop
  | [] => False
  | c :: p => c ∉ p

instance (p : List Char) : Decidable (IsMark p) :=
  match p with
  | [] => inferInstanceAs (Decidable False)
  | _ :: _ => inferInstanceAs (Decidable (_ ∉ _))

theorem IsMark.ne_nil (h : IsMark p) : p ≠ [] := by
  rintro rfl
  exact h

/-- No occurrence of a mark reaches into another one. -/
theorem IsMark.afterL?_append (h : IsMark p) (hu : u ≠ []) (v : List Char) :
    afterL? p (u ++ (p ++ v)) = (afterL? p u).map (· ++ (p ++ v)) := by
  cases hafter : afterL? p u with
  | some r =>
    rw [afterL?_eq_some_iff.1 hafter, append_assoc]
    exact afterL?_eq_some_iff.2 rfl
  | none =>
    rw [Option.map_none, Option.eq_none_iff_forall_ne_some]
    intro r hr
    obtain ⟨m, hm⟩ | ⟨m, hm⟩ := append_eq_append_iff.1 (afterL?_eq_some_iff.1 hr)
    · -- the occurrence ends behind `u`, so the first character stands in it once more
      obtain ⟨c, u, rfl⟩ := exists_cons_of_ne_nil hu
      obtain ⟨d, p, rfl⟩ := exists_cons_of_ne_nil h.ne_nil
      obtain ⟨hmp, hmr⟩ := hm
      cases m with
      | nil =>
        rw [append_nil] at hmp
        have := afterL?_eq_some_iff.2 (show c :: u = d :: p ++ [] by rw [← hmp, append_nil])
        rw [hafter] at this
        cases this
      | cons e m =>
        obtain ⟨-, hp⟩ := cons.inj hmp
        obtain ⟨rfl, -⟩ := cons.inj hmr
        exact h (by rw [hp]; simp)
    · rw [afterL?_eq_some_iff.2 hm.1] at hafter
      cases hafter

theorem IsMark.cutL?_append (h : IsMark p) (u v : List Char) : cutL? p (u ++ (p ++ v)) =
    some (((cutL? p u).map fun x => (x.1, x.2 ++ (p ++ v))).getD (u, v)) := by
  induction u with
  | nil =>
    obtain ⟨c, p, rfl⟩ := exists_cons_of_ne_nil h.ne_nil
    have hafter : afterL? (c :: p) (c :: (p ++ v)) = some v := afterL?_eq_some_iff.2 rfl
    have hnil : cutL? (c :: p) [] = none := rfl
    rw [hnil, nil_append, cons_append, cutL?, hafter]
    rfl
  | cons c u ih =>
    have hafter := h.afterL?_append (cons_ne_nil c u) v
    rw [cons_append, cutL?, ← cons_append, hafter, cutL?, ih]
    cases afterL? p (c :: u) with
    | some r => rfl
    | none => cases cutL? p u <;> rfl

theorem IsMark.replaceL_append (h : IsMark p) (u v : List Char) :
    replaceL p new (u ++ (p ++ v)) = replaceL p new u ++ (new ++ replaceL p new v) := by
  have hcut := h.cutL?_append u v
  cases hu : cutL? p u with
  | none =>
    rw [hu] at hcut
    rw [replaceL_of_some h.ne_nil hcut, replaceL_of_none h.ne_nil hu]
  | some x =>
    have hshort : x.2.length < u.length := length_lt_of_cutL? h.ne_nil hu
    rw [hu] at hcut
    rw [replaceL_of_some h.ne_nil hcut, replaceL_of_some h.ne_nil hu]
    have hrest : replaceL p new (x.2 ++ (p ++ v)) = _ := h.replaceL_append x.2 v
    simp [hrest]
termination_by u.length

/-- Every mark that is replaced takes its first character with it. -/
theorem count_replaceL_le {c : Char} (hnew : c ∉ new) (s : List Char) : (replaceL (c :: p) new s).count c ≤ s.count c ∧
      (cutL? (c :: p) s ≠ none → (replaceL (c :: p) new s).count c < s.count c) := by
  have hne : c :: p ≠ [] := cons_ne_nil c p
  cases hs : cutL? (c :: p) s with
  | none =>
    rw [replaceL_of_none hne hs]
    exact ⟨Nat.le_refl _, fun h => absurd rfl h⟩
  | some x =>
    have heq := eq_of_cutL? hs
    have hshort : x.2.length < s.length := length_lt_of_cutL? hne hs
    have ih : (replaceL (c :: p) new x.2).count c ≤ x.2.count c := (count_replaceL_le hnew x.2).1
    have hcount : s.count c = x.1.count c + (p.count c + 1 + x.2.count c) := by
      rw [heq, count_append, count_append, count_cons_self]
    have hless : (replaceL (c :: p) new s).count c < s.count c := by
      rw [replaceL_of_some hne hs, count_append, count_append, count_eq_zero_of_not_mem hnew, hcount]
      omega
    exact ⟨Nat.le_of_lt hless, fun _ => hless⟩
termination_by s.length

end Mark

namespace Strewn

variable {t : Char → Bool} {mark new : List Char} {x : Strewn}

/-- Replacing the mark that stands for the words replaces it in the stretches as well. -/
theorem replaceL_marked (h : IsMark mark) (hd : '$' ∉ mark) (x : Strewn) :
    replaceL mark new (x.fill fun w => dollars w.fixed ++ mark) =
      (x.mapText (replaceL mark new)).fill fun w => dollars w.fixed ++ new := by
  have hdollars : ∀ (u : List Char) (b : Bool),
      replaceL mark new (u ++ dollars b) = replaceL mark new u ++ dollars b := by
    intro u b
    cases b with
    | false => simp [dollars]
    | true => rw [show dollars true = '$' :: [] from rfl, Text.replaceL_append h.ne_nil hd, replaceL_nil h.ne_nil]
  obtain ⟨u, r⟩ := x
  induction r generalizing u with
  | nil => simp [fill, mapText]
  | cons p r ih =>
    obtain ⟨w, v⟩ := p
    have := ih v
    rw [fill_cons, append_assoc, ← append_assoc u, h.replaceL_append, hdollars, this]
    simp [mapText, fill]

/-- Words lie between stretches, so a mark without characters of words lies in one of these. -/
theorem cutL?_text_eq_none_iff (h : IsMark mark) (hd : '$' ∉ mark) (hmark : ∀ c ∈ mark, t c = false)
    (hx : Apart t x.tail) : cutL? mark x.text = none ↔ ∀ u ∈ x.stretches, cutL? mark u = none := by
  obtain ⟨u, r⟩ := x
  induction r generalizing u with
  | nil => simp [text, fill, stretches]
  | cons p r ih =>
    obtain ⟨w, v⟩ := p
    obtain ⟨hne, hall, -, -, hr⟩ := hx
    have hword : ∀ c ∈ w.text, c ∉ mark := by
      intro c hc hm
      rcases mem_append.1 hc with hc | hc
      · exact hd (mem_dollars hc ▸ hm)
      · exact absurd (hmark c hm) (by rw [hall c hc]; decide)
    have hcut : ∀ (a b y : List Char), a ≠ [] → (∀ c ∈ a, c ∉ mark) →
        (cutL? mark (y ++ (a ++ b)) = none ↔ cutL? mark y = none ∧ cutL? mark b = none) := by
      intro a
      induction a with
      | nil => exact fun _ _ hne => absurd rfl hne
      | cons c a iha =>
        intro b y _ ha
        have hstep : ∀ z, cutL? mark (y ++ c :: z) = none ↔ cutL? mark y = none ∧ cutL? mark z = none := by
          intro z
          rw [Text.cutL?_append h.ne_nil (ha c mem_cons_self), Option.or_eq_none_iff,
            Option.map_eq_none_iff, Option.map_eq_none_iff]
        rw [cons_append, hstep]
        cases a with
        | nil => rfl
        | cons d a =>
          have hnil : cutL? mark [] = none := by rw [cutL?, if_neg (by simpa using h.ne_nil)]
          have := iha b [] (cons_ne_nil d a) fun e he => ha e (mem_cons_of_mem _ he)
          rw [nil_append] at this
          rw [this]
          simp [hnil]
    have htext : text ⟨u, (w, v) :: r⟩ = u ++ (w.text ++ text ⟨v, r⟩) := fill_cons _ _
    have hwne : w.text ≠ [] := by exact append_ne_nil_of_right_ne_nil _ hne
    rw [htext, hcut _ _ _ hwne hword, ih v hr]
    simp [stretches]

theorem mapText_eq_self {h : List Char → List Char} (hx : ∀ u ∈ x.stretches, h u = u) : x.mapText h = x := by
  have htail : x.tail.map (fun p => (p.1, h p.2)) = x.tail := by
    refine (map_congr_left fun p hp => ?_).trans (map_id x.tail)
    rw [hx p.2 (mem_cons_of_mem _ (mem_map_of_mem hp))]
    rfl
  rw [mapText, hx x.head mem_cons_self, htail]

/-- A text without the mark gets the new text for its words only. -/
theorem replaceL_marked_of_none (h : IsMark mark) (hd : '$' ∉ mark) (hmark : ∀ c ∈ mark, t c = false)
    (hx : Apart t x.tail) (hnone : cutL? mark x.text = none) :
    replaceL mark new (x.fill fun w => dollars w.fixed ++ mark) = x.fill fun w => dollars w.fixed ++ new := by
  have hstay : ∀ u ∈ x.stretches, replaceL mark new u = u := fun u hu =>
    replaceL_of_none h.ne_nil ((cutL?_text_eq_none_iff h hd hmark hx).1 hnone u hu)
  rw [replaceL_marked h hd, mapText_eq_self hstay]

/-- Filled with texts that lack a character, a text has this character in its stretches. -/
theorem count_fill {g : Word → List Char} (x : Strewn) (hg : ∀ w ∈ x.words, c ∉ g w) :
    (x.fill g).count c = (x.stretches.map (count c)).sum := by
  obtain ⟨u, r⟩ := x
  induction r generalizing u with
  | nil => simp [fill, stretches]
  | cons p r ih =>
    obtain ⟨w, v⟩ := p
    have hrest := ih v fun w hw => hg w (mem_cons_of_mem _ hw)
    rw [fill_cons, count_append, count_append, count_eq_zero_of_not_mem (hg w mem_cons_self), hrest]
    simp [stretches]

theorem eq_of_sum_map_eq {α : Type} {f g : α → Nat} {l : List α} (hle : ∀ a ∈ l, f a ≤ g a)
    (h : (l.map f).sum = (l.map g).sum) : ∀ a ∈ l, f a = g a := by
  intro a ha
  by_contra hne
  exact Nat.ne_of_lt (sum_lt_sum f g hle ⟨a, ha, Nat.lt_of_le_of_ne (hle a ha) hne⟩) h

/-- The mark put for the words and a word for the mark: the text comes back exactly if it holds no
mark and the word is every one of its words. -/
theorem replaceL_marked_iff (h : IsMark mark) (hd : '$' ∉ mark) (htd : t '$' = false)
    (hmark : ∀ c ∈ mark, t c = false) (hx : Apart t x.tail) (hnew : ∀ c ∈ new, t c = true) :
    replaceL mark new (x.fill fun w => dollars w.fixed ++ mark) = x.text ↔
      cutL? mark x.text = none ∧ ∀ w ∈ x.words, w.chars = new := by
  have hword : ∀ w ∈ x.words, ∀ c ∈ w.chars, t c = true := fun w hw => (hx.of_mem hw).2
  constructor
  · intro he
    have hnone : cutL? mark x.text = none := by
      -- the words lack the first character of the mark, so each mark that is lost is missed
      obtain ⟨c, p, rfl⟩ := exists_cons_of_ne_nil h.ne_nil
      have hc : t c = false := hmark c mem_cons_self
      have hcd : ∀ b, c ∉ dollars b := fun b hb => hd (mem_dollars hb ▸ mem_cons_self)
      have hclass : ∀ l : List Char, (∀ d ∈ l, t d = true) → c ∉ l := by
        intro l hl hm
        rw [hl c hm] at hc
        cases hc
      have hleft : (x.text).count c = ((x.mapText (replaceL (c :: p) new)).stretches.map (count c)).sum := by
        rw [← he, replaceL_marked h hd]
        exact count_fill _ fun w _ hm => (mem_append.1 hm).elim (hcd _) (hclass new hnew)
      have hright : (x.text).count c = (x.stretches.map (count c)).sum :=
        count_fill x fun w hw hm => (mem_append.1 hm).elim (hcd _) (hclass w.chars (hword w hw))
      have hstretches : (x.mapText (replaceL (c :: p) new)).stretches = x.stretches.map (replaceL (c :: p) new) := by
        simp [stretches, mapText]
      rw [hright, hstretches, map_map] at hleft
      have hsame := eq_of_sum_map_eq (fun u _ => (count_replaceL_le (hclass new hnew) u).1) hleft.symm
      refine (cutL?_text_eq_none_iff h hd hmark hx).2 fun u hu => ?_
      cases hcut : cutL? (c :: p) u with
      | none => rfl
      | some y =>
        have hless := (count_replaceL_le (hclass new hnew) u).2 (by rw [hcut]; nofun)
        have hequal : (replaceL (c :: p) new u).count c = u.count c := hsame u hu
        omega
    refine ⟨hnone, ?_⟩
    rw [replaceL_marked_of_none h hd hmark hx hnone] at he
    intro w hw
    exact (hx.eq_of_fill_eq htd (fun _ _ => hnew) hword he w hw).symm
  · rintro ⟨hnone, hall⟩
    rw [replaceL_marked_of_none h hd hmark hx hnone]
    exact fill_congr fun w hw => by rw [Word.text, hall w hw]

end Strewn

/-! Patterns that take words -/

/-- The match is a word, with its dollar sign in the first capture. -/
structure Match.Reads (m : Match) (w : Word) : Prop where
  whole : m.whole = ofList w.text
  mark : m.group 1 = ofList (dollars w.fixed)
  word : m.group 2 = ofList w.chars

namespace Pattern

/-- A word with a dollar sign that may be missing. -/
def marked (t : Char → Bool) : Pattern := cap 1 (chr '$').opt ++ cap 2 (one t).plus

/-- Every match is a word of the class that goes as far as it can. -/
structure TakesWords (p : Pattern) (t : Char → Bool) : Prop where
  takes : p.Takes
  reads : ∀ ⦃s : Array Char⦄ ⦃i : Nat⦄ ⦃v : List Char⦄ ⦃m : Match⦄, Stands s i v → i ≤ s.size →
    p.matchAt? s i = some m → ∃ (w : Word) (u : List Char), v = w.text ++ u ∧ w.chars ≠ [] ∧
      (∀ c ∈ w.chars, t c = true) ∧ (∀ c, u.head? = some c → t c = false) ∧
      m.stop = i + w.text.length ∧ m.Reads w

variable {s : Array Char} {i : Nat} {cs : Captures} {k : Follow} {r : Nat × Captures}
  {t : Char → Bool} {v : List Char} {q : Option Char → Bool}

theorem run_opt_one : run s (opt (one t)) i cs k =
    if (s[i]?).any t then (k (i + 1) cs).orElse fun _ => k i cs else k i cs := by
  rw [run_opt, run]
  cases s[i]? with
  | none => rfl
  | some c => cases ht : t c <;> simp [ht]

/-- A repetition of a class takes the longest stretch, if what follows looks at one character at
most, and takes all of them or none of the class. -/
theorem run_plus_longest {f : Nat → Captures → Nat × Captures}
    (hok : (∀ x, q x = true) ∨ ∀ x, q x = true → x.any t = false)
    (hk : ∀ j ds, k j ds = if q s[j]? then some (f j ds) else none) (hv : Stands s i v)
    (hi : i ≤ s.size) (h : run s (one t).plus i cs k = some r) :
    ∃ w u, v = w ++ u ∧ w ≠ [] ∧ (∀ c ∈ w, t c = true) ∧ (∀ c, u.head? = some c → t c = false) ∧
      r = f (i + w.length) cs := by
  obtain ⟨w, hw⟩ : ∃ w, w = v.takeWhile t := ⟨_, rfl⟩
  obtain ⟨u, hu⟩ : ∃ u, u = v.dropWhile t := ⟨_, rfl⟩
  have hvwu : v = w ++ u := by rw [hw, hu, takeWhile_append_dropWhile]
  have hall : ∀ c ∈ w, t c = true := fun c hc => mem_takeWhile_imp (hw ▸ hc)
  have hnext : ∀ c, u.head? = some c → t c = false := fun c hc =>
    Bool.eq_false_iff.2 (head?_dropWhile_not t v |> fun h => by
      rw [← hu, hc] at h
      simpa using h)
  have hat := hv.getElem?_add
  have hend : s[i + w.length]? = u.head? := by
    rw [hat, hvwu, List.getElem?_append_right (Nat.le_refl _), Nat.sub_self, List.head?_eq_getElem?]
  have hne : w ≠ [] := by
    intro hnil
    obtain ⟨⟨c, hc, ht⟩, -⟩ := run_plus_continues h
    rw [hnil, length_nil, Nat.add_zero, hc] at hend
    rw [hnext c hend.symm] at ht
    cases ht
  refine ⟨w, u, hvwu, hne, hall, hnext, ?_⟩
  cases hlast : q u.head? with
  | true =>
    have hrun : run s (one t).plus i cs k = some (f (i + w.length) cs) :=
      run_rep_one (hvwu ▸ hv) hi hall (length_pos_iff.2 hne) nofun (.inl hnext) (by rw [hk, hend, hlast]; rfl)
    exact Option.some.inj (h.symm.trans hrun)
  | false =>
    -- a shorter stretch would be followed by a character of the class
    have hclass := hok.resolve_left fun hall => by
      rw [hall] at hlast
      cases hlast
    obtain ⟨j, hj, hbefore, hkj⟩ := run_rep_one_cases h
    rw [hk] at hkj
    split at hkj
    · next hokj =>
      have hjt := hclass _ hokj
      have hge : ¬ j < i + w.length := by
        intro hlt
        obtain ⟨n, rfl⟩ : ∃ n, j = i + n := ⟨j - i, by omega⟩
        have hn : n < w.length := by omega
        rw [hat, hvwu, List.getElem?_append_left hn, List.getElem?_eq_getElem hn, Option.any_some,
          hall _ (getElem_mem hn)] at hjt
        cases hjt
      have hle : ¬ i + w.length < j := by
        intro hlt
        obtain ⟨c, hc, ht⟩ := hbefore _ (by omega) hlt
        rw [hend] at hc
        rw [hnext c hc] at ht
        cases ht
      rw [show j = i + w.length by omega, hend, hlast] at hokj
      cases hokj
    · cases hkj

theorem run_marked (hok : (∀ x, q x = true) ∨ ∀ x, q x = true → x.any t = false)
    (hk : ∀ j ds, k j ds = if q s[j]? then some (j, ds) else none) (hv : Stands s i v) (hi : i ≤ s.size)
    (h : run s (marked t) i [] k = some r) :
    ∃ (w : Word) (u : List Char), v = w.text ++ u ∧ w.chars ≠ [] ∧ (∀ c ∈ w.chars, t c = true) ∧
      (∀ c, u.head? = some c → t c = false) ∧
      r = (i + w.text.length, [(2, i + (dollars w.fixed).length, i + w.text.length),
        (1, i, i + (dollars w.fixed).length)]) := by
  have word : ∀ j ds v', Stands s j v' → j ≤ s.size → run s (cap 2 (one t).plus) j ds k = some r →
      ∃ w u, v' = w ++ u ∧ w ≠ [] ∧ (∀ c ∈ w, t c = true) ∧ (∀ c, u.head? = some c → t c = false) ∧
        r = (j + w.length, (2, j, j + w.length) :: ds) := fun j ds v' hv' hj h =>
    run_plus_longest (f := fun l es => (l, (2, j, l) :: es)) hok (fun l es => hk l _) hv' hj h
  have hrun : run s (opt (one fun c => decide (c = '$'))) i []
      (fun j ds => run s (cap 2 (one t).plus) j ((1, i, j) :: ds) k) = some r := h
  have hcases : run s (cap 2 (one t).plus) i [(1, i, i)] k = some r ∨
      ∃ v', v = '$' :: v' ∧ run s (cap 2 (one t).plus) (i + 1) [(1, i, i + 1)] k = some r := by
    rw [run_opt_one, hv.getElem?] at hrun
    split at hrun
    · next hdollar =>
      refine (orElse_cases hrun).symm.imp_right fun hmore => ?_
      cases v with
      | nil => cases hdollar
      | cons c v' => exact ⟨v', by simpa using hdollar, hmore⟩
    · exact .inl hrun
  rcases hcases with hplain | ⟨v', rfl, hmore⟩
  · obtain ⟨w, u, hvw, hne, hall, hu, hr⟩ := word i _ v hv hi hplain
    exact ⟨⟨false, w⟩, u, hvw, hne, hall, hu, hr⟩
  · have hsize := hv.size hi
    rw [length_cons] at hsize
    obtain ⟨w, u, rfl, hne, hall, hu, hr⟩ := word (i + 1) _ v' hv.tail (by omega) hmore
    refine ⟨⟨true, w⟩, u, rfl, hne, hall, hu, ?_⟩
    rw [hr]
    simp only [Word.text, dollars, if_true, length_append, length_singleton]
    rw [Nat.add_assoc, Nat.add_comm 1]

theorem reads_of_captures {w : Word} {u : List Char} (hv : Stands s i (w.text ++ u)) :
    Match.Reads ⟨s, i, i + w.text.length, [(2, i + (dollars w.fixed).length, i + w.text.length),
      (1, i, i + (dollars w.fixed).length)]⟩ w := by
  have hmark : Stands s i (dollars w.fixed ++ (w.chars ++ u)) := by rwa [← append_assoc]
  have hlen : i + w.text.length = i + (dollars w.fixed).length + w.chars.length := by
    rw [Word.text, length_append, Nat.add_assoc]
  refine ⟨?_, ?_, ?_⟩
  · exact congrArg ofList hv.extract
  · exact congrArg ofList hmark.extract
  · show ofList (s.extract _ (i + w.text.length)).toList = _
    rw [hlen, hmark.append.extract]

theorem takes_marked (t : Char → Bool) : (marked t).Takes := by
  intro s i cs k r h
  obtain ⟨j, ds, hij, h⟩ := run_continues (cap 1 (chr '$').opt) h
  obtain ⟨⟨c, hc, -⟩, l, es, hjl, hk⟩ := run_plus_continues h
  have hj : j < s.size := (Array.getElem?_eq_some_iff.1 hc).1
  exact ⟨by omega, l, (2, j, l) :: es, by omega, hk⟩

theorem takesWords_marked (t : Char → Bool) : TakesWords (marked t) t := by
  refine ⟨takes_marked t, fun s i v m hv hi hm => ?_⟩
  obtain ⟨⟨j, ds⟩, hrun, rfl⟩ := Option.map_eq_some_iff.1 hm
  obtain ⟨w, u, rfl, hne, hall, hu, hr⟩ :=
    run_marked (q := fun _ => true) (.inl fun _ => rfl) (fun _ _ => rfl) hv hi hrun
  cases hr
  exact ⟨w, u, rfl, hne, hall, hu, rfl, reads_of_captures hv⟩

theorem takesWords_before {d : Char → Bool} (hdt : ∀ c, d c = true → t c = false) :
    TakesWords (marked t ++ ahead true (one d)) t := by
  refine ⟨(takes_marked t).seq_left, fun s i v m hv hi hm => ?_⟩
  obtain ⟨⟨j, ds⟩, hrun, rfl⟩ := Option.map_eq_some_iff.1 hm
  have hlook : ∀ x : Option Char, x.any d = true → x.any t = false := by
    intro x hx
    cases x with
    | none => rfl
    | some c => exact hdt c hx
  obtain ⟨w, u, rfl, hne, hall, hu, hr⟩ :=
    run_marked (q := fun x => x.any d) (.inr hlook) (fun _ _ => run_ahead_one) hv hi hrun
  cases hr
  exact ⟨w, u, rfl, hne, hall, hu, rfl, reads_of_captures hv⟩

variable {p : Pattern} {ε : Type} {f : Match → Except ε String}

/-! Cutting a text into words and stretches -/

theorem exists_strewn_from {t : Char → Bool} (hp : p.TakesWords t) {s : Array Char} {i : Nat} {v : List Char}
    (hv : Stands s i v) (hi : i ≤ s.size) : ∃ x : Strewn, x.text = v ∧ Strewn.Apart t x.tail ∧
      (∀ f g, (∀ m w, Match.Reads m w → (f m).toList = g w) → Scans p f s i (x.fill g)) ∧
      ∀ fuel, s.size - i < fuel → Forall₂ Match.Reads (p.allFrom s fuel i false) x.words := by
  have hsize := hv.size hi
  cases hm : p.matchAt? s i with
  | some m =>
    obtain ⟨w, u, rfl, hne, hall, hu, hstop, hreads⟩ := hp.reads hv hi hm
    obtain ⟨hlt, -, hnext⟩ := hp.takes.lt_stop hm
    have hv' : Stands s m.stop u := hstop ▸ hv.append
    rw [length_append] at hsize
    obtain ⟨x, rfl, hapart, hscans, hmatches⟩ := exists_strewn_from hp hv' (by omega)
    refine ⟨⟨[], (w, x.head) :: x.tail⟩, Strewn.fill_cons _ _, ⟨hne, hall, ?_, ?_, hapart⟩, ?_, ?_⟩
    · intro c hc
      refine hu c ?_
      rw [Strewn.text, Strewn.fill, head?_append, hc]
      rfl
    · intro hnil q hq
      obtain ⟨y, hy⟩ := head?_eq_some_iff.1 hq
      have hq' := hapart
      rw [hy] at hq'
      obtain ⟨d, ds, hd⟩ := exists_cons_of_ne_nil hq'.1
      cases hfixed : q.1.fixed with
      | true => rfl
      | false =>
        have hhead : x.text.head? = some d := by
          rw [Strewn.text, Strewn.fill, hnil, hy, flatMap_cons, Word.text, hfixed, hd]
          rfl
        have := hu d hhead
        rw [hq'.2.1 d (by rw [hd]; exact mem_cons_self)] at this
        cases this
    · intro f g hfg
      rw [Strewn.fill_cons, nil_append, ← hfg m w hreads]
      exact .hit hm (hscans f g hfg)
    · intro fuel hf
      obtain ⟨fuel, rfl⟩ : ∃ n, fuel = n + 1 := ⟨fuel - 1, by omega⟩
      rw [allFrom_hit hp.takes hm]
      exact .cons hreads (hmatches fuel (by omega))
  | none =>
    cases v with
    | nil =>
      have hend : s.size ≤ i := by
        rw [length_nil] at hsize
        omega
      refine ⟨⟨[], []⟩, rfl, trivial, fun f g _ => .stop hend, fun fuel _ => ?_⟩
      rw [allFrom_nil fun j hj => hp.takes.matchAt?_none (by omega)]
      exact .nil
    | cons c v =>
      have hlt : i < s.size := by
        rw [length_cons] at hsize
        omega
      obtain ⟨x, rfl, hapart, hscans, hmatches⟩ := exists_strewn_from hp hv.tail hlt
      refine ⟨⟨c :: x.head, x.tail⟩, rfl, hapart, fun f g hfg => ?_, fun fuel hf => ?_⟩
      · exact .skip hv.getElem? hm (hscans f g hfg)
      · obtain ⟨fuel, rfl⟩ : ∃ n, fuel = n + 1 := ⟨fuel - 1, by omega⟩
        rw [allFrom_skip hlt hm]
        exact hmatches _ (by omega)
termination_by s.size - i

/-- A text cut into the words that a pattern takes from it and the stretches between them: the
matches are the words, and replacing them fills their places. -/
structure Cuts (p : Pattern) (t : Char → Bool) (s : String) (x : Strewn) : Prop where
  text : s = ofList x.text
  apart : Strewn.Apart t x.tail
  replaceAll : ∀ f g, (∀ m w, Match.Reads m w → (f m).toList = g w) → p.replaceAll f s = ofList (x.fill g)
  reads : Forall₂ Match.Reads (p.all s) x.words

theorem exists_strewn (hp : p.TakesWords t) (s : String) : ∃ x, p.Cuts t s x := by
  obtain ⟨x, hx, hapart, hscans, hmatches⟩ := exists_strewn_from hp (Stands.start s.toList) (Nat.zero_le _)
  refine ⟨x, by rw [hx, String.ofList_toList], hapart, fun f g hfg => ?_, hmatches _ (by omega)⟩
  rw [← replaceAll_of_scans hp.takes (hscans f g hfg), String.ofList_toList]

theorem exists_of_replaceAllM_ok {s t : String} (h : p.replaceAllM f s = .ok t) : ∀ m ∈ p.all s, ∃ u, f m = .ok u := by
  obtain ⟨us, hus, -⟩ := of_bind h
  exact exists_of_mapM_ok hus

/-- If replacing has a result, then every word has one, and these fill the places. -/
theorem Cuts.replaceAllM {s u : String} {x : Strewn} (hx : p.Cuts t s x)
    {g : Word → Except ε String} (hfg : ∀ m w, Match.Reads m w → f m = g w) (h : p.replaceAllM f s = .ok u) :
    ∃ new : Word → String, (∀ w ∈ x.words, g w = .ok (new w)) ∧ u = ofList (x.fill fun w => (new w).toList) := by
  have hok : ∀ m ∈ p.all s, f m = .ok ((f m).toOption.getD "") := by
    intro m hm
    obtain ⟨v, hv⟩ := exists_of_replaceAllM_ok h m hm
    rw [hv]
    rfl
  refine ⟨fun w => (g w).toOption.getD "", fun w hw => ?_, ?_⟩
  · obtain ⟨m, hm, hreads⟩ := exists_of_mem_right hx.reads hw
    show g w = .ok ((g w).toOption.getD "")
    rw [← hfg m w hreads]
    exact hok m hm
  · rw [replaceAllM_eq hok] at h
    cases h
    exact hx.replaceAll _ _ fun m w hreads => by rw [hfg m w hreads]

end Pattern

end Sheetwork.Text
