import Sheetwork.Text.Basic
/-
  Text: replacing names in a text that is made of parts. Replacement sees characters only, so it may hit a name where
  none was meant: inside a longer name, inside a literal, inside what an earlier replacement has put. `Standing` says
  that a search finds a name exactly at its own places and `Resolves` that this holds at every step of a run of
  replacements; then the run puts each new text at the places of its name and touches nothing else
  (`foldl_replace_written`). What lies on the two sides of a character that is not looked for is replaced by itself
  (`replaceL_append`), and joined texts are split again (`split_join`).
-/

open List

namespace Sheetwork.Text

/-- A stretch of text, or a name that stands for something. -/
inductive Part where
  | text (s : List Char)
  | name (n : List Char)
  deriving DecidableEq

namespace Part

def chars : Part → List Char
  | text s => s
  | name n => n

def put (n new : List Char) : Part → Part
  | text s => text s
  | name m => if m = n then text new else name m

/-- The part with what the first pair of its name gives. -/
def putAll (names : List (String × String)) (p : Part) : Part := names.foldl (fun p x => p.put x.1.toList x.2.toList) p

end Part

def written (ps : List Part) : List Char := ps.flatMap Part.chars

/-- The parts before, between and behind the places of a name. -/
def cutAt (n : List Char) : List Part → List (List Part)
  | [] => [[]]
  | p :: r => if p = .name n then [] :: cutAt n r else (cutAt n r).modifyHead (p :: ·)

/-- A search finds the name at its own places and nowhere else. -/
def Standing (n : List Char) (ps : List Part) : Prop := splitL n (written ps) = (cutAt n ps).map written

instance (n : List Char) (ps : List Part) : Decidable (Standing n ps) := inferInstanceAs (Decidable (_ = _))

/-- Every name of a run of replacements stands where it is meant when its turn comes. -/
def Resolves : List (String × String) → List Part → Prop
  | [], _ => True
  | x :: r, ps => Standing x.1.toList ps ∧ Resolves r (ps.map (Part.put x.1.toList x.2.toList))

instance decidableResolves : (names : List (String × String)) → (ps : List Part) → Decidable (Resolves names ps)
  | [], _ => inferInstanceAs (Decidable True)
  | x :: r, ps =>
    have := decidableResolves r (ps.map (Part.put x.1.toList x.2.toList))
    inferInstanceAs (Decidable (_ ∧ _))

theorem cutAt_ne_nil (n : List Char) (ps : List Part) : cutAt n ps ≠ [] := by
  induction ps with
  | nil => simp [cutAt]
  | cons p r ih =>
    rw [cutAt]
    split
    · simp
    · simpa using ih

theorem joinL_append_cons (sep a b : List Char) (l : List (List Char)) :
    joinL sep ((a ++ b) :: l) = a ++ joinL sep (b :: l) := by
  cases l <;> simp [joinL]

variable {ps : List Part} {names : List (String × String)} {n : String}

theorem joinL_cutAt (n new : List Char) : joinL new ((cutAt n ps).map written) = written (ps.map (Part.put n new)) := by
  induction ps with
  | nil => rfl
  | cons p r ih =>
    obtain ⟨x, xs, hx⟩ := exists_cons_of_ne_nil (cutAt_ne_nil n r)
    have hp : p.chars ++ written x = written (p :: x) := rfl
    rw [cutAt]
    split
    · next h =>
      subst h
      rw [hx, map_cons, map_cons, written, flatMap_nil, joinL, ← map_cons, ← hx, ih]
      · simp [written, Part.put, Part.chars]
      · simp
    · next h =>
      have hput : (p.put n new).chars = p.chars := by
        cases p with
        | text s => rfl
        | name m =>
          have hm : m ≠ n := fun hm => h (hm ▸ rfl)
          simp [Part.put, hm]
      rw [hx, modifyHead_cons, map_cons, ← hp, joinL_append_cons, ← map_cons, ← hx, ih]
      simp [written, hput]

theorem replaceL_written {n : List Char} (new : List Char) (hn : n ≠ []) (h : Standing n ps) :
    replaceL n new (written ps) = written (ps.map (Part.put n new)) := by
  have he : n.isEmpty = false := by simpa using hn
  rw [replaceL, he, if_neg Bool.false_ne_true, h, joinL_cutAt]

theorem foldl_replace_written (hne : ∀ x ∈ names, x.1.toList ≠ []) (h : Resolves names ps) :
    names.foldl (fun s x => replace x.1 x.2 s) (String.ofList (written ps)) =
      String.ofList (written (ps.map (Part.putAll names))) := by
  induction names generalizing ps with
  | nil =>
    have : Part.putAll [] = id := rfl
    rw [this, map_id]
    rfl
  | cons x names ih =>
    obtain ⟨hx, hr⟩ := h
    have hstep : replace x.1 x.2 (String.ofList (written ps)) =
        String.ofList (written (ps.map (Part.put x.1.toList x.2.toList))) := by
      rw [replace, String.toList_ofList, replaceL_written _ (hne x (by simp)) hx]
    rw [foldl_cons, hstep, ih (fun y hy => hne y (by simp [hy])) hr, map_map]
    rfl

@[simp]
theorem Part.putAll_text (names : List (String × String)) (s : List Char) : (Part.text s).putAll names = .text s := by
  induction names with
  | nil => rfl
  | cons x names ih => exact ih

theorem Part.putAll_name_of_not_mem (h : ∀ x ∈ names, x.1 ≠ n) :
    (Part.name n.toList).putAll names = .name n.toList := by
  induction names with
  | nil => rfl
  | cons x names ih =>
    have hx : n.toList ≠ x.1.toList := fun he => h x (by simp) (String.toList_injective he).symm
    rw [putAll, foldl_cons, put, if_neg hx]
    exact ih fun y hy => h y (by simp [hy])

theorem Part.putAll_name {new : String} (hmem : (n, new) ∈ names) (huniq : ∀ x ∈ names, x.1 = n → x.2 = new) :
    (Part.name n.toList).putAll names = .text new.toList := by
  induction names with
  | nil => simp at hmem
  | cons x names ih =>
    rw [putAll, foldl_cons, put]
    by_cases hx : x.1 = n
    · rw [if_pos (by rw [hx]), huniq x (by simp) hx]
      exact putAll_text names _
    · have hne : n.toList ≠ x.1.toList := fun he => hx (String.toList_injective he).symm
      have hin : (n, new) ∈ names := by
        rcases mem_cons.1 hmem with h | h
        · exact absurd (congrArg Prod.fst h).symm hx
        · exact h
      rw [if_neg hne]
      exact ih hin fun y hy => huniq y (by simp [hy])

/-! Cutting and replacing -/

section Cutting

variable {p new u v s a b r : List Char} {d x : Char}

theorem eq_of_afterL? (h : afterL? p s = some r) : s = p ++ r := by
  induction p generalizing s with
  | nil =>
    cases h
    rfl
  | cons c p ih =>
    cases s with
    | nil => cases h
    | cons e s =>
      rw [afterL?] at h
      split at h
      · next hc => rw [hc, ih h, cons_append]
      · cases h

theorem eq_of_cutL? (h : cutL? p s = some (a, b)) : s = a ++ (p ++ b) := by
  induction s generalizing a with
  | nil =>
    rw [cutL?] at h
    split at h
    · next hp =>
      cases h
      simpa using hp
    · cases h
  | cons c s ih =>
    rw [cutL?] at h
    split at h
    · next r hr =>
      cases h
      rw [nil_append, ← eq_of_afterL? hr]
    · obtain ⟨⟨a', b'⟩, hab, he⟩ := Option.map_eq_some_iff.1 h
      cases he
      rw [ih hab, cons_append]

theorem length_lt_of_cutL? (hp : p ≠ []) (h : cutL? p s = some (a, b)) : b.length < s.length := by
  have hpos := length_pos_iff.2 hp
  rw [eq_of_cutL? h, length_append, length_append]
  omega

theorem cutL?_eq_none (hx : x ∈ p) (hs : x ∉ s) : cutL? p s = none := by
  rw [Option.eq_none_iff_forall_ne_some]
  rintro ⟨a, b⟩ h
  rw [eq_of_cutL? h] at hs
  simp [hx] at hs

theorem afterL?_append (hd : d ∉ p) : afterL? p (u ++ d :: v) = (afterL? p u).map (· ++ d :: v) := by
  induction p generalizing u with
  | nil => rfl
  | cons c p ih =>
    cases u with
    | nil => exact if_neg (ne_of_not_mem_cons hd).symm
    | cons e u =>
      rw [cons_append, afterL?, afterL?]
      split
      · exact ih (not_mem_of_not_mem_cons hd)
      · rfl

/-- A search does not run over a character that it does not look for. -/
theorem cutL?_append (hp : p ≠ []) (hd : d ∉ p) : cutL? p (u ++ d :: v) =
    ((cutL? p u).map fun (a, b) => (a, b ++ d :: v)).or ((cutL? p v).map fun (a, b) => (u ++ d :: a, b)) := by
  have hnil : afterL? p [] = none := by
    obtain ⟨c, p, rfl⟩ := exists_cons_of_ne_nil hp
    rfl
  induction u with
  | nil =>
    have hd' : afterL? p (d :: v) = none := by
      rw [← nil_append (d :: v), afterL?_append hd, hnil]
      rfl
    have hcut : cutL? p [] = none := by rw [cutL?, if_neg (by simpa using hp)]
    rw [hcut, nil_append, cutL?, hd']
    rfl
  | cons c u ih =>
    rw [cons_append, cutL?, ← cons_append, afterL?_append hd, cutL?]
    cases afterL? p (c :: u) with
    | some r => rfl
    | none =>
      rw [ih]
      cases cutL? p u with
      | some x => rfl
      | none => cases cutL? p v <;> rfl

theorem splitFuel_eq (hp : p ≠ []) {fuel fuel' : Nat} (h : s.length ≤ fuel) (h' : s.length ≤ fuel') :
    splitFuel p fuel s = splitFuel p fuel' s := by
  have hnil : cutL? p [] = none := by rw [cutL?, if_neg (by simpa using hp)]
  induction fuel generalizing fuel' s with
  | zero =>
    obtain rfl := length_eq_zero_iff.1 (Nat.le_zero.1 h)
    cases fuel' with
    | zero => rfl
    | succ fuel' => rw [splitFuel, splitFuel, hnil]
  | succ fuel ih =>
    cases fuel' with
    | zero =>
      obtain rfl := length_eq_zero_iff.1 (Nat.le_zero.1 h')
      rw [splitFuel, splitFuel, hnil]
    | succ fuel' =>
      rw [splitFuel, splitFuel]
      split
      · rfl
      · next a b hab =>
        have := length_lt_of_cutL? hp hab
        have hb : splitFuel p fuel b = splitFuel p fuel' b := ih (by omega) (by omega)
        rw [hb]

theorem replaceL_of_none (hp : p ≠ []) (h : cutL? p s = none) : replaceL p new s = s := by
  have he : p.isEmpty = false := by simpa using hp
  rw [replaceL, splitL, he, if_neg Bool.false_ne_true, if_neg Bool.false_ne_true]
  cases s with
  | nil => rfl
  | cons c s =>
    rw [length_cons, splitFuel, h]
    rfl

theorem replaceL_of_some (hp : p ≠ []) (h : cutL? p s = some (a, b)) :
    replaceL p new s = a ++ (new ++ replaceL p new b) := by
  have he : p.isEmpty = false := by simpa using hp
  have hlen := length_lt_of_cutL? hp h
  obtain ⟨n, hn⟩ : ∃ n, s.length = n + 1 := ⟨s.length - 1, by omega⟩
  have hne : ∀ fuel, splitFuel p fuel b ≠ [] := by
    intro fuel
    cases fuel with
    | zero => simp [splitFuel]
    | succ fuel =>
      rw [splitFuel]
      split <;> simp
  simp only [replaceL, splitL, he, Bool.false_eq_true, if_false, hn, splitFuel, h]
  have hfuel : splitFuel p n b = splitFuel p b.length b := splitFuel_eq hp (by omega) (Nat.le_refl _)
  rw [hfuel]
  obtain ⟨c, cs, hc⟩ := exists_cons_of_ne_nil (hne b.length)
  rw [hc, joinL, append_assoc]
  exact nofun

theorem replaceL_append (hp : p ≠ []) (hd : d ∉ p) (u v : List Char) :
    replaceL p new (u ++ d :: v) = replaceL p new u ++ d :: replaceL p new v := by
  have hcut := cutL?_append (u := u) (v := v) hp hd
  cases hu : cutL? p u with
  | some x =>
    have hshort : x.2.length < u.length := length_lt_of_cutL? hp hu
    rw [hu] at hcut
    rw [replaceL_of_some hp hcut, replaceL_of_some hp hu, replaceL_append hp hd x.2 v]
    simp
  | none =>
    rw [hu] at hcut
    rw [replaceL_of_none hp hu]
    cases hv : cutL? p v with
    | none =>
      rw [hv] at hcut
      rw [replaceL_of_none hp hcut, replaceL_of_none hp hv]
    | some x =>
      rw [hv] at hcut
      rw [replaceL_of_some hp hcut, replaceL_of_some hp hv]
      simp
termination_by u.length

theorem afterL?_self (p v : List Char) : afterL? p (p ++ v) = some v := by
  induction p with
  | nil => rfl
  | cons c p ih => rw [cons_append, afterL?, if_pos rfl, ih]

/-- A text without the first character of what is looked for ends where that begins. -/
theorem cutL?_cons (hd : d ∉ u) (p v : List Char) : cutL? (d :: p) (u ++ (d :: p ++ v)) = some (u, v) := by
  induction u with
  | nil =>
    have hafter := afterL?_self (d :: p) v
    rw [cons_append] at hafter
    rw [nil_append, cons_append, cutL?, hafter]
  | cons c u ih =>
    have hc : d ≠ c := ne_of_not_mem_cons hd
    rw [cons_append, cutL?, afterL?, if_neg hc, ih (not_mem_of_not_mem_cons hd)]
    rfl

theorem cutL?_singleton (hd : d ∉ u) (v : List Char) : cutL? [d] (u ++ d :: v) = some (u, v) := cutL?_cons hd [] v

theorem splitFuel_intercalate {xs : List (List Char)} (hne : xs ≠ []) (hd : ∀ x ∈ xs, d ∉ x) {fuel : Nat}
    (h : ((d :: p).intercalate xs).length ≤ fuel) : splitFuel (d :: p) fuel ((d :: p).intercalate xs) = xs := by
  induction xs generalizing fuel with
  | nil => exact absurd rfl hne
  | cons x xs ih =>
    have hx : d ∉ x := hd x mem_cons_self
    cases xs with
    | nil =>
      have hone : (d :: p).intercalate [x] = x := by simp
      rw [hone]
      cases fuel with
      | zero => rfl
      | succ fuel => rw [splitFuel, cutL?_eq_none mem_cons_self hx]
    | cons y ys =>
      rw [intercalate_cons_cons, append_assoc] at h ⊢
      rw [length_append, length_append, length_cons] at h
      obtain ⟨fuel, rfl⟩ : ∃ n, fuel = n + 1 := ⟨fuel - 1, by omega⟩
      rw [splitFuel, cutL?_cons hx]
      dsimp only
      rw [ih (cons_ne_nil y ys) (fun z hz => hd z (mem_cons_of_mem _ hz)) (by omega)]

end Cutting

theorem split_join {d : Char} {p : List Char} {sep : String} (hsep : sep.toList = d :: p) {xs : List String}
    (hne : xs ≠ []) (hd : ∀ x ∈ xs, d ∉ x.toList) : split sep (join sep xs) = xs := by
  rw [split, splitL, hsep, isEmpty_cons, if_neg Bool.false_ne_true, join,
    String.toList_intercalate, hsep, splitFuel_intercalate (by simpa using hne)
      (by simpa using hd) (Nat.le_refl _), map_map]
  simp [Function.comp_def]

theorem replaceL_singleton (c : Char) (new s : List Char) :
    replaceL [c] new s = s.flatMap fun d => if d = c then new else [d] := by
  have hne : [c] ≠ [] := cons_ne_nil c []
  induction s with
  | nil => rfl
  | cons d s ih =>
    rw [flatMap_cons, ← ih]
    split
    · next hd =>
      have hcut : cutL? [c] (d :: s) = some ([], s) := by simp [cutL?, afterL?, hd]
      rw [replaceL_of_some hne hcut, nil_append]
    · next hd => exact replaceL_append hne (by simpa using hd) [] s

theorem replaceL_singleton_nil (c : Char) (s : List Char) : replaceL [c] [] s = s.filter (· ≠ c) := by
  rw [replaceL_singleton]
  induction s with
  | nil => rfl
  | cons d s ih =>
    rw [flatMap_cons, filter_cons, ih]
    by_cases hd : d = c <;> simp [hd]

/-- Stretches of text with others between them. -/
def weave : List (List Char) → List (List Char) → List Char
  | s :: ss, a :: as => s ++ (a ++ weave ss as)
  | s :: _, [] => s
  | [], _ => []

end Sheetwork.Text
