import Sheetwork.Proofs.Plan.Evaluation
import Sheetwork.Proofs.Workbook.Address
/-
  Plans: the cells that a formula refers to, as a report lists them and as they are read again. Names of cells are
  joined and cut apart without a loss (`mem_needsOf`), but an apostrophe in the name of a sheet is written twice in a
  formula and stays so in the list. So the cells that are read are the ones that the formula refers to exactly if no
  sheet has an apostrophe in its name (`needsOf_references_iff`).
-/

open List
open String (ofList toList_ofList toList_eq_nil_iff)

namespace Sheetwork.Plan

open Text

/-! Names of sheets -/

/-- An apostrophe in a quoted name is written twice. -/
def doubled (name : List Char) : List Char := name.flatMap fun c => if c = '\'' then ['\'', '\''] else [c]

theorem doubled_cons (c : Char) (name : List Char) : doubled (c :: name) = doubled [c] ++ doubled name := by
  simp [doubled]

theorem mem_doubled {c : Char} {name : List Char} : c ∈ doubled name ↔ c ∈ name := by
  refine mem_flatMap.trans ⟨?_, fun hc => ⟨c, hc, by split <;> simp_all⟩⟩
  rintro ⟨d, hd, hc⟩
  split at hc
  · simp_all
  · exact mem_singleton.1 hc ▸ hd

theorem head?_doubled (name : List Char) : (doubled name).head? = name.head? := by
  cases name with
  | nil => rfl
  | cons c name => by_cases hc : c = '\'' <;> simp [doubled, hc]

theorem getLast?_doubled (name : List Char) : (doubled name).getLast? = name.getLast? := by
  rcases eq_nil_or_concat name with rfl | ⟨u, c, rfl⟩
  · rfl
  · by_cases hc : c = '\'' <;> simp [doubled, hc]

theorem count_doubled (name : List Char) : (doubled name).count '\'' = 2 * name.count '\'' := by
  induction name with
  | nil => rfl
  | cons c name ih =>
    rw [doubled_cons, count_append, ih]
    by_cases hc : c = '\''
    · simp [doubled, hc]
      omega
    · simp [doubled, hc]

theorem doubled_eq_self {name : List Char} (h : '\'' ∉ name) : doubled name = name := by
  have hsingle : ∀ c ∈ name, (if c = '\'' then ['\'', '\''] else [c]) = [c] := fun c hc => if_neg (ne_of_mem_of_not_mem hc h)
  rw [doubled, flatMap_congr hsingle, flatMap_singleton']

/-- The sheet of a reference as it is written. -/
inductive SheetText where
  | own
  | plain (name : List Char)
  | quoted (name : List Char)
  deriving DecidableEq

namespace SheetText

def chars : SheetText → List Char
  | own => []
  | plain name => name ++ ['!']
  | quoted name => '\'' :: (doubled name ++ ['\'', '!'])

def name (own : String) : SheetText → String
  | .own => own
  | plain name | quoted name => ofList name

/-- The sheet that is read: apostrophes stay doubled. -/
def readName (own : String) : SheetText → String
  | quoted name => ofList (doubled name)
  | y => y.name own

def apostrophes : SheetText → Nat
  | quoted name => name.count '\''
  | _ => 0

/-- The text in front of a reference; a name without quotes has no apostrophe. -/
def Heads (y : SheetText) (r : Reference) : Prop := r.sheetText = ofList y.chars ∧ ∀ name, y = plain name → '\'' ∉ name

end SheetText

/-- A name that can be listed and read: it has no separators, and nothing at its ends that is left out. -/
@[mk_iff]
structure Legible (name : String) : Prop where
  ne_empty : name ≠ ""
  mark : '!' ∉ name.toList
  semicolon : ';' ∉ name.toList
  blank : name.toList.head?.any isBlank = false
  first : name.toList.head? ≠ some '\''
  last : name.toList.getLast? ≠ some '\''

instance : DecidablePred Legible := fun name => decidable_of_iff' _ (legible_iff name)

variable {own : String} {y : SheetText}

theorem Legible.readName (h : Legible (y.name own)) : Legible (y.readName own) := by
  cases y with
  | own => exact h
  | plain name => exact h
  | quoted name =>
    have hchars : (SheetText.readName own (.quoted name)).toList = doubled name := toList_ofList
    obtain ⟨hne, hmark, hsemi, hblank, hfirst, hlast⟩ := h
    rw [ne_eq, ← toList_eq_nil_iff, ← head?_eq_none_iff] at hne
    rw [SheetText.name, toList_ofList] at hne hmark hsemi hblank hfirst hlast
    constructor
    · rwa [ne_eq, ← toList_eq_nil_iff, hchars, ← head?_eq_none_iff, head?_doubled]
    · rwa [hchars, mem_doubled]
    · rwa [hchars, mem_doubled]
    · rwa [hchars, head?_doubled]
    · rwa [hchars, head?_doubled]
    · rwa [hchars, getLast?_doubled]

variable {r : Reference}

theorem sheet?_of_chars {u q : List Char} (hq : ∀ c ∈ q, c = '\'') (hu : Legible (ofList u))
    (h : r.sheetText = ofList (q ++ (u ++ q) ++ ['!'])) : r.sheet? = some (ofList u) := by
  obtain ⟨-, hmark, -, -, hfirst, hlast⟩ := hu
  rw [toList_ofList] at hmark hfirst hlast
  have htext : r.sheetText.toList = q ++ (u ++ q) ++ ['!'] := by rw [h, toList_ofList]
  have hempty : r.sheetText.isEmpty = false := by
    rw [Bool.eq_false_iff, ne_eq, String.isEmpty_iff, ← toList_eq_nil_iff, htext]
    exact append_ne_nil_of_right_ne_nil _ (cons_ne_nil _ _)
  have hmarks : ∀ c ∈ ['!'], "!".toList.contains c = true := fun c hc => by rw [mem_singleton.1 hc]; rfl
  have hquotes : ∀ c ∈ q, "'".toList.contains c = true := fun c hc => by rw [hq c hc]; rfl
  have hright : ∀ c, (q ++ (u ++ q)).getLast? = some c → "!".toList.contains c = false := by
    intro c hc
    have hne : c ≠ '!' := by
      rintro rfl
      rcases mem_append.1 (mem_of_getLast? hc) with hc | hc
      · exact absurd (hq _ hc) (by decide)
      · exact (mem_append.1 hc).elim hmark fun hc => absurd (hq _ hc) (by decide)
    simpa using hne
  have hends : ∀ c, c ≠ '\'' → "'".toList.contains c = false := fun c hc => by simpa using hc
  rw [Reference.sheet?, hempty, if_neg Bool.false_ne_true, stripCharsRight, htext, dropRightWhileL_append hmarks hright,
    stripChars, toList_ofList (l := q ++ (u ++ q)), stripWhileL_append hquotes hquotes
      (fun c hc => hends c fun e => hfirst (e ▸ hc)) fun c hc => hends c fun e => hlast (e ▸ hc)]

theorem sheet_of_heads (hy : y.Heads r) (h : Legible (y.name own)) : (match r.sheet? with
      | some s => if s.isEmpty then own else s
      | none => own) = y.readName own := by
  have hread := h.readName
  obtain ⟨htext, -⟩ := hy
  cases y with
  | own =>
    rw [Reference.sheet?, htext]
    rfl
  | plain name =>
    rw [sheet?_of_chars (q := []) nofun h (by rw [htext, nil_append, append_nil]; rfl)]
    exact if_neg (mt String.isEmpty_iff.1 h.ne_empty)
  | quoted name =>
    rw [sheet?_of_chars (q := ['\'']) (fun c => mem_singleton.1) hread (by rw [htext]; simp [SheetText.chars])]
    exact if_neg (mt String.isEmpty_iff.1 hread.ne_empty)

/-! Listing and reading again -/

theorem mem_needsOf {qs : List Place} (h : ∀ q ∈ qs, Legible q.sheet) {k : CellName} :
    k ∈ Job.needsOf own (join "; " (Ordered.ofList (qs.map Place.name))) ↔ ∃ q ∈ qs, k = ⟨q.sheet, q.address⟩ := by
  have hname : ∀ {s}, s ∈ Ordered.ofList (qs.map Place.name) ↔ ∃ q ∈ qs, q.name = s := Ordered.mem_ofList.trans mem_map
  generalize Ordered.ofList (qs.map Place.name) = names at hname ⊢
  have hchars : ∀ q : Place, q.name.toList = q.sheet.toList ++ '!' :: q.address.toList := by simp [Place.name]
  have hsemi : ∀ s ∈ names, ';' ∉ s.toList := by
    intro s hs
    obtain ⟨q, hq, rfl⟩ := hname.1 hs
    rw [hchars, mem_append, mem_cons, not_or, not_or]
    exact ⟨(h q hq).semicolon, by decide, Position.not_mem_address (by decide) _⟩
  have hstrip : ∀ s ∈ names, strip s = s := by
    intro s hs
    obtain ⟨q, hq, rfl⟩ := hname.1 hs
    have hkept := stripWhileL_append (t := isBlank) (a := []) (s := q.name.toList) (b := []) nofun nofun
      (fun c hc => ?_) fun c hc => ?_
    · rw [append_nil, nil_append] at hkept
      rw [strip, hkept, String.ofList_toList]
    · rw [hchars, head?_append_of_ne_nil _ (mt String.toList_eq_nil_iff.1 (h q hq).ne_empty)] at hc
      simpa [hc] using (h q hq).blank
    · rw [hchars, getLast?_append_cons] at hc
      rcases mem_cons.1 (mem_of_getLast? hc) with rfl | hc
      · decide
      · exact (Position.plain_of_mem_address hc).2
  have hparts : ((split "; " (join "; " names)).map strip).filter (· ≠ "") = names := by
    by_cases hnil : names = []
    · rw [hnil]
      decide
    · rw [split_join rfl hnil hsemi, map_congr_left hstrip, map_id', filter_eq_self]
      intro s hs
      obtain ⟨q, hq, rfl⟩ := hname.1 hs
      rw [decide_eq_true_iff, ne_eq, ← String.toList_inj, hchars]
      simp
  rw [Job.needsOf, hparts, mem_map]
  have hread : ∀ q ∈ qs, CellName.ofText own q.name = ⟨q.sheet, q.address⟩ := fun q hq =>
    (ofText_eq_iff own ⟨q.sheet, q.address⟩).2 (h q hq).mark
  constructor
  · rintro ⟨s, hs, rfl⟩
    obtain ⟨q, hq, rfl⟩ := hname.1 hs
    exact ⟨q, hq, hread q hq⟩
  · rintro ⟨q, hq, rfl⟩
    exact ⟨q.name, hname.2 ⟨q, hq, rfl⟩, hread q hq⟩

/-! The cells of a formula -/

def Reference.Has (r : Reference) (p : Position) : Prop :=
  r.first.row ≤ p.row ∧ p.row ≤ (r.last.getD r.first).row ∧ r.first.col ≤ p.col ∧ p.col ≤ (r.last.getD r.first).col

instance (r : Reference) : DecidablePred r.Has := fun _ => inferInstanceAs (Decidable (_ ∧ _ ∧ _ ∧ _))

theorem Reference.mem_cells {p : Position} : p ∈ r.cells ↔ r.Has p := by
  obtain ⟨t, a, l, u⟩ := r
  obtain ⟨row, col⟩ := p
  cases l with
  | none =>
    simp only [cells, Has, mem_singleton, Option.getD_none, Position.mk.injEq]
    omega
  | some l =>
    simp only [cells, Has, mem_flatMap, mem_range, mem_map, Option.getD_some, Position.mk.injEq]
    constructor
    · rintro ⟨i, hi, j, hj, hrow, hcol⟩
      omega
    · rintro ⟨hrow, hrow', hcol, hcol'⟩
      exact ⟨row - a.row, by omega, col - a.col, by omega, by omega, by omega⟩

section Reading

variable {own f : String} {y : Reference → SheetText}

/-- A formula on a sheet refers to a cell, if its references are headed by some names. -/
def Refers (own f : String) (y : Reference → SheetText) (k : CellName) : Prop :=
  ∃ r ∈ references f, ∃ p, r.Has p ∧ k = ⟨(y r).name own, p.address⟩

/-- No sheet that a formula refers to has an apostrophe in its name. -/
def Unapostrophed (f : String) (y : Reference → SheetText) : Prop :=
  ∀ r ∈ references f, ∀ p, r.Has p → (y r).apostrophes = 0

theorem mem_needsOf_references {c : Source} (hf : c.formula = some f) (hy : ∀ r ∈ references f, (y r).Heads r)
    (hnames : ∀ r ∈ references f, Legible ((y r).name c.place.sheet)) {k : CellName} :
    k ∈ Job.needsOf c.place.sheet (join "; " (Ordered.ofList (c.needs.map Place.name))) ↔
      ∃ r ∈ references f, ∃ p, r.Has p ∧ k = ⟨(y r).readName c.place.sheet, p.address⟩ := by
  have hneeds : ∀ {q : Place}, q ∈ c.needs ↔
      ∃ r ∈ references f, r.Has q.position ∧ q.sheet = (y r).readName c.place.sheet := by
    intro q
    rw [Source.needs, hf]
    simp only [Option.map_some, Option.getD_some, referredCells, mem_map, mem_flatMap]
    constructor
    · rintro ⟨-, ⟨r, hr, p, hp, rfl⟩, rfl⟩
      exact ⟨r, hr, Reference.mem_cells.1 hp, sheet_of_heads (hy r hr) (hnames r hr)⟩
    · rintro ⟨r, hr, hp, hsheet⟩
      exact ⟨_, ⟨r, hr, q.position, Reference.mem_cells.2 hp, rfl⟩,
        congrArg (Place.mk · q.row q.col) ((sheet_of_heads (hy r hr) (hnames r hr)).trans hsheet.symm)⟩
  rw [mem_needsOf fun q hq => ?_]
  · constructor
    · rintro ⟨q, hq, rfl⟩
      obtain ⟨r, hr, hp, hsheet⟩ := hneeds.1 hq
      exact ⟨r, hr, q.position, hp, by rw [hsheet]; rfl⟩
    · rintro ⟨r, hr, p, hp, rfl⟩
      exact ⟨⟨(y r).readName c.place.sheet, p.row, p.col⟩, hneeds.2 ⟨r, hr, hp, rfl⟩, rfl⟩
  · obtain ⟨r, hr, -, hsheet⟩ := hneeds.1 hq
    rw [hsheet]
    exact (hnames r hr).readName

namespace SheetText

variable {z : SheetText} {r : Reference}

theorem count_name (hz : z.Heads r) : (z.name own).toList.count '\'' =
    if z = .own then own.toList.count '\'' else z.apostrophes := by
  cases z with
  | own => rfl
  | plain name =>
    rw [if_neg nofun, SheetText.name, toList_ofList, count_eq_zero.2 (hz.2 name rfl)]
    rfl
  | quoted name => rw [if_neg nofun, SheetText.name, toList_ofList]; rfl

theorem count_readName (hz : z.Heads r) : (z.readName own).toList.count '\'' =
    if z = .own then own.toList.count '\'' else 2 * z.apostrophes := by
  cases z with
  | own => rfl
  | plain name => exact count_name hz
  | quoted name => rw [if_neg nofun, readName, toList_ofList, count_doubled]; rfl

theorem readName_eq (h : z.apostrophes = 0) : z.readName own = z.name own := by
  cases z with
  | own => rfl
  | plain name => rfl
  | quoted name => rw [readName, doubled_eq_self (count_eq_zero.1 h)]; rfl

end SheetText

/-- If the cells that are read and those that are meant are the same ones, no sheet has an apostrophe in its name:
among the others the one with the most is read as one that has more, and the one with the fewest is not read. -/
theorem unapostrophed_of_iff (hy : ∀ r ∈ references f, (y r).Heads r)
    (hsame : ∀ k, (∃ r ∈ references f, ∃ p, r.Has p ∧ k = ⟨(y r).readName own, p.address⟩) ↔ Refers own f y k) :
    Unapostrophed f y := by
  intro z hz r hr
  by_contra hne
  let spoilt := {r | r ∈ references f ∧ (∃ p, r.Has p) ∧ 0 < (y r).apostrophes}
  have hfin : spoilt.Finite := (finite_toSet (references f)).subset fun r hr => hr.1
  have hspoilt : spoilt.Nonempty := ⟨z, hz, ⟨r, hr⟩, by omega⟩
  have hnamed : ∀ {r}, 0 < (y r).apostrophes → y r ≠ .own := by
    intro r hr e
    rw [e] at hr
    cases hr
  obtain ⟨most, ⟨hmem, ⟨p, hp⟩, hpos⟩, hmost⟩ := Set.exists_max_image spoilt (fun r => (y r).apostrophes) hfin hspoilt
  obtain ⟨fewest, ⟨hmem', ⟨q, hq⟩, hpos'⟩, hfewest⟩ := Set.exists_min_image spoilt (fun r => (y r).apostrophes) hfin hspoilt
  have hle : (y fewest).apostrophes ≤ (y most).apostrophes := hmost fewest ⟨hmem', ⟨q, hq⟩, hpos'⟩
  have hcount : ∀ {s t u v : String}, CellName.mk s u = ⟨t, v⟩ → s.toList.count '\'' = t.toList.count '\'' :=
    fun h => by rw [(CellName.mk.inj h).1]
  have hown : 2 * (y most).apostrophes = own.toList.count '\'' := by
    obtain ⟨s, hs, p', hp', hk⟩ := (hsame _).1 ⟨most, hmem, p, hp, rfl⟩
    have hcount := hcount hk
    rw [SheetText.count_readName (hy most hmem), SheetText.count_name (hy s hs), if_neg (hnamed hpos)] at hcount
    split at hcount
    · exact hcount
    · have hmore : (y s).apostrophes ≤ (y most).apostrophes := hmost s ⟨hs, ⟨p', hp'⟩, by omega⟩
      omega
  obtain ⟨s, hs, q', hq', hk⟩ := (hsame _).2 ⟨fewest, hmem', q, hq, rfl⟩
  have hcount := hcount hk
  rw [SheetText.count_name (hy fewest hmem'), SheetText.count_readName (hy s hs), if_neg (hnamed hpos')] at hcount
  split at hcount
  · omega
  · have hless : (y fewest).apostrophes ≤ (y s).apostrophes := hfewest s ⟨hs, ⟨q', hq'⟩, by omega⟩
    omega

/-- The cells that are read for a formula from a report are the ones that its references mean exactly if none of
their sheets has an apostrophe in its name. -/
theorem needsOf_references_iff {cs : List Source} {groups : List (List Place)} {e : Entry}
    (he : e ∈ Entry.ofSources cs groups) (hf : e.source.formula = some f) (hy : ∀ r ∈ references f, (y r).Heads r)
    (hnames : ∀ r ∈ references f, Legible ((y r).name e.place.sheet)) :
    (∀ k, k ∈ Job.needsOf e.place.sheet (join "; " e.references) ↔ Refers e.place.sheet f y k) ↔ Unapostrophed f y := by
  have hkeys : ∀ k, k ∈ Job.needsOf e.place.sheet (join "; " e.references) ↔
      ∃ r ∈ references f, ∃ p, r.Has p ∧ k = ⟨(y r).readName e.place.sheet, p.address⟩ := by
    obtain ⟨c, -, rfl⟩ := mem_map.1 he
    exact fun k => mem_needsOf_references hf hy hnames
  simp only [hkeys]
  refine ⟨unapostrophed_of_iff hy, fun hclean k => exists_congr fun r => and_congr_right fun hr =>
    exists_congr fun p => and_congr_right fun hp => ?_⟩
  rw [SheetText.readName_eq (hclean r hr p hp)]

end Reading

/-- A sum over a range of a sheet whose name has an apostrophe, and its references. -/
def quotedSum : Source := ⟨⟨"S", 2, 1⟩, some "=SUM('It''s'!A1:B2)+C4", .null, {}⟩

def quotedSumSheet (r : Reference) : SheetText := if r.sheetText = "" then .own else .quoted "It's".toList

theorem references_quotedSum : references "=SUM('It''s'!A1:B2)+C4" =
    [⟨"'It''s'!", ⟨1, 1, false, false⟩, some ⟨2, 2, false, false⟩, "'It''s'!A1:B2"⟩, ⟨"", ⟨4, 3, false, false⟩, none, "C4"⟩] := by
  decide +kernel

theorem needsOf_quotedSum : ∃ e ∈ Entry.ofSources [quotedSum] [], ¬ ∀ k, k ∈ Job.needsOf "S" (join "; " e.references) ↔
    Refers "S" "=SUM('It''s'!A1:B2)+C4" quotedSumSheet k := by
  obtain ⟨e, he, hsource⟩ : ∃ e ∈ Entry.ofSources [quotedSum] [], e.source = quotedSum := ⟨_, mem_cons_self, rfl⟩
  have hsheet : e.place.sheet = "S" := by rw [Entry.place, hsource]; rfl
  have hkeys := needsOf_references_iff (y := quotedSumSheet) he (by rw [hsource]; rfl)
    (by rw [references_quotedSum]; exact forall_mem_cons.2 ⟨⟨rfl, nofun⟩, forall_mem_singleton.2 ⟨rfl, nofun⟩⟩)
    (by rw [hsheet, references_quotedSum]; decide +kernel)
  rw [hsheet] at hkeys
  refine ⟨e, he, fun hsame => ?_⟩
  have hclean := hkeys.1 hsame _ (references_quotedSum ▸ mem_cons_self) ⟨1, 1⟩ (by decide)
  exact absurd hclean (by decide)

end Sheetwork.Plan
