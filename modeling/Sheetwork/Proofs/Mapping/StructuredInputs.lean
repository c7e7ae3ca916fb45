import Sheetwork.Proofs.Mapping.StructuredPages
/-
  Mapping: where the inputs of a report are among its structured inputs. Main statement: in the saved workbook every
  scalar is in the list and every value of a vector is on the page of its sheet, as a value or as a label. Of the rows
  of years the last year of a column is left, above a column that has values; earlier years of the column, labels of
  rows of years and years of sheets without other vectors are not.
-/

open List

namespace Sheetwork.Mapping

/-! The workbook -/

namespace Structured

open Sheet (Writes Has)

variable {w w' : Workbook} {t : Sheet}

theorem mem_append (w : Workbook) (s : Sheet) : { s with name := w.freeName s.name } ∈ (w.append s).sheets :=
  mem_append_right _ (mem_singleton_self _)

theorem mem_append_of_mem (s : Sheet) (h : t ∈ w.sheets) : t ∈ (w.append s).sheets := mem_append_left _ h

theorem mem_insertAt {α : Type} (i : Int) (a : α) (xs : List α) {x : α} : x ∈ insertAt i a xs ↔ x = a ∨ x ∈ xs := by
  unfold insertAt
  rw [List.mem_append, List.mem_cons, or_left_comm, ← List.mem_append, List.take_append_drop]

theorem mem_of_moveSheet {name : String} {offset : Int} (h : moveSheet w name offset = .ok w') (ht : t ∈ w.sheets) :
    t ∈ w'.sheets := by
  obtain ⟨i, s, hi, hs, h⟩ := of_bind₂ h
  cases h
  have hi := ifNone_eq_ok_iff.1 hi
  have hs : w.sheets[i]? = some s := by
    have hs : w.sheets.find? (·.name = name) = some s := ifNone_eq_ok_iff.1 hs
    rwa [find?_eq_bind_findIdx?_getElem?, hi, Option.bind_some] at hs
  rw [mem_insertAt]
  obtain ⟨k, hk⟩ := getElem?_of_mem ht
  by_cases hki : k = i
  · rw [hki, hs] at hk
    exact .inl (Option.some.inj hk).symm
  · exact .inr (mem_eraseIdx_iff_getElem?.2 ⟨k, hki, hk⟩)

theorem mem_dropFirst (h : t ∈ w.sheets) (hname : t.name ≠ "Sheet") : t ∈ (dropFirst w).sheets := by
  unfold dropFirst
  split
  · exact mem_filter.2 ⟨h, decide_eq_true hname⟩
  · exact h

variable {source : Option Workbook} {name : String} {vectors : List (List Input)}

/-- The values of the vectors of a sheet are on a page of the workbook, but for rows of years: each with the label of
its vector, if there is one, and with the last year of its column, if there is one. -/
def Shown (w : Workbook) (name : String) (vectors : List (List Input)) : Prop :=
  ∀ v ∈ vectors, isHeaderRow v = false → ∀ d ∈ (splitLabel v).2, ∃ t ∈ w.sheets, t.name ≠ "Sheet" ∧
    ∃ label heading, (∀ l, (splitLabel v).1 = some l → label = l) ∧
      (∀ i, ((yearsOf vectors).reverse.find? fun i => i.colNumber = d.colNumber) = some i → heading = i.value.toText) ∧
      Tabled t.Has name label heading d

theorem Shown.mono (h : Shown w name vectors) (hw : ∀ t ∈ w.sheets, t ∈ w'.sheets) : Shown w' name vectors := by
  intro v hv hrow d hd
  obtain ⟨t, ht, h⟩ := h v hv hrow d hd
  exact ⟨t, hw t ht, h⟩

theorem shown_of_addVectors {st st' : Workbook × List IndexLine} {scalars : List Input}
    (hcols : ∀ v ∈ vectors, v.Pairwise fun a b => a.colNumber < b.colNumber) (hfirst : "Sheet" ∈ st.1.sheetNames)
    (h : addVectors source st (name, vectors, scalars) = .ok st') :
    (∀ t ∈ st.1.sheets, t ∈ st'.1.sheets) ∧ Shown st'.1 name vectors := by
  unfold addVectors at h
  dsimp only at h
  split at h
  · next hempty =>
    cases h
    refine ⟨fun t ht => ht, fun v hv => ?_⟩
    rw [isEmpty_iff.1 hempty] at hv
    cases hv
  · obtain ⟨⟨forced, rest⟩, htake, h⟩ := of_bind h
    obtain ⟨hforced, hrest⟩ := takeHeaders_eq htake
    have hmem : ∀ v ∈ vectors, isHeaderRow v = false → v ∈ rest := fun v hv hrow => by
      rw [hrest]
      exact mem_filter.2 ⟨hv, by rw [hrow]; rfl⟩
    dsimp only at h
    split at h
    · next hempty =>
      cases h
      refine ⟨fun t ht => ht, fun v hv hrow => ?_⟩
      have := hmem v hv hrow
      rw [isEmpty_iff.1 hempty] at this
      cases this
    · obtain ⟨o, ho, h⟩ := of_bind h
      have hcols : ∀ v ∈ rest, v.Pairwise fun a b => a.colNumber < b.colNumber := fun v hv => by
        rw [hrest] at hv
        exact hcols v (mem_filter.1 hv).1
      refine ⟨?_, fun v hv hrow d hd => ?_⟩
      · split at h
        · cases h
          exact fun t ht => mem_append_of_mem _ ht
        · cases h
          exact fun t ht => ht
      · obtain ⟨s, more, rfl, label, heading, hlabel, hheading, htabled⟩ :=
          tabled_vectorSheet ho hcols (hmem v hv hrow) hd
        cases h
        refine ⟨_, mem_append st.1 s, fun h => Workbook.lower_freeName_ne hfirst s.name (congrArg Text.lower h), label,
          heading, hlabel, fun i hi => hheading _ ?_, htabled⟩
        rw [hforced, find?_putAll, hi]
        rfl

theorem shown_of_foldlM {xs : List (String × List (List Input) × List Input)}
    (hcols : ∀ x ∈ xs, ∀ v ∈ x.2.1, v.Pairwise fun a b => a.colNumber < b.colNumber)
    {st st' : Workbook × List IndexLine} (hfirst : "Sheet" ∈ st.1.sheetNames)
    (h : xs.foldlM (addVectors source) st = .ok st') :
    (∀ t ∈ st.1.sheets, t ∈ st'.1.sheets) ∧ ∀ x ∈ xs, Shown st'.1 x.1 x.2.1 := by
  induction h using foldlM_induction with
  | nil => exact ⟨fun t ht => ht, nofun⟩
  | @cons x xs st st₁ hst₁ _ ih =>
    obtain ⟨hkeep, hshown⟩ := shown_of_addVectors (hcols x mem_cons_self) hfirst hst₁
    have hfirst₁ : "Sheet" ∈ st₁.1.sheetNames := by
      obtain ⟨t, ht, hname⟩ := mem_map.1 hfirst
      exact mem_map.2 ⟨t, hkeep t ht, hname⟩
    obtain ⟨hrest, hall⟩ := ih (fun y hy => hcols y (mem_cons_of_mem _ hy)) hfirst₁
    refine ⟨fun t ht => hrest t (hkeep t ht), fun y hy => ?_⟩
    rcases mem_cons.1 hy with rfl | hy
    · exact hshown.mono hrest
    · exact hall y hy

end Structured

open Structured in
theorem structured_spec {report w : Workbook} {source : Option Workbook} (h : structured report source = .ok w)
    {s : Sheet} (hs : s ∈ rowSheets report) {is : List Input} (his : inputsOf s = .ok (some is)) :
    (∃ t ∈ w.sheets, t.name = "Config" ∧ ∀ i ∈ (settle is).2, i.value ≠ .null → ∃ row, Listed t.Has s.name i row) ∧
      Shown w s.name (settle is).1 := by
  obtain ⟨found, ⟨config, lines⟩, hfound, hconfig, h⟩ := of_bind₂ h
  obtain ⟨⟨w₁, lines₁⟩, hw₁, h⟩ := of_bind h
  obtain ⟨index, w₂, -, hw₂, h⟩ := of_bind₂ h
  have hmem : (s.name, settle is) ∈ found := (mem_filterMapM_iff hfound).2 ⟨s, hs, by rw [his]; rfl⟩
  have hcols : ∀ x ∈ found, ∀ v ∈ x.2.1, v.Pairwise fun a b => a.colNumber < b.colNumber := by
    intro x hx v hv
    obtain ⟨s', -, hs'⟩ := (mem_filterMapM_iff hfound).1 hx
    obtain ⟨o, -, hs'⟩ := of_bind hs'
    cases o with
    | none => cases hs'
    | some is' =>
      cases hs'
      exact (of_mem_settle hv).2
  have hfirst : "Sheet" ∈ (fresh.append config).sheetNames := mem_cons_self
  obtain ⟨hkeep, hshown⟩ := shown_of_foldlM hcols hfirst hw₁
  -- the sheets that were added come through the moves
  have hlast : ∀ t ∈ w₁.sheets, t.name ≠ "Sheet" → t ∈ w.sheets := by
    intro t ht hname
    have ht := mem_of_moveSheet hw₂ (mem_dropFirst (mem_append_of_mem index ht) hname)
    split at h
    · exact mem_of_moveSheet h ht
    · cases h
      exact ht
  obtain ⟨hname, hlisted⟩ := listed_scalarSheet hconfig
  refine ⟨?_, fun v hv hrow d hd => ?_⟩
  · have hfree : fresh.freeName config.name = "Config" := by
      rw [hname]
      rfl
    refine ⟨_, hlast _ (hkeep _ (mem_append fresh config)) ?_, hfree, fun i hi hne => ?_⟩
    · exact fun heq => absurd (hfree.symm.trans heq) (by decide)
    · exact hlisted _ (mem_map.2 ⟨_, hmem, rfl⟩) i hi hne
  · obtain ⟨t, ht, hname, hrest⟩ := hshown _ hmem v hv hrow d hd
    exact ⟨t, hlast t ht hname, hname, hrest⟩

namespace Structured

/-! The saved workbook -/

def Keeps (t : Sheet) (q : Position) (v : Value) : Prop := t.value q = Cell.filed (Cell.taken v)

theorem keeps_stored {t : Sheet} {q : Position} {v : Value} (h : t.Has q v) : Keeps t.stored q v := by
  unfold Keeps
  rw [Sheet.value_stored_of_shown h.2, h.1]

theorem Tabled.imp {P P' : Position → Value → Prop} {name label heading : String} {d : Input}
    (h : Tabled P name label heading d) (hP : ∀ q v, P q v → P' q v) : Tabled P' name label heading d := by
  obtain ⟨row, col, hrow, hcol, hvalue, hrest⟩ := h
  refine ⟨row, col, hrow, hcol, fun hne => hP _ _ (hvalue hne), hrest.imp ?_ ?_⟩ <;>
    exact fun ⟨h₁, h₂, h₃⟩ => ⟨hP _ _ h₁, hP _ _ h₂, hP _ _ h₃⟩

variable (w : Workbook) (name : String) (i : Input)

def AsScalar : Prop :=
  ∃ t ∈ w.sheets, t.name = "Config" ∧ ∃ row, Listed (Keeps t) name i row

def AsValue : Prop :=
  ∃ t ∈ w.sheets, ∃ label heading, Tabled (Keeps t) name label heading i

/-- An input is the label of a value on a page of its sheet, without the blanks around it. -/
def AsLabel : Prop :=
  ∃ text, i.value = .text text ∧ ∃ t ∈ w.sheets, ∃ heading d, Tabled (Keeps t) name (Text.strip text) heading d

/-- An input is the heading of a value of its column on a page of its sheet. -/
def AsHeading : Prop :=
  ∃ t ∈ w.sheets, ∃ label d, d.colNumber = i.colNumber ∧ Tabled (Keeps t) name label i.value.toText d

/-- Where the inputs of a report are in the saved workbook. Every input is a scalar or in a vector. A scalar is in the
list, and in a vector that is no row of years an input is a value or the label on a page. Of a row of years only the
last year of a column is left, as the heading of the column, if the column has a value in a vector that is no row of
years. -/
theorem structured_keeps {report w : Workbook} {source : Option Workbook} (h : structured report source = .ok w)
    {s : Sheet} (hs : s ∈ rowSheets report) {is : List Input} (his : inputsOf s = .ok (some is)) {i : Input}
    (hi : i ∈ is) (hne : i.value ≠ .null) :
    (i ∈ (settle is).2 ∨ ∃ v ∈ (settle is).1, i ∈ v) ∧ (i ∈ (settle is).2 → AsScalar w.stored s.name i) ∧
      ∀ v ∈ (settle is).1, i ∈ v → (isHeaderRow v = false → AsValue w.stored s.name i ∨ AsLabel w.stored s.name i) ∧
        (isHeaderRow v = true → ((yearsOf (settle is).1).reverse.find? fun y => y.colNumber = i.colNumber) = some i →
          (∃ v' ∈ (settle is).1, isHeaderRow v' = false ∧ ∃ d ∈ (splitLabel v').2, d.colNumber = i.colNumber) →
            AsHeading w.stored s.name i) := by
  obtain ⟨⟨config, hconfig, hname, hlisted⟩, hshown⟩ := structured_spec h hs his
  have hstored : ∀ t ∈ w.sheets, t.stored ∈ w.stored.sheets := fun t ht => mem_map_of_mem ht
  refine ⟨mem_settle hi, fun hscalar => ?_, fun v hv hiv => ⟨fun hrow => ?_, fun _ hlast hused => ?_⟩⟩
  · obtain ⟨row, hrow⟩ := hlisted i hscalar hne
    exact ⟨_, hstored _ hconfig, (Sheet.name_stored config).trans hname, row, hrow.imp fun q v _ hq => keeps_stored hq⟩
  · rcases mem_splitLabel hiv with hdata | ⟨text, htext, hlabel⟩
    · obtain ⟨t, ht, -, label, heading, -, -, htabled⟩ := hshown v hv hrow i hdata
      exact .inl ⟨_, hstored t ht, label, heading, htabled.imp fun q v => keeps_stored⟩
    · have hpos : 0 < (splitLabel v).2.length := Nat.lt_of_lt_of_le Nat.zero_lt_two (of_mem_settle hv).1
      obtain ⟨d, hd⟩ := exists_mem_of_length_pos hpos
      obtain ⟨t, ht, -, label, heading, hown, -, htabled⟩ := hshown v hv hrow d hd
      rw [hown _ hlabel] at htabled
      exact .inr ⟨text, htext, _, hstored t ht, heading, d, htabled.imp fun q v => keeps_stored⟩
  · obtain ⟨v', hv', hrow', d, hd, hcol⟩ := hused
    obtain ⟨t, ht, -, label, heading, -, hheading, htabled⟩ := hshown v' hv' hrow' d hd
    rw [hcol] at hheading
    rw [hheading i hlast] at htabled
    exact ⟨_, hstored t ht, label, d, hcol, htabled.imp fun q v => keeps_stored⟩

/-! Years above values, and a single value -/

/-- A row of years above a row of values, and a single value. -/
def yearInputs : List Input :=
  [⟨"A", 1, 1, .text "Item", .null, "A1"⟩, ⟨"B", 1, 2, .int 2020, .null, "B1"⟩, ⟨"C", 1, 3, .int 2021, .null, "C1"⟩,
    ⟨"A", 2, 1, .text "Sales", .null, "A2"⟩, ⟨"B", 2, 2, .int 7, .null, "B2"⟩, ⟨"C", 2, 3, .int 8, .null, "C2"⟩,
    ⟨"E", 5, 5, .int 3, .null, "E5"⟩]

theorem inputRows_years :
    inputRows yearInputs = [yearInputs.take 3, (yearInputs.drop 3).take 3, yearInputs.drop 6] := by
  cbv

theorem settle_years : settle yearInputs = ([yearInputs.take 3, (yearInputs.drop 3).take 3], yearInputs.drop 6) := by
  unfold settle splitInputs inputRuns
  rw [inputRows_years]
  rfl

theorem dataColumns_years : dataColumns (seriesOf [(yearInputs.drop 3).take 3]) = [2, 3] := by
  exact mergeSort_of_pairwise (by decide : [(2 : Int), 3].Pairwise fun a b => decide (a ≤ b) = true)

theorem takeHeaders_years : takeHeaders [yearInputs.take 3, (yearInputs.drop 3).take 3] =
    .ok ([(2, "2020"), (3, "2021")], [(yearInputs.drop 3).take 3]) := rfl

theorem vectorSheet_years : vectorSheet "S" none [(yearInputs.drop 3).take 3] [(2, "2020"), (3, "2021")] =
    some <$> periodSheet "S" "S" none (seriesOf [(yearInputs.drop 3).take 3]) [(2, "2020"), (3, "2021")] := by
  unfold vectorSheet
  dsimp only
  rw [dataColumns_years]
  rfl

def yearSheet : Sheet :=
  let rows := Value.texts ["Type", "Cell", "Value"] :: yearInputs.map fun i => [.text "Input", .text i.cell, i.value]
  { name := "S", cells := rows.zipIdx.foldl (fun m (vs, i) => vs.zipIdx.foldl (fun m (v, j) =>
      m.insert ⟨i + 1, j + 1⟩ { value := v }) m) ∅ }

theorem inputsOf_yearSheet : inputsOf yearSheet = .ok (some yearInputs) := rfl

theorem exists_structured_years : ∃ w, structured { sheets := [yearSheet] } none = .ok w := by
  have hfound : ((rowSheets { sheets := [yearSheet] }).filterMapM fun s => do
      pure ((← inputsOf s).map fun is => (s.name, settle is)) : Outcome _) = .ok [("S", settle yearInputs)] := rfl
  have hok : ((structured { sheets := [yearSheet] } none).toOption.any fun _ => true) = true := by
    have hbind : ∀ {α β : Type} (a : α) (f : α → Outcome β), (Except.ok a >>= f) = f a := fun a f => rfl
    unfold structured addVectors
    -- No sorting is left once the columns of the data are known, and the rest is evaluated.
    simp only [hfound, settle_years, hbind, foldlM_cons, foldlM_nil, isEmpty_cons, Bool.false_eq_true,
      if_false, takeHeaders_years, Option.bind_none, vectorSheet_years, periodSheet, dataColumns_years]
    decide +kernel
  exact (exists_ok_of_any hok).imp fun _ h => h.1

/-- The last year is the heading of its column, the single value is in the list, and the row of values is on a page. -/
theorem structured_years : ∃ report w s, structured report none = .ok w ∧ s ∈ rowSheets report ∧
    inputsOf s = .ok (some yearInputs) ∧ AsHeading w.stored "S" ⟨"C", 1, 3, .int 2021, .null, "C1"⟩ ∧
      (AsValue w.stored "S" ⟨"C", 2, 3, .int 8, .null, "C2"⟩ ∨ AsLabel w.stored "S" ⟨"C", 2, 3, .int 8, .null, "C2"⟩) ∧
        AsScalar w.stored "S" ⟨"E", 5, 5, .int 3, .null, "E5"⟩ := by
  have hinputs := inputsOf_yearSheet
  have hname : yearSheet.name = "S" := rfl
  have hs : yearSheet ∈ rowSheets { sheets := [yearSheet] } := mem_cons_self
  obtain ⟨w, hw⟩ := exists_structured_years
  have hyears := (structured_keeps hw hs hinputs (i := yearInputs.get ⟨2, by decide⟩) (get_mem _ _) nofun).2.2
  have hvalues := (structured_keeps hw hs hinputs (i := yearInputs.get ⟨5, by decide⟩) (get_mem _ _) nofun).2.2
  have hsingle := (structured_keeps hw hs hinputs (i := yearInputs.get ⟨6, by decide⟩) (get_mem _ _) nofun).2.1
  rw [settle_years, hname] at hyears hvalues hsingle
  refine ⟨_, w, yearSheet, hw, hs, hinputs, ?_, ?_, hsingle mem_cons_self⟩
  · refine (hyears (yearInputs.take 3) mem_cons_self ?_).2 (by decide +kernel) rfl ?_
    · exact mem_cons_of_mem _ (mem_cons_of_mem _ mem_cons_self)
    · exact ⟨_, mem_cons_of_mem _ mem_cons_self, by decide +kernel, yearInputs.get ⟨5, by decide⟩,
        mem_cons_of_mem _ mem_cons_self, rfl⟩
  · refine (hvalues _ (mem_cons_of_mem _ mem_cons_self) ?_).1 (by decide +kernel)
    exact mem_cons_of_mem _ (mem_cons_of_mem _ mem_cons_self)

end Structured

end Sheetwork.Mapping
