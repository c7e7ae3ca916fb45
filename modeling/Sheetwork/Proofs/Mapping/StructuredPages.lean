import Sheetwork.Mapping.Structured
import Sheetwork.Proofs.Vector.Partition
import Sheetwork.Proofs.Workbook.Content
/-
  Mapping: the pages of structured inputs. An input of a sheet is a scalar or in a vector, and of the vectors the rows
  of years are taken out. Main statements: the list of scalars has a row for each scalar that is not missing; the page
  of a sheet has every value of its vectors, with the label of the vector and the heading of the column; and the
  headings are the last years of the columns.
-/

open List

namespace Sheetwork.Mapping

open Sheet

/-! Vectors and scalars -/

variable {inputs : List Input} {i : Input}

theorem inputRuns_perm (inputs : List Input) : (inputRuns inputs).flatten ~ inputs := by
  have hruns : (inputRuns inputs).flatten = (inputRows inputs).flatten := by
    rw [inputRuns, flatten_eq_flatMap, flatMap_assoc, flatten_eq_flatMap]
    exact congrArg (flatMap · _) (funext fun row => by rw [flatMap_id, flatten_runs, id])
  rw [hruns, inputRows, ← flatMap_def]
  refine (((mergeSort_perm _ _).flatMap_right _).trans (Perm.flatMap_left _ fun b _ => mergeSort_perm _ _)).trans ?_
  exact flatMap_bucketBy_perm Input.row inputs

theorem mem_inputRuns (h : i ∈ inputs) : ∃ v ∈ inputRuns inputs, i ∈ v :=
  mem_flatten.1 ((inputRuns_perm inputs).symm.subset h)

variable {v : List Input}

theorem pairwise_inputRuns (h : v ∈ inputRuns inputs) : v.Pairwise fun a b => a.colNumber < b.colNumber := by
  obtain ⟨row, -, hv⟩ := mem_flatMap.1 h
  refine isChain_iff_pairwise.1 ((isChain_of_mem_runs hv).imp fun a b hab => ?_)
  have := of_decide_eq_true hab
  omega

theorem of_mem_inputRuns (hd : (inputs.map fun i => (i.row, i.colNumber)).Nodup) (hv : v ∈ inputRuns inputs) {a : Input}
    (ha : a ∈ v) : (∀ b ∈ v, b.row = a.row) ∧ ∀ b ∈ inputs, b.row = a.row →
      b.colNumber + 1 = a.colNumber ∨ a.colNumber + 1 = b.colNumber → b ∈ v := by
  obtain ⟨row, hrow, hv⟩ := mem_flatMap.1 hv
  obtain ⟨b, hb, rfl⟩ := mem_map.1 hrow
  have mem : ∀ {x}, x ∈ b.2 ↔ x ∈ inputs ∧ x.row = b.1 := mem_bucketBy_iff (mem_mergeSort.1 hb)
  have hmem : ∀ {x}, x ∈ v → x.row = b.1 := fun hx => (mem.1 (mem_mergeSort.1 (exists_mem_runs_iff.1 ⟨v, hv, hx⟩))).2
  refine ⟨fun x hx => (hmem hx).trans (hmem ha).symm, fun x hx hrow hnext => ?_⟩
  refine mem_of_mem_runs (fun a b => rfl) (fun a b => by simp [eq_comm]) ?_ hv ha (mem.2 ⟨hx, hrow.trans (hmem ha)⟩) hnext
  -- inputs of one row are told apart by their columns
  refine pairwise_map.2 ((pairwise_map.1 (nodup_map_of_mem_bucketBy hd (mem_mergeSort.1 hb))).imp_of_mem ?_)
  exact fun {x y} hx hy apart hcol => apart (Prod.ext ((mem.1 hx).2.trans (mem.1 hy).2.symm) hcol)

/-- Inputs at different places are divided into vectors and scalars, each once. A vector is two or more inputs in
consecutive columns of one row, with all that stand right before or after one of them; a scalar has no input right
before or after it. -/
theorem splitInputs_partition (inputs : List Input) (hd : (inputs.map fun i => (i.row, i.colNumber)).Nodup) :
    (splitInputs inputs).1.flatten ++ (splitInputs inputs).2 ~ inputs ∧
    (∀ v ∈ (splitInputs inputs).1, 2 ≤ v.length ∧ v.IsChain (fun a b => b.colNumber = a.colNumber + 1) ∧
      ∀ a ∈ v, (∀ b ∈ v, b.row = a.row) ∧ ∀ b ∈ inputs, b.row = a.row →
        b.colNumber + 1 = a.colNumber ∨ a.colNumber + 1 = b.colNumber → b ∈ v) ∧
    ∀ a ∈ (splitInputs inputs).2, ∀ b ∈ inputs, b.row = a.row →
      b.colNumber + 1 ≠ a.colNumber ∧ a.colNumber + 1 ≠ b.colNumber := by
  unfold splitInputs
  refine ⟨?_, fun v hv => ?_, fun a ha b hb hrow => ?_⟩
  · have hshort : ∀ r : List Input, decide (r.length < 2) = !decide (2 ≤ r.length) := by
      intro r
      rw [← decide_not, decide_eq_decide]
      omega
    rw [← flatten_append]
    simp only [hshort]
    exact (filter_append_perm _ _).flatten.trans (inputRuns_perm inputs)
  · obtain ⟨hv, hlong⟩ := mem_filter.1 hv
    obtain ⟨row, -, hrun⟩ := mem_flatMap.1 hv
    exact ⟨of_decide_eq_true hlong, (isChain_of_mem_runs hrun).imp fun a b => of_decide_eq_true,
      fun a ha => of_mem_inputRuns hd hv ha⟩
  · obtain ⟨v, hv, ha⟩ := mem_flatten.1 ha
    obtain ⟨hv, hshort⟩ := mem_filter.1 hv
    -- a neighbour would be in the run, which has one element
    have hone : v.length = 1 := Nat.le_antisymm (Nat.le_of_lt_succ (of_decide_eq_true hshort)) (length_pos_of_mem ha)
    obtain ⟨x, rfl⟩ := length_eq_one_iff.1 hone
    obtain rfl := mem_singleton.1 ha
    rw [← not_or]
    intro hnext
    obtain rfl := mem_singleton.1 ((of_mem_inputRuns hd hv ha).2 b hb hrow hnext)
    omega

def gapped : List Input := ["C", "A", "D"].map fun col => ⟨col, 1, Column.number col, .null, .null, col ++ "1"⟩

theorem splitInputs_partition_gapped : (gapped.map fun i => (i.row, i.colNumber)).Nodup ∧
    (splitInputs gapped).1.flatten ++ (splitInputs gapped).2 ~ gapped := by
  have hd : (gapped.map fun i => (i.row, i.colNumber)).Nodup := by decide
  exact ⟨hd, (splitInputs_partition gapped hd).1⟩

theorem Structured.mem_settle (h : i ∈ inputs) : i ∈ (settle inputs).2 ∨ ∃ v ∈ (settle inputs).1, i ∈ v := by
  obtain ⟨v, hv, hi⟩ := mem_inputRuns h
  unfold settle splitInputs
  dsimp only
  by_cases hlong : 2 ≤ v.length
  · have hmem : v ∈ (inputRuns inputs).filter fun r => 2 ≤ r.length := mem_filter.2 ⟨hv, decide_eq_true hlong⟩
    rw [partition_eq_filter_filter]
    by_cases hshort : (splitLabel v).2.length ≤ 1
    · refine .inl (mem_append_right _ (mem_flatten.2 ⟨v, mem_filter.2 ⟨hmem, ?_⟩, hi⟩))
      exact decide_eq_true hshort
    · refine .inr ⟨v, mem_filter.2 ⟨hmem, ?_⟩, hi⟩
      simpa using hshort
  · refine .inl (mem_append_left _ (mem_flatten.2 ⟨v, mem_filter.2 ⟨hv, ?_⟩, hi⟩))
    exact decide_eq_true (Nat.lt_of_not_le hlong)

theorem Structured.of_mem_settle (h : v ∈ (settle inputs).1) :
    2 ≤ (splitLabel v).2.length ∧ v.Pairwise fun a b => a.colNumber < b.colNumber := by
  unfold settle splitInputs at h
  dsimp only at h
  rw [partition_eq_filter_filter] at h
  obtain ⟨hv, hlong⟩ := mem_filter.1 h
  refine ⟨?_, pairwise_inputRuns (mem_filter.1 hv).1⟩
  simpa [Nat.lt_iff_add_one_le] using hlong

theorem sublist_splitLabel (v : List Input) : (splitLabel v).2.Sublist v := by
  unfold splitLabel
  split
  · exact Sublist.refl _
  · split
    · split
      · exact Sublist.refl _
      · exact sublist_cons_self _ _
    · exact Sublist.refl _

theorem mem_splitLabel (h : i ∈ v) :
    i ∈ (splitLabel v).2 ∨ ∃ s, i.value = .text s ∧ (splitLabel v).1 = some (Text.strip s) := by
  unfold splitLabel
  split
  · exact .inl h
  · next first rest =>
    split
    · next s hs =>
      split
      · exact .inl h
      · rcases mem_cons.1 h with rfl | h
        · exact .inr ⟨s, hs, rfl⟩
        · exact .inl h
    · exact .inl h

/-! Rows of years -/

/-- A vector whose values are years: in the first six rows, or with a label. -/
def isHeaderRow (v : List Input) : Bool :=
  !(splitLabel v).2.isEmpty && (match allYears (splitLabel v).2 with
    | .ok years => years
    | .error _ => false) && ((v.head?.any fun i => i.row ≤ 6) || (splitLabel v).1.isSome)

def yearsOf (vs : List (List Input)) : List Input := (vs.filter isHeaderRow).flatMap fun v => (splitLabel v).2

theorem takeHeader_eq {st st' : Headers × List (List Input)} (h : takeHeader st v = .ok st') :
    st' = if isHeaderRow v then (st.1.putAll (splitLabel v).2, st.2) else (st.1, st.2 ++ [v]) := by
  unfold takeHeader at h
  unfold isHeaderRow
  dsimp only at h
  cases v with
  | nil => exact (Except.ok.inj h).symm
  | cons first tail =>
    cases hdata : (splitLabel (first :: tail)).2 with
    | nil =>
      rw [hdata] at h
      exact (Except.ok.inj h).symm
    | cons i is =>
      rw [hdata] at h
      obtain ⟨years, hyears, h⟩ := of_bind h
      simp only [hyears, isEmpty_cons, Bool.not_false, Bool.true_and, head?_cons, Option.any_some]
      split at h
      · next hcond =>
        rw [if_pos hcond]
        exact (Except.ok.inj h).symm
      · next hcond =>
        rw [if_neg hcond]
        exact (Except.ok.inj h).symm

theorem foldlM_takeHeader {vs : List (List Input)} {st st' : Headers × List (List Input)}
    (h : vs.foldlM takeHeader st = .ok st') :
    st' = (st.1.putAll (yearsOf vs), st.2 ++ vs.filter fun v => !isHeaderRow v) := by
  induction h using foldlM_induction with
  | nil =>
    rw [filter_nil, append_nil]
    rfl
  | @cons v vs _ _ hst₁ _ ih =>
    rw [ih, takeHeader_eq hst₁]
    unfold yearsOf Headers.putAll
    by_cases hv : isHeaderRow v = true
    · rw [if_pos hv, filter_cons_of_pos hv, filter_cons_of_neg (by simp [hv]), flatMap_cons, foldl_append]
    · rw [if_neg hv, filter_cons_of_neg hv, filter_cons_of_pos (by simp [hv]), append_assoc]
      rfl

theorem takeHeaders_eq {vs rest : List (List Input)} {headers : Headers} (h : takeHeaders vs = .ok (headers, rest)) :
    headers = Headers.putAll [] (yearsOf vs) ∧ rest = vs.filter fun v => !isHeaderRow v := by
  have := foldlM_takeHeader h
  rwa [nil_append, Prod.mk.injEq] at this

theorem find?_put (k c : Int) (t : String) (h : Headers) : ((h.put k t).find? fun x => x.1 = c).map Prod.snd =
      if k = c then some t else (h.find? fun x => x.1 = c).map Prod.snd := by
  induction h with
  | nil =>
    unfold Headers.put
    by_cases hk : k = c <;> simp [hk]
  | cons x r ih =>
    obtain ⟨k', t'⟩ := x
    unfold Headers.put
    by_cases hk' : k = k'
    · rw [if_pos hk', find?_cons, find?_cons, hk']
      by_cases hk : k' = c <;> simp [hk]
    · rw [if_neg hk', find?_cons, find?_cons]
      by_cases hc : k' = c
      · have hne : k ≠ c := fun hk => hk' (hk.trans hc.symm)
        simp [hc, hne]
      · simpa [hc] using ih

theorem find?_putAll (is : List Input) (c : Int) (h : Headers) : ((h.putAll is).find? fun x => x.1 = c).map Prod.snd =
      ((is.reverse.find? fun i => i.colNumber = c).map fun i => i.value.toText).or
        ((h.find? fun x => x.1 = c).map Prod.snd) := by
  unfold Headers.putAll
  induction is generalizing h with
  | nil => rfl
  | cons i is ih =>
    rw [foldl_cons, ih, find?_put, reverse_cons, find?_append, find?_singleton]
    cases is.reverse.find? fun i => i.colNumber = c with
    | some j => rfl
    | none => by_cases hi : i.colNumber = c <;> simp [hi]

namespace Structured

open Sheet (Writes Has)

variable {s s' : Sheet} {name : String} {row width : Nat} {f g : Style → Style} {α : Type} {xs : List α}
  {vs : List String} {i d : Input} {st st' : Sheet × Nat × List IndexLine} {text label : String} {x : Series}
  {cols : List Int}

/-! Cells of pages -/

theorem writes_cellWith {col : Nat} {v : Value} (h : cellWith s row col v f = .ok s') :
    Writes (· = ⟨row, col⟩) s s' ∧ (v ≠ .null → s'.Has ⟨row, col⟩ v) := by
  unfold cellWith at h
  split at h
  · next hv =>
    cases h
    refine ⟨(writes_restyle _ _ _).mono nofun, fun hne => ?_⟩
    cases v <;> first | exact absurd rfl hne | cases hv
  · obtain ⟨t, ht, h⟩ := of_bind h
    cases h
    obtain ⟨hwrites, hhas⟩ := writes_of_put ht
    exact ⟨hwrites.trans ((writes_restyle _ _ _).mono nofun), fun _ =>
      (writes_restyle t _ _).has _ _ id hhas⟩

theorem has_of_cellsWith {k : Nat} (value? : α → Option Value) (h : xs.zipIdx.foldlM (fun s x =>
      match value? x.1 with
      | some v => cellWith s row (x.2 + k) v f
      | none => pure s) s = .ok s') : Writes (fun q => q.row = row ∧ k ≤ q.col) s s' ∧
      ∀ i x v, xs[i]? = some x → value? x = some v → v ≠ .null → s'.Has ⟨row, i + k⟩ v := by
  have hd : xs.zipIdx.Pairwise fun x y => ∀ q : Position, q = ⟨row, x.2 + k⟩ → ¬q = ⟨row, y.2 + k⟩ := by
    refine (pairwise_zipIdx xs 0).imp fun hlt q hq hq' => ?_
    rw [hq, Position.mk.injEq] at hq'
    omega
  obtain ⟨hwrites, hrun⟩ := Writes.of_disjoint (W := fun x q => q = ⟨row, x.2 + k⟩) (fun x _ s s' hs => by
    split at hs
    · exact (writes_cellWith hs).1
    · cases hs
      exact Writes.refl _ _) hd h
  refine ⟨hwrites.mono ?_, fun i x v hx hv hne => ?_⟩
  · rintro q ⟨x, -, rfl⟩
    exact ⟨rfl, Nat.le_add_left _ _⟩
  · obtain ⟨t, t', ht, hkeep⟩ := hrun (x, i) (mem_zipIdx_iff_getElem?.2 hx)
    rw [hv] at ht
    exact hkeep _ _ rfl ((writes_cellWith ht).2 hne)

theorem has_of_headers (h : headers s vs = .ok s') :
    Writes (fun q => q.row = 1) s s' ∧ ∀ i v, vs[i]? = some v → s'.Has ⟨1, i + 1⟩ (.text v) := by
  obtain ⟨hwrites, hhas⟩ := has_of_cellsWith (fun v => some (Value.text v)) (k := 1) h
  exact ⟨hwrites.mono fun q hq => hq.1, fun i v hv => hhas i v _ hv rfl nofun⟩

/-! The list of scalars -/

variable (P : Position → Value → Prop)

/-- A row of a list, where cells have the values of `P`, says where an input is from and what it is. -/
def Listed (name : String) (i : Input) (row : Nat) : Prop :=
  P ⟨row, 1⟩ (.text name) ∧ P ⟨row, 2⟩ (.text i.cell) ∧ P ⟨row, 4⟩ i.value

theorem Listed.imp {P P' : Position → Value → Prop} (h : Listed P name i row) (hP : ∀ q v, q.row = row → P q v → P' q v) :
    Listed P' name i row :=
  ⟨hP _ _ rfl h.1, hP _ _ rfl h.2.1, hP _ _ rfl h.2.2⟩

theorem Listed.keep {W : Position → Prop} (h : Listed s.Has name i row) (hw : Writes W s s')
    (hrow : ∀ q, W q → q.row ≠ row) : Listed s'.Has name i row :=
  h.imp fun q v hq hv => hw.has q v (fun hW => hrow q hW hq) hv

theorem listed_of_foldlM (title : α → String) (inputs : α → List Input)
    {f : Sheet × Nat × List IndexLine → α → Outcome (Sheet × Nat × List IndexLine)}
    (hstep : ∀ st st' x, f st x = .ok st' → st.2.1 ≤ st'.2.1 ∧ Writes (fun q => st.2.1 ≤ q.row) st.1 st'.1 ∧
      ∀ i ∈ inputs x, i.value ≠ .null → ∃ row < st'.2.1, Listed st'.1.Has (title x) i row)
    (h : xs.foldlM f st = .ok st') : st.2.1 ≤ st'.2.1 ∧ Writes (fun q => st.2.1 ≤ q.row) st.1 st'.1 ∧
      ∀ x ∈ xs, ∀ i ∈ inputs x, i.value ≠ .null → ∃ row < st'.2.1, Listed st'.1.Has (title x) i row := by
  induction h using foldlM_induction with
  | nil => exact ⟨Nat.le_refl _, Writes.refl _ _, nofun⟩
  | cons hst₁ _ ih =>
    obtain ⟨hle, hwrites, hlisted⟩ := hstep _ _ _ hst₁
    obtain ⟨hle', hrest, hmem⟩ := ih
    refine ⟨Nat.le_trans hle hle', hwrites.trans (hrest.mono fun q hq => Nat.le_trans hle hq), fun y hy i hi hne => ?_⟩
    rcases mem_cons.1 hy with rfl | hy
    · obtain ⟨row, hrow, hrowed⟩ := hlisted i hi hne
      refine ⟨row, Nat.lt_of_lt_of_le hrow hle', hrowed.keep hrest fun q hq => ?_⟩
      omega
    · exact hmem y hy i hi hne

theorem listed_addScalar {source : Option Sheet} (h : addScalar source name st i = .ok st') :
    st.2.1 ≤ st'.2.1 ∧ Writes (fun q => st.2.1 ≤ q.row) st.1 st'.1 ∧
      ∀ j ∈ [i], j.value ≠ .null → ∃ row < st'.2.1, Listed st'.1.Has name j row := by
  obtain ⟨label, t, -, ht, h⟩ := of_bind₂ h
  cases h
  obtain ⟨hwrites, hhas⟩ := has_of_cellsWith some (k := 1) ht
  refine ⟨Nat.le_succ _, hwrites.mono fun q hq => Nat.le_of_eq hq.1.symm, fun j hj hne => ?_⟩
  rw [mem_singleton.1 hj] at hne ⊢
  exact ⟨_, Nat.lt_succ_self _, hhas 0 _ _ rfl rfl nofun, hhas 1 _ _ rfl rfl nofun, hhas 3 _ _ rfl rfl hne⟩

/-- A cell that goes over the columns behind it. -/
theorem writes_merged {v : Value} (h : cellWith s row 1 v f = .ok s') (width : Nat) :
    Writes (fun q => q.row = row) s (s'.merge ⟨row, 1, row, width⟩) := by
  refine ((writes_cellWith h).1.mono fun q hq => by rw [hq]).trans ((writes_merge s' _).mono fun q hq => ?_)
  simp only [Area.contains, Bool.and_eq_true, decide_eq_true_eq] at hq
  omega

theorem listed_scalarSheet {source : Option Workbook} {scalars : List (String × List Input)} {lines : List IndexLine}
    (h : scalarSheet source scalars = .ok (s, lines)) :
    s.name = "Config" ∧ ∀ x ∈ scalars, ∀ i ∈ x.2, i.value ≠ .null → ∃ row, Listed s.Has x.1 i row := by
  obtain ⟨s₁, ⟨s₂, row, lines₂⟩, h₁, h₂, h⟩ := of_bind₂ h
  cases h
  obtain ⟨-, hwrites, hlisted⟩ := listed_of_foldlM Prod.fst Prod.snd (fun st st' x hstep => by
    obtain ⟨name, inputs⟩ := x
    dsimp only at hstep
    split at hstep
    · next hempty =>
      cases hstep
      rw [isEmpty_iff.1 hempty]
      exact ⟨Nat.le_refl _, Writes.refl _ _, nofun⟩
    · obtain ⟨t, ht, hstep⟩ := of_bind hstep
      obtain ⟨hle, hrows, hmem⟩ := listed_of_foldlM (fun _ => name) (fun i => [i]) (fun st st' i => listed_addScalar) hstep
      refine ⟨Nat.le_of_succ_le hle, ?_, fun i hi => hmem i hi i (mem_singleton_self i)⟩
      exact ((writes_merged ht 4).mono fun q hq => Nat.le_of_eq hq.symm).trans (hrows.mono fun q hq => Nat.le_of_succ_le hq)) h₂
  refine ⟨?_, fun x hx i hi hne => ?_⟩
  · exact hwrites.name.trans ((of_withWidths _ _).1.trans (has_of_headers h₁).1.name)
  · obtain ⟨row, -, hrow⟩ := hlisted x hx i hi hne
    exact ⟨row, hrow⟩

variable {title : String} {source : Option Sheet} {series : List Series} {heads : Headers} {lines : List IndexLine}
  {wrap : Bool}

/-! Pages of vectors -/

/-- A page, where cells have the values of `P`, has a value below a label and beside a heading, or the other way
round. -/
def Tabled (name label heading : String) (d : Input) : Prop :=
  ∃ row col, 2 ≤ row ∧ 2 ≤ col ∧ (d.value ≠ .null → P ⟨row, col⟩ d.value) ∧
    (P ⟨1, 1⟩ (.text ("Period\n[Source: '" ++ name ++ "']")) ∧ P ⟨1, col⟩ (.text label) ∧ P ⟨row, 1⟩ (.text heading) ∨
      P ⟨1, 1⟩ (.text ("Metric\n[Source: '" ++ name ++ "']")) ∧ P ⟨row, 1⟩ (.text label) ∧
        P ⟨1, col⟩ (.text (heading ++ " [" ++ Column.name d.colNumber ++ "]")))

theorem writes_withWidths (s : Sheet) (ws : List Float) : Writes (fun _ => False) s (s.withWidths ws) := by
  refine ⟨(of_withWidths s ws).1, fun q v _ hv => ⟨?_, ?_⟩⟩
  · rw [value, cell, cell?, (of_withWidths s ws).2.1]
    exact hv.1
  · rw [isHidden, (of_withWidths s ws).2.2]
    exact hv.2

theorem writes_note (h : note s row width text = .ok s') : Writes (fun q => q.row = row) s s' := by
  obtain ⟨t, ht, h⟩ := of_bind h
  cases h
  exact writes_merged ht width

theorem forall₂_seriesLabels {labels : List String} (h : seriesLabels source series = .ok labels) :
    Forall₂ (fun x label => ∀ l, x.label = some l → label = l) series labels := by
  have hrun : ∀ {f : List String × Nat → Series → Outcome (List String × Nat)} (_ : ∀ st st' x, f st x = .ok st' →
      ∃ label, st'.1 = st.1 ++ [label] ∧ ∀ l, x.label = some l → label = l) {xs : List Series}
      {st st' : List String × Nat}, xs.foldlM f st = .ok st' → ∃ labels, st'.1 = st.1 ++ labels ∧
        Forall₂ (fun x label => ∀ l, x.label = some l → label = l) xs labels := by
    intro f hf xs st st' h
    induction h using foldlM_induction with
    | nil => exact ⟨[], (append_nil _).symm, .nil⟩
    | cons hst₁ _ ih =>
      obtain ⟨label, hlabel, hown⟩ := hf _ _ _ hst₁
      obtain ⟨labels, hlabels, hrest⟩ := ih
      exact ⟨label :: labels, by rw [hlabels, hlabel, append_assoc]; rfl, .cons hown hrest⟩
  obtain ⟨⟨labels', n⟩, hfold, h⟩ := of_bind h
  cases h
  obtain ⟨found, hfound, hforall⟩ := hrun (fun st st' x hstep => by
    cases hlabel : x.label with
    | some l =>
      rw [hlabel] at hstep
      cases hstep
      exact ⟨l, rfl, fun l' hl' => Option.some.inj hl'⟩
    | none =>
      rw [hlabel] at hstep
      obtain ⟨label, -, hstep⟩ := of_bind hstep
      cases hstep
      cases label <;> exact ⟨_, rfl, nofun⟩) hfold
  cases hfound
  exact hforall

theorem mem_dataColumns (hx : x ∈ series) (hd : d ∈ x.data) : d.colNumber ∈ dataColumns series := by
  unfold dataColumns
  rw [mem_mergeSort, mem_eraseDups]
  exact mem_map_of_mem (mem_flatMap.2 ⟨x, hx, hd⟩)

theorem value?_eq (hx : x.data.Pairwise fun a b => a.colNumber < b.colNumber) (hd : d ∈ x.data) :
    x.value? d.colNumber = some d.value := by
  have hnodup : (x.data.map (·.colNumber)).Nodup := (pairwise_map.2 hx).imp fun h => by omega
  rw [Series.value?, find?_eq_some_of_unique (mem_reverse.2 hd) (decide_eq_true rfl) fun e he hcol =>
    inj_on_of_nodup_map hnodup (mem_reverse.1 he) hd (of_decide_eq_true hcol)]
  rfl

theorem has_of_labelledRow {vs : List (Option Value)} (h : labelledRow s row wrap label vs = .ok s') :
    Writes (·.row = row) s s' ∧ s'.Has ⟨row, 1⟩ (.text label) ∧
      ∀ j v, vs[j]? = some (some v) → v ≠ .null → s'.Has ⟨row, j + 2⟩ v := by
  obtain ⟨t, ht, h⟩ := of_bind h
  obtain ⟨hfirst, hlabel⟩ := writes_cellWith ht
  obtain ⟨hwrites, hhas⟩ := has_of_cellsWith id (k := 2) h
  refine ⟨(hfirst.mono fun q hq => by rw [hq]).trans (hwrites.mono fun q hq => hq.1), ?_,
    fun j v hv => hhas j _ v hv rfl⟩
  exact hwrites.has _ _ (fun hq => absurd hq.2 (Nat.not_succ_le_self 1)) (hlabel nofun)

/-- A page is written from top to bottom: headers, labelled rows, and a note. -/
theorem has_of_page {widths : Float × Float} {corner : String} {top left : List String}
    {entries : List (List (Option Value))} (h : page title widths wrap corner top left entries text = .ok s) :
    (∀ i v, (corner :: top)[i]? = some v → s.Has ⟨1, i + 1⟩ (.text v)) ∧
      ∀ i label vs, left[i]? = some label → entries[i]? = some vs → s.Has ⟨i + 2, 1⟩ (.text label) ∧
        ∀ j v, vs[j]? = some (some v) → v ≠ .null → s.Has ⟨i + 2, j + 2⟩ v := by
  obtain ⟨s₁, s₂, h₁, h₂, h₃⟩ := of_bind₂ h
  obtain ⟨-, htop⟩ := has_of_headers h₁
  have hdisjoint : (left.zip entries).zipIdx.Pairwise fun x y => ∀ q : Position, q.row = x.2 + 2 → ¬q.row = y.2 + 2 :=
    (pairwise_zipIdx _ 0).imp fun hlt q hq hq' => by omega
  have hstep : ∀ x ∈ (left.zip entries).zipIdx, ∀ s s', labelledRow s (x.2 + 2) wrap x.1.1 x.1.2 = .ok s' →
      Writes (·.row = x.2 + 2) s s' := fun x _ s s' hs => (has_of_labelledRow hs).1
  obtain ⟨hbody, hrows⟩ := Writes.of_disjoint hstep hdisjoint h₂
  have hnote := writes_note h₃
  refine ⟨fun i v hv => ?_, fun i label vs hl hvs => ?_⟩
  · refine hnote.has _ _ (by dsimp only; omega) (hbody.has _ _ ?_ ((writes_withWidths s₁ _).has _ _ id (htop i v hv)))
    rintro ⟨y, -, hy⟩
    dsimp only at hy
    omega
  · have hi : i < entries.length := lt_of_getElem? hvs
    obtain ⟨t, t', ht, hkeep⟩ := hrows ((label, vs), i) (mem_zipIdx_iff_getElem?.2 (getElem?_zip_eq_some.2 ⟨hl, hvs⟩))
    obtain ⟨-, hlabel, hvalues⟩ := has_of_labelledRow ht
    have hlast : ∀ c v, t'.Has ⟨i + 2, c⟩ v → s.Has ⟨i + 2, c⟩ v := fun c v hv =>
      hnote.has _ _ (by dsimp only; omega) (hkeep _ _ rfl hv)
    exact ⟨hlast _ _ hlabel, fun j v hv hne => hlast _ _ (hvalues j v hv hne)⟩

theorem tabled_page (hx : x ∈ series) (hcols : x.data.Pairwise fun a b => a.colNumber < b.colNumber) (hd : d ∈ x.data)
    (h : periodSheet name title source series heads = .ok (s, lines) ∨
    metricSheet name title source series heads = .ok (s, lines)) :
    ∃ label, (∀ l, x.label = some l → label = l) ∧ Tabled s.Has name label (headingOf heads d.colNumber) d := by
  obtain ⟨i, hi⟩ := getElem?_of_mem hx
  obtain ⟨j, hj⟩ := getElem?_of_mem (mem_dataColumns hx hd)
  rcases h with h | h <;> obtain ⟨labels, t, hlabels, hpage, h⟩ := of_bind₂ h <;> cases h
  all_goals
    obtain ⟨htop, hrows⟩ := has_of_page hpage
    obtain ⟨label, hlabel, hown⟩ := exists_getElem?_right (forall₂_seriesLabels hlabels) hi
  · obtain ⟨hheading, hvalue⟩ := hrows j _ _ (by rw [getElem?_map, hj]; rfl) (by rw [getElem?_map, hj]; rfl)
    refine ⟨label, hown, j + 2, i + 2, by omega, by omega, hvalue i _ ?_,
      .inl ⟨htop 0 _ rfl, htop (i + 1) _ hlabel, hheading⟩⟩
    rw [getElem?_map, hi, Option.map_some, value?_eq hcols hd, Option.getD_some]
  · obtain ⟨hlabel, hvalue⟩ := hrows i label _ hlabel (by rw [getElem?_map, hi]; rfl)
    refine ⟨label, hown, i + 2, j + 2, by omega, by omega, hvalue j _ ?_,
      .inr ⟨htop 0 _ rfl, hlabel, htop (j + 1) _ ?_⟩⟩
    · rw [getElem?_map, hj, Option.map_some, value?_eq hcols hd]
    · rw [getElem?_cons_succ, getElem?_map, hj, Option.map_some]

variable {forced : Headers} {vectors : List (List Input)}

theorem headingOf_map {g : Int → String} {c : Int} (h : c ∈ cols) : headingOf (cols.map fun c => (c, g c)) c = g c := by
  rw [headingOf, find?_eq_some_of_unique (mem_map_of_mem h)]
  · rfl
  · exact decide_eq_true rfl
  intro x hx hkey
  obtain ⟨c', -, rfl⟩ := mem_map.1 hx
  rw [show c' = c from of_decide_eq_true hkey]

/-- A vector with values is on the page of its sheet: each value with the label of the vector, if it has one, and with
the header of its column, if there is one. -/
theorem tabled_vectorSheet {o : Option (Sheet × List IndexLine)} (h : vectorSheet name source vectors forced = .ok o)
    (hcols : ∀ v ∈ vectors, v.Pairwise fun a b => a.colNumber < b.colNumber) (hv : v ∈ vectors)
    (hd : d ∈ (splitLabel v).2) : ∃ s lines, o = some (s, lines) ∧ ∃ label heading,
      (∀ l, (splitLabel v).1 = some l → label = l) ∧
      (∀ t, (forced.find? fun x => x.1 = d.colNumber).map Prod.snd = some t → heading = t) ∧
      Tabled s.Has name label heading d := by
  have hx : Series.mk (splitLabel v).1 (splitLabel v).2 v ∈ seriesOf vectors := by
    refine mem_filterMap.2 ⟨v, hv, ?_⟩
    dsimp only
    rw [if_neg (by rw [List.isEmpty_iff]; exact List.ne_nil_of_mem hd)]
  have hdata : ∀ x ∈ seriesOf vectors, x.data.Pairwise fun a b => a.colNumber < b.colNumber := by
    intro x hx
    obtain ⟨v, hv, hsome⟩ := mem_filterMap.1 hx
    dsimp only at hsome
    split at hsome
    · cases hsome
    · cases hsome
      exact (hcols v hv).sublist (sublist_splitLabel v)
  unfold vectorSheet at h
  rw [if_neg (by rw [List.isEmpty_iff]; exact List.ne_nil_of_mem hx)] at h
  obtain ⟨-, periods, -, -, h⟩ := of_bind₂ h
  obtain ⟨⟨s, lines⟩, hpage, rfl⟩ := map_eq_ok_iff.1 h
  refine ⟨s, lines, rfl, ?_⟩
  generalize hheads : (if forced.isEmpty = true then _ else _ : Headers) = heads at hpage
  obtain ⟨label, hlabel, htabled⟩ : ∃ label, (∀ l, (splitLabel v).1 = some l → label = l) ∧
      Tabled s.Has name label (headingOf heads d.colNumber) d := by
    split at hpage
    · exact tabled_page hx (hdata _ hx) hd (.inl hpage)
    · exact tabled_page hx (hdata _ hx) hd (.inr hpage)
  refine ⟨label, _, hlabel, fun t ht => ?_, htabled⟩
  have hne : ¬forced.isEmpty = true := by
    intro hempty
    rw [isEmpty_iff.1 hempty] at ht
    cases ht
  rw [if_neg hne] at hheads
  rw [← hheads, headingOf_map (mem_dataColumns hx hd), headingOf, ht]
  rfl

end Structured

end Sheetwork.Mapping
