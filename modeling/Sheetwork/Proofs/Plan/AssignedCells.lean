import Sheetwork.Plan.Run
import Sheetwork.Proofs.Plan.Evaluation
/-
  Plans: the cells that a script assigns. A formula by itself assigns its cell (`spots_setting`); a group assigns the
  whole stretch from its first to its last cell, whether or not the cells between belong to it (`mem_spots_loop`).
  Main statement: `spots_program_iff`.
-/

open List Relation Sheetwork.Graph

namespace Sheetwork

variable {ε α β : Type} {f : α → Except ε (List β)} {bs : List β} {l : List α}

theorem flatMapM_eq_ok (h : l.flatMapM f = .ok bs) :
    ∃ bss, Forall₂ (fun a x => f a = .ok x) l bss ∧ bs = bss.flatten := by
  induction l generalizing bs with
  | nil =>
    cases h
    exact ⟨[], .nil, rfl⟩
  | cons a l ih =>
    rw [flatMapM_cons] at h
    obtain ⟨x, bs, hx, hbs, h⟩ := of_bind₂ h
    obtain ⟨bss, hall, rfl⟩ := ih hbs
    cases h
    exact ⟨x :: bss, .cons hx hall, rfl⟩

theorem exists_flatMap_flatMapM_iff {γ : Type} {g : β → List γ} {P : α → γ → Prop} (h : l.flatMapM f = .ok bs)
    (step : ∀ a ∈ l, ∀ x, f a = .ok x → ∀ c, c ∈ x.flatMap g ↔ P a c) (c : γ) : c ∈ bs.flatMap g ↔ ∃ a ∈ l, P a c := by
  obtain ⟨bss, hall, rfl⟩ := flatMapM_eq_ok h
  clear h
  induction hall with
  | nil => simp
  | cons hx _ ih =>
    rw [flatten_cons, flatMap_append, mem_append, step _ mem_cons_self _ hx c,
      ih fun a ha => step a (mem_cons_of_mem _ ha), exists_mem_cons_iff]

end Sheetwork

namespace Sheetwork.Plan

/-! The cells of statements -/

def Statement.spots : Statement → List Spot
  | set s => [⟨s.sheet, s.row, s.col⟩]
  | loop l => if l.code.isSome then (Cells.numbers l.first l.last).map l.spot else []
  | gap => []

def Program.spots (p : Program) : List Spot := p.statements.flatMap Statement.spots

/-- The cells that are set when a statement is carried out. -/
def Action.spots : Action → List Spot
  | compute _ => []
  | set s _ => [s]
  | loop l _ => (Cells.numbers l.first l.last).map l.spot

theorem spots_compute (es : List Script.Expr) : (es.map Action.compute).flatMap Action.spots = [] := by
  simp [flatMap_map, Action.spots]

theorem spots_actions {s : Statement} {as : List Action} (h : s.actions = .ok as) :
    as.flatMap Action.spots = s.spots := by
  cases s with
  | gap =>
    cases h
    rfl
  | set s =>
    obtain ⟨before, e, -, -, h⟩ := of_bind₂ h
    cases h
    rw [flatMap_append, spots_compute]
    rfl
  | loop l =>
    obtain ⟨before, code, -, hcode, h⟩ := of_bind₂ h
    obtain ⟨e, -, h⟩ := of_bind h
    cases h
    rw [flatMap_append, spots_compute, Statement.spots, ifNone_eq_ok_iff.1 hcode]
    simp [Action.spots]

theorem mem_numbers {first last i : Int} : i ∈ Cells.numbers first last ↔ first ≤ i ∧ i ≤ last := by
  simp only [Cells.numbers, mem_map, mem_range]
  constructor
  · rintro ⟨n, hn, rfl⟩
    omega
  · rintro ⟨hfirst, hlast⟩
    exact ⟨(i - first).toNat, by omega, by omega⟩

/-! The cells of formulas -/

namespace Job

/-- The cell of a formula by the row and the column of its record. -/
def spot (j : Job) : Spot := ⟨j.name.sheet, j.place .col, j.place .row⟩

def HasFormula (j : Job) : Prop := (j.record.get "Formula").truthy = true

def line (along : Axis) (j : Job) : Int := (wholeOf j.record along.shared).toOption.getD 0

end Job

def Axis.spot (along : Axis) (sheet : String) (line i : Int) : Spot :=
  if along = .row then ⟨sheet, line, i⟩ else ⟨sheet, i, line⟩

variable {j : Job} {names : List (String × String)} {ss : List Statement} {js : List Job} {t : Step} {a : Axis}

theorem Job.spot_eq (j : Job) (a : Axis) : j.spot = a.spot j.name.sheet (j.line a) (j.place a) := by cases a <;> rfl

theorem place_of_wholeOf {i : Int} (h : wholeOf j.record a.coordinate = .ok i) : j.place a = i := by
  rw [Job.place, h]
  rfl

theorem spots_setting (h : setting names j = .ok ss) (s : Spot) :
    s ∈ ss.flatMap Statement.spots ↔ j.HasFormula ∧ j.spot = s := by
  obtain ⟨row, col, hrow, hcol, h⟩ := of_bind₂ h
  have hspot : j.spot = ⟨j.name.sheet, row, col⟩ := by
    rw [Job.spot, place_of_wholeOf (a := .col) hrow, place_of_wholeOf (a := .row) hcol]
  rw [Job.HasFormula, hspot]
  dsimp only at h
  split at h
  · cases h
    simp_all
  · obtain ⟨code, text, -, -, h⟩ := of_bind₂ h
    cases h
    rw [flatMap_singleton, Statement.spots, mem_singleton, @eq_comm _ s]
    simp_all

/-- The stretch from one formula of a group to another, on the line of the first. -/
def Spans (a : Axis) (js : List Job) (s : Spot) : Prop :=
  ∃ i ∈ js, ∃ j ∈ js, ∃ k, i.place a ≤ k ∧ k ≤ j.place a ∧ a.spot i.name.sheet (i.line a) k = s

/-- A group as reports have them: its cells are on one line of one sheet, and have formulas. -/
structure Aligned (a : Axis) (js : List Job) : Prop where
  formula : ∀ j ∈ js, j.HasFormula
  sheet : ∀ i ∈ js, ∀ j ∈ js, i.name.sheet = j.name.sheet
  line : ∀ i ∈ js, ∀ j ∈ js, i.line a = j.line a

/-- A loop runs from the least to the greatest of the places of its formulas. -/
theorem mem_spots_loop {l : Loop} (h : loop names a js = .ok l) (hjs : Aligned a js) (s : Spot) :
    s ∈ (Statement.loop l).spots ↔ Spans a js s := by
  obtain ⟨pairs, hpairs, h⟩ := of_bind h
  have hall := mapM_eq_ok_iff.1 hpairs
  have hplace : ∀ x ∈ pairs, x.2 ∈ js ∧ x.1 = x.2.place a := by
    intro x hx
    obtain ⟨j, hj, hjx⟩ := exists_of_mem_right hall hx
    obtain ⟨i, hi, hjx⟩ := of_bind hjx
    cases hjx
    exact ⟨hj, (place_of_wholeOf hi).symm⟩
  have hjob : ∀ j ∈ js, ∃ x ∈ pairs, x.2 = j := by
    intro j hj
    obtain ⟨x, hx, hjx⟩ := exists_of_mem_left hall hj
    obtain ⟨i, -, hjx⟩ := of_bind hjx
    cases hjx
    exact ⟨_, hx, rfl⟩
  obtain ⟨⟨first, j₁⟩, hfirst, h⟩ := of_bind h
  replace hfirst := ifNone_eq_ok_iff.1 hfirst
  obtain ⟨line, pattern, hline, -, h⟩ := of_bind₂ h
  obtain ⟨x, z, hx, hlast, hx', hz, hle⟩ := Ordered.exists_ends (r := fun x y : Int × Job => decide (x.1 ≤ y.1))
    (fun x y z hxy hyz => by simp only [decide_eq_true_eq] at *; omega)
    (fun x y => by simp only [Bool.or_eq_true, decide_eq_true_eq]; omega) (l := pairs) (by rintro rfl; simp at hfirst)
  cases hfirst.symm.trans hx
  have hj₁ := hplace _ hx'
  obtain ⟨hzjs, hzplace⟩ := hplace z hz
  have hends : ∀ j ∈ js, first ≤ j.place a ∧ j.place a ≤ z.1 := by
    intro j hj
    obtain ⟨y, hy, rfl⟩ := hjob j hj
    rw [← (hplace y hy).2]
    exact (hle y hy).imp of_decide_eq_true of_decide_eq_true
  have hformula : (j₁.record.get "Formula").truthy = true := hjs.formula j₁ hj₁.1
  dsimp only at h
  rw [if_pos hformula] at h
  obtain ⟨code, hcode, h⟩ := of_bind h
  have hcode' : code.isSome = true := by
    obtain ⟨c, -, rfl⟩ := map_eq_ok_iff.1 hcode
    rfl
  have hsheet : (js.head?.map (·.name.sheet)).getD "" = j₁.name.sheet := by
    obtain ⟨k, t, rfl⟩ := exists_cons_of_ne_nil (ne_nil_of_mem hj₁.1)
    exact hjs.sheet k mem_cons_self j₁ hj₁.1
  have hline' : j₁.line a = line := by
    rw [Job.line, hline]
    rfl
  cases h
  rw [hlast, hsheet]
  simp only [Statement.spots, hcode', if_true, mem_map, mem_numbers, Option.map_some, Option.getD_some]
  constructor
  · rintro ⟨k, ⟨hk, hk'⟩, rfl⟩
    exact ⟨j₁, hj₁.1, z.2, hzjs, k, hj₁.2 ▸ hk, hzplace ▸ hk', by rw [hline']; rfl⟩
  · rintro ⟨i, hi, j, hj, k, hk, hk', rfl⟩
    refine ⟨k, ⟨(hends i hi).1.trans hk, hk'.trans (hends j hj).2⟩, ?_⟩
    rw [hjs.sheet i hi j₁ hj₁.1, hjs.line i hi j₁ hj₁.1, hline']
    rfl

/-! The cells of steps -/

def alongOf (js : List Job) : Option Axis := js.head?.bind fun j => Axis.ofValue? (j.record.get "GroupDirection")

/-- The cells that a step assigns: a group with a direction the whole stretch, anything else its formulas. -/
def Step.Assigns : Step → Spot → Prop
  | .cell j, s => j.HasFormula ∧ j.spot = s
  | .group js, s => (∃ a, alongOf js = some a ∧ Spans a js s) ∨ alongOf js = none ∧ ∃ j ∈ js, j.HasFormula ∧ j.spot = s

theorem mem_spots_statements (h : statements names t = .ok ss)
    (hgroup : ∀ js, t = .group js → ∀ a, alongOf js = some a → Aligned a js) (s : Spot) :
    s ∈ ss.flatMap Statement.spots ↔ t.Assigns s := by
  cases t with
  | cell j => exact spots_setting h s
  | group js =>
    dsimp only [statements] at h
    rw [← alongOf] at h
    cases ha : alongOf js with
    | some a =>
      rw [ha] at h
      obtain ⟨l, hl, h⟩ := of_bind h
      cases h
      have hspots : [Statement.loop l, .gap].flatMap Statement.spots = (Statement.loop l).spots := append_nil _
      rw [hspots, mem_spots_loop hl (hgroup js rfl a ha)]
      simp [Step.Assigns, ha]
    | none =>
      rw [ha] at h
      obtain ⟨ss, hss, h⟩ := of_bind h
      cases h
      rw [flatMap_append, flatMap_singleton, Statement.spots, append_nil,
        exists_flatMap_flatMapM_iff hss fun j _ x hx c => spots_setting hx c]
      simp [Step.Assigns, ha]

/-! The cells of a script -/

def rowSpot (sheet : String) (r : Record) : Spot :=
  ⟨sheet, (wholeOf r "Row").toOption.getD 0, (wholeOf r "Col").toOption.getD 0⟩

/-- The cells with a formula that is used: calculations and outputs that are not left out. -/
def Calculated (sheets : List (String × List Record)) (s : Spot) : Prop :=
  ∃ x ∈ sheets, ∃ r ∈ x.2, isCalculated r ∧ (r.get "Formula").truthy ∧ rowSpot x.1 r = s

theorem ofRecord_eq_ok {sheet : String} {r : Record} (h : Job.ofRecord sheet r = .ok j) :
    j.record = r ∧ j.name.sheet = sheet := by
  obtain ⟨cell, references, -, -, h⟩ := of_bind₂ h
  obtain ⟨group, -, h⟩ := of_bind h
  cases h
  exact ⟨rfl, rfl⟩

theorem calculated_iff {sheets : List (String × List Record)} (h : jobs sheets = .ok js) (s : Spot) :
    Calculated sheets s ↔ ∃ j ∈ js, j.HasFormula ∧ j.spot = s := by
  obtain ⟨-, -, h⟩ := of_bind h
  obtain ⟨jss, hall, rfl⟩ := flatMapM_eq_ok h
  have hsame : ∀ {sheet r j}, Job.ofRecord sheet r = .ok j →
      (j.HasFormula ↔ (r.get "Formula").truthy) ∧ j.spot = rowSpot sheet r := by
    intro sheet r j hj
    obtain ⟨rfl, rfl⟩ := ofRecord_eq_ok hj
    exact ⟨Iff.rfl, rfl⟩
  constructor
  · rintro ⟨x, hx, r, hr, hused, hformula, rfl⟩
    obtain ⟨js, hjs, hxjs⟩ := exists_of_mem_left hall hx
    obtain ⟨j, hj, hrj⟩ := exists_of_mem_left (mapM_eq_ok_iff.1 hxjs) (mem_filter.2 ⟨hr, hused⟩)
    exact ⟨j, mem_flatten.2 ⟨js, hjs, hj⟩, (hsame hrj).1.2 hformula, (hsame hrj).2⟩
  · rintro ⟨j, hj, hformula, rfl⟩
    obtain ⟨js, hjs, hj⟩ := mem_flatten.1 hj
    obtain ⟨x, hx, hxjs⟩ := exists_of_mem_right hall hjs
    obtain ⟨r, hr, hrj⟩ := exists_of_mem_right (mapM_eq_ok_iff.1 hxjs) hj
    obtain ⟨hr, hused⟩ := mem_filter.1 hr
    exact ⟨x, hx, r, hr, hused, (hsame hrj).1.1 hformula, (hsame hrj).2.symm⟩

section

variable (h : Listed js) {j : Job}

include h

theorem mem_steps_iff : t ∈ steps js ↔ ∃ c ∈ unitComponents js, t ∈ componentSteps (units js) js c := by
  simp only [steps, mem_flatMap, (components_perm h).mem_iff]

/-- The formulas of a group that is on no cycle are one step, and all others are steps of their own. -/
theorem group_of_mem_steps {js' : List Job} (ht : .group js' ∈ steps js) :
    ∃ u ∈ units js, u.isGroup ∧ ¬ TransGen (UnitNeeds js) u u ∧ u.jobs = js' := by
  obtain ⟨c, hc, ht⟩ := (mem_steps_iff h).1 ht
  rw [componentSteps] at ht
  split at ht
  · next u hmembers =>
    have hu : u ∈ members (units js) c := hmembers ▸ mem_singleton_self u
    have hid : c = [u.id] := by rw [← map_id_members h hc, hmembers]; rfl
    have huu := ((mem_members h).1 hu).1
    split at ht
    · next hgroup =>
      cases mem_singleton.1 ht
      exact ⟨u, huu, hgroup, acyclic_of_component h huu (hid ▸ hc), rfl⟩
    · simp at ht
  · simp [loosened] at ht

theorem group_mem_steps {u : Batch} (hu : u ∈ units js) (hg : u.isGroup)
    (acyclic : ¬ TransGen (UnitNeeds js) u u) : .group u.jobs ∈ steps js := by
  obtain ⟨c, hc, hid⟩ := exists_component h hu
  have e := component_of_acyclic h hc hu hid acyclic
  refine (mem_steps_iff h).2 ⟨c, hc, ?_⟩
  rw [e, componentSteps_alone h hu, if_pos hg]
  exact mem_singleton_self _

theorem exists_step (hj : j ∈ js) : ∃ t ∈ steps js, j ∈ t.evaluation :=
  mem_flatMap.1 ((evaluation_steps_perm h).mem_iff.2 hj)

theorem mem_of_cell_mem_steps (ht : .cell j ∈ steps js) : j ∈ js :=
  (evaluation_steps_perm h).mem_iff.1 (mem_flatMap.2 ⟨_, ht, mem_singleton_self j⟩)

end

theorem Step.assigns_of_mem (hj : j ∈ t.evaluation) (hformula : j.HasFormula) : t.Assigns j.spot := by
  cases t with
  | cell i =>
    cases mem_singleton.1 hj
    exact ⟨hformula, rfl⟩
  | group js =>
    have hj : j ∈ js := (Step.group js).evaluation_perm.mem_iff.1 hj
    cases ha : alongOf js with
    | none => exact .inr ⟨ha, j, hj, hformula, rfl⟩
    | some a => exact .inl ⟨a, ha, j, hj, j, hj, j.place a, le_rfl, le_rfl, (j.spot_eq a).symm⟩

theorem statements_of_program {l : Listing} {fromTables : Bool} {p : Program}
    (hjobs : jobs l.sheets = .ok js) (hp : program l fromTables = .ok p) :
    (steps js).flatMapM (statements l.names) = .ok p.statements := by
  obtain ⟨plan, hplan, hp⟩ := of_bind hp
  obtain ⟨js', hjobs', hplan⟩ := of_bind hplan
  cases hjobs.symm.trans hjobs'
  obtain ⟨-, -, hplan⟩ := of_bind hplan
  cases hplan
  obtain ⟨constants, ss, -, hss, hp⟩ := of_bind₂ hp
  obtain ⟨looks, -, hp⟩ := of_bind hp
  cases hp
  exact hss

/-- A script assigns the cell of every formula that is used. It assigns no other cell exactly if all
that a group spans, from its first to its last formula, are such cells too; a group whose units need
one another is taken apart, and spans nothing. What the statements assign is what carrying them out
sets. -/
theorem spots_program_iff (l : Listing) (fromTables : Bool) (js : List Job) (p : Program)
    (hjobs : jobs l.sheets = .ok js) (h : Listed js)
    (aligned : ∀ u ∈ units js, u.isGroup → ∀ a, alongOf u.jobs = some a → Aligned a u.jobs)
    (hp : program l fromTables = .ok p) :
    (∀ s, Calculated l.sheets s → s ∈ p.spots) ∧ ((∀ s ∈ p.spots, Calculated l.sheets s) ↔
        ∀ u ∈ units js, u.isGroup → ¬ TransGen (UnitNeeds js) u u → ∀ a, alongOf u.jobs = some a →
          ∀ s, Spans a u.jobs s → Calculated l.sheets s) ∧
      ∀ as, p.statements.flatMapM Statement.actions = .ok as → as.flatMap Action.spots = p.spots := by
  have hspots : ∀ s, s ∈ p.spots ↔ ∃ t ∈ steps js, t.Assigns s := by
    refine exists_flatMap_flatMapM_iff (statements_of_program hjobs hp) fun t ht x hx =>
      mem_spots_statements hx ?_
    rintro js' rfl a ha
    obtain ⟨u, hu, hg, -, rfl⟩ := group_of_mem_steps h ht
    exact aligned u hu hg a ha
  simp only [calculated_iff hjobs, hspots]
  refine ⟨?_, ⟨fun hall u hu hg acyclic a ha s hs => ?_, ?_⟩, fun as has => ?_⟩
  · rintro s ⟨j, hj, hformula, rfl⟩
    obtain ⟨t, ht, hjt⟩ := exists_step h hj
    exact ⟨t, ht, t.assigns_of_mem hjt hformula⟩
  · exact hall s ⟨_, group_mem_steps h hu hg acyclic, .inl ⟨a, ha, hs⟩⟩
  · rintro hspans s ⟨t, ht, hs⟩
    cases t with
    | cell j => exact ⟨j, mem_of_cell_mem_steps h ht, hs⟩
    | group js' =>
      obtain ⟨u, hu, hg, acyclic, rfl⟩ := group_of_mem_steps h ht
      rcases hs with ⟨a, ha, hs⟩ | ⟨-, j, hj, hs⟩
      · exact hspans u hu hg acyclic a ha s hs
      · exact ⟨j, (mem_units_iff h).2 ⟨u, hu, hj⟩, hs⟩
  · obtain ⟨ass, hall, rfl⟩ := flatMapM_eq_ok has
    rw [Program.spots]
    generalize p.statements = ss at hall
    clear * - hall
    induction hall with
    | nil => rfl
    | cons hx _ ih => rw [flatten_cons, flatMap_append, spots_actions hx, ih, flatMap_cons]

/-- A row of the first column that is left out. -/
def leftOutRow (cell : String) (row : Int) (formula references : String) : Record where
  fields := (columnRow cell row formula references).fields ++ [.text "IncludeFlag"]
  values := (columnRow cell row formula references).values ++ [.bool false]

/-- Three formulas of a group, of which the middle one is left out. -/
def leftOutListing : Listing where
  sheets := [("S", [columnRow "A1" 1 "=B1*2" "B1", leftOutRow "A2" 2 "=B2*2" "B2", columnRow "A3" 3 "=B3*2" "B3"])]
  names := []

def leftOutJobs : List Job :=
  [⟨⟨"S", "A1"⟩, [⟨"S", "B1"⟩], some "1", columnRow "A1" 1 "=B1*2" "B1"⟩,
    ⟨⟨"S", "A3"⟩, [⟨"S", "B3"⟩], some "1", columnRow "A3" 3 "=B3*2" "B3"⟩]

theorem forall_leftOutJobs {P : Job → Prop} (upper : P leftOutJobs[0]) (lower : P leftOutJobs[1]) :
    ∀ j ∈ leftOutJobs, P j := by
  intro j hj
  rcases mem_pair.1 hj with rfl | rfl
  · exact upper
  · exact lower

theorem units_leftOutJobs : units leftOutJobs = [⟨"g1", leftOutJobs⟩] := rfl

theorem steps_leftOutJobs : steps leftOutJobs = [.group leftOutJobs] := by cbv

theorem loop_leftOutJobs : ∃ l, loop [] .col leftOutJobs = .ok l := by
  have hsorted : [((1 : Int), leftOutJobs[0]), ((3 : Int), leftOutJobs[1])].mergeSort (fun a b => a.1 ≤ b.1) =
      [((1 : Int), leftOutJobs[0]), ((3 : Int), leftOutJobs[1])] := mergeSort_of_pairwise (by simp)
  have hplaces : leftOutJobs.mapM (fun j => return (← wholeOf j.record Axis.col.coordinate, j)) =
      (.ok [((1 : Int), leftOutJobs[0]), ((3 : Int), leftOutJobs[1])] : Outcome _) := rfl
  refine ⟨⟨.col, "S", 1, 1, 3, "", some (expressionOf ⟨"S", 1, 1, some .col⟩ "B1*2")⟩, ?_⟩
  rw [loop, hplaces]
  dsimp only [bind, Except.bind]
  rw [hsorted]
  rfl

theorem exists_program_leftOutListing : ∃ p, program leftOutListing false = .ok p := by
  have hplan : evaluationOrder leftOutListing.sheets = .ok [.group leftOutJobs] := by
    rw [← steps_leftOutJobs]
    rfl
  obtain ⟨l, hl⟩ := loop_leftOutJobs
  have hstatements : statements [] (.group leftOutJobs) = .ok [.loop l, .gap] := by
    change (do return [Statement.loop (← loop [] .col leftOutJobs), .gap]) = _
    rw [hl]
    rfl
  refine ⟨⟨["S"], [.loop l, .gap], [], none⟩, ?_⟩
  rw [program, hplan]
  change (do let ss ← [Step.group leftOutJobs].flatMapM (statements []); _) = _
  rw [flatMapM, flatMapM.loop, hstatements]
  rfl

/-- Their loop runs over the cell between. -/
theorem spots_leftOutListing : ∃ p, program leftOutListing false = .ok p ∧
    (∀ s, Calculated leftOutListing.sheets s → s ∈ p.spots) ∧
      ¬ Calculated leftOutListing.sheets ⟨"S", 2, 1⟩ ∧ ¬ ∀ s ∈ p.spots, Calculated leftOutListing.sheets s := by
  obtain ⟨p, hp⟩ := exists_program_leftOutListing
  have hjobs : jobs leftOutListing.sheets = .ok leftOutJobs := rfl
  have listed : Listed leftOutJobs := ⟨by decide, forall_leftOutJobs (by decide) (by decide)⟩
  have along : alongOf leftOutJobs = some .col := rfl
  have aligned : Aligned .col leftOutJobs :=
    ⟨forall_leftOutJobs rfl rfl, forall_leftOutJobs (forall_leftOutJobs rfl rfl) (forall_leftOutJobs rfl rfl),
      forall_leftOutJobs (forall_leftOutJobs rfl rfl) (forall_leftOutJobs rfl rfl)⟩
  have alone := not_transGen_of_singleton units_leftOutJobs
  have spans : Spans .col leftOutJobs ⟨"S", 2, 1⟩ :=
    ⟨_, mem_cons_self, _, mem_cons_of_mem _ mem_cons_self, 2, by decide, by decide, rfl⟩
  have between : ¬ Calculated leftOutListing.sheets ⟨"S", 2, 1⟩ := by
    rw [calculated_iff hjobs]
    rintro ⟨j, hj, -, hspot⟩
    revert hspot
    exact forall_leftOutJobs (P := fun j => j.spot ≠ ⟨"S", 2, 1⟩) (by decide) (by decide) j hj
  obtain ⟨all, only, -⟩ := spots_program_iff leftOutListing false leftOutJobs p hjobs listed (by
    intro u hu hg a ha
    cases mem_singleton.1 (units_leftOutJobs ▸ hu)
    cases along.symm.trans ha
    exact aligned) hp
  refine ⟨p, hp, all, between, fun hall => between ?_⟩
  exact only.1 hall _ (units_leftOutJobs ▸ mem_singleton_self _) rfl alone .col along _ spans

end Sheetwork.Plan
