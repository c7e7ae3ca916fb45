import Sheetwork.Model.Structured
import Sheetwork.Model.Sums
/-
  Models: calculation from edited inputs. Formulas keep the values they had; if an included input has changed, the
  groups of sums are computed anew: first each as soon as what it uses is known, then all of them a few times over.
-/

namespace Sheetwork.Model

/-- Numbers are alike if they are close; anything else if it is equal. -/
def alike (a b : Value) : Outcome Bool :=
  if a.isNumber && b.isNumber then do
    pure (Number.isClose 1e-9 1e-9 (← a.toFloat) (← b.toFloat))
  else .ok (a == b)

structure Tally where
  groups : Nat := 0
  cells : Nat := 0
  /-- Cells that kept the value they had. -/
  kept : Nat := 0

def Tally.document (t : Tally) : Value :=
  .record [("vectorized_groups", toValue t.groups), ("vectorized_cells", toValue t.cells),
    ("xlcalculator_cells", .int 0), ("formulas_cells", .int 0),
    ("static_fallback_cells", toValue t.kept)]

namespace Calculation

/-- Puts the value that a formula had into its cell. -/
def keep (w : Workbook) (e : Entry) : Outcome Workbook := do
  let s ← Fault.missingKey.ifNone (w.sheets.find? fun s => .text s.name == e.sheet)
  pure (w.putSheet (← s.put (← e.position) e.value))

def hasChange (b : Blueprint) (o : Overrides) : Outcome Bool := do
  let changed (name : String) (e : Entry) := do
    let given := match e.cell with
      | .text a => o[(CellName.mk name a)]?
      | _ => none
    pure !(← alike (given.getD e.value) e.value)
  let check (found : Bool) (p : String × Entry) :=
      if found then pure true else changed p.1 p.2
  (b.order.flatMap fun name =>
    ((b.entriesOf name).filter fun e => e.isInput && e.included).map fun e => (name, e)).foldlM check false

structure Waiting where
  sheet : String
  done : SlotSet := ∅
  groups : List SumGroup

def putSlot (s : Sheet) (p : Slot) (v : Value) : Outcome Sheet :=
  if 1 ≤ p.row && 1 ≤ p.col then s.put p.position v else .error .badValue

def putTotals (before : Sheet) (s : Sheet) (g : SumGroup) : Outcome Sheet :=
  (g.slots.zip (g.totals before)).foldlM (fun s (p, x) => do putSlot s p (← SumGroup.settled x)) s

/-- Computes a group whose precedents are known from the values that the round began with; any other
waits. -/
def tryGroup (formulas : SlotSet) (before : Sheet) (acc : Sheet × Waiting × Tally) (g : SumGroup) :
    Outcome (Sheet × Waiting × Tally) := do
  let (s, u, t) := acc
  if g.isBlocked formulas u.done then pure (s, { u with groups := u.groups ++ [g] }, t)
  else
    pure (← putTotals before s g, { u with done := u.done.add g.slots },
      { t with groups := t.groups + 1, cells := t.cells + g.slots.length })

def round (formulas : SlotSet) (before : Sheet) (u : Waiting) : Outcome (Sheet × Waiting × Tally) :=
  u.groups.foldlM (tryGroup formulas before) (before, { u with groups := [] }, {})

variable (formulas : List (String × SlotSet))

def roundOn (acc : Workbook × List Waiting × Tally) (u : Waiting) : Outcome (Workbook × List Waiting × Tally) := do
  let (w, us, t) := acc
  match w.sheet? u.sheet with
  | none => pure (w, us ++ [u], t)
  | some s =>
    let known := ((formulas.find? (·.1 = u.sheet)).map (·.2)).getD ∅
    let (s, v, n) ← round known s u
    pure (w.putSheet s, us ++ [v], { t with groups := t.groups + n.groups, cells := t.cells + n.cells })

def rounds (w : Workbook) (us : List Waiting) : Outcome (Workbook × List Waiting × Tally) :=
  us.foldlM (roundOn formulas) (w, [], {})

/-- Rounds until one computes nothing; every round but the last takes a group off. -/
def settle (formulas : List (String × SlotSet)) : Nat → Workbook → List Waiting → Tally →
    Outcome (Workbook × List Waiting × Tally)
  | 0, w, us, t => .ok (w, us, t)
  | n + 1, w, us, t => do
    let (w, us, more) ← rounds formulas w us
    if more.groups = 0 then pure (w, us, t)
    else settle formulas n w us { t with groups := t.groups + more.groups, cells := t.cells + more.cells }

/-- Writes a total where it differs from what is there; says whether a value changed. -/
def refreshCell (acc : Sheet × Bool) (x : Slot × Float) : Outcome (Sheet × Bool) := do
  let v ← SumGroup.settled x.2
  if acc.1.value x.1.position == v then pure acc else pure (← putSlot acc.1 x.1 v, true)

def refreshSheet (before : Sheet) (gs : List SumGroup) : Outcome (Sheet × Bool) :=
  gs.foldlM (fun acc g => (g.slots.zip (g.totals before)).foldlM refreshCell acc) (before, false)

def refreshOn (acc : Workbook × Bool) (x : String × List SumGroup) : Outcome (Workbook × Bool) :=
  match acc.1.sheet? x.1 with
  | none => pure acc
  | some s => do
    let (s, changed) ← refreshSheet s x.2
    pure (acc.1.putSheet s, acc.2 || changed)

def refresh (w : Workbook) (groups : List (String × List SumGroup)) : Outcome (Workbook × Bool) :=
  groups.foldlM refreshOn (w, false)

def refreshes : Nat := 4

def refreshAll (groups : List (String × List SumGroup)) : Nat → Workbook → Outcome Workbook
  | 0, w => .ok w
  | n + 1, w => do
    let (w, changed) ← refresh w groups
    if changed then refreshAll groups n w else pure w

def formulaSets (b : Blueprint) : List (String × SlotSet) :=
  (bucketBy (fun e => e.sheet.toText) b.formulas).map fun (name, es) => (name, SlotSet.add ∅ (es.map Entry.slot))

def run (fs : Files) (b : Blueprint) (o : Overrides) : Outcome (Workbook × Tally) := do
  let r : Rebuild := { formulas := false, overrides := o }
  let w ← r.workbook fs b
  let w ← b.formulas.foldlM keep w
  if !(← hasChange b o) then return (w, { kept := b.formulas.length })
  let groups := SumGroup.ofBlueprint b
  let waiting := groups.map fun (name, gs) => Waiting.mk name ∅ gs
  let count := (groups.map fun g => g.2.length).sum
  let (w, waiting, t) ← settle (formulaSets b) (count + 1) w waiting {}
  let isDone (e : Entry) := waiting.any fun u => .text u.sheet == e.sheet && u.done.contains e.slot
  let rest := b.formulas.filter fun e => !isDone e
  let w ← rest.foldlM keep w
  let w ← refreshAll groups refreshes w
  pure (w, { t with kept := rest.length })

def save (fs : Files) (b : Blueprint) (o : Overrides) (output : String) : Outcome (Files × Tally) := do
  let (w, t) ← run fs b o
  pure (← fs.storeIn output w, t)

end Calculation

def calculate (fs : Files) (report inputs output : String) : Outcome Files := do
  let b ← readReport fs report
  let o ← Overrides.ofInputs b (← fs.load inputs).dataOnly
  pure (← Calculation.save fs b o output).1

def calculateStructured (fs : Files) (report inputs output : String) : Outcome Files := do
  let b ← readReport fs report
  let o ← Overrides.ofStructured (← fs.load inputs).dataOnly
  pure (← Calculation.save fs b o output).1

end Sheetwork.Model
