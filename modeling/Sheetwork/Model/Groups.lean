import Sheetwork.Model.Blueprint
import Sheetwork.Model.ValueText
import Sheetwork.Vector.Group
/-
  Models: what formulas refer to and which are dragged copies. A formula that another one uses is a calculation, the
  others are outputs. Formulas of one sheet with one canonical text are cut into horizontal runs, what is left into
  vertical runs, and what is left then is a block if it has as many cells as its rows and columns meet in.
-/

/-! Dragged formulas. Dragging a formula moves the free coordinates of its
references and leaves the fixed ones; lines of cells are written as the formula of the first cell. -/

namespace Sheetwork.Model

open Formula

namespace Spot

def marked (fixed : Bool) (s : String) : String := if fixed then "$" ++ s else s

def text (p : Spot) : String := marked p.colFixed (Column.name p.col) ++ marked p.rowFixed (Text.ofInt p.row)

def moved (rows cols : Nat) (p : Spot) : Spot :=
  { p with row := if p.rowFixed then p.row else p.row + rows
           col := if p.colFixed then p.col else p.col + cols }

end Spot

def movedPart (rows cols : Nat) (part : String) : String :=
  ((spot? part.toList).map fun p => (p.moved rows cols).text).getD part

def movedReference (rows cols : Nat) (token : String) : String :=
  let (sheet, ref) := match Text.cutLast? '!' token with
    | some (s, r) => (s ++ "!", r)
    | none => ("", token)
  sheet ++ Text.join ":" ((Text.split ":" ref).map (movedPart rows cols))

def drag (formula : String) (rows cols : Nat) : Outcome String := do
  let ts ← Lexeme.all formula
  pure ("=" ++ String.join (ts.map fun t => if t.isRange then movedReference rows cols t.text else t.text))

/-- Lines of cells with the formula of the first one. -/
structure Dragged where
  (cells formula : String)

namespace Dragged

variable (d : Dragged)

def areas? : Option (List Area) := (Text.split "," d.cells).mapM Address.area?

def formulaIn (areas : List Area) (p : Position) : Outcome String := do
  let first ← Fault.badValue.ifNone areas.head?
  drag d.formula (p.row - first.minRow) (p.col - first.minCol)

def formulaAt? (p : Position) : Option (Outcome String) :=
  d.areas?.bind fun areas => if areas.any (·.contains p) then some (d.formulaIn areas p) else none

def expand : Outcome (List (Position × String)) := do
  let areas ← Fault.badValue.ifNone d.areas?
  (areas.flatMap Area.positions).mapM fun p => do pure (p, ← d.formulaIn areas p)

end Dragged

structure SheetSlot where
  sheet : String
  slot : Slot
  deriving DecidableEq, Hashable

/-! Inputs, calculations and outputs -/

variable (sheets : List (String × List Entry))

def formulaSlots : List (String × List Slot) :=
  sheets.filterMap fun (name, es) =>
    match es.filter (·.formula.truthy) with
    | [] => none
    | fs => some (name, fs.map Entry.slot)

def usedBy (formulas : List (String × List Slot)) (sheet : String) (e : Entry) : Outcome (List SheetSlot) := do
  let refs ← references (e.formula.text?.getD "") sheet
  let found ← refs.mapM fun (target, ref) =>
    match formulas.find? (·.1 = target) with
    | none => pure []
    | some (_, slots) => do
      let b ← bounds ref
      let other (s : Slot) := !(target = sheet && s = e.slot)
      pure ((slots.filter fun s => other s && inBounds s.row s.col b).map (SheetSlot.mk target ·))
  pure found.flatten

def classify : Outcome (List (String × List Entry)) := do
  let formulas := formulaSlots sheets
  let used ← sheets.mapM fun (name, es) => (es.filter (·.formula.truthy)).mapM (usedBy formulas name)
  let used : Std.HashMap SheetSlot Unit := used.flatten.flatten.foldl (fun m s => m.insert s ()) ∅
  let kind (name : String) (e : Entry) :=
    if !e.formula.truthy then Entry.inputKind
    else if used.contains ⟨name, e.slot⟩ then Entry.calculationKind
    else Entry.outputKind
  pure (sheets.map fun (name, es) => (name, es.map fun e => { e with kind := kind name e }))

/-! Groups -/

inductive Direction where
  | horizontal | vertical | block

def Direction.name : Direction → String
  | horizontal => "Horizontal"
  | vertical => "Vertical"
  | block => "Block"

structure Group where
  direction : Direction
  slots : List Slot

namespace Group

def rightOf (a b : Slot) : Bool := a.row = b.row && b.col = a.col + 1

def below (a b : Slot) : Bool := a.col = b.col && b.row = a.row + 1

variable (slots : List Slot)

def horizontalRuns : List (List Slot) :=
  (runs rightOf (Ordered.sortOn id slots)).filter fun r => 1 < r.length

def verticalRuns : List (List Slot) :=
  (runs below (Ordered.sortOn (fun s => Slot.mk s.col s.row) slots)).filter fun r => 1 < r.length

def isBlock : Bool :=
  1 < slots.length && slots.length =
      (Ordered.ofList (slots.map Slot.row)).length * (Ordered.ofList (slots.map Slot.col)).length

def without (rs : List (List Slot)) : List Slot := slots.filter fun s => !rs.any (·.contains s)

def split : List Group :=
  let across := horizontalRuns slots
  let rest := without slots across
  let down := verticalRuns rest
  let rest := without rest down
  across.map (⟨.horizontal, ·⟩) ++ down.map (⟨.vertical, ·⟩) ++
    if isBlock rest then [⟨.block, rest⟩] else []

def idOf (n : Nat) : String := "G" ++ Text.padLeft 6 '0' (Text.ofNat n)

end Group

def withPattern (sheet : String) (e : Entry) : Outcome Entry := do
  if !(← e.hasFormulaText) then pure e
  else
    let s ← canonical (e.formula.text?.getD "") sheet e.row e.col
    pure { e with pattern := .text s }

/-- The groups of all sheets, one canonical formula of one sheet after the other. -/
def groupsOf : List (String × Group) :=
  let formulas := sheets.flatMap fun (name, es) =>
    es.filterMap fun e => e.pattern.text?.map fun p => ((name, p), e.slot)
  (bucketBy (·.1) formulas).flatMap fun (k, fs) => (Group.split (fs.map (·.2))).map fun g => (k.1, g)

def assignGroups : Outcome (List (String × List Entry)) := do
  let sheets ← sheets.mapM fun (name, es) => do pure (name, ← es.mapM (withPattern name))
  let numbered := (groupsOf sheets).zipIdx 1
  let index : Std.HashMap SheetSlot (Nat × Group) := numbered.foldl (fun m ((name, g), n) =>
    g.slots.foldl (fun m s => m.insert ⟨name, s⟩ (n, g)) m) ∅
  let note (name : String) (e : Entry) :=
    match index[(SheetSlot.mk name e.slot)]? with
    | none => e
    | some (n, g) =>
      { e with
        group := .text (Group.idOf n), direction := .text g.direction.name
        groupSize := some g.slots.length }
  pure (sheets.map fun (name, es) => (name, es.map (note name)))

end Sheetwork.Model
