import Std.Data.TreeSet.Basic
import Sheetwork.Model.Blueprint
import Sheetwork.Model.Context
import Sheetwork.Vector.Group
/-
  Models: groups of sums. A dragged sum over a rectangle at fixed offsets is computed for all its cells at once:
  offset by offset, the values that far from each cell are added to its total.
-/

namespace Sheetwork.Model

structure Offsets where
  (row col endRow endCol : Int)

namespace Offsets

open Text.Pattern in
/-- A sum over one rectangle whose corners are both relative. -/
def pattern : Text.Pattern :=
  let number (n : Nat) := chr '[' ++ cap n (opt (chr '-') ++ plus digit) ++ chr ']'
  let corner (n : Nat) := chr 'R' ++ number n ++ chr 'C' ++ number (n + 1)
  lit "=SUM(" ++ corner 1 ++ chr ':' ++ corner 3 ++ chr ')' ++ finish

def ofPattern? (s : String) : Option Offsets := do
  let m ← pattern.begin? s
  let number (n : Nat) := Number.int? (m.group n)
  pure ⟨← number 1, ← number 2, ← number 3, ← number 4⟩

variable (o : Offsets)

def rows : List Int := Context.span (min o.row o.endRow) (max o.row o.endRow)

def cols : List Int := Context.span (min o.col o.endCol) (max o.col o.endCol)

def steps : List Slot := o.rows.flatMap fun r => o.cols.map fun c => ⟨r, c⟩

end Offsets

abbrev SlotSet := Std.TreeSet Slot

def SlotSet.add (m : SlotSet) (slots : List Slot) : SlotSet := slots.foldl (fun m s => m.insert s) m

structure SumGroup where
  id : Value
  sheet : String
  offsets : Offsets
  /-- The cells of the group row by row. -/
  slots : List Slot

def Blueprint.formulas (b : Blueprint) : List Entry :=
  b.order.flatMap fun name => (b.entriesOf name).filter fun e => !e.formula.isNull

namespace SumGroup

variable (g : SumGroup)

def corner : Slot := ⟨((g.slots.map Slot.row).min?).getD 0, ((g.slots.map Slot.col).min?).getD 0⟩

def add (e : Entry) (o : Offsets) : List SumGroup → List SumGroup
  | [] => [⟨e.group, e.sheet.toText, o, [e.slot]⟩]
  | g :: r =>
    if g.id == e.group then { g with slots := g.slots ++ [e.slot] } :: r else g :: add e o r

def gather (gs : List SumGroup) (e : Entry) : List SumGroup :=
  match e.group.truthy, e.pattern.text?.bind Offsets.ofPattern? with
  | true, some o => add e o gs
  | _, _ => gs

def ofBlueprint (b : Blueprint) : List (String × List SumGroup) :=
  let groups := (b.formulas.foldl gather []).map fun g => { g with slots := Ordered.sortOn (fun s => s) g.slots }
  (bucketBy SumGroup.sheet groups).map fun (name, gs) => (name, Ordered.sortOn corner gs)

/-- Whether the group uses a formula that is neither computed nor its own. -/
def isBlocked (formulas done : SlotSet) : Bool :=
  let own := SlotSet.add ∅ g.slots
  g.offsets.steps.any fun d => g.slots.any fun s =>
    let t := s.shift d
    formulas.contains t && !done.contains t && !own.contains t

def infinityNames : List String := ["", "+", "-"].flatMap fun mark => ["inf", "infinity"].map (mark ++ ·)

/-- The number that a text counts as: its characters are plain, its number is finite or an infinity
that stands alone. -/
def countedText (s : String) : Float :=
  if s.toList.any fun c => c = '_' || 127 < c.toNat then 0.0
  else
    let x := (Number.float? s).getD 0.0
    if x.isInf && !infinityNames.contains (Text.lower s) then 0.0 else x

/-- The number that a cell counts as: texts that write one count, everything else is zero. -/
def counted (v : Value) : Float :=
  let x := match v with
    | .int n => Number.ofInt n
    | .float x => x
    | .bool b => if b then 1.0 else 0.0
    | .text s => countedText s
    | _ => 0.0
  if x.isNaN then 0.0 else x

def countedAt (s : Sheet) (p : Slot) : Float := if 1 ≤ p.row && 1 ≤ p.col then counted (s.value p.position) else 0.0

def total (s : Sheet) (p : Slot) : Float :=
  g.offsets.steps.foldl (fun t d => t + countedAt s (p.shift d)) 0.0

def totals (s : Sheet) : List Float := g.slots.map (g.total s)

/-- A total as a cell takes it: whole if it is next to a whole number. -/
def settled (x : Float) : Outcome Value :=
  if x.isNaN then .ok .null
  else match Number.roundEven? x with
    | none => .error .tooLarge
    | some n => .ok (if (x - Number.ofInt n).abs < 1e-12 then .int n else .float x)

def settledValue (v : Value) : Outcome Value := do settled (← v.toFloat)

def document : Value :=
  let o := g.offsets
  .list [g.id, toValue [o.row, o.col, o.endRow, o.endCol], toValue (g.slots.map fun s => [s.row, s.col])]

def listing (gs : List (String × List SumGroup)) : Value :=
  .list (gs.map fun (s, gs) => .list [s, .list (gs.map document)])

end SumGroup

end Sheetwork.Model
