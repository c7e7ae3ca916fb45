import Sheetwork.Lineage.Patterns
import Sheetwork.Value.Convert
/-
  Sampling: the rows of a large region that stand for it. The header and rows with formulas come first, then rows from
  the head, the tail and the middle.

  The middle rows are evenly spaced. The points are computed with 53 significant bits, as quotients of whole numbers:
  the step is rounded, then its multiple, then the sum with the start, and the point is the whole part of the sum.
-/

/-! The regions of a sheet. A region is a run of rows that hold something, as wide
as its first and last column that do; its header is the first of its first five rows that holds
neither a number nor a formula. -/

namespace Sheetwork.Sampling

def between (a b : Nat) : List Nat := (List.range (b + 1 - a)).map (a + ·)

structure Region where
  (minRow maxRow minCol maxCol : Nat)
  header : Option Nat
  deriving DecidableEq

namespace Region

variable (r : Region)

def rowCount : Nat := r.maxRow + 1 - r.minRow

def colCount : Nat := r.maxCol + 1 - r.minCol

def rows : List Nat := between r.minRow r.maxRow

def cols : List Nat := between r.minCol r.maxCol

def nameTo (maxCol : Int) : String :=
  "DataRegion(rows=" ++ Text.ofNat r.minRow ++ "-" ++ Text.ofNat r.maxRow ++ ", cols=" ++
    Text.ofNat r.minCol ++ "-" ++ Text.ofInt maxCol ++ ", header=" ++
    (r.header.elim "None" Text.ofNat) ++ ")"

def name : String := r.nameTo r.maxCol

def headerReach : Nat := 5

def headerRows (minRow maxRow : Nat) : List Nat := between minRow (min (minRow + headerReach - 1) maxRow)

end Region

/-- The runs of consecutive numbers in an ascending list, each by its ends. -/
def spans : List Nat → List (Nat × Nat)
  | [] => []
  | r :: rs =>
    match spans rs with
    | (a, b) :: more => if a = r + 1 then (r, b) :: more else (r, r) :: (a, b) :: more
    | [] => [(r, r)]

def heldCells (s : Sheet) : List (Position × Value) :=
  (s.entries.map fun (p, c) => (p, c.value)).filter fun (_, v) => !v.isNull

variable (cells : List (Position × Value))

def headerOf (minRow maxRow : Nat) : Option Nat :=
  (Region.headerRows minRow maxRow).find? fun r =>
    (cells.filter fun (p, _) => p.row = r).all fun (_, v) => Lineage.canHead v

def regionOf (minRow maxRow : Nat) : Region :=
  let cols := cells.map fun (p, _) => p.col
  let first := cols.headD 1
  { minRow, maxRow, minCol := cols.foldl min first, maxCol := cols.foldl max first
    header := headerOf cells minRow maxRow }

def regions (s : Sheet) : List Region :=
  let cells := heldCells s
  let rows := Ordered.ofList (cells.map fun (p, _) => p.row)
  (spans rows).map fun (a, b) => regionOf (cells.filter fun (p, _) => a ≤ p.row && p.row ≤ b) a b

structure Quotient where
  (num den : Nat)

namespace Quotient

variable (x : Quotient)

def whole : Nat := x.num / x.den

/-- The exponent that leaves 53 binary digits before the point, or one more. -/
def exponent : Int :=
  let q : Int := (Number.bitLength x.num : Int) - Number.bitLength x.den - 53
  let under : Bool :=
    if 0 ≤ q then x.num < x.den * 2 ^ q.toNat * 2 ^ (53 : Nat) else x.num * 2 ^ (-q).toNat < x.den * 2 ^ (53 : Nat)
  if under then q else q + 1

/-- The nearest quotient with 53 binary digits, a tie going to the even one. -/
def rounded : Quotient :=
  if x.num = 0 then x
  else
    let q := x.exponent
    let (n, d) := Number.ratio (Number.scaledDiv x.num x.den q) q
    ⟨n, d⟩

end Quotient

/-- The `n` inner points of a row of `n + 2` from `start` to `stop`. -/
def spaced (start stop n : Nat) : List Nat :=
  let step := Quotient.rounded ⟨stop - start, n + 1⟩
  (List.range n).map fun i =>
    let run := Quotient.rounded ⟨(i + 1) * step.num, step.den⟩
    (Quotient.rounded ⟨run.num + start * run.den, run.den⟩).whole

def addAll (xs ys : List Nat) : List Nat := xs.foldl (fun ys x => Ordered.insert x ys) ys

def formulaReach : Nat := 500

def addFormulaRows (hasFormula : Nat → Bool) (most : Int) : List Nat → List Nat → List Nat
  | [], picked => picked
  | r :: rs, picked =>
    let picked := if hasFormula r then Ordered.insert r picked else picked
    if most ≤ (picked.length : Int) then picked else addFormulaRows hasFormula most rs picked

def addUpTo (most : Int) : List Nat → List Nat → List Nat
  | [], picked => picked
  | r :: rs, picked =>
    if (picked.length : Int) < most then addUpTo most rs (Ordered.insert r picked) else picked

def stepped (start stop step : Nat) : List Nat :=
  ((List.range ((stop - start) / step + 1)).map fun i => start + (i + 1) * step).filter (· < stop)

variable (reg : Region)

def dataStart : Nat := reg.header.getD reg.minRow + 1

variable (hasFormula : Nat → Bool)

/-- At most `most` rows of a region, all of them if they are no more: the header and formula
rows up to half, then a third of what is left each from the head and the tail, and the rest
from the middle. -/
def pickRows (most : Int) : List Nat :=
  if (reg.rowCount : Int) ≤ most then reg.rows
  else
    let start := dataStart reg
    let stop := reg.maxRow
    let scanned := between reg.minRow (min stop (reg.minRow + formulaReach))
    let picked := addFormulaRows hasFormula (most.fdiv 2) scanned reg.header.toList
    let left : Int := most - picked.length
    let third := left.fdiv 3
    let middle := left - third - third
    let picked := addAll (between start (min ((start : Int) + third - 1) stop).toNat) picked
    let picked := addAll (between (max ((stop : Int) - third + 1) start).toNat stop) picked
    if 0 < middle && start < stop then
      addUpTo most (stepped start stop (max 1 (((stop - start : Nat) : Int).fdiv (middle + 1)).toNat)) picked
    else picked

/-- How many rows are always taken after the header, and how many from the end. -/
def edgeRows : Nat := 5

def smallRegion : Nat := 3

/-- At most `most` rows of a region, all of them if they are no more: the header, formula rows up to
half, five rows from either end, and evenly spaced rows for the rest. -/
def spreadRows (most : Int) : List Nat :=
  if (reg.rowCount : Int) ≤ most then reg.rows
  else
    let start := dataStart reg
    let stop := reg.maxRow
    let picked := addAll (Value.slice (reg.rows.filter hasFormula) none (some (most.fdiv 2))) reg.header.toList
    let picked := addAll (between start (min (start + edgeRows - 1) stop)) picked
    let picked := addAll (between (max (stop + 1 - edgeRows) start) stop) picked
    let left : Int := most - picked.length
    let picked :=
        if 0 < left && start < stop then addAll (spaced start stop left.toNat) picked else picked
    Value.slice picked none (some most)

def spreadOrWhole (most : Int) : List Nat :=
  if reg.rowCount ≤ smallRegion then reg.rows else spreadRows reg hasFormula most

def firstFrom (a b : Nat) (count : Int) : List Nat := (List.range (min count.toNat (b + 1 - a))).map (a + ·)

/-- The header and the rows after it, `budget` rows in all; without a header the first rows. -/
def headRows (budget : Int) : List Nat :=
  let start := (reg.header.map (· + 1)).getD reg.minRow
  addAll (firstFrom start reg.maxRow (budget - reg.header.toList.length)) reg.header.toList

def headCols (budget : Int) : List Nat := firstFrom reg.minCol reg.maxCol budget

end Sheetwork.Sampling

/-! Sharing a budget among regions in proportion to their sizes. Every region gets
a least share; what is too much is trimmed from the smallest regions on, what is left goes to the
largest, and no region gets more than its size. -/

namespace Sheetwork.Sampling.Budget

def floorShare (total budget size : Nat) : Nat :=
  (Float.ofNat size / Float.ofNat total * Float.ofNat budget).floor.toUInt64.toNat

/-- The places of a list in an order of their sizes, equal sizes in their order. -/
def bySize (le : Nat → Nat → Bool) (sizes : List Nat) : List Nat :=
  (sizes.zipIdx.mergeSort fun a b => le a.1 b.1).map (·.2)

/-- One pass of trimming: takes one from each share above one, in the given order, until the sum
is the budget. -/
def trimPass (budget : Nat) : List Nat → List Nat → List Nat
  | [], shares => shares
  | i :: is, shares =>
    if shares.sum ≤ budget then shares
    else trimPass budget is (if 1 < shares.getD i 0 then shares.set i (shares.getD i 0 - 1) else shares)

/-- Trims pass by pass; nothing if a pass trims nothing and the sum is still above the budget, for
then trimming has no end. -/
def trim (budget : Nat) (order : List Nat) : Nat → List Nat → Option (List Nat)
  | 0, shares => if shares.sum ≤ budget then some shares else none
  | passes + 1, shares =>
    if shares.sum ≤ budget then some shares
    else
      let next := trimPass budget order shares
      if next.sum < shares.sum then trim budget order passes next else none

/-- Adds one to the shares in the given order while there is something left. -/
def handOut : Nat → List Nat → List Nat → List Nat
  | _, [], shares => shares
  | 0, _, shares => shares
  | left + 1, i :: is, shares => handOut left is (shares.set i (shares.getD i 0 + 1))

def leastShare (budget count : Nat) : Nat := if 2 * count ≤ budget then 2 else 1

def balanced (floors sizes : List Nat) (budget : Nat) : Option (List Nat) :=
  let first := floors.map (max · (leastShare budget sizes.length))
  if first.sum ≤ budget then some first
  else
    let shares := floors.map (max · 1)
    trim budget (bySize (· ≤ ·) sizes) shares.sum shares

/-- Shares a budget, given the proportional shares rounded down. -/
def share (floors sizes : List Nat) (budget : Nat) : Option (List Nat) :=
  (balanced floors sizes budget).map fun shares =>
    (handOut (budget - shares.sum) (bySize (· ≥ ·) sizes) shares).zipWith min sizes

/-- Shares a budget among regions of the given sizes; nothing if that has no end. -/
def allocate (sizes : List Nat) (budget : Nat) : Option (List Nat) :=
  if sizes.sum = 0 then some (sizes.map fun _ => 0)
  else share (sizes.map (floorShare sizes.sum budget)) sizes budget

end Sheetwork.Sampling.Budget
