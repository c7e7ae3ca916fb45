import Sheetwork.Plan.Functions.Number
/-
  Plans: functions that look things up. A range is the list of its values row by row, without its width; a table is as
  narrow as the wanted column and the number of values allow.
-/

namespace Sheetwork.Plan.Functions

def isCloseTo (a b : Value) : Outcome Bool := do
  pure (Number.isClose 1e-9 0.0 (← a.toFloat) (← b.toFloat))

def divisorFrom (n : Nat) : Nat → Nat → Option Nat
  | 0, _ => none
  | fuel + 1, k => if n < k then none else if n % k = 0 then some k else divisorFrom n fuel (k + 1)

def isApproximate (v : Value) : Outcome Bool := if v.isNumber then do pure ((← v.toInt) != 0) else .ok v.truthy

/-- Keys match as numbers up to rounding, and otherwise as texts in any case. -/
def sameKey (wanted key : Value) : Outcome Bool :=
  if key == wanted then .ok true
  else if key.isNumber && wanted.isNumber then isCloseTo key wanted
  else .ok (Text.lower key.toText == Text.lower wanted.toText)

def sameHeading (wanted key : Value) : Outcome Bool :=
  if key == wanted then .ok true
  else if key.isNumber && wanted.isNumber then isCloseTo key wanted
  else match key, wanted with
    | .text a, .text b => .ok (Text.lower a == Text.lower b)
    | _, _ => .ok false

def firstBeside (test : Value → Outcome Bool) : List (Value × Value) → Outcome Value
  | [] => .ok .null
  | (k, v) :: r => do if ← test k then pure v else firstBeside test r

/-- The result beside the last key of the leading ones that are not above a number. -/
def lastBelow (limit : Float) (best : Value) : List (Value × Value) → Outcome Value
  | [] => .ok best
  | (k, v) :: r => do if (← num k) ≤ limit then lastBelow limit v r else pure best

def findBeside (same : Value → Value → Outcome Bool) (wanted approximate : Value) (pairs : List (Value × Value)) :
    Outcome Value := do
  if ← isApproximate approximate then
    if pairs.isEmpty then pure .null else lastBelow (← num wanted) .null pairs
  else firstBeside (same wanted) pairs

/-- The wanted column or row of a table, from one on, and how many of them there are. -/
def shape (table index : Value) : Outcome (Option (List Value × Nat × Nat)) := do
  match table.items? with
  | none | some [] => pure none
  | some vs =>
    let k ← whole index
    if k < 1 then pure none
    else pure ((divisorFrom vs.length (vs.length + 1) k.toNat).map fun n => (vs, k.toNat, n))

def at_ (vs : List Value) (i : Nat) : Value := (vs[i]?).getD .null

def vlookup (wanted table col approximate : Value) : Outcome Value := do
  match ← shape table col with
  | none => pure .null
  | some (vs, k, width) =>
    let pairs := (List.range (vs.length / width)).map fun r => (at_ vs (r * width), at_ vs (r * width + k - 1))
    findBeside sameKey wanted approximate pairs

def hlookup (wanted table row approximate : Value) : Outcome Value := do
  match ← shape table row with
  | none => pure .null
  | some (vs, k, height) =>
    let width := vs.length / height
    let pairs := (List.range width).map fun c => (at_ vs c, at_ vs ((k - 1) * width + c))
    findBeside sameHeading wanted approximate pairs

def element? (vs : List Value) (n : Int) : Option Value := if n < 1 then none else vs[(n - 1).toNat]?

def index (range row col : Value) : Outcome Value := do
  match range.items? with
  | none => pure .null
  | some vs =>
    match element? vs (← whole row) with
    | none => pure .null
    | some v =>
      match v.items? with
      | some ws =>
        if !col.isNull then pure ((element? ws (← whole col)).getD .null)
        else pure (match ws with
          | [w] => w
          | _ => v)
      | none => pure (if col.isNull then v else .null)

def position (wanted range : Value) : Outcome Value :=
  match range.items? with
  | none => .ok .null
  | some vs => go 1 vs
where
  go (n : Nat) : List Value → Outcome Value
    | [] => .ok .null
    | v :: vs => do
      if v == wanted then pure (.ofNat n)
      else if ← (if v.isNumber && wanted.isNumber then isCloseTo v wanted else .ok false) then pure (.ofNat n)
      else go (n + 1) vs

def choose (n : Value) (args : List Value) : Outcome Value := do
  pure ((element? args (← whole n)).getD .null)

end Sheetwork.Plan.Functions
