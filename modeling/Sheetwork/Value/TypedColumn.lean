import Sheetwork.Value.Basic
/-
  Values: typed columns. A column has a type that follows from its values: whole numbers of a signed or of an unsigned
  word, numbers, truth values, moments, or anything. In a column of numbers nothing is a number that is none, and
  whole numbers are stored as floats.
-/

namespace Sheetwork

def Value.isMissing : Value → Bool
  | .null => true
  | .float x => x.isNaN
  | _ => false

inductive ColumnType where
  /-- Whole numbers of a signed word. -/
  | whole
  /-- Whole numbers of an unsigned word, one of them too large for a signed one. -/
  | wide | real | truth | moment | mixed
  deriving DecidableEq

namespace ColumnType

def isNumeric : ColumnType → Bool
  | whole | wide | real => true
  | _ => false

/-- Whole numbers that fit into a signed or an unsigned word. -/
def fits (n : Int) : Bool := -2 ^ (63 : Nat) ≤ n && n < 2 ^ (64 : Nat)

structure Tally where
  hasEmpty : Bool := false
  hasWhole : Bool := false
  hasNegative : Bool := false
  hasWide : Bool := false
  hasReal : Bool := false
  hasTruth : Bool := false

namespace Tally

/-- Counts a whole number; its size matters as long as nothing was empty before it. -/
def addWhole (t : Tally) (n : Int) : Tally :=
  if t.hasEmpty then { t with hasWhole := true }
  else { t with
    hasWhole := true
    hasNegative := t.hasNegative || n < 0
    hasWide := t.hasWide || 2 ^ (63 : Nat) ≤ n }

def refuses (t : Tally) (n : Int) : Bool :=
  !t.hasEmpty && (!fits n || (t.addWhole n).hasNegative && (t.addWhole n).hasWide)

def type (t : Tally) : ColumnType :=
  if t.hasTruth then if t.hasEmpty || t.hasWhole || t.hasReal then .mixed else .truth
  else if t.hasReal then .real
  else if !t.hasWhole then .mixed
  else if t.hasEmpty then .real
  else if t.hasWide then .wide
  else .whole

/-- The type of a column of numbers and truth values. A whole number that no float is near to is a
fault, unless a value before it has settled the type. -/
def scan (t : Tally) : List Value → Outcome ColumnType
  | [] => .ok t.type
  | .null :: vs => scan { t with hasEmpty := true } vs
  | .bool _ :: vs => scan { t with hasTruth := true } vs
  | .float _ :: vs => scan { t with hasReal := true } vs
  | .int n :: vs =>
    if Number.isTooLarge n then .error .tooLarge
    else if t.refuses n then .ok .mixed
    else scan (t.addWhole n) vs
  | _ :: _ => .ok .mixed

end Tally

def epoch : DateTime := ⟨⟨1970, 1, 1⟩, TimeOfDay.midnight⟩

/-- Moments whose distance from the epoch in nanoseconds fits into a signed word. -/
def holdsMoment (t : DateTime) : Bool :=
  let nanos := (t.micros - epoch.micros) * 1000
  nanos < 2 ^ (63 : Nat) && -2 ^ (63 : Nat) < nanos

def isMoment : Value → Bool
  | .datetime t => t.time.zone.isNone && holdsMoment t
  | _ => false

def ofValues (vs : List Value) : Outcome ColumnType := do
  let type ← Tally.scan {} vs
  let areMoments := vs.any isMoment && vs.all fun v => isMoment v || v.isMissing
  pure (if type = .mixed && areMoments then .moment else type)

def store : ColumnType → Value → Value
  | .real, .int n => .float (Number.ofInt n)
  | .real, .null => .float Number.notANumber
  | .moment, .float _ => .null
  | _, v => v

end ColumnType

structure TypedColumn where
  type : ColumnType
  values : Array Value

def TypedColumn.ofValues (vs : List Value) : Outcome TypedColumn := do
  let type ← ColumnType.ofValues vs
  pure ⟨type, (vs.map type.store).toArray⟩

end Sheetwork
