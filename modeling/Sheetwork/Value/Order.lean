import Sheetwork.Value.Basic
/-
  Values: equality and order. Numbers compare by value whatever their kind, truth values count as 1 and 0; only values
  of comparable kinds have an order.
-/

namespace Sheetwork.Value

open Number

def intOfBool (b : Bool) : Int := if b then 1 else 0

def eqAtom : Value → Value → Bool
  | null, null => true
  | bool a, bool b => a = b
  | bool a, int n => intOfBool a = n
  | int n, bool b => n = intOfBool b
  | int a, int b => a = b
  | int n, float x => compareInt n x = some .eq
  | float x, int n => compareInt n x = some .eq
  | bool b, float x => compareInt (intOfBool b) x = some .eq
  | float x, bool b => compareInt (intOfBool b) x = some .eq
  | float x, float y => x == y
  | complex a b, complex c d => a == c && b == d
  | complex a b, float x => b == 0 && a == x
  | float x, complex a b => b == 0 && a == x
  | complex a b, int n => b == 0 && compareInt n a = some .eq
  | int n, complex a b => b == 0 && compareInt n a = some .eq
  | text a, text b => a = b
  | date a, date b => a = b
  | datetime a, datetime b => a.same b
  | time a, time b => a.same b
  | span a, span b => a = b
  | _, _ => false

mutual

def eq : Value → Value → Bool
  | list xs, b => match b with
    | list ys => eqs xs ys
    | _ => false
  | tuple xs, b => match b with
    | tuple ys => eqs xs ys
    | _ => false
  | keyed es, b => match b with
    | keyed fs => es.length = fs.length && eqEntries es fs
    | _ => false
  | a, b => eqAtom a b

def eqs : List Value → List Value → Bool
  | [], ys => ys.isEmpty
  | x :: xs, ys => match ys with
    | y :: ys => eq x y && eqs xs ys
    | [] => false

def eqEntries : List (Value × Value) → List (Value × Value) → Bool
  | [], _ => true
  | (k, v) :: es, fs => fs.any (fun f => eq k f.1 && eq v f.2) && eqEntries es fs

end

instance : BEq Value := ⟨eq⟩

def floatOrder (x y : Float) : Option Ordering :=
  if x < y then some .lt else if y < x then some .gt else if x == y then some .eq else none

def natsOrder : List Nat → List Nat → Ordering
  | [], [] => .eq
  | [], _ :: _ => .lt
  | _ :: _, [] => .gt
  | a :: as, b :: bs => if a = b then natsOrder as bs else compare a b

def textOrder (a b : String) : Ordering := if a < b then .lt else if a = b then .eq else .gt

/-- Clocks of zones compare as instants, clocks of no zone by their parts, and one of each not. -/
def clockOrder (zones : Option Int × Option Int) (parts : Ordering) (a b : Int) : Outcome (Option Ordering) :=
  match zones with
  | (none, none) => .ok (some parts)
  | (some _, some _) => .ok (some (compare a b))
  | _ => .error .wrongKind

/-- The order of two values that are no collections; none inside for no number. -/
def orderAtom : Value → Value → Outcome (Option Ordering)
  | text a, text b => .ok (some (textOrder a b))
  | date a, date b => .ok (some (natsOrder a.key b.key))
  | datetime a, datetime b => clockOrder (a.time.zone, b.time.zone) (natsOrder a.key b.key) a.instant b.instant
  | time a, time b => clockOrder (a.zone, b.zone) (natsOrder a.key b.key) a.instant b.instant
  | span a, span b => .ok (some (compare a b))
  | float x, float y => .ok (floatOrder x y)
  | a, b =>
    match int? a, int? b, a, b with
    | some m, some n, _, _ => .ok (some (compare m n))
    | some m, none, _, float y => .ok (compareInt m y)
    | none, some n, float x, _ => .ok ((compareInt n x).map Ordering.swap)
    | _, _, _, _ => .error .wrongKind

mutual

def order : Value → Value → Outcome (Option Ordering)
  | list xs, b => match b with
    | list ys => orders xs ys
    | _ => .error .wrongKind
  | tuple xs, b => match b with
    | tuple ys => orders xs ys
    | _ => .error .wrongKind
  | a, b => orderAtom a b

def orders : List Value → List Value → Outcome (Option Ordering)
  | [], [] => .ok (some .eq)
  | [], _ :: _ => .ok (some .lt)
  | x :: xs, ys => match ys with
    | [] => .ok (some .gt)
    | y :: ys => if eq x y then orders xs ys else order x y

end

variable (a b : Value)

def lt : Outcome Bool := (order a b).map (· = some .lt)

def le : Outcome Bool := (order a b).map fun o => o = some .lt || o = some .eq

def gt : Outcome Bool := (order a b).map (· = some .gt)

def ge : Outcome Bool := (order a b).map fun o => o = some .gt || o = some .eq

def isIn (x : Value) (ys : List Value) : Bool := ys.any (eq x ·)

def lookup (k : Value) (es : List (Value × Value)) : Option Value := (es.find? (eq k ·.1)).map (·.2)

/-- Sets a key: in place if it is there, else at the end. -/
def insert (k v : Value) : List (Value × Value) → List (Value × Value)
  | [] => [(k, v)]
  | e :: es => if eq e.1 k then (e.1, v) :: es else e :: insert k v es

def get? (v : Value) (k : String) : Option Value :=
  match v with
  | keyed es => (es.find? fun e => match e.1 with | text s => s = k | _ => false).map (·.2)
  | _ => none

def get (v : Value) (k : String) : Value := (v.get? k).getD null

def record (es : List (String × Value)) : Value := keyed (es.map fun (k, v) => (text k, v))

end Sheetwork.Value
