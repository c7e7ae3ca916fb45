import Sheetwork.Script.Expression
import Sheetwork.Value.Percent
import Sheetwork.Value.Convert
/-
  Scripts: the value of an expression where names and functions have a meaning. Operands are evaluated from left to
  right, and only those that are needed.
-/

namespace Sheetwork.Script

structure Scope where
  value? : String → Option Value
  function? : String → Option (List Value → Outcome Value)

def Scope.empty : Scope := ⟨fun _ => none, fun _ => none⟩

def Scope.bind (s : Scope) (name : String) (v : Value) : Scope :=
  { s with value? := fun n => if n = name then some v else s.value? n }

def UnaryOp.eval (op : UnaryOp) (v : Value) : Outcome Value :=
  match op with
  | neg => v.neg
  | pos => v.pos
  | not => .ok (.bool !v.truthy)
  | invert =>
    match v.int? with
    | some n => .ok (.int (-n - 1))
    | none => .error .wrongKind

namespace BinaryOp

/-- Two's complement operations on whole numbers; of truth values the result is one. -/
def bits (onNat : Nat → Nat → Nat) (onBool : Bool → Bool → Bool) (a b : Value) : Outcome Value :=
  match a, b with
  | .bool x, .bool y => .ok (.bool (onBool x y))
  | a, b =>
    match a.int?, b.int? with
    | some m, some n =>
      let width := Number.bitLength m.natAbs + Number.bitLength n.natAbs + 2
      let word (k : Int) := (k.emod (2 ^ width)).toNat
      let r := onNat (word m) (word n)
      .ok (.int (if r < 2 ^ (width - 1) then r else (r : Int) - 2 ^ width))
    | _, _ => .error .wrongKind

def shifted (left : Bool) (a b : Value) : Outcome Value :=
  match a.int?, b.int? with
  | some m, some n =>
    if n < 0 then .error .badValue
    else if left then
      if m = 0 then .ok (.int 0) else do pure (.int (m * (← Value.intPow 2 n.toNat)))
    else if m.natAbs.log2 < n.toNat then .ok (.int (if m < 0 then -1 else 0))
    else .ok (.int (m.fdiv (2 ^ n.toNat)))
  | _, _ => .error .wrongKind

def eval (op : BinaryOp) (a b : Value) : Outcome Value :=
  match op with
  | add => a.add b
  | sub => a.sub b
  | mul => a.mul b
  | div => a.div b
  | floorDiv => a.floorDiv b
  | mod => a.percent b
  | pow => a.pow b
  | matMul => .error .wrongKind
  | shiftLeft => shifted true a b
  | shiftRight => shifted false a b
  | bitAnd => bits Nat.land and a b
  | bitOr => bits Nat.lor or a b
  | bitXor => bits Nat.xor xor a b

end BinaryOp

/-- Membership: of a text its parts, of a sequence its elements. -/
def Comparison.holds (a b : Value) : Outcome Bool :=
  match a, b with
  | .text s, .text t => .ok (Text.contains s t)
  | _, .text _ => .error .wrongKind
  | a, b => (b.elements).map a.isIn

def Comparison.eval (op : Comparison) (a b : Value) : Outcome Bool :=
  match op with
  | eq => .ok (a == b)
  | ne => .ok (a != b)
  | lt => a.lt b
  | le => a.le b
  | gt => a.gt b
  | ge => a.ge b
  | isIn => holds a b
  | notIn => (holds a b).map not
  | same => .ok (a == b)
  | notSame => .ok (a != b)

namespace Expr

def dotted? : Expr → Option String
  | name s => some s
  | member e s => (dotted? e).map fun t => t ++ "." ++ s
  | _ => none

def itemOf (v i : Value) : Outcome Value :=
  match v, i with
  | .keyed es, k => Fault.missingKey.ifNone (Value.lookup k es)
  | v, i =>
    match i.int? with
    | some n => v.at_ n
    | none => .error .wrongKind

def sliceOf (v i j : Value) : Outcome Value := do
  let edge (x : Value) := match x with
    | .null => Except.ok none
    | x => (Fault.wrongKind.ifNone x.int?).map some
  let i ← edge i
  let j ← edge j
  match v with
  | .list xs => pure (.list (Value.slice xs i j))
  | .tuple xs => pure (.tuple (Value.slice xs i j))
  | .text s => pure (.text (Value.sliceText s i j))
  | _ => .error .wrongKind

mutual

def eval (sc : Scope) : Expr → Outcome Value
  | const v => .ok v
  | name s => Fault.ifNone ⟨.unknownName, none⟩ (sc.value? s)
  | unary op e => do op.eval (← eval sc e)
  | binary op a b => do
    let a ← eval sc a
    op.eval a (← eval sc b)
  | compare a rest => do compareAll sc (← eval sc a) rest
  | both a b => do
    let a ← eval sc a
    if a.truthy then eval sc b else pure a
  | either a b => do
    let a ← eval sc a
    if a.truthy then pure a else eval sc b
  | choose t a b => do if (← eval sc t).truthy then eval sc a else eval sc b
  | call f args named =>
    match (dotted? f).bind sc.function? with
    | some g => do
      let args ← evalAll sc args
      let named ← evalNamed sc named
      if named.isEmpty then g args else .error .wrongKind
    | none => do
      let _ ← eval sc f
      let _ ← evalAll sc args
      .error .wrongKind
  | member e _ => do
    let _ ← eval sc e
    .error .noProperty
  | item e i => do
    let v ← eval sc e
    itemOf v (← eval sc i)
  | slice e i j => do
    let v ← eval sc e
    let i ← eval sc i
    sliceOf v i (← eval sc j)
  | list xs => do pure (.list (← evalAll sc xs))
  | tuple xs => do pure (.tuple (← evalAll sc xs))
  | table es => do pure (.keyed (← evalEntries sc es))
  | set xs => do pure (.keyed ((← evalAll sc xs).foldl (fun es k => Value.insert k .null es) []))
  | spread e => eval sc e

/-- The values of expressions, spread ones opened up. -/
def evalAll (sc : Scope) : List Expr → Outcome (List Value)
  | [] => .ok []
  | e :: es => do
    let v ← eval sc e
    let vs ← match e with
      | spread _ => v.elements
      | _ => pure [v]
    pure (vs ++ (← evalAll sc es))

def evalNamed (sc : Scope) : List (String × Expr) → Outcome (List Value)
  | [] => .ok []
  | (_, e) :: es => do
    let v ← eval sc e
    pure (v :: (← evalNamed sc es))

def evalEntries (sc : Scope) : List (Expr × Expr) → Outcome (List (Value × Value))
  | [] => .ok []
  | (k, e) :: es => do
    let k ← eval sc k
    let v ← eval sc e
    pure ((k, v) :: (← evalEntries sc es))

/-- A chain holds if each of its comparisons does; the first that fails ends it. -/
def compareAll (sc : Scope) (a : Value) : List (Comparison × Expr) → Outcome Value
  | [] => .ok (.bool true)
  | (op, e) :: rest => do
    let b ← eval sc e
    if ← op.eval a b then compareAll sc b rest else pure (.bool false)

end

end Expr

namespace Builtin

/-- The elements of a single argument that is a sequence, or the arguments themselves. -/
def operands : List Value → Outcome (List Value)
  | [v] => v.elements
  | vs => .ok vs

def sum : List Value → Outcome Value
  | [v] => do Value.sumFrom (.int 0) (← v.elements)
  | [v, .text _] => do
    let _ ← v.elements
    .error .wrongKind
  | [v, s] => do Value.sumFrom s (← v.elements)
  | _ => .error .wrongKind

def round : List Value → Outcome Value
  | [v] => v.round none
  | [v, .null] => v.round none
  | [v, p] => do v.round (some (← Fault.wrongKind.ifNone p.int?))
  | _ => .error .wrongKind

def one (f : Value → Outcome Value) : List Value → Outcome Value
  | [v] => f v
  | _ => .error .wrongKind

def extremum (f : List Value → Outcome Value) (vs : List Value) : Outcome Value := do
  if vs.isEmpty then .error .wrongKind else f (← operands vs)

def function? : String → Option (List Value → Outcome Value)
  | "sum" => some sum
  | "max" => some (extremum Value.maxOf)
  | "min" => some (extremum Value.minOf)
  | "abs" => some (one Value.abs)
  | "round" => some round
  | "len" => some (one fun v => v.size.map .ofNat)
  | "all" => some (one fun v => v.elements.map fun xs => .bool (xs.all Value.truthy))
  | "any" => some (one fun v => v.elements.map fun xs => .bool (xs.any Value.truthy))
  | "int" => some fun vs => if vs.isEmpty then .ok (.int 0) else one (fun v => v.toInt.map .int) vs
  | "float" => some fun vs => if vs.isEmpty then .ok (.float 0) else one (fun v => v.toFloat.map .float) vs
  | "str" => some fun vs => if vs.isEmpty then .ok (.text "") else one (fun v => .ok (.text v.toText)) vs
  | "bool" => some fun vs => if vs.isEmpty then .ok (.bool false) else one (fun v => .ok (.bool v.truthy)) vs
  | "pow" => some fun vs => match vs with
    | [a, b] => a.pow b
    | _ => .error .wrongKind
  | "list" => some (one fun v => v.elements.map .list)
  | "tuple" => some (one fun v => v.elements.map .tuple)
  | _ => none

end Builtin

end Sheetwork.Script
