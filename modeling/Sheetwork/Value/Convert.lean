import Sheetwork.Value.Order
/-
  Values: data as values and values as data. Pairs become lists; what a value does not give is empty, zero or false.
-/

namespace Sheetwork

class ToValue (α : Type) where
  toValue : α → Value

export ToValue (toValue)

class ToRow (α : Type) where
  toRow : α → List Value

export ToRow (toRow)

class OfValue (α : Type) where
  ofValue : Value → α

export OfValue (ofValue)

class OfRow (α : Type) where
  ofRow : List Value → α

export OfRow (ofRow)

section

variable {α β : Type}

instance : ToValue Value := ⟨id⟩

instance : ToValue String := ⟨.text⟩

instance : ToValue Nat := ⟨.ofNat⟩

instance : ToValue Int := ⟨.int⟩

instance : ToValue Bool := ⟨.bool⟩

instance : ToValue Float := ⟨.float⟩

instance : ToValue Unit := ⟨fun _ => .null⟩

instance : ToValue (List Char) := ⟨fun s => .text (String.ofList s)⟩

instance [ToValue α] : ToValue (Option α) := ⟨fun o => o.elim .null toValue⟩

instance (priority := low) [ToValue α] : ToValue (List α) := ⟨fun xs => .list (xs.map toValue)⟩

instance (priority := low) [ToValue α] : ToRow α := ⟨fun a => [toValue a]⟩

instance [ToValue α] [ToRow β] : ToRow (α × β) := ⟨fun (a, b) => toValue a :: toRow b⟩

instance [ToRow (α × β)] : ToValue (α × β) := ⟨fun p => .list (toRow p)⟩

end

section

variable {α β : Type}

instance : OfValue Value := ⟨id⟩

instance : OfValue String := ⟨fun v => v.text?.getD ""⟩

instance : OfValue Int := ⟨fun v => v.int?.getD 0⟩

instance : OfValue Nat := ⟨fun v => (v.int?.getD 0).toNat⟩

instance : OfValue Bool := ⟨Value.truthy⟩

instance [OfValue α] : OfValue (Option α) := ⟨fun v => if v.isNull then none else some (ofValue v)⟩

instance [OfValue α] : OfValue (List α) := ⟨fun v => (v.items?.getD []).map ofValue⟩

instance (priority := low) [OfValue α] : OfRow α := ⟨fun vs => ofValue (vs.headD .null)⟩

instance [OfValue α] [OfRow β] : OfRow (α × β) := ⟨fun vs => (ofValue (vs.headD .null), ofRow vs.tail)⟩

instance [OfRow (α × β)] : OfValue (α × β) := ⟨fun v => ofRow (v.items?.getD [])⟩

end

def Value.field {α : Type} [OfValue α] (v : Value) (k : String) : α := ofValue (v.get k)

def Value.fieldOr {α : Type} [OfValue α] (v : Value) (k : String) (default : α) : α :=
  if (v.get k).isNull then default else ofValue (v.get k)

end Sheetwork

/-! Sequences. Lists, tuples and texts have positions, counted from the end when
negative; a table is a sequence of its keys. -/

namespace Sheetwork.Value

/-- The elements of a sequence: of a text its characters, of a table its keys. -/
def elements : Value → Outcome (List Value)
  | list xs => .ok xs
  | tuple xs => .ok xs
  | text s => .ok (s.toList.map fun c => text (String.ofList [c]))
  | keyed es => .ok (es.map (·.1))
  | _ => .error .wrongKind

def size : Value → Outcome Nat
  | list xs => .ok xs.length
  | tuple xs => .ok xs.length
  | text s => .ok s.length
  | keyed es => .ok es.length
  | _ => .error .wrongKind

/-- The element at a position, from the end if it is negative. -/
def nth {α : Type} (xs : List α) (i : Int) : Outcome α :=
  let j := if i < 0 then i + xs.length else i
  if j < 0 then .error .outOfRange
  else match xs[j.toNat]? with
    | some x => .ok x
    | none => .error .outOfRange

def at_ (v : Value) (i : Int) : Outcome Value :=
  match v with
  | list xs => nth xs i
  | tuple xs => nth xs i
  | text s => (nth s.toList i).map fun c => text (String.ofList [c])
  | keyed es => match lookup (int i) es with
    | some x => .ok x
    | none => .error .missingKey
  | _ => .error .wrongKind

def bound (n : Nat) (i : Int) : Nat := if i < 0 then (i + n).toNat else min i.toNat n

/-- The elements from `i` up to `j`, each counted from the end if negative. -/
def slice {α : Type} (xs : List α) (i j : Option Int) : List α :=
  let a := (i.map (bound xs.length)).getD 0
  let b := (j.map (bound xs.length)).getD xs.length
  (xs.take b).drop a

def sliceText (s : String) (i j : Option Int) : String := String.ofList (slice s.toList i j)

mutual

def flatten : Value → List Value
  | list xs => flattenAll xs
  | tuple xs => flattenAll xs
  | v => [v]

def flattenAll : List Value → List Value
  | [] => []
  | x :: xs => flatten x ++ flattenAll xs

end

end Sheetwork.Value
