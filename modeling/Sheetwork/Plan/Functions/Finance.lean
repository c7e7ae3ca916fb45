import Sheetwork.Plan.Functions.Number
/-
  Plans: functions of finance on values, which count as numbers. Loans and savings have equal payments; a quotient by
  zero or a number too large has no result.
-/

namespace Sheetwork.Plan.Functions

def real (v : Value) : Outcome Value := .float <$> num v

def isZero (v : Value) : Bool := v == .int 0

/-- Numbers that the formulas of annuities reckon with; an argument is read as one first. -/
class Reckoning (α : Type) where
  ofInt : Int → α
  read : α → Outcome α
  whole : α → Outcome Int
  isZero : α → Bool
  add : α → α → Outcome α
  sub : α → α → Outcome α
  mul : α → α → Outcome α
  div : α → α → Outcome α
  pow : α → α → Outcome α
  neg : α → Outcome α

instance : Reckoning Value :=
  ⟨.int, real, whole, isZero, Value.add, Value.sub, Value.mul, Value.div, Value.pow, Value.neg⟩

section

variable {α : Type} [Reckoning α]

open Reckoning (ofInt read add)

def lift (op : α → α → Outcome α) (a b : Outcome α) : Outcome α := do
  let x ← a
  op x (← b)

scoped instance : Add (Outcome α) := ⟨lift Reckoning.add⟩

scoped instance : Sub (Outcome α) := ⟨lift Reckoning.sub⟩

scoped instance : Mul (Outcome α) := ⟨lift Reckoning.mul⟩

scoped instance : Div (Outcome α) := ⟨lift Reckoning.div⟩

scoped instance : HPow (Outcome α) (Outcome α) (Outcome α) := ⟨lift Reckoning.pow⟩

scoped instance : Neg (Outcome α) := ⟨(· >>= Reckoning.neg)⟩

scoped instance (n : Nat) : OfNat (Outcome α) n := ⟨.ok (Reckoning.ofInt n)⟩

/-- The payment that turns a present value `p` into a future one `f` in `n` periods at the rate `r`;
paid at the end of a period, or at its beginning when `t` is one. -/
def payment (r n p f t : Outcome α) : Outcome α := do
  if Reckoning.isZero (← r) then
    if Reckoning.isZero (← n) then 0 else -(p + f) / n
  else -r * (p * (1 + r) ^ n + f) / (((1 + r) ^ n - 1) * (1 + r * t))

/-- What payments of `m` are worth at their beginning. -/
def presentValue (r n m f t : Outcome α) : Outcome α := do
  if Reckoning.isZero (← r) then -(m * n + f)
  else
    let u := (1 + r) ^ n
    (-(m * (1 + r * t) * (u - 1) / (r * u) + f / u))

def futureValue (r n m p t : Outcome α) : Outcome α := do
  if Reckoning.isZero (← r) then -(p + m * n)
  else
    let u := (1 + r) ^ n
    (-(p * u + m * (1 + r * t) * (u - 1) / r))

def interest (r k n p f t : Outcome α) : Outcome α := do
  let m ← payment r n p f t
  if Reckoning.isZero (← r) then 0
  else
    let u := (1 + r) ^ (k - 1)
    (-(p * u + .ok m * (u - 1) / r) * r)

def principal (r k n p f t : Outcome α) : Outcome α := payment r n p f t - interest r k n p f t

def ofFive (f : Outcome α → Outcome α → Outcome α → Outcome α → Outcome α → Outcome α) (a b c d e : α) : Outcome α := do
  f (.ok (← read a)) (.ok (← read b)) (.ok (← read c)) (.ok (← read d)) (.ok (← read e))

def ofSix (f : Outcome α → Outcome α → Outcome α → Outcome α → Outcome α → Outcome α → Outcome α)
    (a b c d e g : α) : Outcome α := do
  ofFive (f (.ok (← read a))) b c d e g

def totalOf (part : α → α → α → α → α → α → Outcome α) (rate periods present first last type : α) : Outcome α := do
  let first ← Reckoning.whole first
  let last ← Reckoning.whole last
  (List.range (last + 1 - first).toNat).foldlM (fun sum (i : Nat) => do
    add sum (← part rate (ofInt (first + i)) periods present (ofInt 0) type)) (← read (ofInt 0))

end

/-- What payments at the end of periods are worth now. -/
def npv (rate : Value) (flows : List Value) : Outcome Value := do
  let r ← real rate
  (flat flows).zipIdx.foldlM (fun total (v, i) => do
    .ok total + real v / (1 + .ok r) ^ (.ok (.ofNat (i + 1)) : Outcome Value)) (.float 0.0)

def worth (flows : List Float) (rate : Value) : Outcome (Value × Value) := do
  let r : Outcome Value := .ok rate
  let term (sum : Outcome Value) (t : Outcome Value) := sum + t
  let ps := flows.zipIdx.map fun (x, i) => ((.ok (.float x) : Outcome Value), (i : Int))
  let value ← ps.foldl (fun s (x, i) => term s (x / (1 + r) ^ (.ok (.int i) : Outcome Value))) 0
  let slope ← ps.foldl (fun s (x, i) => term s (.ok (.int (-i)) * x / (1 + r) ^ (.ok (.int (i + 1)) : Outcome Value))) 0
  pure (value, slope)

def isBelow (limit : Float) (v : Value) : Outcome Bool := do (← v.abs).lt (.float limit)

/-- Improves a rate step by step until payments are worth nothing at it. -/
def improve (flows : List Float) : Nat → Value → Outcome Value
  | 0, rate => .ok rate
  | fuel + 1, rate => do
    let (value, slope) ← worth flows rate
    if ← isBelow 1e-12 slope then pure rate
    else
      let next ← rate.sub (← value.div slope)
      if ← isBelow 1e-8 value then pure next else improve flows fuel next

/-- The rate at which payments are worth nothing. -/
def irr (flows guess : Value) : Outcome Value :=
  match flows.items? with
  | none => .ok (.int 0)
  | some vs => do
    let xs ← vs.mapM num
    improve xs 1000 (← real guess)

/-- How far an annuity is off its future value at a rate, where money grows by
`growth` each period. -/
def gap (periods payment present future type growth rate : Value) : Outcome Value := do
  let r : Outcome Value := .ok rate
  let t ← growth.pow periods
  if isZero rate then pure (.int 0)
  else .ok present * .ok t + .ok payment * (1 + r * .ok type) * (.ok t - 1) / r + .ok future

/-- Improves a rate step by step until it is off by nothing; the slope comes from a
rate close by. -/
def improveRate (off : Value → Value → Outcome Value) : Nat → Value → Outcome Value
  | 0, rate => .ok rate
  | fuel + 1, rate => do
    let growth ← Value.add (.int 1) rate
    let f ← off growth rate
    if ← isBelow 1e-10 f then pure rate
    else
      let step : Value := .float 1e-6
      let g ← off (← growth.add step) (← rate.add step)
      let slope ← (← g.sub f).div step
      if ← isBelow 1e-15 slope then pure rate
      else improveRate off fuel (← rate.sub (← f.div slope))

def rate (periods payment present future type guess : Value) : Outcome Value := do
  let n ← real periods
  let m ← real payment
  let p ← real present
  let f ← real future
  let t ← real type
  improveRate (gap n m p f t) 100 (← real guess)

def periods (rate payment present future type : Value) : Outcome Value := do
  let r ← num rate
  let m ← num payment
  let p ← num present
  let f ← num future
  if r == 0 then
    if m == 0 then pure (.int 0) else pure (.float (-(p + f) / m))
  else
    let w := m * (1.0 + r * (← num type))
    let below := p * r + w
    if below == 0 then pure (.int 0)
    else
      let top ← log ((-f * r + w) / below)
      Value.div (.float top) (.float (← log (1.0 + r)))

end Sheetwork.Plan.Functions
