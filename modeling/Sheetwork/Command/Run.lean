import Sheetwork.Workbook.Files
/-
  Commands: what a run of a command leaves behind.
-/

namespace Sheetwork.Command

/-! Arguments. Operands come in a fixed number; a switch begins with two dashes,
may be shortened as long as one switch begins that way, and has its value after an equals sign or
in the arguments that follow. -/

inductive Arity where
  | none | one | many
  deriving DecidableEq

structure Switch where
  name : String
  arity : Arity := .one
  required : Bool := false
  /-- The values that are allowed, all if there are none. -/
  allowed : List String := []
  isNumber : Bool := false
  deriving DecidableEq

structure Usage where
  operands : Nat := 0
  switches : List Switch := []

structure Arguments where
  operands : List String := []
  switches : List (String × List String) := []
  /-- Nothing was unknown. -/
  isClear : Bool := true

namespace Arguments

variable (a : Arguments) (name : String)

def values? : Option (List String) := (a.switches.find? (·.1 = name)).map (·.2)

def has : Bool := (a.values? name).isSome

def value? : Option String := (a.values? name).bind List.head?

def get (name default : String) : String := (a.value? name).getD default

def operand (i : Nat) : String := a.operands.getD i ""

end Arguments

inductive Refusal where
  /-- It was only asked how it is used. -/
  | asked | misused

def Refusal.exit : Refusal → Int
  | asked => 0
  | misused => 2

inductive Token where
  | operand (s : String)
  | switch (s : Switch) (value : Option String)
  | stop | unknown

namespace Usage

def help : Switch := { name := "--help", arity := .none }

def switch? (u : Usage) (text : String) : Option Switch :=
  let all := help :: u.switches
  match all.find? (·.name = text) with
  | some s => some s
  | none =>
    match all.filter fun s => Text.startsWith text s.name with
    | [s] => some s
    | _ => none

def isNegative (s : String) : Bool :=
  match s.toList with
  | '-' :: ds => !ds.isEmpty && ds.all (fun c => c.isDigit || c = '.') && (ds.filter (· = '.')).length ≤ 1 &&
      ds.getLast? ≠ some '.'
  | _ => false

def token (u : Usage) (s : String) : Token :=
  if !Text.startsWith "-" s || s = "-" then .operand s
  else if s = "--" then .stop
  else if s = "-h" then .switch help none
  else
    let (name, value) := match Text.cut? "=" s with
      | some (n, v) => (n, some v)
      | none => (s, none)
    if let some w := u.switches.find? (·.name = s) then .switch w none
    else match if Text.startsWith "--" s then u.switch? name else none with
    | some w => .switch w value
    | none => if isNegative s || Text.contains " " s then .operand s else .unknown

/-- Reads all arguments; after a lone pair of dashes they are operands. -/
def tokens (u : Usage) : List String → List Token
  | [] => []
  | s :: rest =>
    match u.token s with
    | .stop => rest.map .operand
    | t => t :: u.tokens rest

def leading : List Token → List String
  | .operand s :: ts => s :: leading ts
  | _ => []

def accepts (w : Switch) (value : String) : Bool :=
  if w.isNumber then (Number.int? value).any fun n => w.allowed.isEmpty || w.allowed.contains (Text.ofInt n)
  else w.allowed.isEmpty || w.allowed.contains value

def put (a : Arguments) (w : Switch) (values : List String) : Except Refusal Arguments :=
  if values.all (accepts w) then
    .ok { a with switches := a.switches.filter (·.1 ≠ w.name) ++ [(w.name, values)] }
  else .error .misused

/-- Takes the tokens one by one; what is unknown is only remembered. -/
def collect : Nat → List Token → Arguments → Except Refusal Arguments
  | _, [], a => .ok a
  | 0, _ :: _, _ => .error .misused
  | n + 1, t :: ts, a =>
    match t with
    | .operand s => collect n ts { a with operands := a.operands ++ [s] }
    | .unknown | .stop => collect n ts { a with isClear := false }
    | .switch w (some v) =>
      if w.arity = .none then .error .misused else do collect n ts (← put a w [v])
    | .switch w none =>
      if w = help then .error .asked
      else match w.arity with
      | .none => do collect n ts (← put a w [])
      | .one =>
        match ts with
        | .operand v :: ts => do collect n ts (← put a w [v])
        | _ => .error .misused
      | .many =>
        let vs := leading ts
        do collect n (ts.drop vs.length) (← put a w vs)

def parse (u : Usage) (args : List String) : Except Refusal Arguments := do
  let ts := u.tokens args
  let a ← collect ts.length ts {}
  if a.isClear && a.operands.length = u.operands && u.switches.all fun w => !w.required || a.has w.name then pure a
  else .error .misused

end Usage

structure Run where
  exit : Int := 0
  output : String := ""
  saved : List (String × Workbook) := []

namespace Run

def text (lines : List String) : String := String.join (lines.map (· ++ "\n"))

def refused (r : Refusal) : Run := { exit := r.exit }

def failed (lines : List String) : Run := { exit := 1, output := text lines }

def missing (path : String) : Run := failed ["Error: File '" ++ path ++ "' not found."]

end Run

structure Finish where
  exit : Int := 0
  output : String := ""
  files : Files

end Sheetwork.Command
