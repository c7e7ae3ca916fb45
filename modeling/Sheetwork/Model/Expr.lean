import Sheetwork.Formula.Lexeme
import Sheetwork.Model.Library
import Sheetwork.Model.Reference
/-
  Models: the expressions of formulas. Operators bind by their strength, a power to the right and all others to the
  left; a sign binds more tightly than an operator, and a percent sign more tightly than that. A blank between lexemes
  stops the reading.
-/

namespace Sheetwork.Model

open Engine Formula Text

inductive Expr where
  | number (text : String)
  | text (s : String)
  | bool (b : Bool)
  | error (code : String)
  | ref (sheet ref : String)
  | signed (s : Sign) (e : Expr)
  | binary (o : Operator) (a b : Expr)
  | call (name : String) (args : List Expr)

structure Place where
  (sheet cell : String)
  deriving DecidableEq, Hashable

def Place.text (p : Place) : String := p.sheet ++ "!" ++ p.cell

def Place.refuse (p : Place) (why : String) : Fault := .saying .noCode (p.text ++ ": " ++ why)

namespace Expr

/-- How tightly operators bind: infix ones what stands before them and what follows, signs their operand. -/
structure Binding where
  operator : Operator → Nat × Nat
  (sign percent : Nat)

def binding : Binding where
  operator
    | .eq | .ne | .gt | .ge | .lt | .le => (10, 11)
    | .concat => (20, 21)
    | .add | .sub => (30, 31)
    | .mul | .div => (40, 41)
    | .pow => (50, 50)
  sign := 70
  percent := 80

/-- A function name in capitals without the marks of newer functions. -/
def functionName (s : String) : String :=
  let name := stripCharsLeft "@" (upper (strip s))
  if startsWith "_XLFN." name then ((cut? "." name).elim name (·.2)) else name

def unquotedText (s : String) : String :=
  if 2 ≤ s.length && startsWith "\"" s && endsWith "\"" s then
    replace "\"\"" "\"" (slice 1 (s.length - 1) s)
  else s

variable (p : Place)

def ofOperand (k : OperandKind) (s : String) : Outcome Expr :=
  match k with
  | .number => .ok (.number s)
  | .text => .ok (.text (unquotedText s))
  | .logical => .ok (.bool (s = "TRUE"))
  | .error => .ok (.error s)
  | .range =>
    let s := strip s
    let (sheet, target) := splitSheet s
    if !isReference target then .error (p.refuse ("unsupported reference token " ++ quoted s))
    else
      let sheet := if sheet.getD "" = "" then p.sheet else sheet.getD ""
      .ok (.ref sheet (replace "$" "" target))

def ended : Fault := p.refuse "unexpected end of formula"

/-- What stands before an operator can end here. -/
def closes (t : Lexeme) : Bool :=
  match t.kind with
  | .comma | .semicolon | .closing .arguments | .closing .term => true
  | _ => false

mutual

/-- An expression of operators that bind at least as tightly as `least`; the rest follows it. -/
def expression (b : Binding) (p : Place) : Nat → Nat → List Lexeme → Outcome (Expr × List Lexeme)
  | 0, _, _ => .error (ended p)
  | fuel + 1, least, ts => do
    let (e, ts) ← operand b p fuel ts
    operations b p fuel least e ts

def operations (b : Binding) (p : Place) : Nat → Nat → Expr → List Lexeme → Outcome (Expr × List Lexeme)
  | 0, _, _, _ => .error (ended p)
  | _ + 1, _, e, [] => .ok (e, [])
  | fuel + 1, least, e, t :: ts =>
    if closes t then .ok (e, t :: ts)
    else match t.kind with
      | .percent =>
        if b.percent < least then .ok (e, t :: ts)
        else operations b p fuel least (.signed .percent e) ts
      | .operator =>
        match Operator.ofMark? t.text with
        | none => .error (p.refuse ("unsupported infix operator " ++ quoted t.text))
        | some o =>
          let (before, after) := b.operator o
          if before < least then .ok (e, t :: ts)
          else do
            let (r, ts) ← expression b p fuel after ts
            operations b p fuel least (.binary o e r) ts
      | _ => .ok (e, t :: ts)

/-- A sign and what it belongs to, brackets, a call or a single operand. -/
def operand (b : Binding) (p : Place) : Nat → List Lexeme → Outcome (Expr × List Lexeme)
  | 0, _ => .error (ended p)
  | _ + 1, [] => .error (ended p)
  | fuel + 1, t :: ts =>
    match t.kind with
    | .sign => do
      let (e, ts) ← expression b p fuel b.sign ts
      pure (.signed (if t.text = "-" then .minus else .plus) e, ts)
    | .opening .term => do
      let (e, ts) ← expression b p fuel 0 ts
      match ts with
      | [] => .error (ended p)
      | c :: ts =>
        if c.kind = .closing .term then pure (e, ts) else .error (p.refuse "expected ')'")
    | .opening .arguments => do
      let name := functionName (dropLast 1 t.text)
      match ts with
      | c :: rest =>
        if c.kind = .closing .arguments then pure (.call name [], rest)
        else arguments b p fuel name [] ts
      | [] => arguments b p fuel name [] ts
    | .operand k => do pure (← ofOperand p k t.text, ts)
    | _ => .error (p.refuse ("unsupported token " ++ t.kind.label ++ " " ++ quoted t.text))

def arguments (b : Binding) (p : Place) : Nat → String → List Expr → List Lexeme → Outcome (Expr × List Lexeme)
  | 0, _, _, _ => .error (ended p)
  | fuel + 1, name, acc, ts => do
    let (e, ts) ← expression b p fuel 0 ts
    match ts with
    | [] => .error (ended p)
    | c :: ts =>
      if c.kind = .comma || c.kind = .semicolon then arguments b p fuel name (e :: acc) ts
      else if c.kind = .closing .arguments then pure (.call name (e :: acc).reverse, ts)
      else .error (p.refuse ("function " ++ name ++ " missing closing ')'"))

end

def ofLexemes (ts : List Lexeme) : Outcome Expr := do
  if ts.isEmpty then .error (p.refuse "empty formula")
  else
    let (e, rest) ← expression binding p (3 * ts.length + 3) 0 ts
    match rest with
    | [] => pure e
    | t :: _ => .error (p.refuse ("unexpected token " ++ quoted t.text))

def ofFormula (formula : String) : Outcome Expr := do ofLexemes p (← Lexeme.all formula)

/-! Code -/

mutual

def code (p : Place) : Expr → Outcome String
  | number s => .ok s
  | text s => .ok (quoted s)
  | bool b => .ok (if b then "True" else "False")
  | error c => .ok ("xl_error(" ++ quoted c ++ ")")
  | ref sheet r =>
    let args := "(" ++ quoted sheet ++ ", " ++ quoted r ++ ")"
    .ok (if (spot? r.toList).isSome then "xl_ref(ctx.cell" ++ args ++ ")" else "ctx.range" ++ args)
  | signed s e => do pure (s.helper ++ "(" ++ (← code p e) ++ ")")
  | binary o a b => do
    let a ← code p a
    let b ← code p b
    pure (o.helper ++ "(" ++ a ++ ", " ++ b ++ ")")
  | call name args =>
    match function? name with
    | none => .error (p.refuse ("unsupported function " ++ name))
    | some (helper, _) => do pure (helper ++ "(" ++ join ", " (← codes p args) ++ ")")

def codes (p : Place) : List Expr → Outcome (List String)
  | [] => .ok []
  | e :: es => do
    let s ← code p e
    pure (s :: (← codes p es))

end

def codeOf (formula sheet cell : String) : Outcome String := do
  (← ofFormula ⟨sheet, cell⟩ formula).code ⟨sheet, cell⟩

end Expr

end Sheetwork.Model
