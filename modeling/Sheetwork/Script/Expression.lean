import Sheetwork.Script.Token
/-
  Scripts: expressions and how they are read from tokens. A reader returns the expression and the tokens that follow
  it; its fuel bounds the depth of the calls, of which each takes a token or goes one level of precedence down.
-/

namespace Sheetwork.Script

inductive UnaryOp where
  | neg | pos | invert | not

inductive BinaryOp where
  | add | sub | mul | div | floorDiv | mod | pow | matMul | shiftLeft | shiftRight | bitAnd | bitOr | bitXor

inductive Comparison where
  | eq | ne | lt | le | gt | ge | isIn | notIn | same | notSame

inductive Expr where
  | const (v : Value)
  | name (s : String)
  | unary (op : UnaryOp) (e : Expr)
  | binary (op : BinaryOp) (a b : Expr)
  /-- A chain of comparisons, each with the operand before it. -/
  | compare (a : Expr) (rest : List (Comparison × Expr))
  | both (a b : Expr)
  | either (a b : Expr)
  | choose (test yes no : Expr)
  | call (f : Expr) (args : List Expr) (named : List (String × Expr))
  | member (e : Expr) (name : String)
  | item (e i : Expr)
  | slice (e i j : Expr)
  | list (xs : List Expr)
  | tuple (xs : List Expr)
  | table (es : List (Expr × Expr))
  | set (xs : List Expr)
  | spread (e : Expr)

namespace Expr

instance : Inhabited Expr := ⟨const .null⟩

/-- The binary operators by level of precedence, the loosest first. -/
def levels : List (List (String × BinaryOp)) :=
  [[("|", .bitOr)], [("^", .bitXor)], [("&", .bitAnd)], [("<<", .shiftLeft), (">>", .shiftRight)],
    [("+", .add), ("-", .sub)],
    [("*", .mul), ("/", .div), ("//", .floorDiv), ("%", .mod), ("@", .matMul)]]

def operatorAt? (ops : List (String × BinaryOp)) : Token → Option BinaryOp
  | .mark s => (ops.find? (·.1 = s)).map (·.2)
  | _ => none

def comparison? : List Token → Option (Comparison × List Token)
  | .mark "==" :: r => some (.eq, r)
  | .mark "!=" :: r => some (.ne, r)
  | .mark "<" :: r => some (.lt, r)
  | .mark "<=" :: r => some (.le, r)
  | .mark ">" :: r => some (.gt, r)
  | .mark ">=" :: r => some (.ge, r)
  | .keyword "in" :: r => some (.isIn, r)
  | .keyword "not" :: .keyword "in" :: r => some (.notIn, r)
  | .keyword "is" :: .keyword "not" :: r => some (.notSame, r)
  | .keyword "is" :: r => some (.same, r)
  | _ => none

def quotes : List Token → String × List Token
  | .quote s :: r =>
    let (t, rest) := quotes r
    (s ++ t, rest)
  | r => ("", r)

/-- One expression, or the tuple of several; a comma at the end makes a tuple of one. -/
def grouped : List Expr → Bool → Option Expr
  | [], _ => none
  | [.spread _], false => none
  | [e], false => some e
  | xs, _ => some (.tuple xs)

def isSpread : Expr → Bool
  | .spread _ => true
  | _ => false

def endsList : List Token → Bool
  | [] => true
  | .lineEnd :: _ => true
  | .mark s :: _ => [")", "]", "\x7d", "=", ":"].contains s
  | _ => false

abbrev Reading (α : Type) : Type := Nat → List Token → Option (α × List Token)

mutual

def read : Reading Expr
  | 0, _ => none
  | fuel + 1, ts => do
    let (a, ts) ← readOr fuel ts
    match ts with
    | .keyword "if" :: r =>
      let (t, r) ← readOr fuel r
      match r with
      | .keyword "else" :: r =>
        let (b, r) ← read fuel r
        some (.choose t a b, r)
      | _ => none
    | _ => some (a, ts)

def readOr : Reading Expr
  | 0, _ => none
  | fuel + 1, ts => do
    let (a, ts) ← readAnd fuel ts
    match ts with
    | .keyword "or" :: r =>
      let (b, r) ← readOr fuel r
      some (.either a b, r)
    | _ => some (a, ts)

def readAnd : Reading Expr
  | 0, _ => none
  | fuel + 1, ts => do
    let (a, ts) ← readNot fuel ts
    match ts with
    | .keyword "and" :: r =>
      let (b, r) ← readAnd fuel r
      some (.both a b, r)
    | _ => some (a, ts)

def readNot : Reading Expr
  | 0, _ => none
  | fuel + 1, ts =>
    match ts with
    | .keyword "not" :: r => (readNot fuel r).map fun (e, r) => (.unary .not e, r)
    | _ => do
      let (a, ts) ← readBinary fuel levels ts
      let (rest, ts) ← readChain fuel ts
      some (if rest.isEmpty then a else .compare a rest, ts)

def readChain : Reading (List (Comparison × Expr))
  | 0, _ => none
  | fuel + 1, ts =>
    match comparison? ts with
    | some (op, r) => do
      let (b, r) ← readBinary fuel levels r
      let (rest, r) ← readChain fuel r
      some ((op, b) :: rest, r)
    | none => some ([], ts)

/-- Operators of the given levels and all tighter ones, from left to right. -/
def readBinary (fuel : Nat) (ls : List (List (String × BinaryOp))) (ts : List Token) : Option (Expr × List Token) :=
  match fuel with
  | 0 => none
  | fuel + 1 =>
    match ls with
    | [] => readUnary fuel ts
    | ops :: tighter => do
      let (a, ts) ← readBinary fuel tighter ts
      readOperands fuel ops tighter a ts

def readOperands (fuel : Nat) (ops : List (String × BinaryOp)) (tighter : List (List (String × BinaryOp)))
    (a : Expr) (ts : List Token) : Option (Expr × List Token) :=
  match fuel with
  | 0 => none
  | fuel + 1 =>
    match ts with
    | t :: r =>
      match operatorAt? ops t with
      | some op => do
        let (b, r) ← readBinary fuel tighter r
        readOperands fuel ops tighter (.binary op a b) r
      | none => some (a, ts)
    | [] => some (a, ts)

def readUnary : Reading Expr
  | 0, _ => none
  | fuel + 1, ts =>
    match ts with
    | .mark "-" :: r => (readUnary fuel r).map fun (e, r) => (.unary .neg e, r)
    | .mark "+" :: r => (readUnary fuel r).map fun (e, r) => (.unary .pos e, r)
    | .mark "~" :: r => (readUnary fuel r).map fun (e, r) => (.unary .invert e, r)
    | _ => do
      let (a, ts) ← readAtom fuel ts
      let (a, ts) ← readTrailers fuel a ts
      match ts with
      | .mark "**" :: r =>
        let (b, r) ← readUnary fuel r
        some (.binary .pow a b, r)
      | _ => some (a, ts)

def readTrailers (fuel : Nat) (a : Expr) (ts : List Token) : Option (Expr × List Token) :=
  match fuel with
  | 0 => none
  | fuel + 1 =>
    match ts with
    | .mark "." :: .name s :: r => readTrailers fuel (.member a s) r
    | .mark "(" :: r => do
      let ((args, named), r) ← readArguments fuel r
      readTrailers fuel (.call a args named) r
    | .mark "[" :: r => do
      let (e, r) ← readItem fuel a r
      readTrailers fuel e r
    | _ => some (a, ts)

/-- Arguments up to the closing bracket; no plain one follows a named one. -/
def readArguments : Reading (List Expr × List (String × Expr))
  | 0, _ => none
  | fuel + 1, ts =>
    let more (r : List Token) := match r with
      | .mark ")" :: r => some (([], []), r)
      | .mark "," :: r => readArguments fuel r
      | _ => none
    match ts with
    | .mark ")" :: r => some (([], []), r)
    | .name s :: .mark "=" :: r => do
      let (e, r) ← read fuel r
      let ((args, named), r) ← more r
      if args.isEmpty && !named.any (·.1 = s) then some (([], (s, e) :: named), r) else none
    | .mark "*" :: r => do
      let (e, r) ← read fuel r
      let ((args, named), r) ← more r
      some ((.spread e :: args, named), r)
    | _ => do
      let (e, r) ← read fuel ts
      let ((args, named), r) ← more r
      some ((e :: args, named), r)

def readItem (fuel : Nat) (a : Expr) (ts : List Token) : Option (Expr × List Token) :=
  match fuel with
  | 0 => none
  | fuel + 1 => do
    let (i, r) ← match ts with
      | .mark ":" :: _ => some (.const .null, ts)
      | _ => readTop fuel ts
    match r with
    | .mark "]" :: r => some (.item a i, r)
    | .mark ":" :: .mark "]" :: r => some (.slice a i (.const .null), r)
    | .mark ":" :: r =>
      let (j, r) ← read fuel r
      match r with
      | .mark "]" :: r => some (.slice a i j, r)
      | _ => none
    | _ => none

def readAtom : Reading Expr
  | 0, _ => none
  | fuel + 1, ts =>
    match ts with
    | .number v :: r => some (.const v, r)
    | .quote _ :: _ =>
      let (s, r) := quotes ts
      some (.const (.text s), r)
    | .name s :: r => some (.name s, r)
    | .keyword "None" :: r => some (.const .null, r)
    | .keyword "True" :: r => some (.const (.bool true), r)
    | .keyword "False" :: r => some (.const (.bool false), r)
    | .mark "(" :: .mark ")" :: r => some (.tuple [], r)
    | .mark "(" :: r => do
      let (e, r) ← readTop fuel r
      match r with
      | .mark ")" :: r => some (e, r)
      | _ => none
    | .mark "[" :: r => do
      let ((xs, _), r) ← readList fuel r
      match r with
      | .mark "]" :: r => some (.list xs, r)
      | _ => none
    | .mark "\x7b" :: .mark "\x7d" :: r => some (.table [], r)
    | .mark "\x7b" :: r => do
      let (_, r') ← readElement fuel r
      match r' with
      | .mark ":" :: _ =>
        let (es, r) ← readEntries fuel r
        some (.table es, r)
      | _ =>
        let ((xs, _), r) ← readList fuel r
        match r with
        | .mark "\x7d" :: r => some (.set xs, r)
        | _ => none
    | _ => none

def readElement : Reading Expr
  | 0, _ => none
  | fuel + 1, ts =>
    match ts with
    | .mark "*" :: r => (readBinary fuel levels r).map fun (e, r) => (.spread e, r)
    | _ => read fuel ts

def readList : Reading (List Expr × Bool)
  | 0, _ => none
  | fuel + 1, ts =>
    if endsList ts then some (([], false), ts)
    else do
      let (e, r) ← readElement fuel ts
      match r with
      | .mark "," :: r =>
        let ((xs, _), r) ← readList fuel r
        some ((e :: xs, true), r)
      | _ => some (([e], false), r)

def readEntries : Reading (List (Expr × Expr))
  | 0, _ => none
  | fuel + 1, ts =>
    match ts with
    | .mark "\x7d" :: r => some ([], r)
    | _ => do
      let (k, r) ← read fuel ts
      match r with
      | .mark ":" :: r =>
        let (v, r) ← read fuel r
        match r with
        | .mark "\x7d" :: r => some ([(k, v)], r)
        | .mark "," :: r =>
          let (es, r) ← readEntries fuel r
          some ((k, v) :: es, r)
        | _ => none
      | _ => none

def readTop : Reading Expr
  | 0, _ => none
  | fuel + 1, ts => do
    let ((xs, comma), r) ← readList fuel ts
    (grouped xs comma).map (·, r)

end

def fuelFor (ts : List Token) : Nat := 20 * (ts.length + 1)

def isLineEnd : Token → Bool
  | .lineEnd => true
  | _ => false

def ofTokens? (ts : List Token) : Option Expr :=
  let ts := ts.dropWhile isLineEnd
  match readTop (fuelFor ts) ts with
  | some (e, r) => if r.all isLineEnd then some e else none
  | none => none

/-- The expression that a text writes; nothing is spread at its top. -/
def ofText? (s : String) : Option Expr := do
  let ts := (← Token.scan? s).dropWhile isLineEnd
  let ((xs, comma), r) ← readList (fuelFor ts) ts
  if r.all isLineEnd && !xs.any isSpread then grouped xs comma else none

end Expr

end Sheetwork.Script
