import Sheetwork.Fault
import Sheetwork.Number.Decimal
/-
  Formulas: lexemes. Operands, brackets, separators, operators and blanks, as a spreadsheet reads a formula; the texts
  of the lexemes keep their quotes. A text that does not begin with an equals sign is one literal.
-/

namespace Sheetwork.Formula

inductive OperandKind where
  | text | number | logical | error | range
  deriving DecidableEq

inductive Enclosure where
  | arguments | array | term
  deriving DecidableEq

inductive LexemeKind where
  | literal
  | operand (k : OperandKind)
  | opening (e : Enclosure)
  | closing (e : Enclosure)
  /-- Between arguments. -/
  | comma
  /-- Between the rows of an array. -/
  | semicolon | sign | operator | percent | blank
  deriving DecidableEq

structure Lexeme where
  kind : LexemeKind
  text : String

def OperandKind.label : OperandKind → String
  | text => "TEXT"
  | number => "NUMBER"
  | logical => "LOGICAL"
  | error => "ERROR"
  | range => "RANGE"

def Enclosure.label : Enclosure → String
  | arguments => "FUNC"
  | array => "ARRAY"
  | term => "PAREN"

def LexemeKind.label : LexemeKind → String
  | literal => "LITERAL/"
  | operand k => "OPERAND/" ++ k.label
  | opening e => e.label ++ "/OPEN"
  | closing e => e.label ++ "/CLOSE"
  | comma => "SEP/ARG"
  | semicolon => "SEP/ROW"
  | sign => "OPERATOR-PREFIX/"
  | operator => "OPERATOR-INFIX/"
  | percent => "OPERATOR-POSTFIX/"
  | blank => "WHITE-SPACE/"

namespace Lexeme

def isRange (t : Lexeme) : Bool := t.kind = .operand .range

def operand (s : String) : Lexeme :=
  let kind :=
    if Text.startsWith "\"" s then OperandKind.text
    else if Text.startsWith "#" s then .error
    else if s = "TRUE" || s = "FALSE" then .logical
    else if (Number.float? s).isSome then .number
    else .range
  ⟨.operand kind, s⟩

def endsOperand (t : Lexeme) : Bool :=
  match t.kind with
  | .closing _ | .percent | .operand _ => true
  | _ => false

def errorCodes : List String := ["#NULL!", "#DIV/0!", "#VALUE!", "#REF!", "#NAME?", "#NUM!", "#N/A", "#GETTING_DATA"]

def enders : List Char := ",;\x7d) +-*/^&=><%".toList

/-- A digit but zero, decimals and the letter that an exponent follows. -/
def isMantissa (s : List Char) : Bool :=
  let letter (r : List Char) := r = ['e'] || r = ['E']
  match s with
  | c :: r =>
    '1' ≤ c && c ≤ '9' && match r with
      | '.' :: ds => !(ds.takeWhile Text.isAsciiDigit).isEmpty && letter (ds.dropWhile Text.isAsciiDigit)
      | r => letter r
  | [] => false

/-- A reading in progress: the lexemes so far, latest first, the open brackets, and the characters
of an operand that has begun, latest first. -/
structure Scan where
  items : List Lexeme := []
  opened : List Enclosure := []
  pending : List Char := []

namespace Scan

def fault : Fault := ⟨.badFormula, none⟩

variable (s : Scan)

def push (kind : LexemeKind) (text : String) : Scan := { s with items := ⟨kind, text⟩ :: s.items }

def pendingText : String := String.ofList s.pending.reverse

def save : Scan :=
  if s.pending.isEmpty then s
  else { s with items := operand s.pendingText :: s.items, pending := [] }

def extend (cs : List Char) : Scan := { s with pending := cs.reverse ++ s.pending }

def mayFollow (c : Char) : Outcome Unit :=
  if s.pending.isEmpty || s.pending.head? = some c then .ok () else .error fault

/-- The length of what stands before the closing quote, doubled quotes included. -/
def quotedLength? (quote : Char) : List Char → Option Nat
  | [] => none
  | [c] => if c = quote then some 0 else none
  | c :: d :: r =>
    if c ≠ quote then (quotedLength? quote (d :: r)).map (· + 1)
    else if d = quote then (quotedLength? quote r).map (· + 2)
    else some 0

def bracketLength? (depth : Nat) : List Char → Option Nat
  | [] => none
  | '[' :: r => (bracketLength? (depth + 1) r).map (· + 1)
  | ']' :: r => if depth = 1 then some 1 else (bracketLength? (depth - 1) r).map (· + 1)
  | _ :: r => (bracketLength? depth r).map (· + 1)

def isBlank (c : Char) : Bool := c = ' ' || c = '\n'

def text (cs : List Char) : String := String.ofList cs

/-- Reads on from the character `c` before `r`: the state, and how much of `r` is spent. -/
def step (c : Char) (r : List Char) : Outcome (Scan × Nat) := do
  if (c = '+' || c = '-') && isMantissa s.pending.reverse then return (s.extend [c], 0)
  let s := if enders.contains c then s.save else s
  match c with
  | '"' =>
    s.mayFollow ':'
    let n ← fault.ifNone (quotedLength? c r)
    pure ({ s with items := operand (text (c :: r.take (n + 1))) :: s.items }, n + 1)
  | '\'' =>
    s.mayFollow ':'
    let n ← fault.ifNone (quotedLength? c r)
    pure (s.extend (c :: r.take (n + 1)), n + 1)
  | '[' =>
    let n ← fault.ifNone (bracketLength? 1 r)
    pure (s.extend (c :: r.take n), n)
  | '#' =>
    s.mayFollow '!'
    let code ← fault.ifNone (errorCodes.find? fun e => e.toList.isPrefixOf (c :: r))
    pure ({ s with items := operand (s.pendingText ++ code) :: s.items, pending := [] }, code.length - 1)
  | ' ' | '\n' => pure (s.push .blank (text [c]), (r.takeWhile isBlank).length)
  | '%' => pure (s.push .percent "%", 0)
  | '+' | '-' =>
    let joins := (s.items.find? fun t => t.kind ≠ .blank).any endsOperand
    pure (s.push (if joins then .operator else .sign) (text [c]), 0)
  | '>' | '<' | '*' | '/' | '^' | '&' | '=' =>
    let two := [c] ++ r.take 1
    if [">=", "<=", "<>"].contains (text two) then pure (s.push .operator (text two), 1)
    else pure (s.push .operator (text [c]), 0)
  | '\x7b' =>
    if s.pending.isEmpty then
      pure ({ s.push (.opening .array) (text [c]) with opened := .array :: s.opened }, 0)
    else .error fault
  | '(' =>
    let e := if s.pending.isEmpty then Enclosure.term else .arguments
    let s' := { s with pending := [], opened := e :: s.opened }
    pure (s'.push (.opening e) (s.pendingText ++ "("), 0)
  | ')' | '\x7d' =>
    match s.opened with
    | [] => .error .outOfRange
    | e :: es =>
      if (c = '\x7d') = (e = .array) then pure ({ s.push (.closing e) (text [c]) with opened := es }, 0)
      else .error fault
  | ';' => pure (s.push .semicolon ";", 0)
  | ',' =>
    let separates := s.opened.head?.any (· ≠ .term)
    pure (s.push (if separates then .comma else .operator) ",", 0)
  | c => pure (s.extend [c], 0)

def run (s : Scan) : List Char → Outcome Scan
  | [] => .ok s
  | c :: r => do
    let (s, n) ← s.step c r
    run s (r.drop n)
termination_by cs => cs.length
decreasing_by
  simp only [List.length_drop, List.length_cons]
  omega

end Scan

def all (formula : String) : Outcome (List Lexeme) :=
  match formula.toList with
  | [] => .ok []
  | '=' :: r => do
    let s ← Scan.run {} r
    pure s.save.items.reverse
  | _ => .ok [⟨.literal, formula⟩]

end Lexeme

end Sheetwork.Formula
