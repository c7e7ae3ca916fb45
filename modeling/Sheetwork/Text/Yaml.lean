import Sheetwork.Text.Pattern
import Sheetwork.Value.Order
/-
  Texts: configuration files. A file holds nested mappings, one key to a line, with plain or quoted scalars;
  indentation shows the nesting.
-/

namespace Sheetwork.Yaml

open Text

/-- A line with a key: its indentation, the key and what follows the colon. -/
structure Line where
  indent : Nat
  (key value : List Char)

/-- Cuts off a comment, which starts at a sharp sign after a blank or at the start. -/
def dropComment (quote : Option Char) (afterBlank : Bool) : List Char → List Char
  | [] => []
  | c :: r =>
    match quote with
    | some q => c :: dropComment (if c = q then none else quote) false r
    | none =>
      if c = '#' && afterBlank then []
      else if (c = '"' || c = '\'') && afterBlank then c :: dropComment (some c) false r
      else c :: dropComment none (c = ' ' || c = '\t') r

def cutKey (quote : Option Char) : List Char → Option (List Char × List Char)
  | [] => none
  | c :: r =>
    let next := match quote with
      | some q => if c = q then none else quote
      | none => if c = '"' || c = '\'' then some c else none
    if c = ':' && quote.isNone && (r.head?.all fun d => d = ' ' || d = '\t') then some ([], r)
    else (cutKey next r).map fun (k, v) => (c :: k, v)

def lineOf (s : List Char) : Option Line :=
  let s := dropRightWhileL isBlank (dropComment none true s)
  let indent := (s.takeWhile (· = ' ')).length
  let body := s.drop indent
  if body.isEmpty || body = "---".toList || body = "...".toList then none
  else match cutKey none body with
    | some (k, v) => some ⟨indent, stripL k, stripL v⟩
    | none => some ⟨indent, [], stripL body⟩

open Text.Pattern in
def wholeNumber : Text.Pattern :=
  (anyOf "-+").opt ++ (chr '0' <|> (one (fun c => '1' ≤ c && c ≤ '9') ++ many (one fun c => isAsciiDigit c || c = '_')))

open Text.Pattern in
def pointNumber : Text.Pattern :=
  let run := one fun c => isAsciiDigit c || c = '_'
  let power := (anyOf "eE" ++ anyOf "-+" ++ (one isAsciiDigit).plus).opt
  ((anyOf "-+").opt ++ one isAsciiDigit ++ run.many ++ chr '.' ++ run.many ++ power) <|>
    ((anyOf "-+").opt ++ chr '.' ++ run.plus ++ power)

def truths : List String := ["yes", "Yes", "YES", "true", "True", "TRUE", "on", "On", "ON"]

def falsehoods : List String := ["no", "No", "NO", "false", "False", "FALSE", "off", "Off", "OFF"]

def nulls : List String := ["", "~", "null", "Null", "NULL"]

def unquoteSingle : List Char → List Char
  | '\'' :: '\'' :: r => '\'' :: unquoteSingle r
  | '\'' :: _ => []
  | c :: r => c :: unquoteSingle r
  | [] => []

def unquoteDouble : List Char → List Char
  | '\\' :: c :: r => (match c with
      | 'n' => '\n'
      | 't' => '\t'
      | 'r' => '\r'
      | '0' => Char.ofNat 0
      | c => c) :: unquoteDouble r
  | '"' :: _ => []
  | c :: r => c :: unquoteDouble r
  | [] => []

def scalar (cs : List Char) : Value :=
  match cs with
  | '\'' :: r => .text (String.ofList (unquoteSingle r))
  | '"' :: r => .text (String.ofList (unquoteDouble r))
  | _ =>
    let s := String.ofList cs
    if nulls.contains s then .null
    else if truths.contains s then .bool true
    else if falsehoods.contains s then .bool false
    else if s = "{}" then .keyed []
    else if (wholeNumber.full? s).isSome then .int ((Number.int? (replace "_" "" s)).getD 0)
    else if (pointNumber.full? s).isSome then .float ((Number.float? (replace "_" "" s)).getD 0)
    else .text s

/-- The mapping of the lines at an indentation, and the lines after it. -/
def mapping : Nat → Nat → List Line → List (Value × Value) → List (Value × Value) × List Line
  | fuel + 1, indent, l :: rest, acc =>
    if l.indent < indent then (acc, l :: rest)
    else if l.value.isEmpty then
      match rest with
      | next :: _ =>
        if indent < next.indent then
          let (inner, rest) := mapping fuel next.indent rest []
          mapping fuel indent rest (Value.insert (scalar l.key) (.keyed inner) acc)
        else mapping fuel indent rest (Value.insert (scalar l.key) .null acc)
      | [] => (Value.insert (scalar l.key) .null acc, [])
    else mapping fuel indent rest (Value.insert (scalar l.key) (scalar l.value) acc)
  | _, _, ls, acc => (acc, ls)

/-- The value of a file; one without a line is null. -/
def read (s : String) : Value :=
  let lines := (split "\n" s).filterMap fun l => lineOf l.toList
  match lines with
  | [] => .null
  | l :: rest =>
    if l.key.isEmpty then scalar l.value
    else .keyed (mapping (lines.length + 1) l.indent (l :: rest) []).1

end Sheetwork.Yaml
