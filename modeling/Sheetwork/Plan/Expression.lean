import Sheetwork.Plan.Reference
import Sheetwork.Script.Expression
import Sheetwork.Text.Template
/-
  Plans: formulas as expressions of a script. Names, error values, table references, ranges, cells, functions and
  operators are replaced one kind after another; what then is no expression becomes an empty value. Along a dragged
  row or column the moving coordinate is written with the loop's variable.
-/

namespace Sheetwork.Plan

open Text Text.Pattern

inductive Axis where
  | row | col
  deriving DecidableEq

namespace Axis

def name : Axis → String
  | row => "row"
  | col => "col"

def ofName? (s : String) : Option Axis := [row, col].find? (·.name = s)

def ofValue? (v : Value) : Option Axis := v.text?.bind ofName?

end Axis

/-! Coordinates -/

variable (name : String)

def moved (by_ : Int) : String :=
  if by_ = 0 then name
  else if 0 < by_ then name ++ " + " ++ ofInt by_
  else name ++ " - " ++ ofInt (-by_)

/-- A coordinate in a formula dragged along an axis: what is dragged along a row moves its columns,
  and the other way round; a fixed coordinate stays. -/
def coordinateText (along component : Option Axis) (value base : Int) (fixed : Bool) : String :=
  if fixed then ofInt value
  else match along, component with
    | some .row, some .col => moved "_col" (value - base)
    | some .col, some .row => moved "_row" (value - base)
    | _, _ => ofInt value

variable (s : String)

def hasFixedRow : Bool := ((opt (chr '$') ++ plus upperLetter ++ chr '$' ++ plus digit).begin? s).isSome

def hasFixedCol : Bool := startsWith "$" s

structure Standpoint where
  sheet : String
  row : Int := 0
  col : Int := 0
  along : Option Axis := none

variable (p : Standpoint)

/-- The row and the column of an address as code; `free` moves them whatever dollar signs say. -/
def Standpoint.code (address : String) (free : Bool := false) : String :=
  let (r, c) := (rowCol? address).getD (0, 0)
  coordinateText p.along (some .row) r p.row (!free && hasFixedRow address) ++ "," ++
    coordinateText p.along (some .col) c p.col (!free && hasFixedCol address)

/-! Names -/

def isNamePart (c : Char) : Bool := isPlain c || c = '_' || c = '.'

def wholeName : Pattern := behind false (one isNamePart) ++ lit name ++ ahead false (one isNamePart)

variable (names : List (String × String))

/-- A formula with defined names replaced by what they stand for, one name after another. -/
def resolveNames (formula : String) : Outcome String :=
  names.foldlM (fun f (name, ref) => do
    if ((wholeName name).search? f).isSome then
      let t ← template ref
      pure ((wholeName name).replaceAll (fun _ => t) f)
    else pure f) formula

/-! What is replaced -/

def stringMark (i : Nat) : String := "__XLSTR" ++ ofNat i ++ "__"

def errorValues : List String := ["#REF!", "#N/A", "#VALUE!", "#DIV/0!", "#NAME?", "#NULL!", "#NUM!"]

def letterOrLine : Pattern := one fun c => isAsciiLetter c || c = '_'

def tableReferences : List Pattern :=
  let name := letterOrLine ++ many word
  [name ++ lit "[[" ++ manyShort any ++ lit "]]", name ++ lit "[#" ++ many (noneOf "]") ++ chr ']', name ++ lit "[]",
    behind false (anyOf "'\"") ++ boundary ++ upperLetter ++ letterOrLine ++ many word ++ chr '[' ++
      one isAsciiLetter ++ many (noneOf "]") ++ chr ']']

def address (n : Nat) : Pattern := cap n (opt (chr '$') ++ between 1 3 upperLetter ++ opt (chr '$') ++ plus digit)

/-- A sheet name with its mark: in quotes, or of letters, digits and lines. -/
def sheetName : Pattern :=
  choice [chr '\'' ++ cap 1 (many (noneOf "'")) ++ chr '\'',
    cap 2 (plus (one fun c => isPlain c || c = '_'))] ++ chr '!'

def sheetLiteral (m : Match) : String :=
  match (m.group? 1).filter (!·.isEmpty), m.group? 2 with
  | some s, _ | none, some s => quoted s
  | none, none => "None"

def notAfter (more : String) : Pattern := behind false (one fun c => isPlain c || c = '_' || more.toList.contains c)

/-- No further digit, capital, bracket or colon. -/
def ended : Pattern := ahead false (one fun c => isAsciiUpper c || isAsciiDigit c || c = '(' || c = ':')

def rangeCode (sheet first last : String) : String := "_rng(" ++ sheet ++ "," ++ first ++ "," ++ last ++ ")"

def cellCode (sheet at_ : String) : String := "_g(" ++ sheet ++ "," ++ at_ ++ ")"

def placeReferences (s : String) : String :=
  let s := (sheetName ++ address 3 ++ chr ':' ++ address 4).replaceAll (fun m =>
    rangeCode (sheetLiteral m) (p.code (m.group 3) true) (p.code (m.group 4) true)) s
  let s := (notAfter "!" ++ address 1 ++ chr ':' ++ address 2).replaceAll (fun m =>
    rangeCode (quoted p.sheet) (p.code (m.group 1)) (p.code (m.group 2))) s
  let s := (sheetName ++ address 3 ++ ended).replaceAll (fun m => cellCode (sheetLiteral m) (p.code (m.group 3))) s
  (notAfter "!'\"" ++ address 1 ++ ended).replaceAll (fun m => cellCode (quoted p.sheet) (p.code (m.group 1))) s

def functionNames : List String :=
  ["SUM", "IF", "ABS", "MAX", "MIN", "ROUND", "INT", "MOD", "POWER", "SQRT", "LN", "LOG", "LOG10", "EXP", "AND",
    "OR", "NOT", "AVERAGE", "COUNT", "COUNTA", "COUNTIF", "VLOOKUP", "HLOOKUP", "INDEX", "MATCH", "IFERROR",
    "ISERROR", "ISBLANK", "LEFT", "RIGHT", "MID", "LEN", "TRIM", "UPPER", "LOWER", "CONCATENATE", "TEXT", "VALUE",
    "SUMIF", "SUMIFS", "SUMPRODUCT", "NPV", "IRR", "PMT", "PV", "FV", "RATE", "NPER", "PPMT", "IPMT", "CUMIPMT",
    "CUMPRINC", "TRANSPOSE", "OFFSET", "INDIRECT", "ROW", "COLUMN", "ROWS", "COLUMNS", "YEAR", "MONTH", "DAY",
    "DATE", "TODAY", "NOW", "NETWORKDAYS", "EDATE", "EOMONTH", "PI", "CHOOSE", "LARGE", "SMALL", "RANK", "MEDIAN",
    "STDEV", "VAR", "NA", "ROUNDDOWN", "ROUNDUP", "CEILING", "FLOOR", "SIGN", "COUNTBLANK", "AVERAGEIF", "COUNTIFS",
    "FIND", "SEARCH", "SUBSTITUTE", "REPLACE", "REPT", "EXACT", "TYPE", "N", "T", "ISNUMBER", "ISTEXT", "ISNA",
    "NUMBERVALUE", "CHAR", "CODE"]

/-- The code of a function: most have one of their own in the script. -/
def functionCode : String :=
  match name with
  | "ABS" | "MAX" | "MIN" | "ROUND" | "INT" => Text.lower name
  | "CHAR" => "chr"
  | "CODE" => "ord"
  | "REPLACE" => "_xl_replace_func"
  | _ => "_xl_" ++ Text.lower name

def called : Pattern := boundary ++ (lit name).anyCase ++ many blank ++ chr '('

def placeFunctions : String :=
  functionNames.foldl (fun s name => (called name).replaceAll (fun _ => functionCode name ++ "(") s) s

def placeOperators : String :=
  let s := (behind true (one fun c => isDecimal c || c = ')') ++ chr '%').replaceAll (fun _ => "/100") s
  let s := replace "<>" "!=" s
  let s := (behind false (anyOf "<>!=") ++ chr '=' ++ ahead false (chr '=')).replaceAll (fun _ => "==") s
  let s := replace "&" "+" (replace "^" "**" s)
  let whole (w : String) := boundary ++ (lit w).anyCase ++ boundary
  (whole "FALSE").replaceAll (fun _ => "False") ((whole "TRUE").replaceAll (fun _ => "True") s)

def hasOpenRange : Bool :=
  ((chr ')' ++ many blank ++ chr ':').search? s).isSome ||
    ((digit ++ many blank ++ chr ':' ++ many blank ++ lit "_xl_").search? s).isSome

/-- Puts an empty value between commas; `fuel` exceeds the number of commas. -/
def fillGaps : Nat → String → String
  | 0, s => s
  | fuel + 1, s => if contains ",," s then fillGaps fuel (replace ",," ",None," s) else s

def isIndent (c : Char) : Bool := c = ' ' || c = '\t' || c = '\x0c'

def isExpression : Bool := !(s.toList.head?.any isIndent) && (Script.Expr.ofText? s).isSome

/-- The expression of a formula without its equals sign, names already resolved. -/
def expressionOf (s : String) : String :=
  let (s, texts) := hide stringMark s
  let s := errorValues.foldl (fun s e => replace e "None" s) s
  let s := tableReferences.foldl (fun s t => t.replaceAll (fun _ => "None") s) s
  let s := placeOperators (placeFunctions (placeReferences p s))
  let s := replace "_xl_index(_rng(" "_xl_index(_rng2d(" (reveal stringMark texts s)
  if hasOpenRange s then "None"
  else
    let s := fillGaps s.length s
    if isExpression s then s else "None"

def expression (p : Standpoint) (formula : Value) : Outcome String :=
  if !formula.truthy then .ok formula.literal
  else match formula with
    | .text f =>
      if isFormula f then do pure (expressionOf p (← resolveNames names (drop 1 f)))
      else .ok formula.literal
    | _ => .error .noProperty

end Sheetwork.Plan
