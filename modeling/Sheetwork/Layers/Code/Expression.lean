import Sheetwork.Workbook.Address
/-
  Layers: formulas as expressions of a script, by successive replacements in the text. A cell is read from the store
  `c` under its sheet, column and row; ranges are opened up first, and calls of `IF` become conditional expressions
  last.
-/

namespace Sheetwork.Layers.Code

open Text Text.Pattern

/-! Whole columns -/

def rowMark : Pattern := lit "\x7brow\x7d"

def markedColumn (n : Nat) : Pattern := cap n upperLetter.plus ++ rowMark

def plainNumber (n : Nat) : Pattern := cap n (one fun c => isAsciiDigit c || c = '.').plus

def column (m : Match) (n : Nat) : String := "df['" ++ m.group n ++ "']"

/-- The forms of a dragged formula that can be computed on whole columns, and what they become. -/
def columnForms : List (Pattern × (Match → String)) :=
  let mk (p : Pattern) (f : Match → String) := ((chr '=').opt ++ p ++ finish, f)
  let limited (name : String) :=
    lit name ++ chr '(' ++ markedColumn 1 ++ chr ',' ++ blank.many ++ plainNumber 2 ++ chr ')'
  [mk (markedColumn 1 ++ cap 2 (anyOf "+-*/^") ++ markedColumn 3)
      fun m => column m 1 ++ " " ++ replace "^" "**" (m.group 2) ++ " " ++ column m 3,
    mk (markedColumn 1 ++ chr '*' ++ plainNumber 2) fun m => column m 1 ++ " * " ++ m.group 2,
    mk (markedColumn 1 ++ cap 2 (anyOf "*/") ++ plainNumber 3)
      fun m => column m 1 ++ " " ++ m.group 2 ++ " " ++ m.group 3,
    mk (lit "ABS(" ++ markedColumn 1 ++ chr ')') fun m => column m 1 ++ ".abs()",
    mk (limited "MAX") fun m => column m 1 ++ ".clip(lower=" ++ m.group 2 ++ ")",
    mk (limited "MIN") fun m => column m 1 ++ ".clip(upper=" ++ m.group 2 ++ ")"]

def choiceForm : Pattern :=
  lit "IF(" ++ cap 1 (noneOf ",").plus ++ chr ',' ++ cap 2 (noneOf ",").plus ++ chr ',' ++
    cap 3 (noneOf ")").plus ++ chr ')' ++ finish

/-- An operation on whole columns; `fuel` exceeds the length of the formula. -/
def onColumnsFuel : Nat → String → String
  | 0, f => "# TODO: Cannot vectorize: " ++ f
  | fuel + 1, f =>
    match columnForms.findSome? fun (p, g) => (p.begin? f).map g with
    | some s => s
    | none =>
      match choiceForm.begin? f with
      | some m =>
        let part := fun n => onColumnsFuel fuel (strip (m.group n))
        "np.where(" ++ part 1 ++ ", " ++ part 2 ++ ", " ++ part 3 ++ ")"
      | none => "# TODO: Cannot vectorize: " ++ f

variable (formula : String)

def onColumns : String := onColumnsFuel (formula.length + 1) formula

/-! Cell by cell -/

def expandRanges : Outcome String :=
  (boundary ++ areaForm ++ boundary).replaceAllM (fun m => do
    let a ← Address.areaOf m
    pure (join ", " ((List.range (a.maxCol + 1 - a.minCol)).flatMap fun j =>
      (List.range (a.maxRow + 1 - a.minRow)).map fun i => (Position.mk (a.minRow + i) (a.minCol + j)).address))) formula

def stored (sheet col row : String) : String := "c.get(('" ++ sheet ++ "', '" ++ col ++ "', " ++ row ++ "), 0)"

def quotedSheetCell : Pattern := chr '\'' ++ cap 1 (noneOf "'").plus ++ lit "'!" ++ cellForm 2

def plainSheetCell : Pattern := cap 1 (one fun c => isPlain c || c = '_').plus ++ chr '!' ++ cellForm 2

def ownCell : Pattern := boundary ++ cellForm 1 ++ boundary

def withStore (sheet formula : String) : String :=
  let onSheet (m : Match) := stored (m.group 1) (m.group 2) (m.group 3)
  ownCell.replaceAll (fun m => stored sheet (m.group 1) (m.group 2))
    (plainSheetCell.replaceAll onSheet (quotedSheetCell.replaceAll onSheet formula))

/-- The functions of a workbook and those of a script, in the order in which they are replaced. -/
def functions : List (String × String) :=
  [("SUM", "xl_sum"), ("AVERAGE", "xl_average"), ("COUNT", "xl_count"), ("MIN", "min"), ("MAX", "max"),
    ("ABS", "abs"), ("ROUND", "round"), ("AND", "all"), ("OR", "any"), ("NOT", "not"),
    ("EOMONTH", "xl_eomonth"), ("YEAR", "xl_year"), ("MONTH", "xl_month"), ("DAY", "xl_day"),
    ("DATE", "xl_date"), ("TODAY", "xl_today"), ("DAYS", "xl_days"), ("EDATE", "xl_edate"),
    ("LEN", "len"), ("IFERROR", "xl_iferror"), ("SUMIF", "xl_sumif"),
    ("SUMPRODUCT", "xl_sumproduct"),
    ("COUNTA", "xl_counta"), ("ISNUMBER", "xl_isnumber"), ("ISBLANK", "xl_isblank"),
    ("CONCATENATE", "xl_concatenate")]

def withFunctions (s : String) : String := functions.foldl (fun s (name, new) => replace (name ++ "(") (new ++ "(") s) s

/-! Conditionals -/

/-- Splits at commas outside brackets; `cur` is the part being read, reversed. -/
def splitFrom (depth : Int) (cur : List Char) : List Char → List (List Char)
  | [] => if cur.isEmpty then [] else [stripL cur.reverse]
  | c :: r =>
    if c = '(' then splitFrom (depth + 1) (c :: cur) r
    else if c = ')' then splitFrom (depth - 1) (c :: cur) r
    else if c = ',' && depth = 0 then stripL cur.reverse :: splitFrom depth [] r
    else splitFrom depth (c :: cur) r

def arguments (s : List Char) : List (List Char) := splitFrom 0 [] s

/-- What stands before the closing bracket of a call, and what follows it. -/
def closing? (depth : Nat) : List Char → Option (List Char × List Char)
  | [] => none
  | c :: r =>
    if c = ')' && depth = 0 then some ([], r)
    else
      let depth := if c = '(' then depth + 1 else if c = ')' then depth - 1 else depth
      (closing? depth r).map fun (a, b) => (c :: a, b)

/-- A conditional expression of two or three arguments; of others a call remains. -/
def conditional (inner : List Char) : List Char :=
  match arguments inner with
  | [test, yes, no] => '(' :: yes ++ " if ".toList ++ test ++ " else ".toList ++ no ++ [')']
  | [test, yes] => '(' :: yes ++ " if ".toList ++ test ++ " else None)".toList
  | _ => "xl_if(".toList ++ inner ++ [')']

/-- Opens up the first call of `IF`; one without a closing bracket is empty and
loses a character. -/
def openFirst? (s : List Char) : Option (List Char) :=
  (cutL? "IF(".toList s).map fun (before, after) =>
    match closing? 0 after with
    | some (inner, rest) => before ++ conditional inner ++ rest
    | none => before ++ conditional [] ++ after.drop 1

/-- Opens up calls as long as there is one of `IF`, at most `fuel` times. -/
def openFuel : Nat → List Char → List Char
  | 0, s => s
  | fuel + 1, s =>
    match openFirst? s with
    | some t => openFuel fuel t
    | none => s

/-- All calls of `IF` opened up: each step takes away one of the capital words. -/
def openConditionals (s : String) : String := String.ofList (openFuel (s.length + 1) s.toList)

/-- A formula without its mark as an expression that reads the store. -/
def cellwise (formula sheet : String) : Outcome String := do
  let s ← expandRanges formula
  pure (openConditionals (withFunctions (replace "^" "**" (withStore sheet s))))

/-- The formula without apostrophes and then equals signs in front. -/
def unmarked : String := stripCharsLeft "=" (stripCharsLeft "'" formula)

def expressionOf (formula sheet : String) (columns : Bool) : Outcome String :=
  if formula = "" then .ok "None"
  else if columns then .ok (onColumns (unmarked formula))
  else cellwise (unmarked formula) sheet

/-! How hard a formula is -/

inductive Complexity where
  | simple | moderate | complex

def Complexity.name : Complexity → String
  | simple => "SIMPLE"
  | moderate => "MODERATE"
  | complex => "COMPLEX"

def occurrences (sub s : String) : Nat := (split sub s).length - 1

def lookups : List String := ["VLOOKUP", "HLOOKUP", "INDEX", "MATCH", "OFFSET", "INDIRECT"]

def isArithmetic (s : String) : Bool :=
  let ok := one fun c => isAsciiUpper c || isAsciiDigit c || "+-*/(). ".toList.contains c
  ((ok.plus ++ finish).begin? s).isSome

def complexity : Complexity :=
  let f := unmarked formula
  if formula = "" then .simple
  else if 3 < occurrences "(" f || 2 < occurrences "IF(" f then .complex
  else if lookups.any fun name => contains name f then .moderate
  else if isArithmetic (replace "\x7bcol\x7d" "" (replace "\x7brow\x7d" "" f)) then .simple
  else .moderate

/-! What a formula reads -/

structure Need where
  (sheet col : String)
  row : Nat

/-- The cells that a formula mentions; one of the current sheet counts only if no other mention has
its column and row. -/
def needs (formula sheet : String) : List Need :=
  let onSheet (p : Pattern) := (p.all formula).map fun m =>
    Need.mk (m.group 1) (m.group 2) (natOfDigits (m.group 3).toList)
  let others := onSheet quotedSheetCell ++ onSheet plainSheetCell
  let own := (ownCell.all formula).map fun m => Need.mk sheet (m.group 1) (natOfDigits (m.group 2).toList)
  own.foldl (fun ns n => if ns.any fun o => o.col = n.col && o.row = n.row then ns else ns ++ [n]) others

def neededColumns (pattern : String) : List String :=
  let f := unmarked pattern
  let fixed := chr '$' ++ cap 1 upperLetter.plus ++ (digit.plus <|> rowMark)
  Ordered.ofList (((markedColumn 1).all f ++ fixed.all f).map fun m => m.group 1)

end Sheetwork.Layers.Code
