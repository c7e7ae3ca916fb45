import Sheetwork.Value.Convert
import Sheetwork.Workbook.Address
/-
  Plans: the references of a formula, and formulas as they are seen from a cell. Quoted texts are hidden behind
  numbered marks first. A reference is a cell or a range in capitals, a sheet name in front of it; what stands before
  or after can make it part of a name or a function.
-/

namespace Sheetwork.Plan

open Text Text.Pattern

/-! Addresses -/

variable (s : String)

def invalid : Fault := .saying .badValue ("Invalid cell reference: " ++ s)

def addressPattern : Pattern := cap 1 (between 1 3 upperLetter) ++ cap 2 (plus digit)

def leadingCell? : Option (Nat × Nat) := do
  let m ← addressPattern.begin? s
  pure (Text.natOfDigits (m.group 2).toList, (Column.number (m.group 1)).toNat)

/-- The row and the column that a text begins with, dollar signs left out. -/
def rowCol? : Option (Nat × Nat) := leadingCell? (Text.replace "$" "" s)

def rowCol (s : String) : Outcome (Nat × Nat) := (invalid s).ifNone (rowCol? s)

def cellOrFirst : Nat × Nat := (leadingCell? s).getD (1, 1)

def addressOf (row col : Int) : Outcome String := do
  pure ((← Address.columnName col) ++ Text.ofInt row)

/-! Quoted texts -/

def quotedText : Pattern := chr '"' ++ many (noneOf "\"") ++ chr '"'

def markOf (i : Nat) : String := "\x00S" ++ Text.ofNat i ++ "\x00"

def hide (mark : Nat → String) (s : String) : String × List String :=
  let found := quotedText.all s
  let number (m : Match) := found.findIdx fun n => n.start = m.start
  (splice s.toList.toArray (fun m => mark (number m)) found, found.map Match.whole)

/-- Puts quoted texts back in the place of their marks, one after another. -/
def reveal (mark : Nat → String) (texts : List String) (s : String) : String :=
  texts.zipIdx.foldl (fun s (t, i) => Text.replace (mark i) t s) s

/-! References -/

structure Corner where
  (row col : Nat)
  (rowFixed colFixed : Bool)
  deriving DecidableEq

structure Reference where
  sheetText : String
  first : Corner
  last : Option Corner
  text : String
  deriving DecidableEq

namespace Reference

def sheetPart : Pattern :=
  choice [chr '\'' ++ many (choice [noneOf "'", lit "''"]) ++ chr '\'',
    plus (one fun c => isPlain c || c = '_' || c = '\\' || c = '.')] ++ chr '!'

def corner (n : Nat) : Pattern :=
  cap n (opt (chr '$')) ++ cap (n + 1) (between 1 3 upperLetter) ++ cap (n + 2) (opt (chr '$')) ++
    cap (n + 3) (one (fun c => '1' ≤ c && c ≤ '9') ++ between 0 6 digit)

def pattern : Pattern := opt (cap 1 sheetPart) ++ corner 2 ++ opt (chr ':' ++ corner 6)

def cornerOf (m : Match) (n : Nat) : Corner :=
  { row := natOfDigits (m.group (n + 3)).toList, col := (Column.number (m.group (n + 1))).toNat
    rowFixed := m.group (n + 2) = "$", colFixed := m.group n = "$" }

def ofMatch (m : Match) : Reference :=
  { sheetText := m.group 1, first := cornerOf m 2
    last := (m.group? 7).map fun _ => cornerOf m 6, text := m.whole }

/-- Whether a match stands for itself: no letter before it and no bracket after it. -/
def isWhole (m : Match) : Bool :=
  let before := if m.start = 0 then none else m.text[m.start - 1]?
  !(before.any fun c => isLetter c || c = '_') && m.text[m.stop]? != some '('

variable (r : Reference)

def sheet? : Option String :=
  if r.sheetText.isEmpty then none
  else some (stripChars "'" (stripCharsRight "!" r.sheetText))

/-- The cells of a reference, row by row; a range that runs backwards has none. -/
def cells : List Position :=
  match r.last with
  | none => [⟨r.first.row, r.first.col⟩]
  | some l =>
    (List.range (l.row + 1 - r.first.row)).flatMap fun i =>
      (List.range (l.col + 1 - r.first.col)).map fun j => ⟨r.first.row + i, r.first.col + j⟩

def count? : Option Nat :=
  let long := r.last.any fun l => 200 ≤ l.row - r.first.row || 200 ≤ l.col - r.first.col
  if long then none else some r.cells.length

def document : Value :=
  let sheet := r.sheet?.toList.map fun s => ("sheet", .text s)
  let stop := r.last.toList.flatMap fun l => [("end_col", toValue l.col), ("end_row", toValue l.row)]
  .record (sheet ++ [("col", toValue r.first.col), ("row", toValue r.first.row),
    ("col_abs", .bool r.first.colFixed), ("row_abs", .bool r.first.rowFixed)] ++ stop ++
    [("end_col_abs", .bool (r.last.any Corner.colFixed)), ("end_row_abs", .bool (r.last.any Corner.rowFixed)),
      ("is_range", .bool r.last.isSome), ("original", .text r.text), ("n", toValue r.count?)])

end Reference

def isFormula : Bool := startsWith "=" s

def references (formula : String) : List Reference :=
  if isFormula formula then
    ((Reference.pattern.all (hide markOf formula).1).filter Reference.isWhole).map Reference.ofMatch
  else []

def referredCells (formula sheet : String) : List (String × Position) :=
  (references formula).flatMap fun r =>
    let s := match r.sheet? with
      | some s => if s.isEmpty then sheet else s
      | none => sheet
    r.cells.map (s, ·)

/-! Formulas as seen from a cell -/

/-- A coordinate as it is seen from another: fixed, the same, or by its distance. -/
def coordinate (mark : String) (fixed : Bool) (n : Nat) (origin : Int) : String :=
  if fixed then mark ++ ofNat n
  else if (n : Int) = origin then mark
  else mark ++ "[" ++ ofInt (n - origin) ++ "]"

def Corner.seenFrom (c : Corner) (row col : Int) : String :=
  coordinate "R" c.rowFixed c.row row ++ coordinate "C" c.colFixed c.col col

def Reference.seenFrom (r : Reference) (row col : Int) : String :=
  let last := (r.last.map fun l => ":" ++ l.seenFrom row col).getD ""
  r.sheetText ++ r.first.seenFrom row col ++ last

/-- A formula with its references as they are seen from a cell: equal for formulas that one can drag
  onto each other. -/
def relativeForm (formula : String) (row col : Int) : String :=
  if isFormula formula then
    let (masked, texts) := hide markOf formula
    let seen (m : Match) :=
      if Reference.isWhole m then (Reference.ofMatch m).seenFrom row col else m.whole
    reveal markOf texts (Reference.pattern.replaceAll seen masked)
  else formula

/-- A coordinate that a relative form gives: fixed by a number, moved by a number in brackets,
or the same. -/
def absolute (part : Option String) (base : Int) : Int × Bool :=
  match part with
  | none => (base, false)
  | some s =>
    if startsWith "[" s then (base + (Number.int? (slice 1 (s.length - 1) s)).getD 0, false)
    else ((Number.int? s).getD 0, true)

def relativePart : Pattern := choice [plus digit, chr '[' ++ opt (anyOf "-+") ++ plus digit ++ chr ']']

def relativePattern : Pattern :=
  opt (cap 1 Reference.sheetPart) ++ chr 'R' ++ opt (cap 2 relativePart) ++ chr 'C' ++ opt (cap 3 relativePart) ++
    opt (lit ":R" ++ opt (cap 4 relativePart) ++ chr 'C' ++ opt (cap 5 relativePart))

def placed (rowPart colPart : Option String) (row col : Int) : Outcome String := do
  let (r, rowFixed) := absolute rowPart row
  let (c, colFixed) := absolute colPart col
  let dollar (b : Bool) := if b then "$" else ""
  pure (dollar colFixed ++ (← Address.columnName c) ++ dollar rowFixed ++ ofInt r)

def formulaAt (form : String) (row col : Int) : Outcome String := do
  let (masked, texts) := hide markOf form
  let place (m : Match) := do
    let first ← placed (m.group? 2) (m.group? 3) row col
    let last ← if (m.group? 4).isSome || (m.group? 5).isSome then
        (":" ++ ·) <$> placed (m.group? 4) (m.group? 5) row col
      else pure ""
    pure (m.group 1 ++ first ++ last)
  pure (reveal markOf texts (← relativePattern.replaceAllM place masked))

end Sheetwork.Plan
