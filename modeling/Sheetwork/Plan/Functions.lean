import Sheetwork.Plan.Cells
import Sheetwork.Plan.Functions.Words
import Sheetwork.Plan.Functions.Finance
import Sheetwork.Plan.Functions.Lookup
import Sheetwork.Script.Evaluation
/-
  Plans: the functions of a script by name. Last arguments can be left out where they have a default; any other number
  of arguments is a mistake of the caller.
-/

namespace Sheetwork.Plan

abbrev Function := List Value → Outcome Value

namespace Functions

/-- Arguments, `n` in all, with defaults for the last ones that are missing. -/
def fit? (n : Nat) (defaults args : List Value) : Option (List Value) :=
  let least := n - defaults.length
  if least ≤ args.length && args.length ≤ n then some (args ++ defaults.drop (args.length - least))
  else none

def arity (n : Nat) (defaults : List Value) (f : List Value → Option (Outcome Value)) : Function := fun args =>
  ((fit? n defaults args).bind f).getD (.error .wrongKind)

variable (v : Value)

def none_ : Function := arity 0 [] fun _ => some (.ok v)

variable (defaults : List Value)

def one (f : Value → Outcome Value) : Function := arity 1 defaults fun
  | [a] => some (f a)
  | _ => none

def two (f : Value → Value → Outcome Value) : Function := arity 2 defaults fun
  | [a, b] => some (f a b)
  | _ => none

def three (f : Value → Value → Value → Outcome Value) : Function := arity 3 defaults fun
  | [a, b, c] => some (f a b c)
  | _ => none

def four (f : Value → Value → Value → Value → Outcome Value) : Function :=
  arity 4 defaults fun
    | [a, b, c, d] => some (f a b c d)
    | _ => none

def five (f : Value → Value → Value → Value → Value → Outcome Value) : Function :=
  arity 5 defaults fun
    | [a, b, c, d, e] => some (f a b c d e)
    | _ => none

def six (f : Value → Value → Value → Value → Value → Value → Outcome Value) : Function :=
  arity 6 defaults fun
    | [a, b, c, d, e, g] => some (f a b c d e g)
    | _ => none

/-- A function of one argument and any number of others. -/
def first (f : Value → List Value → Outcome Value) : Function
  | a :: rest => f a rest
  | [] => .error .wrongKind

def ofNumber (f : Float → Outcome Value) : Function := one [] fun v => do f (← num v)

def test (p : Value → Bool) : Function := one [] fun v => .ok (.bool (p v))

def ofText (f : String → Value) : Function := one [] fun v => .ok (f (textOf v))

/-! The functions -/

def ofNumbers : List (String × Function) :=
  [("_num", one [] real), ("_xl_sum", sum), ("_xl_mod", two [] modulo), ("_xl_power", two [] power),
    ("_xl_sqrt", ofNumber squareRoot), ("_xl_ln", one [] (logOr fun x => .ok (.float x.log))),
    ("_xl_log", two [.int 10] logBase), ("_xl_log10", one [] (logOr fun x => .ok (.float x.log10))),
    ("_xl_exp", one [] exponential), ("_xl_average", average),
    ("_xl_count", fun args => .ok (.ofNat (count args))),
    ("_xl_counta", fun args => .ok (.ofNat (countFilled args))),
    ("_xl_countblank", fun args => .ok (.ofNat (countBlank args))),
    ("_xl_rounddown", two [.int 0] roundDown), ("_xl_roundup", two [.int 0] roundUp),
    ("_xl_ceiling", two [.int 1] (multiple Number.ceil?)),
    ("_xl_floor", two [.int 1] (multiple Number.floor?)),
    ("_xl_sign", ofNumber fun x => .ok (.int (sign x))), ("_xl_large", two [] (ranked descending)),
    ("_xl_small", two [] (ranked ascending)), ("_xl_rank", three [.int 0] rank),
    ("_xl_median", median),
    ("_xl_stdev", deviation), ("_xl_var", variance),
    ("_match_criteria", two [] fun v c => .bool <$> meets v c), ("_xl_countif", two [] countIf),
    ("_xl_sumif", three [.null] sumIf), ("_xl_averageif", three [.null] averageIf),
    ("_xl_sumifs", first sumIfs),
    ("_xl_countifs", countIfs), ("_xl_sumproduct", sumProduct),
    ("_xl_pi", none_ (.float Script.pi))]

def ofTruth : List (String × Function) :=
  [("_xl_if", three [.bool false] fun c a b => .ok (if c.truthy then a else b)),
    ("_xl_and", fun args => .ok (.bool ((flat args).all Value.truthy))),
    ("_xl_or", fun args => .ok (.bool ((flat args).any Value.truthy))),
    ("_xl_not", test (!·.truthy)),
    ("_xl_iferror", two [] fun v other => .ok (if isFault v then other else v)),
    ("_xl_iserror", test isFault),
    ("_xl_isna", test isFault), ("_xl_na", none_ (.float (0.0 / 0.0))),
    ("_xl_isblank", test isBlank),
    ("_xl_isnumber", test Value.isPlainNumber), ("_xl_istext", test (·.text?.isSome)),
    ("_xl_type", one [] fun v => .ok (.int (kindNumber v)))]

def placeNumber : Value := if v.int?.isSome then v else .int 0

def size : Value := .ofNat ((v.items?.map List.length).getD 1)

def ofTables : List (String × Function) :=
  [("_xl_vlookup", four [.bool true] vlookup), ("_xl_hlookup", four [.bool true] hlookup),
    ("_xl_index", three [.null] index),
    ("_xl_match", three [.int 1] fun v range _ => position v range),
    ("_xl_choose", first choose), ("_xl_transpose", one [] .ok),
    ("_xl_indirect", two [.bool true] fun _ _ => .ok .null),
    ("_xl_row", one [.null] (.ok ∘ placeNumber)),
    ("_xl_column", one [.null] (.ok ∘ placeNumber)), ("_xl_rows", one [] (.ok ∘ size)),
    ("_xl_columns", one [] (.ok ∘ size))]

def ofTexts : List (String × Function) :=
  [("_xl_left", two [.int 1] left), ("_xl_right", two [.int 1] right), ("_xl_mid", three [] mid),
    ("_xl_len", ofText fun s => .ofNat s.length), ("_xl_trim", ofText (.text ∘ Text.strip)),
    ("_xl_upper", ofText (.text ∘ Text.upper)), ("_xl_lower", ofText (.text ∘ Text.lower)),
    ("_xl_concatenate", fun args => .ok (.text (String.join (args.map textOf)))),
    ("_xl_text", two [] fun v f => .ok (.text (formatted v f))), ("_xl_value", one [] value),
    ("_xl_find", three [.int 1] (find id)), ("_xl_search", three [.int 1] (find Text.lower)),
    ("_xl_substitute", four [.null] substitute), ("_xl_replace_func", four [] replaceAt),
    ("_xl_rept", two [] repeated),
    ("_xl_exact", two [] fun a b => .ok (.bool (textOf a == textOf b))),
    ("_xl_n", one [] fun v => if v.isNumber then real v else .ok (.float 0.0)),
    ("_xl_t", one [] fun v => .ok (.text (v.text?.getD ""))),
    ("_xl_numbervalue", three [".", ","] fun v p g => .ok (numberValue v p g)),
    ("chr", one [] charOf), ("ord", one [] codeOf)]

def ofDates : List (String × Function) :=
  [("_xl_year", one [] fun v => datePart Date.year (.int <$> whole v) v),
    ("_xl_month", one [] (datePart Date.month (.ok (.int 1)))),
    ("_xl_day", one [] (datePart Date.day (.ok (.int 1)))),
    ("_xl_date", three [] fun y m d => .ok (Script.dateOrNull y m d)),
    ("_xl_today", none_ (.date Calendar.clock.date)),
    ("_xl_now", none_ (.datetime Calendar.clock)),
    ("_xl_networkdays", three [.null] fun a b _ => .ok (networkDays a b)),
    ("_xl_edate", two [] fun v n => .ok (addMonths v n)),
    ("_xl_eomonth", two [] fun v n => .ok (endOfMonth v n))]

def ofMoney : List (String × Function) :=
  [("_xl_npv", first npv), ("_xl_irr", two [.float 0.1] irr), ("_xl_pmt", five [.int 0, .int 0] (ofFive payment)),
    ("_xl_pv", five [.int 0, .int 0] (ofFive presentValue)),
    ("_xl_fv", five [.int 0, .int 0] (ofFive futureValue)),
    ("_xl_rate", six [.int 0, .int 0, .float 0.1] rate),
    ("_xl_nper", five [.int 0, .int 0] periods),
    ("_xl_ppmt", six [.int 0, .int 0] (ofSix principal)),
    ("_xl_ipmt", six [.int 0, .int 0] (ofSix interest)),
    ("_xl_cumipmt", six [] (totalOf (ofSix interest))),
    ("_xl_cumprinc", six [] (totalOf (ofSix principal)))]

/-! Functions of cells -/

def sheetOf : Value → Outcome String
  | .text s => .ok s
  | .list _ | .keyed _ => .error .wrongKind
  | _ => .error .missingKey

def coordinate? : Option Int :=
  match v with
  | .float x => if x == x.floor then v.toInt.toOption else none
  | v => v.int?

def areKeys (vs : List Value) : Bool := vs.all fun v =>
  match v with
  | .list _ | .keyed _ => false
  | _ => true

variable (cells : Cells)

/-- Looks for a cell at no row or column that a cell can have: between two rows or two columns is
nothing. -/
def betweenCells (sheet row col : Value) : Outcome Unit := do
  let _ ← cells.workbook.sheet (← sheetOf sheet)
  if ← row.lt (.int 1) then .error .badValue
  else if ← col.lt (.int 1) then .error .badValue
  else if ← row.le (.int Address.maxRow) then pure ()
  else .error .badValue

def bound : Outcome Int := Fault.wrongKind.ifNone v.int?

def spot? (sheet row col : Value) : Outcome (Option Spot) := do
  if !areKeys [sheet, row, col] then .error .wrongKind
  else match coordinate? row, coordinate? col with
  | some r, some c => do pure (some ⟨← sheetOf sheet, r, c⟩)
  | _, _ => pure none

def cellAt (read : Spot → Outcome Value) (sheet row col : Value) : Outcome Value := do
  match ← spot? sheet row col with
  | some s => read s
  | none => do
    betweenCells cells sheet row col
    pure (if cells.zeros then .int 0 else .null)

def table (sheet top left bottom right : Value) : Outcome (List (List Value)) := do
  let r ← bound top
  let r' ← bound bottom
  if r' < r then pure []
  else
    let c ← bound left
    let c' ← bound right
    if c' < c then pure ((Cells.range "" r c r' c').map fun _ => [])
    else cells.rows (Cells.range (← sheetOf sheet) r c r' c')

/-- A cell, or a range of a size, moved by rows and columns. -/
def offset (cells : Cells) : List Value → Option (Outcome Value)
  | [sheet, row, col, rows, cols, height, width] => some do
    let r := (← whole row) + (← whole rows)
    let c := (← whole col) + (← whole cols)
    if height.isNull || width.isNull then cells.read ⟨← sheetOf sheet, r, c⟩
    else
      let h ← whole height
      let w ← whole width
      let vs ← table cells sheet (.int r) (.int c) (.int (r + h - 1)) (.int (c + w - 1))
      pure (.list vs.flatten)
  | _ => none

/-- The row and the column of an address, the first cell if it is none. -/
def addressNumbers : Value → Outcome Value
  | .text s =>
    let (r, c) := (rowCol? s).getD (1, 1)
    .ok (.tuple [.ofNat r, .ofNat c])
  | _ => .error .noProperty

def ofCells : List (String × Function) :=
  [("_g", three [] (cellAt cells cells.read)), ("_gn", three [] (cellAt { cells with zeros := true } cells.number)),
    ("_rng", five [] fun s r c r' c' => do pure (.list (← table cells s r c r' c').flatten)),
    ("_rng2d", five [] fun s r c r' c' => do pure (.list ((← table cells s r c r' c').map .list))),
    ("_rng_ncols", five [] fun _ _ c _ c' => do (← c'.sub c).add (.int 1)),
    ("_xl_offset", arity 7 [.null, .null] (offset cells)),
    ("_cell_to_rowcol", one [] addressNumbers)]

def ofValues : List (String × Function) := ofNumbers ++ ofTruth ++ ofTables ++ ofTexts ++ ofDates ++ ofMoney

def function? (cells : Cells) (name : String) : Option Function :=
  ((ofCells cells).lookup name).or ((ofValues.lookup name).or (Script.Builtin.function? name))

def call (name : String) (args : List Value) : Cells × Outcome Value :=
  match name, args with
  | "_s", [sheet, row, col, v] =>
    match spot? sheet row col with
    | .ok (some s) => (cells.set s v).map id fun r => r.map fun _ => .null
    | .ok none => (cells, (betweenCells cells sheet row col).map fun _ => .null)
    | .error f => (cells, .error f)
  | _, _ =>
    match function? cells name with
    | some f => (cells, f args)
    | none => (cells, .error .wrongKind)

def scope : Script.Scope := ⟨fun _ => none, function? cells⟩

end Functions

end Sheetwork.Plan
