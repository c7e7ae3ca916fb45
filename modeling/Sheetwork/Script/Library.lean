import Sheetwork.Reference.Basic
import Sheetwork.Text.Path
import Sheetwork.Value.Percent
import Sheetwork.Value.Convert
/-
  Scripts: the functions that generated scripts call. Values that are no numbers count as zero where a number is
  wanted, ranges are nested lists and are read row by row, and a criterion is a value or a text that begins with a
  comparison sign.
-/

namespace Sheetwork.Script

open Value Text

def number : Value → Value
  | .null => .int 0
  | .bool b => .int (if b then 1 else 0)
  | .int n => .int n
  | .float x => .float x
  | v => match v.toFloat with
    | .ok x => .float x
    | .error _ => .int 0

def flat (range : Value) : Outcome (List Value) := range.elements.map flattenAll

variable (args : List Value)

def numbers : List Value := ((flattenAll args).filter fun v => !v.isNull).map number

def sum : Outcome Value := sumFrom (.int 0) (numbers args)

def mean (xs : List Value) : Outcome Value :=
  if xs.isEmpty then .ok (.int 0) else (sumFrom (.int 0) xs).bind (Value.div · (.int xs.length))

def average : Outcome Value := mean (numbers args)

def count : Nat := (flattenAll args).countP isPlainNumber

def isFilled : Value → Bool
  | .null => false
  | .text s => s ≠ ""
  | _ => true

def countFilled : Nat := (flattenAll args).countP isFilled

def extreme (pick : List Value → Outcome Value) (args : List Value) : Outcome Value :=
  let xs := numbers args
  if xs.isEmpty then .ok (.int 0) else pick xs

variable (rule : Float → Option Int)

def wholeBy : Value → Outcome Value
  | .float x => .int <$> Value.wholeBy rule x
  | v => Fault.wrongKind.ifNone (v.int?.map .int)

/-- Texts and lists are not repeated more often than a machine word counts. -/
def maxRepeat : Int := 2 ^ (63 : Nat)

/-- A product whose only use is as a number: a repeated text or list is none. -/
def scale (v factor : Value) : Outcome Value :=
  match v, factor with
  | .int _, _ | .float _, _ | .bool _, _ => mul v factor
  | _, .int n => .error (if n ≥ maxRepeat && (v.isText || v.items?.isSome) then Fault.tooLarge else Fault.wrongKind)
  | _, _ => .error .wrongKind

/-- Rounds by a whole-number rule at `digits` decimal places. -/
def roundAt (v digits : Value) : Outcome Value := do
  let n ← digits.toInt
  let factor ← pow (.int 10) (.int n)
  let scaled ← scale v factor
  let whole ← wholeBy rule scaled
  div whole factor

variable (v : Value)

def squareRoot : Outcome Value := do
  let x ← (number v).toFloat
  if x < 0 then .error .badValue else pure (.float x.sqrt)

def length : Nat := if v.isNull then 0 else v.toText.length

def left (v n : Value) : Outcome Value := do
  let k ← n.toInt
  pure (.text (sliceText v.toText none (some k)))

def right (v n : Value) : Outcome Value := do
  let k ← n.toInt
  pure (.text (sliceText v.toText (some (-k)) none))

def mid (v start len : Value) : Outcome Value := do
  let a ← start.toInt
  let n ← len.toInt
  pure (.text (sliceText v.toText (some (a - 1)) (some (a - 1 + n))))

def trim : String := join " " (words v.toText)

def concatenate : String := String.join (args.map fun v => if v.isNull then "" else v.toText)

/-- The decimals that a number format asks for: what follows its last point without
zeros and hashes. -/
def formatDecimals (fmt : String) : Nat := (stripCharsRight "0#" ((split "." fmt).getLast?.getD "")).length

def formatted (v fmt : Value) : Outcome String :=
  let f := fmt.toText
  if !v.isNumber then .ok v.toText
  else if contains "%" f then v.toFloat.map fun x => Number.fixedText 2 (x * 100) ++ "%"
  else if contains "." f then v.toFloat.map (Number.fixedText (formatDecimals f))
  else .ok v.toText

/-- The number that a text writes, thousands separators left out; zero if it writes none. -/
def value : Value :=
  match Number.float? (replace "," "" v.toText) with
  | some x => .float x
  | none => .int 0

/-- The last row whose key is at most the wanted value, up to the first key above it. -/
def lastAtMost (wanted : Value) : List Value → Option Value → Outcome (Option Value)
  | [], best => .ok best
  | row :: rows, best => do
    let key ← row.at_ 0
    if key.isNull then lastAtMost wanted rows best
    else if ← le key wanted then lastAtMost wanted rows (some row)
    else if ← gt key wanted then pure best
    else lastAtMost wanted rows best

def firstEqual (wanted : Value) : List Value → Outcome (Option Value)
  | [] => .ok none
  | row :: rows => do
    let key ← row.at_ 0
    if key == wanted then pure (some row) else firstEqual wanted rows

def vlookup (wanted table col : Value) (approx : Value) : Outcome Value := do
  let c ← col.toInt
  let rows ← table.elements
  let row ← if approx.truthy then lastAtMost wanted rows none else firstEqual wanted rows
  match row with
  | none => pure .null
  | some row =>
    let n ← row.size
    if c - 1 < n then row.at_ (c - 1) else pure .null

/-- Searches the first row; only the exact mode finds anything. -/
def hlookup (wanted table row : Value) (approx : Value) : Outcome Value := do
  let r := (← row.toInt) - 1
  if !table.truthy then return .null
  let header ← table.at_ 0
  if approx.truthy then return .null
  search r 0 (← header.elements)
where
  search (r : Int) : Nat → List Value → Outcome Value
    | _, [] => .ok .null
    | i, v :: vs =>
      if v == wanted then do
        let n ← table.size
        if r < n then (← table.at_ r).at_ i else search r (i + 1) vs
      else search r (i + 1) vs

def index (array row col : Value) : Outcome Value := do
  let r := (← row.toInt) - 1
  let c ← if col.isNull then pure none else some <$> col.toInt
  match array with
  | .list xs =>
    if r < xs.length then
      let v ← nth xs r
      match c with
      | none => pure v
      | some c =>
        match v.items?.filter (c - 1 < ·.length) with
        | some ys => nth ys (c - 1)
        | none => pure (if c = 1 then v else .null)
    else pure .null
  | _ => pure .null

/-- The last position (from 1) whose value is there and passes the test. -/
def lastPosition (test : Value → Outcome Bool) : Nat → List Value → Value → Outcome Value
  | _, [], best => .ok best
  | i, v :: vs, best => do
    if v.isNull then lastPosition test (i + 1) vs best
    else if ← test v then lastPosition test (i + 1) vs (.int i)
    else lastPosition test (i + 1) vs best

def position (wanted range kind : Value) : Outcome Value := do
  let items (_ : Unit) := match range.items? with
    | some xs => Except.ok (flattenAll xs)
    | none => range.elements
  if kind == .int 0 then
    let xs ← items ()
    match xs.findIdx? (· == wanted) with
    | some i => pure (.int (i + 1))
    | none => pure .null
  else if kind == .int 1 then lastPosition (le · wanted) 1 (← items ()) .null
  else if kind == .int (-1) then lastPosition (ge · wanted) 1 (← items ()) .null
  else pure .null

def compareNumbers (test : Value → Value → Outcome Bool) (v : Value) (s : String) : Bool :=
  match test (number v) (number (.text s)) with
  | .ok b => b
  | .error _ => false

def isTextOf (s : String) : Bool := v == .text s || v.toText = s

def meets (v criterion : Value) : Bool :=
  match criterion with
  | .text s =>
    if startsWith ">=" s then compareNumbers ge v (drop 2 s)
    else if startsWith "<=" s then compareNumbers le v (drop 2 s)
    else if startsWith "<>" s then !isTextOf v (drop 2 s)
    else if startsWith ">" s then compareNumbers gt v (drop 1 s)
    else if startsWith "<" s then compareNumbers lt v (drop 1 s)
    else if startsWith "=" s then isTextOf v (drop 1 s)
    else if contains "*" s || contains "?" s then
      globMatches (lower s) (lower v.toText)
    else isTextOf v s
  | _ => v == criterion

/-- The entries of the second list whose partner in the first meets a criterion. -/
def selected (criterion : Value) (keys values : List Value) : List Value :=
  (keys.zip values).filterMap fun (k, v) => if meets k criterion then some v else none

variable (range criterion values : Value)

def selectedNumbers : Outcome (List Value) := do
  let keys ← flat range
  let values ← flat (if values.isNull then range else values)
  pure ((selected criterion keys values).map number)

def sumIf : Outcome Value := do
  sumFrom (.int 0) (← selectedNumbers range criterion values)

def averageIf : Outcome Value := do
  mean (← selectedNumbers range criterion values)

def countIf (range criterion : Value) : Outcome Value := do
  let keys ← flat range
  pure (.int (keys.countP (meets · criterion)))

/-- Ranges with their criteria; a last one without a partner is left out. -/
def pairs : List Value → List (Value × Value)
  | a :: b :: r => (a, b) :: pairs r
  | _ => []

/-- Whether position `i` of every range meets its criterion. -/
def meetsAll (i : Nat) : List (Value × Value) → Outcome Bool
  | [] => .ok true
  | (range, criterion) :: r => do
    let keys ← flat range
    match keys[i]? with
    | some k => if meets k criterion then meetsAll i r else pure false
    | none => pure false

def sumIfs (sumRange : Value) (args : List Value) : Outcome Value := do
  let values ← flat sumRange
  let conditions := pairs args
  values.zipIdx.foldlM (fun total (v, i) => do
    if ← meetsAll i conditions then add total (number v) else pure total) (.int 0)

def countIfs : Outcome Value := do
  match pairs args with
  | [] => pure (.int 0)
  | conditions@((first, _) :: _) =>
    let keys ← flat first
    let n ← (List.range keys.length).foldlM (fun (n : Nat) i => do
      if ← meetsAll i conditions then pure (n + 1) else pure n) 0
    pure (.int n)

def sumProduct (arrays : List Value) : Outcome Value := do
  let rows ← arrays.mapM flat
  if rows.isEmpty then return .int 0
  let n := (rows.map List.length).foldl min (rows.head?.map List.length |>.getD 0)
  (List.range n).foldlM (fun total i => do
    let product ← rows.foldlM (fun p xs => mul p (number (xs[i]?.getD .null))) (.int 1)
    add total product) (.int 0)

def rows : Value → Nat
  | .list xs => xs.length
  | _ => 1

def columns : Value → Nat
  | .list (x :: _) => match x.items? with
    | some ys => ys.length
    | none => 1
  | _ => 1

def dateOf? : Value → Option Date
  | .date d => some d
  | .datetime t => some t.date
  | _ => none

def word (n : Int) : Outcome Int := if -2 ^ (31 : Nat) ≤ n && n < 2 ^ (31 : Nat) then .ok n else .error .tooLarge

def dateFrom (y m d : Int) : Outcome Value := do
  let y ← word y
  let m ← word m
  let d ← word d
  if y < 0 || m < 0 || d < 0 then .error .badValue
  else match Date.ofParts? y.toNat m.toNat d.toNat with
    | some t => pure (.date t)
    | none => .error .badValue

def date (y m d : Value) : Outcome Value := do
  let y ← y.toInt
  let m ← m.toInt
  let d ← d.toInt
  dateFrom y m d

def dateOrNull (y m d : Value) : Value := (date y m d).toOption.getD .null

def monthAfter (t : Date) (months : Int) : Int × Nat :=
  let m := (t.month : Int) + months - 1
  (t.year + m.fdiv 12, (m.fmod 12).toNat + 1)

def monthLength (y : Int) (m : Nat) : Nat := Calendar.daysInMonth (y.fmod 400).toNat m

/-- The day in the month `months` after a date that a rule picks, given the length of that month. -/
def monthsLater (day : Date → Nat → Nat) (start months : Value) : Outcome Value :=
  match dateOf? start with
  | some t => do
    let (y, m) := monthAfter t (← months.toInt)
    dateFrom y m (day t (monthLength y m))
  | none => .ok start

def endOfMonth : Value → Value → Outcome Value := monthsLater fun _ n => n

/-- The same day `months` after a date, or the last of that month. -/
def addMonths : Value → Value → Outcome Value := monthsLater fun t n => min t.day n

def dateDifference (start stop unit : Value) : Outcome Value :=
  match dateOf? start, dateOf? stop with
  | some a, some b =>
    match unit with
    | .text u =>
      let u := upper u
      if u = "D" then do
        match ← sub stop start with
        | .span n => pure (.int (n / DateTime.dayMicros))
        | v => pure v
      else if u = "M" then .ok (.int (((b.year : Int) - a.year) * 12 + b.month - a.month))
      else if u = "Y" then .ok (.int ((b.year : Int) - a.year))
      else .ok (.int 0)
    | _ => .error .noProperty
  | _, _ => .ok (.int 0)

def pi : Float := Number.nearest false 884279719003555 281474976710656

def columnNumber : Value → Outcome Value
  | .text s => .ok (.int (Column.number s))
  | _ => .error .noProperty

def columnName : Outcome Value :=
  match v.int?, v with
  | some n, _ => .ok (.text (Column.name n))
  | none, .float x => if 0 < x then .error .wrongKind else .ok (.text "")
  | none, _ => .error .wrongKind

def truths : List Bool := (flattenAll args).map truthy

def tableColumn (table name : Value) : Outcome Value := do
  let rows ← table.elements
  let cells ← rows.mapM fun
    | .keyed es => Except.ok ((lookup name es).getD .null)
    | _ => .error .noProperty
  pure (.list cells)

/-- A rectangle of values, row by row, of a table keyed by column and row. -/
def cellBlock (cells c₁ r₁ c₂ r₂ : Value) : Outcome Value := do
  let a ← (← columnNumber c₁).toInt
  let b ← (← columnNumber c₂).toInt
  match r₁.int?, r₂.int? with
  | some r, some s =>
    let rows ← (List.range (s + 1 - r).toNat).mapM fun (i : Nat) => do
      let cs ← (List.range (b + 1 - a).toNat).mapM fun (j : Nat) =>
        match cells with
        | .keyed es =>
          let key := Value.tuple [.text (Column.name (a + j)), .int (r + i)]
          Except.ok ((lookup key es).getD .null)
        | _ => .error .noProperty
      pure (Value.list cs)
    pure (.list rows)
  | _, _ => .error .wrongKind

def call (name : String) (args : List Value) : Outcome Value :=
  match name, args with
  | "_to_num", [v] => .ok (number v)
  | "_flatten", [v] => (flat v).map .list
  | "_match_criteria", [v, c] => .ok (.bool (meets v c))
  | "_col_to_idx", [v] => columnNumber v
  | "_idx_to_col", [v] => columnName v
  | "_get_range", [d, a, b, c, e] => cellBlock d a b c e
  | "_get_table_column", [t, c] => tableColumn t c
  | "xl_sum", _ => sum args
  | "xl_average", _ => average args
  | "xl_count", _ => .ok (.int (count args))
  | "xl_counta", _ => .ok (.int (countFilled args))
  | "xl_min", _ => extreme minOf args
  | "xl_max", _ => extreme maxOf args
  | "xl_if", [c, t] => .ok (if c.truthy then t else .bool false)
  | "xl_if", [c, t, f] => .ok (if c.truthy then t else f)
  | "xl_and", _ => .ok (.bool ((truths args).all id))
  | "xl_or", _ => .ok (.bool ((truths args).any id))
  | "xl_not", [v] => .ok (.bool !v.truthy)
  | "xl_roundup", [v, d] => roundAt Number.ceil? v d
  | "xl_rounddown", [v, d] => roundAt Number.floor? v d
  | "xl_mod", [a, b] => percent a b
  | "xl_power", [a, b] => pow a b
  | "xl_sqrt", [v] => squareRoot v
  | "xl_len", [v] => .ok (.int (length v))
  | "xl_left", [v] => left v (.int 1)
  | "xl_left", [v, n] => left v n
  | "xl_right", [v] => right v (.int 1)
  | "xl_right", [v, n] => right v n
  | "xl_mid", [v, a, n] => mid v a n
  | "xl_upper", [v] => .ok (.text (upper v.toText))
  | "xl_lower", [v] => .ok (.text (lower v.toText))
  | "xl_trim", [v] => .ok (.text (trim v))
  | "xl_concatenate", _ => .ok (.text (concatenate args))
  | "xl_text", [v, f] => (formatted v f).map .text
  | "xl_value", [v] => .ok (value v)
  | "xl_vlookup", [v, t, c] => vlookup v t c (.bool true)
  | "xl_vlookup", [v, t, c, a] => vlookup v t c a
  | "xl_hlookup", [v, t, r] => hlookup v t r (.bool true)
  | "xl_hlookup", [v, t, r, a] => hlookup v t r a
  | "xl_index", [a, r] => index a r .null
  | "xl_index", [a, r, c] => index a r c
  | "xl_match", [v, r] => position v r (.int 1)
  | "xl_match", [v, r, k] => position v r k
  | "xl_iferror", [v, e] => .ok (if v.isNull then e else v)
  | "xl_isblank", [v] => .ok (.bool !isFilled v)
  | "xl_sumif", [r, c] => sumIf r c .null
  | "xl_sumif", [r, c, s] => sumIf r c s
  | "xl_sumifs", s :: r => sumIfs s r
  | "xl_countif", [r, c] => countIf r c
  | "xl_countifs", _ => countIfs args
  | "xl_averageif", [r, c] => averageIf r c .null
  | "xl_averageif", [r, c, s] => averageIf r c s
  | "xl_sumproduct", _ => sumProduct args
  | "xl_offset", b :: r =>
    if r.length = 2 || r.length = 3 || r.length = 4 then .ok b else .error .wrongKind
  | "xl_indirect", [v] => .ok v
  | "xl_row", [] => .ok (.int 1)
  | "xl_row", [_] => .ok (.int 1)
  | "xl_column", [] => .ok (.int 1)
  | "xl_column", [_] => .ok (.int 1)
  | "xl_rows", [v] => .ok (.int (rows v))
  | "xl_columns", [v] => .ok (.int (columns v))
  | "xl_year", [v] => .ok (.int ((dateOf? v).map (·.year) |>.getD 0))
  | "xl_month", [v] => .ok (.int ((dateOf? v).map (·.month) |>.getD 0))
  | "xl_day", [v] => .ok (.int ((dateOf? v).map (·.day) |>.getD 0))
  | "xl_date", [y, m, d] => date y m d
  | "xl_eomonth", [s, m] => endOfMonth s m
  | "xl_edate", [s, m] => addMonths s m
  | "xl_datedif", [s, e, u] => dateDifference s e u
  | "xl_pi", [] => .ok (.float pi)
  | _, _ => .error .wrongKind

end Sheetwork.Script
