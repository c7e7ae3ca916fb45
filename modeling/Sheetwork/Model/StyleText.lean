import Sheetwork.Json.Reader
import Sheetwork.Json.Writer
import Sheetwork.Workbook.Style
/-
  Models: looks as texts. A look is written as a record of its parts; reading one back checks every part, and a fill
  has to have both colours.
-/

namespace Sheetwork.Model

namespace StyleText

def optional {α : Type} (make : α → Value) (o : Option α) : Value := o.elim .null make

/-! Writing -/

def kindOf : Color → String
  | .rgb .. => "rgb"
  | .theme .. => "theme"
  | .indexed .. => "indexed"
  | .auto .. => "auto"

def ofColor (c : Color) : Value :=
  let (indexed, theme, auto) : Value × Value × Value := match c with
    | .rgb .. => (.null, .null, .null)
    | .theme n _ => (.null, .int n, .null)
    | .indexed n _ => (.int n, .null, .null)
    | .auto b _ => (.null, .null, .bool b)
  .record [("type", .text (kindOf c)), ("rgb", c.digitsText), ("indexed", indexed),
    ("theme", theme), ("tint", .float c.tint), ("auto", auto)]

def ofSide (s : Side) : Value := .record [("style", optional .text s.style), ("color", optional ofColor s.color)]

def ofFont (f : Font) : Value :=
  .record [("name", optional .text f.name), ("size", optional .float f.size), ("bold", .bool f.bold),
    ("italic", .bool f.italic), ("underline", optional .text f.underline),
    ("strike", optional .bool f.strike), ("color", optional ofColor f.color),
    ("vert_align", optional .text f.vertAlign)]

def ofFill (f : Fill) : Value :=
  .record [("fill_type", optional .text f.pattern), ("fg_color", ofColor f.foreground),
    ("bg_color", ofColor f.background)]

def ofAlignment (a : Alignment) : Value :=
  .record [("horizontal", optional .text a.horizontal), ("vertical", optional .text a.vertical),
    ("text_rotation", .int a.rotation), ("wrap_text", optional .bool a.wrap),
    ("shrink_to_fit", optional .bool a.shrink), ("indent", .float a.indent)]

def ofBorder (b : Border) : Value :=
  let side := optional ofSide
  .record [("left", side b.left), ("right", side b.right), ("top", side b.top), ("bottom", side b.bottom),
    ("diagonal", side b.diagonal), ("diagonal_down", .bool b.diagonalDown),
    ("diagonal_up", .bool b.diagonalUp), ("outline", .bool b.outline),
    ("vertical", side b.vertical),
    ("horizontal", side b.horizontal)]

def ofProtection (p : Protection) : Value := .record [("locked", .bool p.locked), ("hidden", .bool p.hidden)]

def ofLook (format : Value) (s : Style) : Value :=
  .record [("number_format", format), ("font", ofFont s.font), ("fill", ofFill s.fill),
    ("alignment", ofAlignment s.align), ("border", ofBorder s.border),
    ("protection", ofProtection s.protection)]

def ofStyle (s : Style) : Value := ofLook (.text s.numberFormat) s

/-! Reading -/

variable (v : Value)

def field (k : String) : Outcome Value :=
  match v with
  | .keyed _ => .ok (v.get k)
  | _ => .error .noProperty

def part (k : String) : Outcome Value :=
  match v with
  | .keyed _ => .ok ((v.get? k).getD (.keyed []))
  | _ => .error .noProperty

def flag : Bool :=
  match v with
  | .text s => ["false", "f", "0", ""].all (· ≠ s)
  | v => v.truthy

def flag? : Option Bool := if v.isNull then none else some (flag v)

def choice (names : List String) (v : Value) : Outcome (Option String) :=
  match v with
  | .null => .ok none
  | .text s => Alignment.checked names (some s)
  | .list _ | .keyed _ => .error .wrongKind
  | _ => .error .badValue

def number? : Outcome (Option Float) := if v.isNull then .ok none else some <$> v.toSize

def within (lo hi : Float) (x : Float) : Outcome Float := if hi < x || x < lo then .error .badValue else .ok x

def whole? : Option Int := v.toInt.toOption

def auto? : Option Bool :=
  if v == .bool true then some true else if v == .bool false then some false else none

/-- The index counts before the theme, the theme before the automatic colour, and
that before digits. -/
def color? : Outcome (Option Color) := do
  if !v.truthy then return none
  let indexed ← field v "indexed"
  let tint := (← field v "tint").toFloat.toOption
  let base ← match whole? indexed, whole? (← field v "theme"), auto? (← field v "auto") with
    | some n, _, _ => pure (fun t => Color.indexed n t)
    | none, some n, _ => pure (fun t => Color.theme n t)
    | none, none, some b => pure (fun t => Color.auto b t)
    | none, none, none => match ← field v "rgb" with
      | .text s => do
        let c ← Color.ofDigits s
        pure fun t => Color.rgb c.digitsText t
      | _ => .error .wrongKind
  let tint ← Fault.wrongKind.ifNone tint
  pure (some (base (← within (-1.0) 1.0 tint)))

def font : Outcome Font := do
  let name ← field v "name"
  let color ← color? (← field v "color")
  pure
    { name := if name.isNull then none else some name.toText
      size := ← number? (← field v "size")
      bold := flag (← field v "bold")
      italic := flag (← field v "italic")
      underline := ← choice Font.underlines (← field v "underline")
      strike := flag? (← field v "strike")
      vertAlign := ← choice Font.places (← field v "vert_align")
      color }

def fill : Outcome Fill := do
  let pattern ← field v "fill_type"
  let foreground ← color? (← field v "fg_color")
  let background ← color? (← field v "bg_color")
  pure
    { pattern := ← choice Fill.patterns pattern
      foreground := ← Fault.wrongKind.ifNone foreground
      background := ← Fault.wrongKind.ifNone background }

/-- Degrees up to 180, or 255 for upright letters. -/
def rotation : Outcome Int := do
  let n ← if v.isNull then pure 0 else v.toInt
  if (0 ≤ n && n ≤ 180) || n = 255 then pure n else .error .badValue

def alignment : Outcome Alignment := do
  pure
    { horizontal := ← choice Alignment.horizontalNames (← field v "horizontal")
      vertical := ← choice Alignment.verticalNames (← field v "vertical")
      rotation := ← rotation (← field v "text_rotation")
      wrap := flag? (← field v "wrap_text")
      shrink := flag? (← field v "shrink_to_fit")
      indent := ← (← field v "indent").toSize >>= within 0 255 }

def side : Outcome Side := do
  if !v.truthy then return {}
  let style ← field v "style"
  let color ← color? (← field v "color")
  pure { style := ← choice Side.styles style, color }

def border : Outcome Border := do
  let at_ (k : String) := do some <$> side (← field v k)
  pure
    { left := ← at_ "left", right := ← at_ "right", top := ← at_ "top", bottom := ← at_ "bottom"
      diagonal := ← at_ "diagonal", vertical := ← at_ "vertical", horizontal := ← at_ "horizontal"
      diagonalDown := flag (← field v "diagonal_down")
      diagonalUp := flag (← field v "diagonal_up")
      outline := flag (← field v "outline") }

def protection : Outcome Protection := do
  pure { locked := flag (← field v "locked"), hidden := flag (← field v "hidden") }

/-- A look that was read: the number format as it is written, and the rest. -/
structure Look where
  format : Value
  style : Style

def read (v : Value) : Outcome (Option Look) := do
  if !v.truthy then return none
  match v with
  | .text s => do
    let r ← Json.read s
    let f ← part r "font"
    let p ← part r "fill"
    let a ← part r "alignment"
    let b ← part r "border"
    let l ← part r "protection"
    let style : Style :=
      { font := ← font f, fill := ← fill p, align := ← alignment a, border := ← border b
        protection := ← protection l }
    pure (some ⟨r.get "number_format", style⟩)
  | _ => .error .wrongKind

def again : Outcome Value := do
  pure ((← read v).elim (.keyed []) fun l => ofLook l.format l.style)

end StyleText

def writeStyle (s : Style) : Outcome String := Json.line.write (StyleText.ofStyle s)

def colorText (c : Color) : String := c.digitsText

end Sheetwork.Model
