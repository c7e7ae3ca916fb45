import Sheetwork.Fault
import Sheetwork.Text.Basic
/-
  Workbooks: how cells look. Colours of six hexadecimal digits get two zeros in front; the font of an unstyled cell
  takes its colour from the theme.
-/

namespace Sheetwork

/-- A colour with a tint between -1 and 1. -/
inductive Color where
  | rgb (digits : String) (tint : Float := 0.0)
  | theme (n : Int) (tint : Float := 0.0)
  | indexed (n : Int) (tint : Float := 0.0)
  | auto (b : Bool) (tint : Float := 0.0)
  deriving BEq

namespace Color

def isHex (c : Char) : Bool := Text.isAsciiDigit c || ('a' ≤ c && c ≤ 'f') || ('A' ≤ c && c ≤ 'F')

def isFull (s : String) : Bool := s.length = 8 && s.toList.all isHex

def ofDigits (s : String) (tint : Float := 0.0) : Outcome Color :=
  if isFull s then .ok (.rgb s tint)
  else if s.length = 6 && s.toList.all isHex then .ok (.rgb ("00" ++ s) tint)
  else .error .badValue

def digits? : Color → Option String
  | rgb s _ => some s
  | _ => none

def tint : Color → Float
  | rgb _ t | theme _ t | indexed _ t | auto _ t => t

/-- What stands for the digits of a colour that is given in another way. -/
def noDigits : String := "Values must be of type <class 'str'>"

def digitsText (c : Color) : String := c.digits?.getD noDigits

end Color

structure Font where
  name : Option String := none
  size : Option Float := none
  bold : Bool := false
  italic : Bool := false
  underline : Option String := none
  strike : Option Bool := none
  vertAlign : Option String := none
  color : Option Color := none
  /-- The theme font it follows; a font that is put together follows none. -/
  scheme : Option String := none
  deriving BEq

namespace Font

def standardSize : Float := 11.0

def sized : Font := { name := some "Calibri", size := some standardSize }

def standard : Font := { sized with color := some (.theme 1 0.0), scheme := some "minor" }

end Font

/-- The marks that a font can have, and the places of its line. -/
def Font.underlines : List String := ["single", "double", "singleAccounting", "doubleAccounting"]

def Font.places : List String := ["superscript", "subscript", "baseline"]

structure Fill where
  pattern : Option String := none
  foreground : Color := .rgb "00000000"
  background : Color := .rgb "00000000"
  deriving BEq

def Fill.patterns : List String :=
  ["solid", "darkDown", "darkGray", "darkGrid", "darkHorizontal", "darkTrellis", "darkUp",
    "darkVertical", "gray0625", "gray125", "lightDown", "lightGray", "lightGrid", "lightHorizontal",
    "lightTrellis", "lightUp", "lightVertical", "mediumGray"]

def Fill.solid (c : Color) : Fill := ⟨some "solid", c, c⟩

structure Alignment where
  horizontal : Option String := none
  vertical : Option String := none
  wrap : Option Bool := none
  rotation : Int := 0
  shrink : Option Bool := none
  indent : Float := 0.0
  deriving BEq

namespace Alignment

def horizontalNames : List String :=
  ["general", "left", "center", "right", "fill", "justify", "centerContinuous", "distributed"]

def verticalNames : List String := ["top", "center", "bottom", "justify", "distributed"]

def checked (names : List String) : Option String → Outcome (Option String)
  | none | some "none" => .ok none
  | some s => if names.contains s then .ok (some s) else .error .badValue

def ofNames (h v : Option String) (wrap : Option Bool) : Outcome Alignment := do
  pure { horizontal := ← checked horizontalNames h, vertical := ← checked verticalNames v, wrap }

end Alignment

structure Side where
  style : Option String := none
  color : Option Color := none
  deriving BEq

def Side.styles : List String :=
  ["dashDot", "dashDotDot", "dashed", "dotted", "double", "hair", "medium", "mediumDashDot",
    "mediumDashDotDot", "mediumDashed", "slantDashDot", "thick", "thin"]

/-- A side, with what it leaves open from another. -/
def Side.join (a b : Option Side) : Option Side :=
  match a, b with
  | some x, some y => some ⟨x.style <|> y.style, x.color <|> y.color⟩
  | _, _ => a <|> b

/-- The sides of an unstyled cell are there without a line; once any side is given, the others are
missing. -/
structure Border where
  left : Option Side := some {}
  right : Option Side := some {}
  top : Option Side := some {}
  bottom : Option Side := some {}
  diagonal : Option Side := some {}
  vertical : Option Side := none
  horizontal : Option Side := none
  diagonalUp : Bool := false
  diagonalDown : Bool := false
  outline : Bool := true
  deriving BEq

def Border.bare : Border := { left := none, right := none, top := none, bottom := none, diagonal := none }

/-- The border of a cell at the edges of an area: there it has the lines of another border. -/
def Border.onEdges (b : Border) (top left bottom right : Bool) : Border :=
  let line (on : Bool) (s : Option Side) :=
    if on && s.any (·.style.isSome) then s else some {}
  { top := line top b.top, left := line left b.left, bottom := line bottom b.bottom, right := line right b.right }

structure Protection where
  locked : Bool := true
  hidden : Bool := false
  deriving BEq

structure Style where
  numberFormat : String := "General"
  /-- A look can be given without a number format. -/
  isUnformatted : Bool := false
  font : Font := Font.standard
  fill : Fill := {}
  align : Alignment := {}
  border : Border := {}
  protection : Protection := {}
  deriving BEq

def Style.plain : Style := {}

def Style.isPlain (st : Style) : Bool := st == plain

end Sheetwork
