import Sheetwork.Workbook.Basic
/-
  Workbooks: documents. A workbook is written down as nested records: sheets with cells by address, looks by address,
  merged areas, widths, heights and tables. A listing gives the cells of a workbook back row by row with what differs
  from an unstyled cell.
-/

namespace Sheetwork

def Color.ofDocument (v : Value) : Outcome Color := do
  let tint ← (v.get? "tint").elim (.ok 0.0) Value.toFloat
  match v.get "indexed", v.get "theme", v.get "auto", v.get "rgb" with
  | .int n, _, _, _ => pure (.indexed n tint)
  | _, .int n, _, _ => pure (.theme n tint)
  | _, _, .bool b, _ => pure (.auto b tint)
  | _, _, _, .text s => ofDigits s tint
  | _, _, _, _ => .error .badValue

def Color.ofDocument? (v : Value) : Outcome (Option Color) := if v.isNull then .ok none else some <$> ofDocument v

namespace Style

def bool? : Value → Option Bool
  | .bool b => some b
  | _ => none

def float? (v : Value) : Outcome (Option Float) := if v.isNull then .ok none else some <$> v.toFloat

def fontOfDocument (v : Value) : Outcome Font := do
  pure
    { name := (v.get "name").text?
      size := ← float? (v.get "size")
      bold := (v.get "bold").truthy
      italic := (v.get "italic").truthy
      underline := (v.get "underline").text?
      strike := bool? (v.get "strike")
      vertAlign := (v.get "vertAlign").text?
      color := ← Color.ofDocument? (v.get "color") }

def borderOfDocument (v : Value) : Border :=
  let side (k : String) := (v.get k).text?.map fun s => (⟨some s, none⟩ : Side)
  { Border.bare with left := side "left", right := side "right", top := side "top",
                     bottom := side "bottom", diagonal := side "diagonal" }

def alignOfDocument (h v wrap : Value) : Outcome Alignment := Alignment.ofNames h.text? v.text? (bool? wrap)

def withDocument (st : Style) (v : Value) : Outcome Style := do
  let has (k : String) := !(v.get k).isNull
  let st := match v.get "nf" with
    | .text s => { st with numberFormat := s }
    | _ => st
  let font ←
    if has "bold" || has "italic" || has "size" || has "color" then do
      let color ← match v.get "color" with
        | .text s => some <$> Color.ofDigits s
        | _ => .ok none
      let size ← float? (v.get "size")
      pure { Font.sized with
        size := size <|> Font.sized.size
        bold := (v.get "bold").truthy
        italic := (v.get "italic").truthy
        color }
    else pure st.font
  let font ← if has "font" then fontOfDocument (v.get "font") else pure font
  let fill ← match v.get "fill" with
    | .text s => Fill.solid <$> Color.ofDigits s
    | _ => pure st.fill
  let fill ← if has "pattern" then do
      let p := v.get "pattern"
      let fg ← Color.ofDocument? (p.get "fgColor")
      let bg ← Color.ofDocument? (p.get "bgColor")
      let none : Fill := {}
      pure ⟨(p.get "patternType").text?, fg.getD none.foreground, bg.getD none.background⟩
    else pure fill
  let align ← if has "h" || has "v" || has "wrap" then
      alignOfDocument (v.get "h") (v.get "v") (v.get "wrap")
    else pure st.align
  let align ← if has "align" then do
      let a := v.get "align"
      let base ← alignOfDocument (a.get "horizontal") (a.get "vertical") (a.get "wrap_text")
      let indent ← float? (a.get "indent")
      pure { base with
        rotation := (a.get "text_rotation").int?.getD 0
        shrink := bool? (a.get "shrink_to_fit")
        indent := indent.getD 0.0 }
    else pure align
  let border := if has "border" then borderOfDocument (v.get "border") else st.border
  let protection : Protection := if has "protect" then
      let p := v.get "protect"
      { locked := (bool? (p.get "locked")).getD true, hidden := (bool? (p.get "hidden")).getD false }
    else st.protection
  pure { st with font, fill, align, border, protection }

end Style

namespace Sheet

def entriesOf (v : Value) : List (String × Value) :=
  match v with
  | .keyed es => es.filterMap fun (k, v) => k.text?.map (·, v)
  | _ => []

def pairOf (v : Value) : Outcome (Value × Float) := do
  match v with
  | .list [k, w] => pure (k, ← w.toFloat)
  | _ => .error .badValue

def ofDocument (v : Value) : Outcome Sheet := do
  let s : Sheet := { name := (v.get "name").text?.getD "" }
  let s ← (entriesOf (v.get "cells")).foldlM (fun s (a, x) => s.putAt a x) s
  let s ← (entriesOf (v.get "cached")).foldlM (fun s (a, x) => do
    pure (s.modify (← Address.cell a) fun c => { c with cached := x })) s
  let s ← (entriesOf (v.get "styles")).foldlM (fun s (a, x) => do
    let p ← Address.cell a
    let style ← (s.cell p).style.withDocument x
    pure (s.restyle p fun _ => style)) s
  let s ← ((v.get "comments").items?.getD []).foldlM (fun s a => do
    let p ← Address.cell (a.text?.getD "")
    pure (s.modify p fun c => { c with hasComment := true })) s
  let s ← ((v.get "merged").items?.getD []).foldlM (fun s a => do
    let area ← Fault.badValue.ifNone (Address.area? (a.text?.getD ""))
    pure (s.merge area)) s
  let s ← ((v.get "widths").items?.getD []).foldlM (fun s e => do
    let (k, w) ← pairOf e
    pure (s.putWidth (k.text?.getD "") w)) s
  let s ← ((v.get "heights").items?.getD []).foldlM (fun s e => do
    let (k, h) ← pairOf e
    pure (s.putHeight (k.int?.getD 0).toNat h)) s
  let tables := ((v.get "tables").items?.getD []).map fun t =>
    ((t.get "name").text?.getD "", (t.get "ref").text?.getD "")
  let tab ← match v.get "tab" with
    | .text c => some <$> Color.ofDigits c
    | _ => pure none
  pure { s with tables, tab, freeze := (v.get "freeze").text? }

end Sheet

def Workbook.ofDocument (v : Value) : Outcome Workbook := do
  let sheets ← ((v.get "sheets").items?.getD []).mapM Sheet.ofDocument
  let w : Workbook := sheets.foldl append {}
  let names := ((v.get "names").items?.getD []).filterMap fun e =>
    match e with
    | .list [.text n, .text r] => some (n, r)
    | _ => none
  pure { w with names }

/-! Listings -/

namespace Cell

def when (b : Bool) (k : String) (v : Value) : List (String × Value) := if b then [(k, v)] else []

def styleListing (st : Style) : List (String × Value) :=
  let text (k : String) (s : Option String) := (s.map fun s => (k, Value.text s)).toList
  when st.isUnformatted "nf" .null ++
  when (!st.isUnformatted && st.numberFormat != "General") "nf" (.text st.numberFormat) ++
  when st.font.bold "bold" (.bool true) ++
  when st.font.italic "italic" (.bool true) ++
  (st.font.size.elim [] fun z => when (z != Font.standardSize) "size" (.float z)) ++
  text "color" (st.font.color.bind Color.digits?) ++
  text "fill" (st.fill.pattern.map fun _ => st.fill.foreground.digitsText) ++
  text "h" st.align.horizontal ++ text "v_align" st.align.vertical ++
  (st.align.wrap.elim [] fun b => when b "wrap" (.bool true))

def listing (c : Cell) : Value := Value.record (("v", c.value) :: styleListing c.style)

def isListed (c : Cell) : Bool := !c.value.isNull || !(styleListing c.style).isEmpty

end Cell

def Sheet.listing (s : Sheet) : Value :=
  let cells := s.entries.filter fun e => e.2.isListed
  Value.record ([("name", .text s.name),
      ("cells", .list (cells.map fun (p, c) => .list [.text p.address, c.listing]))] ++
    Cell.when (!s.merged.isEmpty) "merged" (.list (s.merged.map fun a => .text a.name)) ++
    Cell.when (!s.widths.isEmpty) "widths" (.record (s.widths.map fun (k, w) => (k, .float w))) ++
    Cell.when (!s.heights.isEmpty) "heights" (.record (s.heights.map fun (k, h) => (Text.ofNat k, .float h))) ++
    (s.freeze.map fun a => ("freeze", Value.text a)).toList)

/-- The sheets of a workbook with the cells that hold something or look like something. -/
def Workbook.listing (w : Workbook) : Value := .list (w.sheets.map Sheet.listing)

end Sheetwork
