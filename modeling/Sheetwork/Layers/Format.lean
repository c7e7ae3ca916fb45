import Sheetwork.Layers.Inputs
/-
  Layers: looks carried from cell to cell, set from a description, or taken over with a whole workbook.
-/

namespace Sheetwork.Layers.Format

def copyFont (f : Font) : Font := { f with vertAlign := none, scheme := none }

/-- The look of one cell on another, which keeps its protection. -/
def copyOnto (source target : Style) : Style :=
  { source with font := copyFont source.font, protection := target.protection }

def color (v : Value) : Outcome Color := do
  let s ← Fault.noProperty.ifNone v.text?
  Color.ofDigits ((colorDigits s).getD "")

def apply (d : Value) (st : Style) : Outcome Style := do
  let has (k : String) := (d.get k).truthy
  let st ← if ["font_name", "font_size", "font_bold", "font_italic", "font_color"].any has then do
      let size ← if has "font_size" then some <$> (d.get "font_size").toSize else pure none
      let color ← if has "font_color" then some <$> color (d.get "font_color") else pure none
      let name := if has "font_name" then (d.get "font_name").text? else none
      pure { st with font := { name, size, bold := has "font_bold", italic := has "font_italic", color } }
    else pure st
  let st ← if has "fill_color" then do
      pure { st with fill := { pattern := some "solid", foreground := ← color (d.get "fill_color") } }
    else pure st
  let st ← if ["alignment_horizontal", "alignment_vertical", "wrap_text"].any has then do
      let name (k : String) := if has k then some (d.get k).toText else none
      let wrap := if has "wrap_text" then some true else none
      pure { st with align := ← Alignment.ofNames (name "alignment_horizontal") (name "alignment_vertical") wrap }
    else pure st
  pure (if has "number_format" then { st with numberFormat := (d.get "number_format").toText } else st)

def sheetLike (s : Sheet) : Outcome Sheet :=
  s.positions.foldlM (fun (t : Sheet) p => do
    let c := s.cell p
    let t ← t.put p c.value
    pure (t.restyle p fun st => copyOnto c.style st)) { name := s.name }

def workbookLike (w : Workbook) (withCells : Bool) : Outcome Workbook :=
  w.sheets.foldlM (fun (v : Workbook) s => do
    pure (v.append (← if withCells then sheetLike s else pure { name := s.name }))) {}

end Sheetwork.Layers.Format
