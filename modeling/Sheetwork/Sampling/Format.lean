import Sheetwork.Json.Writer
import Sheetwork.Sampling.Sample
/-
  Sampling: samples as a document, as Markdown tables and as XML.
-/

namespace Sheetwork.Sampling

open Text

def ShownFormula.document (f : ShownFormula) : Value :=
  .record [("address", f.address), ("formula", f.formula), ("cached_value", f.cached)]

def ShownRow.document (r : ShownRow) : Value := .record [("row_number", .int r.number), ("values", .list r.values)]

/-- The frame of a region in a document. -/
def Patch.frame (p : Patch) : List (String × Value) :=
  [("region", p.region), ("min_row", .int p.minRow), ("max_row", .int p.maxRow), ("min_col", .int p.minCol),
    ("max_col", .int p.maxCol), ("headers", .list (p.headers.map .text))]

def Patch.document (p : Patch) : Value :=
  .record (p.frame ++ [("rows", .list (p.rows.map ShownRow.document)),
    ("formulas", .list (p.formulas.map ShownFormula.document))])

variable (s : Sample)

def Sample.document : Value :=
  .record [("sheet_name", s.sheet), ("regions", .list (s.patches.map Patch.document)),
    ("sampled", .bool s.sampled), ("total_rows", .int s.totalRows),
    ("sampled_rows", .int s.shownRows)]

def Patch.inJson (p : Patch) : Patch :=
  { p with
    rows := p.rows.map fun r => { r with values := r.written }
    formulas := p.formulas.map fun f => { f with cached := f.written } }

def Sample.json (pretty : Bool) : Outcome String :=
  { (if pretty then Json.pretty else Json.line) with textFallback := true }.write
    { s with patches := s.patches.map Patch.inJson }.document

namespace Markdown

def emptyRegion : String := "_empty region_\n"

def line (cells : List String) : String := "| " ++ join " | " cells ++ " |"

def cellText (v : Value) : String := if v.isNull then "" else v.toText

/-- Cuts a row to a number of cells, or fills it up. -/
def fit (n : Nat) (cells : List String) : List String := (cells ++ List.replicate (n - cells.length) "").take n

/-- A table; without headers the columns are numbered. -/
def table (headers : List String) (rows : List (List Value)) : String :=
  let cols := if headers.isEmpty then
      ((List.range (rows.headD []).length).map fun i => "Col" ++ ofNat (i + 1))
    else headers
  if cols.isEmpty then emptyRegion
  else
    let body := rows.map fun vs => line (fit cols.length (vs.map cellText))
    join "\n" (line cols :: line (cols.map fun _ => "---") :: body) ++ "\n"

def formulas (fs : List ShownFormula) : String :=
  if fs.isEmpty then ""
  else
    let one (f : ShownFormula) := "- `" ++ f.address ++ "`: `" ++ f.formula ++ "`  → " ++ f.cached.toText
    join "\n" ("\n**Formulas:**\n" :: fs.map one) ++ "\n"

def patch (number : Nat) (p : Patch) : Outcome (List String) := do
  let first ← Address.columnName p.minCol
  let last ← Address.columnName p.maxCol
  pure ["### Region " ++ ofNat number ++ "  (rows " ++ ofNat p.minRow ++ "–" ++ ofInt p.maxRow ++
      ", cols " ++ first ++ "–" ++ last ++ ")\n",
    table p.headers (p.rows.map ShownRow.values), formulas p.formulas]

end Markdown

def Sample.markdown : Outcome String := do
  let said := if s.sampled then
      ["_Sampled " ++ ofNat s.shownRows ++ " of " ++ ofNat s.totalRows ++ " rows._\n"]
    else []
  let parts ← s.patches.zipIdx.mapM fun (p, i) => Markdown.patch (i + 1) p
  pure (join "\n" (("## Sheet: " ++ s.sheet ++ "\n") :: said ++ parts.flatten))

namespace Xml

inductive Element where
  | text (tag : String) (attributes : List (String × String)) (content : String)
  | node (tag : String) (attributes : List (String × String)) (children : List Element)

def escapeText (c : Char) : List Char :=
  match c with
  | '&' => "&amp;".toList
  | '<' => "&lt;".toList
  | '>' => "&gt;".toList
  | c => [c]

def escapeAttribute (c : Char) : List Char :=
  match c with
  | '"' => "&quot;".toList
  | '\r' => "&#13;".toList
  | '\n' => "&#10;".toList
  | '\t' => "&#09;".toList
  | c => escapeText c

def attributeText (a : String × String) : String :=
  " " ++ a.1 ++ "=\"" ++ String.ofList (a.2.toList.flatMap escapeAttribute) ++ "\""

def wrap (tag : String) (attributes : List (String × String)) (content : String) : String :=
  let start := "<" ++ tag ++ String.join (attributes.map attributeText)
  if content.isEmpty then start ++ " />" else start ++ ">" ++ content ++ "</" ++ tag ++ ">"

mutual

def Element.write : Element → String
  | .text tag attributes content => wrap tag attributes (String.ofList (content.toList.flatMap escapeText))
  | .node tag attributes children => wrap tag attributes (writeAll children)

def writeAll : List Element → String
  | [] => ""
  | e :: es => e.write ++ writeAll es

end

def row (r : ShownRow) : Element :=
  .node "row" [("number", ofNat r.number)] (r.values.map fun v => .text "cell" [] (Markdown.cellText v))

def formula (f : ShownFormula) : Element :=
  .text "formula" [("address", f.address), ("cached_value", f.cached.toText)] f.formula

def patch (p : Patch) : Element :=
  let headers := if p.headers.isEmpty then []
    else [Element.node "headers" [] (p.headers.map (Element.text "header" []))]
  let formulas :=
      if p.formulas.isEmpty then [] else [Element.node "formulas" [] (p.formulas.map formula)]
  .node "region" [("min_row", ofNat p.minRow), ("max_row", ofInt p.maxRow),
      ("min_col", ofNat p.minCol), ("max_col", ofInt p.maxCol)]
    (headers ++ [.node "rows" [] (p.rows.map row)] ++ formulas)

end Xml

def Sample.xml : String :=
  let counts := if s.sampled then [("sampled", "true"), ("total_rows", ofNat s.totalRows),
    ("sampled_rows", ofNat s.shownRows)] else []
  (Xml.Element.node "sheet" (("name", s.sheet) :: counts) (s.patches.map Xml.patch)).write

end Sheetwork.Sampling
