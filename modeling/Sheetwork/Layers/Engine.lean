import Sheetwork.Layers.Report
import Sheetwork.Script.Evaluation
/-
  Layers: a small engine for the formulas of a report. The values of cells are put into a formula's text, a few
  functions are replaced, and the result is evaluated as an expression; what cannot be evaluated is zero. A formula is
  computed once everything it reads has been computed, so one that reads an input is not.
-/

namespace Sheetwork.Layers

open Text Text.Pattern

structure Place where
  (sheet address : String)
  deriving DecidableEq, Ord, Hashable

namespace Engine

/-! The text of a formula -/

def letters : Pattern := upperLetter.plus

def sheetWord : Pattern := (one fun c => isPlain c || c = '_').plus

/-- Places that a formula reads: quoted sheets, plain sheets, then addresses that
follow no sheet. -/
def references (formula current : String) : List Place :=
  let quotedSheet := chr '\'' ++ cap 1 (noneOf "'").plus ++ chr '\'' ++ chr '!' ++ cap 2 (letters ++ digit.plus)
  let plainSheet := cap 1 sheetWord ++ chr '!' ++ cap 2 (letters ++ digit.plus)
  let own := (chr '$').opt ++ cap 1 letters ++ (chr '$').opt ++ cap 2 digit.plus
  let onSheets (p : Pattern) := (p.all formula).map fun m => Place.mk (m.group 1) (m.group 2)
  let here := ((own.all formula).filter fun m => m.start = 0 || m.text[m.start - 1]? ≠ some '!').map
    fun m => Place.mk current (m.group 1 ++ m.group 2)
  Ordered.ofList (onSheets quotedSheet ++ onSheets plainSheet ++ here)

def placeOf (current ref : String) : Place :=
  match split "!" ref with
  | sheet :: address :: _ => ⟨stripChars "'" sheet, replace "$" "" address⟩
  | _ => ⟨current, replace "$" "" ref⟩

def written (v : Option Value) : String :=
  match v.getD (.int 0) with
  | .text s => "\"" ++ s ++ "\""
  | .null => "0"
  | v => v.toText

def address : Pattern := (chr '$').opt ++ letters ++ (chr '$').opt ++ digit.plus

def withValues (value? : Place → Option Value) (formula current : String) : String :=
  let put (m : Match) := written (value? (placeOf current m.whole))
  let quotedSheet := chr '\'' ++ (noneOf "'").plus ++ chr '!' ++ (chr '\'').opt ++ address
  let plainSheet := sheetWord ++ chr '!' ++ address
  address.replaceAll put (plainSheet.replaceAll put (quotedSheet.replaceAll put formula))

def callOf (name : String) : Pattern := lit name ++ chr '(' ++ cap 1 any.manyShort ++ chr ')'

def withFunctions (formula : String) : String :=
  let listCall (name new : String) := (callOf name).replaceAll fun m => new ++ "([" ++ m.group 1 ++ "])"
  let choice := (callOf "IF").replaceAll fun m =>
    match split "," (m.group 1) with
    | [test, yes, no] => "(" ++ yes ++ " if " ++ test ++ " else " ++ no ++ ")"
    | _ => m.whole
  listCall "MIN" "min" (listCall "MAX" "max" (choice (listCall "SUM" "sum" formula)))

def scope : Script.Scope := ⟨fun _ => none, Script.Builtin.function?⟩

def evaluate (value? : Place → Option Value) (formula current : String) : Value :=
  let text := withFunctions (replace "^" "**" (withValues value? formula current))
  match Script.Expr.ofText? text with
  | some e => match e.eval scope with
    | .ok v => v
    | .error _ => .int 0
  | none => .int 0

/-! The formulas of a report -/

structure Entry where
  place : Place
  formula : Value
  groupId : Int
  pattern : Value
  isLarge : Bool

def entryOf (sheet : String) (r : Record) : Outcome (Option Entry) := do
  let group := r.get "GroupID"
  let groupId ← if group.truthy then group.toInt else pure 0
  let type := r.get "Type"
  if type == .text "Calculation" || type == .text "Output" then
    pure (some ⟨⟨sheet, (r.get "Cell").toText⟩, r.get "Formula", groupId, r.get "PatternFormula",
      (r.get "Vectorizable").truthy⟩)
  else pure none

def entries (report : Workbook) : Outcome (List Entry) := do
  let found ← (Report.sheets report).mapM fun s => do pure ((← s.records.mapM (entryOf s.name)).filterMap id)
  pure found.flatten

/-- Later entries of a place stand where the first stood. -/
def latest (es : List Entry) : List Entry := es.foldl (fun ds e => putBy Entry.place e ds) []

/-- The formula without apostrophes and equals signs in front; an empty one is none. -/
def formulaText (e : Entry) : Outcome (Option String) :=
  if !e.formula.truthy then .ok none
  else match e.formula with
    | .text s => .ok (some (stripCharsLeft "'=" s))
    | _ => .error .noProperty

def order (es : List Entry) : Outcome (List Entry) := do
  let index := Graph.positions (es.map Entry.place)
  let sorted := Ordered.sortOn (·.1.place) es.zipIdx
  let edges ← sorted.mapM fun (e, i) => do
    let refs := match ← formulaText e with
      | some f => references f e.place.sheet
      | none => []
    pure (refs.map fun p => ((index[p]?).getD i, i))
  pure (Graph.settled es edges.flatten)

abbrev Values := Std.HashMap Place Value

def inputValues (w : Workbook) : Values :=
  w.sheets.foldl (fun m s => s.entries.foldl (fun (m : Values) (p, c) =>
    if c.value.isNull then m else m.insert ⟨s.name, p.address⟩ c.value) m) ∅

def compute (vs : Values) (e : Entry) : Outcome Values := do
  match ← formulaText e with
  | some f => pure (vs.insert e.place (evaluate (vs[·]?) f e.place.sheet))
  | none => pure vs

/-- Computes an entry, or its whole group the first time one of it comes up; a group
has a pattern. -/
def step (all : List Entry) (current : List Entry) (st : Values × List Int) (e : Entry) :
    Outcome (Values × List Int) := do
  if 0 < e.groupId && e.isLarge then
    if st.2.contains e.groupId then pure st
    else
      let places := (all.filter fun d => d.groupId = e.groupId).map Entry.place
      let members := places.filterMap fun p => current.find? (·.place = p)
      let _ ← Fault.wrongKind.ifNone (members.head?.bind fun d => d.pattern.text?)
      pure (← members.foldlM compute st.1, e.groupId :: st.2)
  else pure (← compute st.1 e, st.2)

def values (inputs report : Workbook) : Outcome Values := do
  let all ← entries report
  let es := latest all
  let (vs, _) ← (← order es).foldlM (step all es) (inputValues inputs, [])
  pure vs

def listed (vs : Values) : List (Place × Value) := vs.toList.mergeSort fun a b => (compare a.1 b.1).isLE

end Engine

end Sheetwork.Layers
