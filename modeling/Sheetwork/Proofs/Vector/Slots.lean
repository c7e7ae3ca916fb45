import Sheetwork.Proofs.Outcome
import Sheetwork.Proofs.Reference
import Sheetwork.Proofs.Text.Replacement
import Sheetwork.Vector.Code
/-
  Vectors: what an expression reads at each of its positions. A store expression is a list of slots: text, the read of
  a cell or the read of a range, whose coordinates are fixed or offsets of the loop variable. `storeExpression_eq`: if
  no two variables share a name and every name stands where it is meant, replacing names gives exactly the slots of
  the pieces.
-/

open List

namespace Sheetwork.Vector

open References
open Sheetwork.Text (quoted)
open Sheetwork.Formula (Piece Reference)

namespace LoopCoord

def col (place : Int) : LoopCoord String → String
  | fixed c => c
  | free k => Column.name (place + k)

def row (place : Int) : LoopCoord Nat → Int
  | fixed r => r
  | free k => place + k

end LoopCoord

/-- What stands at one position of an expression. -/
inductive Slot (κ ρ : Type) where
  | text (s : List Char)
  | cell (sheet : String) (col : κ) (row : ρ)
  | range (sheet : String) (col : κ) (row : ρ) (endCol : κ) (endRow : ρ)
  deriving DecidableEq

abbrev LoopSlot := Slot (LoopCoord String) (LoopCoord Nat)

def Slot.instantiate (place : Int) : LoopSlot → Slot String Int
  | text s => text s
  | cell s c r => cell s (c.col place) (r.row place)
  | range s c r c' r' => range s (c.col place) (r.row place) (c'.col place) (r'.row place)

def Slot.chars : LoopSlot → List Char
  | text s => s
  | cell s c r => (cellRead s c.colText r.rowText).toList
  | range s c r c' r' => (rangeRead s c.colText r.rowText c'.colText r'.rowText).toList

def slotsText (ss : List LoopSlot) : String := String.ofList (ss.flatMap Slot.chars)

/-! Variables and what stands for them -/

namespace Variable

/-- The slot of a variable; the column of an unknown table keeps its name. -/
def slot (p : Placing) (tables : List Table) : Variable → LoopSlot
  | cell c => .cell c.sheet (p.col c) (p.row c)
  | range r => .range r.sheet (p.rangeCol r) (p.rangeRow r) (p.endCol r) (p.endRow r)
  | table t => .text (((table t).read? p tables).getD (table t).name).toList

theorem chars_slot (p : Placing) (tables : List Table) (v : Variable) :
    (v.slot p tables).chars = ((v.read? p tables).getD v.name).toList := by
  cases v <;> rfl

theorem toList_name_ne_nil (v : Variable) : v.name.toList ≠ [] := by
  cases v <;> simp [name, ScriptName.cell, ScriptName.range, ScriptName.table]

end Variable

def variablesOf (refs : References) : List Variable :=
  refs.ranges.map .range ++ refs.tables.map .table ++ refs.cells.map .cell

variable {tables : List Table} {refs : References} {v : Variable} {rs : List Reference} {p : Placing}

theorem mem_storeNames {x : String × String} :
    x ∈ storeNames p tables refs ↔ ∃ v ∈ variablesOf refs, v.name = x.1 ∧ v.read? p tables = some x.2 := by
  have one : ∀ v : Variable, (∃ read, v.read? p tables = some read ∧ (v.name, read) = x) ↔
      v.name = x.1 ∧ v.read? p tables = some x.2 :=
    fun v => ⟨fun ⟨_, hread, h⟩ => h ▸ ⟨rfl, hread⟩, fun ⟨hname, hread⟩ => ⟨_, hread, Prod.ext hname rfl⟩⟩
  simp only [storeNames, storeNamesOf, variablesOf, mem_append, mem_mergeSort, mem_filterMap, Option.map_eq_some_iff,
    one, or_and_right, exists_or]

/-! From pieces to slots -/

def variableOf : Reference → Variable
  | .cell s a => .cell ⟨s, a.column, a.rowNumber⟩
  | .range s a b => .range ⟨s, a.column, a.rowNumber, b.column, b.rowNumber⟩
  | .table t c => .table ⟨t, c⟩

theorem mem_variablesOf_add {r : Reference} :
    v ∈ variablesOf (refs.add r) ↔ v = variableOf r ∨ v ∈ variablesOf refs := by
  cases r <;>
    simp only [add, variablesOf, variableOf, mem_append, mem_map, Ordered.mem_insert] <;>
    grind

theorem mem_variablesOf_addAll : v ∈ variablesOf (refs.addAll rs) ↔ (∃ r ∈ rs, v = variableOf r) ∨ v ∈ variablesOf refs :=
  foldl_iff (P := (v ∈ variablesOf ·)) fun _ _ => mem_variablesOf_add

def partOf : Piece → Text.Part
  | .text s => .text s
  | .ref r => .name r.scriptName.toList
  | .silent _ => .text []

theorem written_map_partOf (ps : List Piece) : Text.written (ps.map partOf) = ps.flatMap Piece.render := by
  induction ps with
  | nil => rfl
  | cons p ps ih =>
    have hp : (partOf p).chars = p.render := by cases p <;> rfl
    rw [map_cons, flatMap_cons, ← ih, ← hp]
    rfl

def slotOf (p : Placing) (tables : List Table) : Piece → LoopSlot
  | .text s => .text s
  | .ref r => (variableOf r).slot p tables
  | .silent _ => .text []

/-- Names of references tell their variables apart and are spelled as the variables are. -/
structure WellNamed (rs : List Reference) : Prop where
  spelled : ∀ r ∈ rs, r.scriptName = (variableOf r).name
  apart : ∀ r ∈ rs, ∀ r' ∈ rs, (variableOf r).name = (variableOf r').name → variableOf r = variableOf r'

theorem putAll_partOf (h : WellNamed rs) {piece : Piece} (hp : ∀ r, piece = .ref r → r ∈ rs) :
    ((partOf piece).putAll (storeNames p tables (empty.addAll rs))).chars = (slotOf p tables piece).chars := by
  cases piece with
  | text | silent => rw [partOf, Text.Part.putAll_text]; rfl
  | ref r =>
    have hr := hp r rfl
    have mem : ∀ x, x ∈ storeNames p tables (empty.addAll rs) ↔
        ∃ r' ∈ rs, (variableOf r').name = x.1 ∧ (variableOf r').read? p tables = some x.2 := by
      simp only [mem_storeNames, mem_variablesOf_addAll]
      simp [variablesOf, empty]
    have own : ∀ x ∈ storeNames p tables (empty.addAll rs), x.1 = (variableOf r).name →
        (variableOf r).read? p tables = some x.2 := by
      intro x hx hname
      obtain ⟨r', hr', hname', hread'⟩ := (mem x).1 hx
      rwa [h.apart r' hr' r hr (hname'.trans hname)] at hread'
    rw [partOf, h.spelled r hr, slotOf, Variable.chars_slot]
    cases hread : (variableOf r).read? p tables with
    | some read =>
      have hin : ((variableOf r).name, read) ∈ storeNames p tables (empty.addAll rs) :=
        (mem _).2 ⟨r, hr, rfl, hread⟩
      rw [Text.Part.putAll_name hin fun x hx hname => Option.some.inj ((own x hx hname).symm.trans hread)]
      rfl
    | none =>
      rw [Text.Part.putAll_name_of_not_mem fun x hx hname => nomatch hread.symm.trans (own x hx hname)]
      rfl

/-- Replacing the names of well-named references that stand where they are meant gives the
slots of the pieces. -/
theorem storeExpression_eq {ps : List Piece} (h : WellNamed (ps.filterMap Piece.reference?))
    (hres : Text.Resolves (storeNames p tables (empty.addAll (ps.filterMap Piece.reference?))) (ps.map partOf)) :
    storeExpression p tables (empty.addAll (ps.filterMap Piece.reference?)) (String.ofList (ps.flatMap Piece.render)) =
      slotsText (ps.map (slotOf p tables)) := by
  have hne : ∀ x ∈ storeNames p tables (empty.addAll (ps.filterMap Piece.reference?)), x.1.toList ≠ [] := by
    intro x hx
    obtain ⟨v, -, hname, -⟩ := mem_storeNames.1 hx
    exact hname ▸ v.toList_name_ne_nil
  rw [storeExpression, ← written_map_partOf, Text.foldl_replace_written hne hres, slotsText,
    Text.written, map_map, flatMap_map, flatMap_map]
  congr 1
  refine flatMap_congr fun piece hpiece => putAll_partOf h fun r hr => ?_
  exact mem_filterMap.2 ⟨piece, hpiece, by rw [hr]; rfl⟩

end Sheetwork.Vector
