import Sheetwork.Text.Basic
/-
  Formulas: how references are written. A corner is a column of one to three capitals and a row of digits, each fixed
  by a `$` or free; a sheet name stands before a `!`, bare or in single quotes. Every scanner gives what it read and
  the rest.
-/

namespace Sheetwork.Formula

open Text

def body (formula : String) : List Char :=
  match formula.toList with
  | '=' :: r => r
  | s => s

structure Corner where
  colFixed : Bool
  col : List Char
  rowFixed : Bool
  row : List Char
  deriving DecidableEq

namespace Corner

def column (c : Corner) : String := String.ofList c.col

def rowText (c : Corner) : String := String.ofList c.row

def rowNumber (c : Corner) : Nat := natOfDigits c.row

end Corner

def dollar : List Char → Bool × List Char
  | '$' :: r => (true, r)
  | r => (false, r)

variable (s : List Char)

def capitals : List Char := (s.take 3).takeWhile isAsciiUpper

def corner? : Option (Corner × List Char) :=
  let (colFixed, s) := dollar s
  let col := capitals s
  let (rowFixed, s) := dollar (s.drop col.length)
  let row := s.takeWhile isDecimal
  if col.isEmpty || row.isEmpty then none
  else some (⟨colFixed, col, rowFixed, row⟩, s.dropWhile isDecimal)

def endCorner? : List Char → Option (Corner × List Char)
  | ':' :: r => corner? r
  | _ => none

def quotedSheet? : List Char → Option (List Char × List Char)
  | '\'' :: r =>
    let name := r.takeWhile (· ≠ '\'')
    match r.dropWhile (· ≠ '\'') with
    | '\'' :: '!' :: rest => if name.isEmpty then none else some (name, rest)
    | _ => none
  | _ => none

def bareSheet? : Option (List Char × List Char) :=
  let name := s.takeWhile isWord
  match s.dropWhile isWord with
  | '!' :: rest => if name.isEmpty then none else some (name, rest)
  | _ => none

def tableColumn? : Option (List Char × List Char × List Char) :=
  let name := s.takeWhile isWord
  match s.dropWhile isWord with
  | '[' :: r =>
    match r.dropWhile (· ≠ ']') with
    | ']' :: rest => if name.isEmpty then none else some (name, r.takeWhile (· ≠ ']'), rest)
    | _ => none
  | _ => none

/-- A letter of a function name, the four letters that case pairs with an ASCII one among them. -/
def isNameLetter (c : Char) : Bool :=
  isAsciiLetter c || c.toNat = 0x130 || c.toNat = 0x131 || c.toNat = 0x17F || c.toNat = 0x212A

def isNameChar (c : Char) : Bool := isNameLetter c || isAsciiDigit c || c = '_' || c = '.'

def callHead? : Option (List Char × List Char) :=
  match s with
  | c :: r =>
    if isNameLetter c then
      match r.dropWhile isNameChar with
      | '(' :: rest => some (c :: r.takeWhile isNameChar, rest)
      | _ => none
    else none
  | [] => none

/-- Where a scan stands: inside a string or not, and how many parentheses are open. -/
structure Nesting where
  inString : Bool
  depth : Int
  deriving DecidableEq

def Nesting.outside : Nesting := ⟨false, 0⟩

/-- Every quote opens or closes a string, so a doubled one changes nothing. -/
def Nesting.step (n : Nesting) (c : Char) : Nesting :=
  if c = '"' then { n with inString := !n.inString }
  else if n.inString then n
  else if c = '(' then { n with depth := n.depth + 1 }
  else if c = ')' then { n with depth := n.depth - 1 }
  else n

/-- The text up to the parenthesis that closes the open one, and what follows it. -/
def closing? (n : Nesting) : List Char → Option (List Char × List Char)
  | [] => none
  | c :: r =>
    if c = ')' ∧ n = .outside then some ([], r)
    else (closing? (n.step c) r).map fun p => (c :: p.1, p.2)

/-- What an open parenthesis holds and what follows it; without a closing one it holds all but the
last character. -/
def enclosed : List Char × List Char := (closing? .outside s).getD (s.dropLast, [])

/-- The parts between top-level commas, as they stand; an empty last part is none. -/
def splitCommas (n : Nesting) (cur : List Char) : List Char → List (List Char)
  | [] => if cur.isEmpty then [] else [cur.reverse]
  | c :: r =>
    if c = ',' ∧ n = .outside then cur.reverse :: splitCommas n [] r
    else splitCommas (n.step c) (c :: cur) r

def arguments : List (List Char) :=
  ((splitCommas .outside [] s).map stripL).filter fun a => !a.isEmpty

theorem length_dropWhile_le (p : Char → Bool) (s : List Char) : (s.dropWhile p).length ≤ s.length :=
  (List.dropWhile_sublist p).length_le

theorem length_stripL_le : (stripL s).length ≤ s.length := by
  unfold stripL stripWhileL dropRightWhileL
  have h₁ := length_dropWhile_le isBlank (List.dropWhile isBlank s).reverse
  have h₂ := length_dropWhile_le isBlank s
  simp only [List.length_reverse] at *
  omega

theorem closing?_eq {n : Nesting} {s a b : List Char} (h : closing? n s = some (a, b)) : s = a ++ ')' :: b := by
  induction s generalizing n a with
  | nil => cases h
  | cons c r ih =>
    rw [closing?] at h
    split at h
    · next hc =>
      cases h
      rw [hc.1, List.nil_append]
    · obtain ⟨⟨x, y⟩, hx, hy⟩ := Option.map_eq_some_iff.1 h
      cases hy
      rw [ih hx, List.cons_append]

theorem enclosed_length : (enclosed s).1.length + (enclosed s).2.length ≤ s.length := by
  unfold enclosed
  cases h : closing? .outside s with
  | none => simp
  | some p => simp [closing?_eq h]

theorem length_of_mem_splitCommas (n : Nesting) (cur s : List Char) :
    ∀ a ∈ splitCommas n cur s, a.length ≤ cur.length + s.length := by
  fun_induction splitCommas n cur s with grind

theorem length_of_mem_arguments {s a : List Char} (h : a ∈ arguments s) : a.length ≤ s.length := by
  obtain ⟨b, hb, rfl⟩ := List.mem_map.1 (List.mem_filter.1 h).1
  have h₁ := length_of_mem_splitCommas _ _ _ b hb
  have h₂ := length_stripL_le b
  simp only [List.length_nil] at h₁
  omega

end Sheetwork.Formula
