import Sheetwork.Formula.Corner
import Sheetwork.Reference.Basic
/-
  Formulas: every reference of a formula with the place where it stands. The kinds of reference are looked for one
  after another, the longer ones first; a match inside a string, over a reference already found or in the middle of a
  name is passed over.
-/

namespace Sheetwork.Formula

/-- Whether position `n` is inside a string literal; none beyond the text. A quote written twice
inside a string is passed in one step. -/
def inString? (inside skip : Bool) : List Char → Nat → Option Bool
  | _, 0 => some inside
  | [], _ + 1 => none
  | c :: r, n + 1 =>
    if skip then inString? inside false r n
    else if c = '"' then
      if inside && r.head? = some '"' then inString? inside true r n
      else inString? (!inside) false r n
    else inString? inside false r n

structure Target where
  (file sheet : Option String)
  at_ : Corner
  last : Option Corner

structure Mention where
  file : Option String
  sheet : String
  at_ : Corner
  last : Option Corner
  (start stop : Nat)
  raw : List Char

variable (s : List Char)

/-- The text without a quote at its beginning. -/
def unquote : List Char → List Char
  | '\'' :: r => r
  | r => r

def isUnquoted (c : Char) : Bool := c ≠ '\'' && c ≠ '!'

/-- The workbook in brackets and the sheet before a `!`, quoted together or not at all. -/
def workbookSheet? : Option (List Char × List Char × List Char) :=
  match unquote s with
  | '[' :: r =>
    let file := r.takeWhile (· ≠ ']')
    match r.dropWhile (· ≠ ']') with
    | ']' :: r =>
      let sheet := r.takeWhile isUnquoted
      match unquote (r.dropWhile isUnquoted) with
      | '!' :: rest => if file.isEmpty || sheet.isEmpty then none else some (file, sheet, rest)
      | _ => none
    | _ => none
  | _ => none

def isQuotable (c : Char) : Bool := c ≠ '\'' && c ≠ '[' && c ≠ ']'

/-- A sheet in quotes without brackets, or a word that begins with a letter of ASCII or `_`. -/
def plainSheet? : Option (List Char × List Char) :=
  match s with
  | '\'' :: r =>
    let name := r.takeWhile isQuotable
    match r.dropWhile isQuotable with
    | '\'' :: '!' :: rest => if name.isEmpty then none else some (name, rest)
    | _ => none
  | c :: r =>
    if Text.isAsciiLetter c || c = '_' then
      match r.dropWhile Text.isWord with
      | '!' :: rest => some (c :: r.takeWhile Text.isWord, rest)
      | _ => none
    else none
  | [] => none

inductive MentionKind where
  | workbookRange | workbookCell | sheetRange | sheetCell | localRange | localCell

namespace MentionKind

def isRange : MentionKind → Bool
  | workbookRange | sheetRange | localRange => true
  | _ => false

def isLocal : MentionKind → Bool
  | localRange | localCell => true
  | _ => false

/-- The kinds, ranges before cells and the fuller names first. -/
def all : List MentionKind := [workbookRange, workbookCell, sheetRange, sheetCell, localRange, localCell]

def corners? (range : Bool) (s : List Char) : Option (Corner × Option Corner × List Char) :=
  match corner? s with
  | none => none
  | some (a, r) =>
    if range then
      match endCorner? r with
      | some (b, r') => some (a, some b, r')
      | none => none
    else some (a, none, r)

def here? (k : MentionKind) (s : List Char) : Option (Target × List Char) :=
  let finish (file sheet : Option String) (r : List Char) :=
    (corners? k.isRange r).map fun (a, b, r') => ((⟨file, sheet, a, b⟩ : Target), r')
  match k with
  | workbookRange | workbookCell => (workbookSheet? s).bind fun (f, n, r) => finish (String.ofList f) (String.ofList n) r
  | sheetRange | sheetCell => (plainSheet? s).bind fun (n, r) => finish none (String.ofList n) r
  | localRange | localCell => finish none none s

end MentionKind

/-- What a recogniser finds from left to right without overlap, with start and stop; `skip` counts
the characters that the match before still covers. -/
def finds {α : Type} (here : List Char → Option (α × List Char)) (pos skip : Nat) : List Char → List (Nat × Nat × α)
  | [] => []
  | c :: r =>
    match skip with
    | k + 1 => finds here (pos + 1) k r
    | 0 =>
      match here (c :: r) with
      | some (a, rest) =>
        let n := (c :: r).length - rest.length
        (pos, pos + n, a) :: finds here (pos + 1) (n - 1) r
      | none => finds here (pos + 1) 0 r

def nameBefore (pos : Nat) : Bool :=
  match pos with
  | 0 => false
  | n + 1 => (s[n]?).any fun c => Text.isLetter c || c = '_'

def overlaps (a b : Nat × Nat) : Bool := a.1 < b.2 && b.1 < a.2

theorem overlaps_comm (a b : Nat × Nat) : overlaps a b = overlaps b a := Bool.and_comm ..

variable (sheet : String)

/-- Accepts a match unless it is in a string, over an accepted one, or inside a name. -/
def accept (k : MentionKind) (found : List Mention) (m : Nat × Nat × Target) : List Mention :=
  let (start, stop, t) := m
  if (inString? false false s start).getD false || found.any (fun f => overlaps (start, stop) (f.start, f.stop)) ||
      (k.isLocal && nameBefore s start) then found
  else
    found ++ [⟨t.file, t.sheet.getD sheet, t.at_, t.last, start, stop, (s.drop start).take (stop - start)⟩]

/-- The references of a text in the order in which they are found. -/
def foundIn : List Mention :=
  MentionKind.all.foldl (fun acc k => (finds k.here? 0 0 s).foldl (accept s sheet k) acc) []

def mentionsIn : List Mention := (foundIn s sheet).mergeSort fun a b => a.start ≤ b.start

def mentions (formula sheet : String) : List Mention := mentionsIn (body formula) sheet

namespace Mention

variable (m : Mention)

def column : String := m.at_.column

def row : Nat := m.at_.rowNumber

def isRange : Bool := m.last.isSome

end Mention

/-- The workbooks that a formula names outside strings, one entry a match: first those of ranges. -/
def workbooksNamed (formula : String) : List String :=
  let s := body formula
  [MentionKind.workbookRange, .workbookCell].flatMap fun k =>
    (finds k.here? 0 0 s).filterMap fun (start, _, t) =>
      if (inString? false false s start).getD false then none else t.file

end Sheetwork.Formula
