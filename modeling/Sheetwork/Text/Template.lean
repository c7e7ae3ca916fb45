import Sheetwork.Fault
import Sheetwork.Text.Basic
import Sheetwork.Text.Pattern
/-
  Text: replacement templates. A backslash begins an escape: a doubled one stands for itself, a few letters for
  control characters, digits for a character's octal number; other letters are faults, and so is a capture that the
  pattern does not have.
-/

namespace Sheetwork.Text

def controlEscape? : Char → Option Char
  | 'a' => some (Char.ofNat 7)
  | 'b' => some (Char.ofNat 8)
  | 'f' => some (Char.ofNat 12)
  | 'n' => some '\n'
  | 'r' => some '\r'
  | 't' => some '\t'
  | 'v' => some (Char.ofNat 11)
  | '\\' => some '\\'
  | _ => none

def isOctal (c : Char) : Bool := '0' ≤ c && c ≤ '7'

def octalValue (cs : List Char) : Nat := cs.foldl (fun n c => 8 * n + (c.toNat - 48)) 0

/-- An escape that begins with a digit: the character and the number of digits. -/
def digitEscape? (s : List Char) : Option (Char × Nat) :=
  match s with
  | '0' :: r =>
    let ds := (r.take 2).takeWhile isOctal
    some (Char.ofNat (octalValue ds % 256), ds.length + 1)
  | a :: b :: c :: _ =>
    if a ≤ '3' && isOctal a && isOctal b && isOctal c then some (Char.ofNat (octalValue [a, b, c]), 3) else none
  | _ => none

/-- The text that a template stands for when the pattern has no captures. -/
def expandTemplate : Nat → List Char → Outcome (List Char)
  | 0, _ => .ok []
  | _ + 1, [] => .ok []
  | fuel + 1, c :: r =>
    if c ≠ '\\' then (expandTemplate fuel r).map (c :: ·)
    else
      match r with
      | [] => .error ⟨.badPattern, none⟩
      | d :: r' =>
        match controlEscape? d with
        | some e => (expandTemplate fuel r').map (e :: ·)
        | none =>
          if isAsciiDigit d then
            match digitEscape? r with
            | some (e, n) => (expandTemplate fuel (r.drop n)).map (e :: ·)
            | none => .error ⟨.badPattern, none⟩
          else if isAsciiLetter d then .error ⟨.badPattern, none⟩
          else (expandTemplate fuel r').map (fun t => '\\' :: d :: t)

def template (s : String) : Outcome String := (expandTemplate (s.length + 1) s.toList).map String.ofList

end Sheetwork.Text

/-! Wrapping into lines of a given width. Lines break at blanks, after hyphens
between letters and around dashes; a word that is too long for a line is cut, after its last
hyphen if it has one. -/

namespace Sheetwork.Text

def expandTabs (col : Nat) : List Char → List Char
  | [] => []
  | '\t' :: r => let n := 8 - col % 8; List.replicate n ' ' ++ expandTabs (col + n) r
  | c :: r => c :: expandTabs (if c = '\n' || c = '\r' then 0 else col + 1) r

namespace Wrap

open Pattern

def isSpace (c : Char) : Bool := c = ' ' || c = '\t' || c = '\n' || c = '\r' || c = '\x0b' || c = '\x0c'

def letter : Pattern := one fun c => isWord c && !isDecimal c

def punctuation : Pattern := one fun c => isWord c || "!\"'&.,?".toList.contains c

def dashes : Pattern := rep true 2 none (chr '-')

/-- A piece that is not broken: blanks, a dash, or a word up to a place where it may break. -/
def piece : Pattern :=
  let space := one isSpace
  let dash := behind true punctuation ++ dashes ++ ahead true word
  let hyphen := chr '-' ++ (behind true (letter ++ letter ++ chr '-') <|>
      behind true (letter ++ chr '-' ++ letter ++ chr '-')) ++
    ahead true (letter ++ (chr '-').opt ++ letter)
  let stop := ahead true (space <|> finish)
  let beforeDash := behind true punctuation ++ ahead true (dashes ++ word)
  space.plus <|> dash <|> (rep false 1 none (one fun c => !isSpace c) ++ (hyphen <|> stop <|> beforeDash))

def pieces (s : String) : List (List Char) :=
  let cs := s.toList.toArray
  let (parts, last) := (piece.all s).foldl (fun (acc : List (List Char) × Nat) m =>
    (acc.1 ++ [(cs.extract acc.2 m.start).toList, (cs.extract m.start m.stop).toList], m.stop)) ([], 0)
  (parts ++ [(cs.extract last cs.size).toList]).filter fun p => !p.isEmpty

def isBlankPiece (p : List Char) : Bool := p.all isBlank

def takeFitting (width len : Nat) (line : List (List Char)) :
    List (List Char) → List (List Char) × Nat × List (List Char)
  | [] => (line, len, [])
  | p :: ps =>
    if len + p.length ≤ width then takeFitting width (len + p.length) (line ++ [p]) ps
    else (line, len, p :: ps)

/-- Where a long word is cut: at the space left, or after the last hyphen before that. -/
def cutAt (room : Nat) (p : List Char) : Nat :=
  let head := p.take room
  match head.reverse.findIdx? (· = '-') with
  | some i =>
    let at_ := head.length - 1 - i
    if 0 < at_ && (p.take at_).any (· ≠ '-') then at_ + 1 else room
  | none => room

def dropLastBlank (line : List (List Char)) : List (List Char) :=
  match line.getLast? with
  | some p => if isBlankPiece p then line.dropLast else line
  | none => line

def fill (width : Nat) : Nat → Bool → List (List Char) → List (List Char)
  | 0, _, _ => []
  | _, _, [] => []
  | fuel + 1, isFirst, p :: ps =>
    let pieces := if !isFirst && isBlankPiece p then ps else p :: ps
    let (line, len, rest) := takeFitting width 0 [] pieces
    let (line, rest) := match rest with
      | q :: qs =>
        if width < q.length then
          let n := cutAt (width - len) q
          (line ++ [q.take n], q.drop n :: qs)
        else (line, q :: qs)
      | [] => (line, [])
    let line := dropLastBlank line
    if line.isEmpty then fill width fuel isFirst rest
    else line.flatten :: fill width fuel false rest

end Wrap

def wrapLines (width : Int) (s : String) : Outcome (List String) :=
  if width ≤ 0 then .error .badValue
  else
    let s := (expandTabs 0 s.toList).map fun c => if Wrap.isSpace c then ' ' else c
    .ok ((Wrap.fill width.toNat (2 * s.length + 2) true (Wrap.pieces (String.ofList s))).map String.ofList)

def wrap (width : Int) (s : String) : Outcome String := (wrapLines width s).map (join "\n")

end Sheetwork.Text
