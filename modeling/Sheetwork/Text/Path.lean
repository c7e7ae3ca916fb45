import Sheetwork.Text.Basic
/-
  Texts: file paths with forward slashes.
-/

namespace Sheetwork.Path

variable (p : String)

/-- The directory and the last part; the directory keeps no slash at its end unless it
is all slashes. -/
def split : String × String :=
  match Text.cutLast? '/' p with
  | none => ("", p)
  | some (head, base) =>
    let dir := Text.stripCharsRight "/" head
    (if dir.isEmpty then head ++ "/" else dir, base)

def directory : String := (split p).1

def base : String := (split p).2

/-- Appends a path; an absolute path stands for itself. -/
def join (dir p : String) : String :=
  if Text.startsWith "/" p then p
  else if dir.isEmpty || Text.endsWith "/" dir then dir ++ p
  else dir ++ "/" ++ p

/-- The path without and with its extension; dots at the start of the last part begin none. -/
def splitExtension : String × String :=
  let (stem, ext) := splitBase (base p)
  (Text.dropLast ext.length p, if stem.isEmpty then "" else ext)
where
  /-- The last part cut before its last dot. -/
  splitBase (b : String) : String × String :=
    let dots := b.toList.takeWhile (· = '.')
    match Text.cutLast? '.' (String.ofList (b.toList.drop dots.length)) with
    | none => (b, "")
    | some (stem, ext) => (String.ofList dots ++ stem, "." ++ ext)

/-- The parts of a path without empty parts and single dots. -/
def parts : List String :=
  let ps := (Text.split "/" p).filter fun s => !s.isEmpty && s != "."
  if Text.startsWith "/" p then "/" :: ps else ps

def ofParts : List String → String
  | [] => "."
  | "/" :: ps => "/" ++ Text.join "/" ps
  | ps => Text.join "/" ps

def tidy : String := ofParts (parts p)

def parent : String :=
  match parts p with
  | ["/"] => "/"
  | ps => ofParts ps.dropLast

def name : String :=
  match (parts p).getLast? with
  | none | some "/" => ""
  | some s => s

/-- The extension of the last part with its dot; a dot at either end begins none. -/
def suffix : String :=
  match Text.cutLast? '.' (name p) with
  | some (stem, ext) => if stem.isEmpty || ext.isEmpty then "" else "." ++ ext
  | none => ""

def stem : String := Text.dropLast (suffix p).length (name p)

def under (dir p : String) : String := tidy (join dir p)

end Sheetwork.Path

/-! Wildcards. `*` stands for any characters, `?` for one, `[…]` for one of a set and
`[!…]` for one outside it; a bracket that is not closed stands for itself. -/

namespace Sheetwork.Text

inductive Wildcard where
  | star | any
  | char (c : Char)
  | set (negated : Bool) (ranges : List (Char × Char))

namespace Wildcard

/-- The members of a set: single characters and ranges, an empty range having none. -/
def members : List Char → List (Char × Char)
  | a :: '-' :: b :: r => if a ≤ b then (a, b) :: members r else members r
  | a :: r => (a, a) :: members r
  | [] => []

/-- The body of a set and the rest after its `]`; a `]` that comes first is a member. -/
def body? (s : List Char) : Option (Bool × List Char × List Char) :=
  let (neg, s) := match s with
    | '!' :: r => (true, r)
    | r => (false, r)
  let (first, s) := match s with
    | ']' :: r => ([']'], r)
    | r => ([], r)
  match s.dropWhile (· ≠ ']') with
  | _ :: rest => some (neg, first ++ s.takeWhile (· ≠ ']'), rest)
  | [] => none

/-- The wildcards of a text; `fuel` is at least its length. -/
def read : Nat → List Char → List Wildcard
  | 0, _ => []
  | _ + 1, [] => []
  | fuel + 1, c :: r =>
    if c = '*' then star :: read fuel r
    else if c = '?' then any :: read fuel r
    else if c = '[' then
      match body? r with
      | some (neg, body, rest) => set neg (members body) :: read fuel rest
      | none => char c :: read fuel r
    else char c :: read fuel r

def admits (c : Char) : Wildcard → Bool
  | star => false
  | any => true
  | char d => c = d
  | set neg ranges => (ranges.any fun (a, b) => a ≤ c && c ≤ b) ≠ neg

def suffixes : List Char → List (List Char)
  | [] => [[]]
  | c :: r => (c :: r) :: suffixes r

/-- Whether a text matches; a star takes nothing or one character more. -/
def holds : List Wildcard → List Char → Bool
  | [], s => s.isEmpty
  | star :: ws, s => (suffixes s).any fun t => holds ws t
  | w :: ws, s =>
    match s with
    | c :: r => admits c w && holds ws r
    | [] => false

end Wildcard

def globMatches (pattern text : String) : Bool :=
  Wildcard.holds (Wildcard.read (pattern.length + 1) pattern.toList) text.toList

end Sheetwork.Text
