import Sheetwork.Value.Order
/-
  JSON: reading. Objects keep the order of their members, a repeated member keeps the place of the first and the value
  of the last; whole numbers are exact. Every step of the reader spends one unit of fuel, and a text never needs more
  than two for each of its characters.
-/

namespace Sheetwork.Json

open Sheetwork Text Number

def isJsonBlank (c : Char) : Bool := c = ' ' || c = '\t' || c = '\n' || c = '\r'

variable (s : List Char)

def skipBlank : List Char := s.dropWhile isJsonBlank

def hex4? : Option (Nat × List Char) :=
  match s with
  | a :: b :: c :: d :: r =>
    match hexDigit? a.toLower, hexDigit? b.toLower, hexDigit? c.toLower, hexDigit? d.toLower with
    | some a, some b, some c, some d => some (((a * 16 + b) * 16 + c) * 16 + d, r)
    | _, _, _, _ => none
  | _ => none

/-- A `\u` escape after its `u`: one code point, of two escapes if they form a pair. -/
def unicodeEscape? : Option (Char × List Char) :=
  match hex4? s with
  | none => none
  | some (a, r) =>
    if 0xD800 ≤ a ∧ a < 0xDC00 then
      match r with
      | '\\' :: 'u' :: r' =>
        match hex4? r' with
        | some (b, r'') =>
          if 0xDC00 ≤ b ∧ b < 0xE000 then
            some (Char.ofNat (0x10000 + (a - 0xD800) * 0x400 + (b - 0xDC00)), r'')
          else some (Char.ofNat 0xFFFD, r)
        | none => none
      | _ => some (Char.ofNat 0xFFFD, r)
    else if 0xDC00 ≤ a ∧ a < 0xE000 then some (Char.ofNat 0xFFFD, r)
    else some (Char.ofNat a, r)

def simpleEscape? : Char → Option Char
  | '"' => some '"'
  | '\\' => some '\\'
  | '/' => some '/'
  | 'b' => some '\x08'
  | 'f' => some '\x0c'
  | 'n' => some '\n'
  | 'r' => some '\r'
  | 't' => some '\t'
  | _ => none

/-- A string after its opening quote: the characters in reverse and the rest. -/
def string? : Nat → List Char → List Char → Option (String × List Char)
  | 0, _, _ => none
  | _ + 1, [], _ => none
  | fuel + 1, c :: r, acc =>
    if c = '"' then some (String.ofList acc.reverse, r)
    else if c = '\\' then
      match r with
      | 'u' :: r' =>
        match unicodeEscape? r' with
        | some (d, r'') => string? fuel r'' (d :: acc)
        | none => none
      | e :: r' =>
        match simpleEscape? e with
        | some d => string? fuel r' (d :: acc)
        | none => none
      | [] => none
    else if c.toNat < 32 then none
    else string? fuel r (c :: acc)

/-- The fraction digits, if there is a point with at least one digit. -/
def fraction : List Char × List Char :=
  match s with
  | '.' :: r =>
    let ds := r.takeWhile isAsciiDigit
    if ds.isEmpty then ([], s) else (ds, r.dropWhile isAsciiDigit)
  | _ => ([], s)

/-- The exponent, if there is one with at least one digit. -/
def exponent? : Option Int × List Char :=
  match s with
  | c :: r =>
    if c = 'e' || c = 'E' then
      let (neg, r') := scanSign r
      let ds := r'.takeWhile isAsciiDigit
      if ds.isEmpty then (none, s)
      else (some (signed neg (natOfDigits ds)), r'.dropWhile isAsciiDigit)
    else (none, s)
  | [] => (none, s)

def number? : Option (Value × List Char) :=
  let (neg, r) := match s with
    | '-' :: r => (true, r)
    | r => (false, r)
  let whole := match r with
    | '0' :: _ => ['0']
    | _ => r.takeWhile isAsciiDigit
  if whole.isEmpty then none
  else
    let (frac, r) := fraction (r.drop whole.length)
    let (e, r) := exponent? r
    if frac.isEmpty && e.isNone then some (.int (signed neg (natOfDigits whole)), r)
    else
      some (.float (ofDecimal neg (natOfDigits (whole ++ frac)) (e.getD 0 - frac.length)), r)

def word? : Option (Value × List Char) :=
  let try1 (w : String) (v : Value) := (afterL? w.toList s).map (v, ·)
  (try1 "null" .null).orElse fun _ => (try1 "true" (.bool true)).orElse fun _ =>
    (try1 "false" (.bool false)).orElse fun _ =>
        (try1 "NaN" (.float notANumber)).orElse fun _ =>
    (try1 "Infinity" (.float (infinity false))).orElse fun _ =>
    try1 "-Infinity" (.float (infinity true))

def dedupe (es : List (Value × Value)) : List (Value × Value) := es.foldl (fun acc (k, v) => Value.insert k v acc) []

mutual

def value? : Nat → List Char → Option (Value × List Char)
  | 0, _ => none
  | fuel + 1, s =>
    match s with
    | '"' :: r => (string? fuel r []).map fun (t, r) => (.text t, r)
    | '[' :: r =>
      match skipBlank r with
      | ']' :: r' => some (.list [], r')
      | r' => (elements? fuel r' []).map fun (xs, r) => (.list xs, r)
    | '\x7b' :: r =>
      match skipBlank r with
      | '\x7d' :: r' => some (.keyed [], r')
      | r' => (members? fuel r' []).map fun (es, r) => (.keyed (dedupe es), r)
    | _ => (word? s).orElse fun _ => number? s

def elements? : Nat → List Char → List Value → Option (List Value × List Char)
  | 0, _, _ => none
  | fuel + 1, s, acc =>
    match value? fuel s with
    | none => none
    | some (v, r) =>
      match skipBlank r with
      | ',' :: r' => elements? fuel (skipBlank r') (v :: acc)
      | ']' :: r' => some ((v :: acc).reverse, r')
      | _ => none

def members? : Nat → List Char → List (Value × Value) → Option (List (Value × Value) × List Char)
  | 0, _, _ => none
  | fuel + 1, s, acc =>
    match s with
    | '"' :: r =>
      match string? fuel r [] with
      | none => none
      | some (k, r) =>
        match skipBlank r with
        | ':' :: r =>
          match value? fuel (skipBlank r) with
          | none => none
          | some (v, r) =>
            match skipBlank r with
            | ',' :: r' => members? fuel (skipBlank r') ((.text k, v) :: acc)
            | '\x7d' :: r' => some (((.text k, v) :: acc).reverse, r')
            | _ => none
        | _ => none
    | _ => none

end

def read? (s : String) : Option Value :=
  let cs := skipBlank s.toList
  match value? (2 * cs.length + 2) cs with
  | some (v, r) => if (skipBlank r).isEmpty then some v else none
  | none => none

def read (s : String) : Outcome Value :=
  match read? s with
  | some v => .ok v
  | none => .error ⟨.malformedJson, none⟩

end Sheetwork.Json
