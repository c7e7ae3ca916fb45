import Sheetwork.Value.Order
/-
  JSON: writing. Members come in their order or sorted by key, on one line or indented; what JSON has no form for is
  written as its text, if the format says so.
-/

namespace Sheetwork.Json

open Sheetwork Text

structure Format where
  /-- Blanks a level, on lines of their own; one line if there is no number. -/
  indent : Option Nat
  (ascii sorted : Bool)
  (itemSep keySep : String)
  /-- Dates and times become texts. -/
  textFallback : Bool

/-- One line, escaped, in the order of insertion. -/
def line : Format := ⟨none, true, false, ", ", ": ", false⟩

def pretty : Format := ⟨some 2, true, false, ",", ": ", false⟩

def escape (ascii : Bool) (c : Char) : List Char :=
  if "\"\\\n\r\t".toList.contains c then escapeChar '"' c
  else if c.toNat = 8 then ['\\', 'b']
  else if c.toNat = 12 then ['\\', 'f']
  else if c.toNat < 32 then '\\' :: 'u' :: hexL 4 c.toNat
  else if ascii && 126 < c.toNat then
    if c.toNat < 0x10000 then '\\' :: 'u' :: hexL 4 c.toNat
    else
      let n := c.toNat - 0x10000
      '\\' :: 'u' :: (hexL 4 (0xD800 + n / 0x400) ++ '\\' :: 'u' :: hexL 4 (0xDC00 + n % 0x400))
  else [c]

def string (ascii : Bool) (s : String) : String := String.ofList ('"' :: (s.toList.flatMap (escape ascii) ++ ['"']))

def floatText (x : Float) : String :=
  if x.isNaN then "NaN" else if x.isInf then (if x < 0 then "-Infinity" else "Infinity")
  else Number.text x

def key : Value → Outcome String
  | .text s => .ok s
  | .null => .ok "null"
  | .bool b => .ok (if b then "true" else "false")
  | .int n => .ok (ofInt n)
  | .float x => .ok (floatText x)
  | _ => .error .wrongKind

def Format.newline (f : Format) (level : Nat) : String :=
  match f.indent with
  | some n => "\n" ++ times (n * level) " "
  | none => ""

def Format.wrap (f : Format) (level : Nat) (op cl : String) (items : List String) : String :=
  if items.isEmpty then op ++ cl
  else
    op ++ f.newline (level + 1) ++ join (f.itemSep ++ f.newline (level + 1)) items ++ f.newline level ++ cl

def sortEntries (es : List (String × String)) : List (String × String) :=
  es.mergeSort fun a b => Value.textOrder a.1 b.1 ≠ .gt

mutual

def writeAt (f : Format) (level : Nat) : Value → Outcome String
  | .null => .ok "null"
  | .bool b => .ok (if b then "true" else "false")
  | .int n => .ok (ofInt n)
  | .float x => .ok (floatText x)
  | .text s => .ok (string f.ascii s)
  | .list xs => (writeItems f (level + 1) xs).map (f.wrap level "[" "]")
  | .tuple xs => (writeItems f (level + 1) xs).map (f.wrap level "[" "]")
  | .keyed es =>
    (writeMembers f (level + 1) es).map fun ms =>
      let ms := if f.sorted then sortEntries ms else ms
      f.wrap level "\x7b" "\x7d" (ms.map fun (k, v) => string f.ascii k ++ f.keySep ++ v)
  | v => if f.textFallback then .ok (string f.ascii v.toText) else .error .wrongKind

def writeItems (f : Format) (level : Nat) : List Value → Outcome (List String)
  | [] => .ok []
  | x :: xs =>
    match writeAt f level x with
    | .error e => .error e
    | .ok s => (writeItems f level xs).map (s :: ·)

def writeMembers (f : Format) (level : Nat) : List (Value × Value) → Outcome (List (String × String))
  | [] => .ok []
  | (k, v) :: es =>
    match key k, writeAt f level v with
    | .ok k, .ok s => (writeMembers f level es).map ((k, s) :: ·)
    | .error e, _ => .error e
    | _, .error e => .error e

end

def Format.write (f : Format) (v : Value) : Outcome String := writeAt f 0 v

end Sheetwork.Json
