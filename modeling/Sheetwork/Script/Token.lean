import Sheetwork.Value.Basic
/-
  Scripts: the tokens of an expression. A line end counts only outside brackets, a number sign begins a comment, and a
  text that does not split into tokens has none.
-/

namespace Sheetwork.Script

open Text

inductive Token where
  | name (s : String)
  | keyword (s : String)
  | number (v : Value)
  | quote (s : String)
  | mark (s : String)
  | lineEnd

namespace Token

def isMark (s : String) : Token → Bool
  | mark t => s = t
  | _ => false

def keywords : List String :=
  ["False", "None", "True", "and", "as", "assert", "async", "await", "break", "class", "continue",
    "def", "del", "elif", "else", "except", "finally", "for", "from", "global", "if",
    "import", "in",
    "is", "lambda", "nonlocal", "not", "or", "pass", "raise", "return", "try", "while",
    "with", "yield"]

def ofWord (s : String) : Token := if keywords.contains s then keyword s else name s

variable (c : Char)

def beginsName : Bool := isLetter c || c = '_'

def continuesName : Bool := beginsName c || isDecimal c

/-- Operators and brackets, the longest first. -/
def marks : List String :=
  ["...", "**", "//", "<<", ">>", "<=", ">=", "==", "!=", "+", "-", "*", "/", "%", "@", "&", "|", "^",
    "~", "<", ">", "(", ")", "[", "]", "\x7b", "\x7d", ",", ":", ";", ".", "="]

/-! Quoted texts -/

def hexValue? : Option Nat := hexDigit? c.toLower

def codeChar? (ds : List Char) : Option Char := do
  let n ← ds.foldlM (fun (n : Nat) c => do pure (16 * n + (← hexValue? c))) 0
  if n < 0xd800 || (0xe000 ≤ n && n ≤ 0x10ffff) then some (Char.ofNat n) else none

def escaped? : Char → Option Char
  | '\\' => some '\\'
  | '\'' => some '\''
  | '"' => some '"'
  | 'a' => some '\x07'
  | 'b' => some '\x08'
  | 'f' => some '\x0c'
  | 'n' => some '\n'
  | 'r' => some '\r'
  | 't' => some '\t'
  | 'v' => some '\x0b'
  | _ => none

def isOctal : Bool := '0' ≤ c && c ≤ '7'

def octalChar (ds : List Char) : Char := Char.ofNat (ds.foldl (fun n c => 8 * n + (c.toNat - 48)) 0)

/-- One escape after its backslash: the characters it stands for and the rest. -/
def escape? : List Char → Option (List Char × List Char)
  | '\n' :: r => some ([], r)
  | 'x' :: a :: b :: r => (codeChar? [a, b]).map ([·], r)
  | 'u' :: a :: b :: c :: d :: r => (codeChar? [a, b, c, d]).map ([·], r)
  | 'U' :: a :: b :: c :: d :: e :: f :: g :: h :: r => (codeChar? [a, b, c, d, e, f, g, h]).map ([·], r)
  | c :: r =>
    if c = 'x' || c = 'u' || c = 'U' || c = 'N' then none
    else match escaped? c with
      | some d => some ([d], r)
      | none =>
        if isOctal c then
          let ds := c :: (r.take 2).takeWhile isOctal
          some ([octalChar ds], (c :: r).drop ds.length)
        else some (['\\', c], r)
  | [] => none

/-- The text up to the closing quote and what follows; three quotes close a `long` one. -/
def body? (quote : Char) (long raw : Bool) : Nat → List Char → Option (List Char × List Char)
  | 0, _ => none
  | _ + 1, [] => none
  | fuel + 1, c :: r =>
    if c = quote && !long then some ([], r)
    else if c = quote && r.take 2 = [quote, quote] then some ([], r.drop 2)
    else if c = '\n' && !long then none
    else if c = '\\' then
      if raw then
        match r with
        | d :: r => (body? quote long raw fuel r).map fun (s, t) => (c :: d :: s, t)
        | [] => none
      else do
        let (cs, r) ← escape? r
        (body? quote long raw fuel r).map fun (s, t) => (cs ++ s, t)
    else (body? quote long raw fuel r).map fun (s, t) => (c :: s, t)

def quoted? (raw : Bool) (quote : Char) (r : List Char) : Option (Token × List Char) :=
  let long := r.take 2 = [quote, quote]
  let r := if long then r.drop 2 else r
  (body? quote long raw (r.length + 1) r).map fun (s, t) => (.quote (String.ofList s), t)

/-! Numbers -/

def afterNumber : List String := ["and", "else", "for", "if", "in", "is", "or", "not"]

def ended (r : List Char) : Bool :=
  match r with
  | [] => true
  | c :: _ => !isWord c || afterNumber.any fun w => w.toList.isPrefixOf r

def based? (base : Nat) (r : List Char) : Option (Token × List Char) :=
  let isDigit := fun c => (hexValue? c).any (· < base)
  let (ds, rest) := Number.scanDigitsFrom isDigit true r
  if ds.isEmpty || !ended rest then none
  else
    let n := ds.foldl (fun n c => base * n + (hexValue? c).getD 0) 0
    some (.number (.int n), rest)

variable (s : List Char)

def decimal? : Option (Token × List Char) := do
  let (whole, r) := Number.scanDigitsFrom isAsciiDigit false s
  let (frac, r, pointed) := match r with
    | '.' :: r =>
      let (ds, rest) := Number.scanDigitsFrom isAsciiDigit false r
      (ds, rest, true)
    | r => ([], r, false)
  let (e, r, scaled) := match Number.scanExponent? isAsciiDigit r with
    | some (e, r) => (e, r, true)
    | none => (0, r, false)
  let x := Number.ofDecimal false (natOfDigits (whole ++ frac)) (e - frac.length)
  match r with
  | c :: rest =>
    if c = 'j' || c = 'J' then
      if ended rest then return (.number (.complex 0 x), rest)
  | [] => pure ()
  if !ended r then none
  else if pointed || scaled then some (.number (.float x), r)
  else if whole.head? = some '0' && whole.any (· ≠ '0') then none
  else if Number.maxDigits < whole.length then none
  else some (.number (.int (natOfDigits whole)), r)

def number? : Option (Token × List Char) :=
  match s with
  | '0' :: c :: r =>
    if c = 'x' || c = 'X' then based? 16 r
    else if c = 'o' || c = 'O' then based? 8 r
    else if c = 'b' || c = 'B' then based? 2 r
    else decimal? s
  | _ => decimal? s

/-! Token by token -/

/-- A name, a keyword or a quoted text with a letter before it. -/
def word? : Option (Token × List Char) :=
  let w := s.takeWhile isWord
  let r := s.drop w.length
  if !w.all continuesName then none
  else match r with
  | q :: r' =>
    if q = '"' || q = '\'' then
      match w with
      | ['r'] | ['R'] => quoted? true q r'
      | ['u'] | ['U'] => quoted? false q r'
      | [_] | [_, _] =>
        if w.all ("bBfFrR".toList.contains ·) then none else some (ofWord (String.ofList w), r)
      | _ => some (ofWord (String.ofList w), r)
    else some (ofWord (String.ofList w), r)
  | [] => some (ofWord (String.ofList w), r)

def next? : Option (Token × List Char) :=
  match s with
  | [] => none
  | c :: r =>
    if isAsciiDigit c || (c = '.' && r.head?.any isAsciiDigit) then number? s
    else if c = '"' || c = '\'' then quoted? false c r
    else if beginsName c then word? s
    else
      marks.findSome? fun m => (afterL? m.toList s).map fun r => (mark m, r)

def maxDepth : Nat := 200

def depth? (depth : Nat) : Token → Option Nat
  | mark "(" | mark "[" | mark "\x7b" => if depth < maxDepth then some (depth + 1) else none
  | mark ")" | mark "]" | mark "\x7d" => some (depth - 1)
  | _ => some depth

/-- The tokens of a text inside `depth` brackets; `fuel` exceeds its length. -/
def scanFrom : Nat → Nat → List Char → Option (List Token)
  | 0, _, _ => none
  | _ + 1, _, [] => some []
  | fuel + 1, depth, c :: r =>
    if c = ' ' || c = '\t' || c = '\x0c' then scanFrom fuel depth r
    else if c = '\n' then
      if depth = 0 then (scanFrom fuel depth r).map (lineEnd :: ·) else scanFrom fuel depth r
    else if c = '#' then scanFrom fuel depth (r.dropWhile (· ≠ '\n'))
    else if c = '\\' then
      match r with
      | '\n' :: r => scanFrom fuel depth r
      | _ => none
    else do
      let (t, rest) ← next? (c :: r)
      let depth ← depth? depth t
      (scanFrom fuel depth rest).map (t :: ·)

def scan? (s : String) : Option (List Token) :=
  let s := replace "\r" "\n" (replace "\r\n" "\n" s)
  scanFrom (s.length + 1) 0 s.toList

end Token

end Sheetwork.Script
