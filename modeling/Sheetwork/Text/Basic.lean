import Sheetwork.Text.Class
/-
  Text: cutting, searching and joining. Positions count code points, and the work is done on lists of characters; the
  forms on `String` wrap them.
-/

namespace Sheetwork.Text

/-- What follows `p`, if the text starts with it. -/
def afterL? : List Char → List Char → Option (List Char)
  | [], s => some s
  | _ :: _, [] => none
  | a :: p, b :: s => if a = b then afterL? p s else none

/-- The text before the first `sep` and the text after it. -/
def cutL? (sep : List Char) : List Char → Option (List Char × List Char)
  | [] => if sep.isEmpty then some ([], []) else none
  | c :: s =>
    match afterL? sep (c :: s) with
    | some r => some ([], r)
    | none => (cutL? sep s).map fun (a, b) => (c :: a, b)

def splitFuel (sep : List Char) : Nat → List Char → List (List Char)
  | 0, s => [s]
  | fuel + 1, s =>
    match cutL? sep s with
    | none => [s]
    | some (a, b) => a :: splitFuel sep fuel b

def splitL (sep : List Char) (s : List Char) : List (List Char) := if sep.isEmpty then [s] else splitFuel sep s.length s

def split (sep s : String) : List String := (splitL sep.toList s.toList).map String.ofList

def joinL (sep : List Char) : List (List Char) → List Char
  | [] => []
  | [s] => s
  | s :: r => s ++ sep ++ joinL sep r

def join (sep : String) (xs : List String) : String := String.intercalate sep xs

/-- Puts `new` for every `old`; an empty `old` stands before each character and at the end. -/
def replaceL (old new s : List Char) : List Char :=
  if old.isEmpty then new ++ s.flatMap fun c => c :: new
  else joinL new (splitL old s)

def replace (old new s : String) : String := String.ofList (replaceL old.toList new.toList s.toList)

def replaceFirst (old new s : String) : String :=
  match cutL? old.toList s.toList with
  | some (a, b) => String.ofList (a ++ new.toList ++ b)
  | none => s

def contains (sub s : String) : Bool := (cutL? sub.toList s.toList).isSome

def find? (sub s : String) : Option Nat := (cutL? sub.toList s.toList).map (·.1.length)

def startsWith (p s : String) : Bool := p.toList.isPrefixOf s.toList

def endsWith (p s : String) : Bool := p.toList.isSuffixOf s.toList

variable (n : Nat) (s : String)

def take : String := String.ofList (s.toList.take n)

def drop : String := String.ofList (s.toList.drop n)

def dropLast : String := String.ofList (s.toList.take (s.length - n))

def slice (i j : Nat) (s : String) : String := String.ofList ((s.toList.drop i).take (j - i))

def dropRightWhileL (p : Char → Bool) (s : List Char) : List Char := (s.reverse.dropWhile p).reverse

def stripWhileL (p : Char → Bool) (s : List Char) : List Char := dropRightWhileL p (s.dropWhile p)

def strip : String := String.ofList (stripWhileL isBlank s.toList)

def stripL (s : List Char) : List Char := stripWhileL isBlank s

def stripLeft : String := String.ofList (s.toList.dropWhile isBlank)

def stripChars (cs : String) (s : String) : String := String.ofList (stripWhileL (cs.toList.contains ·) s.toList)

def stripCharsLeft (cs : String) (s : String) : String := String.ofList (s.toList.dropWhile (cs.toList.contains ·))

def stripCharsRight (cs : String) (s : String) : String :=
  String.ofList (dropRightWhileL (cs.toList.contains ·) s.toList)

/-- The parts between white space, none of them empty. -/
def words : List String := go s.toList [] []
where
  go : List Char → List Char → List String → List String
    | [], cur, acc => (if cur.isEmpty then acc else String.ofList cur.reverse :: acc).reverse
    | c :: r, cur, acc =>
      if isBlank c then go r [] (if cur.isEmpty then acc else String.ofList cur.reverse :: acc)
      else go r (c :: cur) acc

/-- The text before the last `sep` and the text after it. -/
def cutLast? (sep : Char) (s : String) : Option (String × String) :=
  let r := s.toList.reverse
  if r.contains sep then
    some (String.ofList (r.dropWhile (· ≠ sep)).tail.reverse, String.ofList (r.takeWhile (· ≠ sep)).reverse)
  else none

def cut? (sep s : String) : Option (String × String) :=
  (cutL? sep.toList s.toList).map fun (a, b) => (String.ofList a, String.ofList b)

def padLeft (width : Nat) (fill : Char) (s : String) : String :=
  String.ofList (List.replicate (width - s.length) fill) ++ s

def times : String := String.join (List.replicate n s)

/-- Every character that is not an ASCII letter or digit becomes an underscore. -/
def plainWord : String := String.ofList (s.toList.map fun c => if isPlain c then c else '_')

def natL : List Char := Nat.toDigits 10 n

def ofNat : String := String.ofList (natL n)

def ofInt : Int → String
  | .ofNat n => ofNat n
  | .negSucc n => "-" ++ ofNat (n + 1)

/-- The number that decimal digits of any script write. -/
def natOfDigits (ds : List Char) : Nat := ds.foldl (fun n c => 10 * n + (decimalValue? c).getD 0) 0

end Sheetwork.Text
