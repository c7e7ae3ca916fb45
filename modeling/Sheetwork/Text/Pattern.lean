import Sheetwork.Text.Case
/-
  Text: patterns with captures, matched by backtracking. `Pattern.run` is structural in the pattern and takes what is
  to follow as a continuation; a repetition spends one unit of fuel a round, and a round that may be skipped must
  consume something.
-/

namespace Sheetwork.Text

inductive Pattern where
  | nothing
  | one (test : Char → Bool)
  | seq (a b : Pattern)
  /-- `a` if the whole match succeeds with it, else `b`. -/
  | alt (a b : Pattern)
  /-- At least `least` and at most `most` times, as many as possible when `greedy`. -/
  | rep (greedy : Bool) (least : Nat) (most : Option Nat) (p : Pattern)
  | cap (n : Nat) (p : Pattern)
  /-- What follows matches, or does not. -/
  | ahead (holds : Bool) (p : Pattern)
  /-- What stands before matches, or does not; `p` has one length. -/
  | behind (holds : Bool) (p : Pattern)
  | start
  /-- The end, or a line end there. -/
  | finish
  /-- A word begins or ends. -/
  | boundary

abbrev Captures := List (Nat × Nat × Nat)

structure Match where
  text : Array Char
  (start stop : Nat)
  captures : Captures

namespace Match

variable (m : Match)

def span (i j : Nat) : String := String.ofList (m.text.extract i j).toList

def whole : String := m.span m.start m.stop

def group? (n : Nat) : Option String := (m.captures.find? (·.1 = n)).map fun (_, i, j) => m.span i j

def group (n : Nat) : String := (m.group? n).getD ""

end Match

namespace Pattern

instance : Append Pattern := ⟨seq⟩

instance : OrElse Pattern := ⟨fun a b => alt a (b ())⟩

def chr (c : Char) : Pattern := one (· = c)

variable (s : String)

def lit : Pattern := s.toList.foldr (fun c p => seq (chr c) p) nothing

def anyOf : Pattern := one (s.toList.contains ·)

def noneOf : Pattern := one fun c => !s.toList.contains c

def digit : Pattern := one isDecimal

def word : Pattern := one isWord

def blank : Pattern := one isBlank

def upperLetter : Pattern := one isAsciiUpper

def any : Pattern := one (· ≠ '\n')

variable (p : Pattern)

def many : Pattern := rep true 0 none p

def plus : Pattern := rep true 1 none p

def opt : Pattern := rep true 0 (Option.some 1) p

def manyShort : Pattern := rep false 0 none p

def between (lo hi : Nat) (p : Pattern) : Pattern := rep true lo (Option.some hi) p

def times (n : Nat) (p : Pattern) : Pattern := rep true n (Option.some n) p

def choice : List Pattern → Pattern
  | [] => one fun _ => false
  | [p] => p
  | p :: r => alt p (choice r)

def monthName : Pattern :=
  choice (["Jan", "Feb", "Mar", "Apr", "May", "Jun", "Jul", "Aug", "Sep", "Oct", "Nov", "Dec"].map lit)

/-- A cell, with its column and its row as groups. -/
def cellForm (n : Nat) : Pattern := cap n upperLetter.plus ++ cap (n + 1) digit.plus

def areaForm : Pattern := cellForm 1 ++ chr ':' ++ cellForm 3

def anyCase : Pattern → Pattern
  | one t => one fun c => t c || t (lowerChar c) || t (upperChar c) || t (upperChar (lowerChar c)) ||
      t (lowerChar (upperChar c))
  | seq a b => seq a.anyCase b.anyCase
  | alt a b => alt a.anyCase b.anyCase
  | rep g l m p => rep g l m p.anyCase
  | cap n p => cap n p.anyCase
  | ahead h p => ahead h p.anyCase
  | behind h p => behind h p.anyCase
  | p => p

/-- The length of every match, for patterns that have one. -/
def width : Pattern → Nat
  | one _ => 1
  | seq a b => a.width + b.width
  | alt a _ => a.width
  | rep _ l _ p => l * p.width
  | cap _ p => p.width
  | _ => 0

/-- What is to be matched next: a position and the captures so far give an end, if there is one. -/
abbrev Follow := Nat → Captures → Option (Nat × Captures)

def rounds (step : Nat → Captures → Follow → Option (Nat × Captures)) (greedy : Bool)
    (k : Follow) : Nat → Nat → Option Nat → Follow
  | 0, _, _, i, cs => k i cs
  | fuel + 1, least, most, i, cs =>
    if 0 < least then step i cs fun j ds => rounds step greedy k fuel (least - 1) (most.map (· - 1)) j ds
    else if most = Option.some 0 then k i cs
    else
      let more (_ : Unit) := step i cs fun j ds =>
        if j = i then none else rounds step greedy k fuel 0 (most.map (· - 1)) j ds
      if greedy then (more ()).orElse fun _ => k i cs
      else (k i cs).orElse more

def atBoundary (s : Array Char) (i : Nat) : Bool :=
  let before := i ≠ 0 && (s[i - 1]?.map isWord).getD false
  let after := (s[i]?.map isWord).getD false
  before ≠ after

def run (s : Array Char) : Pattern → Nat → Captures → Follow → Option (Nat × Captures)
  | nothing, i, cs, k => k i cs
  | one t, i, cs, k =>
    match s[i]? with
    | Option.some c => if t c then k (i + 1) cs else none
    | none => none
  | seq a b, i, cs, k => run s a i cs fun j ds => run s b j ds k
  | alt a b, i, cs, k => (run s a i cs k).orElse fun _ => run s b i cs k
  | rep g l m p, i, cs, k => rounds (fun j ds f => run s p j ds f) g k (s.size - i + l + 1) l m i cs
  | cap n p, i, cs, k => run s p i cs fun j ds => k j ((n, i, j) :: ds)
  | ahead holds p, i, cs, k =>
    match run s p i cs fun j ds => Option.some (j, ds) with
    | Option.some (_, ds) => if holds then k i ds else none
    | none => if holds then none else k i cs
  | behind holds p, i, cs, k =>
    let found := p.width ≤ i &&
      (run s p (i - p.width) cs fun j ds => if j = i then Option.some (j, ds) else none).isSome
    if found = holds then k i cs else none
  | start, i, cs, k => if i = 0 then k i cs else none
  | finish, i, cs, k =>
    if i = s.size || (i + 1 = s.size && s[i]? = Option.some '\n') then k i cs else none
  | boundary, i, cs, k => if atBoundary s i then k i cs else none

def matchAt? (s : Array Char) (i : Nat) : Option Match :=
  (p.run s i [] fun j cs => Option.some (j, cs)).map fun (j, cs) => ⟨s, i, j, cs⟩

def advanceAt? (s : Array Char) (i : Nat) : Option Match :=
  (p.run s i [] fun j cs => if j = i then none else Option.some (j, cs)).map fun (j, cs) => ⟨s, i, j, cs⟩

def begin? : Option Match := p.matchAt? s.toList.toArray 0

def full? : Option Match :=
  let cs := s.toList.toArray
  (p.run cs 0 [] fun j ds => if j = cs.size then Option.some (j, ds) else none).map fun (j, ds) => ⟨cs, 0, j, ds⟩

def searchFrom? (p : Pattern) (s : Array Char) : Nat → Nat → Option Match
  | 0, _ => none
  | fuel + 1, i => (p.matchAt? s i).orElse fun _ => searchFrom? p s fuel (i + 1)

def search? : Option Match :=
  let cs := s.toList.toArray
  p.searchFrom? cs (cs.size + 1) 0

/-- All matches from left to right; after an empty one the next must advance or begin later. -/
def allFrom (p : Pattern) (s : Array Char) : Nat → Nat → Bool → List Match
  | 0, _, _ => []
  | fuel + 1, i, advance =>
    let here := if advance then p.advanceAt? s i else p.matchAt? s i
    match here.orElse fun _ => p.searchFrom? s (s.size - i) (i + 1) with
    | none => []
    | Option.some m => m :: allFrom p s fuel m.stop (m.stop = m.start)

def all : List Match :=
  let cs := s.toList.toArray
  p.allFrom cs (2 * cs.size + 2) 0 false

/-- A text from a place on with new texts for its matches. -/
def spliceFrom (s : Array Char) (i : Nat) : List (Match × String) → List Char
  | [] => (s.extract i s.size).toList
  | (m, new) :: ms => (s.extract i m.start).toList ++ (new.toList ++ spliceFrom s m.stop ms)

def splice (s : Array Char) (f : Match → String) (ms : List Match) : String :=
  String.ofList (spliceFrom s 0 (ms.map fun m => (m, f m)))

def replaceAll (f : Match → String) (s : String) : String :=
  let cs := s.toList.toArray
  splice cs f (p.allFrom cs (2 * cs.size + 2) 0 false)

/-- Puts the result of `f m` for every match `m`, if all have one. -/
def replaceAllM {ε : Type} (p : Pattern) (f : Match → Except ε String) (s : String) : Except ε String := do
  let cs := s.toList.toArray
  let ms := p.allFrom cs (2 * cs.size + 2) 0 false
  pure (String.ofList (spliceFrom cs 0 (ms.zip (← ms.mapM f))))

end Pattern

end Sheetwork.Text
