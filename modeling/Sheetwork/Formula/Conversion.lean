import Sheetwork.Formula.Corner
import Sheetwork.Number.Decimal
import Sheetwork.Reference.Basic
/-
  Formulas: script expressions of formulas. `convert` reads a formula from left to right and gives the pieces of its
  script expression, text and references in their order; `render` is the text of the pieces and `references` what they
  refer to. A string without a closing quote or a row of too many digits ends the conversion, and what was read before
  it stays.
-/

namespace Sheetwork.Formula

open Text

inductive Reference where
  | cell (sheet : String) (at_ : Corner)
  | range (sheet : String) (from_ last : Corner)
  | table (name column : String)
  deriving DecidableEq

def Reference.scriptName : Reference → String
  | cell s c => ScriptName.cell s c.column c.rowText
  | range s a b => ScriptName.range s a.column a.rowText b.column b.rowText
  | table t c => ScriptName.table t c

def Reference.isReadable : Reference → Bool
  | cell _ c => c.row.length ≤ Number.maxDigits
  | range _ a b => a.row.length ≤ Number.maxDigits && b.row.length ≤ Number.maxDigits
  | table .. => true

/-- A piece of a script expression; a silent reference is read by the formula and not written. -/
inductive Piece where
  | text (s : List Char)
  | ref (r : Reference)
  | silent (r : Reference)
  deriving DecidableEq

def Piece.render : Piece → List Char
  | text s => s
  | ref r => r.scriptName.toList
  | silent _ => []

def Piece.reference? : Piece → Option Reference
  | text _ => none
  | ref r => some r
  | silent r => some r

structure Conversion where
  pieces : List Piece
  complete : Bool

namespace Conversion

def empty : Conversion := ⟨[], true⟩

def after (ps : List Piece) (c : Conversion) : Conversion := { c with pieces := ps ++ c.pieces }

def andThen (c d : Conversion) : Conversion := if c.complete then after c.pieces d else c

/-- Conversions one after another with a separator, up to the first that is not complete. -/
def joined : List Conversion → Conversion
  | [] => empty
  | [c] => c
  | c :: r => c.andThen (after [.text [',', ' ']] (joined r))

variable (c : Conversion)

def silenced : Conversion := { c with pieces := c.pieces.filterMap fun p => p.reference?.map .silent }

def render : String := String.ofList (c.pieces.flatMap Piece.render)

def references : List Reference := c.pieces.filterMap Piece.reference?

def ofPiece : Piece → Conversion
  | .ref r => if r.isReadable then ⟨[.ref r], true⟩ else ⟨[], false⟩
  | p => ⟨[p], true⟩

def asText : Conversion := (after [.text " + str(".toList] c).andThen ⟨[.text [')']], true⟩

end Conversion

structure Context where
  sheet : String
  tables : List String

variable (s : List Char)

def numeral? : Option (List Char × List Char) :=
  let whole := s.takeWhile isDecimal
  if whole.isEmpty then none
  else
    let r := s.dropWhile isDecimal
    let (frac, r) := match r with
      | '.' :: r' => ('.' :: r'.takeWhile isDecimal, r'.dropWhile isDecimal)
      | _ => ([], r)
    let (exp, r) := match r with
      | e :: r' =>
        if e = 'e' || e = 'E' then
          let (sign, r'') := match r' with
            | '+' :: t => (['+'], t)
            | '-' :: t => (['-'], t)
            | _ => ([], r')
          let ds := r''.takeWhile isDecimal
          if ds.isEmpty then ([], r) else (e :: sign ++ ds, r''.dropWhile isDecimal)
        else ([], r)
      | [] => ([], r)
    some (whole ++ frac ++ exp, r)

/-- The body of a string after its opening quote, as a script writes it, and the rest; a doubled
quote is escaped, and without a closing quote the body is all there is. -/
def stringBody : List Char → List Char × List Char
  | [] => ([], [])
  | ['"'] => ([], [])
  | '"' :: d :: r =>
    if d = '"' then let (b, rest) := stringBody r; ('\\' :: '"' :: b, rest) else ([], d :: r)
  | c :: r => let (b, rest) := stringBody r; (c :: b, rest)

def truth? : Option (List Char × List Char) :=
  let upper := (s.take 5).flatMap upperChars
  let ends := fun n => (s.drop n).head?.all fun c => !isLetter c
  if "TRUE".toList.isPrefixOf upper && ends 4 then some ("True".toList, s.drop 4)
  else if "FALSE".toList.isPrefixOf upper && ends 5 then some ("False".toList, s.drop 5)
  else none

def onSheet? (sheet : String) (s : List Char) : Option (Reference × List Char) :=
  match corner? s with
  | none => none
  | some (a, r) =>
    match endCorner? r with
    | some (b, r') => some (.range sheet a b, r')
    | none => some (.cell sheet a, r)

def onNamedSheet? : Option (Reference × List Char) :=
  match (quotedSheet? s).bind fun (n, r) => onSheet? (String.ofList n) r with
  | some p => some p
  | none => (bareSheet? s).bind fun (n, r) => onSheet? (String.ofList n) r

variable (cx : Context) {a : Reference} {c : Char}

def onTable? (s : List Char) : Option (Reference × List Char) :=
  match tableColumn? s with
  | some (t, c, r) =>
    if cx.tables.contains (String.ofList t) then some (.table (String.ofList t) (String.ofList c), r)
    else none
  | none => none

def namedReference? (s : List Char) : Option (Reference × List Char) :=
  match onNamedSheet? s with
  | some p => some p
  | none => onTable? cx s

inductive Token where
  | unclosed
  | piece (p : Piece) (rest : List Char)
  | group (inner rest : List Char)
  | call (name inner rest : List Char)
  /-- What follows a `&`. -/
  | asText (t : Token)
  deriving DecidableEq

/-- The token at the beginning of a text that has no blanks there. -/
def token (c : Char) (r : List Char) : Token :=
  let s := c :: r
  match numeral? s with
  | some (n, rest) => .piece (.text n) rest
  | none =>
    if c = '"' then
      let (b, rest) := stringBody r
      .piece (.text ('"' :: b ++ ['"'])) rest
    else
      match truth? s with
      | some (t, rest) => .piece (.text t) rest
      | none =>
        match namedReference? cx s with
        | some (ref, rest) => .piece (.ref ref) rest
        | none =>
          match callHead? s with
          | some (name, r') => .call name (enclosed r').1 (enclosed r').2
          | none =>
            match onSheet? cx.sheet s with
            | some (ref, rest) => .piece (.ref ref) rest
            | none => .piece (.text [c]) r

def scriptFunction (name : String) : String :=
  let lower := lower name
  if name = "ABS" || name = "ROUND" || name = "INT" then lower else "xl_" ++ lower

/-- The call of a function on converted arguments; the functions of no argument read theirs and drop
them. -/
def callConversion (name : List Char) (args : List Conversion) : Conversion :=
  let upper := upper (String.ofList name)
  let all := Conversion.joined args
  let head := (scriptFunction upper).toList
  if upper = "PI" || upper = "TODAY" || upper = "NOW" then
    all.silenced.andThen ⟨[.text (head ++ ['(', ')'])], true⟩
  else
    (Conversion.after [.text (head ++ ['('])] all).andThen ⟨[.text [')']], true⟩

def operator? (c : Char) (r : List Char) : Option (List Char × List Char) :=
  match c, r with
  | '<', '>' :: r' => some (" != ".toList, r')
  | '<', '=' :: r' => some (" <= ".toList, r')
  | '>', '=' :: r' => some (" >= ".toList, r')
  | '=', _ => some (" == ".toList, r)
  | '^', _ => some (" ** ".toList, r)
  | ',', _ => some (", ".toList, r)
  | ' ', _ => some ([], r)
  | '%', _ => some (" / 100".toList, r)
  | _, _ => if "<>+-*/".toList.contains c then some ([' ', c, ' '], r) else none

theorem length_dollar_le : (dollar s).2.length ≤ s.length := by
  unfold dollar
  split <;> simp

theorem length_lt_of_takeWhile_ne_nil {p : Char → Bool} {s : List Char} (h : (s.takeWhile p).isEmpty = false) :
    (s.dropWhile p).length < s.length := by
  cases s with
  | nil => cases h
  | cons c r =>
    rw [List.takeWhile_cons] at h
    split at h
    · next hc =>
      rw [List.dropWhile_cons_of_pos hc]
      exact Nat.lt_succ_of_le (length_dropWhile_le p r)
    · cases h

theorem corner?_length {s r : List Char} {a : Corner} (h : corner? s = some (a, r)) : r.length < s.length := by
  simp only [corner?] at h
  split at h
  · cases h
  · next hne =>
    cases h
    have h₁ := length_lt_of_takeWhile_ne_nil (Bool.or_eq_false_iff.1 (Bool.eq_false_iff.2 hne)).2
    have h₂ := length_dollar_le (List.drop (capitals (dollar s).2).length (dollar s).2)
    have h₃ := length_dollar_le s
    rw [List.length_drop] at h₂
    omega

theorem onSheet?_length {sheet : String} {s r : List Char} (h : onSheet? sheet s = some (a, r)) :
    r.length < s.length := by
  unfold onSheet? at h
  split at h
  · cases h
  · next c t hc =>
    have h₁ := corner?_length hc
    split at h
    · next b t' hb =>
      cases h
      unfold endCorner? at hb
      split at hb
      · exact Nat.lt_trans (corner?_length hb) (Nat.lt_of_succ_lt h₁)
      · cases hb
    · cases h
      exact h₁

theorem quotedSheet?_length {s n r : List Char} (h : quotedSheet? s = some (n, r)) : r.length < s.length := by
  simp only [quotedSheet?] at h
  split at h
  · next t =>
    have := length_dropWhile_le (· ≠ '\'') t
    grind
  · cases h

theorem bareSheet?_length {s n r : List Char} (h : bareSheet? s = some (n, r)) : r.length < s.length := by
  simp only [bareSheet?] at h
  have := length_dropWhile_le isWord s
  grind

theorem tableColumn?_length {s t c r : List Char} (h : tableColumn? s = some (t, c, r)) : r.length < s.length := by
  simp only [tableColumn?] at h
  have := length_dropWhile_le isWord s
  split at h
  · next rest _ =>
    have h₂ := length_dropWhile_le (· ≠ ']') rest
    grind
  · cases h

theorem namedReference?_length {cx : Context} {s r : List Char}
    (h : namedReference? cx s = some (a, r)) : r.length < s.length := by
  have named : ∀ {o : Option (List Char × List Char)}, (∀ n t, o = some (n, t) → t.length < s.length) →
      (o.bind fun (n, r) => onSheet? (String.ofList n) r) = some (a, r) → r.length < s.length := by
    intro o ho hb
    obtain ⟨⟨n, t⟩, hn, hr⟩ := Option.bind_eq_some_iff.1 hb
    exact Nat.lt_trans (onSheet?_length hr) (ho n t hn)
  unfold namedReference? onNamedSheet? onTable? at h
  grind [quotedSheet?_length, bareSheet?_length, tableColumn?_length]

theorem numeral?_length {s n r : List Char} (h : numeral? s = some (n, r)) : r.length < s.length := by
  simp only [numeral?] at h
  split at h
  · cases h
  · next hne =>
    have h₁ := length_lt_of_takeWhile_ne_nil (Bool.eq_false_iff.2 hne)
    have h₂ := fun t => length_dropWhile_le isDecimal t
    grind

theorem stringBody_length : (stringBody s).2.length ≤ s.length := by
  fun_induction stringBody s <;> simp_all <;> omega

theorem truth?_length {s t r : List Char} (h : truth? (c :: s) = some (t, r)) : r.length ≤ s.length := by
  simp only [truth?] at h
  grind

theorem callHead?_length {s n r : List Char} (h : callHead? s = some (n, r)) : r.length < s.length := by
  unfold callHead? at h
  split at h
  · next c t =>
    have := length_dropWhile_le isNameChar t
    grind
  · cases h

namespace Token

def rest : Token → List Char
  | unclosed => []
  | piece _ rest => rest
  | group _ rest => rest
  | call _ _ rest => rest
  | asText t => t.rest

def texts : Token → List (List Char)
  | group inner _ => [inner]
  | call _ inner _ => arguments inner
  | asText t => t.texts
  | _ => []

def conversion (cs : List Conversion) : Token → Conversion
  | unclosed => ⟨[], false⟩
  | piece p _ => .ofPiece p
  | group .. => (Conversion.after [.text ['(']] (.joined cs)).andThen ⟨[.text [')']], true⟩
  | call name .. => callConversion name cs
  | asText t => (t.conversion cs).asText

/-- How much of the text a token leaves to be read. -/
def left : Token → Nat
  | unclosed => 0
  | piece _ rest => rest.length
  | group inner rest => inner.length + rest.length
  | call _ inner rest => inner.length + rest.length
  | asText t => t.left

theorem length_rest_le (t : Token) : t.rest.length ≤ t.left := by
  induction t with
  | asText t ih => exact ih
  | _ => simp [rest, left]

theorem length_le_of_mem_texts {t : Token} {a : List Char} (h : a ∈ t.texts) : a.length ≤ t.left := by
  induction t with
  | asText t ih => exact ih h
  | group inner rest => simp_all [texts, left]
  | call name inner rest => exact Nat.le_add_right_of_le (length_of_mem_arguments h)
  | _ => cases h

end Token

theorem left_token_le (c : Char) (r : List Char) : (token cx c r).left ≤ r.length := by
  unfold token
  dsimp only
  split
  · next h => exact Nat.le_of_lt_succ (numeral?_length h)
  · split
    · exact stringBody_length r
    · split
      · next h => exact truth?_length h
      · split
        · next h => exact Nat.le_of_lt_succ (namedReference?_length h)
        · split
          · next h => exact Nat.le_trans (enclosed_length _) (Nat.le_of_lt_succ (callHead?_length h))
          · split
            · next h => exact Nat.le_of_lt_succ (onSheet?_length h)
            · exact Nat.le_refl _

theorem operator?_length {r t rest : List Char} (h : operator? c r = some (t, rest)) : rest.length ≤ r.length := by
  unfold operator? at h
  split at h <;> (try split at h) <;> simp_all

theorem afterL?_length {q s r : List Char} (h : afterL? q s = some r) : r.length ≤ s.length := by
  fun_induction afterL? q s with grind

theorem cutL?_length {q s a b : List Char} (h : cutL? q s = some (a, b)) : b.length ≤ s.length := by
  induction s generalizing a with
  | nil =>
    rw [cutL?] at h
    split at h <;> cases h
    exact Nat.le_refl _
  | cons c r ih =>
    rw [cutL?] at h
    split at h
    · next ht =>
      cases h
      exact afterL?_length ht
    · obtain ⟨⟨x, y⟩, hx, hy⟩ := Option.map_eq_some_iff.1 h
      cases hy
      exact Nat.le_succ_of_le (ih hx)

def nextToken (s : List Char) : Token :=
  match s.dropWhile isBlank with
  | [] => .piece (.text []) []
  | c :: r => token cx c r

theorem left_nextToken_le (s : List Char) : (nextToken cx s).left ≤ s.length - 1 := by
  have hd := length_dropWhile_le isBlank s
  unfold nextToken
  split
  · exact Nat.zero_le _
  · next c r e =>
    rw [e] at hd
    exact Nat.le_trans (left_token_le cx c r) (Nat.le_sub_one_of_lt hd)

def step (c : Char) (r : List Char) : Token :=
  if c = '"' then
    match cutL? ['"'] r with
    | none => .unclosed
    | some (body, rest) => .piece (.text ('"' :: body ++ ['"'])) rest
  else if c = '&' then .asText (nextToken cx r)
  else
    match operator? c r with
    | some (t, rest) => .piece (.text t) rest
    | none => if c = '(' then .group (enclosed r).1 (enclosed r).2 else nextToken cx (c :: r)

theorem left_step_le (c : Char) (r : List Char) : (step cx c r).left ≤ r.length := by
  unfold step
  split
  · split
    · exact Nat.zero_le _
    · next h => exact cutL?_length h
  · split
    · exact Nat.le_trans (left_nextToken_le cx r) (Nat.sub_le _ _)
    · split
      · next h => exact operator?_length h
      · split
        · exact enclosed_length r
        · exact left_nextToken_le cx (c :: r)

mutual

def expression (cx : Context) (s : List Char) : Conversion :=
  if (stripL s).isEmpty then ⟨[.text ['\'', '\'']], true⟩
  else
    have := length_stripL_le s
    scan cx (stripL s)
termination_by 2 * s.length + 1

def scan (cx : Context) : List Char → Conversion
  | [] => .empty
  | c :: r =>
    have hleft := left_step_le cx c r
    have := Nat.le_trans (step cx c r).length_rest_le hleft
    ((step cx c r).conversion ((step cx c r).texts.attach.map fun ⟨a, ha⟩ =>
      have := Nat.le_trans (Token.length_le_of_mem_texts ha) hleft
      expression cx a)).andThen (scan cx (step cx c r).rest)
termination_by s => 2 * s.length

end

def convert (formula : String) : Conversion := expression cx (body formula)

end Sheetwork.Formula
