/-
  Faults: why a computation has no result. A cause classifies the fault; a message is there only where the rule that
  failed states one.
-/

namespace Sheetwork

inductive Cause where
  /-- A value of the right kind that is not acceptable. -/
  | badValue | wrongKind | missingKey | outOfRange | noProperty | zeroDivisor | tooLarge | missingFile | malformedJson
  | runFailed | endless | tooDeep | unknownName | badScript | badIndentation | notWorkbook | badExtension
  | badCoordinate | badCharacter | badPattern | engine | noCode | badFormula
  /-- Something that a list ought to hold. -/
  | notListed (what : String)
  deriving DecidableEq

structure Fault where
  cause : Cause
  message : Option String := none
  deriving DecidableEq

abbrev Outcome (α : Type) := Except Fault α

namespace Fault

def badValue : Fault := ⟨.badValue, none⟩

def wrongKind : Fault := ⟨.wrongKind, none⟩

def missingKey : Fault := ⟨.missingKey, none⟩

def outOfRange : Fault := ⟨.outOfRange, none⟩

def noProperty : Fault := ⟨.noProperty, none⟩

def zeroDivisor : Fault := ⟨.zeroDivisor, none⟩

def tooLarge : Fault := ⟨.tooLarge, none⟩

def saying (cause : Cause) (message : String) : Fault := ⟨cause, some message⟩

def sentence (f : Fault) : String :=
  match f.message, f.cause with
  | some s, _ => s
  | none, .notListed what => what ++ " is not in list"
  | none, _ => ""

def ifNone {α : Type} (f : Fault) : Option α → Outcome α
  | some a => .ok a
  | none => .error f

end Fault

end Sheetwork
