import DataHolder.Diagnostic.Kind
import DataHolder.Position

/-!
# Diagnostics

A diagnostic states a problem of the user's code at a position. It never stops a run; a
log keeps diagnostics in the order in which they were reported.
-/

namespace DataHolder

/-- A remark on another position that belongs to a diagnostic. -/
structure Related where
  position : Position
  message : String
deriving DecidableEq, Inhabited

/-- A problem at a position, with remarks on other positions and hints. -/
structure Diagnostic where
  kind : Diagnostic.Kind
  position : Position
  message : String
  related : List Related := []
  hints : List String := []
deriving DecidableEq, Inhabited

namespace Diagnostic

/-- A diagnostic with the base message of its kind. -/
def ofKind (kind : Kind) (position : Position) : Diagnostic :=
  { kind, position, message := kind.base }

/-- The message is the one of the kind for this detail. -/
def withDetail (d : Diagnostic) (detail : String) : Diagnostic :=
  { d with message := d.kind.withDetail detail }

/-- One more remark, after the others. -/
def withRelated (d : Diagnostic) (message : String) (position : Position) : Diagnostic :=
  { d with related := d.related ++ [⟨position, message⟩] }

/-- One more hint, after the others. -/
def withHint (d : Diagnostic) (hint : String) : Diagnostic :=
  { d with hints := d.hints ++ [hint] }

/-- The diagnostic as it is reported: the hint of its kind comes before its own. -/
def reported (d : Diagnostic) : Diagnostic := { d with hints := d.kind.hint?.toList ++ d.hints }

/-- The severity of its kind. -/
def severity (d : Diagnostic) : Severity := d.kind.severity

/-- Whether a diagnostic is an error. -/
def isError (d : Diagnostic) : Bool := d.severity = .error

/-- One line: severity, position and message, then remarks and hints in brackets. -/
def text (d : Diagnostic) : String :=
  d.severity.text ++ " at " ++ d.position.text ++ ": " ++ d.message ++
    String.join (d.related.map fun r =>
      " (related: " ++ r.message ++ " at " ++ r.position.text ++ ")") ++
    String.join (d.hints.map fun h => " (hint: " ++ h ++ ")")

end Diagnostic

/-- Diagnostics in the order in which they were reported. -/
abbrev Log := List Diagnostic

namespace Log

/-- The number of errors. -/
def errorCount (log : Log) : Nat := log.countP Diagnostic.isError

/-- Whether there is an error. -/
def hasErrors (log : Log) : Bool := log.any Diagnostic.isError

/-- The number of diagnostics of a kind. -/
def countOf (log : Log) (kind : Diagnostic.Kind) : Nat := log.countP fun d => d.kind = kind

/-- A line for each diagnostic. -/
def text (log : Log) : String := "\n".intercalate (log.map Diagnostic.text)

end Log

end DataHolder
