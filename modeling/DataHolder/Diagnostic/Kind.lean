/-!
# Kinds of diagnostics

Each kind has a base message, a message that takes a detail, and sometimes a hint that
goes with every diagnostic of the kind.
-/

namespace DataHolder

/-- How grave a diagnostic is. -/
inductive Severity where
  | error
deriving DecidableEq, Inhabited

/-- The word for a severity. -/
def Severity.text : Severity → String
  | .error => "error"

namespace Diagnostic

/-- What a diagnostic is about. -/
inductive Kind where
  /-- A switch of the decorator is given a value that is no boolean literal. -/
  | nonBooleanFlag
  /-- Ordering is asked for and equality switched off. -/
  | orderWithoutEq
  /-- A required parameter of the constructor follows an optional one. -/
  | requiredAfterDefault
  /-- An ordering method is both written and asked for. -/
  | writtenOrdering
deriving DecidableEq, Inhabited

namespace Kind

/-- All kinds, in their order. -/
def all : List Kind := [.nonBooleanFlag, .orderWithoutEq, .requiredAfterDefault, .writtenOrdering]

/-- The place of a kind in the order. -/
def rank : Kind → Nat
  | .nonBooleanFlag => 0
  | .orderWithoutEq => 1
  | .requiredAfterDefault => 2
  | .writtenOrdering => 3

instance : LT Kind := ⟨fun a b => a.rank < b.rank⟩

instance (a b : Kind) : Decidable (a < b) := inferInstanceAs (Decidable (a.rank < b.rank))

/-- Every kind is an error. -/
def severity : Kind → Severity := fun _ => .error

/-- The hint that goes with every diagnostic of a kind. -/
def hint? : Kind → Option String
  | .requiredAfterDefault =>
    some "give it a default, or move it before the first defaulted field"
  | .writtenOrdering => some "remove the method, or drop `order=True`"
  | .nonBooleanFlag => none
  | .orderWithoutEq => none

/-- The message without a detail. -/
def base : Kind → String
  | .nonBooleanFlag => "decorator argument must be True or False"
  | .orderWithoutEq => "eq must be True if order is True"
  | .requiredAfterDefault => "Attributes without a default cannot follow attributes with one"
  | .writtenOrdering => "You may not have a custom ordering method when order=True"

/-- The texts before and after the detail; nothing comes after where there is no place for
a detail. -/
def around : Kind → String × Option String
  | .nonBooleanFlag => ("\"", some "\" argument must be True or False.")
  | .orderWithoutEq => (base .orderWithoutEq, none)
  | .requiredAfterDefault => (base .requiredAfterDefault ++ ": `", some "`")
  | .writtenOrdering => ("You may not have a custom ", some " method when order=True")

/-- The message with a text in the place of the detail. -/
def withDetail (k : Kind) (detail : String) : String :=
  match k.around with
  | (lead, some tail) => lead ++ detail ++ tail
  | (lead, none) => lead

/-- The message with a pair of braces in the place of the detail. -/
def template (k : Kind) : String := k.withDetail "\x7b\x7d"

/-- The message for a detail, or the base message. -/
def message (k : Kind) : Option String → String
  | some detail => k.withDetail detail
  | none => k.base

end Kind

end Diagnostic

end DataHolder
