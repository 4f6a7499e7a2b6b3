/-!
# Failures

What stops a run for good. Problems of the user's code are no failures; they are reported
as diagnostics.
-/

namespace DataHolder

/-- Why a run cannot be carried out. -/
inductive Failure where
  /-- The registry does not hold the class. -/
  | unknownClass (id : Nat)
  /-- A record on a class is not in the form in which records are written. -/
  | malformedRecord (owner key : String)
deriving DecidableEq, Inhabited

/-- The message of a failure. -/
def Failure.message : Failure → String
  | .unknownClass id => "class #" ++ toString id ++ " is not registered"
  | .malformedRecord owner key => "malformed `" ++ key ++ "` metadata on `" ++ owner ++ "`"

end DataHolder
