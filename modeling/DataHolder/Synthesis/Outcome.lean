import DataHolder.Failure
import DataHolder.Field.Basic
import DataHolder.Flags

/-!
# What a run answers

A run completes, is put off until more is known, or fails. Being put off is no failure:
the same run is to be tried again later.
-/

namespace DataHolder

/-- Why a run is put off. -/
inductive Deferral where
  /-- A declared name is still a forward reference. -/
  | placeholder (name : String)
  /-- The type of a field is not known. -/
  | pendingType (name : String)
  /-- A data holder among the ancestors has no record yet. -/
  | unfinishedAncestor (fullname : String)
deriving DecidableEq, Inhabited

/-- What a deferral waits for. -/
def Deferral.message : Deferral → String
  | .placeholder name => "`" ++ name ++ "` is not resolved yet"
  | .pendingType name => "type of `" ++ name ++ "` is not resolved yet"
  | .unfinishedAncestor fullname => "ancestor `" ++ fullname ++ "` has not been synthesized yet"

/-- The name that a deferral waits for. -/
def Deferral.name : Deferral → String
  | .placeholder name => name
  | .pendingType name => name
  | .unfinishedAncestor fullname => fullname

/-- Why a run does not complete. -/
inductive Halt where
  | failed (failure : Failure)
  | deferred (deferral : Deferral)
deriving DecidableEq, Inhabited

/-- What a completed run produced. -/
structure Synthesis where
  /-- The merged fields, in constructor order. -/
  fields : List Field
  flags : Flags
  /-- The members that were generated, in the order in which they were added. -/
  generated : List String
  /-- The full names of the ancestors whose records were merged, nearest first. -/
  dependencies : List String
deriving DecidableEq, Inhabited

/-- One pattern for each ancestor whose change calls for another run. -/
def Synthesis.triggers (s : Synthesis) : List String :=
  s.dependencies.map fun fullname => "<" ++ fullname ++ ".*>"

end DataHolder
