import DataHolder.Registry

/-!
# Upper bounds

Whether a value of one type may stand where another is the upper bound. A type variable
counts as its own upper bound on both sides, so that only ground types are compared:
`Ty.widen` takes the bounds, and `Registry.groundSatisfies` compares what is left.
-/

namespace DataHolder

/-- The type that a type variable stands for at most; every other type is its own. -/
def Ty.widen : Ty → Ty
  | .typeVar _ _ _ bound => bound.widen
  | t => t

/-- The full name of the class at the root of every hierarchy. -/
def rootName : String := "builtins.object"

namespace Registry

/-- Whether the class with one full name descends from the class with another. A full name
that is not registered descends from itself alone. -/
def descends (r : Registry) (sub sup : String) : Bool :=
  if sub = sup then true
  else
    match r.find? sub, r.find? sup with
    | some sub, some sup => r.isSubclass sub sup
    | _, _ => false

/-- Comparison of types of which neither is a type variable: anything goes with the
unconstrained type and below the root, and instances go by descent of their classes. -/
def groundSatisfies (r : Registry) : Ty → Ty → Bool
  | .any, _ => true
  | _, .any => true
  | .none, .none => true
  | .none, .inst sup _ => sup == rootName
  | .inst sub _, .inst sup _ => sup == rootName || r.descends sub sup
  | _, _ => false

/-- Whether a value of a type may be passed where `bound` is the upper bound. -/
def satisfiesBound (r : Registry) (ty bound : Ty) : Bool :=
  r.groundSatisfies ty.widen bound.widen

end Registry

end DataHolder
