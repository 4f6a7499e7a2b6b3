import DataHolder.Expr

/-!
# Options of a single field

The right-hand side of a declaration may be a call of the field helper. Only the keywords
that shape the constructor are read; each counts with its last value.
-/

namespace DataHolder

/-- What a call of the field helper asks for. -/
structure FieldOptions where
  /-- The value of `init`, where any value but a boolean literal counts as false. -/
  init : Option Bool := none
  default : Option Expr := none
  defaultFactory : Option Expr := none
deriving Inhabited

namespace FieldOptions

/-- The options after one keyword argument. -/
def step (o : FieldOptions) (arg : String × Expr) : FieldOptions :=
  if arg.1 = "init" then { o with init := some (arg.2.bool?.getD false) }
  else if arg.1 = "default" then { o with default := some arg.2 }
  else if arg.1 = "default_factory" then { o with defaultFactory := some arg.2 }
  else o

/-- The options of an expression that is a call of the helper. -/
def ofCall? (helper : String) : Expr → Option FieldOptions
  | .call callee args =>
    if callee.fullname? = some helper then some ((keywordArgs args).foldl step {}) else none
  | _ => none

/-- Whether a default is given, as a value or as a factory. -/
def hasDefault (o : FieldOptions) : Bool := o.default.isSome || o.defaultFactory.isSome

/-- Whether the constructor takes the field. -/
def inInit (o : FieldOptions) : Bool := o.init.getD true

end FieldOptions

end DataHolder
