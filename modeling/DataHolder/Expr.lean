/-!
# Expressions

Only the shapes that carry meaning for a field or a decorator are told apart: names,
calls, literals, and the missing right-hand side of a bare annotation.
-/

namespace DataHolder

/-- A name in the source. -/
structure Reference where
  name : String
  /-- The full name of what it refers to, where it refers to something. -/
  fullname : Option String := none
  /-- The member registered for it, where it is the target of a declaration. -/
  binding : Option String := none
deriving DecidableEq, Inhabited

/-- An argument of a call; a positional one has no keyword. -/
structure CallArg (ε : Type) where
  keyword : Option String
  value : ε
deriving Inhabited

/-- An expression of a class body or a decorator list. -/
inductive Expr where
  | name (ref : Reference)
  | call (callee : Expr) (args : List (CallArg Expr))
  | bool (value : Bool)
  | int (value : Int)
  | str (value : String)
  | none
  /-- The right-hand side of a bare annotation. -/
  | empty
  /-- Any expression whose shape carries no meaning here. -/
  | other
deriving Inhabited

namespace Expr

/-- The value of a boolean literal. -/
def bool? : Expr → Option Bool
  | .bool b => some b
  | _ => Option.none

/-- The full name that a name refers to. -/
def fullname? : Expr → Option String
  | .name ref => ref.fullname
  | _ => Option.none

/-- Whether the right-hand side is missing. -/
def isEmpty : Expr → Bool
  | .empty => true
  | _ => false

/-- The callee and the arguments of a call. -/
def call? : Expr → Option (Expr × List (CallArg Expr))
  | .call callee args => some (callee, args)
  | _ => Option.none

end Expr

/-- The keyword arguments of a call, in call order. -/
def keywordArgs (args : List (CallArg Expr)) : List (String × Expr) :=
  args.filterMap fun arg => arg.keyword.map fun key => (key, arg.value)

end DataHolder
