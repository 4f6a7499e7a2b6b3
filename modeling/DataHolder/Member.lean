import DataHolder.Position
import DataHolder.Ty

/-!
# Members of a class

What a name in a class resolves to: a variable, a method, a type variable, or a
placeholder for a forward reference. A `Member` also says whether it was synthesized, so
that a later run can tell its own output from what the user wrote.
-/

namespace DataHolder

/-- A variable: an attribute of instances, an attribute of the class, or a parameter. -/
structure Variable where
  name : String
  fullname : String
  ty : Binding
  /-- Shared by the class rather than kept by each instance. -/
  isClassVar : Bool := false
  /-- Assignment through an instance is rejected. -/
  isReadOnly : Bool := false
  position : Position := {}
deriving DecidableEq, Inhabited

/-- A parameter of a method; an optional one has a default value. -/
structure Parameter where
  var : Variable
  declaredTy : Option Ty
  isOptional : Bool
deriving DecidableEq, Inhabited

/-- The name of a parameter is that of its variable. -/
def Parameter.name (p : Parameter) : String := p.var.name

/-- The signature of a method. -/
structure Method where
  name : String
  fullname : String
  /-- The parameters after `self`. -/
  parameters : List Parameter
  result : Ty
  /-- The declared type of `self`, where it is not the type of the enclosing class. -/
  selfType : Option Ty := none
  typeVars : List TypeVar := []
  position : Position := {}
deriving DecidableEq, Inhabited

/-- The first parameter of this name. -/
def Method.parameter? (m : Method) (name : String) : Option Parameter :=
  m.parameters.find? fun p => p.name == name

/-- The declaration of a type variable in a class. -/
structure TypeVarDecl where
  name : String
  fullname : String
  bound : Ty
deriving DecidableEq, Inhabited

/-- What a name of a class resolves to. -/
inductive Symbol where
  | var (v : Variable)
  | method (m : Method)
  | typeVar (d : TypeVarDecl)
  /-- A forward reference that is not resolved yet. -/
  | placeholder
deriving DecidableEq, Inhabited

namespace Symbol

/-- The variable that a symbol is. -/
def var? : Symbol → Option Variable
  | .var v => some v
  | _ => none

/-- The method that a symbol is. -/
def method? : Symbol → Option Method
  | .method m => some m
  | _ => none

/-- Whether a symbol is a variable. -/
def isVar (s : Symbol) : Bool := s.var?.isSome

/-- Whether a symbol is a method. -/
def isMethod (s : Symbol) : Bool := s.method?.isSome

/-- Whether a symbol stands for a forward reference. -/
def isPlaceholder : Symbol → Bool
  | .placeholder => true
  | _ => false

/-- Where a variable or a method is declared; the other symbols have no position. -/
def position? : Symbol → Option Position
  | .var v => some v.position
  | .method m => some m.position
  | .typeVar _ => none
  | .placeholder => none

end Symbol

/-- An entry of a class's member table. -/
structure Member where
  symbol : Symbol
  /-- Synthesized by a run rather than written by the user. -/
  generated : Bool := false
deriving DecidableEq, Inhabited

namespace Member

/-- The member with its variable given this type; nothing for a member that is no variable. -/
def retype? (m : Member) (ty : Binding) : Option Member :=
  m.symbol.var?.map fun v => { m with symbol := .var { v with ty } }

/-- A read-only copy of an inherited variable: a variable that a run has added. -/
def isCopy (m : Member) : Bool := m.generated && m.symbol.isVar

end Member

end DataHolder
