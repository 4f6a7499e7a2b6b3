import DataHolder.Expr
import DataHolder.Json
import DataHolder.Member
import DataHolder.Table

/-!
# Classes

A class carries its decorators and body as written, the table of its members, its
linearized ancestors, and the records that passes keep on it. `ClassDecl.bind` registers
the declarations of the body that have no member yet.
-/

namespace DataHolder

/-- An assignment; only one with an annotation declares something. -/
structure Assignment where
  target : Reference
  /-- The annotation, where there is one; its type may still be pending. -/
  declaredTy : Option Binding := none
  value : Expr := .empty
  position : Position := {}
deriving Inhabited

/-- Whether an assignment declares its target. -/
def Assignment.isDeclaration (a : Assignment) : Bool := a.declaredTy.isSome

/-- A statement of a class body. -/
inductive Statement where
  | assign (a : Assignment)
  | method (m : Method)
  | pass
deriving Inhabited

/-- The number of a class in its registry. -/
abbrev ClassId := Nat

/-- A class as it is known to the registry. -/
structure ClassDecl where
  name : String
  fullname : String
  decorators : List Expr := []
  body : List Statement := []
  position : Position := {}
  members : Table Member := ∅
  /-- The class itself, then its ancestors from the nearest to the root. -/
  mro : List ClassId := []
  /-- What passes keep on the class, each under its own key. -/
  records : Table Json := ∅
deriving Inhabited

/-- The wrapper around the type of an attribute that the class shares. -/
def classVarWrapper : String := "typing.ClassVar"

/-- The full name of a member. -/
def qualify (owner name : String) : String := owner ++ "." ++ name

namespace ClassDecl

/-- The full name of a member of this class. -/
def memberFullname (c : ClassDecl) (name : String) : String := qualify c.fullname name

/-- The type of the instances of this class. -/
def instanceTy (c : ClassDecl) : Ty := .named c.fullname

/-- The method that this class itself declares under a name. -/
def method? (c : ClassDecl) (name : String) : Option Method :=
  (c.members.get? name).bind fun m => m.symbol.method?

end ClassDecl

/-- The variable that an annotated declaration creates. The wrapper of a shared attribute
is taken off and noted. -/
def Variable.declared (owner name : String) (declaredTy : Binding) (position : Position) :
    Variable :=
  let plain : Variable := { name, fullname := qualify owner name, ty := declaredTy, position }
  match declaredTy with
  | .resolved t =>
    if t.isInst classVarWrapper then { plain with ty := .resolved t.content, isClassVar := true }
    else plain
  | .pending => plain

namespace Statement

/-- The table once the declarations of a statement are registered in it. A name that the
table holds keeps its member, and a target that is bound registers nothing. -/
def declare (owner : String) (s : Statement) (members : Table Member) : Table Member :=
  match s with
  | .assign { target, declaredTy := some declaredTy, position, .. } =>
    if target.binding.isSome || members.contains target.name then members
    else
      members.insert target.name
        { symbol := .var (.declared owner target.name declaredTy position) }
  | .method m =>
    if members.contains m.name then members else members.insert m.name { symbol := .method m }
  | _ => members

/-- The statement with its target bound, where it is an unbound declaration. -/
def bound (owner : String) : Statement → Statement
  | .assign a =>
    if a.isDeclaration && a.target.binding.isNone then
      .assign { a with target := { a.target with binding := some (qualify owner a.target.name) } }
    else .assign a
  | s => s

end Statement

namespace ClassDecl

/-- Register the declarations of the body, in body order, and bind their targets. -/
def bind (c : ClassDecl) : ClassDecl :=
  { c with
    members := c.body.foldl (fun members s => s.declare c.fullname members) c.members
    body := c.body.map (Statement.bound c.fullname) }

end ClassDecl

end DataHolder
