import DataHolder.ClassDecl
import DataHolder.Field.Basic

/-!
# Read-only and constructor-only fields

In a frozen class every field that instances keep is read-only: the variable of the class
is marked, and a field that it inherits gets a generated copy of its own. In any other
class the marks are taken off. Constructor-only fields leave the table altogether, and
their declarations are unbound, so that the next binding creates them afresh.
-/

namespace DataHolder

namespace ClassDecl

/-- The read-only copy of an inherited field of this type. -/
def readOnlyCopy (c : ClassDecl) (f : Field) (ty : Ty) : Member :=
  { symbol := .var { f.toVariable ty with fullname := c.memberFullname f.name, isReadOnly := true }
    generated := true }

/-- Mark the variable of a field, or take the mark off; a frozen class gets a copy where it
has no variable of its own. -/
def markReadOnly (ty : String → Ty) (frozen : Bool) (c : ClassDecl) (f : Field) : ClassDecl :=
  match c.members.get? f.name with
  | some { symbol := .var x, generated } =>
    let member : Member := { symbol := .var { x with isReadOnly := frozen }, generated }
    { c with members := c.members.insert f.name member }
  | _ =>
    if frozen then { c with members := c.members.insert f.name (c.readOnlyCopy f (ty f.name)) }
    else c

/-- Mark every field that instances keep; `ty` gives the types of the copies. -/
def applyReadOnly (c : ClassDecl) (ty : String → Ty) (frozen : Bool) (fields : List Field) :
    ClassDecl :=
  (fields.filter fun f => !f.initOnly).foldl (markReadOnly ty frozen) c

/-- Drop the constructor-only fields from the table and unbind their declarations. -/
def dropInitOnly (c : ClassDecl) (fields : List Field) : ClassDecl :=
  let names := (fields.filter Field.initOnly).map Field.name
  { c with
    members := c.members.filter fun name _ => !names.contains name
    body := c.body.map fun s =>
      match s with
      | .assign a =>
        if a.isDeclaration && names.contains a.target.name then
          .assign { a with target := { a.target with binding := none } }
        else .assign a
      | s => s }

end ClassDecl

end DataHolder
