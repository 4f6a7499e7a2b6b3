import DataHolder.ClassDecl

/-!
# Recognized names

Every name that the synthesis of members matches against is part of its vocabulary, so
that it can be pointed at classes whose support library has other names.
-/

namespace DataHolder

/-- The names that carry meaning, and the keys under which results are kept. -/
structure Vocabulary where
  /-- The decorators that mark a data holder. -/
  decorators : List String := ["dataclass", "dataclasses.dataclass"]
  /-- The helper whose call describes a single field. -/
  fieldHelper : String := "dataclasses.field"
  /-- The wrapper around the type of a field that exists for the constructor alone. -/
  initOnlyWrapper : String := "dataclasses.InitVar"
  /-- The key of the record that a run leaves on the class. -/
  recordKey : String := "dataclass"
  /-- The name of the type variable that comparison methods range over. -/
  selfTypeVar : String := "_DT"
  /-- The class of the result of comparison methods. -/
  boolName : String := "builtins.bool"
deriving DecidableEq, Inhabited

namespace Vocabulary

/-- Whether an expression, bare or called, names one of the decorators. -/
def isDecorator (v : Vocabulary) (e : Expr) : Bool :=
  let callee := match e with
    | .call callee _ => callee
    | e => e
  match callee with
  | .name ref => v.decorators.contains (ref.fullname.getD ref.name)
  | _ => false

/-- The first decorator of a class that is recognized. -/
def decorator? (v : Vocabulary) (c : ClassDecl) : Option Expr :=
  c.decorators.find? v.isDecorator

/-- Whether descendants inherit the fields of a class. -/
def isDataHolder (v : Vocabulary) (c : ClassDecl) : Bool := (v.decorator? c).isSome

/-- Whether a type is wrapped as constructor-only. -/
def isInitOnly (v : Vocabulary) (t : Ty) : Bool := t.isInst v.initOnlyWrapper

end Vocabulary

end DataHolder
