import DataHolder.ClassDecl
import DataHolder.Failure
import DataHolder.Field.Basic

/-!
# Records of fields

A run leaves the merged fields of a class on the class, as a JSON value under a key, so
that descendants need not look at its body. A structure may be given as an object, whose
further members are ignored, or as the list of exactly its values in order; nothing is
converted. It is always written as an object.
-/

namespace DataHolder

/-- The values of the named members of a structure, in the order of the names. -/
def Json.values? (names : List String) : Json → Option (List Json)
  | .obj members => names.mapM fun name => Table.lookup name members
  | .arr items => if items.length = names.length then some items else none
  | _ => none

namespace Field

/-- The names under which the parts of a field are kept. -/
def keys : List String := ["name", "is_in_init", "is_init_var", "has_default", "line", "column"]

/-- A field as an object. -/
def toJson (f : Field) : Json :=
  .obj (keys.zip [.str f.name, .bool f.inInit, .bool f.initOnly, .bool f.hasDefault,
    .int f.position.line.toNat, .int f.position.column.toNat])

/-- The field that a value describes. -/
def ofJson? (v : Json) : Option Field :=
  match v.values? keys with
  | some [name, inInit, initOnly, hasDefault, line, column] => do
    return {
      name := ← name.str?
      inInit := ← inInit.bool?
      initOnly := ← initOnly.bool?
      hasDefault := ← hasDefault.bool?
      position := { line := ← line.word?, column := ← column.word? } }
  | _ => none

end Field

/-- The fields of a class in constructor order, as they are kept on the class. -/
@[ext] structure Record where
  /-- The fields, each under a key that is its name when a run has written it. -/
  attributes : Table Field
  frozen : Bool
deriving DecidableEq, Inhabited

namespace Record

/-- The record of a list of fields. Of two fields with one name the first gives the place
and the last the content. -/
def ofFields (fields : List Field) (frozen : Bool) : Record :=
  ⟨Table.ofList (fields.map fun f => (f.name, f)), frozen⟩

/-- The recorded fields, in order. -/
def fields (r : Record) : List Field := r.attributes.values

/-- The names under which the parts of a record are kept. -/
def keys : List String := ["attributes", "frozen"]

/-- A record as an object. -/
def toJson (r : Record) : Json :=
  .obj (keys.zip [.obj (r.attributes.entries.map fun e => (e.1, e.2.toJson)), .bool r.frozen])

/-- The record that a value describes. -/
def ofJson? (v : Json) : Option Record :=
  match v.values? keys with
  | some [attributes, frozen] => do
    let members ← attributes.obj?
    let entries ← members.mapM fun m => (Field.ofJson? m.2).map fun f => (m.1, f)
    return ⟨Table.ofList entries, ← frozen.bool?⟩
  | _ => none

end Record

namespace ClassDecl

/-- The record under a key, where the class has one. -/
def record? (c : ClassDecl) (key : String) : Except Failure (Option Record) :=
  match c.records.get? key with
  | none => .ok none
  | some v =>
    match Record.ofJson? v with
    | some r => .ok (some r)
    | none => .error (.malformedRecord c.fullname key)

/-- The class with a record under a key, in the place of an older one. -/
def withRecord (c : ClassDecl) (key : String) (r : Record) : ClassDecl :=
  { c with records := c.records.insert key r.toJson }

end ClassDecl

end DataHolder
