import DataHolder.Field.Record
import DataHolder.Registry
import DataHolder.Synthesis.Outcome
import DataHolder.Vocabulary

/-!
# Fields from the ancestors

The records of the ancestors are merged one after the other, the nearest first. A field
that the record shares with what is already there takes the place that the record gives it
and keeps its nearer description; the fields that the record does not mention come after.
A constructor-only field has no member on any class, so its type is recovered from the
constructor of the ancestor it comes from.
-/

namespace DataHolder

namespace Synthesis

/-- A field with the type that was recovered for it, where it is inherited for the
constructor alone. -/
structure MergedField where
  field : Field
  recovered : Option Ty := none
deriving DecidableEq, Inhabited

/-- The name of a merged field is that of its field. -/
def MergedField.name (f : MergedField) : String := f.field.name

/-- What an ancestor adds to the fields of a class. -/
structure Contribution where
  owner : String
  fields : List MergedField
deriving DecidableEq, Inhabited

/-- The ancestors that may contribute: neither the class itself nor the root. -/
def interior (mro : List ClassId) : List ClassId := (mro.drop 1).dropLast

/-- The type of a parameter of the constructor that a class has or inherits. -/
def constructorTy? (r : Registry) (id : ClassId) (name : String) : Option Ty := do
  let init ← r.lookupMethod id "__init__"
  let parameter ← init.parameter? name
  parameter.var.ty.ty?

/-- A recorded field as it is inherited from a class. -/
def inherit (r : Registry) (id : ClassId) (f : Field) : MergedField :=
  { field := f, recovered := if f.initOnly then constructorTy? r id f.name else none }

/-- What an ancestor contributes. One that is not registered, or no data holder without a
record, contributes nothing. -/
def contribution? (v : Vocabulary) (r : Registry) (id : ClassId) :
    Except Halt (Option Contribution) :=
  match r.get? id with
  | none => .ok none
  | some c =>
    match c.record? v.recordKey with
    | .error failure => .error (.failed failure)
    | .ok (some record) => .ok (some ⟨c.fullname, record.fields.map (inherit r id)⟩)
    | .ok none =>
      if v.isDataHolder c then .error (.deferred (.unfinishedAncestor c.fullname)) else .ok none

/-- What the ancestors contribute, in their order. -/
def contributions (v : Vocabulary) (r : Registry) (ids : List ClassId) :
    Except Halt (List Contribution) :=
  (ids.mapM (contribution? v r)).map fun found => found.filterMap id

/-- One recorded field: `inherited` holds what the record has given so far, and `rest` what
is there from nearer classes. -/
def mergeField (state : List MergedField × List MergedField) (f : MergedField) :
    List MergedField × List MergedField :=
  let (inherited, rest) := state
  match rest.find? fun g => g.name == f.name with
  | some nearer => (inherited ++ [nearer], rest.eraseP fun g => g.name == f.name)
  | none =>
    if inherited.any fun g => g.name == f.name then (inherited, rest)
    else (inherited ++ [f], rest)

/-- One record, merged below the fields of nearer classes. -/
def mergeRecord (fields record : List MergedField) : List MergedField :=
  let (inherited, rest) := record.foldl mergeField ([], fields)
  inherited ++ rest

/-- The records of the ancestors, nearest first, merged below the fields of the class. -/
def merge (own : List MergedField) (records : List (List MergedField)) : List MergedField :=
  records.foldl mergeRecord own

/-- The fields that the constructor requires after one that has a default. -/
def misplaced (defaultSeen : Bool) : List Field → List Field
  | [] => []
  | f :: rest =>
    let later := misplaced (defaultSeen || (f.inInit && f.hasDefault)) rest
    if defaultSeen && f.inInit && !f.hasDefault then f :: later else later

/-- The reports on misplaced fields, in constructor order. -/
def orderLog (fields : List Field) : Log :=
  (misplaced false fields).map fun f =>
    ((Diagnostic.ofKind .requiredAfterDefault f.position).withDetail f.name).reported

end Synthesis

end DataHolder
