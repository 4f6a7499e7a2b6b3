import DataHolder.Field.Basic
import DataHolder.Registry
import DataHolder.Synthesis.Outcome

/-!
# Where the fields are declared

The name of a field is resolved along the linearized ancestors. The read-only copies that
runs have added are looked through, so that the search reaches the class that declares the
field. A run waits until every field has a member there and its type is known.
-/

namespace DataHolder

/-- The type that a field has by its declaration: none while it is not known, and any for a
member that is no variable. -/
def Symbol.fieldTy? : Symbol → Option Ty
  | .var x => x.ty.ty?
  | .method _ => some .any
  | .typeVar _ => some .any
  | .placeholder => none

namespace Synthesis

/-- What a name resolves to when read-only copies are looked through. -/
def declared? (r : Registry) (id : ClassId) (name : String) : Option Symbol :=
  r.searchMro id fun c =>
    (c.members.get? name).bind fun m => if m.isCopy then none else some m.symbol

/-- The type of a field as it is seen from a class. -/
def fieldTy? (r : Registry) (id : ClassId) (name : String) : Option Ty :=
  (declared? r id name).bind Symbol.fieldTy?

/-- What a field still waits for. A constructor-only field may lack a member. -/
def waitsFor? (r : Registry) (id : ClassId) (f : Field) : Option Deferral :=
  match declared? r id f.name with
  | none => if f.initOnly then none else some (.pendingType f.name)
  | some (.var x) => if x.ty.isPending then some (.pendingType f.name) else none
  | some .placeholder => some (.placeholder f.name)
  | some (.method _) => none
  | some (.typeVar _) => none

/-- What the first field that is not ready waits for. -/
def unresolved? (r : Registry) (id : ClassId) (fields : List Field) : Option Deferral :=
  fields.findSome? (waitsFor? r id)

end Synthesis

end DataHolder
