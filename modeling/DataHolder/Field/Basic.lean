import DataHolder.Member

/-!
# Fields

A field is an annotated declaration that becomes a parameter of the constructor, an
attribute of the instances, or both.
-/

namespace DataHolder

/-- A field of a data holder. -/
structure Field where
  name : String
  /-- The constructor has a parameter for it. -/
  inInit : Bool := true
  /-- The constructor takes it and the instance does not keep it. -/
  initOnly : Bool := false
  hasDefault : Bool := false
  position : Position := {}
deriving DecidableEq, Inhabited

namespace Field

/-- The variable of a field of this type. -/
def toVariable (f : Field) (ty : Ty) : Variable :=
  { name := f.name, fullname := f.name, ty := .resolved ty, position := f.position }

/-- The parameter for a field of this type; a default makes it optional. -/
def toParameter (f : Field) (ty : Ty) : Parameter :=
  { var := f.toVariable ty, declaredTy := some ty, isOptional := f.hasDefault }

end Field

end DataHolder
