import DataHolder.Flags
import DataHolder.Synthesis.Inherited
import DataHolder.Synthesis.Resolution
import DataHolder.Vocabulary

/-!
# Generated members

First everything that an earlier run has generated is taken away; then the constructor, the
type variable of the comparison methods, and the comparison methods are added, each under a
name that nothing else holds. The type variable alone is added whatever is there.
-/

namespace DataHolder

namespace ClassDecl

/-- The methods among the generated members. -/
def generatedMethods (c : ClassDecl) : List Method :=
  (c.members.values.filter Member.generated).filterMap fun m => m.symbol.method?

/-- The class without its generated members, in the table and in the body. -/
def clearGenerated (c : ClassDecl) : ClassDecl :=
  let stale := c.generatedMethods
  { c with
    members := c.members.filter fun _ m => !m.generated
    body := c.body.filter fun s =>
      match s with
      | .method m => !stale.contains m
      | _ => true }

/-- The member under a name that the user has written. -/
def written? (c : ClassDecl) (name : String) : Option Member :=
  (c.members.get? name).filter fun m => !m.generated

end ClassDecl

namespace Synthesis

/-- The two equality methods. -/
def equalityMethods : List String := ["__eq__", "__ne__"]

/-- The four ordering methods. -/
def orderingMethods : List String := ["__lt__", "__gt__", "__le__", "__ge__"]

/-- A class in the course of generation, and the names that were generated for it. -/
structure Draft where
  decl : ClassDecl
  generated : List String := []
deriving Inhabited

namespace Draft

/-- Whether a name is still free. -/
def isFree (d : Draft) (name : String) : Bool := !d.decl.members.contains name

/-- Add a generated member to the table. -/
def addMember (d : Draft) (name : String) (symbol : Symbol) : Draft :=
  { decl := { d.decl with members := d.decl.members.insert name { symbol, generated := true } }
    generated := d.generated ++ [name] }

/-- Add a generated method to the table and to the body; it stands where the class does. -/
def addMethod (d : Draft) (m : Method) : Draft :=
  let m := { m with fullname := d.decl.memberFullname m.name, position := d.decl.position }
  let d := d.addMember m.name (.method m)
  { d with decl := { d.decl with body := d.decl.body ++ [.method m] } }

/-- Add the constructor with these parameters. -/
def addInit (d : Draft) (parameters : List Parameter) : Draft :=
  d.addMethod { name := "__init__", fullname := "__init__", parameters, result := .none }

/-- The type variable of the comparison methods, bounded by the class. -/
def selfTypeVar (v : Vocabulary) (c : ClassDecl) : TypeVar :=
  { name := v.selfTypeVar, fullname := c.memberFullname v.selfTypeVar, id := -1
    bound := c.instanceTy }

/-- Add the declaration of the type variable. -/
def addSelfTypeVar (d : Draft) (v : Vocabulary) : Draft :=
  d.addMember v.selfTypeVar
    (.typeVar { name := v.selfTypeVar, fullname := d.decl.memberFullname v.selfTypeVar
                bound := d.decl.instanceTy })

/-- Add a comparison method: it takes a value of the type variable that types `self`. -/
def addComparison (v : Vocabulary) (d : Draft) (name : String) : Draft :=
  let self := selfTypeVar v d.decl
  let other : Parameter :=
    { var := { name := "other", fullname := "other", ty := .resolved self.ty }
      declaredTy := some self.ty, isOptional := false }
  d.addMethod
    { name, fullname := name, parameters := [other], result := .named v.boolName
      selfType := some self.ty, typeVars := [self] }

/-- Add the equality methods under those of their names that are free. -/
def addEquality (d : Draft) (v : Vocabulary) : Draft :=
  equalityMethods.foldl (fun d name => if d.isFree name then d.addComparison v name else d) d

/-- Add the ordering methods that the user has not written. -/
def addOrdering (d : Draft) (v : Vocabulary) : Draft :=
  orderingMethods.foldl
    (fun d name => if (d.decl.written? name).isSome then d else d.addComparison v name) d

end Draft

/-- The report on a written ordering method, where it stands or else where the class does. -/
def writtenOrdering? (c : ClassDecl) (name : String) : Option Diagnostic :=
  (c.written? name).map fun m =>
    (((Diagnostic.ofKind .writtenOrdering (m.symbol.position?.getD c.position)).withDetail
      name).withRelated "order=True requested here" c.position).reported

/-- The reports on ordering: it needs equality, and no method of its own. -/
def orderingLog (flags : Flags) (c : ClassDecl) : Log :=
  if !flags.order then []
  else if flags.eq then orderingMethods.filterMap (writtenOrdering? c)
  else [(Diagnostic.ofKind .orderWithoutEq c.position).reported]

/-- The type of the parameter for a field: the recovered one, or that of its declaration. -/
def parameterTy (r : Registry) (id : ClassId) (f : MergedField) : Ty :=
  (f.recovered.or (fieldTy? r id f.name)).getD .any

/-- The parameters of the constructor, typed by what is known in a registry. -/
def initParameters (r : Registry) (id : ClassId) (fields : List MergedField) : List Parameter :=
  (fields.filter fun f => f.field.inInit).map fun f => f.field.toParameter (parameterTy r id f)

/-- Generate what the flags ask for, with the reports on ordering. A class without fields
gets no constructor. -/
def generate (v : Vocabulary) (flags : Flags) (parameters : List Parameter) (hasFields : Bool)
    (c : ClassDecl) : Draft × Log :=
  let d : Draft := { decl := c }
  let d := if flags.init && d.isFree "__init__" && hasFields then d.addInit parameters else d
  let wantsEq := flags.eq && d.isFree "__eq__"
  let d := if wantsEq || flags.order then d.addSelfTypeVar v else d
  let d := if wantsEq then d.addEquality v else d
  let log := orderingLog flags d.decl
  let d := if flags.order && flags.eq then d.addOrdering v else d
  (d, log)

end Synthesis

end DataHolder
