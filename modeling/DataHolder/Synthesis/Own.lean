import DataHolder.Field.Options
import DataHolder.Synthesis.Outcome
import DataHolder.Vocabulary

/-!
# The fields that a class declares itself

Every annotated assignment whose name is a variable of instances declares a field. A field
is constructor-only where its annotation or the present type of its variable is wrapped so;
reading it takes one wrapper off the variable. The first name that is still a placeholder
stops the reading.
-/

namespace DataHolder

namespace Variable

/-- Whether the type of a variable is wrapped as constructor-only. -/
def isInitOnly (v : Vocabulary) (x : Variable) : Bool := x.ty.ty?.any v.isInitOnly

/-- The variable with one constructor-only wrapper taken off its type. -/
def unwrap (v : Vocabulary) (x : Variable) : Variable :=
  match x.ty with
  | .resolved t => if v.isInitOnly t then { x with ty := .resolved t.content } else x
  | .pending => x

end Variable

namespace Synthesis

/-- The field that a declaration of a variable declares. Without a call of the helper, any
right-hand side is a default. -/
def declaredField (v : Vocabulary) (a : Assignment) (x : Variable) : Field :=
  let options := FieldOptions.ofCall? v.fieldHelper a.value
  { name := a.target.name
    inInit := (options.map FieldOptions.inInit).getD true
    initOnly := x.isInitOnly v || (a.declaredTy.bind Binding.ty?).any v.isInitOnly
    hasDefault := (options.map FieldOptions.hasDefault).getD !a.value.isEmpty
    position := a.position }

/-- The fields that the statements declare, in order, and the table with the wrappers taken
off. A declaration without a member declares nothing here. -/
def readBody (v : Vocabulary) :
    List Statement → Table Member → Table Member × Except Deferral (List Field)
  | [], members => (members, .ok [])
  | .assign a :: rest, members =>
    if a.isDeclaration then
      match members.get? a.target.name with
      | some { symbol := .var x, generated } =>
        if x.isClassVar then readBody v rest members
        else
          let member : Member := { symbol := .var (x.unwrap v), generated }
          let (members, fields) := readBody v rest (members.insert a.target.name member)
          (members, fields.map fun fs => declaredField v a x :: fs)
      | some { symbol := .placeholder, .. } => (members, .error (.placeholder a.target.name))
      | _ => readBody v rest members
    else readBody v rest members
  | .method _ :: rest, members => readBody v rest members
  | .pass :: rest, members => readBody v rest members

end Synthesis

end DataHolder
