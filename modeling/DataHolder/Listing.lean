import DataHolder.Field.Record
import DataHolder.Json.Text
import DataHolder.Vocabulary

/-!
# Listing a class

The members of a class and the records on it, line by line in table order. The record of
the fields is spelled out; every other record is shown as JSON.
-/

namespace DataHolder

/-- Texts with a comma and a space between them. -/
def commaSeparated (texts : List String) : String := ", ".intercalate texts

namespace Parameter

/-- A parameter as it stands in a signature. -/
def text (p : Parameter) : String :=
  (match p.declaredTy with
    | some ty => p.name ++ ": " ++ ty.text
    | none => p.name) ++
  (if p.isOptional then " = ..." else "")

end Parameter

namespace Method

/-- The type variables of a method with their bounds, in brackets. -/
def typeVarsText (m : Method) : String :=
  if m.typeVars.isEmpty then ""
  else "[" ++ commaSeparated (m.typeVars.map fun v => v.name ++ " <: " ++ v.bound.text) ++ "]"

/-- The `self` parameter, with its type where that is declared. -/
def selfText (m : Method) : String :=
  match m.selfType with
  | some ty => "self: " ++ ty.text
  | none => "self"

/-- The signature of a method. -/
def text (m : Method) : String :=
  "def " ++ m.name ++ m.typeVarsText ++
    "(" ++ commaSeparated (m.selfText :: m.parameters.map Parameter.text) ++ ") -> " ++
    m.result.text

end Method

/-- The written form of a binding. -/
def Binding.text : Binding → String
  | .resolved ty => ty.text
  | .pending => "<pending>"

namespace Member

/-- A member under its name, without the remarks. -/
def symbolText (name : String) : Symbol → String
  | .var x => name ++ ": " ++ x.ty.text
  | .method m => m.text
  | .typeVar d => name ++ " = TypeVar(bound=" ++ d.bound.text ++ ")"
  | .placeholder => name ++ ": <placeholder>"

/-- What is remarked on a member. -/
def remarks (m : Member) : List String :=
  (match m.symbol with
    | .var x =>
      (if x.isClassVar then ["classvar"] else []) ++ (if x.isReadOnly then ["property"] else [])
    | _ => []) ++
  (if m.generated then ["generated"] else [])

/-- The line for a member. -/
def text (name : String) (m : Member) : String :=
  symbolText name m.symbol ++
    (if m.remarks.isEmpty then "" else " [" ++ commaSeparated m.remarks ++ "]")

end Member

namespace Field

/-- What is remarked on a field. -/
def remarks (f : Field) : List String :=
  (if f.inInit then ["init"] else []) ++ (if f.initOnly then ["init-only"] else []) ++
    (if f.hasDefault then ["default"] else [])

/-- The line for a recorded field. -/
def text (f : Field) : String :=
  f.name ++ " @" ++ f.position.text ++
    (if f.remarks.isEmpty then "" else " " ++ commaSeparated f.remarks)

end Field

namespace ClassDecl

/-- The lines for what is kept under a key. -/
def recordLines (v : Vocabulary) (key : String) (value : Json) : List String :=
  if key = v.recordKey then
    match Record.ofJson? value with
    | some r =>
      (key ++ ": frozen=" ++ (if r.frozen then "true" else "false")) ::
        r.fields.map fun f => "  " ++ f.text
    | none => [key ++ ": <malformed>"]
  else [key ++ ": " ++ value.text]

/-- The lines of the listing. -/
def lines (v : Vocabulary) (c : ClassDecl) : List String :=
  ("class " ++ c.fullname) ::
    (c.members.entries.map fun e => "  " ++ e.2.text e.1) ++
    c.records.entries.flatMap fun e => recordLines v e.1 e.2

/-- The listing of a class; every line ends with a newline. -/
def listing (v : Vocabulary) (c : ClassDecl) : String :=
  String.join ((c.lines v).map fun line => line ++ "\n")

end ClassDecl

end DataHolder
