import DataHolder.Synthesis.Members
import DataHolder.Synthesis.Own
import DataHolder.Synthesis.ReadOnly

/-!
# A run

One run synthesizes the members of one class. It reads the body, merges the records of the
ancestors, and waits where something is not known yet; up to there nothing changes but the
wrapped types that reading takes off. Then it replaces all that earlier runs generated and
leaves the merged fields as a record. Reports count only when the run completes.
-/

namespace DataHolder

namespace Synthesis

/-- The result of a run: the registry after it, what it answers, and what it reports. -/
structure Run where
  registry : Registry
  result : Except Halt Synthesis
  log : Log := []

/-- The merged fields of a class and the ancestors that they come from. -/
structure Collection where
  fields : List MergedField
  dependencies : List String
deriving DecidableEq, Inhabited

/-- The fields without the types that were recovered for them. -/
def Collection.plain (m : Collection) : List Field := m.fields.map MergedField.field

/-- The fields of a class: its own as they were read, merged with those that its ancestors
have recorded. -/
def gather (v : Vocabulary) (r : Registry) (mro : List ClassId)
    (own : Except Deferral (List Field)) : Except Halt Collection :=
  match own with
  | .error deferral => .error (.deferred deferral)
  | .ok own =>
    match contributions v r (interior mro) with
    | .error halt => .error halt
    | .ok found =>
      .ok {
        fields := merge (own.map fun f => { field := f }) (found.map Contribution.fields)
        dependencies := found.map Contribution.owner }

/-- The fields of a class, once all of them are ready. -/
def collect (v : Vocabulary) (r : Registry) (id : ClassId) (mro : List ClassId)
    (own : Except Deferral (List Field)) : Except Halt Collection :=
  match gather v r mro own with
  | .error halt => .error halt
  | .ok m =>
    match unresolved? r id m.plain with
    | some deferral => .error (.deferred deferral)
    | none => .ok m

/-- The part of a run that always succeeds: the members of a class whose fields are ready. -/
def complete (v : Vocabulary) (r : Registry) (id : ClassId) (c : ClassDecl) (m : Collection) :
    Run :=
  let fields := m.plain
  let cleared := c.clearGenerated
  let decorator := v.decorator? cleared
  let flags := Flags.ofDecorator decorator
  let parameters := initParameters (r.set id cleared) id m.fields
  let (draft, log) := generate v flags parameters (!fields.isEmpty) cleared
  let ty := fun name => (fieldTy? (r.set id draft.decl) id name).getD .any
  let marked := draft.decl.applyReadOnly ty flags.frozen fields
  let finished :=
    (marked.dropInitOnly fields).withRecord v.recordKey (Record.ofFields fields flags.frozen)
  { registry := r.set id finished
    result := .ok { fields, flags, generated := draft.generated, dependencies := m.dependencies }
    log := orderLog fields ++ Flags.misuses decorator cleared.position ++ log }

/-- Synthesize the members of a class. -/
def run (v : Vocabulary) (r : Registry) (id : ClassId) : Run :=
  match r.get? id with
  | none => { registry := r, result := .error (.failed (.unknownClass id)) }
  | some c =>
    let (members, own) := readBody v c.body c.members
    let c := { c with members }
    let r := r.set id c
    match collect v r id c.mro own with
    | .error halt => { registry := r, result := .error halt }
    | .ok m => complete v r id c m

end Synthesis

end DataHolder
