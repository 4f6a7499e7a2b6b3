import DataHolder.Proofs.Outcome

/-!
# The names of fields

The fields that a run answers with carry distinct names exactly when the body of the class
declares no field twice: the records of the ancestors add no name a second time, whatever they
hold. Then the parameters of the constructor have distinct names too, and the record holds the
fields themselves. Of a field that is declared twice the run keeps both, and the record one.
-/

namespace DataHolder

namespace Synthesis

variable (v : Vocabulary)

/-- The fields of a run have distinct names, and so have the parameters of the constructor that it
leaves; the record that it leaves holds these fields, in their order. -/
structure Distinct (s : Synthesis) (d : ClassDecl) : Prop where
  fields : (s.fields.map Field.name).Nodup
  parameters : ∀ init,
    d.members.get? "__init__" = some { symbol := .method init, generated := true } →
      (init.parameters.map Parameter.name).Nodup
  record : ∃ record, d.record? v.recordKey = .ok (some record) ∧ record.fields = s.fields ∧
    record.frozen = s.flags.frozen

section Names

variable {v} {r : Registry} {id : ClassId} {c : ClassDecl} {m : Collection}

/-- The constructor has a parameter for every field that it takes, under the name of the field. -/
private theorem names_initParameters (r : Registry) (id : ClassId) (fields : List MergedField) :
    (initParameters r id fields).map Parameter.name =
      (fields.filter fun f => f.field.inInit).map MergedField.name := by
  rw [initParameters, List.map_map]
  rfl

/-- The constructor that is left takes the parameters of the fields. -/
private theorem names_of_generated_init {init : Method}
    (h : (completed v r id c m).members.get? "__init__" =
      some { symbol := .method init, generated := true }) :
    init.parameters.map Parameter.name =
      (m.fields.filter fun f => f.field.inInit).map MergedField.name := by
  have hdraft := get?_draft_of_completed v r id c m h rfl
  by_cases hmem : "__init__" ∈ (added v r id c m).map Prod.fst
  · obtain ⟨symbol, hadded, hget⟩ := get?_draft_of_mem hmem
    rw [hget, Option.some.injEq, Member.mk.injEq] at hdraft
    rw [hdraft.1] at hadded
    rw [eq_of_method_mem_additions _ _ _ _ _ hadded, if_pos rfl, Draft.constructor,
      names_initParameters]
  · -- What is there without having been added was written.
    rw [get?_draft_of_not_mem hmem, ClassDecl.written?] at hdraft
    have hwritten := (Option.filter_eq_some_iff.mp hdraft).2
    cases hwritten

end Names

variable {v} {r : Registry} {id : ClassId} {c : ClassDecl} {s : Synthesis}

/-- A run that completes leaves its class with a record. The names of its fields are distinct, with
all that depends on it, exactly when the body declares no field twice. -/
theorem distinct_iff (registered : r.get? id = some c) (completes : (run v r id).result = .ok s) :
    ∃ d, (run v r id).registry.get? id = some d ∧ (Distinct v s d ↔ (fieldNames c).Nodup) := by
  obtain ⟨own, m, hown, hm, rfl, -, hget⟩ := run_of_ok registered completes
  have hnodup := nodup_plain_of_gather_iff (gather_of_collect hm)
  rw [names_of_readBody v hown] at hnodup
  refine ⟨_, hget, fun h => hnodup.mp h.fields, fun h => ?_⟩
  have hplain := hnodup.mpr h
  refine ⟨hplain, ?_, _, record?_completed v r id c m, ?_, rfl⟩
  · intro init hinit
    rw [names_of_generated_init hinit]
    have hnames : m.plain.map Field.name = m.fields.map MergedField.name := by
      rw [Collection.plain, List.map_map]
      rfl
    rw [hnames] at hplain
    exact hplain.sublist (List.filter_sublist.map _)
  · exact (Record.fields_ofFields_eq_iff _ _).mpr hplain

/-- A class below a base with a record: it declares a field of the base again, and another one
as many times as is asked for. -/
private def derived (times : Nat) : Registry :=
  let int : Binding := .resolved (.named "builtins.int")
  let declaring (name : String) : Statement :=
    .assign { target := { name }, declaredTy := some int }
  ⟨[({ name := "Base", fullname := "Base", mro := [0, 2]
       members := Table.ofList
         [("x", { symbol := .var { name := "x", fullname := "Base.x", ty := int } }),
          ("y", { symbol := .var { name := "y", fullname := "Base.y", ty := int } })] } :
        ClassDecl).withRecord "dataclass"
        (Record.ofFields [{ name := "x" }, { name := "y" }] false),
    ClassDecl.bind
      { name := "Derived", fullname := "Derived", mro := [1, 0, 2]
        decorators := [.name { name := "dataclass" }]
        body := declaring "y" :: List.replicate times (declaring "z") },
    { name := "object", fullname := "object", mro := [2] }]⟩

theorem distinct_derived : ∃ s d, (run {} (derived 1) 1).result = .ok s ∧
    (run {} (derived 1) 1).registry.get? 1 = some d ∧ Distinct {} s d := by
  obtain ⟨s, completes⟩ : ∃ s, (run {} (derived 1) 1).result = .ok s := ⟨_, rfl⟩
  obtain ⟨d, hd, h⟩ := distinct_iff (c := (derived 1).classes[1]) rfl completes
  exact ⟨s, d, completes, hd, h.mpr (by decide)⟩

/-- A run keeps both fields where the body declares one twice. -/
theorem not_distinct_derived : ∃ s d, (run {} (derived 2) 1).result = .ok s ∧
    (run {} (derived 2) 1).registry.get? 1 = some d ∧ ¬ Distinct {} s d :=
  ⟨_, _, rfl, rfl, fun h => absurd h.fields (by decide)⟩

end Synthesis

end DataHolder
