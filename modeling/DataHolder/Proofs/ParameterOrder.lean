import DataHolder.Proofs.Raising

/-!
# The order of parameters

A parameter that is required may not come after an optional one. A run looks for such places in one
pass over the merged fields, and makes the parameters of the constructor from the same fields in
another way. Still every report stands for one required parameter that comes too late, so that a
signature is well ordered exactly when nothing is reported.
-/

namespace DataHolder

/-! ## What comes too late -/

section Behind

variable {α : Type} (first second : α → Bool)

/-- The elements that pass the second test and come after one that passes the first, in order. -/
def behind (l : List α) : List α :=
  (List.range l.length).filterMap fun i => l[i]?.filter fun a => second a && (l.take i).any first

/-- The same where an element that passes the first test may have come before the list. -/
private def behindFrom (seen : Bool) (l : List α) : List α :=
  (List.range l.length).filterMap fun i =>
    l[i]?.filter fun a => second a && (seen || (l.take i).any first)

private theorem behind_eq (l : List α) :
    behind first second l = behindFrom first second false l := rfl

private theorem behindFrom_cons (seen : Bool) (a : α) (l : List α) :
    behindFrom first second seen (a :: l) =
      if second a && seen then a :: behindFrom first second (seen || first a) l
      else behindFrom first second (seen || first a) l := by
  have hlater : ((List.range l.length).map Nat.succ).filterMap (fun i =>
        (a :: l)[i]?.filter fun b => second b && (seen || ((a :: l).take i).any first)) =
      behindFrom first second (seen || first a) l := by
    rw [List.filterMap_map]
    simp only [behindFrom, Function.comp_def, List.getElem?_cons_succ, List.take_succ_cons,
      List.any_cons, Bool.or_assoc]
  rw [behindFrom, List.length_cons, List.range_succ_eq_map, List.filterMap_cons, hlater,
    List.getElem?_cons_zero, List.take_zero, List.any_nil, Bool.or_false, Option.filter_some]
  cases second a && seen <;> rfl

/-- Nothing comes too late where no element passes the second test after one that passes the
first. -/
theorem behind_eq_nil_iff (l : List α) :
    behind first second l = [] ↔ l.Pairwise fun a b => first a = true → second b = false := by
  have hfrom : ∀ seen, behindFrom first second seen l = [] ↔
      (seen = true → ∀ a ∈ l, second a = false) ∧
        l.Pairwise fun a b => first a = true → second b = false := by
    induction l with
    | nil => simp [behindFrom]
    | cons a l ih =>
      intro seen
      rw [behindFrom_cons, List.pairwise_cons]
      cases ha : second a && seen with
      | true =>
        obtain ⟨hsecond, hseen⟩ := Bool.and_eq_true_iff.mp ha
        simp [hsecond, hseen]
      | false =>
        rw [if_neg (by simp), ih]
        cases seen <;> cases hf : first a <;> simp_all
  rw [behind_eq, hfrom]
  simp

/-- What comes too late depends on the tests of the elements alone. -/
theorem behind_congr {first' second' : α → Bool} {l : List α}
    (h : ∀ a ∈ l, first a = first' a ∧ second a = second' a) :
    behind first second l = behind first' second' l := by
  apply List.filterMap_congr
  intro i _
  have hany : (l.take i).any first = (l.take i).any first' := by
    rw [Bool.eq_iff_iff, List.any_eq_true, List.any_eq_true]
    refine exists_congr fun a => and_congr_right fun ha => ?_
    rw [(h a (List.mem_of_mem_take ha)).1]
  rw [hany]
  cases hi : l[i]? with
  | none => rfl
  | some a =>
    rw [Option.filter_some, Option.filter_some, (h a (List.mem_of_getElem? hi)).2]

theorem behind_map {β : Type} (g : β → α) (l : List β) :
    behind first second (l.map g) =
      (behind (fun b => first (g b)) (fun b => second (g b)) l).map g := by
  rw [behind, behind, List.length_map, List.map_filterMap]
  apply List.filterMap_congr
  intro i _
  rw [List.getElem?_map, ← List.map_take, List.any_map]
  cases l[i]? with
  | none => rfl
  | some b =>
    rw [Option.map_some, Option.filter_some, Option.filter_some, apply_ite (Option.map g)]
    rfl

end Behind

/-- Whether the constructor has an optional parameter for a field. -/
def Field.isOptional (f : Field) : Bool := f.inInit && f.hasDefault

/-- Whether the constructor has a required parameter for a field. -/
def Field.isRequired (f : Field) : Bool := f.inInit && !f.hasDefault

/-- Whether a call has to give a parameter. -/
def Parameter.isRequired (p : Parameter) : Bool := !p.isOptional

/-- After an optional parameter there are only optional ones. -/
def WellOrdered (parameters : List Parameter) : Prop :=
  parameters.Pairwise fun p q => p.isOptional = true → q.isOptional = true

namespace Synthesis

/-- The report on a field that comes too late: it stands where the field does and names it. -/
def lateReport (f : Field) : Diagnostic :=
  { kind := .requiredAfterDefault, position := f.position
    message := Diagnostic.Kind.withDetail .requiredAfterDefault f.name
    hints := (Diagnostic.Kind.hint? .requiredAfterDefault).toList }

/-- The pass over the fields finds those that come too late. -/
private theorem misplaced_eq (seen : Bool) (fields : List Field) :
    misplaced seen fields = behindFrom Field.isOptional Field.isRequired seen fields := by
  induction fields generalizing seen with
  | nil => rfl
  | cons f fields ih =>
    have htest : (seen && f.inInit && !f.hasDefault) = (f.isRequired && seen) := by
      rw [Field.isRequired, Bool.and_comm _ seen, Bool.and_assoc]
    rw [misplaced, behindFrom_cons, ih, htest]
    rfl

theorem orderLog_eq (fields : List Field) :
    orderLog fields = (behind Field.isOptional Field.isRequired fields).map lateReport := by
  rw [orderLog, misplaced_eq, behind_eq]
  rfl

/-- A field that the constructor does not take comes too late for none and makes none late. -/
theorem behind_filter_inInit (fields : List Field) :
    behind Field.isOptional Field.isRequired (fields.filter Field.inInit) =
      behind Field.isOptional Field.isRequired fields := by
  have hfrom : ∀ seen,
      behindFrom Field.isOptional Field.isRequired seen (fields.filter Field.inInit) =
        behindFrom Field.isOptional Field.isRequired seen fields := by
    induction fields with
    | nil => exact fun _ => rfl
    | cons f fields ih =>
      intro seen
      rw [List.filter_cons, behindFrom_cons]
      cases hin : f.inInit with
      | true => rw [if_pos rfl, behindFrom_cons, ih]
      | false =>
        have hoptional : f.isOptional = false := by rw [Field.isOptional, hin, Bool.false_and]
        have hrequired : f.isRequired = false := by rw [Field.isRequired, hin, Bool.false_and]
        rw [if_neg Bool.false_ne_true, ih, hoptional, hrequired, Bool.or_false, Bool.false_and,
          if_neg Bool.false_ne_true]
  exact hfrom false

/-- As many parameters come too late as fields do. -/
theorem length_behind_initParameters (r : Registry) (id : ClassId) (fields : List MergedField) :
    (behind Parameter.isOptional Parameter.isRequired (initParameters r id fields)).length =
      (behind Field.isOptional Field.isRequired (fields.map MergedField.field)).length := by
  have htaken : ∀ f ∈ fields.filter fun f => f.field.inInit,
      f.field.hasDefault = f.field.isOptional ∧ (!f.field.hasDefault) = f.field.isRequired := by
    intro f hf
    have hin := (List.mem_filter.mp hf).2
    rw [Field.isOptional, Field.isRequired, hin, Bool.true_and, Bool.true_and]
    exact ⟨rfl, rfl⟩
  have hfields : (fields.filter fun f => f.field.inInit).map MergedField.field =
      (fields.map MergedField.field).filter Field.inInit := by
    rw [List.filter_map]
    rfl
  calc (behind Parameter.isOptional Parameter.isRequired (initParameters r id fields)).length
    _ = (behind (fun f => f.field.hasDefault) (fun f => !f.field.hasDefault)
          (fields.filter fun f => f.field.inInit)).length := by
        rw [initParameters, behind_map, List.length_map]
        rfl
    _ = (behind (fun f => f.field.isOptional) (fun f => f.field.isRequired)
          (fields.filter fun f => f.field.inInit)).length := by
        rw [behind_congr _ _ htaken]
    _ = (behind Field.isOptional Field.isRequired
          ((fields.filter fun f => f.field.inInit).map MergedField.field)).length := by
        rw [behind_map, List.length_map]
    _ = (behind Field.isOptional Field.isRequired (fields.map MergedField.field)).length := by
        rw [hfields, behind_filter_inInit]

/-- A signature is well ordered exactly when no parameter comes too late. -/
theorem wellOrdered_iff (parameters : List Parameter) :
    WellOrdered parameters ↔
      behind Parameter.isOptional Parameter.isRequired parameters = [] := by
  rw [behind_eq_nil_iff, WellOrdered]
  simp only [Parameter.isRequired, Bool.not_eq_false']

/-! ## What a run reports -/

/-- The report on a keyword is about its value. -/
private theorem kind_of_misuse? {position : Position} {arg : String × Expr} {d : Diagnostic}
    (h : Flags.misuse? position arg = some d) : d.kind = .nonBooleanFlag := by
  rw [Flags.misuse?] at h
  split at h
  · cases h
    rfl
  · cases h

/-- The reports on ordering are about ordering. -/
private theorem kind_of_mem_orderReports {v : Vocabulary} {flags : Flags} {c : ClassDecl}
    {d : Diagnostic} (h : d ∈ orderReports v flags c) :
    d.kind = .orderWithoutEq ∨ d.kind = .writtenOrdering := by
  rw [orderReports] at h
  split at h
  · cases h
  · split at h
    · obtain ⟨name, -, hname⟩ := List.mem_filterMap.mp h
      split at hname
      · cases hname
      · obtain ⟨m, -, rfl⟩ := Option.map_eq_some_iff.mp hname
        exact .inr rfl
    · exact .inl (List.mem_singleton.mp h ▸ rfl)

section Reported

variable {v : Vocabulary} {r : Registry} {id : ClassId} {c : ClassDecl} {s : Synthesis}

/-- Of the reports of a completed run, those on the order of parameters are the ones on its
fields. -/
theorem filter_log_eq (registered : r.get? id = some c) (completes : (run v r id).result = .ok s) :
    (run v r id).log.filter (fun d => d.kind = .requiredAfterDefault) =
      (behind Field.isOptional Field.isRequired s.fields).map lateReport := by
  have hlate : ∀ d ∈ (behind Field.isOptional Field.isRequired s.fields).map lateReport,
      d.kind = .requiredAfterDefault := by
    intro d hd
    obtain ⟨f, -, rfl⟩ := List.mem_map.mp hd
    rfl
  have hmisuse : ∀ d ∈ Flags.misuses (v.decorator? c) c.position,
      d.kind ≠ .requiredAfterDefault := by
    intro d hd
    obtain ⟨arg, -, harg⟩ := List.mem_filterMap.mp hd
    rw [kind_of_misuse? harg]
    decide
  have horder : ∀ d ∈ orderReports v s.flags (readClass v c).clearGenerated,
      d.kind ≠ .requiredAfterDefault := by
    intro d hd
    rcases kind_of_mem_orderReports hd with h | h <;> rw [h] <;> decide
  rw [log_of_ok registered completes, orderLog_eq, List.filter_append, List.filter_append,
    List.filter_eq_self.mpr (by simpa using hlate),
    List.filter_eq_nil_iff.mpr (by simpa using hmisuse),
    List.filter_eq_nil_iff.mpr (by simpa using horder), List.append_nil, List.append_nil]

/-- A method with the name of the constructor that a completed run appends takes the parameters of
the merged fields. -/
private theorem length_behind_appended {m : Collection} {init : Method}
    (appended : init ∈ Draft.methodsIn (added v r id c m)) (name : init.name = "__init__") :
    (behind Parameter.isOptional Parameter.isRequired init.parameters).length =
      (behind Field.isOptional Field.isRequired m.plain).length := by
  have hadded := mem_additions_of_methodsIn _ _ _ _ _ appended
  rw [name] at hadded
  rw [parameters_of_added hadded, length_behind_initParameters]
  rfl

/-- A completed run reports each merged field that the constructor requires after an optional one,
once, in their order, at its position and by its name, and no other; the fields that the constructor
does not take make no difference. Where the run appends a constructor to the body, as many of its
required parameters come too late as there are reports, and so its signature is well ordered exactly
when there is none. -/
theorem misplaced_reported (registered : r.get? id = some c)
    (completes : (run v r id).result = .ok s) :
    (run v r id).log.filter (fun d => d.kind = .requiredAfterDefault) =
      (behind Field.isOptional Field.isRequired s.fields).map lateReport ∧
    behind Field.isOptional Field.isRequired (s.fields.filter Field.inInit) =
      behind Field.isOptional Field.isRequired s.fields ∧
    ∃ (d : ClassDecl) (methods : List Method),
      (run v r id).registry.get? id = some d ∧
      d.body =
        (c.body.filter (stays (readClass v c).generatedMethods)).map
            (unbind (initOnlyNames s.fields)) ++
          methods.map Statement.method ∧
      ("__init__" ∈ s.generated → v.selfTypeVar ≠ "__init__" →
        ∃ init ∈ methods, Constructor d init) ∧
      ∀ init ∈ methods, init.name = "__init__" →
        (behind Parameter.isOptional Parameter.isRequired init.parameters).length =
          (run v r id).log.countOf .requiredAfterDefault ∧
        (WellOrdered init.parameters ↔ (run v r id).log.countOf .requiredAfterDefault = 0) := by
  have hlog := filter_log_eq registered completes
  have hcount : (run v r id).log.countOf .requiredAfterDefault =
      (behind Field.isOptional Field.isRequired s.fields).length := by
    rw [Log.countOf, List.countP_eq_length_filter, hlog, List.length_map]
  obtain ⟨own, m, -, -, rfl, -, hleft⟩ := run_of_ok registered completes
  refine ⟨hlog, behind_filter_inInit _, _, Draft.methodsIn (added v r id c m), hleft, ?_, ?_, ?_⟩
  · rw [body_completed, List.map_append, Draft.statementsOf, List.map_map]
    rfl
  · intro generated apart
    obtain ⟨init, hconstructor, hadded⟩ := exists_constructor apart generated
    exact ⟨init, List.mem_filterMap.mpr ⟨_, hadded, rfl⟩, hconstructor⟩
  · intro init hinit hname
    have hlength := (length_behind_appended hinit hname).trans hcount.symm
    refine ⟨hlength, ?_⟩
    rw [wellOrdered_iff, ← List.length_eq_zero_iff, hlength]

/-- A class with fields in every place: one with a default that the constructor does not take, a
required one, an optional one, one without a default that the constructor does not take, and a
required one that comes too late. -/
private def parcel : ClassDecl :=
  { name := "Parcel", fullname := "Parcel", mro := [1, 0]
    decorators := [.name { name := "dataclass" }]
    body :=
      [declare "hidden" 2 (apart [{ keyword := some "default", value := .int 0 }]),
        declare "label" 3 .empty,
        declare "size" 4 (.int 1),
        declare "cache" 5 (apart []),
        declare "owner" 6 .empty] }
where
  /-- A declaration in some line. -/
  declare (name : String) (line : UInt32) (value : Expr) : Statement :=
    .assign
      { target := { name }, declaredTy := some (.resolved (.named "builtins.int")), value
        position := ⟨line, 4⟩ }
  /-- A call of the helper that keeps the field out of the constructor. -/
  apart (more : List (CallArg Expr)) : Expr :=
    .call (.name { name := "field", fullname := some "dataclasses.field" })
      ({ keyword := some "init", value := .bool false } :: more)

/-- The registry in which the class is to be run. -/
private def parcels : Registry :=
  ⟨[{ name := "object", fullname := "object", mro := [0] }, parcel.bind]⟩

theorem misplaced_reported_parcel : ∃ (d : ClassDecl) (init : Method),
    (run {} parcels 1).registry.get? 1 = some d ∧ Constructor d init ∧
    (run {} parcels 1).log.filter (fun d => d.kind = .requiredAfterDefault) =
      [lateReport { name := "owner", position := ⟨6, 4⟩ }] ∧
    (behind Parameter.isOptional Parameter.isRequired init.parameters).length = 1 := by
  have completes : (run {} parcels 1).result =
      .ok
        { fields :=
            [{ name := "hidden", inInit := false, hasDefault := true, position := ⟨2, 4⟩ },
              { name := "label", position := ⟨3, 4⟩ },
              { name := "size", hasDefault := true, position := ⟨4, 4⟩ },
              { name := "cache", inInit := false, position := ⟨5, 4⟩ },
              { name := "owner", position := ⟨6, 4⟩ }]
          flags := {}
          generated := ["__init__", "_DT", "__eq__", "__ne__"]
          dependencies := [] } := rfl
  obtain ⟨hlog, -, d, methods, hd, -, hexists, hcount⟩ :=
    misplaced_reported (rfl : parcels.get? 1 = some parcel.bind) completes
  obtain ⟨init, hinit, hconstructor⟩ := hexists (by decide) (by decide)
  refine ⟨d, init, hd, hconstructor, hlog, ?_⟩
  rw [(hcount init hinit hconstructor.name).1, Log.countOf, List.countP_eq_length_filter, hlog]
  rfl

end Reported

end Synthesis

end DataHolder
