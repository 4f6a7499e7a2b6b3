import DataHolder.Proofs.Table
import DataHolder.Synthesis.Members

/-!
# What generation adds

Generation looks at the class that it starts from and appends to it: `additions` lists the
members that it adds, in their order, and `generate_eq` says that this list is all it does.
The guards keep the constructor and the comparison methods away from what the user has written.
The type variable has no guard, and `generate_keeps_written_iff` says exactly when it takes the
place of a written member.
-/

namespace DataHolder

namespace Synthesis

namespace Draft

/-! ## One addition after the other -/

/-- Add a generated member; a method goes into the body as well. -/
def add (d : Draft) (a : String × Symbol) : Draft :=
  { decl :=
      { d.decl with
        members := d.decl.members.insert a.1 { symbol := a.2, generated := true }
        body := d.decl.body ++ (a.2.method?.map Statement.method).toList }
    generated := d.generated ++ [a.1] }

/-- Add generated members one after the other. -/
def addAll (d : Draft) (as : List (String × Symbol)) : Draft := as.foldl add d

@[simp] theorem addAll_nil (d : Draft) : d.addAll [] = d := rfl

@[simp] theorem addAll_cons (d : Draft) (a : String × Symbol) (as : List (String × Symbol)) :
    d.addAll (a :: as) = (d.add a).addAll as := rfl

theorem addAll_append (d : Draft) (as bs : List (String × Symbol)) :
    d.addAll (as ++ bs) = (d.addAll as).addAll bs :=
  List.foldl_append

/-- The entries of generated members. -/
def entriesOf (as : List (String × Symbol)) : List (String × Member) :=
  as.map fun a => (a.1, { symbol := a.2, generated := true })

theorem names_entriesOf (as : List (String × Symbol)) :
    (entriesOf as).map Prod.fst = as.map Prod.fst := by
  rw [entriesOf, List.map_map]
  rfl

/-- The methods among generated members. -/
def methodsIn (as : List (String × Symbol)) : List Method := as.filterMap fun a => a.2.method?

/-- The statements of generated members. -/
def statementsOf (as : List (String × Symbol)) : List Statement :=
  (methodsIn as).map Statement.method

/-- What a list of additions makes of a draft. -/
theorem addAll_eq (d : Draft) (as : List (String × Symbol)) :
    d.addAll as =
      { decl :=
          { d.decl with
            members := d.decl.members.insertAll (entriesOf as)
            body := d.decl.body ++ statementsOf as }
        generated := d.generated ++ as.map Prod.fst } := by
  induction as generalizing d with
  | nil => simp [entriesOf, statementsOf, methodsIn]
  | cons a as ih =>
    rw [addAll_cons, ih]
    cases h : a.2.method? <;> simp [add, entriesOf, statementsOf, methodsIn, h]

theorem written?_add (d : Draft) (a : String × Symbol) (name : String) :
    (d.add a).decl.written? name = if a.1 = name then none else d.decl.written? name := by
  simp only [ClassDecl.written?, add, Table.get?_insert]
  split <;> rfl

theorem isFree_add (d : Draft) (a : String × Symbol) (name : String) :
    (d.add a).isFree name = (a.1 != name && d.isFree name) := by
  simp only [isFree, Table.contains, add, Table.get?_insert]
  by_cases h : a.1 = name <;> simp [h]

/-- A loop over names that adds a member where a test allows it. When an addition leaves the
test under other names alone, the test may be made at the start. -/
private theorem foldl_add_if (test : Draft → String → Bool) (symbol : Draft → String → Symbol)
    (stableTest : ∀ d a name, a.1 ≠ name → test (d.add a) name = test d name)
    (stableSymbol : ∀ d a name, symbol (d.add a) name = symbol d name)
    (d : Draft) (names : List String) (nodup : names.Nodup) :
    names.foldl (fun d name => if test d name then d.add (name, symbol d name) else d) d =
      d.addAll ((names.filter (test d)).map fun name => (name, symbol d name)) := by
  induction names generalizing d with
  | nil => rfl
  | cons name names ih =>
    rw [List.nodup_cons] at nodup
    rw [List.foldl_cons]
    cases htest : test d name with
    | false => simp [htest, ih d nodup.2]
    | true =>
      have hfilter : names.filter (test (d.add (name, symbol d name))) = names.filter (test d) := by
        apply List.filter_congr
        intro other hother
        apply stableTest
        intro he
        change name = other at he
        exact nodup.1 (he ▸ hother)
      rw [if_pos rfl, ih _ nodup.2, hfilter, List.filter_cons_of_pos htest, List.map_cons,
        addAll_cons]
      simp only [stableSymbol]

/-! ## The members themselves -/

/-- The generated constructor of a class. -/
def constructor (c : ClassDecl) (parameters : List Parameter) : Method :=
  { name := "__init__", fullname := c.memberFullname "__init__", parameters, result := .none
    position := c.position }

/-- The declaration of the type variable of a class. -/
def typeVarDecl (v : Vocabulary) (c : ClassDecl) : TypeVarDecl :=
  { name := v.selfTypeVar, fullname := c.memberFullname v.selfTypeVar, bound := c.instanceTy }

/-- A generated comparison method of a class. -/
def comparison (v : Vocabulary) (c : ClassDecl) (name : String) : Method :=
  let self := selfTypeVar v c
  { name, fullname := c.memberFullname name
    parameters :=
      [{ var := { name := "other", fullname := "other", ty := .resolved self.ty }
         declaredTy := some self.ty, isOptional := false }]
    result := .named v.boolName, selfType := some self.ty, typeVars := [self]
    position := c.position }

theorem addSelfTypeVar_eq (d : Draft) (v : Vocabulary) :
    d.addSelfTypeVar v = d.add (v.selfTypeVar, .typeVar (typeVarDecl v d.decl)) := by
  simp [addSelfTypeVar, addMember, add, typeVarDecl, Symbol.method?]

theorem addComparison_eq (v : Vocabulary) (d : Draft) (name : String) :
    d.addComparison v name = d.add (name, .method (comparison v d.decl name)) := rfl

theorem comparison_add (v : Vocabulary) (d : Draft) (a : String × Symbol) (name : String) :
    comparison v (d.add a).decl name = comparison v d.decl name := rfl

/-- The equality methods whose names are free at the start are added. -/
theorem addEquality_eq (d : Draft) (v : Vocabulary) :
    d.addEquality v =
      d.addAll ((equalityMethods.filter d.isFree).map fun name =>
        (name, .method (comparison v d.decl name))) := by
  apply foldl_add_if isFree (fun d name => .method (comparison v d.decl name))
  · intro d a name hne
    simp [isFree_add, hne]
  · intro d a name
    rw [comparison_add]
  · decide

/-- The ordering methods that are not written at the start are added. -/
theorem addOrdering_eq (d : Draft) (v : Vocabulary) :
    d.addOrdering v =
      d.addAll ((orderingMethods.filter fun name => (d.decl.written? name).isNone).map fun name =>
        (name, .method (comparison v d.decl name))) := by
  have hloop : d.addOrdering v = orderingMethods.foldl (fun d name =>
      if (d.decl.written? name).isNone then
        d.add (name, .method (comparison v d.decl name)) else d) d := by
    rw [addOrdering]
    congr 1
    funext d name
    rw [addComparison_eq]
    cases d.decl.written? name <;> rfl
  rw [hloop]
  apply foldl_add_if (fun d name => (d.decl.written? name).isNone)
    (fun d name => .method (comparison v d.decl name))
  · intro d a name hne
    rw [written?_add, if_neg hne]
  · intro d a name
    rw [comparison_add]
  · decide

end Draft

/-! ## All additions -/

open Draft

/-- Whether the equality methods are to be generated for a class. -/
def wantsEquality (flags : Flags) (c : ClassDecl) : Bool :=
  flags.eq && !c.members.contains "__eq__"

/-- Whether the type variable is to be declared in a class. -/
def wantsTypeVar (flags : Flags) (c : ClassDecl) : Bool :=
  wantsEquality flags c || flags.order

/-- The constructor, where it is generated. -/
def addedInit (flags : Flags) (parameters : List Parameter) (hasFields : Bool) (c : ClassDecl) :
    List (String × Symbol) :=
  if flags.init && !c.members.contains "__init__" && hasFields then
    [("__init__", .method (constructor c parameters))]
  else []

/-- The type variable, where it is declared. -/
def addedTypeVar (v : Vocabulary) (flags : Flags) (c : ClassDecl) : List (String × Symbol) :=
  if wantsTypeVar flags c then [(v.selfTypeVar, .typeVar (typeVarDecl v c))] else []

/-- The names of the comparison methods that are generated. A name that the type variable has
taken is no longer free for an equality method, but no written one for an ordering method. -/
def addedComparisons (v : Vocabulary) (flags : Flags) (c : ClassDecl) : List String :=
  (if wantsEquality flags c then
    equalityMethods.filter fun name => v.selfTypeVar != name && !c.members.contains name
  else []) ++
  (if flags.order && flags.eq then
    orderingMethods.filter fun name => v.selfTypeVar == name || (c.written? name).isNone
  else [])

/-- All that generation adds to a class, in the order of adding. -/
def additions (v : Vocabulary) (flags : Flags) (parameters : List Parameter) (hasFields : Bool)
    (c : ClassDecl) : List (String × Symbol) :=
  addedInit flags parameters hasFields c ++ addedTypeVar v flags c ++
    (addedComparisons v flags c).map fun name => (name, .method (comparison v c name))

/-- The reports on ordering, as they follow from the class at the start. -/
def orderReports (v : Vocabulary) (flags : Flags) (c : ClassDecl) : Log :=
  if !flags.order then []
  else if flags.eq then
    orderingMethods.filterMap fun name =>
      if v.selfTypeVar = name then none else writtenOrdering? c name
  else [(Diagnostic.ofKind .orderWithoutEq c.position).reported]

theorem isFree_addAll (d : Draft) (as : List (String × Symbol)) (name : String) :
    (d.addAll as).isFree name = (!decide (name ∈ as.map Prod.fst) && d.isFree name) := by
  induction as generalizing d with
  | nil => simp
  | cons a as ih =>
    rw [addAll_cons, ih, isFree_add]
    simp only [List.map_cons, List.mem_cons]
    by_cases h : a.1 = name
    · simp [h]
    · have h' : ¬ name = a.1 := fun e => h e.symm
      simp only [h', false_or, bne_iff_ne.mpr h, Bool.true_and]

theorem written?_addAll (d : Draft) (as : List (String × Symbol)) (name : String) :
    (d.addAll as).decl.written? name =
      if name ∈ as.map Prod.fst then none else d.decl.written? name := by
  induction as generalizing d with
  | nil => simp
  | cons a as ih =>
    rw [addAll_cons, ih, written?_add]
    simp only [List.map_cons, List.mem_cons]
    by_cases h : a.1 = name
    · simp [h]
    · have h' : ¬ name = a.1 := fun e => h e.symm
      simp only [h, h', false_or, if_false]

private theorem comparison_addAll (v : Vocabulary) (d : Draft) (as : List (String × Symbol))
    (name : String) : comparison v (d.addAll as).decl name = comparison v d.decl name := by
  rw [addAll_eq]
  rfl

private theorem typeVarDecl_addAll (v : Vocabulary) (d : Draft) (as : List (String × Symbol)) :
    typeVarDecl v (d.addAll as).decl = typeVarDecl v d.decl := by
  rw [addAll_eq]
  rfl

/-! ## The stages of generation -/

private def start (c : ClassDecl) : Draft := { decl := c }

/-- The equality methods that are generated. -/
private def addedEquality (v : Vocabulary) (flags : Flags) (c : ClassDecl) : List String :=
  if wantsEquality flags c then
    equalityMethods.filter fun name => v.selfTypeVar != name && !c.members.contains name
  else []

/-- The ordering methods that are generated. -/
private def addedOrdering (v : Vocabulary) (flags : Flags) (c : ClassDecl) : List String :=
  if flags.order && flags.eq then
    orderingMethods.filter fun name => v.selfTypeVar == name || (c.written? name).isNone
  else []

private def methodsOf (v : Vocabulary) (c : ClassDecl) (names : List String) :
    List (String × Symbol) :=
  names.map fun name => (name, .method (comparison v c name))

private theorem names_methodsOf (v : Vocabulary) (c : ClassDecl) (names : List String) :
    (methodsOf v c names).map Prod.fst = names := by
  rw [methodsOf, List.map_map]
  exact List.map_id _

private theorem not_mem_addedEquality (v : Vocabulary) (flags : Flags) (c : ClassDecl)
    {name : String} (h : name ∈ orderingMethods) : name ∉ addedEquality v flags c := by
  intro hmem
  have hname : name ∈ equalityMethods := by
    rw [addedEquality] at hmem
    split at hmem
    · exact List.mem_of_mem_filter hmem
    · simp at hmem
  have hdisjoint : ∀ other ∈ equalityMethods, other ∉ orderingMethods := by decide
  exact hdisjoint name hname h

section Stages

variable (v : Vocabulary) (flags : Flags) (parameters : List Parameter) (hasFields : Bool)
  (c : ClassDecl)

/-- What is added before the comparison methods. -/
private def before : List (String × Symbol) :=
  addedInit flags parameters hasFields c ++ addedTypeVar v flags c

private theorem names_addedInit {name : String} (ne : name ≠ "__init__") :
    name ∉ (addedInit flags parameters hasFields c).map Prod.fst := by
  rw [addedInit]
  split <;> simp [ne]

/-- Before the comparison methods, only the type variable is added under another name than that
of the constructor. -/
private theorem names_before (wants : wantsTypeVar flags c = true) {name : String}
    (ne : name ≠ "__init__") :
    name ∈ (before v flags parameters hasFields c).map Prod.fst ↔ v.selfTypeVar = name := by
  rw [before, addedTypeVar, if_pos wants, List.map_append, List.mem_append]
  simp only [names_addedInit flags parameters hasFields c ne, false_or, List.map_cons,
    List.map_nil, List.mem_singleton]
  exact eq_comm

private theorem init_stage :
    (if flags.init && (start c).isFree "__init__" && hasFields then
        (start c).addInit parameters else start c) =
      (start c).addAll (addedInit flags parameters hasFields c) := by
  rw [addedInit, isFree, start]
  by_cases h : (flags.init && !c.members.contains "__init__" && hasFields) = true
  · rw [if_pos h, if_pos h]
    rfl
  · rw [if_neg h, if_neg h]
    rfl

private theorem wants_stage :
    (flags.eq && ((start c).addAll (addedInit flags parameters hasFields c)).isFree "__eq__") =
      wantsEquality flags c := by
  have hInit := names_addedInit flags parameters hasFields c (show "__eq__" ≠ "__init__" by decide)
  rw [isFree_addAll, decide_eq_false hInit]
  rfl

private theorem typeVar_stage :
    (if wantsEquality flags c || flags.order then
        ((start c).addAll (addedInit flags parameters hasFields c)).addSelfTypeVar v
      else (start c).addAll (addedInit flags parameters hasFields c)) =
      (start c).addAll (before v flags parameters hasFields c) := by
  rw [before, addAll_append, addedTypeVar, wantsTypeVar]
  by_cases h : (wantsEquality flags c || flags.order) = true
  · rw [if_pos h, if_pos h, addSelfTypeVar_eq, typeVarDecl_addAll]
    rfl
  · rw [if_neg h, if_neg h]
    rfl

private theorem equality_stage :
    (if wantsEquality flags c then
        ((start c).addAll (before v flags parameters hasFields c)).addEquality v
      else (start c).addAll (before v flags parameters hasFields c)) =
      (start c).addAll (before v flags parameters hasFields c ++
        methodsOf v c (addedEquality v flags c)) := by
  rw [addAll_append, addedEquality]
  by_cases h : wantsEquality flags c = true
  · have hFree : ∀ name ∈ equalityMethods,
        ((start c).addAll (before v flags parameters hasFields c)).isFree name =
          (v.selfTypeVar != name && !c.members.contains name) := by
      intro name hname
      have hwants : wantsTypeVar flags c = true := by rw [wantsTypeVar, h, Bool.true_or]
      have hne : name ≠ "__init__" := by
        rintro rfl
        exact absurd hname (by decide)
      rw [isFree_addAll]
      simp only [names_before v flags parameters hasFields c hwants hne]
      by_cases he : v.selfTypeVar = name <;> simp [he, isFree, start]
    rw [if_pos h, if_pos h, addEquality_eq, List.filter_congr hFree]
    simp only [comparison_addAll]
    rfl
  · rw [if_neg h, if_neg h]
    rfl

/-- Before the ordering methods are added, a written one is still there unless the type variable
has its name. -/
private theorem written?_stage (order : flags.order = true) {name : String}
    (h : name ∈ orderingMethods) :
    ((start c).addAll (before v flags parameters hasFields c ++
        methodsOf v c (addedEquality v flags c))).decl.written? name =
      if v.selfTypeVar = name then none else c.written? name := by
  have hwants : wantsTypeVar flags c = true := by rw [wantsTypeVar, order, Bool.or_true]
  have hne : name ≠ "__init__" := by
    rintro rfl
    exact absurd h (by decide)
  have hmem : name ∈ (before v flags parameters hasFields c ++
      methodsOf v c (addedEquality v flags c)).map Prod.fst ↔ v.selfTypeVar = name := by
    rw [List.map_append, List.mem_append, names_before v flags parameters hasFields c hwants hne,
      names_methodsOf]
    simp only [not_mem_addedEquality v flags c h, or_false]
  rw [written?_addAll]
  simp only [hmem, start]

private theorem ordering_stage :
    (if flags.order && flags.eq then
        ((start c).addAll (before v flags parameters hasFields c ++
          methodsOf v c (addedEquality v flags c))).addOrdering v
      else (start c).addAll (before v flags parameters hasFields c ++
        methodsOf v c (addedEquality v flags c))) =
      (start c).addAll (additions v flags parameters hasFields c) := by
  have hall : additions v flags parameters hasFields c =
      (before v flags parameters hasFields c ++ methodsOf v c (addedEquality v flags c)) ++
        methodsOf v c (addedOrdering v flags c) := by
    simp only [additions, addedComparisons, List.map_append, before, methodsOf, addedEquality,
      addedOrdering, List.append_assoc]
  rw [hall, addAll_append _ _ (methodsOf v c (addedOrdering v flags c)), addedOrdering]
  by_cases h : (flags.order && flags.eq) = true
  · have horder : flags.order = true := (Bool.and_eq_true_iff.mp h).1
    have hWritten : ∀ name ∈ orderingMethods,
        (((start c).addAll (before v flags parameters hasFields c ++
            methodsOf v c (addedEquality v flags c))).decl.written? name).isNone =
          (v.selfTypeVar == name || (c.written? name).isNone) := by
      intro name hname
      rw [written?_stage v flags parameters hasFields c horder hname]
      by_cases he : v.selfTypeVar = name <;> simp [he]
    rw [if_pos h, if_pos h, addOrdering_eq, List.filter_congr hWritten]
    simp only [comparison_addAll]
    rfl
  · rw [if_neg h, if_neg h]
    rfl

private theorem reports_stage :
    orderingLog flags ((start c).addAll (before v flags parameters hasFields c ++
        methodsOf v c (addedEquality v flags c))).decl =
      orderReports v flags c := by
  have hposition (as : List (String × Symbol)) :
      ((start c).addAll as).decl.position = c.position := by
    rw [addAll_eq]
    rfl
  rw [orderingLog, orderReports, hposition]
  cases horder : flags.order with
  | false => rfl
  | true =>
    have hWritten : ∀ name ∈ orderingMethods,
        writtenOrdering? ((start c).addAll (before v flags parameters hasFields c ++
            methodsOf v c (addedEquality v flags c))).decl name =
          if v.selfTypeVar = name then none else writtenOrdering? c name := by
      intro name hname
      rw [writtenOrdering?, written?_stage v flags parameters hasFields c horder hname, hposition]
      by_cases he : v.selfTypeVar = name
      · rw [if_pos he, if_pos he]
        rfl
      · rw [if_neg he, if_neg he]
        rfl
    rw [List.filterMap_congr hWritten]

/-- Generation is adding `additions`, and its reports follow from the class at the start. -/
theorem generate_eq :
    generate v flags parameters hasFields c =
      (({ decl := c } : Draft).addAll (additions v flags parameters hasFields c),
        orderReports v flags c) := by
  rw [generate]
  simp only [show ({ decl := c } : Draft) = start c from rfl, init_stage, wants_stage,
    typeVar_stage, equality_stage, reports_stage, ordering_stage]

end Stages

/-! ## What the user has written -/

section Written

variable (v : Vocabulary) (flags : Flags) (parameters : List Parameter) (hasFields : Bool)
  (c : ClassDecl)

private theorem written?_of_not_contains {name : String} (h : c.members.contains name = false) :
    c.written? name = none := by
  have hnone : c.members.get? name = none := by simpa [Table.contains] using h
  rw [ClassDecl.written?, hnone]
  rfl

/-- Every addition but the type variable has a name that no written member holds. -/
theorem written?_of_mem_additions {name : String}
    (h : name ∈ (additions v flags parameters hasFields c).map Prod.fst) :
    c.written? name = none ∨ (v.selfTypeVar = name ∧ wantsTypeVar flags c = true) := by
  rw [additions, List.map_append, List.map_append, List.mem_append, List.mem_append] at h
  rcases h with (h | h) | h
  · rw [addedInit] at h
    split at h
    · next hc =>
      simp only [List.map_cons, List.map_nil, List.mem_singleton] at h
      subst h
      simp only [Bool.and_eq_true, Bool.not_eq_true'] at hc
      exact .inl (written?_of_not_contains c hc.1.2)
    · simp at h
  · rw [addedTypeVar] at h
    split at h
    · next hc =>
      simp only [List.map_cons, List.map_nil, List.mem_singleton] at h
      exact .inr ⟨h.symm, hc⟩
    · simp at h
  · have hname : name ∈ addedComparisons v flags c := by simpa [Function.comp_def] using h
    rw [addedComparisons, List.mem_append] at hname
    rcases hname with hname | hname
    · split at hname
      · have htest := (List.mem_filter.mp hname).2
        simp only [Bool.and_eq_true, Bool.not_eq_true'] at htest
        exact .inl (written?_of_not_contains c htest.2)
      · simp at hname
    · split at hname
      · next hc =>
        have horder : flags.order = true := (Bool.and_eq_true_iff.mp hc).1
        have htest := (List.mem_filter.mp hname).2
        simp only [Bool.or_eq_true, beq_iff_eq, Option.isNone_iff_eq_none] at htest
        rcases htest with htest | htest
        · exact .inr ⟨htest, by rw [wantsTypeVar, horder, Bool.or_true]⟩
        · exact .inl htest
      · simp at hname

/-- A type variable that is wanted is added, whatever has its name. -/
theorem selfTypeVar_mem_additions (wants : wantsTypeVar flags c = true) :
    v.selfTypeVar ∈ (additions v flags parameters hasFields c).map Prod.fst := by
  simp [additions, addedTypeVar, wants]

private theorem generated_generate :
    (generate v flags parameters hasFields c).1.generated =
      (additions v flags parameters hasFields c).map Prod.fst := by
  rw [generate_eq, addAll_eq]
  rfl

private theorem members_generate :
    (generate v flags parameters hasFields c).1.decl.members =
      c.members.insertAll (entriesOf (additions v flags parameters hasFields c)) := by
  rw [generate_eq, addAll_eq]

private theorem get?_eq_of_written? {m : Member} {name : String}
    (h : c.written? name = some m) : c.members.get? name = some m ∧ m.generated = false := by
  obtain ⟨hget, hgen⟩ := Option.filter_eq_some_iff.mp h
  exact ⟨hget, by simpa using hgen⟩

/-- A written member stays as it is exactly when nothing is added under its name. -/
theorem generate_keeps_iff {m : Member} {name : String} (h : c.written? name = some m) :
    (generate v flags parameters hasFields c).1.decl.members.get? name = some m ↔
      name ∉ (additions v flags parameters hasFields c).map Prod.fst := by
  obtain ⟨hget, hgen⟩ := get?_eq_of_written? c h
  rw [members_generate]
  constructor
  · intro hkept hmem
    obtain ⟨added, hadded, hfound⟩ :=
      c.members.exists_get?_insertAll ((names_entriesOf _).symm ▸ hmem)
    obtain ⟨a, -, ha⟩ := List.mem_map.mp hadded
    rw [hkept, Option.some.injEq] at hfound
    -- The stored member is a generated one.
    rw [hfound, ← (Prod.mk.inj ha).2] at hgen
    cases hgen
  · intro hmem
    rw [Table.get?_insertAll_of_not_mem _ ((names_entriesOf _).symm ▸ hmem), hget]

/-- The type variable is declared over a written member. -/
def Overwrites : Prop :=
  wantsTypeVar flags c = true ∧ (c.written? v.selfTypeVar).isSome = true

/-- Generation appends to the table and takes no place away. It overwrites no written member
under any other name than that of the type variable; it leaves all of them as they were, and
generates only under names that no written member holds, exactly when it does not declare the
type variable over a written member. -/
theorem generate_keeps_written_iff :
    (∃ added, (generate v flags parameters hasFields c).1.decl.members.keys =
        c.members.keys ++ added) ∧
      (∀ name m, name ≠ v.selfTypeVar → c.written? name = some m →
        (generate v flags parameters hasFields c).1.decl.members.get? name = some m) ∧
      ((∀ name m, c.written? name = some m →
        (generate v flags parameters hasFields c).1.decl.members.get? name = some m) ↔
          ¬ Overwrites v flags c) ∧
      ((∀ name ∈ (generate v flags parameters hasFields c).1.generated,
        c.written? name = none) ↔ ¬ Overwrites v flags c) := by
  have hclash {name : String} {m : Member} (hm : c.written? name = some m)
      (hmem : name ∈ (additions v flags parameters hasFields c).map Prod.fst) :
      v.selfTypeVar = name ∧ Overwrites v flags c := by
    rcases written?_of_mem_additions v flags parameters hasFields c hmem with h | h
    · rw [hm] at h
      cases h
    · exact ⟨h.1, h.2, by rw [h.1, hm]; rfl⟩
  refine ⟨?_, ?_, ?_, ?_⟩
  · rw [members_generate v flags parameters hasFields c, Table.keys_insertAll]
    exact ⟨_, rfl⟩
  · intro name m hne hm
    rw [generate_keeps_iff v flags parameters hasFields c hm]
    exact fun hmem => hne (hclash hm hmem).1.symm
  · constructor
    · rintro h ⟨hwants, hwritten⟩
      obtain ⟨m, hm⟩ := Option.isSome_iff_exists.mp hwritten
      have hkept := h v.selfTypeVar m hm
      rw [generate_keeps_iff v flags parameters hasFields c hm] at hkept
      exact hkept (selfTypeVar_mem_additions v flags parameters hasFields c hwants)
    · intro h name m hm
      rw [generate_keeps_iff v flags parameters hasFields c hm]
      exact fun hmem => h (hclash hm hmem).2
  · rw [generated_generate v flags parameters hasFields c]
    constructor
    · rintro h ⟨hwants, hwritten⟩
      rw [h _ (selfTypeVar_mem_additions v flags parameters hasFields c hwants)] at hwritten
      cases hwritten
    · intro h name hmem
      cases hm : c.written? name with
      | none => rfl
      | some m => exact absurd (hclash hm hmem).2 h

/-- A class with a method of its own under the name of the type variable. -/
private def declaring : ClassDecl :=
  let method : Method :=
    { name := "_DT", fullname := "geometry.Point._DT", parameters := [], result := .none }
  { name := "Point"
    fullname := "geometry.Point"
    body := [.method method]
    members := Table.ofList [("_DT", { symbol := .method method })] }

theorem generate_replaces_written :
    (declaring.written? "_DT").isSome ∧
      (generate {} {} [] false declaring).1.decl.written? "_DT" = none ∧
      "_DT" ∈ (generate {} {} [] false declaring).1.generated := by
  decide

end Written

/-! ## The generated methods -/

section Methods

variable (v : Vocabulary) (flags : Flags) (parameters : List Parameter) (hasFields : Bool)
  (c : ClassDecl)

/-- The names of all generated methods. -/
def methodNames : List String := "__init__" :: (equalityMethods ++ orderingMethods)

theorem mem_addedComparisons {name : String} (h : name ∈ addedComparisons v flags c) :
    name ∈ equalityMethods ++ orderingMethods ∧
      (c.written? name = none ∨ (v.selfTypeVar = name ∧ name ∈ orderingMethods)) := by
  rw [addedComparisons, List.mem_append] at h
  rcases h with h | h
  · split at h
    · obtain ⟨hmem, htest⟩ := List.mem_filter.mp h
      simp only [Bool.and_eq_true, Bool.not_eq_true'] at htest
      exact ⟨List.mem_append_left _ hmem, .inl (written?_of_not_contains c htest.2)⟩
    · simp at h
  · split at h
    · obtain ⟨hmem, htest⟩ := List.mem_filter.mp h
      simp only [Bool.or_eq_true, beq_iff_eq, Option.isNone_iff_eq_none] at htest
      exact ⟨List.mem_append_right _ hmem, htest.symm.imp_right fun he => ⟨he, hmem⟩⟩
    · simp at h

theorem nodup_addedComparisons : (addedComparisons v flags c).Nodup := by
  have hall : (equalityMethods ++ orderingMethods).Nodup := by decide
  refine hall.sublist ?_
  rw [addedComparisons]
  apply List.Sublist.append
  · split
    · exact List.filter_sublist
    · exact List.nil_sublist _
  · split
    · exact List.filter_sublist
    · exact List.nil_sublist _

/-- A generated method goes by the name that it is added under, which no written member holds
unless it is that of the type variable. -/
theorem of_method_mem_additions {name : String} {f : Method}
    (h : (name, Symbol.method f) ∈ additions v flags parameters hasFields c) :
    f.name = name ∧ name ∈ methodNames ∧
      (c.written? name = none ∨ (v.selfTypeVar = name ∧ name ∈ orderingMethods)) := by
  rw [additions, List.mem_append, List.mem_append] at h
  rcases h with (h | h) | h
  · rw [addedInit] at h
    split at h
    · next hc =>
      rw [List.mem_singleton] at h
      cases h
      simp only [Bool.and_eq_true, Bool.not_eq_true'] at hc
      exact ⟨rfl, List.mem_cons_self, .inl (written?_of_not_contains c hc.1.2)⟩
    · cases h
  · rw [addedTypeVar] at h
    split at h
    · rw [List.mem_singleton] at h
      cases h
    · cases h
  · obtain ⟨other, hmem, he⟩ := List.mem_map.mp h
    cases he
    obtain ⟨hname, hwritten⟩ := mem_addedComparisons v flags c hmem
    exact ⟨rfl, List.mem_cons_of_mem _ hname, hwritten⟩

/-- The methods that are added are added under their names. -/
theorem mem_additions_of_methodsIn {f : Method}
    (h : f ∈ methodsIn (additions v flags parameters hasFields c)) :
    (f.name, Symbol.method f) ∈ additions v flags parameters hasFields c := by
  obtain ⟨⟨name, symbol⟩, hadded, hmethod⟩ := List.mem_filterMap.mp h
  cases symbol with
  | method g =>
    cases hmethod
    exact (of_method_mem_additions v flags parameters hasFields c hadded).1 ▸ hadded
  | var x => cases hmethod
  | typeVar d => cases hmethod
  | placeholder => cases hmethod

/-- All additions have the names of generated methods, or that of the type variable, and none
is a variable of instances. -/
theorem of_mem_additions {a : String × Symbol}
    (h : a ∈ additions v flags parameters hasFields c) :
    (a.1 ∈ methodNames ∧ ∃ f, a.2 = .method f) ∨
      (a.1 = v.selfTypeVar ∧ ∃ d, a.2 = .typeVar d) := by
  rw [additions, List.mem_append, List.mem_append] at h
  rcases h with (h | h) | h
  · rw [addedInit] at h
    split at h
    · rw [List.mem_singleton.mp h]
      exact .inl ⟨List.mem_cons_self, _, rfl⟩
    · cases h
  · rw [addedTypeVar] at h
    split at h
    · rw [List.mem_singleton.mp h]
      exact .inr ⟨rfl, _, rfl⟩
    · cases h
  · obtain ⟨name, hmem, rfl⟩ := List.mem_map.mp h
    exact .inl ⟨List.mem_cons_of_mem _ (mem_addedComparisons v flags c hmem).1, _, rfl⟩

/-- A constructor is added where the flags ask for it, its name is free, and there are fields. -/
theorem init_mem_additions_iff (apart : v.selfTypeVar ≠ "__init__") :
    "__init__" ∈ (additions v flags parameters hasFields c).map Prod.fst ↔
      (flags.init && !c.members.contains "__init__" && hasFields) = true := by
  rw [additions, addedInit, List.map_append, List.map_append, List.mem_append, List.mem_append]
  constructor
  · rintro ((h | h) | h)
    · split at h
      · assumption
      · cases h
    · rw [addedTypeVar] at h
      split at h
      · exact absurd (List.mem_singleton.mp h).symm apart
      · cases h
    · -- No comparison method has this name.
      obtain ⟨⟨name, symbol⟩, hmem, hname⟩ := List.mem_map.mp h
      obtain ⟨other, hother, he⟩ := List.mem_map.mp hmem
      obtain rfl : other = name := congrArg Prod.fst he
      obtain rfl : other = "__init__" := hname
      exact absurd (mem_addedComparisons v flags c hother).1 (by decide)
  · intro h
    rw [if_pos h]
    exact .inl (.inl List.mem_cons_self)

/-- The methods that are added with a constructor: it comes first, and then those of comparison. -/
theorem methodsIn_additions_of_init
    (h : (flags.init && !c.members.contains "__init__" && hasFields) = true) :
    ∃ others, methodsIn (additions v flags parameters hasFields c) =
        constructor c parameters :: others ∧
      ∀ f ∈ others, f.name ∈ equalityMethods ++ orderingMethods := by
  have htypeVar : methodsIn (addedTypeVar v flags c) = [] := by
    rw [addedTypeVar]
    split <;> rfl
  have hcomparisons : methodsIn ((addedComparisons v flags c).map fun name =>
      (name, .method (comparison v c name))) =
        (addedComparisons v flags c).map (comparison v c) := by
    rw [methodsIn, List.filterMap_map]
    exact congrFun List.filterMap_eq_map _
  have happend : ∀ as bs : List (String × Symbol),
      methodsIn (as ++ bs) = methodsIn as ++ methodsIn bs := fun as bs => List.filterMap_append
  refine ⟨(addedComparisons v flags c).map (comparison v c), ?_, ?_⟩
  · rw [additions, addedInit, if_pos h, happend, happend, htypeVar, hcomparisons]
    rfl
  · intro f hf
    obtain ⟨name, hname, rfl⟩ := List.mem_map.mp hf
    exact (mem_addedComparisons v flags c hname).1

/-- The name of a method that is added determines it: it is the constructor or a comparison. -/
theorem eq_of_method_mem_additions {name : String} {f : Method}
    (h : (name, Symbol.method f) ∈ additions v flags parameters hasFields c) :
    f = if name = "__init__" then constructor c parameters else comparison v c name := by
  rw [additions, List.mem_append, List.mem_append] at h
  rcases h with (h | h) | h
  · rw [addedInit] at h
    split at h
    · cases List.mem_singleton.mp h
      rfl
    · cases h
  · rw [addedTypeVar] at h
    split at h
    · cases (Prod.mk.inj (List.mem_singleton.mp h)).2
    · cases h
  · obtain ⟨other, hmem, he⟩ := List.mem_map.mp h
    cases he
    rw [if_neg]
    rintro rfl
    exact absurd (mem_addedComparisons v flags c hmem).1 (by decide)

/-- Unless the type variable takes the place of the constructor, every generated method is the
member under its name. -/
theorem get?_insertAll_additions {name : String} {f : Method} (t : Table Member)
    (apart : v.selfTypeVar = "__init__" → addedInit flags parameters hasFields c = [])
    (h : (name, Symbol.method f) ∈ additions v flags parameters hasFields c) :
    (t.insertAll (entriesOf (additions v flags parameters hasFields c))).get? name =
      some { symbol := .method f, generated := true } := by
  have hentries : ∀ as bs : List (String × Symbol),
      entriesOf (as ++ bs) = entriesOf as ++ entriesOf bs := fun as bs => List.map_append
  have hcomparisons : (entriesOf ((addedComparisons v flags c).map fun name =>
      (name, Symbol.method (comparison v c name)))).map Prod.fst = addedComparisons v flags c := by
    rw [names_entriesOf, List.map_map]
    exact List.map_id _
  rw [additions, hentries, hentries, Table.insertAll_append, Table.insertAll_append]
  rw [additions, List.mem_append, List.mem_append] at h
  rcases h with (h | h) | h
  · have hinit : addedInit flags parameters hasFields c =
        [("__init__", .method (constructor c parameters))] := by
      rw [addedInit] at h ⊢
      split at h
      · next hc => rw [if_pos hc]
      · cases h
    rw [hinit, List.mem_singleton] at h
    cases h
    have hlast : "__init__" ∉ (entriesOf ((addedComparisons v flags c).map fun name =>
        (name, Symbol.method (comparison v c name)))).map Prod.fst := by
      rw [hcomparisons]
      intro hmem
      exact absurd (mem_addedComparisons v flags c hmem).1 (by decide)
    have htypeVar : "__init__" ∉ (entriesOf (addedTypeVar v flags c)).map Prod.fst := by
      rw [names_entriesOf, addedTypeVar]
      split
      · intro hmem
        have he := apart (List.mem_singleton.mp hmem).symm
        rw [hinit] at he
        cases he
      · exact List.not_mem_nil
    rw [Table.get?_insertAll_of_not_mem _ hlast, Table.get?_insertAll_of_not_mem _ htypeVar, hinit]
    exact Table.get?_insert_self _ _ _
  · rw [addedTypeVar] at h
    split at h
    · rw [List.mem_singleton] at h
      cases h
    · cases h
  · have hnodup : ((entriesOf ((addedComparisons v flags c).map fun name =>
        (name, Symbol.method (comparison v c name)))).map Prod.fst).Nodup := by
      rw [hcomparisons]
      exact nodup_addedComparisons v flags c
    rw [Table.get?_insertAll _ _ _ hnodup, Table.lookup_of_mem hnodup
      (List.mem_map.mpr ⟨(name, .method f), h, rfl⟩), Option.some_or]

end Methods

end Synthesis

end DataHolder
