import DataHolder.Proofs.Reading
import DataHolder.Proofs.Stages
import Mathlib.Logic.Function.Iterate

/-!
# What a class declares itself

Reading goes through the declarations of a body and takes wrappers off the variables that it meets,
so what it says of a declaration depends on those before it. It does so in one way only: a name that
was declared before has lost one wrapper for each of these declarations. With this the fields of a
class are described declaration by declaration, from the body and from the table as it was.
-/

namespace DataHolder

/-! ## The options of a helper call -/

namespace FieldOptions

/-- An expression is a call of the helper of this full name, with these arguments. -/
def IsCall (helper : String) (e : Expr) (args : List (CallArg Expr)) : Prop :=
  ∃ ref : Reference, e = .call (.name ref) args ∧ ref.fullname = some helper

/-- The options of a call of the helper are read from its arguments, and other expressions have
none. -/
theorem ofCall?_eq_some_iff (helper : String) (e : Expr) (o : FieldOptions) :
    ofCall? helper e = some o ↔
      ∃ args, IsCall helper e args ∧ o = (keywordArgs args).foldl step {} := by
  constructor
  · intro h
    unfold ofCall? at h
    split at h
    · next callee args =>
      split at h
      · next hname =>
        cases callee with
        | name ref => exact ⟨args, ⟨ref, rfl, hname⟩, (Option.some.inj h).symm⟩
        | _ => cases hname
      · cases h
    · cases h
  · rintro ⟨args, ⟨ref, rfl, hname⟩, rfl⟩
    exact if_pos hname

/-- The options after one more argument. -/
private theorem foldl_step_append (args : List (CallArg Expr)) (arg : CallArg Expr)
    (o : FieldOptions) :
    (keywordArgs (args ++ [arg])).foldl step o =
      match arg.keyword with
      | some key => ((keywordArgs args).foldl step o).step (key, arg.value)
      | none => (keywordArgs args).foldl step o := by
  rw [keywordArgs, keywordArgs, List.filterMap_append, List.foldl_append]
  cases h : arg.keyword <;> simp [h]

/-- The last `init` keyword counts: only a value other than the literal for true keeps a field out
of the constructor. -/
theorem inInit_foldl_step (args : List (CallArg Expr)) :
    ((keywordArgs args).foldl step {}).inInit = false ↔
      ∃ arg, (args.filter fun arg => arg.keyword = some "init").getLast? = some arg ∧
        arg.value ≠ .bool true := by
  have hliteral (e : Expr) : e.bool?.getD false = false ↔ e ≠ .bool true := by
    cases e <;> simp [Expr.bool?]
  induction args using List.reverseRecOn with
  | nil => simp [keywordArgs, inInit]
  | append_singleton args arg ih =>
    rw [foldl_step_append, List.filter_append]
    by_cases hinit : arg.keyword = some "init"
    · simp [hinit, step, inInit, hliteral]
    · rw [List.filter_cons_of_neg (by simpa using hinit), List.filter_nil, List.append_nil]
      cases hkey : arg.keyword with
      | none => exact ih
      | some key =>
        have hne : key ≠ "init" := fun he => hinit (he ▸ hkey)
        have hkept : ∀ o : FieldOptions, (o.step (key, arg.value)).inInit = o.inInit := by
          intro o
          simp only [step, hne, if_false]
          split
          · rfl
          · split <;> rfl
        dsimp only
        rw [hkept]
        exact ih

/-- A default is given by either of two keywords. -/
theorem hasDefault_foldl_step (args : List (CallArg Expr)) :
    ((keywordArgs args).foldl step {}).hasDefault = true ↔
      ∃ arg ∈ args, arg.keyword = some "default" ∨ arg.keyword = some "default_factory" := by
  induction args using List.reverseRecOn with
  | nil => simp [keywordArgs, hasDefault]
  | append_singleton args arg ih =>
    have hstep : ∀ (o : FieldOptions) (key : String) (e : Expr),
        (o.step (key, e)).hasDefault = true ↔
          o.hasDefault = true ∨ key = "default" ∨ key = "default_factory" := by
      intro o key e
      unfold step
      by_cases hi : key = "init"
      · simp [hi, hasDefault]
      · by_cases hd : key = "default"
        · simp [hd, hasDefault]
        · by_cases hf : key = "default_factory" <;> simp [hi, hd, hf, hasDefault]
    rw [foldl_step_append]
    cases hkey : arg.keyword with
    | none => simp [ih, hkey, or_and_right, exists_or]
    | some key => simp [hstep, ih, hkey, or_and_right, exists_or]

end FieldOptions

/-! ## Wrappers -/

/-- A binding with one wrapper of this name taken off: its first argument, or anything where it has
none. -/
def Binding.peel (wrapper : String) : Binding → Binding
  | .resolved (.inst name args) =>
    if name = wrapper then .resolved (args.headD .any) else .resolved (.inst name args)
  | b => b

theorem Variable.unwrap_eq_peel (v : Vocabulary) (x : Variable) :
    x.unwrap v = { x with ty := x.ty.peel v.initOnlyWrapper } := by
  obtain ⟨name, fullname, ty, isClassVar, isReadOnly, position⟩ := x
  cases ty with
  | pending => rfl
  | resolved t =>
    cases t with
    | inst f args =>
      by_cases h : f = v.initOnlyWrapper <;>
        simp [Variable.unwrap, Binding.peel, Vocabulary.isInitOnly, Ty.isInst, Ty.fullname?,
          Ty.content, Ty.args, h]
    | typeVar n f i b => rfl
    | none => rfl
    | any => rfl

/-- A binding is known, and an instance of the wrapper of this name. -/
def Binding.IsWrapped (wrapper : String) (b : Binding) : Prop :=
  ∃ args, b = .resolved (.inst wrapper args)

theorem Binding.isWrapped_iff (v : Vocabulary) (b : Binding) :
    b.IsWrapped v.initOnlyWrapper ↔ b.ty?.any v.isInitOnly = true := by
  cases b with
  | pending => simp [IsWrapped, Binding.ty?]
  | resolved t =>
    cases t <;> simp [IsWrapped, Binding.ty?, Vocabulary.isInitOnly, Ty.isInst, Ty.fullname?]

/-- The member with some wrappers taken off, where it is a variable of instances. -/
def Member.peel (wrapper : String) (times : Nat) (m : Member) : Member :=
  match m with
  | { symbol := .var x, generated } =>
    if x.isClassVar then m
    else { symbol := .var { x with ty := (Binding.peel wrapper)^[times] x.ty }, generated }
  | _ => m

/-- A member of which no wrapper was taken off is as it was. -/
theorem Member.peel_zero (wrapper : String) (m : Member) : m.peel wrapper 0 = m := by
  obtain ⟨symbol, generated⟩ := m
  cases symbol with
  | var x => exact ite_self _
  | method d => rfl
  | typeVar d => rfl
  | placeholder => rfl

/-- The variable of instances that a table has under a name. -/
def Table.instanceVar? (t : Table Member) (name : String) : Option Variable :=
  ((t.get? name).bind fun m => m.symbol.var?).filter fun x => !x.isClassVar

/-- Whether a table has a placeholder under a name. -/
def Table.awaits (t : Table Member) (name : String) : Bool :=
  (t.get? name).any fun m => m.symbol.isPlaceholder

/-- What a field says of the assignment that declares it, where the variable of the name has this
type. -/
structure Field.Describes (v : Vocabulary) (a : Assignment) (ty : Binding) (f : Field) : Prop where
  name : f.name = a.target.name
  position : f.position = a.position
  /-- The last `init` keyword of a helper call that is not the literal for true keeps it out of the
  constructor. -/
  outside : f.inInit = false ↔ ∃ args, FieldOptions.IsCall v.fieldHelper a.value args ∧
    ∃ arg, (args.filter fun arg => arg.keyword = some "init").getLast? = some arg ∧
      arg.value ≠ .bool true
  /-- A helper call gives a default by keyword; any other value but the missing one is a default. -/
  hasDefault : f.hasDefault = true ↔
    (∃ args, FieldOptions.IsCall v.fieldHelper a.value args ∧
      ∃ arg ∈ args, arg.keyword = some "default" ∨ arg.keyword = some "default_factory") ∨
    (∀ args, ¬ FieldOptions.IsCall v.fieldHelper a.value args) ∧ a.value ≠ .empty
  /-- The wrapper makes it constructor-only, around the annotation or around the type. -/
  initOnly : f.initOnly = true ↔
    (∃ b, a.declaredTy = some b ∧ b.IsWrapped v.initOnlyWrapper) ∨ ty.IsWrapped v.initOnlyWrapper

namespace Synthesis

variable (v : Vocabulary)

/-- Reading a declaration says of it what there is to say. -/
theorem describes_declaredField (a : Assignment) (x : Variable) :
    (declaredField v a x).Describes v a x.ty := by
  have hinit : (declaredField v a x).initOnly = true ↔
      (∃ b, a.declaredTy = some b ∧ b.IsWrapped v.initOnlyWrapper) ∨
        x.ty.IsWrapped v.initOnlyWrapper := by
    rw [declaredField, Bool.or_eq_true, Variable.isInitOnly, Binding.isWrapped_iff, or_comm]
    apply or_congr_left
    cases a.declaredTy with
    | none => simp
    | some b => simp [Binding.isWrapped_iff]
  cases ho : FieldOptions.ofCall? v.fieldHelper a.value with
  | some o =>
    obtain ⟨args, hcall, rfl⟩ := (FieldOptions.ofCall?_eq_some_iff _ _ _).mp ho
    -- A call has one list of arguments.
    have hargs : ∀ {args'}, FieldOptions.IsCall v.fieldHelper a.value args' → args' = args := by
      rintro args' ⟨ref', he', -⟩
      obtain ⟨ref, he, -⟩ := hcall
      cases he'.symm.trans he
      rfl
    refine ⟨rfl, rfl, ?_, ?_, hinit⟩
    · simp only [declaredField, ho, Option.map_some, Option.getD_some]
      rw [FieldOptions.inInit_foldl_step]
      constructor
      · exact fun h => ⟨args, hcall, h⟩
      · rintro ⟨args', hcall', h⟩
        exact hargs hcall' ▸ h
    · simp only [declaredField, ho, Option.map_some, Option.getD_some]
      rw [FieldOptions.hasDefault_foldl_step]
      constructor
      · exact fun h => .inl ⟨args, hcall, h⟩
      · rintro (⟨args', hcall', h⟩ | ⟨hnone, -⟩)
        · exact hargs hcall' ▸ h
        · exact absurd hcall (hnone args)
  | none =>
    have hnone : ∀ args, ¬ FieldOptions.IsCall v.fieldHelper a.value args := by
      intro args hcall
      have hsome := (FieldOptions.ofCall?_eq_some_iff _ _ _).mpr ⟨args, hcall, rfl⟩
      rw [ho] at hsome
      cases hsome
    refine ⟨rfl, rfl, ?_, ?_, hinit⟩
    · simp only [declaredField, ho, Option.map_none, Option.getD_none]
      refine iff_of_false (by simp) ?_
      rintro ⟨args, hcall, -⟩
      exact hnone args hcall
    · simp only [declaredField, ho, Option.map_none, Option.getD_none]
      have hempty : (!a.value.isEmpty) = true ↔ a.value ≠ .empty := by
        cases a.value <;> simp [Expr.isEmpty]
      rw [hempty]
      constructor
      · exact fun h => .inr ⟨hnone, h⟩
      · rintro (⟨args, hcall, -⟩ | ⟨-, h⟩)
        · exact absurd hcall (hnone args)
        · exact h

/-! ## Declaration by declaration -/

/-- How often some assignments declare a name. -/
def timesDeclared (name : String) (as : List Assignment) : Nat :=
  as.countP fun a => a.target.name == name

theorem instanceVar?_eq_some_iff {t : Table Member} {name : String} {x : Variable} :
    t.instanceVar? name = some x ↔ ∃ generated, visit (t.get? name) = .field x generated := by
  constructor
  · intro h
    obtain ⟨hx, hclass⟩ := Option.filter_eq_some_iff.mp h
    obtain ⟨⟨symbol, generated⟩, hget, hvar⟩ := Option.bind_eq_some_iff.mp hx
    cases symbol with
    | var y =>
      cases hvar
      refine ⟨generated, ?_⟩
      rw [hget, visit, if_neg (by simpa using hclass)]
    | method m => cases hvar
    | typeVar d => cases hvar
    | placeholder => cases hvar
  · rintro ⟨generated, h⟩
    obtain ⟨hget, hclass⟩ := visit_eq_field h
    rw [Table.instanceVar?, hget, Option.bind_some]
    exact Option.filter_eq_some_iff.mpr ⟨rfl, by simp [hclass]⟩

theorem isField_eq_isSome (t : Table Member) (name : String) :
    isField (t.get? name) = (t.instanceVar? name).isSome := by
  rw [Bool.eq_iff_iff, Option.isSome_iff_exists]
  simp only [instanceVar?_eq_some_iff]
  constructor
  · intro h
    rw [isField] at h
    split at h
    · next x generated hv => exact ⟨x, generated, hv⟩
    · cases h
  · rintro ⟨x, generated, h⟩
    exact isField_eq_of_visit h

theorem awaits_iff (t : Table Member) (name : String) :
    t.awaits name = true ↔ visit (t.get? name) = .stop := by
  rw [Table.awaits]
  rcases t.get? name with _ | ⟨symbol, generated⟩
  · simp [visit]
  · cases symbol with
    | var x => by_cases h : x.isClassVar = true <;> simp [visit, Symbol.isPlaceholder, h]
    | method m => simp [visit, Symbol.isPlaceholder]
    | typeVar d => simp [visit, Symbol.isPlaceholder]
    | placeholder => simp [visit, Symbol.isPlaceholder]

private theorem awaits_eq_false {t : Table Member} {name : String} {visited : Visit}
    (h : visit (t.get? name) = visited) (goes : visited ≠ .stop) : t.awaits name = false := by
  rw [Bool.eq_false_iff, ne_eq, awaits_iff, h]
  exact goes

section Step

variable {t : Table Member} {a : Assignment} {x : Variable} {generated : Bool}
  (hv : visit (t.get? a.target.name) = .field x generated)

include hv

/-- Reading a field takes one wrapper off its variable and leaves the others. -/
private theorem instanceVar?_insert (name : String) :
    (t.insert a.target.name (readMember v x generated)).instanceVar? name =
      (t.instanceVar? name).map fun y =>
        if a.target.name = name then { y with ty := y.ty.peel v.initOnlyWrapper } else y := by
  by_cases hname : a.target.name = name
  · subst hname
    rw [instanceVar?_eq_some_iff.mpr ⟨generated, hv⟩, Option.map_some, if_pos rfl,
      instanceVar?_eq_some_iff]
    refine ⟨generated, ?_⟩
    rw [Table.get?_insert_self, readMember, visit, Variable.unwrap_eq_peel,
      if_neg (by simp [(visit_eq_field hv).2])]
  · rw [Table.instanceVar?, Table.get?_insert, if_neg hname]
    simp only [if_neg hname, Option.map_id']
    rfl

/-- Reading a field makes no name a placeholder, and none anything else. -/
private theorem awaits_insert (name : String) :
    (t.insert a.target.name (readMember v x generated)).awaits name = t.awaits name := by
  rw [Table.awaits, Table.get?_insert]
  split
  · next he =>
    rw [Table.awaits, ← he, (visit_eq_field hv).1]
    rfl
  · rfl

end Step

/-- Reading stops at the first declaration whose name is a placeholder. -/
theorem scan_awaiting {as : List Assignment} {t : Table Member} {a : Assignment}
    (h : as.find? (fun a => t.awaits a.target.name) = some a) :
    (scan v as t).2 = .error (.placeholder a.target.name) := by
  induction as generalizing t with
  | nil => cases h
  | cons b rest ih =>
    rw [scan]
    cases hv : visit (t.get? b.target.name) with
    | stop =>
      have hb : t.awaits b.target.name = true := (awaits_iff _ _).mpr hv
      rw [List.find?_cons, hb] at h
      cases h
      rfl
    | skip =>
      rw [List.find?_cons, awaits_eq_false hv Visit.noConfusion] at h
      exact ih h
    | field x generated =>
      rw [List.find?_cons, awaits_eq_false hv Visit.noConfusion] at h
      simp only [← awaits_insert v hv] at h
      dsimp only
      rw [ih h]
      rfl

/-- Without placeholders, reading answers with one field for every declaration whose name is a
variable of instances. It describes the declaration, at the type that the wrappers taken off before
have left of the variable. -/
theorem scan_described {as : List Assignment} {t : Table Member}
    (goes : ∀ a ∈ as, t.awaits a.target.name = false) :
    ∃ own, (scan v as t).2 = .ok own ∧
      let declaring := as.filter fun a => (t.instanceVar? a.target.name).isSome
      own.length = declaring.length ∧
      ∀ (i : Nat) (a : Assignment) (f : Field), declaring[i]? = some a → own[i]? = some f →
        ∃ x, t.instanceVar? a.target.name = some x ∧
          f.Describes v a ((Binding.peel v.initOnlyWrapper)^[timesDeclared a.target.name
            (declaring.take i)] x.ty) := by
  induction as generalizing t with
  | nil => exact ⟨[], rfl, rfl, fun i a f ha => by cases ha⟩
  | cons b rest ih =>
    have hrest := fun a ha => goes a (List.mem_cons_of_mem b ha)
    rw [scan]
    cases hv : visit (t.get? b.target.name) with
    | stop =>
      have hb := goes b List.mem_cons_self
      rw [(awaits_iff _ _).mpr hv] at hb
      cases hb
    | skip =>
      have hskip : (t.instanceVar? b.target.name).isSome = false := by
        rw [← isField_eq_isSome, isField, hv]
      rw [List.filter_cons_of_neg (by simp [hskip])]
      exact ih hrest
    | field x generated =>
      have hx := instanceVar?_eq_some_iff.mpr ⟨generated, hv⟩
      simp only [← awaits_insert v hv] at hrest
      obtain ⟨own, hown, hlength, hdescribes⟩ := ih hrest
      simp only [instanceVar?_insert v hv, Option.isSome_map] at hlength hdescribes
      rw [List.filter_cons_of_pos (by simp [hx])]
      refine ⟨declaredField v b x :: own, by dsimp only; rw [hown]; rfl,
        congrArg Nat.succ hlength, ?_⟩
      intro i a f ha hf
      cases i with
      | zero =>
        cases ha
        cases hf
        exact ⟨x, hx, describes_declaredField v b x⟩
      | succ i =>
        obtain ⟨y, hy, hfield⟩ := hdescribes i a f ha hf
        obtain ⟨z, hz, rfl⟩ := Option.map_eq_some_iff.mp hy
        refine ⟨z, hz, ?_⟩
        rw [List.take_succ_cons, timesDeclared, List.countP_cons]
        by_cases hname : b.target.name = a.target.name
        · rw [if_pos hname] at hfield
          rw [if_pos (by simpa using hname), Function.iterate_succ_apply]
          exact hfield
        · rw [if_neg hname] at hfield
          rw [if_neg (by simpa using hname), Nat.add_zero]
          exact hfield

/-- Where reading passes over a member, there is nothing to take off. -/
private theorem peel_of_skip {m : Option Member} (h : visit m = .skip) (wrapper : String)
    (times : Nat) : m.map (Member.peel wrapper times) = m := by
  rcases m with _ | ⟨symbol, generated⟩
  · rfl
  · cases symbol with
    | var x =>
      have hclass : x.isClassVar = true := by
        by_contra hc
        rw [visit, if_neg hc] at h
        cases h
      rw [Option.map_some, Member.peel, if_pos hclass]
    | method d => rfl
    | typeVar d => rfl
    | placeholder => rfl

/-- Reading takes a wrapper off a member for every declaration of its name that it gets to. -/
theorem get?_scan_peel (as : List Assignment) (t : Table Member) (name : String) :
    (scan v as t).1.get? name =
      (t.get? name).map (Member.peel v.initOnlyWrapper
        (timesDeclared name (as.takeWhile fun a => !t.awaits a.target.name))) := by
  induction as generalizing t with
  | nil =>
    rw [scan, List.takeWhile_nil, timesDeclared, List.countP_nil]
    cases t.get? name with
    | none => rfl
    | some m => rw [Option.map_some, Member.peel_zero]
  | cons b rest ih =>
    rw [scan]
    cases hv : visit (t.get? b.target.name) with
    | stop =>
      have hb : t.awaits b.target.name = true := (awaits_iff _ _).mpr hv
      rw [List.takeWhile_cons, hb, Bool.not_true, if_neg Bool.false_ne_true, timesDeclared,
        List.countP_nil]
      cases t.get? name with
      | none => rfl
      | some m => rw [Option.map_some, Member.peel_zero]
    | skip =>
      rw [List.takeWhile_cons, awaits_eq_false hv Visit.noConfusion, Bool.not_false, if_pos rfl,
        timesDeclared, List.countP_cons]
      dsimp only
      rw [ih t, timesDeclared]
      by_cases hname : b.target.name = name
      · subst hname
        rw [peel_of_skip hv, peel_of_skip hv]
      · rw [if_neg (by simpa using hname), Nat.add_zero]
    | field x generated =>
      obtain ⟨hget, hclass⟩ := visit_eq_field hv
      rw [List.takeWhile_cons, awaits_eq_false hv Visit.noConfusion, Bool.not_false, if_pos rfl,
        timesDeclared, List.countP_cons]
      dsimp only
      rw [ih, Table.get?_insert, timesDeclared]
      simp only [awaits_insert v hv]
      by_cases hname : b.target.name = name
      · subst hname
        rw [if_pos rfl, if_pos (by simp), hget]
        simp [readMember, Member.peel, Variable.unwrap_eq_peel, hclass]
      · rw [if_neg hname, if_neg (by simpa using hname), Nat.add_zero]

/-! ## The fields that a class contributes itself -/

/-- These are the fields that a class declares itself: one for every declaration of a variable of
instances, in body order, each of them saying what its declaration says at the type that the
declarations before it have left of the variable. -/
structure DeclaresFields (c : ClassDecl) (own : List Field) : Prop where
  length : own.length =
    ((declarations c.body).filter fun a => (c.members.instanceVar? a.target.name).isSome).length
  describes : ∀ (i : Nat) (a : Assignment) (f : Field),
    let declaring :=
      (declarations c.body).filter fun a => (c.members.instanceVar? a.target.name).isSome
    declaring[i]? = some a → own[i]? = some f →
      ∃ x, c.members.instanceVar? a.target.name = some x ∧
        f.Describes v a ((Binding.peel v.initOnlyWrapper)^[timesDeclared a.target.name
          (declaring.take i)] x.ty)

/-- Own declarations are read exactly. A run waits for the first declaration in body order whose
name is a placeholder. Where there is none, the class contributes the fields of its declarations
and no others, and a run that completes has merged them with those of its ancestors. Reading adds
and removes no member, and it takes a wrapper off for every declaration that it gets to. -/
theorem own_fields_exact {r : Registry} {id : ClassId} {c : ClassDecl}
    (registered : r.get? id = some c) :
    (∀ a, (declarations c.body).find? (fun a => c.members.awaits a.target.name) = some a →
      (run v r id).result = .error (.deferred (.placeholder a.target.name))) ∧
    ((∀ a ∈ declarations c.body, c.members.awaits a.target.name = false) →
      ∃ own, DeclaresFields v c own ∧ (readBody v c.body c.members).2 = .ok own ∧
        ∀ s, (run v r id).result = .ok s → ∃ found,
          contributions v (r.set id (readClass v c)) (interior c.mro) = .ok found ∧
          s.fields = (merge (own.map fun f => { field := f })
            (found.map Contribution.fields)).map MergedField.field) ∧
    (readClass v c).members.keys = c.members.keys ∧
    ∀ name, (readClass v c).members.get? name =
      (c.members.get? name).map (Member.peel v.initOnlyWrapper (timesDeclared name
        ((declarations c.body).takeWhile fun a => !c.members.awaits a.target.name))) := by
  refine ⟨fun a ha => ?_, fun goes => ?_, ?_, fun name => ?_⟩
  · rw [run_of_get? v registered, readBody_eq_scan, scan_awaiting v ha]
    rfl
  · obtain ⟨own, hown, hlength, hdescribes⟩ := scan_described v goes
    rw [← readBody_eq_scan] at hown
    refine ⟨own, ⟨hlength, hdescribes⟩, hown, fun s hs => ?_⟩
    obtain ⟨own', found, hown', hfound, hfields⟩ := collect_of_ok v registered hs
    cases hown.symm.trans hown'
    exact ⟨found, hfound, hfields⟩
  · rw [readClass, readBody_eq_scan, keys_scan]
  · rw [readClass, readBody_eq_scan]
    exact get?_scan_peel v _ _ name

/-- A class that declares one name twice, below two wrappers and without an annotation of them,
beside a shared variable. -/
private def restated : ClassDecl :=
  let wrapped (t : Ty) : Ty := .inst "dataclasses.InitVar" [t]
  let entry (name : String) (ty : Ty) (isClassVar : Bool) : String × Member :=
    let x : Variable := { name, fullname := qualify "C" name, ty := .resolved ty, isClassVar }
    (name, { symbol := .var x })
  let helper : Reference := { name := "field", fullname := some "dataclasses.field" }
  { name := "C", fullname := "C", mro := [0]
    body := [
      .assign { target := { name := "x" }, declaredTy := some .pending, value := .int 0 },
      .assign { target := { name := "shared" }, declaredTy := some .pending },
      .assign {
        target := { name := "x" }, declaredTy := some .pending
        value := .call (.name helper) [⟨some "init", .bool true⟩, ⟨some "init", .int 1⟩] },
      .pass]
    members := .ofList [
      entry "x" (wrapped (wrapped (.named "builtins.int"))) false,
      entry "shared" (.named "builtins.int") true] }

theorem own_fields_exact_restated :
    ∃ own, DeclaresFields {} restated own ∧
      (readBody {} restated.body restated.members).2 = .ok own ∧
      own.length = 2 ∧
      ∀ f, own[1]? = some f →
        f.name = "x" ∧ f.inInit = false ∧ f.hasDefault = false ∧ f.initOnly = true := by
  have hregistered : Registry.get? ⟨[restated]⟩ 0 = some restated := rfl
  obtain ⟨own, hown, hread, -⟩ := (own_fields_exact {} hregistered).2.1 (by decide)
  refine ⟨own, hown, hread, hown.length, fun f hf => ?_⟩
  obtain ⟨x, hx, hfield⟩ := hown.describes 1 _ f rfl hf
  cases hx
  have hcall : ∀ args, FieldOptions.IsCall "dataclasses.field"
      (.call (.name { name := "field", fullname := some "dataclasses.field" })
        [⟨some "init", .bool true⟩, ⟨some "init", .int 1⟩]) args →
      args = [⟨some "init", .bool true⟩, ⟨some "init", .int 1⟩] := by
    rintro args ⟨ref, he, -⟩
    cases he
    rfl
  refine ⟨hfield.name, hfield.outside.mpr ?_, ?_, hfield.initOnly.mpr (.inr ⟨_, rfl⟩)⟩
  · exact ⟨_, ⟨_, rfl, rfl⟩, _, rfl, Expr.noConfusion⟩
  · rw [Bool.eq_false_iff, ne_eq, hfield.hasDefault]
    rintro (⟨args, hargs, arg, harg, hkey⟩ | ⟨hnone, -⟩)
    · rw [hcall args hargs] at harg
      revert hkey
      revert arg
      decide
    · exact hnone _ ⟨_, rfl, rfl⟩

end Synthesis

end DataHolder
