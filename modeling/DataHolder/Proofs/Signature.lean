import DataHolder.Proofs.Provenance

/-!
# The parameters of a constructor

A generated constructor takes the merged fields that belong to it, one parameter each, in their
order. Where a class inherits a field for the constructor alone, its type is recovered from the
constructor of the nearest ancestor that has recorded the field. All other types are those that the
class and its ancestors show under the names, and they are there: a run waits for them before it
takes anything away.
-/

namespace DataHolder

namespace Synthesis

/-! ## Where a type is recovered from -/

/-- The field that a class has recorded under a name. -/
def recordedField? (v : Vocabulary) (r : Registry) (id : ClassId) (name : String) : Option Field :=
  match recordAt v r id with
  | .ok (some record) => record.fields.find? fun f => f.name == name
  | _ => none

/-- The nearest ancestor that has recorded a field under a name. -/
def source? (v : Vocabulary) (r : Registry) (mro : List ClassId) (name : String) : Option ClassId :=
  (interior mro).find? fun a => (recordedField? v r a name).isSome

/-- The type that a class recovers for a field: one that it does not declare itself, and has for the
constructor alone. -/
def recoveredTy? (v : Vocabulary) (r : Registry) (c : ClassDecl) (f : Field) : Option Ty :=
  if f.initOnly && !(fieldNames c).contains f.name then
    (source? v r c.mro f.name).bind fun a => constructorTy? r a f.name
  else none

section Sources

variable {v : Vocabulary} {r : Registry}

private theorem findSome?_eq_bind_find? {α β : Type} (g : α → Option β) (l : List α) :
    l.findSome? g = (l.find? fun a => (g a).isSome).bind g := by
  induction l with
  | nil => rfl
  | cons a l ih =>
    rw [List.findSome?_cons, List.find?_cons]
    cases h : g a with
    | none => exact ih
    | some b => exact h.symm

private theorem find?_contribution {id : ClassId} {k : Option Contribution}
    (h : contribution? v r id = .ok k) (name : String) :
    ((k.toList.map Contribution.fields).flatten.find? fun f => f.name == name) =
      (recordedField? v r id name).map (inherit r id) := by
  unfold contribution? at h
  unfold recordedField? recordAt
  cases hc : r.get? id with
  | none =>
    rw [hc] at h
    cases h
    rfl
  | some c =>
    rw [hc] at h
    dsimp only at h ⊢
    cases hrecord : c.record? v.recordKey with
    | error failure =>
      rw [hrecord] at h
      cases h
    | ok found =>
      rw [hrecord] at h
      cases found with
      | none =>
        dsimp only at h ⊢
        split at h
        · cases h
        · cases h
          rfl
      | some record =>
        cases h
        dsimp only
        rw [Option.toList_some, List.map_singleton, List.flatten_singleton, List.find?_map]
        rfl

/-- Look-up in what the ancestors contribute finds the field of the nearest one that has recorded
it. -/
private theorem find?_contributions {ids : List ClassId} {found : List Contribution}
    (h : contributions v r ids = .ok found) (name : String) :
    ((found.map Contribution.fields).flatten.find? fun f => f.name == name) =
      ids.findSome? fun a => (recordedField? v r a name).map (inherit r a) := by
  induction ids generalizing found with
  | nil =>
    cases h
    rfl
  | cons id ids ih =>
    obtain ⟨k, rest, hk, hrest, rfl⟩ := contributions_cons_ok h
    rw [List.map_append, List.flatten_append, List.find?_append, find?_contribution hk, ih hrest,
      List.findSome?_cons]
    cases (recordedField? v r id name).map (inherit r id) <;> rfl

/-- What is recovered for a merged field. -/
theorem recovered_eq {c : ClassDecl} {own : List Field} {m : Collection}
    (h : gather v r c.mro (.ok own) = .ok m) (names : own.map Field.name = fieldNames c)
    (once : (own.map Field.name).Nodup) {g : MergedField} (hg : g ∈ m.fields) :
    g.recovered = recoveredTy? v r c g.field := by
  have hnodup : (m.fields.map MergedField.name).Nodup := by
    have hplain := (nodup_plain_of_gather_iff h).mpr once
    rwa [Collection.plain, List.map_map] at hplain
  have hfind := find?_name_of_mem hnodup hg
  obtain ⟨found, hfound, hfields, -⟩ := gather_ok h
  rw [hfields, find?_merge, List.find?_append, find?_contributions hfound,
    findSome?_eq_bind_find?] at hfind
  cases hown : (own.map ofOwn).find? fun f => f.name == g.name with
  | some f =>
    rw [hown, Option.some_or, Option.some.injEq] at hfind
    subst hfind
    obtain ⟨f', hf', rfl⟩ := List.mem_map.mp (List.mem_of_find?_eq_some hown)
    have hmem : f'.name ∈ fieldNames c := names ▸ List.mem_map_of_mem hf'
    rw [recoveredTy?, show (ofOwn f').field = f' from rfl, if_neg (by simp [hmem])]
    rfl
  | none =>
    have hforeign : g.name ∉ fieldNames c := by
      intro hmem
      rw [← names, ← names_ofOwn] at hmem
      obtain ⟨f, hf, hname⟩ := List.mem_map.mp hmem
      exact List.find?_eq_none.mp hown f hf (by simpa using hname)
    rw [hown, Option.none_or] at hfind
    obtain ⟨a, ha, hinherited⟩ := Option.bind_eq_some_iff.mp hfind
    obtain ⟨f, hf, rfl⟩ := Option.map_eq_some_iff.mp hinherited
    have hsource : source? v r c.mro f.name = some a := by
      rw [source?, ← ha]
      congr 1
      funext b
      rw [Option.isSome_map]
      rfl
    have hcontains : (fieldNames c).contains f.name = false :=
      Bool.eq_false_iff.mpr fun hmem => hforeign (List.contains_iff_mem.mp hmem)
    show (if f.initOnly then constructorTy? r a f.name else none) = recoveredTy? v r c f
    rw [recoveredTy?, hsource, hcontains, Bool.not_false, Bool.and_true]
    rfl

end Sources

/-! ## What a parameter is annotated with -/

/-- The type of the parameter for a field: the one that is recovered, and otherwise that of the
nearest symbol under the name. Any type will do for a symbol that is no variable, and for a
constructor-only field that nothing is shown for. -/
inductive TypedAs (v : Vocabulary) (r : Registry) (id : ClassId) (c : ClassDecl) (f : Field) :
    Ty → Prop
  | recovered {ty : Ty} (known : recoveredTy? v r c f = some ty) : TypedAs v r id c f ty
  | var {x : Variable} {ty : Ty} (unknown : recoveredTy? v r c f = none)
    (shown : declared? r id f.name = some (.var x)) (resolved : x.ty = .resolved ty) :
    TypedAs v r id c f ty
  | method {g : Method} (unknown : recoveredTy? v r c f = none)
    (shown : declared? r id f.name = some (.method g)) : TypedAs v r id c f .any
  | typeVar {d : TypeVarDecl} (unknown : recoveredTy? v r c f = none)
    (shown : declared? r id f.name = some (.typeVar d)) : TypedAs v r id c f .any
  | hidden (unknown : recoveredTy? v r c f = none) (initOnly : f.initOnly = true)
    (shown : declared? r id f.name = none) : TypedAs v r id c f .any

section Typed

variable {v : Vocabulary} {r : Registry} {id : ClassId} {c : ClassDecl} {f : Field}

/-- A field that does not wait has its type. -/
theorem typedAs_of_ready (ready : waitsFor? r id f = none) :
    TypedAs v r id c f (((recoveredTy? v r c f).or (fieldTy? r id f.name)).getD .any) := by
  cases hrecovered : recoveredTy? v r c f with
  | some ty => exact .recovered hrecovered
  | none =>
    rw [Option.none_or, fieldTy?]
    cases hshown : declared? r id f.name with
    | none =>
      refine .hidden hrecovered ?_ hshown
      rw [waitsFor?, hshown] at ready
      by_contra hkept
      simp [hkept] at ready
    | some symbol =>
      cases symbol with
      | var x =>
        obtain ⟨ty, hty⟩ := exists_ty_of_ready ready hshown
        rw [Option.bind_some, Symbol.fieldTy?, hty]
        exact .var hrecovered hshown hty
      | method g => exact .method hrecovered hshown
      | typeVar d => exact .typeVar hrecovered hshown
      | placeholder =>
        rw [waitsFor?, hshown] at ready
        cases ready

/-- Only copies of variables are generated under a name. -/
def OnlyCopies (c : ClassDecl) (name : String) : Prop :=
  ∀ m, c.members.get? name = some m → m.generated = true → m.symbol.isVar = true

/-- Reading generates nothing and turns nothing into a variable. -/
theorem OnlyCopies.read (only : OnlyCopies c f.name) : OnlyCopies (readClass v c) f.name := by
  intro m hm generated
  rw [readClass, readBody_eq_scan] at hm
  rcases get?_scan v (declarations c.body) c.members f.name with h | ⟨x, ty, g, -, -, h⟩
  · exact only m (h ▸ hm) generated
  · rw [h] at hm
    cases hm
    rfl

/-- Where only copies are generated under a name, it resolves to the same once the generated members
are cleared. -/
theorem declared?_clearGenerated (registered : r.get? id = some c) (only : OnlyCopies c f.name) :
    declared? (r.set id c.clearGenerated) id f.name = declared? r id f.name := by
  have hget := Registry.get?_set registered
  refine declared?_congr registered (d := c.clearGenerated) (by rw [hget, if_pos rfl]) rfl ?_
  intro a _
  rw [shown?, shown?, hget]
  by_cases ha : id = a
  · subst ha
    rw [if_pos rfl, registered, Option.bind_some, Option.bind_some, ClassDecl.get?_clearGenerated,
      ClassDecl.written?]
    cases hm : c.members.get? f.name with
    | none => rfl
    | some m =>
      cases hgenerated : m.generated with
      | false => rw [Option.filter_some, hgenerated]; rfl
      | true => simp [visible, Member.isCopy, hgenerated, only m hm hgenerated]
  · rw [if_neg ha]

end Typed

/-! ## The whole signature -/

section Signature

variable {v : Vocabulary} {r : Registry} {id : ClassId} {c : ClassDecl} {s : Synthesis}

/-- A run that generates a constructor appends it to the body, and methods of other names after
it. -/
private theorem exists_appended {m : Collection} (apart : v.selfTypeVar ≠ "__init__")
    (h : "__init__" ∈ (added v r id c m).map Prod.fst) :
    ∃ (init : Method) (others : List Method), Constructor (completed v r id c m) init ∧
      (completed v r id c m).body =
        (c.body.filter (stays (readClass v c).generatedMethods)).map
            (unbind (initOnlyNames m.plain)) ++
          (init :: others).map Statement.method ∧
      (∀ f ∈ others, f.name ∈ equalityMethods ++ orderingMethods) ∧
      init.parameters = initParameters
        ((r.set id (readClass v c)).set id (readClass v c).clearGenerated) id m.fields := by
  obtain ⟨init, hconstructor, hadded⟩ := exists_constructor apart h
  obtain ⟨others, hmethods, hothers⟩ := methodsIn_additions_of_init _ _ _ _ _
    ((init_mem_additions_iff _ _ _ _ _ apart).mp h)
  have hinit := eq_of_method_mem_additions _ _ _ _ _ hadded
  rw [if_pos rfl] at hinit
  refine ⟨init, others, hconstructor, ?_, hothers, parameters_of_added hadded⟩
  rw [body_completed, Draft.statementsOf, added, hmethods, ← hinit, List.map_append, List.map_map]
  rfl

/-- The registry in which a run collects its fields: the body of the class is read, and nothing is
cleared yet. -/
def afterReading (v : Vocabulary) (r : Registry) (id : ClassId) (c : ClassDecl) : Registry :=
  r.set id (readClass v c)

/-- The variable of a field that a class declares once and has not taken from an earlier run is
shown without the wrapper of constructor-only fields. -/
theorem declared?_afterReading (registered : r.get? id = some c)
    (completes : (run v r id).result = .ok s)
    (once : ((declarations c.body).map fun a => a.target.name).Nodup) {name : String}
    (own : name ∈ fieldNames c) {x : Variable}
    (written : c.written? name = some { symbol := .var x }) (first : c.mro.head? = some id) :
    declared? (afterReading v r id c) id name = some (.var (x.unwrap v)) := by
  obtain ⟨fields, m, hread, -⟩ := run_of_ok registered completes
  obtain ⟨hmem, hfield⟩ := mem_fieldNames.mp own
  have hget := (Option.filter_eq_some_iff.mp written).1
  have hplain : x.isClassVar = false := by
    rw [hget] at hfield
    cases hclass : x.isClassVar with
    | false => rfl
    | true => simp [isField, visit, hclass] at hfield
  have hcount : ((declarations c.body).map fun a => a.target.name).count name = 1 :=
    List.count_eq_one_of_mem once hmem
  rw [readBody_eq_scan] at hread
  have hscan := get?_scan_of_once v hcount hget hplain hread
  have hregistered : (afterReading v r id c).get? id = some (readClass v c) := by
    rw [afterReading, Registry.get?_set registered, if_pos rfl]
  have hwritten : (readClass v c).written? name = some { symbol := .var (x.unwrap v) } := by
    rw [ClassDecl.written?, readClass, readBody_eq_scan, hscan]
    rfl
  obtain ⟨tail, hmro⟩ := List.head?_eq_some_iff.mp first
  rw [declared?_eq hregistered, show (readClass v c).mro = c.mro from rfl, hmro,
    List.findSome?_cons, shown?_of_written hregistered hwritten]

/-- The constructor that a completed run generates stands behind what the run leaves of the body,
and only comparison methods come after it. Its parameters are those of the merged fields that it
takes, one for each and in their order. Every parameter has the name and the position of its field,
is optional where the field has a default, and is annotated with the type that the run recovers, or
else with what is shown under the name when the body was read. Something is shown for each field
that instances keep; and for a field of its own, a class shows its variable without the wrapper. -/
theorem constructor_signature (registered : r.get? id = some c)
    (completes : (run v r id).result = .ok s) (generated : "__init__" ∈ s.generated)
    (apart : v.selfTypeVar ≠ "__init__")
    (once : ((declarations c.body).map fun a => a.target.name).Nodup)
    (only : ∀ f ∈ s.fields, OnlyCopies c f.name) :
    ∃ (d : ClassDecl) (init : Method) (others : List Method),
      (run v r id).registry.get? id = some d ∧ Constructor d init ∧
      d.body =
        (c.body.filter (stays (readClass v c).generatedMethods)).map
            (unbind (initOnlyNames s.fields)) ++
          (init :: others).map Statement.method ∧
      (∀ f ∈ others, f.name ∈ equalityMethods ++ orderingMethods) ∧
      List.Forall₂
        (fun f p => ∃ ty, p = f.toParameter ty ∧ TypedAs v (afterReading v r id c) id c f ty)
        (s.fields.filter Field.inInit) init.parameters ∧
      (∀ f ∈ s.fields, f.initOnly = false →
        (declared? (afterReading v r id c) id f.name).isSome = true) ∧
      ∀ name ∈ fieldNames c, ∀ x, c.written? name = some { symbol := .var x } →
        c.mro.head? = some id →
          declared? (afterReading v r id c) id name = some (.var (x.unwrap v)) := by
  have hown := fun name (hname : name ∈ fieldNames c) (x : Variable) =>
    declared?_afterReading (x := x) registered completes once hname
  obtain ⟨own, m, hread, hm, rfl, -, hleft⟩ := run_of_ok registered completes
  have hgather := gather_of_collect hm
  have hready : ∀ f ∈ m.plain, waitsFor? (afterReading v r id c) id f = none :=
    List.findSome?_eq_none_iff.mp (unresolved?_of_collect hm)
  have hregistered : (afterReading v r id c).get? id = some (readClass v c) := by
    rw [afterReading, Registry.get?_set registered, if_pos rfl]
  have hnames := names_of_readBody v hread
  have honce : (own.map Field.name).Nodup := by
    rw [hnames]
    exact once.sublist (List.filter_sublist.map _)
  obtain ⟨init, others, hconstructor, hbody, hothers, hparameters⟩ :=
    exists_appended apart generated
  refine ⟨_, init, others, hleft, hconstructor, hbody, hothers, ?_, ?_, hown⟩
  · have hfilter : m.plain.filter Field.inInit =
        (m.fields.filter fun g => g.field.inInit).map MergedField.field := by
      rw [Collection.plain, List.filter_map]
      rfl
    rw [hparameters, initParameters, hfilter, List.forall₂_map_left_iff, List.forall₂_map_right_iff,
      List.forall₂_same]
    intro g hg
    have hmem : g ∈ m.fields := (List.mem_filter.mp hg).1
    have hfield : g.field ∈ m.plain := List.mem_map_of_mem hmem
    refine ⟨_, rfl, ?_⟩
    have hshown : fieldTy? ((afterReading v r id c).set id (readClass v c).clearGenerated) id
        g.field.name = fieldTy? (afterReading v r id c) id g.field.name :=
      fieldTy?_congr (declared?_clearGenerated hregistered (only g.field hfield).read)
    have hty : parameterTy ((afterReading v r id c).set id (readClass v c).clearGenerated) id g =
        ((recoveredTy? v (afterReading v r id c) c g.field).or
          (fieldTy? (afterReading v r id c) id g.field.name)).getD .any := by
      rw [parameterTy, recovered_eq hgather hnames honce hmem]
      exact congrArg (fun ty => (Option.or _ ty).getD .any) hshown
    rw [← afterReading, hty]
    exact typedAs_of_ready (hready g.field hfield)
  · intro f hf kept
    have hwait := hready f hf
    rw [waitsFor?] at hwait
    cases hshown : declared? (afterReading v r id c) id f.name with
    | some symbol => rfl
    | none =>
      rw [hshown, kept] at hwait
      cases hwait

/-- A class with a field for the constructor alone, and one below it that adds fields, the last one
for the constructor alone as well. -/
private def signedClass : ClassId → ClassDecl
  | 1 =>
    { name := "Base", fullname := "Base", mro := [1, 0]
      decorators := [.name { name := "dataclass" }]
      body := [declare "seed" 2 (.inst "dataclasses.InitVar" [.named "builtins.int"]) .empty] }
  | 2 =>
    { name := "Leaf", fullname := "Leaf", mro := [2, 1, 0]
      decorators := [.name { name := "dataclass" }]
      body :=
        [declare "x" 5 (.named "builtins.str") .empty,
          declare "scale" 6 (.inst "dataclasses.InitVar" [.named "builtins.float"]) (.int 1)] }
  | _ => { name := "object", fullname := "object", mro := [0] }
where
  /-- A declaration in some line. -/
  declare (name : String) (line : UInt32) (ty : Ty) (value : Expr) : Statement :=
    .assign
      { target := { name }, declaredTy := some (.resolved ty), value, position := ⟨line, 4⟩ }

/-- The registry in which the second class is to be run. -/
private def signed : Registry :=
  (run {} ⟨(List.range 3).map fun id => (signedClass id).bind⟩ 1).registry

theorem constructor_signature_leaf : ∃ (d : ClassDecl) (init : Method),
    (run {} signed 2).registry.get? 2 = some d ∧ Constructor d init ∧
    List.Forall₂
      (fun f p => ∃ ty, p = f.toParameter ty ∧
        TypedAs {} (afterReading {} signed 2 (signedClass 2).bind) 2 (signedClass 2).bind f ty)
      [{ name := "seed", initOnly := true, position := ⟨2, 4⟩ },
        { name := "x", position := ⟨5, 4⟩ },
        { name := "scale", initOnly := true, hasDefault := true, position := ⟨6, 4⟩ }]
      init.parameters := by
  have completes : (run {} signed 2).result =
      .ok
        { fields :=
            [{ name := "seed", initOnly := true, position := ⟨2, 4⟩ },
              { name := "x", position := ⟨5, 4⟩ },
              { name := "scale", initOnly := true, hasDefault := true, position := ⟨6, 4⟩ }]
          flags := {}
          generated := ["__init__", "_DT", "__eq__", "__ne__"]
          dependencies := ["Base"] } := rfl
  have written : ∀ e ∈ (signedClass 2).bind.members.entries, e.2.generated = false := by decide
  have only : ∀ name, OnlyCopies (signedClass 2).bind name := by
    intro name m hm generated
    rw [written _ ((Table.mem_entries_iff _ _ _).mpr hm)] at generated
    cases generated
  obtain ⟨d, init, -, hd, hconstructor, -, -, hparameters, -, -⟩ :=
    constructor_signature (rfl : signed.get? 2 = some (signedClass 2).bind) completes (by decide)
      (by decide) (by decide) fun f _ => only f.name
  exact ⟨d, init, hd, hconstructor, hparameters⟩

end Signature

end Synthesis

end DataHolder
