import DataHolder.Proofs.Raising

/-!
# Where the type of a parameter comes from

A field comes down through the records of the ancestors, and the type of its parameter is looked up
afresh among the members of all classes. Both lead to one declaration as long as no class before it
shows a symbol under the name. A class that is no data holder can do so, and then the description is
that of the declaration and the type is that of the symbol.
-/

namespace DataHolder

namespace Synthesis

/-- A class whose body declares no name twice, and whose variables are in the table as they are
annotated. -/
structure Orderly (c : ClassDecl) : Prop where
  once : ((declarations c.body).map fun a => a.target.name).Nodup
  annotated : ∀ a ∈ declarations c.body, ∀ x generated,
    c.members.get? a.target.name = some { symbol := .var x, generated } →
      x.isClassVar = false → generated = false ∧ a.declaredTy = some x.ty

/-- The statement that declares a field, and its annotated type: the description of the field is
that of the statement and of the variable that it has created. -/
structure DeclaredBy (v : Vocabulary) (c : ClassDecl) (f : Field) (a : Assignment)
    (ty : Ty) : Prop where
  statement : a ∈ declarations c.body
  annotation : a.declaredTy = some (.resolved ty)
  description : ∃ x, c.members.get? a.target.name = some { symbol := .var x } ∧
    declaredField v a x = f

/-- Binding an untouched class that declares no name twice leaves it orderly. -/
theorem Untouched.orderly {c : ClassDecl} (untouched : Untouched c)
    (once : ((declarations c.body).map fun a => a.target.name).Nodup) : Orderly c.bind := by
  refine ⟨names_bind c ▸ once, ?_⟩
  intro b hb x generated hx plain
  rw [declarations_bind] at hb
  obtain ⟨a, ha, rfl⟩ := List.mem_map.mp hb
  rw [ClassDecl.bind_eq, untouched.members, Table.get?_offerAll, Table.get?_empty, Option.none_or,
    name_boundTarget] at hx
  obtain ⟨hgenerated, a', ty, hfirst, hty, rfl⟩ :=
    find?_of_lookup_offers c.fullname untouched.unbound hx
  have hsame := find?_name_of_mem once ha
  rw [hfirst, Option.some.injEq] at hsame
  subst hsame
  refine ⟨hgenerated, ?_⟩
  rw [declaredTy_boundTarget, hty]
  cases ty with
  | pending => rfl
  | resolved t => rw [declared_plain plain]

/-! ## What a run leaves of the variable of a field -/

section Variable

variable {v : Vocabulary}

/-- Marking changes no more of a variable than its mark. -/
theorem foldl_afterMark_var (owner : String) (ty : String → Ty) (frozen : Bool)
    (fields : List Field) (x : Variable) (generated : Bool) :
    ∃ mark, fields.foldl (ClassDecl.afterMark owner ty frozen)
        (some { symbol := .var x, generated }) =
      some { symbol := .var { x with isReadOnly := mark }, generated } := by
  induction fields generalizing x with
  | nil => exact ⟨x.isReadOnly, rfl⟩
  | cons f fields ih =>
    obtain ⟨mark, hmark⟩ := ih { x with isReadOnly := frozen }
    exact ⟨mark, hmark⟩

/-- A completed run has nothing left to wait for. -/
theorem unresolved?_of_collect {r : Registry} {id : ClassId} {mro : List ClassId}
    {own : Except Deferral (List Field)} {m : Collection} (h : collect v r id mro own = .ok m) :
    unresolved? r id m.plain = none := by
  rw [collect, gather_of_collect h] at h
  dsimp only at h
  split at h
  · cases h
  · assumption

/-- The type of a variable is known where a field does not wait for it. -/
theorem exists_ty_of_ready {r : Registry} {id : ClassId} {f : Field} {x : Variable}
    (ready : waitsFor? r id f = none) (declared : declared? r id f.name = some (.var x)) :
    ∃ ty, x.ty = .resolved ty := by
  rw [waitsFor?, declared] at ready
  dsimp only at ready
  cases hx : x.ty with
  | resolved ty => exact ⟨ty, rfl⟩
  | pending =>
    rw [hx] at ready
    cases ready

/-- A written member is shown to the classes below. -/
theorem shown?_of_written {r : Registry} {id : ClassId} {c : ClassDecl} {name : String}
    {symbol : Symbol} (registered : r.get? id = some c)
    (written : c.written? name = some { symbol }) : shown? r id name = some symbol := by
  rw [shown?, registered, Option.bind_some, (Option.filter_eq_some_iff.mp written).1]
  rfl

end Variable

section Own

variable {v : Vocabulary} {up : List Raised} {r : Registry} {e : Raised} {f : Field}

/-- A field that a class declares for instances has a statement in its body. The variable that
reading leaves has the type of this statement, which is known. -/
theorem Raises.exists_declaredBy (next : Raises v up r e) (orderly : Orderly e.found)
    (hf : f ∈ e.own v) (kept : f.initOnly = false) :
    ∃ a ty x, DeclaredBy v e.found f a ty ∧ x.ty = .resolved ty ∧
      (readClass v e.found).written? f.name = some { symbol := .var x } := by
  obtain ⟨m, hown, hm, -⟩ := next.exists_completed
  rw [next.own_eq] at hf
  obtain ⟨⟨a, x⟩, hp, rfl⟩ := List.mem_map.mp hf
  dsimp only at kept ⊢
  have ha : a ∈ declarations e.found.body := mem_of_mem_visits v hp
  obtain ⟨generated, hget, hclass⟩ :=
    get?_of_visited_once v (List.nodup_iff_count_le_one.mp orderly.once _) hp
  obtain ⟨rfl, hty⟩ := orderly.annotated a ha x generated hget hclass
  have hplain : x.isInitOnly v = false := (Bool.or_eq_false_iff.mp kept).1
  have hread : (readClass v e.found).members.get? a.target.name = some { symbol := .var x } := by
    have hcount := List.count_eq_one_of_mem orderly.once (List.mem_map_of_mem ha)
    have hscan := readBody_eq_scan v e.found.body e.found.members ▸ hown
    rw [readClass, readBody_eq_scan, get?_scan_of_once v hcount hget hclass hscan, readMember,
      unwrap_of_not_initOnly v hplain]
  have hwritten : (readClass v e.found).written? a.target.name = some { symbol := .var x } := by
    rw [ClassDecl.written?, hread]
    rfl
  -- The run would have waited for a type that is not known.
  obtain ⟨ty, hresolved⟩ : ∃ ty, x.ty = .resolved ty := by
    have hmem : declaredField v a x ∈ m.plain :=
      (mem_plain_of_gather (gather_of_collect hm)).1 _
        (next.own_eq ▸ List.mem_map.mpr ⟨(a, x), hp, rfl⟩)
    have hready := List.findSome?_eq_none_iff.mp (unresolved?_of_collect hm) _ hmem
    obtain ⟨tail, hmro, -⟩ := next.first
    have hregistered : (r.set e.id (readClass v e.found)).get? e.id =
        some (readClass v e.found) :=
      Registry.get?_set_self _ _ _ (Registry.lt_size_of_get? next.registered)
    apply exists_ty_of_ready hready
    rw [declared?_eq hregistered, show (readClass v e.found).mro = e.found.mro from rfl, hmro,
      List.findSome?_cons, show (declaredField v a x).name = a.target.name from rfl,
      shown?_of_written hregistered hwritten]
  exact ⟨a, ty, x, ⟨ha, hty.trans (congrArg some hresolved), x, hget, rfl⟩, hresolved, hwritten⟩

/-- The run of a class leaves the variable of a field that it declares for instances, with the type
of the statement. -/
theorem Raises.exists_shown (next : Raises v up r e) (orderly : Orderly e.found)
    (hf : f ∈ e.own v) (kept : f.initOnly = false) (apart : v.selfTypeVar ≠ f.name) :
    ∃ a ty x, DeclaredBy v e.found f a ty ∧ x.ty = .resolved ty ∧
      shown? (run v r e.id).registry e.id f.name = some (.var x) := by
  obtain ⟨a, ty, x, hdeclared, hty, hwritten⟩ := next.exists_declaredBy orderly hf kept
  obtain ⟨m, hown, hm, -, -, hleft⟩ := next.exists_completed
  have hgather := gather_of_collect hm
  have hdraft : (draft v r e.id e.found m).get? f.name = some { symbol := .var x } := by
    rw [get?_draft_of_not_mem, hwritten]
    rw [mem_added_iff (by rw [hwritten]; rfl)]
    exact fun h => apart h.1
  have hnames : (m.plain.map Field.name).Nodup := by
    rw [nodup_plain_of_gather_iff hgather, next.names_own]
    exact orderly.once.sublist (List.filter_sublist.map _)
  have hstays := not_mem_initOnlyNames hnames ((mem_plain_of_gather hgather).1 f hf) kept
  obtain ⟨mark, hmark⟩ := foldl_afterMark_var e.found.fullname (copyTy v r e.id e.found m)
    (Flags.ofDecorator (v.decorator? e.found)).frozen
    ((m.plain.filter fun f => !f.initOnly).filter fun g => g.name == f.name) x false
  refine ⟨a, ty, { x with isReadOnly := mark }, hdeclared, hty, shown?_of_written hleft ?_⟩
  rw [ClassDecl.written?, get?_completed, if_neg hstays, hdraft, hmark]
  rfl

end Own

/-! ## The parameters of the constructor -/

section Parameters

variable {v : Vocabulary} {r : Registry} {id : ClassId}

/-- Only for constructor-only fields a type is recovered. -/
theorem recovered_eq_none {mro : List ClassId} {own : List Field} {m : Collection}
    (h : gather v r mro (.ok own) = .ok m) {g : MergedField} (hg : g ∈ m.fields)
    (kept : g.field.initOnly = false) : g.recovered = none := by
  obtain ⟨found, hfound, hfields, -⟩ := gather_ok h
  rw [hfields] at hg
  obtain ⟨added, hadded, -, hperm⟩ := merge_perm (found.map Contribution.fields)
    ((own.map ofOwn).map MergedField.name)
  rcases List.mem_append.mp ((hperm _ rfl).mem_iff.mp hg) with hown | hnew
  · obtain ⟨f, -, rfl⟩ := List.mem_map.mp hown
    rfl
  · obtain ⟨fields, hmem, hgf⟩ := List.mem_flatten.mp (hadded hnew)
    obtain ⟨k, hk, rfl⟩ := List.mem_map.mp hmem
    obtain ⟨a, -, ha⟩ := exists_contribution? hfound hk
    obtain ⟨recorded, hrecorded⟩ := exists_inherit_of_contribution? ha
    rw [hrecorded] at hgf
    obtain ⟨f, -, rfl⟩ := List.mem_map.mp hgf
    exact if_neg (Bool.eq_false_iff.mp kept)

/-- The parameter under the name of a field is that of the field, where no other has the name. -/
theorem find?_initParameters {fields : List MergedField} {g : MergedField} (hg : g ∈ fields)
    (only : ∀ f ∈ fields, f.name = g.name → f = g) (taken : g.field.inInit = true) :
    ((initParameters r id fields).find? fun p => p.name == g.name) =
      some (g.field.toParameter (parameterTy r id g)) := by
  have hmem : g ∈ fields.filter fun f => f.field.inInit := List.mem_filter.mpr ⟨hg, taken⟩
  have honly : ∀ f ∈ fields.filter fun f => f.field.inInit, f.name = g.name → f = g :=
    fun f hf => only f (List.mem_filter.mp hf).1
  have hname : (fun p : Parameter => p.name == g.name) ∘
      (fun f : MergedField => f.field.toParameter (parameterTy r id f)) =
        fun f => f.name == g.name := rfl
  rw [initParameters, List.find?_map, hname, find?_name_of_only hmem honly, Option.map_some]

end Parameters

/-! ## Descriptions and types -/

/-- The first class along linearized ancestors that declares a field, where the field has its
description from there; `before` are the classes that precede it. -/
structure FirstDeclares (v : Vocabulary) (up : List Raised) (mro : List ClassId) (f : Field)
    (before : List ClassId) (b : Raised) : Prop where
  mem : b ∈ up
  position : ∃ after, mro = before ++ b.id :: after
  first : ∀ a ∈ up, a.id ∈ before → f.name ∉ fieldNames a.found
  own : f ∈ b.own v

/-- The first symbol that some classes show under a name to a class which is cleared of what earlier
runs have generated for it. -/
def nearer? (r : Registry) (e : Raised) (before : List ClassId) (name : String) : Option Symbol :=
  before.findSome? fun a => shown? (r.set e.id e.found.clearGenerated) a name

/-- The type that a parameter takes: that of a symbol before the declaration, or else that of the
declaration. -/
def takenTy (nearer : Option Symbol) (ty : Ty) : Ty :=
  (nearer.map fun s => s.fieldTy?.getD .any).getD ty

section Provenance

variable {v : Vocabulary} {up : List Raised} {r : Registry} {e : Raised}

/-- The registry in which the parameters of a class are typed. -/
def typing (v : Vocabulary) (r : Registry) (e : Raised) : Registry :=
  (r.set e.id (readClass v e.found)).set e.id (readClass v e.found).clearGenerated

theorem Raises.get?_typing (next : Raises v up r e) (a : ClassId) :
    (typing v r e).get? a =
      if e.id = a then some (readClass v e.found).clearGenerated else r.get? a := by
  rw [typing, Registry.set_set, Registry.get?_set next.registered]

/-- A class that does not declare a field shows the same under its name once it was read. -/
theorem Raises.shown?_typing (next : Raises v up r e) {a : ClassId} {name : String}
    (foreign : e.id = a → name ∉ fieldNames e.found) :
    shown? (typing v r e) a name = shown? (r.set e.id e.found.clearGenerated) a name := by
  rw [shown?, shown?, next.get?_typing, Registry.get?_set next.registered]
  by_cases he : e.id = a
  · rw [if_pos he, if_pos he, Option.bind_some, Option.bind_some, ClassDecl.get?_clearGenerated,
      ClassDecl.get?_clearGenerated, ClassDecl.written?, ClassDecl.written?,
      get?_readClass_of_not_mem v (foreign he)]
  · rw [if_neg he, if_neg he]

/-- Where parameters are typed, the class that declares a field shows its variable, with the type of
the statement. -/
theorem Raises.exists_shown_typing (built : Built v up r) (next : Raises v up r e)
    (orderly : ∀ a ∈ e :: up, Orderly a.found) {b : Raised} (hb : b ∈ e :: up) {f : Field}
    (hf : f ∈ b.own v) (kept : f.initOnly = false) (apart : v.selfTypeVar ≠ f.name) :
    ∃ a ty x, DeclaredBy v b.found f a ty ∧ x.ty = .resolved ty ∧
      shown? (typing v r e) b.id f.name = some (.var x) := by
  rcases List.mem_cons.mp hb with rfl | hb
  · obtain ⟨a, ty, x, hdeclared, hty, hwritten⟩ :=
      next.exists_declaredBy (orderly b List.mem_cons_self) hf kept
    refine ⟨a, ty, x, hdeclared, hty, ?_⟩
    rw [← ClassDecl.written?_clearGenerated] at hwritten
    exact shown?_of_written (by rw [next.get?_typing, if_pos rfl]) hwritten
  · obtain ⟨before, q, -, hraises, -, hget⟩ := built.exists_raises hb
    obtain ⟨a, ty, x, hdeclared, hty, hshown⟩ :=
      hraises.exists_shown (orderly b (List.mem_cons_of_mem _ hb)) hf kept apart
    have hne : e.id ≠ b.id := fun he => next.ordered b hb (he ▸ hraises.mem_mro)
    refine ⟨a, ty, x, hdeclared, hty, ?_⟩
    rw [shown?, next.get?_typing, if_neg hne, hget]
    exact hshown

/-- The type of a parameter follows from the first class that declares the field, and from what the
classes before it show under the name. -/
theorem Raises.exists_fieldTy? (built : Built v up r) (next : Raises v up r e)
    (orderly : ∀ a ∈ e :: up, Orderly a.found) {f : Field} (kept : f.initOnly = false)
    (apart : v.selfTypeVar ≠ f.name) {before : List ClassId} {b : Raised}
    (first : FirstDeclares v (e :: up) e.found.mro f before b) :
    ∃ a ty, DeclaredBy v b.found f a ty ∧
      (fieldTy? (typing v r e) e.id f.name).getD .any = takenTy (nearer? r e before f.name) ty := by
  obtain ⟨a, ty, x, hdeclared, hty, hshown⟩ :=
    next.exists_shown_typing built orderly first.mem first.own kept apart
  refine ⟨a, ty, hdeclared, ?_⟩
  obtain ⟨after, hmro⟩ := first.position
  have hregistered : (typing v r e).get? e.id = some (readClass v e.found).clearGenerated := by
    rw [next.get?_typing, if_pos rfl]
  have hnearer : (before.findSome? fun a => shown? (typing v r e) a f.name) =
      nearer? r e before f.name := by
    apply findSome?_congr
    intro a ha
    apply next.shown?_typing
    rintro rfl
    exact first.first e List.mem_cons_self ha
  have hlookup : declared? (typing v r e) e.id f.name =
      (nearer? r e before f.name).or (some (.var x)) := by
    rw [declared?_eq hregistered,
      show (readClass v e.found).clearGenerated.mro = e.found.mro from rfl, hmro,
      List.findSome?_append, List.findSome?_cons, hshown, hnearer]
  rw [fieldTy?, hlookup, takenTy]
  cases nearer? r e before f.name with
  | none =>
    rw [Option.none_or, Option.bind_some, Symbol.fieldTy?, hty]
    rfl
  | some s => rfl

/-- In a hierarchy that was brought up, take a class whose run generates a constructor, and a field
that instances keep and the constructor takes, with the description of the first class that declares
it. One statement of that class gives the description of the field and the type of its parameter,
unless a class before it shows a symbol under the name: then the type is that of the symbol. -/
theorem parameters_typed (built : Built v up r) (next : Raises v up r e)
    (orderly : ∀ a ∈ e :: up, Orderly a.found) (generated : "__init__" ∈ e.answer.generated)
    (apart : v.selfTypeVar ≠ "__init__") :
    ∃ d init, (run v r e.id).registry.get? e.id = some d ∧ Constructor d init ∧
      ∀ f ∈ e.answer.fields, f.inInit = true → f.initOnly = false → v.selfTypeVar ≠ f.name →
        ∀ before b, FirstDeclares v (e :: up) e.found.mro f before b →
          ∃ a ty, DeclaredBy v b.found f a ty ∧
            init.parameter? f.name =
              some (f.toParameter (takenTy (nearer? r e before f.name) ty)) := by
  obtain ⟨m, -, hm, hanswer, -, hleft⟩ := next.exists_completed
  have hgather := gather_of_collect hm
  rw [hanswer] at generated
  obtain ⟨init, hconstructor, hadded⟩ := exists_constructor apart generated
  refine ⟨_, init, hleft, hconstructor, ?_⟩
  intro f hf taken kept hname before b first
  obtain ⟨a, ty, hdeclared, hty⟩ := next.exists_fieldTy? built orderly kept hname first
  refine ⟨a, ty, hdeclared, ?_⟩
  rw [hanswer] at hf
  obtain ⟨g, hg, rfl⟩ := List.mem_map.mp hf
  have hnames : (m.fields.map MergedField.name).Nodup := by
    have hplain : (m.plain.map Field.name).Nodup := by
      rw [nodup_plain_of_gather_iff hgather, next.names_own]
      exact (orderly e List.mem_cons_self).once.sublist (List.filter_sublist.map _)
    rwa [Collection.plain, List.map_map] at hplain
  have hparameter : parameterTy (typing v r e) e.id g = takenTy (nearer? r e before g.name) ty := by
    rw [parameterTy, recovered_eq_none hgather hg kept, Option.none_or]
    exact hty
  rw [Method.parameter?, parameters_of_added hadded]
  have honly : ∀ f ∈ m.fields, f.name = g.name → f = g :=
    fun f hf he => List.inj_on_of_nodup_map hnames hf hg he
  exact (find?_initParameters hg honly taken).trans (by rw [← typing, hparameter]; rfl)

/-- A base, a class that is no data holder and has a variable of its own under the name of a field
of the base, and a class below both, all of them as they come in. -/
private def shadedClass : ClassId → ClassDecl
  | 1 =>
    { name := "Base", fullname := "Base", mro := [1, 0]
      decorators := [.name { name := "dataclass" }]
      body :=
        [.assign
            { target := { name := "x" }, declaredTy := some (.resolved (.named "builtins.int"))
              position := ⟨2, 4⟩ },
          .assign
            { target := { name := "y" }, declaredTy := some (.resolved (.named "builtins.str"))
              value := .str "", position := ⟨3, 4⟩ }] }
  | 2 =>
    { name := "Mixin", fullname := "Mixin", mro := [2, 0]
      body :=
        [.assign
            { target := { name := "x" }, declaredTy := some (.resolved (.named "builtins.bool"))
              position := ⟨6, 4⟩ }] }
  | 3 =>
    { name := "Leaf", fullname := "Leaf", mro := [3, 2, 1, 0]
      decorators := [.name { name := "dataclass" }] }
  | _ => { name := "object", fullname := "object", mro := [0] }

/-- One of these classes, brought up. -/
private def shadedRaised (id : ClassId) (dependencies : List String) : Raised :=
  { id
    found := (shadedClass id).bind
    answer :=
      { fields :=
          [{ name := "x", position := ⟨2, 4⟩ },
            { name := "y", hasDefault := true, position := ⟨3, 4⟩ }]
        flags := {}
        generated := ["__init__", "_DT", "__eq__", "__ne__"]
        dependencies } }

/-- The registry in which the last class is to be run. -/
private def shaded : Registry :=
  (run {} ⟨[shadedClass 0, (shadedClass 1).bind, (shadedClass 2).bind,
    (shadedClass 3).bind]⟩ 1).registry

private theorem built_shaded : Built {} [shadedRaised 1 []] shaded := by
  refine Built.run (e := shadedRaised 1 []) (.start fun id => ?_)
    ⟨rfl, ⟨_, rfl, by decide⟩, by decide, rfl⟩
  match id with
  | 0 | 1 | 2 | 3 => rfl
  | _ + 4 => rfl

private theorem raises_shaded : Raises {} [shadedRaised 1 []] shaded (shadedRaised 3 ["Base"]) :=
  ⟨rfl, ⟨_, rfl, by decide⟩, by decide, rfl⟩

/-- A declaration of the base has the type that is written there. -/
private theorem ty_of_declaredBy_base {f : Field} {a : Assignment} {ty : Ty}
    (h : DeclaredBy {} (shadedRaised 1 []).found f a ty) :
    f.name = "x" ∧ ty = .named "builtins.int" ∨ f.name = "y" ∧ ty = .named "builtins.str" := by
  obtain ⟨hmem, hty, x, -, rfl⟩ := h
  rcases hmem with _ | ⟨_, _ | ⟨_, hnil⟩⟩
  · cases hty
    exact .inl ⟨rfl, rfl⟩
  · cases hty
    exact .inr ⟨rfl, rfl⟩
  · cases hnil

theorem parameters_typed_leaf : ∃ d init, (run {} shaded 3).registry.get? 3 = some d ∧
    Constructor d init ∧
    (init.parameter? "x").map Parameter.declaredTy = some (some (.named "builtins.bool")) ∧
    (init.parameter? "y").map Parameter.declaredTy = some (some (.named "builtins.str")) := by
  have orderly : ∀ a ∈ [shadedRaised 3 ["Base"], shadedRaised 1 []], Orderly a.found := by
    intro a ha
    rcases ha with _ | ⟨_, _ | ⟨_, hnil⟩⟩
    · exact Untouched.orderly (c := shadedClass 3) ⟨rfl, by unfold Unbound; decide⟩ (by decide)
    · exact Untouched.orderly (c := shadedClass 1) ⟨rfl, by unfold Unbound; decide⟩ (by decide)
    · cases hnil
  obtain ⟨d, init, hd, hconstructor, h⟩ :=
    parameters_typed built_shaded raises_shaded orderly (by decide) (by decide)
  have first : ∀ f ∈ (shadedRaised 1 []).answer.fields,
      FirstDeclares {} [shadedRaised 3 ["Base"], shadedRaised 1 []] [3, 2, 1, 0] f [3, 2]
        (shadedRaised 1 []) :=
    fun f hf => ⟨by simp, ⟨[0], rfl⟩, by revert f; decide, by revert f; decide⟩
  refine ⟨d, init, hd, hconstructor, ?_, ?_⟩
  · obtain ⟨a, ty, -, hx⟩ := h { name := "x", position := ⟨2, 4⟩ } (by decide) rfl rfl (by decide)
      [3, 2] _ (first _ (by decide))
    rw [hx]
    rfl
  · obtain ⟨a, ty, hdeclared, hy⟩ := h { name := "y", hasDefault := true, position := ⟨3, 4⟩ }
      (by decide) rfl rfl (by decide) [3, 2] _ (first _ (by decide))
    obtain ⟨hname, -⟩ | ⟨-, rfl⟩ := ty_of_declaredBy_base hdeclared
    · exact absurd hname (by decide)
    · rw [hy]
      rfl

/-- The class that is no data holder types the parameter of the field of the base: no statement of
any class has both the description of the field and the type of its parameter. -/
theorem not_typed_leaf : ∃ d init f, (run {} shaded 3).registry.get? 3 = some d ∧
    d.members.get? "__init__" = some { symbol := .method init, generated := true } ∧
    Built {} [shadedRaised 1 []] shaded ∧
    Raises {} [shadedRaised 1 []] shaded (shadedRaised 3 ["Base"]) ∧
    f ∈ (shadedRaised 3 ["Base"]).answer.fields ∧ f.inInit = true ∧ f.initOnly = false ∧
    ¬ ∃ id a ty, DeclaredBy {} (shadedClass id).bind f a ty ∧
      init.parameter? f.name = some (f.toParameter ty) := by
  refine ⟨_, _, { name := "x", position := ⟨2, 4⟩ }, rfl, rfl, built_shaded, raises_shaded,
    by decide, rfl, rfl, ?_⟩
  rintro ⟨id, a, ty, hdeclared, htyped⟩
  have hshown : ty = .named "builtins.bool" :=
    Option.some.inj (congrArg Parameter.declaredTy (Option.some.inj htyped)).symm
  match id with
  | 1 =>
    obtain ⟨-, hty⟩ | ⟨hname, -⟩ := ty_of_declaredBy_base hdeclared
    · rw [hshown] at hty
      exact absurd hty (by decide)
    · exact absurd hname (by decide)
  | 2 =>
    -- The statement of this class stands elsewhere.
    obtain ⟨hmem, -, x, -, hf⟩ := hdeclared
    have hposition : a.position = ⟨2, 4⟩ := congrArg Field.position hf
    rcases hmem with _ | ⟨_, hnil⟩
    · exact absurd hposition (by decide)
    · cases hnil
  | 0 | 3 | _ + 4 => cases hdeclared.statement

end Provenance

end Synthesis

end DataHolder
