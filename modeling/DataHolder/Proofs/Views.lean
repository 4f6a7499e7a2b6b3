import DataHolder.Proofs.Outcome

/-!
# What a run sees

Of the other classes a run sees three things: their records, the constructors of those whose
records have fields for the constructor alone, and what they show under the names of the merged
fields. Registries that agree on these let a run do the same, and the body of a class counts for
nothing once it was read.
-/

namespace DataHolder

/-- A class without its body. -/
def ClassDecl.outline (c : ClassDecl) : ClassDecl := { c with body := [] }

namespace Synthesis

/-- What a class shows under a name to the classes below it. -/
def shown? (r : Registry) (id : ClassId) (name : String) : Option Symbol :=
  (r.get? id).bind fun c => visible (c.members.get? name)

theorem declared?_eq {r : Registry} {id : ClassId} {c : ClassDecl} (registered : r.get? id = some c)
    (name : String) : declared? r id name = c.mro.findSome? fun a => shown? r a name := by
  rw [declared?, Registry.searchMro, registered]
  rfl

/-! ## Fields -/

section Fields

variable {r q : Registry} {id : ClassId} {c d : ClassDecl} {name : String}

/-- A name resolves to the same where the linearized ancestors show the same under it. -/
theorem declared?_congr (hr : r.get? id = some c) (hq : q.get? id = some d) (mro : d.mro = c.mro)
    (same : ∀ a ∈ c.mro, shown? q a name = shown? r a name) :
    declared? q id name = declared? r id name := by
  rw [declared?_eq hr, declared?_eq hq, mro]
  exact findSome?_congr same

theorem fieldTy?_congr (h : declared? q id name = declared? r id name) :
    fieldTy? q id name = fieldTy? r id name := by
  rw [fieldTy?, fieldTy?, h]

theorem waitsFor?_congr {f : Field} (h : declared? q id f.name = declared? r id f.name) :
    waitsFor? q id f = waitsFor? r id f := by
  rw [waitsFor?, waitsFor?, h]

theorem unresolved?_congr {fields : List Field}
    (h : ∀ f ∈ fields, declared? q id f.name = declared? r id f.name) :
    unresolved? q id fields = unresolved? r id fields :=
  findSome?_congr fun f hf => waitsFor?_congr (h f hf)

theorem initParameters_congr {fields : List MergedField}
    (h : ∀ f ∈ fields, declared? q id f.name = declared? r id f.name) :
    initParameters q id fields = initParameters r id fields := by
  apply List.map_congr_left
  intro f hf
  rw [parameterTy, parameterTy, fieldTy?_congr (h f (List.mem_filter.mp hf).1)]

theorem foldl_mark_congr (ty ty' : String → Ty) {owner : String} {frozen : Bool} {t : Table Member}
    {fields : List Field} (h : ∀ f ∈ fields, ty' f.name = ty f.name) :
    fields.foldl (ClassDecl.mark owner ty' frozen) t =
      fields.foldl (ClassDecl.mark owner ty frozen) t := by
  apply List.foldl_ext
  intro t f hf
  have hmarked : ∀ old, ClassDecl.marked? owner ty' frozen f old =
      ClassDecl.marked? owner ty frozen f old := by
    intro old
    rcases old with _ | ⟨symbol, generated⟩
    · simp only [ClassDecl.marked?, h f hf]
    · cases symbol <;> simp only [ClassDecl.marked?, h f hf]
  rw [ClassDecl.mark, ClassDecl.mark, hmarked]

end Fields

/-! ## Records -/

section Records

variable {v : Vocabulary} {r q : Registry} {a : ClassId}

/-- The constructor of a class has the same parameters where the same `__init__` is found. -/
theorem constructorTy?_congr (mro : (q.get? a).map ClassDecl.mro = (r.get? a).map ClassDecl.mro)
    (same : ∀ c, r.get? a = some c → ∀ b ∈ c.mro,
      ((q.get? b).bind fun d => d.members.get? "__init__") =
        (r.get? b).bind fun d => d.members.get? "__init__") (name : String) :
    constructorTy? q a name = constructorTy? r a name := by
  have hlookup : q.lookup a "__init__" = r.lookup a "__init__" := by
    rw [Registry.lookup, Registry.lookup, Registry.searchMro, Registry.searchMro]
    cases hr : r.get? a with
    | none =>
      rw [hr, Option.map_none, Option.map_eq_none_iff] at mro
      rw [mro]
      rfl
    | some c =>
      rw [hr, Option.map_some] at mro
      obtain ⟨d, hd, hmro⟩ := Option.map_eq_some_iff.mp mro
      rw [hd, Option.bind_some, Option.bind_some, hmro]
      exact findSome?_congr (same c hr)
  rw [constructorTy?, constructorTy?, Registry.lookupMethod, Registry.lookupMethod, hlookup]

/-- What a class is to the classes that may inherit its fields: its name, the fields that it has
recorded, and whether it is a data holder. -/
def face (v : Vocabulary) (c : ClassDecl) : String × Except Failure (Option (List Field)) × Bool :=
  (c.fullname, (c.record? v.recordKey).map (Option.map Record.fields), v.isDataHolder c)

/-- A class contributes the same where its face is the same, and the types that are recovered from
its constructor. -/
theorem contribution?_congr (faces : (q.get? a).map (face v) = (r.get? a).map (face v))
    (recovered : ∀ c record, r.get? a = some c → c.record? v.recordKey = .ok (some record) →
      ∀ f ∈ record.fields, f.initOnly = true →
        constructorTy? q a f.name = constructorTy? r a f.name) :
    contribution? v q a = contribution? v r a := by
  rw [contribution?, contribution?]
  cases hr : r.get? a with
  | none =>
    rw [hr, Option.map_none, Option.map_eq_none_iff] at faces
    rw [faces]
  | some c =>
    rw [hr, Option.map_some] at faces
    obtain ⟨d, hd, he⟩ := Option.map_eq_some_iff.mp faces
    obtain ⟨hfullname, hrecord, hholder⟩ :
        d.fullname = c.fullname ∧
        (d.record? v.recordKey).map (Option.map Record.fields) =
          (c.record? v.recordKey).map (Option.map Record.fields) ∧
        v.isDataHolder d = v.isDataHolder c := by simpa [face] using he
    rw [hd]
    dsimp only
    rw [hholder, hfullname]
    cases hfound : c.record? v.recordKey with
    | error failure =>
      rw [hfound] at hrecord
      cases hother : d.record? v.recordKey with
      | error failure' =>
        rw [hother] at hrecord
        cases hrecord
        rfl
      | ok found =>
        rw [hother] at hrecord
        cases hrecord
    | ok found =>
      rw [hfound] at hrecord
      cases hother : d.record? v.recordKey with
      | error failure =>
        rw [hother] at hrecord
        cases hrecord
      | ok found' =>
        rw [hother] at hrecord
        have hfields : found'.map Record.fields = found.map Record.fields := Except.ok.inj hrecord
        cases found with
        | none =>
          rw [Option.map_none, Option.map_eq_none_iff] at hfields
          rw [hfields]
        | some record =>
          obtain ⟨record', rfl, hsame⟩ := Option.map_eq_some_iff.mp hfields
          have hinherit : record'.fields.map (inherit q a) = record.fields.map (inherit r a) := by
            rw [hsame]
            apply List.map_congr_left
            intro f hf
            rw [inherit, inherit]
            cases hinit : f.initOnly with
            | false => rfl
            | true => rw [if_pos rfl, if_pos rfl, recovered c record hr hfound f hf hinit]
          dsimp only
          rw [hinherit]

theorem contributions_congr {ids : List ClassId}
    (h : ∀ a ∈ ids, contribution? v q a = contribution? v r a) :
    contributions v q ids = contributions v r ids := by
  induction ids with
  | nil => rfl
  | cons a ids ih =>
    rw [contributions_cons, contributions_cons, h a List.mem_cons_self,
      ih fun b hb => h b (List.mem_cons_of_mem _ hb)]

theorem gather_congr {mro : List ClassId} {own : Except Deferral (List Field)}
    (h : ∀ a ∈ interior mro, contribution? v q a = contribution? v r a) :
    gather v q mro own = gather v r mro own := by
  unfold gather
  rw [contributions_congr h]

end Records

/-! ## Completing -/

section Complete

variable (v : Vocabulary) (r : Registry) (id : ClassId) (c : ClassDecl) (m : Collection)

/-- The class that completing leaves. -/
def left : ClassDecl := finished v r id m.plain (extended v r id m c.clearGenerated)

/-- The body that completing leaves, when it starts from this one. -/
def bodyLeft (body : List Statement) : List Statement :=
  let k := c.clearGenerated
  let flags := Flags.ofDecorator (v.decorator? k)
  let added := additions v flags (initParameters (r.set id k) id m.fields) (!m.plain.isEmpty) k
  (body.filter (stays c.generatedMethods) ++ Draft.statementsOf added).map
    (unbind (initOnlyNames m.plain))

theorem registry_complete : (complete v r id c m).registry = r.set id (left v r id c m) := by
  rw [complete_eq]
  rfl

variable {r id c m}

/-- Completing does the same wherever the linearized ancestors show the same under the names of the
fields, and whatever the body is. -/
theorem complete_congr {q : Registry} (hr : id < r.size) (hq : id < q.size)
    (same : ∀ a ∈ c.mro, a ≠ id → ∀ f ∈ m.plain, shown? q a f.name = shown? r a f.name)
    (body : List Statement) :
    complete v q id { c with body } m =
      { complete v r id c m with
        registry := q.set id { left v r id c m with body := bodyLeft v r id c m body } } := by
  have hdeclared : ∀ (k : ClassDecl) (b : List Statement), k.mro = c.mro → ∀ f ∈ m.plain,
      declared? (q.set id { k with body := b }) id f.name =
        declared? (r.set id k) id f.name := by
    intro k b hk f hf
    refine declared?_congr (Registry.get?_set_self r id k hr)
      (Registry.get?_set_self q id { k with body := b } hq) rfl ?_
    intro a ha
    by_cases he : a = id
    · subst he
      rw [shown?, shown?, Registry.get?_set_self _ _ _ hr, Registry.get?_set_self _ _ _ hq]
      rfl
    · rw [shown?, shown?, Registry.get?_set_ne _ _ (Ne.symm he),
        Registry.get?_set_ne _ _ (Ne.symm he)]
      exact same a (hk ▸ ha) he f hf
  have hparameters : ∀ b,
      initParameters (q.set id { c.clearGenerated with body := b }) id m.fields =
        initParameters (r.set id c.clearGenerated) id m.fields := by
    intro b
    apply initParameters_congr
    intro f hf
    exact hdeclared c.clearGenerated b rfl f.field (List.mem_map_of_mem hf)
  have hextended : ∀ b, extended v q id m { c.clearGenerated with body := b } =
      { extended v r id m c.clearGenerated with
        body := b ++ Draft.statementsOf (additions v
          (Flags.ofDecorator (v.decorator? c.clearGenerated))
          (initParameters (r.set id c.clearGenerated) id m.fields) (!m.plain.isEmpty)
          c.clearGenerated) } := by
    intro b
    rw [extended, hparameters]
    rfl
  have hfinished : ∀ b, finished v q id m.plain
      { extended v r id m c.clearGenerated with body := b } =
        { left v r id c m with body := b.map (unbind (initOnlyNames m.plain)) } := by
    intro b
    rw [finished, foldl_mark_congr fun name =>
      (fieldTy? (r.set id (extended v r id m c.clearGenerated)) id name).getD .any]
    · rfl
    · intro f hf
      dsimp only
      rw [fieldTy?_congr (hdeclared (extended v r id m c.clearGenerated) b rfl f
        (List.mem_filter.mp hf).1)]
  have hcleared : ({ c with body } : ClassDecl).clearGenerated =
      { c.clearGenerated with body := body.filter (stays c.generatedMethods) } := rfl
  rw [complete_eq, complete_eq, hcleared]
  simp only [hparameters, hextended, hfinished]
  rfl

end Complete

/-! ## Running -/

section Running

variable (v : Vocabulary) {r : Registry} {id : ClassId} {old : ClassDecl}

/-- What a class collects does not depend on its body, once that was read. -/
theorem collect_body_congr (registered : r.get? id = some old) (c : ClassDecl)
    (body : List Statement) (own : Except Deferral (List Field)) :
    collect v (r.set id { c with body }) id c.mro own = collect v (r.set id c) id c.mro own := by
  have hget := Registry.get?_set registered
  have hsame : ∀ {α : Type} (f : ClassDecl → α), f { c with body } = f c → ∀ a,
      ((r.set id { c with body }).get? a).map f = ((r.set id c).get? a).map f := by
    intro α f hf a
    rw [hget, hget]
    split
    · rw [Option.map_some, Option.map_some, hf]
    · rfl
  have hgather : gather v (r.set id { c with body }) c.mro own =
      gather v (r.set id c) c.mro own := by
    apply gather_congr
    intro a _
    apply contribution?_congr (hsame (face v) rfl a)
    intro _ _ _ _ f _ _
    apply constructorTy?_congr (hsame ClassDecl.mro rfl a)
    intro _ _ b _
    rw [hget, hget]
    split <;> rfl
  have hwaits : ∀ fields, unresolved? (r.set id { c with body }) id fields =
      unresolved? (r.set id c) id fields := by
    intro fields
    apply unresolved?_congr
    intro f _
    apply declared?_congr (c := c) (d := { c with body })
    · rw [hget, if_pos rfl]
    · rw [hget, if_pos rfl]
    · rfl
    · intro a _
      rw [shown?, shown?, hget, hget]
      split <;> rfl
  rw [collect, collect, hgather]
  simp only [hwaits]

/-- Of the body of a class a run sees what it reads there: with another body that it reads alike, it
answers and reports the same, and leaves the same class up to the body. -/
theorem run_body_congr (registered : r.get? id = some old) (c : ClassDecl) (body : List Statement)
    (same : readBody v body c.members = readBody v c.body c.members) :
    (run v (r.set id { c with body }) id).result = (run v (r.set id c) id).result ∧
      (run v (r.set id { c with body }) id).log = (run v (r.set id c) id).log ∧
      ((run v (r.set id { c with body }) id).registry.get? id).map ClassDecl.outline =
        ((run v (r.set id c) id).registry.get? id).map ClassDecl.outline := by
  have hget := Registry.get?_set registered
  have hself : ∀ d, (r.set id d).get? id = some d := fun d => by rw [hget, if_pos rfl]
  have hread : readClass v { c with body } = { readClass v c with body } := by
    rw [readClass, readClass, same]
  have hcollect : collect v (r.set id { readClass v c with body }) id c.mro
        (readBody v c.body c.members).2 =
      collect v (r.set id (readClass v c)) id c.mro (readBody v c.body c.members).2 :=
    collect_body_congr v registered (readClass v c) body _
  rw [run_of_get? v (hself _), run_of_get? v (hself _), Registry.set_set, Registry.set_set, hread]
  dsimp only
  rw [same, hcollect]
  cases collect v (r.set id (readClass v c)) id c.mro (readBody v c.body c.members).2 with
  | error halt =>
    refine ⟨rfl, rfl, ?_⟩
    dsimp only
    rw [hself, hself]
    rfl
  | ok m =>
    have hsize : ∀ d, id < (r.set id d).size := fun d => Registry.lt_size_of_get? (hself d)
    have hshown : ∀ a ∈ (readClass v c).mro, a ≠ id → ∀ f ∈ m.plain,
        shown? (r.set id { readClass v c with body }) a f.name =
          shown? (r.set id (readClass v c)) a f.name := by
      intro a _ ha f _
      rw [shown?, shown?, hget, hget, if_neg (Ne.symm ha), if_neg (Ne.symm ha)]
    dsimp only
    rw [complete_congr v (hsize (readClass v c)) (hsize { readClass v c with body }) hshown body]
    refine ⟨rfl, rfl, ?_⟩
    dsimp only
    rw [registry_complete, Registry.get?_set_self _ _ _ (hsize _),
      Registry.get?_set_self _ _ _ (hsize _)]
    rfl

end Running

end Synthesis

end DataHolder
