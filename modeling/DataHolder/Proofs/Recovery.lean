import DataHolder.Proofs.Lineage
import DataHolder.Proofs.Provenance

/-!
# Types that are handed down by constructors

An instance does not keep a constructor-only field, so its variable is gone once the class that
declares it was run. What still has the type is the parameter of the constructor, and a class below
takes it from the first constructor that it finds above. On a single line that constructor is the
one of the class that declares the field, or goes back to it, as long as this class generates one.
Where it does not, the search goes on to the constructors above, of which none knows the
declaration.
-/

namespace DataHolder

namespace Synthesis

/-! ## Whether a constructor is generated -/

section Generated

variable {v : Vocabulary} {r : Registry} {id : ClassId} {c : ClassDecl} {m : Collection}
  {init : Method}

/-- A generated constructor stands in the table, unless a field has its name. -/
theorem get?_init_completed (apart : v.selfTypeVar ≠ "__init__")
    (foreign : "__init__" ∉ m.plain.map Field.name)
    (h : ("__init__", .method init) ∈ added v r id c m) :
    (completed v r id c m).members.get? "__init__" =
      some { symbol := .method init, generated := true } := by
  have hmem : "__init__" ∈ (added v r id c m).map Prod.fst := List.mem_map_of_mem h
  obtain ⟨init', hconstructor, h'⟩ := exists_constructor apart hmem
  obtain ⟨symbol, hadded, hdraft⟩ := get?_draft_of_mem hmem
  have hsame : ∀ f, ("__init__", Symbol.method f) ∈ added v r id c m → f = init := by
    intro f hf
    rw [eq_of_method_mem_additions _ _ _ _ _ hf, eq_of_method_mem_additions _ _ _ _ _ h]
  rcases of_mem_additions _ _ _ _ _ hadded with ⟨-, f, hf⟩ | ⟨hname, -⟩
  · obtain rfl : symbol = .method f := hf
    rw [get?_completed_of_not_mem v r id c m foreign, hdraft, hsame f hadded]
  · exact absurd hname.symm apart

/-- Where no constructor was written and none is generated, the class has none, unless a field has
its name. -/
theorem get?_init_completed_eq_none (foreign : "__init__" ∉ m.plain.map Field.name)
    (unwritten : c.written? "__init__" = none)
    (h : "__init__" ∉ (added v r id c m).map Prod.fst) :
    (completed v r id c m).members.get? "__init__" = none := by
  have hread := isSome_written?_readClass v c "__init__"
  rw [unwritten, Option.isSome_none, Option.isSome_eq_false_iff, Option.isNone_iff_eq_none] at hread
  rw [get?_completed_of_not_mem v r id c m foreign, get?_draft_of_not_mem h, hread]

end Generated

/-! ## The constructor that a line of classes has -/

/-- The type of a parameter of the first constructor among some classes. -/
def firstTy? (r : Registry) (ids : List ClassId) (name : String) : Option Ty :=
  ((ids.findSome? fun a => (r.get? a).bind fun c => c.members.get? "__init__").bind
    fun m => m.symbol.method?).bind fun init =>
      (init.parameter? name).bind fun p => p.var.ty.ty?

theorem constructorTy?_eq {r : Registry} {id : ClassId} {c : ClassDecl}
    (registered : r.get? id = some c) (name : String) :
    constructorTy? r id name = firstTy? r c.mro name := by
  rw [constructorTy?, Registry.lookupMethod, Registry.lookup, Registry.searchMro, registered]
  rfl

theorem firstTy?_congr {r q : Registry} {ids : List ClassId}
    (same : ∀ a ∈ ids, q.get? a = r.get? a) (name : String) :
    firstTy? q ids name = firstTy? r ids name := by
  rw [firstTy?, firstTy?]
  have hfirst := findSome?_congr fun a ha =>
    congrArg (fun d : Option ClassDecl => d.bind fun c => c.members.get? "__init__") (same a ha)
  rw [hfirst]

theorem firstTy?_cons_of_none {r : Registry} {id : ClassId} {c : ClassDecl} {ids : List ClassId}
    (registered : r.get? id = some c) (none : c.members.get? "__init__" = none) (name : String) :
    firstTy? r (id :: ids) name = firstTy? r ids name := by
  rw [firstTy?, List.findSome?_cons, registered, Option.bind_some, none]
  rfl

theorem firstTy?_cons_of_method {r : Registry} {id : ClassId} {c : ClassDecl} {ids : List ClassId}
    {init : Method} {generated : Bool} (registered : r.get? id = some c)
    (found : c.members.get? "__init__" = some { symbol := .method init, generated })
    (name : String) :
    firstTy? r (id :: ids) name = (init.parameter? name).bind fun p => p.var.ty.ty? := by
  rw [firstTy?, List.findSome?_cons, registered, Option.bind_some, found]
  rfl

/-- No class of a line has a constructor that a user has written. -/
structure InitFree (v : Vocabulary) (ids : List ClassId) (up : List Raised) (r : Registry) :
    Prop where
  holders : ∀ e ∈ up, e.found.written? "__init__" = none ∧
    "__init__" ∉ (declarations e.found.body).map fun a => a.target.name
  others : ∀ id ∈ ids, ∀ c, r.get? id = some c → v.isDataHolder c = false →
    c.members.get? "__init__" = none

section Line

variable {v : Vocabulary} {ids : List ClassId} {up : List Raised} {r : Registry} {e : Raised}

/-- A part of a line has no written constructor either. -/
theorem InitFree.part (later : List Raised) {above : List Raised} {ids' : List ClassId}
    {q : Registry} (free : InitFree v ids (later ++ above) r) (sub : ids' ⊆ ids)
    (same : ∀ a ∈ ids', r.get? a = q.get? a) : InitFree v ids' above q :=
  ⟨fun a ha => free.holders a (List.mem_append_right _ ha),
    fun a ha c hc => free.others a (sub ha) c (same a ha ▸ hc)⟩

namespace Lineage

/-- A data holder of a line has its linearized ancestors there. -/
theorem exists_mro (line : Lineage v ids up r) (mem : e ∈ up) :
    ∃ c, r.get? e.id = some c ∧ c.mro ⊆ ids := by
  obtain ⟨later, before, rfl⟩ := List.append_of_mem mem
  obtain ⟨above, q, -, next, hsuffix, hsame⟩ := line.part later
  obtain ⟨m, -, -, -, hget, -⟩ := next.exists_completed
  refine ⟨_, (hsame _ List.mem_cons_self).trans hget, ?_⟩
  rw [mro_completed, next.mro]
  exact hsuffix.subset

/-- The constructors of a line are the same where its classes are. -/
theorem constructorTy?_same (line : Lineage v ids up r) (mem : e ∈ up) {q : Registry}
    (same : ∀ a ∈ ids, q.get? a = r.get? a) (name : String) :
    constructorTy? q e.id name = constructorTy? r e.id name := by
  obtain ⟨c, hc, hmro⟩ := line.exists_mro mem
  have hself : e.id ∈ ids := by
    have hids := line.ids_eq ▸ List.mem_map_of_mem (f := Raised.id) mem
    exact (List.mem_filter.mp hids).1
  rw [constructorTy?_eq hc, constructorTy?_eq ((same _ hself).trans hc)]
  exact firstTy?_congr (fun a ha => same a (hmro ha)) name

/-- From a line on, the first constructor is that of the nearest data holder, or goes further up
with it. -/
theorem firstTy?_eq (line : Lineage v ids up r) (free : InitFree v ids up r) (name : String) :
    firstTy? r ids name = up.head?.bind fun a => constructorTy? r a.id name := by
  induction line with
  | root registered _ other =>
    rw [firstTy?_cons_of_none registered
      (free.others _ List.mem_cons_self _ registered other)]
    rfl
  | @change ids up r r' line kept ih =>
    have hfree : InitFree v ids up r := free.part [] (List.Subset.refl _) kept
    rw [firstTy?_congr kept, ih hfree]
    cases up with
    | nil => rfl
    | cons a up =>
      exact (line.constructorTy?_same List.mem_cons_self kept name).symm
  | plain _ registered _ other _ ih =>
    rw [firstTy?_cons_of_none registered
      (free.others _ List.mem_cons_self _ registered other)]
    exact ih (free.part [] (List.subset_cons_self _ _) fun _ _ => rfl)
  | @run ids up r e line next ih =>
    obtain ⟨m, -, -, -, hget, -⟩ := next.exists_completed
    rw [List.head?_cons, Option.bind_some, constructorTy?_eq hget, mro_completed, next.mro]

end Lineage

end Line

/-! ## A field that comes down -/

/-- The only field of its name. -/
structure Sole (fields : List Field) (f : Field) : Prop where
  mem : f ∈ fields
  only : ∀ g ∈ fields, g.name = f.name → g = f

/-- A name that occurs once belongs to one element. -/
private theorem eq_of_count_le_one {α : Type} {name : α → String} {l : List α} {a b : α}
    (once : (l.map name).count (name a) ≤ 1) (ha : a ∈ l) (hb : b ∈ l) (same : name b = name a) :
    b = a := by
  have hmem : b ∈ l.filter fun c => name c == name a :=
    List.mem_filter.mpr ⟨hb, by simpa using same⟩
  rw [filter_name_of_once once ha] at hmem
  exact List.mem_singleton.mp hmem

theorem Sole.find? {fields : List Field} {f : Field} (sole : Sole fields f) :
    (fields.find? fun g => g.name == f.name) = some f :=
  find?_name_of_only sole.mem sole.only

/-- The only field of its name is recorded. -/
theorem Sole.recorded {fields : List Field} {f : Field} (sole : Sole fields f) (frozen : Bool) :
    Sole (Record.ofFields fields frozen).fields f := by
  have hsub := Record.fields_ofFields_subset fields frozen
  have hname : f.name ∈ (Record.ofFields fields frozen).fields.map Field.name := by
    rw [Record.names_ofFields, List.mem_eraseDups]
    exact List.mem_map_of_mem sole.mem
  obtain ⟨g, hg, he⟩ := List.mem_map.mp hname
  exact ⟨sole.only g (hsub hg) he ▸ hg, fun g hg => sole.only g (hsub hg)⟩

section Fields

variable {v : Vocabulary} {ids : List ClassId} {up : List Raised} {r : Registry} {e : Raised}
  {f : Field} {ty : Ty}

namespace Lineage

/-- A class has the names that it declares itself, and those of the data holders above. -/
theorem mem_names_iff (line : Lineage v ids up r) (next : Joins v ids r e) {name : String} :
    name ∈ e.answer.fields.map Field.name ↔
      name ∈ fieldNames e.found ∨ ∃ a ∈ up, name ∈ a.answer.fields.map Field.name := by
  obtain ⟨m, -, hfields, hmerged⟩ := line.exists_merged next
  have hrecorded : ∀ q, ∀ a : Raised, name ∈ (a.contribution q).fields.map MergedField.name ↔
      name ∈ a.answer.fields.map Field.name := by
    intro q a
    rw [Raised.contribution, List.map_map,
      show MergedField.name ∘ inherit q a.id = Field.name from rfl, Record.names_ofFields,
      List.mem_eraseDups]
  have hnames : e.answer.fields.map Field.name = m.fields.map MergedField.name := by
    rw [hfields, Collection.plain, List.map_map]
    rfl
  rw [hnames, hmerged, mem_names_merge_iff, names_ofOwn, (line.raises next).names_own]
  apply or_congr_right
  constructor
  · rintro ⟨record, hrecord, h⟩
    obtain ⟨a, ha, rfl⟩ := List.mem_map.mp hrecord
    exact ⟨a, ha, (hrecorded _ a).mp h⟩
  · rintro ⟨a, ha, h⟩
    exact ⟨_, List.mem_map_of_mem ha, (hrecorded _ a).mpr h⟩

/-- No field is named like the constructor where no class declares it. -/
theorem init_not_mem_names (line : Lineage v ids up r) (free : InitFree v ids up r) :
    ∀ a ∈ up, "__init__" ∉ a.answer.fields.map Field.name := by
  induction line with
  | root => nofun
  | change _ kept ih => exact ih (free.part [] (List.Subset.refl _) kept)
  | plain _ _ _ _ _ ih => exact ih (free.part [] (List.subset_cons_self _ _) fun _ _ => rfl)
  | @run ids up r e line next ih =>
    have hbefore := ih (free.part [e] (List.subset_cons_self _ _) (line.get?_run_of_mem next))
    intro a ha
    rcases List.mem_cons.mp ha with rfl | ha
    · rw [line.mem_names_iff next, mem_fieldNames]
      rintro (⟨hdeclared, -⟩ | ⟨b, hb, hmem⟩)
      · exact (free.holders a List.mem_cons_self).2 hdeclared
      · exact hbefore b hb hmem
    · exact hbefore a ha

end Lineage

/-- The field of a class as its run has merged it, the only one of its name. -/
structure MergesAlone (m : Collection) (g : MergedField) : Prop where
  mem : g ∈ m.fields
  only : ∀ f ∈ m.fields, f.name = g.name → f = g

theorem MergesAlone.sole {m : Collection} {g : MergedField} (alone : MergesAlone m g) :
    Sole m.plain g.field := by
  refine ⟨List.mem_map_of_mem alone.mem, ?_⟩
  intro f hf same
  obtain ⟨f', hf', rfl⟩ := List.mem_map.mp hf
  rw [alone.only f' hf' same]

/-- A class that does not declare a field inherits it from the nearest data holder above, with the
type that it recovers from there. -/
theorem Lineage.mergesAlone_inherited {a : Raised} (line : Lineage v ids (a :: up) r)
    (next : Joins v ids r e) (sole : Sole a.answer.fields f) (foreign : f.name ∉ fieldNames e.found)
    {m : Collection}
    (merged : m.fields = merge ((e.own v).map ofOwn) ((a :: up).map fun b =>
      (b.contribution (r.set e.id (readClass v e.found))).fields)) :
    MergesAlone m (inherit (r.set e.id (readClass v e.found)) a.id f) := by
  have hown : f.name ∉ ((e.own v).map ofOwn).map MergedField.name := by
    rwa [names_ofOwn, (line.raises next).names_own]
  have hfind : (m.fields.find? fun g => g.name == f.name) =
      some (inherit (r.set e.id (readClass v e.found)) a.id f) := by
    have hnone : (((e.own v).map ofOwn).find? fun g => g.name == f.name) = none :=
      List.find?_eq_none.mpr fun g hg he => hown (beq_iff_eq.mp he ▸ List.mem_map_of_mem hg)
    rw [merged, find?_merge, List.find?_append, hnone, Option.none_or, List.map_cons,
      List.flatten_cons, List.find?_append, Raised.contribution, List.find?_map]
    show (((Record.ofFields a.answer.fields _).fields.find? fun g => g.name == f.name).map _).or _ =
      _
    rw [(sole.recorded _).find?]
    rfl
  have hmem := List.mem_of_find?_eq_some hfind
  refine ⟨hmem, fun g hg same => eq_of_count_le_one ?_ hmem hg same⟩
  -- The names of the class itself do not matter here, so the name occurs only once.
  rw [merged, count_merge]
  have hzero := List.count_eq_zero.mpr hown
  rw [show (inherit (r.set e.id (readClass v e.found)) a.id f).name = f.name from rfl, hzero]
  split <;> omega

/-- The parameter of a generated constructor for a field that is alone under its name, and what is
recovered from it. -/
theorem Joins.parameter_of_generated (next : Joins v ids r e) (apart : v.selfTypeVar ≠ "__init__")
    (foreign : "__init__" ∉ e.answer.fields.map Field.name)
    (generated : "__init__" ∈ e.answer.generated) :
    ∃ m d init,
      collect v (r.set e.id (readClass v e.found)) e.id e.found.mro (.ok (e.own v)) = .ok m ∧
      (run v r e.id).registry.get? e.id = some d ∧ Constructor d init ∧
      ∀ g, MergesAlone m g → g.field.inInit = true →
        init.parameter? g.name = some (g.field.toParameter (parameterTy (typing v r e) e.id g)) ∧
        constructorTy? (run v r e.id).registry e.id g.name =
          some (parameterTy (typing v r e) e.id g) := by
  obtain ⟨m, -, hm, hanswer, hget, -⟩ := next.exists_completed
  rw [hanswer] at generated foreign
  obtain ⟨init, hconstructor, hadded⟩ := exists_constructor apart generated
  refine ⟨m, _, init, hm, hget, hconstructor, ?_⟩
  intro g alone taken
  have hparameter : init.parameter? g.name =
      some (g.field.toParameter (parameterTy (typing v r e) e.id g)) := by
    rw [Method.parameter?, parameters_of_added hadded]
    exact find?_initParameters alone.mem alone.only taken
  refine ⟨hparameter, ?_⟩
  rw [constructorTy?_eq hget, mro_completed, next.mro,
    firstTy?_cons_of_method hget (get?_init_completed apart foreign hadded), hparameter]
  rfl

/-- Without a constructor of its own a class has that of the nearest data holder above. -/
theorem Lineage.constructorTy?_of_not_generated (line : Lineage v ids up r) (next : Joins v ids r e)
    (free : InitFree v (e.id :: ids) (e :: up) (Synthesis.run v r e.id).registry)
    (generated : "__init__" ∉ e.answer.generated) (name : String) :
    constructorTy? (Synthesis.run v r e.id).registry e.id name =
      up.head?.bind fun a => constructorTy? (Synthesis.run v r e.id).registry a.id name := by
  obtain ⟨m, -, -, hanswer, hget, -⟩ := next.exists_completed
  have hforeign : "__init__" ∉ e.answer.fields.map Field.name :=
    (line.run next).init_not_mem_names free e List.mem_cons_self
  rw [hanswer] at generated hforeign
  have hnone : (completed v r e.id e.found m).members.get? "__init__" = none :=
    get?_init_completed_eq_none hforeign (free.holders e List.mem_cons_self).1 generated
  have hfree : InitFree v ids up (Synthesis.run v r e.id).registry :=
    free.part [e] (List.subset_cons_self _ _) fun _ _ => rfl
  rw [constructorTy?_eq hget, mro_completed, next.mro, firstTy?_cons_of_none hget hnone]
  exact (line.change (line.get?_run_of_mem next)).firstTy?_eq hfree name

/-- What is recovered of a constructor-only field from the nearest data holder above is recovered
from the next class as well, as long as it does not declare the field. -/
theorem Lineage.hands_down {a : Raised} (line : Lineage v ids (a :: up) r) (next : Joins v ids r e)
    (free : InitFree v (e.id :: ids) (e :: a :: up) (Synthesis.run v r e.id).registry)
    (apart : v.selfTypeVar ≠ "__init__") (sole : Sole a.answer.fields f)
    (initOnly : f.initOnly = true) (taken : f.inInit = true)
    (foreign : f.name ∉ fieldNames e.found) (known : constructorTy? r a.id f.name = some ty) :
    constructorTy? (Synthesis.run v r e.id).registry e.id f.name = some ty := by
  by_cases generated : "__init__" ∈ e.answer.generated
  · obtain ⟨m, hm, -, hmerged⟩ := line.exists_merged next
    have alone := line.mergesAlone_inherited next sole foreign hmerged
    have hty : parameterTy (typing v r e) e.id
        (inherit (r.set e.id (readClass v e.found)) a.id f) = ty := by
      rw [parameterTy, inherit, initOnly, if_pos rfl,
        line.constructorTy?_same List.mem_cons_self (line.get?_set_of_mem next _), known]
      rfl
    have hforeign := (line.run next).init_not_mem_names free e List.mem_cons_self
    obtain ⟨m', d, init, hm', -, -, hparameters⟩ :=
      next.parameter_of_generated apart hforeign generated
    obtain rfl : m = m' := Except.ok.inj (hm.symm.trans hm')
    exact hty ▸ (hparameters _ alone taken).2
  · rw [line.constructorTy?_of_not_generated next free generated, List.head?_cons,
      Option.bind_some, line.constructorTy?_same List.mem_cons_self (line.get?_run_of_mem next)]
    exact known

/-- Along a whole line, the last data holder has a field of one above as long as none in between
declares it, and what is recovered from the one above is recovered from the last one as well. -/
theorem Lineage.recovers (skip : List Raised) {above : List Raised} {a : Raised}
    (line : Lineage v ids (skip ++ a :: above) r)
    (free : InitFree v ids (skip ++ a :: above) r) (apart : v.selfTypeVar ≠ "__init__")
    (sole : Sole a.answer.fields f) (foreign : ∀ x ∈ skip, f.name ∉ fieldNames x.found) :
    ∃ x rest, skip ++ a :: above = x :: rest ∧ Sole x.answer.fields f ∧
      (f.initOnly = true → f.inInit = true → ∀ ty, constructorTy? r a.id f.name = some ty →
        constructorTy? r x.id f.name = some ty) := by
  induction skip generalizing ids r with
  | nil => exact ⟨a, above, rfl, sole, fun _ _ _ known => known⟩
  | cons x skip ih =>
    replace line : Lineage v ids (x :: (skip ++ a :: above)) r := line
    obtain ⟨ids', q, hline, hnext, hsub, habove, hsame⟩ := line.last
    have hfree : InitFree v (x.id :: ids') (x :: (skip ++ a :: above))
        (Synthesis.run v q x.id).registry := free.part [] hsub hsame
    have hself := (hline.run hnext).constructorTy?_same List.mem_cons_self hsame f.name
    have hfrom := hline.constructorTy?_same (List.mem_append_right _ List.mem_cons_self) habove
      f.name
    obtain ⟨y, rest, heq, hsole, hrecovers⟩ := ih hline
      (free.part [x] (List.subset_of_cons_subset hsub) habove)
      fun b hb => foreign b (List.mem_cons_of_mem _ hb)
    have hforeign := foreign x List.mem_cons_self
    rw [heq] at hline hfree
    refine ⟨x, _, rfl, ?_, ?_⟩
    · obtain ⟨m, -, hfields, hmerged⟩ := hline.exists_merged hnext
      exact hfields ▸ (hline.mergesAlone_inherited hnext hsole hforeign hmerged).sole
    · intro initOnly taken ty known
      rw [hself]
      exact hline.hands_down hnext hfree apart hsole initOnly taken hforeign
        (hrecovers initOnly taken ty (hfrom ▸ known))

/-- So the last data holder of a line, where its run generates a constructor, types the parameter of
the field with what is recovered from the one above. -/
theorem Lineage.typed_below (skip : List Raised) {above : List Raised} {a : Raised}
    (line : Lineage v ids (e :: (skip ++ a :: above)) r)
    (free : InitFree v ids (e :: (skip ++ a :: above)) r) (apart : v.selfTypeVar ≠ "__init__")
    (generated : "__init__" ∈ e.answer.generated) (sole : Sole a.answer.fields f)
    (foreign : ∀ x ∈ e :: skip, f.name ∉ fieldNames x.found) :
    Sole e.answer.fields f ∧
      ∃ d init, r.get? e.id = some d ∧ Constructor d init ∧
        (f.initOnly = true → f.inInit = true → ∀ ty, constructorTy? r a.id f.name = some ty →
          init.parameter? f.name = some (f.toParameter ty)) := by
  obtain ⟨ids', q, hline, hnext, hsub, habove, hsame⟩ := line.last
  have hfree : InitFree v (e.id :: ids') (e :: (skip ++ a :: above))
      (Synthesis.run v q e.id).registry := free.part [] hsub hsame
  have hfrom := hline.constructorTy?_same (List.mem_append_right _ List.mem_cons_self) habove f.name
  obtain ⟨x, rest, heq, hsole, hrecovers⟩ := hline.recovers skip
    (free.part [e] (List.subset_of_cons_subset hsub) habove) apart sole
    fun b hb => foreign b (List.mem_cons_of_mem _ hb)
  have hforeign := foreign e List.mem_cons_self
  rw [heq] at hline hfree
  obtain ⟨m, hm, hfields, hmerged⟩ := hline.exists_merged hnext
  have alone := hline.mergesAlone_inherited hnext hsole hforeign hmerged
  obtain ⟨m', d, init, hm', hd, hconstructor, hparameters⟩ := hnext.parameter_of_generated apart
    ((hline.run hnext).init_not_mem_names hfree e List.mem_cons_self) generated
  obtain rfl : m = m' := Except.ok.inj (hm.symm.trans hm')
  refine ⟨hfields ▸ alone.sole, d, init, (hsame _ List.mem_cons_self).trans hd, hconstructor, ?_⟩
  intro initOnly taken ty known
  obtain ⟨hparameter, htype⟩ := hparameters _ alone taken
  have hdown := hline.hands_down hnext hfree apart hsole initOnly taken hforeign
    (hrecovers initOnly taken ty (hfrom ▸ known))
  obtain rfl : _ = ty := Option.some.inj (htype.symm.trans hdown)
  exact hparameter

end Fields

/-! ## The class that declares the field -/

/-- A body declares a name once, with a wrapped annotation. The variable has this type, or is
already without the wrapper. -/
structure Wraps (v : Vocabulary) (c : ClassDecl) (name : String) (t : Ty) : Prop where
  once : ((declarations c.body).map fun a => a.target.name).count name = 1
  annotation : ∃ a ∈ declarations c.body, a.target.name = name ∧ a.declaredTy = some (.resolved t)
  wrapped : v.isInitOnly t = true
  typed : ∃ x, c.written? name = some { symbol := .var x } ∧ x.isClassVar = false ∧
    (x.ty = .resolved t ∨ x.ty = .resolved t.content ∧ v.isInitOnly t.content = false)

section Declaring

variable {v : Vocabulary} {ids : List ClassId} {up : List Raised} {r : Registry} {e : Raised}
  {f : Field} {t : Ty}

/-- The class that declares a constructor-only field has its variable without the wrapper where the
parameters are typed. -/
theorem Lineage.fieldTy?_of_wraps (line : Lineage v ids up r) (next : Joins v ids r e)
    {name : String} (wraps : Wraps v e.found name t) :
    fieldTy? (typing v r e) e.id name = some t.content := by
  obtain ⟨x, hx, hplain, hty⟩ := wraps.typed
  obtain ⟨m, hown, -⟩ := next.exists_completed
  rw [readBody_eq_scan] at hown
  have hget : e.found.members.get? name = some { symbol := .var x } :=
    (Option.filter_eq_some_iff.mp hx).1
  have hread : (readClass v e.found).members.get? name = some { symbol := .var (x.unwrap v) } := by
    rw [readClass, readBody_eq_scan]
    exact get?_scan_of_once v wraps.once hget hplain hown
  have hunwrapped : (x.unwrap v).ty = .resolved t.content := by
    rw [Variable.unwrap]
    rcases hty with hty | ⟨hty, hbare⟩
    · rw [hty]
      simp [wraps.wrapped]
    · rw [hty]
      simp [hbare, hty]
  have hregistered : (typing v r e).get? e.id = some (readClass v e.found).clearGenerated := by
    rw [(line.raises next).get?_typing, if_pos rfl]
  have hwritten : (readClass v e.found).clearGenerated.written? name =
      some { symbol := .var (x.unwrap v) } := by
    rw [ClassDecl.written?_clearGenerated, ClassDecl.written?, hread]
    rfl
  rw [fieldTy?, declared?_eq hregistered,
    show (readClass v e.found).clearGenerated.mro = e.found.mro from rfl, next.mro,
    List.findSome?_cons, shown?_of_written hregistered hwritten]
  show (x.unwrap v).ty.ty? = _
  rw [hunwrapped]
  rfl

/-- The class that declares a field once merges it alone, with nothing recovered. -/
theorem Lineage.mergesAlone_own (line : Lineage v ids up r) (next : Joins v ids r e)
    {name : String} (wraps : Wraps v e.found name t) {m : Collection}
    (merged : m.fields = merge ((e.own v).map ofOwn) (up.map fun b =>
      (b.contribution (r.set e.id (readClass v e.found))).fields)) :
    ∃ g, g.name = name ∧ MergesAlone m (ofOwn g) := by
  obtain ⟨x, hx, hplain, -⟩ := wraps.typed
  obtain ⟨a, ha, rfl, -⟩ := wraps.annotation
  have hfield : isField (e.found.members.get? a.target.name) = true := by
    rw [(Option.filter_eq_some_iff.mp hx).1, isField, visit, if_neg (by simp [hplain])]
  have hnames := (line.raises next).names_own
  obtain ⟨g, hg, hname⟩ := List.mem_map.mp
    (hnames ▸ mem_fieldNames.mpr ⟨List.mem_map_of_mem ha, hfield⟩)
  obtain ⟨added, -, -, hperm⟩ := merge_perm (up.map fun b =>
    (b.contribution (r.set e.id (readClass v e.found))).fields)
    (((e.own v).map ofOwn).map MergedField.name)
  have hmem : ofOwn g ∈ m.fields := by
    rw [merged, (hperm _ rfl).mem_iff]
    exact List.mem_append_left _ (List.mem_map_of_mem hg)
  refine ⟨g, hname, hmem, fun g' hg' same => eq_of_count_le_one ?_ hmem hg' same⟩
  have honce : (fieldNames e.found).count a.target.name ≤ 1 :=
    wraps.once ▸ (List.filter_sublist.map _).count_le _
  rw [merged, count_merge, names_ofOwn, hnames, show (ofOwn g).name = g.name from rfl, hname]
  split <;> omega

/-- What is recovered from the class that declares the field: its type where this class generates a
constructor, and otherwise what is recovered from further above. -/
theorem Lineage.recovered_of_wraps (line : Lineage v ids up r) (next : Joins v ids r e)
    (free : InitFree v (e.id :: ids) (e :: up) (Synthesis.run v r e.id).registry)
    (apart : v.selfTypeVar ≠ "__init__") {name : String} (wraps : Wraps v e.found name t) :
    ∃ g, g.name = name ∧ Sole e.answer.fields g ∧
      (e.answer.flags.init = true → g.inInit = true →
        constructorTy? (Synthesis.run v r e.id).registry e.id name = some t.content) ∧
      (e.answer.flags.init = false →
        constructorTy? (Synthesis.run v r e.id).registry e.id name =
          up.head?.bind fun a => constructorTy? (Synthesis.run v r e.id).registry a.id name) := by
  obtain ⟨m, hm, hfields, hmerged⟩ := line.exists_merged next
  obtain ⟨m', -, hm', hanswer, -⟩ := next.exists_completed
  obtain rfl : m = m' := Except.ok.inj (hm.symm.trans hm')
  obtain ⟨g, rfl, alone⟩ := line.mergesAlone_own next wraps hmerged
  have hsole := alone.sole
  have hgenerated : "__init__" ∈ e.answer.generated ↔ e.answer.flags.init = true := by
    rw [hanswer, init_mem_added_iff apart, and_iff_left]
    exact ⟨(free.holders e List.mem_cons_self).1, List.ne_nil_of_mem hsole.mem⟩
  refine ⟨g, rfl, hfields ▸ hsole, ?_, ?_⟩
  · intro hinit taken
    have hforeign := (line.run next).init_not_mem_names free e List.mem_cons_self
    obtain ⟨m', d, init, hm', -, -, hparameters⟩ :=
      next.parameter_of_generated apart hforeign (hgenerated.mpr hinit)
    obtain rfl : m = m' := Except.ok.inj (hm.symm.trans hm')
    have hty : parameterTy (typing v r e) e.id (ofOwn g) = t.content := by
      rw [parameterTy, show (ofOwn g).recovered = none from rfl, Option.none_or,
        show (ofOwn g).name = g.name from rfl, line.fieldTy?_of_wraps next wraps]
      rfl
    exact hty ▸ (hparameters (ofOwn g) alone taken).2
  · intro hinit
    apply line.constructorTy?_of_not_generated next free
    rw [hgenerated, hinit]
    exact Bool.false_ne_true

/-- On a single line of inheritance where no constructor is written, take a constructor-only field
that the constructor takes, inherited from the nearest data holder that declares it. That one
declares the name once, wrapped around a type. The generated constructor of the class below has a
parameter of this type, as long as the decorator of the declaring class leaves constructors on.
Where it turns them off, the parameter has the type that is recovered from the data holder above the
declaring one, if there is any. -/
theorem Lineage.parameter_recovered {skip above : List Raised} {a : Raised}
    (line : Lineage v ids (e :: (skip ++ a :: above)) r)
    (free : InitFree v ids (e :: (skip ++ a :: above)) r) (apart : v.selfTypeVar ≠ "__init__")
    (generated : "__init__" ∈ e.answer.generated) (hf : f ∈ e.answer.fields)
    (initOnly : f.initOnly = true) (taken : f.inInit = true)
    (foreign : ∀ x ∈ e :: skip, f.name ∉ fieldNames x.found) (wraps : Wraps v a.found f.name t) :
    ∃ d init, r.get? e.id = some d ∧ Constructor d init ∧
      (a.answer.flags.init = true →
        init.parameter? f.name = some (f.toParameter t.content)) ∧
      (a.answer.flags.init = false →
        ∀ b ∈ above.head?, ∀ ty, constructorTy? r b.id f.name = some ty →
          init.parameter? f.name = some (f.toParameter ty)) := by
  obtain ⟨ids', q, hline, hnext, hsuffix, hsame⟩ := line.part (e :: skip)
  obtain ⟨g, hname, hsole, hon, hoff⟩ := hline.recovered_of_wraps hnext
    (free.part (e :: skip) hsuffix.subset hsame) apart wraps
  have hconstructors : ∀ b ∈ a :: above, constructorTy? r b.id f.name =
      constructorTy? (Synthesis.run v q a.id).registry b.id f.name :=
    fun b hb => (hline.run hnext).constructorTy?_same hb hsame f.name
  obtain ⟨hsoleBelow, d, init, hd, hconstructor, htyped⟩ :=
    line.typed_below skip free apart generated hsole (hname ▸ foreign)
  obtain rfl : f = g := hsoleBelow.only f hf hname.symm
  refine ⟨d, init, hd, hconstructor, ?_, ?_⟩
  · intro hinit
    exact htyped initOnly taken _ ((hconstructors a List.mem_cons_self).trans (hon hinit taken))
  · intro hinit b hb ty hty
    have hmem : b ∈ a :: above := List.mem_cons_of_mem _ (List.mem_of_head? hb)
    apply htyped initOnly taken
    rw [hconstructors a List.mem_cons_self, hoff hinit, Option.mem_def.mp hb, Option.bind_some,
      ← hconstructors b hmem, hty]

/-- Two classes that declare the same constructor-only field with different types, and two below
them. The second one generates a constructor or not, and the third one does not. -/
private def tokenClass (init : Bool) : ClassId → ClassDecl
  | 1 =>
    { name := "Base", fullname := "Base", mro := [1, 0]
      decorators := [.name { name := "dataclass" }], body := [token 2 "builtins.int"] }
  | 2 =>
    { name := "Narrow", fullname := "Narrow", mro := [2, 1, 0], decorators := [dataclass init]
      body := [token 5 "builtins.str"] }
  | 3 => { name := "Mid", fullname := "Mid", mro := [3, 2, 1, 0], decorators := [dataclass false] }
  | 4 =>
    { name := "Leaf", fullname := "Leaf", mro := [4, 3, 2, 1, 0]
      decorators := [.name { name := "dataclass" }] }
  | _ => { name := "object", fullname := "object", mro := [0] }
where
  /-- The declaration of the field. -/
  token (line : UInt32) (content : String) : Statement :=
    .assign
      { target := { name := "token" }
        declaredTy := some (.resolved (.inst "dataclasses.InitVar" [.named content]))
        position := ⟨line, 4⟩ }
  /-- The decorator with a flag. -/
  dataclass (init : Bool) : Expr :=
    .call (.name { name := "dataclass" }) [{ keyword := some "init", value := .bool init }]

/-- One of these classes, brought up. -/
private def tokenRaised (init : Bool) (id : ClassId) : Raised :=
  let generates := id == 1 || id == 2 && init || id == 4
  { id
    found := (tokenClass init id).bind
    answer :=
      { fields := [{ name := "token", initOnly := true, position := ⟨if id = 1 then 2 else 5, 4⟩ }]
        flags := { init := generates }
        generated := (if generates then ["__init__"] else []) ++ ["_DT", "__eq__", "__ne__"]
        dependencies := ["Mid", "Narrow", "Base"].drop (4 - id) } }

/-- The registry once all of them were brought up. -/
private def tokens (init : Bool) : Registry :=
  [1, 2, 3, 4].foldl (fun r id => (run {} r id).registry)
    ⟨(List.range 5).map fun id => (tokenClass init id).bind⟩

private theorem lineage_tokens (init : Bool) :
    Lineage {} [4, 3, 2, 1, 0] ([4, 3, 2, 1].map (tokenRaised init)) (tokens init) := by
  have root : Lineage {} [0] [] ⟨(List.range 5).map fun id => (tokenClass init id).bind⟩ :=
    .root rfl rfl rfl
  have base := root.run (e := tokenRaised init 1) ⟨rfl, rfl, rfl, rfl⟩
  have narrow := base.run (e := tokenRaised init 2) ⟨rfl, rfl, rfl, by cases init <;> rfl⟩
  have mid := narrow.run (e := tokenRaised init 3)
    ⟨by cases init <;> rfl, rfl, rfl, by cases init <;> rfl⟩
  exact mid.run (e := tokenRaised init 4)
    ⟨by cases init <;> rfl, rfl, rfl, by cases init <;> rfl⟩

private theorem initFree_tokens (init : Bool) :
    InitFree {} [4, 3, 2, 1, 0] ([4, 3, 2, 1].map (tokenRaised init)) (tokens init) := by
  constructor
  · cases init <;> decide
  · have hall : ([4, 3, 2, 1, 0].all fun id => ((tokens init).get? id).all fun c =>
        ({} : Vocabulary).isDataHolder c || (c.members.get? "__init__").isNone) = true := by
      cases init <;> rfl
    intro id hid c hc other
    have h := List.all_eq_true.mp hall id hid
    rw [hc, Option.all_some, other, Bool.false_or] at h
    exact Option.isNone_iff_eq_none.mp h

private theorem wraps_tokens (init : Bool) : Wraps {} (tokenRaised init 2).found "token"
    (.inst "dataclasses.InitVar" [.named "builtins.str"]) :=
  ⟨rfl, ⟨_, List.mem_cons_self, rfl, rfl⟩, rfl, ⟨_, rfl, rfl, .inl rfl⟩⟩

theorem parameter_recovered_leaf : ∃ d init, (tokens true).get? 4 = some d ∧ Constructor d init ∧
    (init.parameter? "token").map Parameter.declaredTy = some (some (.named "builtins.str")) := by
  have line : Lineage {} [4, 3, 2, 1, 0] (tokenRaised true 4 ::
    ([tokenRaised true 3] ++ tokenRaised true 2 :: [tokenRaised true 1])) (tokens true) :=
    lineage_tokens true
  have hf : ({ name := "token", initOnly := true, position := ⟨5, 4⟩ } : Field) ∈
      (tokenRaised true 4).answer.fields := List.mem_cons_self
  obtain ⟨d, init, hd, hconstructor, hon, -⟩ := line.parameter_recovered (initFree_tokens true)
    (by decide) List.mem_cons_self hf rfl rfl (by decide) (wraps_tokens true)
  exact ⟨d, init, hd, hconstructor, by rw [hon rfl]; rfl⟩

/-- Where the declaring class generates no constructor, the parameter has the type that the class
above it declares. -/
theorem not_recovered_leaf : ∃ d init f,
    Lineage {} [4, 3, 2, 1, 0] ([4, 3, 2, 1].map (tokenRaised false)) (tokens false) ∧
    InitFree {} [4, 3, 2, 1, 0] ([4, 3, 2, 1].map (tokenRaised false)) (tokens false) ∧
    f ∈ (tokenRaised false 4).answer.fields ∧ f.initOnly = true ∧ f.inInit = true ∧
    f.name ∉ fieldNames (tokenRaised false 4).found ∧
    f.name ∉ fieldNames (tokenRaised false 3).found ∧
    Wraps {} (tokenRaised false 2).found f.name
      (.inst "dataclasses.InitVar" [.named "builtins.str"]) ∧
    (tokens false).get? 4 = some d ∧
    d.members.get? "__init__" = some { symbol := .method init, generated := true } ∧
    ¬ ∃ p ∈ init.parameters, p.name = f.name ∧ p.declaredTy = some (.named "builtins.str") := by
  refine ⟨_, _, { name := "token", initOnly := true, position := ⟨5, 4⟩ }, lineage_tokens false,
    initFree_tokens false, List.mem_cons_self, rfl, rfl, by decide, by decide,
    wraps_tokens false, rfl, rfl, ?_⟩
  rintro ⟨p, hp, -, hty⟩
  rcases hp with _ | ⟨_, hnil⟩
  · exact absurd (Option.some.inj hty) (by decide)
  · cases hnil

end Declaring

end Synthesis

end DataHolder
