import DataHolder.Proofs.Binding
import DataHolder.Proofs.Completion

/-!
# What earlier runs leave

`Settled` is the invariant of a class between two runs: once it is bound, it is the freshly
bound class with generated members and methods besides, and with some variables of its fields
unwrapped and marked. Reading keeps it, and so does completing a run on the fresh class.
-/

namespace DataHolder

namespace Synthesis

variable (v : Vocabulary)

/-! ## Fresh classes -/

/-- A class that nothing was done to: it has no members, its declarations are unbound, their
types are known, and no constructor-only wrapper is around another. -/
structure Fresh (id : ClassId) (tail : List ClassId) (c : ClassDecl) : Prop where
  members : c.members = ∅
  unbound : Unbound c.body
  resolved : ∀ a ∈ declarations c.body, ∃ t, a.declaredTy = some (.resolved t) ∧
    (v.isInitOnly t = true → v.isInitOnly t.content = false)
  mro : c.mro = id :: tail
  apart : id ∉ tail

/-- The fields that a class declares itself, as they are read once it is bound. -/
def ownFields (c : ClassDecl) : List Field :=
  match (readBody v c.bind.body c.bind.members).2 with
  | .ok fields => fields
  | .error _ => []

/-- A bound class whose members all follow from its body, with types that are known. -/
structure Grounded (c : ClassDecl) : Prop where
  written : ∀ name m, c.members.get? name = some m →
    m.generated = false ∧ (m.symbol.isVar = true ∨ ∃ f, m.symbol = .method f)
  annotated : ∀ name x, c.members.get? name = some { symbol := .var x } → x.isClassVar = false →
    ∃ a, (declarations c.body).find? (fun a => a.target.name == name) = some a ∧
      a.isInitOnly v = x.isInitOnly v ∧ (x.unwrap v).isInitOnly v = false
  declares : ∀ a ∈ declarations c.body, c.members.contains a.target.name = true
  methods : ∀ f, Statement.method f ∈ c.body → c.members.contains f.name = true

/-- The members of a fresh class that is bound are those that its body offers. -/
theorem members_bind {id : ClassId} {tail : List ClassId} {c : ClassDecl}
    (h : Fresh v id tail c) (name : String) :
    c.bind.members.get? name = Table.lookup name (ClassDecl.offers c.fullname c.body) := by
  rw [ClassDecl.bind_eq, Table.get?_offerAll, h.members, Table.get?_empty, Option.none_or]

private theorem contains_bind {id : ClassId} {tail : List ClassId} {c : ClassDecl}
    (h : Fresh v id tail c) (name : String) :
    c.bind.members.contains name = true ↔
      name ∈ (ClassDecl.offers c.fullname c.body).map Prod.fst := by
  rw [Table.contains, members_bind v h, Table.isSome_lookup_iff]

/-- A fresh class is grounded once it is bound. -/
theorem grounded_bind {id : ClassId} {tail : List ClassId} {c : ClassDecl}
    (h : Fresh v id tail c) : Grounded v c.bind := by
  constructor
  · intro name m hm
    rw [members_bind v h] at hm
    exact offers_written c.fullname c.body (Table.mem_of_lookup hm)
  · intro name x hx shared
    rw [members_bind v h] at hx
    obtain ⟨-, a, ty, ha, hty, hdeclared⟩ := find?_of_lookup_offers c.fullname h.unbound hx
    obtain ⟨t, ht, hflat⟩ := h.resolved a (List.mem_of_find?_eq_some ha)
    rw [ht, Option.some.injEq] at hty
    subst hty
    subst hdeclared
    rw [declared_plain shared]
    refine ⟨boundTarget c.fullname a, ?_, ?_, ?_⟩
    · rw [ClassDecl.bind_eq, declarations_bound, List.find?_map]
      have hname : (fun b : Assignment => b.target.name == name) ∘ boundTarget c.fullname =
          fun b => b.target.name == name := by
        funext b
        rw [Function.comp_apply, name_boundTarget]
      rw [hname, ha]
      rfl
    · rw [Assignment.isInitOnly, declaredTy_boundTarget, ht]
      rfl
    · cases hw : v.isInitOnly t with
      | true => simpa [Variable.unwrap, hw, Variable.isInitOnly, Binding.ty?] using hflat hw
      | false => simp [Variable.unwrap, hw, Variable.isInitOnly, Binding.ty?]
  · intro a ha
    rw [ClassDecl.bind_eq, declarations_bound] at ha
    obtain ⟨b, hb, rfl⟩ := List.mem_map.mp ha
    rw [name_boundTarget, contains_bind v h]
    exact mem_offers_of_mem c.fullname h.unbound hb
  · intro f hf
    rw [contains_bind v h]
    rw [ClassDecl.bind_eq] at hf
    obtain ⟨s, hs, he⟩ := List.mem_map.mp hf
    have hoffer : (f.name, { symbol := Symbol.method f }) ∈ ClassDecl.offers c.fullname c.body := by
      apply List.mem_filterMap.mpr
      refine ⟨s, hs, ?_⟩
      cases s with
      | method f' =>
        cases he
        rfl
      | pass => cases he
      | assign a =>
        rw [Statement.bound] at he
        split at he <;> cases he
    exact List.mem_map_of_mem hoffer

/-! ## The invariant -/

/-- What runs do to a member of the fresh class: the variable of a field may be unwrapped, and
its mark may change. -/
inductive Kept : Member → Member → Prop
  | same (m : Member) : Kept m m
  | field {x : Variable} {ty : Binding} (mark : Bool) (shared : x.isClassVar = false)
      (unwrapped : ty = x.ty ∨ ty = (x.unwrap v).ty) :
      Kept { symbol := .var x } { symbol := .var { x with ty, isReadOnly := mark } }

/-- All names under which generation may add members. -/
def reservedNames : List String :=
  "__init__" :: v.selfTypeVar :: (equalityMethods ++ orderingMethods)

theorem mem_reservedNames_of_added {flags : Flags} {parameters : List Parameter}
    {hasFields : Bool} {c : ClassDecl} {a : String × Symbol}
    (h : a ∈ additions v flags parameters hasFields c) : a.1 ∈ reservedNames v := by
  rw [reservedNames, List.mem_cons, List.mem_cons]
  rcases of_mem_additions v flags parameters hasFields _ h with ⟨hname, -⟩ | ⟨hname, -⟩
  · rw [methodNames, List.mem_cons] at hname
    exact hname.imp_right .inr
  · exact .inr (.inl hname)

/-- A member that generation has added under a name, or a copy of an inherited field. -/
structure Leftover (name : String) (m : Member) : Prop where
  generated : m.generated = true
  origin : m.symbol.isVar = true ∨ name ∈ reservedNames v
  method : ∀ f, m.symbol = .method f → f.name = name

/-- A bound class after runs, beside the class as it was first bound. The constructor-only names
of `gone` may stand in another order. -/
structure Settled (gone : List String) (bound d : ClassDecl) : Prop where
  shape : d = { bound with
    decorators := d.decorators, members := d.members, body := d.body, records := d.records }
  records : ∀ j, d.records.insert v.recordKey j = bound.records.insert v.recordKey j
  body : ∃ added : List Method, d.body = bound.body ++ added.map Statement.method ∧
    ∀ f ∈ added, d.members.get? f.name = some { symbol := .method f, generated := true }
  kept : ∀ name m₀, bound.members.get? name = some m₀ →
    ∃ m, d.members.get? name = some m ∧ Kept v m₀ m
  leftover : ∀ name m, d.members.get? name = some m → bound.members.get? name = none →
    Leftover v name m
  order : (d.members.keys.filter fun name =>
      bound.members.contains name && !gone.contains name) =
    bound.members.keys.filter fun name => !gone.contains name

/-- A bound class is settled before any run. -/
theorem Settled.refl (gone : List String) (c : ClassDecl) : Settled v gone c c := by
  refine ⟨rfl, fun _ => rfl, ⟨[], by simp, by simp⟩, fun name m hm => ⟨m, hm, .same m⟩, ?_, ?_⟩
  · intro name m hm hnone
    rw [hm] at hnone
    cases hnone
  · apply List.filter_congr
    intro name hname
    rw [(Table.contains_iff c.members name).mpr hname, Bool.true_and]

namespace Settled

variable {v} {gone : List String} {bound d : ClassDecl}

/-- Other decorators do not matter. -/
theorem decorated (h : Settled v gone bound d) (ds ds' : List Expr) :
    Settled v gone { bound with decorators := ds } { d with decorators := ds' } := by
  refine ⟨?_, h.records, h.body, h.kept, h.leftover, h.order⟩
  rw [h.shape]

theorem declarations_eq (h : Settled v gone bound d) :
    declarations d.body = declarations bound.body := by
  obtain ⟨added, hbody, -⟩ := h.body
  have hnone : (added.map Statement.method).filterMap declaration? = [] := by
    apply List.filterMap_eq_nil_iff.mpr
    intro s hs
    obtain ⟨f, -, rfl⟩ := List.mem_map.mp hs
    rfl
  rw [declarations, hbody, List.filterMap_append, hnone, List.append_nil]
  rfl

end Settled

/-! ## Reading -/

/-- Reading a class keeps the names of its table. -/
theorem keys_readClass (c : ClassDecl) : (readClass v c).members.keys = c.members.keys := by
  rw [readClass, readBody_eq_scan]
  exact keys_scan v _ _

private theorem Kept.isField_eq {m₀ m : Member} (h : Kept v m₀ m) :
    isField (some m) = isField (some m₀) := by
  cases h with
  | same => rfl
  | field mark shared unwrapped => simp [isField, visit, shared]

private theorem unwrap_kept {x : Variable} {ty : Binding} (mark : Bool)
    (flat : (x.unwrap v).isInitOnly v = false) (unwrapped : ty = x.ty ∨ ty = (x.unwrap v).ty) :
    Variable.unwrap v { x with ty, isReadOnly := mark } =
      { x with ty := (x.unwrap v).ty, isReadOnly := mark } := by
  rcases unwrapped with rfl | rfl
  · unfold Variable.unwrap
    dsimp only
    split
    · split <;> rfl
    · next h => rw [h]
  · exact unwrap_of_not_initOnly v flat

/-- Reading a member that runs have kept is reading the fresh one, but for its mark. -/
private theorem Kept.read {m₀ m : Member} (h : Kept v m₀ m) (written : m₀.generated = false)
    (flat : ∀ x, m₀ = { symbol := .var x } → x.isClassVar = false →
      (x.unwrap v).isInitOnly v = false) :
    Kept v m₀ (Member.read v m) ∧
      (Member.read v m).unmarked = (Member.read v m₀).unmarked ∧
      (isField (some m₀) = false → Member.read v m = Member.read v m₀) := by
  cases h with
  | same =>
    refine ⟨?_, rfl, fun _ => rfl⟩
    cases hv : visit (some m₀) with
    | skip =>
      rw [read_of_not_isField v (by rw [isField, hv])]
      exact .same m₀
    | stop =>
      rw [read_of_not_isField v (by rw [isField, hv])]
      exact .same m₀
    | field x generated =>
      obtain ⟨hm, shared⟩ := visit_eq_field hv
      rw [Option.some.injEq] at hm
      subst hm
      dsimp only at written
      subst written
      rw [read_var v _ shared, readMember, unwrap_eq]
      exact .field x.isReadOnly shared (.inr rfl)
  | field mark shared unwrapped =>
    next x ty =>
    have hflat := flat x rfl shared
    have hread : Member.read v { symbol := .var { x with ty, isReadOnly := mark } } =
        { symbol := .var { x with ty := (x.unwrap v).ty, isReadOnly := mark } } := by
      rw [read_var v false (x := { x with ty, isReadOnly := mark }) shared, readMember,
        unwrap_kept v mark hflat unwrapped]
    have hread₀ : Member.read v { symbol := .var x } =
        { symbol := .var { x with ty := (x.unwrap v).ty } } := by
      rw [read_var v _ shared, readMember, unwrap_eq]
    rw [hread, hread₀]
    refine ⟨.field mark shared (.inr rfl), rfl, ?_⟩
    intro hnot
    simp [isField, visit, shared] at hnot

/-- The fields of a bound class, which follow from its declarations and their members. -/
def boundFields (c : ClassDecl) : List Field :=
  ((declarations c.body).filter fun a => isField (c.members.get? a.target.name)).map
    (annotatedField v)

variable {v}

/-- What reading takes for a field is the member of a declaration. -/
theorem Grounded.mem_boundFields {c : ClassDecl} (h : Grounded v c) {name : String}
    (field : isField (c.members.get? name) = true) :
    name ∈ (boundFields v c).map Field.name := by
  cases hm : c.members.get? name with
  | none =>
    rw [hm] at field
    cases field
  | some m =>
    rw [hm] at field
    cases hv : visit (some m) with
    | skip => simp [isField, hv] at field
    | stop => simp [isField, hv] at field
    | field x generated =>
      obtain ⟨he, shared⟩ := visit_eq_field hv
      rw [Option.some.injEq] at he
      subst he
      have hg := (h.written name _ hm).1
      dsimp only at hg
      subst hg
      obtain ⟨a, ha, -, -⟩ := h.annotated name x hm shared
      have hname : a.target.name = name := by simpa using List.find?_some ha
      rw [boundFields, List.map_map]
      refine List.mem_map.mpr ⟨a, List.mem_filter.mpr ⟨List.mem_of_find?_eq_some ha, ?_⟩, hname⟩
      rw [hname, hm]
      exact field

/-- The names of the fields have members that instances keep. -/
theorem Grounded.isField_of_mem {c : ClassDecl} {name : String}
    (hname : name ∈ (boundFields v c).map Field.name) :
    isField (c.members.get? name) = true := by
  rw [boundFields, List.map_map] at hname
  obtain ⟨a, ha, rfl⟩ := List.mem_map.mp hname
  exact (List.mem_filter.mp ha).2

namespace Settled

variable {gone : List String} {bound d : ClassDecl}

/-- Reading finds the fields of the fresh class, and reads the members of all declarations. -/
theorem readBody_eq (h : Settled v gone bound d) (g : Grounded v bound) :
    (readBody v d.body d.members).2 = .ok (boundFields v bound) ∧
      ∀ name, (readBody v d.body d.members).1.get? name =
        if name ∈ (declarations bound.body).map (fun a => a.target.name) then
          (d.members.get? name).map (Member.read v)
        else d.members.get? name := by
  have hkept : ∀ a ∈ declarations bound.body, ∃ m₀ m,
      bound.members.get? a.target.name = some m₀ ∧ d.members.get? a.target.name = some m ∧
        Kept v m₀ m := by
    intro a ha
    obtain ⟨m₀, hm₀⟩ := Option.isSome_iff_exists.mp (g.declares a ha)
    obtain ⟨m, hm, hk⟩ := h.kept _ m₀ hm₀
    exact ⟨m₀, m, hm₀, hm, hk⟩
  have goes : ∀ a ∈ declarations bound.body, visit (d.members.get? a.target.name) ≠ .stop := by
    intro a ha hstop
    obtain ⟨m₀, m, hm₀, hm, hk⟩ := hkept a ha
    rw [hm] at hstop
    obtain ⟨generated, he⟩ := visit_eq_stop hstop
    rw [Option.some.injEq] at he
    subst he
    cases hk with
    | same =>
      rcases (g.written _ _ hm₀).2 with hv | ⟨f, hf⟩
      · cases hv
      · cases hf
  have annotated : Annotated v (declarations bound.body) d.members := by
    intro name x generated a hv hx ha
    have hname : a.target.name = name := by simpa using List.find?_some ha
    obtain ⟨m₀, m, hm₀, hm, hk⟩ := hkept a (List.mem_of_find?_eq_some ha)
    rw [hname] at hm₀ hm
    rw [hm] at hv
    obtain ⟨he, hclass⟩ := visit_eq_field hv
    rw [Option.some.injEq] at he
    subst he
    cases hk with
    | same =>
      have hg := (g.written _ _ hm₀).1
      dsimp only at hg
      subst hg
      obtain ⟨b, hb, hwrapped, hflat⟩ := g.annotated name x hm₀ hclass
      rw [ha, Option.some.injEq] at hb
      subst hb
      exact ⟨hflat, hwrapped.trans hx⟩
    | field mark shared unwrapped =>
      next x ty =>
      obtain ⟨b, hb, hwrapped, hflat⟩ := g.annotated name x hm₀ shared
      rw [ha, Option.some.injEq] at hb
      subst hb
      rw [unwrap_kept v mark hflat unwrapped]
      refine ⟨hflat, hwrapped.trans ?_⟩
      rcases unwrapped with rfl | rfl
      · exact hx
      · have hfalse : (x.unwrap v).isInitOnly v = true := hx
        rw [hflat] at hfalse
        cases hfalse
  rw [readBody_eq_scan, h.declarations_eq]
  obtain ⟨hfields, htable⟩ := scan_annotated v _ d.members goes annotated
  refine ⟨?_, htable⟩
  rw [hfields, boundFields]
  congr 2
  apply List.filter_congr
  intro a ha
  obtain ⟨m₀, m, hm₀, hm, hk⟩ := hkept a ha
  rw [hm, hm₀, hk.isField_eq]

private theorem flat_of_grounded (g : Grounded v bound) {name : String} {m₀ : Member}
    (hm₀ : bound.members.get? name = some m₀) :
    ∀ x, m₀ = { symbol := .var x } → x.isClassVar = false →
      (x.unwrap v).isInitOnly v = false := by
  intro x he shared
  subst he
  obtain ⟨a, -, -, hflat⟩ := g.annotated name x hm₀ shared
  exact hflat

/-- A name without a declaration keeps its member when the body is read. -/
private theorem get?_readClass_of_unbound (h : Settled v gone bound d) (g : Grounded v bound)
    {name : String} (unbound : bound.members.get? name = none) :
    (readClass v d).members.get? name = d.members.get? name := by
  have hnot : name ∉ (declarations bound.body).map fun a => a.target.name := by
    intro hmem
    obtain ⟨a, ha, rfl⟩ := List.mem_map.mp hmem
    have hsome := g.declares a ha
    rw [Table.contains, unbound] at hsome
    cases hsome
  exact ((h.readBody_eq g).2 name).trans (if_neg hnot)

/-- Under every name of the fresh class, reading leaves what it leaves of the fresh member. -/
private theorem get?_readClass (h : Settled v gone bound d) (g : Grounded v bound)
    {name : String} {m₀ : Member} (hm₀ : bound.members.get? name = some m₀) :
    ∃ m, (readClass v d).members.get? name = some m ∧ Kept v m₀ m ∧
      m.unmarked = (Member.read v m₀).unmarked ∧
      (isField (some m₀) = false → m = Member.read v m₀) := by
  obtain ⟨m, hm, hk⟩ := h.kept name m₀ hm₀
  obtain ⟨hread, hunmarked, hother⟩ :=
    Kept.read v hk (g.written name m₀ hm₀).1 (flat_of_grounded g hm₀)
  have hget := (h.readBody_eq g).2 name
  by_cases hmem : name ∈ (declarations bound.body).map fun a => a.target.name
  · rw [if_pos hmem, hm] at hget
    exact ⟨Member.read v m, hget, hread, hunmarked, hother⟩
  · rw [if_neg hmem, hm] at hget
    -- A member without an assignment is no field, and reading leaves it alone.
    have hnot : isField (some m₀) = false := by
      cases hf : isField (some m₀) with
      | false => rfl
      | true =>
        exfalso
        have hin : name ∈ (boundFields v bound).map Field.name :=
          g.mem_boundFields (by rw [hm₀, hf])
        rw [boundFields, List.map_map] at hin
        obtain ⟨a, ha, he⟩ := List.mem_map.mp hin
        exact hmem (List.mem_map.mpr ⟨a, (List.mem_filter.mp ha).1, he⟩)
    have hm_read : Member.read v m = m := read_of_not_isField v (by rw [hk.isField_eq, hnot])
    rw [hm_read] at hunmarked hother
    exact ⟨m, hget, hk, hunmarked, hother⟩

/-- Reading keeps the invariant. -/
theorem read (h : Settled v gone bound d) (g : Grounded v bound) :
    Settled v gone bound (readClass v d) := by
  refine ⟨?_, h.records, ?_, ?_, ?_, ?_⟩
  · rw [readClass]
    generalize (readBody v d.body d.members).1 = t
    rw [h.shape]
  · obtain ⟨added, hbody, hadded⟩ := h.body
    refine ⟨added, hbody, ?_⟩
    intro f hf
    rcases get?_scan v (declarations d.body) d.members f.name with he | ⟨x, ty, g', hx, -, -⟩
    · rw [readClass, readBody_eq_scan]
      exact he.trans (hadded f hf)
    · rw [hadded f hf] at hx
      cases hx
  · intro name m₀ hm₀
    obtain ⟨m, hm, hk, -, -⟩ := h.get?_readClass g hm₀
    exact ⟨m, hm, hk⟩
  · intro name m hm hnone
    rw [h.get?_readClass_of_unbound g hnone] at hm
    exact h.leftover name m hm hnone
  · rw [keys_readClass v d]
    exact h.order

/-- Once both are read, a settled class resumes the fresh one. -/
theorem resumes (h : Settled v gone bound d) (g : Grounded v bound)
    (decorators : d.decorators = bound.decorators) :
    Resumes v ((boundFields v bound).map Field.name) gone (readClass v bound) (readClass v d) := by
  have hfresh := Settled.refl v gone bound
  have hread := h.read g
  have hcontains : ∀ name, (readClass v bound).members.contains name =
      bound.members.contains name := by
    intro name
    rw [Bool.eq_iff_iff, Table.contains_iff, Table.contains_iff, keys_readClass v bound]
  have hnone : ∀ name, (readClass v bound).members.get? name = none →
      bound.members.get? name = none := by
    intro name h₀
    have hc := hcontains name
    rw [Table.contains, h₀, Table.contains] at hc
    simpa using hc.symm
  refine ⟨?_, h.records, hread.body, ?_, ?_, ?_, ?_⟩
  · have hshape := hread.shape
    rw [show (readClass v d).decorators = bound.decorators from decorators] at hshape
    exact hshape
  · intro name m₀' hm₀'
    cases hm₀ : bound.members.get? name with
    | none =>
      rw [hfresh.get?_readClass_of_unbound g hm₀, hm₀] at hm₀'
      cases hm₀'
    | some m₀ =>
      obtain ⟨m', hm', hk', hunmarked', hother'⟩ := hfresh.get?_readClass g hm₀
      obtain ⟨m, hm, hk, hunmarked, hother⟩ := h.get?_readClass g hm₀
      rw [hm', Option.some.injEq] at hm₀'
      subst hm₀'
      refine ⟨?_, m, hm, hunmarked.trans hunmarked'.symm, ?_⟩
      · cases hk' with
        | same => exact (g.written name _ hm₀).1
        | field mark shared unwrapped => rfl
      · intro hnot
        have hfield : isField (some m₀) = false := by
          cases hf : isField (some m₀) with
          | false => rfl
          | true => exact absurd (g.mem_boundFields (by rw [hm₀, hf])) hnot
        rw [hother hfield, hother' hfield]
  · intro name m hm h₀
    have hleft := hread.leftover name m hm (hnone name h₀)
    exact ⟨hleft.generated, hleft.method⟩
  · have horder := hread.order
    simp only [hcontains]
    rw [horder, keys_readClass v bound]
  · intro f hf
    rw [hcontains]
    exact g.methods f hf

end Settled

end Synthesis

end DataHolder
