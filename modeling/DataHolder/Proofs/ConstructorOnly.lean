import DataHolder.Proofs.Raising

/-!
# Fields for the constructor alone

A field that exists for the constructor alone leaves the table of its class when the run is over,
and no class below gets a member under its name: it has no variable to mark, and a frozen class
copies only what instances keep. The record still has the field, so every constructor below takes
it; and its declarations are unbound, so binding them again creates the variable that was there.

The linearized ancestors are taken to include those of every ancestor, as linearizations do. Where
they leave out the base of a frozen class, they still show what this one has copied from there.
-/

namespace DataHolder

namespace Synthesis

/-- All that a body says under a name is that the constructor takes it: every annotation is wrapped
so, and there is no method. -/
structure OnlyTaken (v : Vocabulary) (body : List Statement) (name : String) : Prop where
  wrapped : ∀ a ∈ declarations body, a.target.name = name →
    ∃ t, a.declaredTy = some (.resolved t) ∧ v.isInitOnly t = true ∧
      t.isInst classVarWrapper = false
  methods : ∀ m, Statement.method m ∈ body → m.name ≠ name

namespace OnlyTaken

variable {v : Vocabulary} {name : String}

theorem nil : OnlyTaken v [] name := ⟨nofun, nofun⟩

/-- An annotation in front says nothing else under a name, if it is wrapped or of another name. -/
theorem assign {body : List Statement} (rest : OnlyTaken v body name) {a : Assignment}
    (wrapped : a.target.name = name → ∃ t, a.declaredTy = some (.resolved t) ∧
      v.isInitOnly t = true ∧ t.isInst classVarWrapper = false) :
    OnlyTaken v (.assign a :: body) name := by
  refine ⟨?_, ?_⟩
  · intro b hb hname
    obtain ⟨s, hs, hdeclares⟩ := List.mem_filterMap.mp hb
    rcases List.mem_cons.mp hs with rfl | hs
    · rw [declaration?] at hdeclares
      split at hdeclares
      · cases hdeclares
        exact wrapped hname
      · cases hdeclares
    · exact rest.wrapped b (List.mem_filterMap.mpr ⟨s, hs, hdeclares⟩) hname
  · intro m hm
    rcases List.mem_cons.mp hm with he | hm
    · cases he
    · exact rest.methods m hm

end OnlyTaken

/-! ## What binding creates -/

/-- The member that a declaration creates under a name. -/
def created (owner name : String) (a : Assignment) : Option Member :=
  if a.target.name = name then
    a.declaredTy.map fun ty => { symbol := .var (.declared owner name ty a.position) }
  else none

section Binding

variable {v : Vocabulary} {owner name : String}

private theorem lookup_eq_findSome? {α : Type} (key : String) (es : List (String × α)) :
    Table.lookup key es = es.findSome? fun e => if e.1 = key then some e.2 else none := by
  induction es with
  | nil => rfl
  | cons e es ih =>
    obtain ⟨k, a⟩ := e
    rw [Table.lookup, List.findSome?_cons, ih]
    by_cases h : k = key <;> simp [h]

/-- Binding creates the variable of the first declaration of a name, where the body has no method
under it and no bound declaration. -/
theorem lookup_offers {body : List Statement}
    (methods : ∀ m, Statement.method m ∈ body → m.name ≠ name)
    (unbound : ∀ a ∈ declarations body, a.target.name = name → a.target.binding = none) :
    Table.lookup name (ClassDecl.offers owner body) =
      (declarations body).findSome? (created owner name) := by
  rw [lookup_eq_findSome?, ClassDecl.offers, declarations, findSome?_filterMap,
    findSome?_filterMap]
  apply findSome?_congr
  intro s hs
  cases s with
  | pass => rfl
  | method m =>
    have hne := methods m hs
    simp [Statement.offer?, declaration?, hne]
  | assign a =>
    obtain ⟨target, declaredTy, value, position⟩ := a
    cases declaredTy with
    | none => rfl
    | some ty =>
      have hmem : Assignment.mk target (some ty) value position ∈ declarations body :=
        List.mem_filterMap.mpr ⟨_, hs, rfl⟩
      have hdeclaration : declaration? (.assign ⟨target, some ty, value, position⟩) =
          some ⟨target, some ty, value, position⟩ := rfl
      rw [hdeclaration, Option.bind_some, created, Statement.offer?]
      by_cases hname : target.name = name
      · have hbinding : target.binding = none := unbound _ hmem hname
        simp [hname, hbinding]
      · cases target.binding.isSome <;> simp [hname]

private theorem created_congr {a b : Assignment} (same : b.target.name = a.target.name)
    (ty : b.declaredTy = a.declaredTy) (position : b.position = a.position) :
    created owner name b = created owner name a := by
  rw [created, created, same, ty, position]

theorem created_boundTarget (a : Assignment) :
    created owner name (boundTarget owner a) = created owner name a := by
  apply created_congr (name_boundTarget owner a) (declaredTy_boundTarget owner a)
  rw [boundTarget]
  split <;> rfl

theorem created_unbindTarget (names : List String) (a : Assignment) :
    created owner name (unbindTarget names a) = created owner name a := by
  apply created_congr <;> rw [unbindTarget] <;> split <;> rfl

/-- What binding an untouched class creates under a name follows from its declarations, unless it
has a method there. -/
theorem Untouched.get?_bind {c : ClassDecl} (untouched : Untouched c)
    (methods : ∀ m, Statement.method m ∈ c.bind.body → m.name ≠ name) :
    c.bind.members.get? name =
      (declarations c.bind.body).findSome? (created c.bind.fullname name) := by
  have hmethods : ∀ m, Statement.method m ∈ c.body → m.name ≠ name :=
    fun m hm => methods m (List.mem_map.mpr ⟨_, hm, rfl⟩)
  rw [ClassDecl.bind_eq, untouched.members, Table.get?_offerAll, Table.get?_empty, Option.none_or,
    lookup_offers hmethods fun a ha _ => untouched.unbound a ha]
  dsimp only
  rw [declarations_bound, List.findSome?_map]
  exact findSome?_congr fun a _ => (created_boundTarget a).symm

theorem findSome?_created_eq_none {as : List Assignment}
    (undeclared : name ∉ as.map fun a => a.target.name) :
    as.findSome? (created owner name) = none := by
  apply List.findSome?_eq_none_iff.mpr
  intro a ha
  rw [created, if_neg]
  rintro rfl
  exact undeclared (List.mem_map_of_mem ha)

/-- Where a body declares a name for the constructor alone, it creates a variable of instances. -/
theorem OnlyTaken.isField_created {body : List Statement} (only : OnlyTaken v body name)
    (declared : name ∈ (declarations body).map fun a => a.target.name) :
    isField ((declarations body).findSome? (created owner name)) = true := by
  cases h : (declarations body).findSome? (created owner name) with
  | none =>
    obtain ⟨a, ha, rfl⟩ := List.mem_map.mp declared
    obtain ⟨t, hty, -⟩ := only.wrapped a ha rfl
    have hnone := List.findSome?_eq_none_iff.mp h a ha
    rw [created, if_pos rfl, hty] at hnone
    cases hnone
  | some member =>
    obtain ⟨a, ha, hcreated⟩ := List.exists_of_findSome?_eq_some h
    rw [created] at hcreated
    split at hcreated
    · next hname =>
      obtain ⟨t, hty, -, hshared⟩ := only.wrapped a ha hname
      rw [hty] at hcreated
      cases hcreated
      simp [isField, visit, Variable.declared, hshared]
    · cases hcreated

end Binding

/-! ## What the runs leave -/

section Left

variable {v : Vocabulary} {up : List Raised} {r : Registry} {e : Raised} {name : String}

/-- A field that is annotated as constructor-only is read as such. -/
theorem Raises.initOnly_of_own (next : Raises v up r e) (only : OnlyTaken v e.found.body name)
    {f : Field} (hf : f ∈ e.own v) (hname : f.name = name) : f.initOnly = true := by
  rw [next.own_eq] at hf
  obtain ⟨p, hp, rfl⟩ := List.mem_map.mp hf
  obtain ⟨t, hty, hwrapped, -⟩ := only.wrapped p.1 (mem_of_mem_visits v hp) hname
  have hannotated : (p.1.declaredTy.bind Binding.ty?).any v.isInitOnly = true := by
    rw [hty]
    exact hwrapped
  simp only [declaredField, hannotated, Bool.or_true]

/-- Where some classes have the ancestors of each other and say nothing else under a name, all their
fields of this name are constructor-only. -/
theorem Built.initOnly (built : Built v up r) {S : List ClassId}
    (closed : ∀ a ∈ up, a.id ∈ S → a.found.mro ⊆ S)
    (only : ∀ a ∈ up, a.id ∈ S → OnlyTaken v a.found.body name) (mem : e ∈ up) (hS : e.id ∈ S)
    {f : Field} (hf : f ∈ e.answer.fields) (hname : f.name = name) : f.initOnly = true := by
  obtain ⟨b, hb, hbS, hfb⟩ := built.exists_declaring closed mem hS hf
  obtain ⟨before, q, -, hraises, -⟩ := built.exists_raises hb
  exact hraises.initOnly_of_own (only b hb hbS) hfb hname

/-- An untouched class that says nothing else under a name has no member there once it was run. -/
theorem Raises.get?_completed_eq_none {c : ClassDecl} {m : Collection} (next : Raises v up r e)
    (untouched : Untouched c) (bound : e.found = c.bind) (only : OnlyTaken v e.found.body name)
    (apart : name ∉ (added v r e.id e.found m).map Prod.fst) (own : e.own v ⊆ m.plain)
    (taken : ∀ f ∈ m.plain, f.name = name → f.initOnly = true) :
    (completed v r e.id e.found m).members.get? name = none := by
  have hgone : ∀ f ∈ m.plain, f.name = name → name ∈ initOnlyNames m.plain := by
    intro f hf hname
    exact List.mem_map.mpr ⟨f, List.mem_filter.mpr ⟨hf, taken f hf hname⟩, hname⟩
  by_cases hinit : name ∈ initOnlyNames m.plain
  · rw [get?_completed, if_pos hinit]
  · -- No field has the name, so the class does not declare it and has no member there.
    have hforeign : name ∉ m.plain.map Field.name := by
      intro hmem
      obtain ⟨f, hf, hname⟩ := List.mem_map.mp hmem
      exact hinit (hgone f hf hname)
    have hfield : name ∉ fieldNames e.found := by
      rw [← next.names_own]
      exact fun hmem => hforeign (List.map_subset _ own hmem)
    have hcreated : e.found.members.get? name =
        (declarations e.found.body).findSome? (created e.found.fullname name) := by
      rw [bound] at only ⊢
      exact untouched.get?_bind only.methods
    have hundeclared : name ∉ (declarations e.found.body).map fun a => a.target.name := by
      intro hmem
      exact hfield (mem_fieldNames.mpr ⟨hmem, hcreated ▸ only.isField_created hmem⟩)
    have hnone : e.found.members.get? name = none := by
      rw [hcreated, findSome?_created_eq_none hundeclared]
    rw [get?_completed_of_not_mem _ _ _ _ _ hforeign, get?_draft_of_not_mem apart,
      ClassDecl.written?, get?_readClass_of_not_mem v hfield, hnone]
    rfl

/-- Where all that is said under a name is that the constructor takes it, no class has a member
there once all were brought up. -/
theorem Built.get?_eq_none (built : Built v up r)
    (fresh : ∀ a ∈ up, ∃ c, Untouched c ∧ a.found = c.bind) {S : List ClassId}
    (closed : ∀ a ∈ up, a.id ∈ S → a.found.mro ⊆ S)
    (only : ∀ a ∈ up, a.id ∈ S → OnlyTaken v a.found.body name)
    (apart : ∀ a ∈ up, a.id ∈ S → name ∉ a.answer.generated) (mem : e ∈ up) (hS : e.id ∈ S)
    {d : ClassDecl} (registered : r.get? e.id = some d) : d.members.get? name = none := by
  obtain ⟨c, huntouched, hbound⟩ := fresh e mem
  obtain ⟨before, q, -, hraises, -, hget⟩ := built.exists_raises mem
  obtain ⟨m, -, hm, hanswer, -, hleft⟩ := hraises.exists_completed
  rw [hget, hleft, Option.some.injEq] at registered
  subst registered
  have hfields : e.answer.fields = m.plain := by rw [hanswer]
  have happart := apart e mem hS
  rw [hanswer] at happart
  refine hraises.get?_completed_eq_none huntouched hbound (only e mem hS) happart
    (mem_plain_of_gather (gather_of_collect hm)).1 ?_
  intro f hf
  exact built.initOnly closed only mem hS (hfields ▸ hf)

/-- Looking such a name up from a class finds nothing, if none of the other ancestors has a member
under it. -/
theorem Built.lookup_eq_none (built : Built v up r)
    (fresh : ∀ a ∈ up, ∃ c, Untouched c ∧ a.found = c.bind) {id : ClassId} {d : ClassDecl}
    (registered : r.get? id = some d) (closed : ∀ a ∈ up, a.id ∈ d.mro → a.found.mro ⊆ d.mro)
    (only : ∀ a ∈ up, a.id ∈ d.mro → OnlyTaken v a.found.body name)
    (apart : ∀ a ∈ up, a.id ∈ d.mro → name ∉ a.answer.generated)
    (others : ∀ a ∈ d.mro, a ∉ up.map Raised.id → ∀ c, r.get? a = some c →
      c.members.get? name = none) :
    r.lookup id name = none := by
  rw [Registry.lookup, Registry.searchMro, registered, Option.bind_some,
    List.findSome?_eq_none_iff]
  intro a ha
  cases hc : r.get? a with
  | none => rfl
  | some c =>
    by_cases hup : a ∈ up.map Raised.id
    · obtain ⟨b, hb, rfl⟩ := List.mem_map.mp hup
      exact built.get?_eq_none fresh closed only apart hb ha hc
    · exact others a ha hup c hc

/-- A constructor that is added has a parameter for every field that it takes. -/
theorem isSome_parameter?_of_added {id : ClassId} {c : ClassDecl} {m : Collection} {init : Method}
    (h : ("__init__", Symbol.method init) ∈ added v r id c m) {f : Field} (hf : f ∈ m.plain)
    (taken : f.inInit = true) : (init.parameter? f.name).isSome = true := by
  obtain ⟨g, hg, rfl⟩ := List.mem_map.mp hf
  rw [Method.parameter?, parameters_of_added h, List.find?_isSome]
  exact ⟨_, List.mem_map_of_mem (List.mem_filter.mpr ⟨hg, taken⟩), beq_self_eq_true _⟩

section Unbinding

variable {id : ClassId} {c : ClassDecl} {m : Collection}

/-- A completed run leaves the declarations of its constructor-only fields unbound. -/
theorem binding_completed (gone : name ∈ initOnlyNames m.plain) :
    ∀ a ∈ declarations (completed v r id c m).body, a.target.name = name →
      a.target.binding = none := by
  intro a ha hname
  rw [declarations_completed] at ha
  obtain ⟨b, -, rfl⟩ := List.mem_map.mp ha
  rw [unbindTarget] at hname ⊢
  split at hname
  · next h => rw [if_pos h]
  · next h => exact absurd (List.contains_iff_mem.mpr (hname ▸ gone)) h

/-- Binding a class that a completed run has left creates the variable of a constructor-only field
from its declarations. -/
theorem get?_bind_completed (gone : name ∈ initOnlyNames m.plain)
    (methods : ∀ f, Statement.method f ∈ c.body → f.name ≠ name)
    (apart : name ∉ (added v r id c m).map Prod.fst) :
    (completed v r id c m).bind.members.get? name =
      (declarations (completed v r id c m).body).findSome? (created c.fullname name) := by
  have hmethods : ∀ f, Statement.method f ∈ (completed v r id c m).body → f.name ≠ name := by
    intro f hf hname
    rcases method_mem_completed hf with hf | hf
    · exact methods f hf hname
    · exact apart (hname ▸ List.mem_map_of_mem hf)
  rw [ClassDecl.bind_eq, Table.get?_offerAll, get?_completed, if_pos gone, Option.none_or,
    lookup_offers hmethods (binding_completed gone)]
  rfl

end Unbinding

/-- A field of a class that the constructor takes and nothing keeps. No member is found under its
name; every constructor that the run has added has a parameter for it; and its declarations are
unbound, so that binding the class that is left creates what it did the first time. -/
structure ParameterOnly (v : Vocabulary) (r : Registry) (e : Raised) (d : ClassDecl)
    (f : Field) : Prop where
  unseen : r.lookup e.id f.name = none
  parameter : f.inInit = true → ∀ init, Statement.method init ∈ d.body →
    Statement.method init ∉ e.found.body → init.name = "__init__" →
      (init.parameter? f.name).isSome = true
  constructor : "__init__" ∈ e.answer.generated → v.selfTypeVar ≠ "__init__" →
    ∃ init, Constructor d init ∧ (f.inInit = true → (init.parameter? f.name).isSome = true)
  unbound : ∀ a ∈ declarations d.body, a.target.name = f.name → a.target.binding = none
  recreated : d.bind.members.get? f.name = e.found.members.get? f.name
  undeclared : f.name ∉ (declarations d.body).map (fun a => a.target.name) →
    d.bind.members.get? f.name = none

/-- In a hierarchy of fresh classes, a constructor-only field of a class is a parameter and never an
attribute, however far up it is declared: where the ancestors of every ancestor are ancestors, none
that was brought up says anything else under its name, no other has a member there, and it is not
the name of a generated member. -/
theorem initOnly_parameterOnly (built : Built v up r)
    (fresh : ∀ a ∈ up, ∃ c, Untouched c ∧ a.found = c.bind) (mem : e ∈ up)
    (closed : ∀ a ∈ up, a.id ∈ e.found.mro → a.found.mro ⊆ e.found.mro)
    {f : Field} (hf : f ∈ e.answer.fields) (initOnly : f.initOnly = true)
    (only : ∀ a ∈ up, a.id ∈ e.found.mro → OnlyTaken v a.found.body f.name)
    (others : ∀ id ∈ e.found.mro, id ∉ up.map Raised.id → ∀ c, r.get? id = some c →
      c.members.get? f.name = none)
    (apart : ∀ a ∈ up, a.id ∈ e.found.mro → f.name ∉ a.answer.generated) :
    ∃ d, r.get? e.id = some d ∧ ParameterOnly v r e d f := by
  obtain ⟨c, huntouched, hbound⟩ := fresh e mem
  obtain ⟨before, q, -, hraises, -, hget⟩ := built.exists_raises mem
  obtain ⟨m, -, -, hanswer, -, hleft⟩ := hraises.exists_completed
  rw [hleft] at hget
  have honly := only e mem hraises.mem_mro
  have happart := apart e mem hraises.mem_mro
  rw [hanswer] at hf happart
  have hgone : f.name ∈ initOnlyNames m.plain :=
    List.mem_map_of_mem (List.mem_filter.mpr ⟨hf, initOnly⟩)
  have hbind := get?_bind_completed hgone honly.methods happart
  refine ⟨_, hget, built.lookup_eq_none fresh hget closed only apart others, ?_, ?_,
    binding_completed hgone, ?_, ?_⟩
  · intro taken init hinit hnew hname
    rcases method_mem_completed hinit with hold | hadded
    · exact absurd hold hnew
    · rw [hname] at hadded
      exact isSome_parameter?_of_added hadded hf taken
  · intro hinit hself
    rw [hanswer] at hinit
    obtain ⟨init, hconstructor, hadded⟩ := exists_constructor hself hinit
    exact ⟨init, hconstructor, isSome_parameter?_of_added hadded hf⟩
  · rw [hbind, declarations_completed, List.findSome?_map, hbound,
      huntouched.get?_bind (hbound ▸ honly.methods)]
    exact findSome?_congr fun a _ => created_unbindTarget _ a
  · intro hnone
    rw [hbind, findSome?_created_eq_none hnone]

end Left

/-- A base that declares `seed` for the constructor alone, a frozen class below it, and a class
below this one, all of them as they come in. -/
private def seedClass : ClassId → ClassDecl
  | 1 =>
    let field (name : String) (ty : Ty) : Statement :=
      .assign { target := { name }, declaredTy := some (.resolved ty) }
    { name := "Base", fullname := "Base", mro := [1, 0]
      decorators := [.name { name := "dataclass" }]
      body :=
        [field "seed" (.inst "dataclasses.InitVar" [.named "builtins.int"]),
          field "x" (.named "builtins.int")] }
  | 2 =>
    { name := "Frozen", fullname := "Frozen", mro := [2, 1, 0]
      decorators := [.call (.name { name := "dataclass" })
        [{ keyword := some "frozen", value := .bool true }]] }
  | 3 =>
    { name := "Leaf", fullname := "Leaf", mro := [3, 2, 1, 0]
      decorators := [.name { name := "dataclass" }] }
  | _ => { name := "object", fullname := "object", mro := [0] }

/-- One of these classes, brought up. -/
private def seedRaised (id : ClassId) (dependencies : List String) : Raised :=
  { id
    found := (seedClass id).bind
    answer :=
      { fields := [{ name := "seed", initOnly := true }, { name := "x" }]
        flags := { frozen := id == 2 }
        generated := ["__init__", "_DT", "__eq__", "__ne__"]
        dependencies } }

private def seedFamily : List Raised :=
  [seedRaised 3 ["Frozen", "Base"], seedRaised 2 ["Base"], seedRaised 1 []]

private theorem built_seedFamily : ∃ r, Built {} seedFamily r ∧ r.get? 0 = some (seedClass 0) := by
  have start : Built {} [] ⟨[seedClass 0, (seedClass 1).bind, (seedClass 2).bind,
      (seedClass 3).bind]⟩ := .start fun id =>
    match id with
    | 0 | 1 | 2 | 3 => rfl
    | _ + 4 => rfl
  have base := start.run (e := seedRaised 1 []) ⟨rfl, ⟨_, rfl, by decide⟩, by decide, rfl⟩
  have frozen := base.run (e := seedRaised 2 ["Base"]) ⟨rfl, ⟨_, rfl, by decide⟩, by decide, rfl⟩
  have leaf := frozen.run (e := seedRaised 3 ["Frozen", "Base"])
    ⟨rfl, ⟨_, rfl, by decide⟩, by decide, rfl⟩
  exact ⟨_, leaf, rfl⟩

/-- The root has no members, so there are none if all other ancestors were brought up. -/
private theorem get?_eq_none_of_root {r : Registry} {mro : List ClassId} {up : List Raised}
    {name : String} (root : r.get? 0 = some (seedClass 0))
    (raised : ∀ id ∈ mro, id ∉ up.map Raised.id → id = 0) :
    ∀ id ∈ mro, id ∉ up.map Raised.id → ∀ c, r.get? id = some c → c.members.get? name = none := by
  intro id hid hother c hc
  obtain rfl := raised id hid hother
  rw [root] at hc
  cases hc
  rfl

private theorem onlyTaken_seedFamily :
    ∀ a ∈ seedFamily, OnlyTaken {} a.found.body "seed" := by
  intro a ha
  rcases ha with _ | ⟨_, _ | ⟨_, _ | ⟨_, hnil⟩⟩⟩
  · exact .nil
  · exact .nil
  · have hx : OnlyTaken {} ((seedClass 1).bind.body.drop 1) "seed" :=
      OnlyTaken.nil.assign fun h => absurd h (by decide)
    exact hx.assign fun _ => ⟨_, rfl, by decide, by decide⟩
  · cases hnil

theorem initOnly_parameterOnly_leaf : ∃ r d, Built {} seedFamily r ∧ r.get? 3 = some d ∧
    ParameterOnly {} r (seedRaised 3 ["Frozen", "Base"]) d
      { name := "seed", initOnly := true } := by
  obtain ⟨r, built, hroot⟩ := built_seedFamily
  have fresh : ∀ a ∈ seedFamily, ∃ c, Untouched c ∧ a.found = c.bind := by
    intro a ha
    rcases ha with _ | ⟨_, _ | ⟨_, _ | ⟨_, hnil⟩⟩⟩
    · exact ⟨seedClass 3, ⟨rfl, by unfold Unbound; decide⟩, rfl⟩
    · exact ⟨seedClass 2, ⟨rfl, by unfold Unbound; decide⟩, rfl⟩
    · exact ⟨seedClass 1, ⟨rfl, by unfold Unbound; decide⟩, rfl⟩
    · cases hnil
  obtain ⟨d, hd, h⟩ := initOnly_parameterOnly built fresh List.mem_cons_self (by decide)
    (f := { name := "seed", initOnly := true }) (by decide) rfl
    (fun a ha _ => onlyTaken_seedFamily a ha) (get?_eq_none_of_root hroot (by decide)) (by decide)
  exact ⟨r, d, built, hd, h⟩

/-- A base that keeps `seed`, a frozen class below it, a class that declares `seed` for the
constructor alone, and a class below these two whose linearized ancestors leave the base out. -/
private def partedClass : ClassId → ClassDecl
  | 1 => declaring "Base" [1, 0] (.named "builtins.int")
  | 2 => seedClass 2
  | 3 => declaring "Taking" [3, 0] (.inst "dataclasses.InitVar" [.named "builtins.int"])
  | 4 => { seedClass 3 with mro := [4, 3, 2, 0] }
  | _ => seedClass 0
where
  declaring (name : String) (mro : List ClassId) (ty : Ty) : ClassDecl :=
    { name, fullname := name, mro
      decorators := [.name { name := "dataclass" }]
      body := [.assign { target := { name := "seed" }, declaredTy := some (.resolved ty) }] }

/-- One of these classes, brought up. -/
private def partedRaised (id : ClassId) (dependencies : List String) : Raised :=
  { id
    found := (partedClass id).bind
    answer :=
      { fields := [{ name := "seed", initOnly := id == 3 || id == 4 }]
        flags := { frozen := id == 2 }
        generated := ["__init__", "_DT", "__eq__", "__ne__"]
        dependencies } }

private def partedFamily : List Raised :=
  [partedRaised 4 ["Taking", "Frozen"], partedRaised 3 [], partedRaised 2 ["Base"],
    partedRaised 1 []]

/-- The copy of the field of the base that the frozen class is left with. -/
private def partedCopy : Member :=
  { symbol := .var
      { name := "seed", fullname := "Frozen.seed", ty := .resolved (.named "builtins.int")
        isReadOnly := true }
    generated := true }

private theorem built_partedFamily : ∃ r, Built {} partedFamily r ∧
    r.get? 0 = some (seedClass 0) ∧ r.lookup 4 "seed" = some partedCopy := by
  have start : Built {} [] ⟨[partedClass 0, (partedClass 1).bind, (partedClass 2).bind,
      (partedClass 3).bind, (partedClass 4).bind]⟩ := .start fun id =>
    match id with
    | 0 | 1 | 2 | 3 | 4 => rfl
    | _ + 5 => rfl
  have base := start.run (e := partedRaised 1 []) ⟨rfl, ⟨_, rfl, by decide⟩, by decide, rfl⟩
  have frozen := base.run (e := partedRaised 2 ["Base"])
    ⟨rfl, ⟨_, rfl, by decide⟩, by decide, rfl⟩
  have taking := frozen.run (e := partedRaised 3 []) ⟨rfl, ⟨_, rfl, by decide⟩, by decide, rfl⟩
  have leaf := taking.run (e := partedRaised 4 ["Taking", "Frozen"])
    ⟨rfl, ⟨_, rfl, by decide⟩, by decide, rfl⟩
  exact ⟨_, leaf, rfl, rfl⟩

/-- The ancestors of an ancestor cannot be left out. The last class has `seed` for the constructor
alone, no ancestor says anything else under this name or lists it as generated, and yet there is a
member: the copy that the frozen class has made of the field of its base. -/
theorem not_parameterOnly_parted : ∃ r, Built {} partedFamily r ∧
    (∀ a ∈ partedFamily, ∃ c, Untouched c ∧ a.found = c.bind) ∧
    partedRaised 4 ["Taking", "Frozen"] ∈ partedFamily ∧
    { name := "seed", initOnly := true } ∈ (partedRaised 4 ["Taking", "Frozen"]).answer.fields ∧
    (∀ a ∈ partedFamily, a.id ∈ (partedClass 4).mro → OnlyTaken {} a.found.body "seed") ∧
    (∀ id ∈ (partedClass 4).mro, id ∉ partedFamily.map Raised.id → ∀ c, r.get? id = some c →
      c.members.get? "seed" = none) ∧
    (∀ a ∈ partedFamily, "seed" ∉ a.answer.generated) ∧
    r.lookup 4 "seed" = some partedCopy := by
  obtain ⟨r, built, hroot, hcopy⟩ := built_partedFamily
  refine ⟨r, built, ?_, List.mem_cons_self, List.mem_singleton_self _, ?_,
    get?_eq_none_of_root hroot (by decide), by decide, hcopy⟩
  · intro a ha
    rcases ha with _ | ⟨_, _ | ⟨_, _ | ⟨_, _ | ⟨_, hnil⟩⟩⟩⟩
    · exact ⟨partedClass 4, ⟨rfl, by unfold Unbound; decide⟩, rfl⟩
    · exact ⟨partedClass 3, ⟨rfl, by unfold Unbound; decide⟩, rfl⟩
    · exact ⟨partedClass 2, ⟨rfl, by unfold Unbound; decide⟩, rfl⟩
    · exact ⟨partedClass 1, ⟨rfl, by unfold Unbound; decide⟩, rfl⟩
    · cases hnil
  · intro a ha hmro
    rcases ha with _ | ⟨_, _ | ⟨_, _ | ⟨_, _ | ⟨_, hnil⟩⟩⟩⟩
    · exact .nil
    · exact OnlyTaken.nil.assign fun _ => ⟨_, rfl, by decide, by decide⟩
    · exact .nil
    · exact absurd hmro (by decide)
    · cases hnil

end Synthesis

end DataHolder
