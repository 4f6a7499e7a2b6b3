import DataHolder.Proofs.Atomicity
import DataHolder.Proofs.Binding
import DataHolder.Proofs.Deferral
import DataHolder.Proofs.Views

/-!
# Types that come late

Some annotations of a body may be pending when it is bound for the first time. The analyzer gives
their types to the variables later, one after the other, and tries the run again in between. In the
end the run does what it would have done with all annotations known from the start, but for two
things. Only binding sees that a variable is shared by the class, and only the annotation, or the
first reading, that a field is constructor-only.
-/

namespace DataHolder

/-- A statement, and the same one with its annotation pending. -/
inductive Statement.Delays : Statement → Statement → Prop
  | same (s : Statement) : Delays s s
  | late (a : Assignment) (t : Ty) :
      Delays (.assign { a with declaredTy := some (.resolved t) })
        (.assign { a with declaredTy := some .pending })

namespace Synthesis

/-- A class that was not bound yet, and the same one with some of its annotations pending. -/
structure Delayed (c late : ClassDecl) : Prop where
  members : c.members = ∅
  unbound : Unbound c.body
  shape : late = { c with body := late.body }
  body : List.Forall₂ Statement.Delays c.body late.body

/-- The names whose variables have no type after the first binding, for want of an annotation. -/
def awaited (c late : ClassDecl) : List String :=
  late.bind.members.keys.filter fun name =>
    late.bind.members.get? name ≠ c.bind.members.get? name

/-- The type with which a name is declared first. -/
def annotation? (c : ClassDecl) (name : String) : Option Binding :=
  ((declarations c.body).find? fun a => a.target.name == name).bind Assignment.declaredTy

/-- What the analyzer gets to from the first binding of a delayed class. It sets the awaited types
in any order, and runs may be put off in between. The lists say where that was, and which names
still wait. -/
inductive Resolves (v : Vocabulary) (r : Registry) (id : ClassId) (c late : ClassDecl) :
    List Registry → List String → Registry → Prop
  | bind : Resolves v r id c late [] (awaited c late) (r.set id late.bind)
  | settle {tries : List Registry} {waiting : List String} {q : Registry} {name : String}
      {ty : Binding} (before : Resolves v r id c late tries waiting q) (waits : name ∈ waiting)
      (annotated : annotation? c name = some ty) :
      Resolves v r id c late tries (waiting.filter fun other => other != name)
        ((Update.retype id name ty).apply q)
  | retry {tries : List Registry} {waiting : List String} {q : Registry} {d : Deferral}
      (before : Resolves v r id c late tries waiting q)
      (deferred : (run v q id).result = .error (.deferred d)) :
      Resolves v r id c late (q :: tries) waiting (run v q id).registry

/-- A run does what it would have done with all annotations known at the first binding: it answers
and reports the same, and leaves the same class, but for the annotations in its body. -/
def AsEarly (v : Vocabulary) (r : Registry) (id : ClassId) (c : ClassDecl) (q : Registry) : Prop :=
  let early := run v (r.set id c.bind) id
  (run v q id).result = early.result ∧ (run v q id).log = early.log ∧
    ((run v q id).registry.get? id).map ClassDecl.outline =
      (early.registry.get? id).map ClassDecl.outline

/-- Wherever all awaited types are set and the run completes, it does as if they had been known at
the first binding. -/
def LateAsEarly (v : Vocabulary) : Prop :=
  ∀ r id c late tries q s, r.get? id = some c → Delayed c late →
    Resolves v r id c late tries [] q → (run v q id).result = .ok s → AsEarly v r id c q

/-- Whether a declared variable is shared by the class. -/
def isShared (c : ClassDecl) (name : String) : Bool :=
  (c.bind.members.get? name).any fun m => m.symbol.var?.any Variable.isClassVar

/-- Of two declarations of a name, with what was known of them at the first binding: the second is
not constructor-only by an annotation that came late. -/
def Heeds (v : Vocabulary) (p q : Assignment × Assignment) : Prop :=
  p.1.target.name = q.1.target.name → q.2.declaredTy = some .pending → q.1.isInitOnly v = false

instance (v : Vocabulary) (p q : Assignment × Assignment) : Decidable (Heeds v p q) :=
  inferInstanceAs (Decidable (_ → _ → _))

/-- No awaited variable is shared, no annotation that comes late makes a further declaration of its
name constructor-only, and every run that was put off has left a body that can be read again. -/
structure Harmless (v : Vocabulary) (id : ClassId) (c late : ClassDecl) (tries : List Registry) :
    Prop where
  unshared : ∀ name ∈ awaited c late, isShared c name = false
  heeded : ((declarations c.body).zip (declarations late.body)).Pairwise (Heeds v)
  repeatable : ∀ t ∈ tries, ∀ d, t.get? id = some d → Repeatable v d.body d.members

/-! ## Binding -/

section Bind

variable {c late : ClassDecl}

/-- A declaration, and the same one with its annotation pending or not. -/
def Late (a b : Assignment) : Prop := b = a ∨ b = { a with declaredTy := some .pending }

private theorem declarations_late {body body' : List Statement}
    (h : List.Forall₂ Statement.Delays body body') :
    List.Forall₂ Late (declarations body) (declarations body') := by
  induction h with
  | nil => exact .nil
  | @cons s s' _ _ hs _ ih =>
    rw [declarations, declarations, List.filterMap_cons, List.filterMap_cons]
    cases hs with
    | same =>
      cases declaration? s with
      | none => exact ih
      | some a => exact .cons (.inl rfl) ih
    | late a t => exact .cons (.inr rfl) ih

private theorem names_late {as bs : List Assignment} (h : List.Forall₂ Late as bs) :
    bs.map (fun a => a.target.name) = as.map fun a => a.target.name := by
  induction h with
  | nil => rfl
  | cons hab _ ih =>
    rw [List.map_cons, List.map_cons, ih]
    rcases hab with he | he <;> rw [he]

private theorem names_offers_late (owner : String) {body body' : List Statement}
    (h : List.Forall₂ Statement.Delays body body') :
    (ClassDecl.offers owner body').map Prod.fst = (ClassDecl.offers owner body).map Prod.fst := by
  induction h with
  | nil => rfl
  | @cons s s' _ _ hs _ ih =>
    rw [ClassDecl.offers, ClassDecl.offers, List.filterMap_cons, List.filterMap_cons]
    cases hs with
    | same =>
      cases s.offer? owner with
      | none => exact ih
      | some e => exact congrArg (e.1 :: ·) ih
    | late a t =>
      rw [Statement.offer?, Statement.offer?]
      cases a.target.binding.isSome with
      | true => exact ih
      | false => exact congrArg (a.target.name :: ·) ih

/-- Under a name, binding offers the same for a delayed body, or the variable with its type
pending. -/
private theorem lookup_offers_late (owner : String) {body body' : List Statement}
    (unbound : Unbound body) (h : List.Forall₂ Statement.Delays body body') (name : String) :
    Table.lookup name (ClassDecl.offers owner body') =
        Table.lookup name (ClassDecl.offers owner body) ∨
      ∃ a t, (declarations body).find? (fun a => a.target.name == name) = some a ∧
        a.declaredTy = some (.resolved t) ∧
        Table.lookup name (ClassDecl.offers owner body) =
          some { symbol := .var (.declared owner name (.resolved t) a.position) } ∧
        Table.lookup name (ClassDecl.offers owner body') =
          some { symbol := .var (.declared owner name .pending a.position) } := by
  induction h with
  | nil => exact .inl rfl
  | @cons s s' body body' hs _ ih =>
    rw [ClassDecl.offers, ClassDecl.offers, declarations, List.filterMap_cons, List.filterMap_cons,
      List.filterMap_cons]
    cases hs with
    | same =>
      rcases offer?_of_unbound owner unbound with
        ⟨a, ty, ha, -, hoffer⟩ | ⟨hnone, hoffer | ⟨m, -, hoffer⟩⟩
      · rw [ha, hoffer, Table.lookup, Table.lookup]
        by_cases hname : a.target.name = name
        · exact .inl (by rw [if_pos hname, if_pos hname])
        · rw [if_neg hname, if_neg hname, List.find?_cons_of_neg (by simpa using hname)]
          exact ih unbound.cons
      · rw [hnone, hoffer]
        exact ih unbound.cons
      · rw [hnone, hoffer, Table.lookup, Table.lookup]
        by_cases hname : m.name = name
        · exact .inl (by rw [if_pos hname, if_pos hname])
        · rw [if_neg hname, if_neg hname]
          exact ih unbound.cons
    | late a t =>
      have hb : a.target.binding = none :=
        unbound { a with declaredTy := some (.resolved t) } List.mem_cons_self
      have hdeclared : declaration? (.assign { a with declaredTy := some (.resolved t) }) =
          some { a with declaredTy := some (.resolved t) } := rfl
      rw [hdeclared, Statement.offer?, Statement.offer?, hb, if_neg (by simp), if_neg (by simp)]
      dsimp only
      rw [Table.lookup, Table.lookup]
      by_cases hname : a.target.name = name
      · subst hname
        refine .inr ⟨{ a with declaredTy := some (.resolved t) }, t, ?_, rfl, if_pos rfl,
          if_pos rfl⟩
        exact List.find?_cons_of_pos (by simp)
      · rw [if_neg hname, if_neg hname, List.find?_cons_of_neg (by simpa using hname)]
        exact ih unbound.cons

namespace Delayed

theorem members_bind (h : Delayed c late) (name : String) :
    c.bind.members.get? name = Table.lookup name (ClassDecl.offers c.fullname c.body) := by
  rw [ClassDecl.bind_eq, Table.get?_offerAll, h.members, Table.get?_empty, Option.none_or]

theorem members_bind_late (h : Delayed c late) (name : String) :
    late.bind.members.get? name = Table.lookup name (ClassDecl.offers c.fullname late.body) := by
  rw [h.shape, ClassDecl.bind_eq, Table.get?_offerAll, h.members, Table.get?_empty, Option.none_or]

theorem keys_bind (h : Delayed c late) : late.bind.members.keys = c.bind.members.keys := by
  rw [h.shape, ClassDecl.bind_eq, ClassDecl.bind_eq]
  exact Table.keys_offerAll_congr rfl (names_offers_late c.fullname h.body)

/-- The member of an awaited name is that of its first declaration, with the type pending. -/
theorem get?_of_awaited (h : Delayed c late) {name : String} (mem : name ∈ awaited c late) :
    ∃ t position, annotation? c name = some (.resolved t) ∧
      c.bind.members.get? name =
        some { symbol := .var (.declared c.fullname name (.resolved t) position) } ∧
      late.bind.members.get? name =
        some { symbol := .var (.declared c.fullname name .pending position) } := by
  have hne := (List.mem_filter.mp mem).2
  rw [decide_eq_true_iff, h.members_bind, h.members_bind_late] at hne
  rw [h.members_bind, h.members_bind_late]
  rcases lookup_offers_late c.fullname h.unbound h.body name with he | ⟨a, t, ha, hty, hx, hx'⟩
  · exact absurd he hne
  · exact ⟨t, a.position, by rw [annotation?, ha, Option.bind_some, hty], hx, hx'⟩

theorem get?_of_not_awaited {name : String} (mem : name ∉ awaited c late) (h : Delayed c late) :
    late.bind.members.get? name = c.bind.members.get? name := by
  by_cases hkey : name ∈ late.bind.members.keys
  · by_contra hne
    exact mem (List.mem_filter.mpr ⟨hkey, decide_eq_true hne⟩)
  · have hkey' : name ∉ c.bind.members.keys := h.keys_bind ▸ hkey
    rw [(Table.get?_eq_none_iff _ _).mpr hkey, (Table.get?_eq_none_iff _ _).mpr hkey']

end Delayed

end Bind

/-! ## Reading -/

section Read

variable (v : Vocabulary)

private theorem scan_boundTarget (owner : String) (as : List Assignment) (t : Table Member) :
    scan v (as.map (boundTarget owner)) t = scan v as t := by
  induction as generalizing t with
  | nil => rfl
  | cons a rest ih =>
    have hfield : ∀ x, declaredField v (boundTarget owner a) x = declaredField v a x := by
      intro x
      rw [boundTarget]
      split <;> rfl
    rw [List.map_cons, scan, scan, name_boundTarget]
    cases visit (t.get? a.target.name) with
    | skip => exact ih t
    | stop => rfl
    | field x generated => simp only [ih, hfield]

private theorem Heeds.ne {p q : Assignment × Assignment} (h : Heeds v p q)
    (late : q.2.declaredTy = some .pending) (initOnly : q.1.isInitOnly v = true) :
    p.1.target.name ≠ q.1.target.name := by
  intro he
  rw [h he late] at initOnly
  cases initOnly

/-- What declares a constructor-only field by an annotation that came late is the first declaration
of its name. -/
private theorem find?_of_heeds {ps : List (Assignment × Assignment)}
    (heeded : ps.Pairwise (Heeds v)) {p : Assignment × Assignment} (hp : p ∈ ps)
    (late : p.2.declaredTy = some .pending) (initOnly : p.1.isInitOnly v = true) :
    (ps.map Prod.fst).find? (fun a => a.target.name == p.1.target.name) = some p.1 := by
  induction ps with
  | nil => cases hp
  | cons q ps ih =>
    rw [List.pairwise_cons] at heeded
    rcases List.mem_cons.mp hp with rfl | hp
    · exact List.find?_cons_of_pos (by simp)
    · have hne := (heeded.1 p hp).ne v late initOnly
      rw [List.map_cons, List.find?_cons_of_neg (by simpa using hne)]
      exact ih heeded.2 hp

/-- A declaration whose annotation came late declares the same field, where the type of its
variable is wrapped if the annotation is. -/
private theorem declaredField_late {a b : Assignment} (late : Late a b) {x : Variable}
    (wrapped : b.declaredTy = some .pending → a.isInitOnly v = true → x.isInitOnly v = true) :
    declaredField v b x = declaredField v a x := by
  rcases late with he | he
  · rw [he]
  · cases hi : a.isInitOnly v with
    | true =>
      have hx := wrapped (by rw [he]) hi
      rw [he, declaredField, declaredField, hx, Bool.true_or, Bool.true_or]
    | false =>
      rw [Assignment.isInitOnly] at hi
      rw [he, declaredField, declaredField, hi]
      rfl

/-- Reading makes the same of declarations whose annotations came late, where those that are
constructor-only find the type of their variable wrapped. -/
private theorem scan_heeded {ps : List (Assignment × Assignment)} (t : Table Member)
    (late : ∀ p ∈ ps, Late p.1 p.2) (heeded : ps.Pairwise (Heeds v))
    (wrapped : ∀ p ∈ ps, p.2.declaredTy = some .pending → p.1.isInitOnly v = true →
      ∀ x generated, visit (t.get? p.1.target.name) = .field x generated → x.isInitOnly v = true) :
    scan v (ps.map Prod.snd) t = scan v (ps.map Prod.fst) t := by
  induction ps generalizing t with
  | nil => rfl
  | cons p ps ih =>
    have hlate : ∀ q ∈ ps, Late q.1 q.2 := fun q hq => late q (List.mem_cons_of_mem _ hq)
    have hwrapped : ∀ q ∈ ps, q.2.declaredTy = some .pending → q.1.isInitOnly v = true →
        ∀ x generated, visit (t.get? q.1.target.name) = .field x generated →
          x.isInitOnly v = true :=
      fun q hq => wrapped q (List.mem_cons_of_mem _ hq)
    rw [List.pairwise_cons] at heeded
    have hname : p.2.target.name = p.1.target.name := by
      rcases late p List.mem_cons_self with he | he <;> rw [he]
    rw [List.map_cons, List.map_cons, scan, scan, hname]
    cases hv : visit (t.get? p.1.target.name) with
    | skip => exact ih t hlate heeded.2 hwrapped
    | stop => rfl
    | field x generated =>
      have hfield : declaredField v p.2 x = declaredField v p.1 x :=
        declaredField_late v (late p List.mem_cons_self) fun hpending hi =>
          wrapped p List.mem_cons_self hpending hi x generated hv
      have hnext := ih (t.insert p.1.target.name (readMember v x generated)) hlate heeded.2 (by
        -- Only this variable was unwrapped, and no other late declaration of it needs the wrapper.
        intro q hq hpending hi y g hy
        rw [Table.get?_insert, if_neg ((heeded.1 q hq).ne v hpending hi)] at hy
        exact hwrapped q hq hpending hi y g hy)
      simp only [hnext, hfield]

variable {v} {c late : ClassDecl}

/-- Once the awaited types are set, the delayed body is read as the other one. -/
theorem readBody_of_heeded (h : Delayed c late)
    (heeded : ((declarations c.body).zip (declarations late.body)).Pairwise (Heeds v)) :
    readBody v late.bind.body c.bind.members = readBody v c.bind.body c.bind.members := by
  have hlate := declarations_late h.body
  have hfst := List.map_fst_zip (Nat.le_of_eq hlate.length_eq)
  have hsnd := List.map_snd_zip (Nat.le_of_eq hlate.length_eq.symm)
  have hscan : scan v (declarations late.body) c.bind.members =
      scan v (declarations c.body) c.bind.members := by
    have hpairs := scan_heeded v c.bind.members
      (fun p hp => (List.forall₂_iff_zip.mp hlate).2 hp) heeded ?_
    · rwa [hfst, hsnd] at hpairs
    · intro p hp hpending hi x generated hx
      -- The declaration is the first of its name, so binding has created the variable from it.
      have hfind := find?_of_heeds v heeded hp hpending hi
      rw [hfst] at hfind
      obtain ⟨hget, shared⟩ := visit_eq_field hx
      rw [h.members_bind] at hget
      obtain ⟨-, a, ty, ha, hty, hdeclared⟩ := find?_of_lookup_offers c.fullname h.unbound hget
      rw [hfind] at ha
      cases ha
      cases ty with
      | pending =>
        rw [Assignment.isInitOnly, hty] at hi
        cases hi
      | resolved t =>
        rw [Assignment.isInitOnly, hty] at hi
        subst hdeclared
        rw [declared_plain shared]
        exact hi
  rw [readBody_eq_scan, readBody_eq_scan, declarations_bind, declarations_bind, scan_boundTarget,
    scan_boundTarget, hscan]

end Read

/-! ## Setting types -/

section Settle

/-- Giving a variable a type puts it in its place. -/
private theorem retype_eq {t : Table Member} {name : String} {x : Variable} {generated : Bool}
    (h : t.get? name = some { symbol := .var x, generated }) (ty : Binding) :
    t.retype name ty = t.insert name { symbol := .var { x with ty }, generated } := by
  rw [Table.retype, h]
  rfl

private theorem apply_retype {q : Registry} {id : ClassId} {d : ClassDecl}
    (registered : q.get? id = some d) (name : String) (ty : Binding) :
    (Update.retype id name ty).apply q =
      q.set id { d with members := d.members.retype name ty } := by
  rw [Update.apply, Registry.modify, registered]

variable {v : Vocabulary} {r : Registry} {id : ClassId} {old c late : ClassDecl}
  {tries : List Registry} {waiting : List String} {q : Registry}

/-- The class on the way from its first binding: the body is bound, the variables differ in their
types alone, and those that still wait not even in that. -/
structure Underway (late : ClassDecl) (waiting : List String) (d : ClassDecl) : Prop where
  body : d.body = late.bind.body
  waits : ∀ name ∈ waiting, d.members.get? name = late.bind.members.get? name
  typed : ∀ name x generated, late.bind.members.get? name = some { symbol := .var x, generated } →
    ∃ ty, d.members.get? name = some { symbol := .var { x with ty }, generated }

theorem Resolves.subset (h : Resolves v r id c late tries waiting q) :
    waiting ⊆ awaited c late := by
  induction h with
  | bind => exact List.Subset.refl _
  | settle _ _ _ ih => exact fun name hname => ih (List.mem_filter.mp hname).1
  | retry _ _ ih => exact ih

/-- Setting an awaited type keeps the class underway. -/
theorem Underway.retype {d : ClassDecl} (h : Underway late waiting d) (delayed : Delayed c late)
    {name : String} (mem : name ∈ awaited c late) (waits : name ∈ waiting) (ty : Binding) :
    Underway late (waiting.filter fun other => other != name)
      { d with members := d.members.retype name ty } := by
  obtain ⟨t, position, -, -, hlate⟩ := delayed.get?_of_awaited mem
  have hget := (h.waits name waits).trans hlate
  refine ⟨h.body, ?_, ?_⟩
  · intro other hother
    obtain ⟨hmem, hne⟩ := List.mem_filter.mp hother
    have hne : other ≠ name := by simpa using hne
    dsimp only
    rw [retype_eq hget, Table.get?_insert, if_neg (Ne.symm hne)]
    exact h.waits other hmem
  · intro other x generated hx
    dsimp only
    rw [retype_eq hget, Table.get?_insert]
    by_cases hname : name = other
    · subst hname
      rw [hlate] at hx
      cases hx
      exact ⟨ty, if_pos rfl⟩
    · rw [if_neg hname]
      exact h.typed other x generated hx

/-- A run that is put off keeps the class underway: it has no wrapper to take off a type that is
pending. -/
theorem Underway.read {d : ClassDecl} (h : Underway late waiting d) (delayed : Delayed c late)
    (subset : waiting ⊆ awaited c late) : Underway late waiting (readClass v d) := by
  have hpeeled := peeled_readClass v d
  refine ⟨h.body, ?_, ?_⟩
  · intro name hname
    obtain ⟨t, position, -, -, hlate⟩ := delayed.get?_of_awaited (subset hname)
    have hget := (h.waits name hname).trans hlate
    rcases hpeeled.members name with he | ⟨-, -, -, x, ty, u, generated, hx, hty, -, -⟩
    · exact he.trans (h.waits name hname)
    · rw [hget] at hx
      cases hx
      cases hty
  · intro name x generated hx
    obtain ⟨ty, hget⟩ := h.typed name x generated hx
    rcases hpeeled.members name with he | ⟨-, -, -, y, ty', u, g, hy, -, -, hread⟩
    · exact ⟨ty, he.trans hget⟩
    · rw [hget] at hy
      cases hy
      exact ⟨.resolved u, hread⟩

theorem Resolves.underway (registered : r.get? id = some old) (delayed : Delayed c late)
    (h : Resolves v r id c late tries waiting q) :
    ∃ d, q.get? id = some d ∧ Underway late waiting d := by
  induction h with
  | bind =>
    refine ⟨late.bind, ?_, rfl, fun _ _ => rfl, fun _ x _ hx => ⟨x.ty, hx⟩⟩
    rw [Registry.get?_set registered, if_pos rfl]
  | @settle tries waiting q name ty before waits _ ih =>
    obtain ⟨d, hd, hunder⟩ := ih
    refine ⟨_, ?_, hunder.retype delayed (before.subset waits) waits ty⟩
    rw [apply_retype hd, Registry.get?_set hd, if_pos rfl]
  | retry before deferred ih =>
    obtain ⟨d, hd, hunder⟩ := ih
    refine ⟨readClass v d, ?_, hunder.read delayed before.subset⟩
    rw [registry_of_halt v hd deferred, Registry.get?_set hd, if_pos rfl]

/-! ## Without the runs in between -/

/-- Whatever types are set next, a run does the same in both registries. -/
def SameAfter (v : Vocabulary) (id : ClassId) (waiting : List String) (q q' : Registry) : Prop :=
  ∀ ups : List Update, (∀ up ∈ ups, ∃ name ∈ waiting, ∃ ty, up = .retype id name ty) →
    run v (Update.applyAll ups q) id = run v (Update.applyAll ups q') id

/-- The members after the first binding, with the awaited types set but for those that still
wait. -/
structure Filled (c late : ClassDecl) (waiting : List String) (t : Table Member) : Prop where
  keys : t.keys = late.bind.members.keys
  members : ∀ name, t.get? name =
    if name ∈ awaited c late ∧ name ∉ waiting then c.bind.members.get? name
    else late.bind.members.get? name

/-- The types of a delayed class that is no longer waiting are those of the other one. -/
theorem Filled.eq_bind {t : Table Member} (h : Filled c late [] t) (delayed : Delayed c late) :
    t = c.bind.members := by
  apply Table.ext_get? (h.keys.trans delayed.keys_bind)
  intro name
  rw [h.members]
  split
  · rfl
  · next hnot =>
    exact delayed.get?_of_not_awaited fun hmem => hnot ⟨hmem, List.not_mem_nil⟩

/-- Setting an awaited type fills the table, where the variable is not shared. -/
theorem Filled.retype {t : Table Member} (h : Filled c late waiting t) (delayed : Delayed c late)
    {name : String} {ty : Binding} (mem : name ∈ awaited c late) (waits : name ∈ waiting)
    (annotated : annotation? c name = some ty) (unshared : isShared c name = false) :
    Filled c late (waiting.filter fun other => other != name) (t.retype name ty) := by
  obtain ⟨u, position, hannotated, hearly, hlate⟩ := delayed.get?_of_awaited mem
  rw [annotated, Option.some.injEq] at hannotated
  subst hannotated
  have hget : t.get? name =
      some { symbol := .var (.declared c.fullname name .pending position) } := by
    rw [h.members, if_neg fun hn => hn.2 waits, hlate]
  have hplain : Variable.declared c.fullname name (.resolved u) position =
      { Variable.declared c.fullname name .pending position with ty := .resolved u } := by
    rw [isShared, hearly] at unshared
    exact declared_plain unshared
  rw [hplain] at hearly
  rw [retype_eq hget]
  constructor
  · rw [Table.keys_insert, if_pos, h.keys]
    rw [Table.mem_keys_iff, hget]
    rfl
  · intro other
    rw [Table.get?_insert]
    by_cases hname : name = other
    · subst hname
      rw [if_pos rfl, if_pos ⟨mem, by simp⟩, hearly]
    · have hiff : other ∉ waiting.filter (fun other => other != name) ↔ other ∉ waiting := by
        have hne : other ≠ name := Ne.symm hname
        simp [hne]
      rw [if_neg hname, h.members]
      simp only [hiff]

/-- What goes on in the same way after one of several types goes on so after this one. -/
theorem SameAfter.settle {q' : Registry} (h : SameAfter v id waiting q q') {name : String}
    (waits : name ∈ waiting) (ty : Binding) :
    SameAfter v id (waiting.filter fun other => other != name)
      ((Update.retype id name ty).apply q) ((Update.retype id name ty).apply q') := by
  intro ups hups
  apply h (.retype id name ty :: ups)
  intro up hup
  rcases List.mem_cons.mp hup with rfl | hup
  · exact ⟨name, waits, ty, rfl⟩
  · obtain ⟨other, hother, he⟩ := hups up hup
    exact ⟨other, (List.mem_filter.mp hother).1, he⟩

/-- A run that was put off and leaves no trace makes no difference to what goes on, as long as it
has not changed what still waits. -/
theorem SameAfter.retry {q' : Registry} (h : SameAfter v id waiting q q')
    (transparent : Transparent v q id)
    (spared : ∀ name ∈ waiting, q.member? id name = (run v q id).registry.member? id name) :
    SameAfter v id waiting (run v q id).registry q' := by
  intro ups hups
  rw [← h ups hups]
  apply transparent
  intro up hup
  obtain ⟨name, hname, ty, rfl⟩ := hups up hup
  exact spared name hname

/-- Where runs that were put off have left bodies that can be read again, the rest goes as if there
had been none, and the types had been set alone. -/
theorem Resolves.sameAfter (registered : r.get? id = some old) (delayed : Delayed c late)
    (unshared : ∀ name ∈ awaited c late, isShared c name = false)
    (h : Resolves v r id c late tries waiting q)
    (repeatable : ∀ t ∈ tries, ∀ d, t.get? id = some d → Repeatable v d.body d.members) :
    ∃ t, Filled c late waiting t ∧
      SameAfter v id waiting q (r.set id { late.bind with members := t }) := by
  -- Beside the registry runs another one, in which the same types are set and nothing is tried.
  induction h with
  | bind =>
    refine ⟨late.bind.members, ⟨rfl, fun name => ?_⟩, fun _ _ => rfl⟩
    rw [if_neg fun h => h.2 h.1]
  | @settle tries waiting q name ty before waits annotated ih =>
    obtain ⟨t, hfilled, hsame⟩ := ih repeatable
    have hmem := before.subset waits
    have hget : (r.set id { late.bind with members := t }).get? id =
        some { late.bind with members := t } := by
      rw [Registry.get?_set registered, if_pos rfl]
    have hnext := hsame.settle waits ty
    rw [apply_retype hget, Registry.set_set] at hnext
    exact ⟨_, hfilled.retype delayed hmem waits annotated (unshared name hmem), hnext⟩
  | @retry tries waiting q deferral before deferred ih =>
    obtain ⟨t, hfilled, hsame⟩ := ih fun t ht => repeatable t (List.mem_cons_of_mem _ ht)
    obtain ⟨d, hd, hunder⟩ := before.underway registered delayed
    obtain ⟨d', hd', hunder'⟩ := (before.retry deferred).underway registered delayed
    have htransparent := (repeatable q List.mem_cons_self d hd).transparent v hd deferred
    refine ⟨t, hfilled, hsame.retry htransparent fun name hname => ?_⟩
    rw [Registry.member?, Registry.member?, hd, hd', Option.bind_some, Option.bind_some,
      hunder.waits name hname, hunder'.waits name hname]

/-- Without a shared variable among the awaited ones, and without a trace of the runs that were put
off, types that come late make no difference. -/
theorem asEarly_of_harmless (registered : r.get? id = some old) (delayed : Delayed c late)
    (resolves : Resolves v r id c late tries [] q) (harmless : Harmless v id c late tries) :
    AsEarly v r id c q := by
  obtain ⟨t, hfilled, hsame⟩ :=
    resolves.sameAfter registered delayed harmless.unshared harmless.repeatable
  have hrun : run v q id = run v (r.set id { late.bind with members := t }) id := hsame [] (by simp)
  have hclass : { late.bind with members := t } = { c.bind with body := late.bind.body } := by
    rw [hfilled.eq_bind delayed, delayed.shape]
    rfl
  rw [hclass] at hrun
  have hread := readBody_of_heeded delayed harmless.heeded
  rw [AsEarly, hrun]
  exact run_body_congr v registered c.bind late.bind.body hread

end Settle

/-! ## Shared variables -/

section Shared

variable {v : Vocabulary} {r q : Registry} {id : ClassId} {c late : ClassDecl}
  {tries : List Registry} {s : Synthesis} {name : String}

/-- The run that completes takes every awaited variable for a field. -/
private theorem mem_fields_of_awaited (registered : r.get? id = some c) (delayed : Delayed c late)
    (resolves : Resolves v r id c late tries [] q) (completes : (run v q id).result = .ok s)
    (mem : name ∈ awaited c late) : name ∈ s.fields.map Field.name := by
  obtain ⟨d, hd, hunder⟩ := resolves.underway registered delayed
  obtain ⟨own, m, hown, hm, hs, -, -⟩ := run_of_ok hd completes
  obtain ⟨t, position, hannotated, -, hlate⟩ := delayed.get?_of_awaited mem
  obtain ⟨a, ha, -⟩ := Option.bind_eq_some_iff.mp hannotated
  obtain ⟨ty, hget⟩ := hunder.typed name _ _ hlate
  have hdeclared : name ∈ (declarations d.body).map fun a => a.target.name := by
    have hnames : (declarations late.body).map (fun a => a.target.name) =
        (declarations c.body).map fun a => a.target.name :=
      names_late (declarations_late delayed.body)
    have hname : a.target.name = name := by simpa using List.find?_some ha
    rw [hunder.body, names_bind, hnames, ← hname]
    exact List.mem_map_of_mem (List.mem_of_find?_eq_some ha)
  have hmem : name ∈ own.map Field.name := by
    rw [names_of_readBody v hown, mem_fieldNames]
    refine ⟨hdeclared, ?_⟩
    rw [hget]
    rfl
  obtain ⟨f, hf, hname⟩ := List.mem_map.mp hmem
  rw [hs, ← hname]
  exact List.mem_map_of_mem ((mem_plain_of_gather (gather_of_collect hm)).1 f hf)

private theorem isField_of_shared (h : isShared c name = true) :
    isField (c.bind.members.get? name) = false := by
  rw [isShared] at h
  generalize c.bind.members.get? name = m at h ⊢
  rcases m with _ | ⟨symbol, generated⟩
  · rfl
  · cases symbol with
    | var x =>
      have hx : x.isClassVar = true := h
      simp [isField, visit, hx]
    | method m => rfl
    | typeVar d => rfl
    | placeholder => rfl

/-- With all annotations known at the first binding, a shared variable is no field, unless an
ancestor has recorded one of its name. -/
private theorem not_mem_fields_of_shared (registered : r.get? id = some c)
    (completes : (run v (r.set id c.bind) id).result = .ok s) (shared : isShared c name = true)
    (unrecorded : ∀ a ∈ interior c.mro, ∀ d record, r.get? a = some d →
      d.record? v.recordKey = .ok (some record) → name ∉ record.fields.map Field.name) :
    name ∉ s.fields.map Field.name := by
  have hget := Registry.get?_set registered
  obtain ⟨own, m, hown, hm, hs, -, -⟩ := run_of_ok (by rw [hget, if_pos rfl]) completes
  rw [Registry.set_set] at hm
  rw [hs]
  intro hmem
  obtain ⟨f, hf, hname⟩ := List.mem_map.mp hmem
  subst hname
  rcases (mem_plain_of_gather (gather_of_collect hm)).2 f hf with hf | ⟨-, e, he, hf⟩
  · have hfield := List.mem_map_of_mem (f := Field.name) hf
    rw [names_of_readBody v hown, mem_fieldNames, isField_of_shared shared] at hfield
    exact Bool.false_ne_true hfield.2
  · obtain ⟨a, ha, hd, hrecord⟩ := mem_recorded.mp he
    have hread : ∃ d, r.get? a = some d ∧ d.record? v.recordKey = .ok (some e.2) := by
      rw [hget] at hd
      split at hd
      · next hid =>
        rw [← Option.some.inj hd] at hrecord
        exact ⟨c, hid ▸ registered, hrecord⟩
      · exact ⟨e.1, hd, hrecord⟩
    obtain ⟨d, hd, hrecord⟩ := hread
    exact unrecorded a ha d e.2 hd hrecord (List.mem_map_of_mem hf)

/-- Types that come late make no difference to a run, where no awaited variable is shared by the
class and the runs that were put off have left no trace. A shared one becomes a field, and is none
with all annotations known at the first binding. -/
theorem late_resolution (registered : r.get? id = some c) (delayed : Delayed c late)
    (resolves : Resolves v r id c late tries [] q) :
    (Harmless v id c late tries → AsEarly v r id c q) ∧
      ∀ s name, (run v q id).result = .ok s → name ∈ awaited c late → isShared c name = true →
        (∀ a ∈ interior c.mro, ∀ d record, r.get? a = some d →
          d.record? v.recordKey = .ok (some record) → name ∉ record.fields.map Field.name) →
        ¬ AsEarly v r id c q := by
  refine ⟨asEarly_of_harmless registered delayed resolves, ?_⟩
  intro s name completes mem shared unrecorded same
  have hearly : (run v (r.set id c.bind) id).result = .ok s := same.1 ▸ completes
  exact not_mem_fields_of_shared registered hearly shared unrecorded
    (mem_fields_of_awaited registered delayed resolves completes mem)

end Shared

/-- A class with three annotations, of which the one of `x` is constructor-only. -/
private def annotated (k y : Binding) : ClassDecl where
  name := "C"
  fullname := "C"
  mro := [0]
  body := [
    .assign { target := { name := "k" }, declaredTy := some k },
    .assign
      { target := { name := "x" }
        declaredTy := some (.resolved (.inst "dataclasses.InitVar" [.named "builtins.int"])) },
    .assign { target := { name := "y" }, declaredTy := some y }]

private def initOnlyStr : Ty := .inst "dataclasses.InitVar" [.named "builtins.str"]

private def sharedInt : Ty := .inst classVarWrapper [.named "builtins.int"]

private def whole : ClassDecl := annotated (.resolved .any) (.resolved initOnlyStr)

/-- The registry after a run that was put off and two types that were set then. -/
private def resolvedLate : Registry :=
  (Update.retype 0 "k" (.resolved .any)).apply
    ((Update.retype 0 "y" (.resolved initOnlyStr)).apply
      (run {} ⟨[(annotated .pending .pending).bind]⟩ 0).registry)

private theorem resolves_late :
    Resolves {} ⟨[whole]⟩ 0 whole (annotated .pending .pending)
      [⟨[(annotated .pending .pending).bind]⟩] [] resolvedLate := by
  have start : Resolves {} ⟨[whole]⟩ 0 whole (annotated .pending .pending) [] ["k", "y"]
      ⟨[(annotated .pending .pending).bind]⟩ := .bind
  have deferred : (run {} ⟨[(annotated .pending .pending).bind]⟩ 0).result =
      .error (.deferred (.pendingType "k")) := by rfl
  have first : Resolves {} ⟨[whole]⟩ 0 whole (annotated .pending .pending)
      [⟨[(annotated .pending .pending).bind]⟩] ["k"] _ :=
    (start.retry deferred).settle (show "y" ∈ ["k", "y"] by decide) rfl
  exact first.settle (show "k" ∈ ["k"] by decide) rfl

theorem late_resolution_init_only :
    (run {} resolvedLate 0).result =
        .ok { fields := [{ name := "k" }, { name := "x", initOnly := true },
                { name := "y", initOnly := true }]
              flags := {}, generated := ["__init__", "_DT", "__eq__", "__ne__"]
              dependencies := [] } ∧
      AsEarly {} ⟨[whole]⟩ 0 whole resolvedLate := by
  have delayed : Delayed whole (annotated .pending .pending) := by
    refine ⟨rfl, by unfold Unbound; decide, rfl, ?_⟩
    exact .cons (.late { target := { name := "k" } } _) (.cons (.same _)
      (.cons (.late { target := { name := "y" } } _) .nil))
  refine ⟨by rfl, (late_resolution rfl delayed resolves_late).1 ⟨by decide, by decide, ?_⟩⟩
  intro t ht d hd
  rw [List.mem_singleton.mp ht] at hd
  cases hd
  decide

private def sharing : ClassDecl := annotated (.resolved sharedInt) (.resolved .any)

private def sharingLate : ClassDecl := annotated .pending (.resolved .any)

/-- An annotation that says that a variable is shared and comes late makes it a field. -/
theorem not_lateAsEarly : ¬ LateAsEarly {} := by
  intro h
  have delayed : Delayed sharing sharingLate := by
    refine ⟨rfl, by unfold Unbound; decide, rfl, ?_⟩
    exact .cons (.late { target := { name := "k" } } _) (.cons (.same _) (.cons (.same _) .nil))
  have start : Resolves {} ⟨[sharing]⟩ 0 sharing sharingLate [] ["k"] ⟨[sharingLate.bind]⟩ := .bind
  have resolves : Resolves {} ⟨[sharing]⟩ 0 sharing sharingLate [] [] _ :=
    start.settle (show "k" ∈ ["k"] by decide) rfl
  have hsame := h _ _ _ _ _ _ _ rfl delayed resolves rfl
  exact absurd hsame.1 (by decide)

end Synthesis

end DataHolder
