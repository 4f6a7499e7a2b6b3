import DataHolder.Proofs.Table
import DataHolder.Synthesis.Own

/-!
# Reading a body

Reading looks at the declarations of a body alone, and at each of them at one name of the
table. `scan` is reading with nothing else in the way, and `readBody_eq_scan` says that it is
the same. A second part compares two tables of which one is what reading has left of the
other: `scan_related` says what reading makes of both.
-/

namespace DataHolder

/-- Whether the annotation of an assignment is wrapped as constructor-only. -/
def Assignment.isInitOnly (v : Vocabulary) (a : Assignment) : Bool :=
  (a.declaredTy.bind Binding.ty?).any v.isInitOnly

namespace Synthesis

/-! ## The declarations of a body -/

/-- The declaration that a statement is. -/
def declaration? : Statement → Option Assignment
  | .assign a => if a.isDeclaration then some a else none
  | _ => none

/-- The declarations of a body, in body order. -/
def declarations (body : List Statement) : List Assignment := body.filterMap declaration?

/-- What reading does at a declaration: it passes over it, stops, or reads a field. -/
inductive Visit where
  | skip
  | stop
  | field (x : Variable) (generated : Bool)

/-- What reading does at a declaration whose name has this member. -/
def visit : Option Member → Visit
  | some { symbol := .var x, generated } => if x.isClassVar then .skip else .field x generated
  | some { symbol := .placeholder, .. } => .stop
  | _ => .skip

/-- The member of a field that was read. -/
def readMember (v : Vocabulary) (x : Variable) (generated : Bool) : Member :=
  { symbol := .var (x.unwrap v), generated }

/-- Read declarations one after the other. -/
def scan (v : Vocabulary) :
    List Assignment → Table Member → Table Member × Except Deferral (List Field)
  | [], t => (t, .ok [])
  | a :: rest, t =>
    match visit (t.get? a.target.name) with
    | .skip => scan v rest t
    | .stop => (t, .error (.placeholder a.target.name))
    | .field x generated =>
      let next := scan v rest (t.insert a.target.name (readMember v x generated))
      (next.1, next.2.map fun fs => declaredField v a x :: fs)

/-- The declarations that reading takes for fields, with the variables that it finds. -/
def visits (v : Vocabulary) : List Assignment → Table Member → List (Assignment × Variable)
  | [], _ => []
  | a :: rest, t =>
    match visit (t.get? a.target.name) with
    | .skip => visits v rest t
    | .stop => []
    | .field x generated =>
      (a, x) :: visits v rest (t.insert a.target.name (readMember v x generated))

/-- Reading a body is reading its declarations. -/
theorem readBody_eq_scan (v : Vocabulary) (body : List Statement) (t : Table Member) :
    readBody v body t = scan v (declarations body) t := by
  induction body generalizing t with
  | nil => rfl
  | cons s rest ih =>
    cases s with
    | method m => exact ih t
    | pass => exact ih t
    | assign a =>
      by_cases h : a.isDeclaration
      · have hcons : declarations (.assign a :: rest) = a :: declarations rest := by
          simp [declarations, declaration?, h]
        rw [hcons, readBody, if_pos h, scan]
        cases hm : t.get? a.target.name with
        | none => exact ih t
        | some m =>
          obtain ⟨symbol, generated⟩ := m
          cases symbol with
          | var x =>
            by_cases hc : x.isClassVar = true
            · simp only [visit, if_pos hc]
              exact ih t
            · simp only [visit, if_neg hc, ih]
              rfl
          | method m => exact ih t
          | typeVar d => exact ih t
          | placeholder => rfl
      · have hskip : declarations (.assign a :: rest) = declarations rest := by
          simp [declarations, declaration?, h]
        rw [hskip, readBody, if_neg h]
        exact ih t

section Scan

variable (v : Vocabulary)

theorem visit_eq_field {m : Option Member} {x : Variable} {generated : Bool}
    (h : visit m = .field x generated) :
    m = some { symbol := .var x, generated } ∧ x.isClassVar = false := by
  unfold visit at h
  split at h
  · split at h
    · cases h
    · next hc =>
      cases h
      exact ⟨rfl, by simpa using hc⟩
  · cases h
  · cases h

theorem visit_eq_stop {m : Option Member} (h : visit m = .stop) :
    ∃ generated, m = some { symbol := .placeholder, generated } := by
  unfold visit at h
  split at h
  · split at h <;> cases h
  · next generated => exact ⟨generated, rfl⟩
  · cases h

/-- Unwrapping changes the type alone. -/
theorem unwrap_eq (x : Variable) : x.unwrap v = { x with ty := (x.unwrap v).ty } := by
  unfold Variable.unwrap
  split
  · split <;> rfl
  · rfl

/-- Reading adds no name and takes none away. -/
theorem keys_scan (as : List Assignment) (t : Table Member) : (scan v as t).1.keys = t.keys := by
  induction as generalizing t with
  | nil => rfl
  | cons a rest ih =>
    rw [scan]
    cases h : visit (t.get? a.target.name) with
    | skip => exact ih t
    | stop => rfl
    | field x generated =>
      have hmem : a.target.name ∈ t.keys := by
        rw [Table.mem_keys_iff, (visit_eq_field h).1]
        rfl
      rw [show (scan v rest (t.insert a.target.name (readMember v x generated))).1.keys = _
        from ih _, Table.keys_insert, if_pos hmem]

/-- Reading keeps every member but the variables of fields, whose types it may unwrap. -/
theorem get?_scan (as : List Assignment) (t : Table Member) (name : String) :
    (scan v as t).1.get? name = t.get? name ∨
      ∃ x ty generated, t.get? name = some { symbol := .var x, generated } ∧
        x.isClassVar = false ∧
        (scan v as t).1.get? name = some { symbol := .var { x with ty }, generated } := by
  induction as generalizing t with
  | nil => exact .inl rfl
  | cons a rest ih =>
    rw [scan]
    cases h : visit (t.get? a.target.name) with
    | skip => exact ih t
    | stop => exact .inl rfl
    | field x generated =>
      obtain ⟨hget, hclass⟩ := visit_eq_field h
      have hunwrap := unwrap_eq v x
      have hnext := ih (t.insert a.target.name (readMember v x generated))
      rw [Table.get?_insert] at hnext
      by_cases hname : a.target.name = name
      · subst hname
        rw [if_pos rfl] at hnext
        refine .inr ⟨x, ?_⟩
        rcases hnext with hnext | ⟨y, ty, g, hy, -, hnext⟩
        · refine ⟨(x.unwrap v).ty, generated, hget, hclass, ?_⟩
          rw [hnext, readMember, ← hunwrap]
        · rw [readMember, hunwrap] at hy
          cases hy
          exact ⟨ty, generated, hget, hclass, hnext⟩
      · rw [if_neg hname] at hnext
        exact hnext

/-! ## A table and what reading has left of it -/

/-- Two tables differ as `t` and what reading leaves of it, `u`: where these agree, the tables
agree with each other, and elsewhere they agree with them. -/
structure Apart (t u s s' : Table Member) : Prop where
  keys : s.keys = s'.keys
  same : ∀ name, t.get? name = u.get? name → s.get? name = s'.get? name
  moved : ∀ name, t.get? name ≠ u.get? name →
    s.get? name = t.get? name ∧ s'.get? name = u.get? name
  stops : ∀ name, visit (s.get? name) = .stop → visit (t.get? name) = .stop

/-- A second reading finds the fields of a first one, some of them constructor-only no more when
`lost`, and otherwise all as they were. -/
def Loosens (lost : Prop) :
    Except Deferral (List Field) → Except Deferral (List Field) → Prop
  | .ok fs, .ok fs' =>
    fs.map Field.name = fs'.map Field.name ∧
      (lost → fs'.countP Field.initOnly < fs.countP Field.initOnly) ∧ (¬ lost → fs = fs')
  | .error d, .error d' => d = d'
  | _, _ => False

private theorem Loosens.refl {lost : Prop} (h : ¬ lost)
    (e : Except Deferral (List Field)) : Loosens lost e e := by
  cases e with
  | error d => rfl
  | ok fs => exact ⟨rfl, fun hl => absurd hl h, fun _ => rfl⟩

private theorem Loosens.cons {lost here : Prop} {e e' : Except Deferral (List Field)}
    {f f' : Field} (h : Loosens lost e e') (name : f.name = f'.name)
    (gone : here → f.initOnly = true ∧ f'.initOnly = false) (kept : ¬ here → f = f') :
    Loosens (here ∨ lost) (e.map fun fs => f :: fs) (e'.map fun fs => f' :: fs) := by
  cases e with
  | error d =>
    cases e' with
    | error d' => exact h
    | ok fs' => exact h
  | ok fs =>
    cases e' with
    | error d' => exact h
    | ok fs' =>
      obtain ⟨hnames, hlost, hkept⟩ := h
      refine ⟨?_, ?_, ?_⟩
      · rw [List.map_cons, List.map_cons, hnames, name]
      · intro hor
        rw [List.countP_cons, List.countP_cons]
        by_cases hh : here
        · obtain ⟨hf, hf'⟩ := gone hh
          have hle : fs'.countP Field.initOnly ≤ fs.countP Field.initOnly := by
            by_cases hl : lost
            · exact Nat.le_of_lt (hlost hl)
            · exact Nat.le_of_eq (by rw [hkept hl])
          rw [if_pos hf, if_neg (by simp [hf'])]
          omega
        · have hlt := hlost (hor.resolve_left hh)
          rw [kept hh]
          omega
      · intro hn
        rw [not_or] at hn
        rw [kept hn.1, hkept hn.2]

/-- Reading takes a constructor-only type for one that it was not annotated with. -/
def Unannotated (as : List Assignment) (t : Table Member) : Prop :=
  ∃ p ∈ visits v as t, p.2.isInitOnly v = true ∧ p.1.isInitOnly v = false

/-- The variables of the fields that reading finds in `t` are not wrapped in `u`. -/
def Unwrapped (as : List Assignment) (t u : Table Member) : Prop :=
  ∀ p ∈ visits v as t,
    (u.get? p.1.target.name).any (fun m => m.symbol.var?.any (Variable.isInitOnly v)) = false

instance (as : List Assignment) (t u : Table Member) : Decidable (Unwrapped v as t u) :=
  inferInstanceAs (Decidable (∀ p ∈ visits v as t, _ = false))

private theorem Unwrapped.isInitOnly {as : List Assignment} {t u : Table Member}
    (h : Unwrapped v as t u) {p : Assignment × Variable} (hp : p ∈ visits v as t) {x : Variable}
    {generated : Bool} (hx : u.get? p.1.target.name = some { symbol := .var x, generated }) :
    x.isInitOnly v = false := by
  have hu := h p hp
  rw [hx] at hu
  exact hu

private theorem visit_readMember (x : Variable) (generated : Bool) :
    visit (some (readMember v x generated)) ≠ .stop := by
  rw [readMember, visit]
  split <;> exact Visit.noConfusion

/-- Storing a member where `t` and `u` agree keeps the tables apart as they were. -/
theorem Apart.insert {t u s s' : Table Member} (h : Apart t u s s') {name : String}
    (agree : t.get? name = u.get? name) (m : Member)
    (stops : visit (some m) = .stop → visit (t.get? name) = .stop) :
    Apart t u (s.insert name m) (s'.insert name m) := by
  constructor
  · rw [Table.keys_insert, Table.keys_insert, h.keys]
  · intro other ho
    rw [Table.get?_insert, Table.get?_insert, h.same other ho]
  · intro other ho
    have hne : name ≠ other := fun e => ho (e ▸ agree)
    rw [Table.get?_insert, Table.get?_insert, if_neg hne, if_neg hne]
    exact h.moved other ho
  · intro other ho
    rw [Table.get?_insert] at ho
    split at ho
    · next he => exact he ▸ stops ho
    · exact h.stops other ho

/-- Reading a field at a name where the tables differ takes one of them a step further. -/
private theorem Apart.insert_moved {t u s s' : Table Member} (h : Apart t u s s') {name : String}
    {x y : Variable} {generated : Bool}
    (read : u.get? name = some (readMember v y generated)) :
    Apart (t.insert name (readMember v x generated)) u
      (s.insert name (readMember v x generated)) (s'.insert name (readMember v y generated)) := by
  constructor
  · rw [Table.keys_insert, Table.keys_insert, h.keys]
  · intro other ho
    rw [Table.get?_insert] at ho
    rw [Table.get?_insert, Table.get?_insert]
    by_cases hname : name = other
    · subst hname
      rw [if_pos rfl, read] at ho
      rw [if_pos rfl, if_pos rfl, ho]
    · rw [if_neg hname] at ho
      rw [if_neg hname, if_neg hname, h.same other ho]
  · intro other ho
    rw [Table.get?_insert] at ho
    rw [Table.get?_insert, Table.get?_insert, Table.get?_insert]
    by_cases hname : name = other
    · subst hname
      rw [if_pos rfl, if_pos rfl, if_pos rfl, read]
      exact ⟨rfl, rfl⟩
    · rw [if_neg hname] at ho
      rw [if_neg hname, if_neg hname, if_neg hname]
      exact h.moved other ho
  · intro other ho
    rw [Table.get?_insert] at ho
    rw [Table.get?_insert]
    by_cases hname : name = other
    · rw [if_pos hname] at ho
      exact absurd ho (visit_readMember v x generated)
    · rw [if_neg hname] at ho
      rw [if_neg hname]
      exact h.stops other ho

theorem Apart.eq_of_read {t s s' : Table Member} (h : Apart t t s s') : s = s' :=
  Table.ext_get? h.keys fun name => h.same name rfl

theorem unwrap_of_not_initOnly {x : Variable} (h : x.isInitOnly v = false) : x.unwrap v = x := by
  unfold Variable.unwrap
  split
  · next t ht =>
    have hwrapped : v.isInitOnly t = false := by
      simpa [Variable.isInitOnly, ht, Binding.ty?] using h
    rw [if_neg (by simp [hwrapped])]
  · rfl

/-- At a declaration whose name both tables resolve alike, reading makes the same of both. -/
private theorem scan_related_same {a : Assignment} {rest : List Assignment}
    {t u s s' : Table Member} {lost : Prop} (h : Apart t u s s')
    (agree : t.get? a.target.name = u.get? a.target.name)
    (goes : visit (t.get? a.target.name) ≠ .stop)
    (ih : ∀ s s', Apart t u s s' →
      (scan v rest s).1 = (scan v rest s').1 ∧ Loosens lost (scan v rest s).2 (scan v rest s').2) :
    (scan v (a :: rest) s).1 = (scan v (a :: rest) s').1 ∧
      Loosens lost (scan v (a :: rest) s).2 (scan v (a :: rest) s').2 := by
  rw [scan, scan, ← h.same _ agree]
  cases hv : visit (s.get? a.target.name) with
  | skip => exact ih s s' h
  | stop => exact absurd (h.stops _ hv) goes
  | field x generated =>
    obtain ⟨htable, hread⟩ := ih _ _
      (h.insert agree _ fun hs => absurd hs (visit_readMember v x generated))
    refine ⟨htable, ?_⟩
    have hcons : Loosens (False ∨ lost)
        ((scan v rest (s.insert a.target.name (readMember v x generated))).2.map
          fun fs => declaredField v a x :: fs)
        ((scan v rest (s'.insert a.target.name (readMember v x generated))).2.map
          fun fs => declaredField v a x :: fs) :=
      hread.cons rfl False.elim fun _ => rfl
    rwa [false_or] at hcons

/-- At a declaration whose variable was unwrapped, reading makes the same table of both, and a
field that is constructor-only no more where it was so by its type alone. -/
private theorem scan_related_moved {a : Assignment} {rest : List Assignment}
    {t u s s' : Table Member} {x : Variable} {generated : Bool} {lost : Prop}
    (h : Apart t u s s') (hv : visit (t.get? a.target.name) = .field x generated)
    (moved : t.get? a.target.name ≠ u.get? a.target.name)
    (left : (scan v rest (t.insert a.target.name (readMember v x generated))).1 = u)
    (flat : ∀ y, u.get? a.target.name = some { symbol := .var y, generated } →
      y.isInitOnly v = false)
    (ih : ∀ s s', Apart (t.insert a.target.name (readMember v x generated)) u s s' →
      (scan v rest s).1 = (scan v rest s').1 ∧ Loosens lost (scan v rest s).2 (scan v rest s').2) :
    (scan v (a :: rest) s).1 = (scan v (a :: rest) s').1 ∧
      Loosens ((x.isInitOnly v = true ∧ a.isInitOnly v = false) ∨ lost)
        (scan v (a :: rest) s).2 (scan v (a :: rest) s').2 := by
  obtain ⟨-, hclass⟩ := visit_eq_field hv
  obtain ⟨hs, hs'⟩ := h.moved _ moved
  have hu : ∃ y, u.get? a.target.name = some { symbol := .var y, generated } ∧
      y.isClassVar = false := by
    have hkept := get?_scan v rest (t.insert a.target.name (readMember v x generated))
      a.target.name
    rw [left, Table.get?_insert_self] at hkept
    have hshared : (x.unwrap v).isClassVar = false := by
      rw [unwrap_eq, hclass]
    rcases hkept with hkept | ⟨y, ty, g, hy, hc, hkept⟩
    · exact ⟨x.unwrap v, hkept, hshared⟩
    · cases hy
      exact ⟨_, hkept, hshared⟩
  obtain ⟨y, hy, hyclass⟩ := hu
  have hyInit : y.isInitOnly v = false := flat y hy
  have hvs : visit (s.get? a.target.name) = .field x generated := by rw [hs, hv]
  have hvs' : visit (s'.get? a.target.name) = .field y generated := by
    rw [hs', hy, visit, if_neg (by simp [hyclass])]
  have hyRead : u.get? a.target.name = some (readMember v y generated) := by
    rw [readMember, unwrap_of_not_initOnly v hyInit, hy]
  obtain ⟨htable, hfields⟩ := ih _ _ (h.insert_moved v hyRead)
  rw [scan, scan, hvs, hvs']
  refine ⟨htable, hfields.cons rfl ?_ ?_⟩
  · rintro ⟨hx, ha⟩
    rw [Assignment.isInitOnly] at ha
    simp [declaredField, hx, hyInit, ha]
  · intro hkept
    rw [declaredField, declaredField]
    congr 1
    rw [hyInit, Bool.false_or]
    cases hx : x.isInitOnly v with
    | false => rfl
    | true =>
      have ha : a.isInitOnly v = true := by simpa [hx] using hkept
      exact ha.symm

/-- Reading makes the same table of two tables that differ as one and what reading leaves of it,
where that is unwrapped. It finds the same fields as well, unless a field was constructor-only
by its type alone. -/
theorem scan_related (as : List Assignment) (t u s s' : Table Member)
    (left : (scan v as t).1 = u) (unwrapped : Unwrapped v as t u) (h : Apart t u s s') :
    (scan v as s).1 = (scan v as s').1 ∧
      Loosens (Unannotated v as t) (scan v as s).2 (scan v as s').2 := by
  induction as generalizing t s s' with
  | nil =>
    cases left
    cases h.eq_of_read
    exact ⟨rfl, Loosens.refl (by simp [Unannotated, visits]) _⟩
  | cons a rest ih =>
    cases hv : visit (t.get? a.target.name) with
    | stop =>
      have hu : u = t := by rw [← left, scan, hv]
      subst hu
      cases h.eq_of_read
      exact ⟨rfl, Loosens.refl (by simp [Unannotated, visits, hv]) _⟩
    | skip =>
      have hscan : scan v (a :: rest) t = scan v rest t := by rw [scan, hv]
      have hvisits : visits v (a :: rest) t = visits v rest t := by rw [visits, hv]
      have hrest : (scan v rest t).1 = u := by rw [← hscan, left]
      have agree : t.get? a.target.name = u.get? a.target.name := by
        rcases get?_scan v rest t a.target.name with he | ⟨x, ty, g, hx, hc, -⟩
        · rw [← hrest, he]
        · rw [hx, visit, hc] at hv
          cases hv
      rw [Unwrapped, hvisits] at unwrapped
      rw [Unannotated, hvisits]
      exact scan_related_same v h agree (by simp [hv])
        fun s s' h => ih t s s' hrest unwrapped h
    | field x generated =>
      obtain ⟨hget, hclass⟩ := visit_eq_field hv
      have hvisits : visits v (a :: rest) t =
          (a, x) :: visits v rest (t.insert a.target.name (readMember v x generated)) := by
        rw [visits, hv]
      have hrest : (scan v rest (t.insert a.target.name (readMember v x generated))).1 = u := by
        rw [← left, scan, hv]
      have hnext : Unwrapped v rest (t.insert a.target.name (readMember v x generated)) u := by
        intro p hp
        exact unwrapped p (hvisits ▸ List.mem_cons_of_mem _ hp)
      have hlost : Unannotated v (a :: rest) t ↔
          (x.isInitOnly v = true ∧ a.isInitOnly v = false) ∨
            Unannotated v rest (t.insert a.target.name (readMember v x generated)) := by
        rw [Unannotated, hvisits]
        simp only [List.exists_mem_cons_iff, Unannotated]
      have hmem : (a, x) ∈ visits v (a :: rest) t := hvisits ▸ List.mem_cons_self
      by_cases agree : t.get? a.target.name = u.get? a.target.name
      · -- The variable was unwrapped before, so reading it changes nothing.
        have hx : x.isInitOnly v = false :=
          unwrapped.isInitOnly v hmem (by rw [← agree, hget])
        have hinsert : t.insert a.target.name (readMember v x generated) = t := by
          rw [readMember, unwrap_of_not_initOnly v hx]
          exact t.insert_get? hget
        rw [hinsert] at hrest hnext hlost
        simp only [hx, Bool.false_eq_true, false_and, false_or] at hlost
        rw [propext hlost]
        exact scan_related_same v h agree (by simp [hv])
          fun s s' h => ih t s s' hrest hnext h
      · rw [propext hlost]
        exact scan_related_moved v h hv agree hrest
          (fun y hy => unwrapped.isInitOnly v hmem hy) fun s s' h => ih _ s s' hrest hnext h

/-! ## Reading once more -/

/-- How large the type of a variable is. -/
private noncomputable def bulk : Option Member → Nat
  | some { symbol := .var { ty := .resolved t, .. }, .. } => sizeOf t
  | _ => 0

private theorem sizeOf_content_lt {t : Ty} (h : v.isInitOnly t = true) :
    sizeOf t.content < sizeOf t := by
  cases t with
  | inst fullname args =>
    cases args with
    | nil =>
      simp only [Ty.content, Ty.args, List.headD_nil, Ty.inst.sizeOf_spec, Ty.any.sizeOf_spec,
        List.nil.sizeOf_spec]
      omega
    | cons t ts =>
      simp only [Ty.content, Ty.args, List.headD_cons, Ty.inst.sizeOf_spec, List.cons.sizeOf_spec]
      omega
  | typeVar name fullname id bound => cases h
  | none => cases h
  | any => cases h

private theorem bulk_readMember_lt {x : Variable} (generated : Bool)
    (h : x.isInitOnly v = true) :
    bulk (some (readMember v x generated)) < bulk (some { symbol := .var x, generated }) := by
  obtain ⟨name, fullname, ty, isClassVar, isReadOnly, position⟩ := x
  cases ty with
  | pending => cases h
  | resolved t =>
    have ht : v.isInitOnly t = true := h
    simp only [readMember, Variable.unwrap, ht, if_true, bulk]
    exact sizeOf_content_lt v ht

private theorem bulk_readMember_le {x : Variable} (generated : Bool) :
    bulk (some (readMember v x generated)) ≤ bulk (some { symbol := .var x, generated }) := by
  cases h : x.isInitOnly v with
  | true => exact Nat.le_of_lt (bulk_readMember_lt v generated h)
  | false =>
    apply Nat.le_of_eq
    rw [readMember, unwrap_of_not_initOnly v h]

private theorem bulk_scan_le (as : List Assignment) (t : Table Member) (name : String) :
    bulk ((scan v as t).1.get? name) ≤ bulk (t.get? name) := by
  induction as generalizing t with
  | nil => exact Nat.le_refl _
  | cons a rest ih =>
    rw [scan]
    cases hv : visit (t.get? a.target.name) with
    | skip => exact ih t
    | stop => exact Nat.le_refl _
    | field x generated =>
      refine Nat.le_trans (ih _) ?_
      rw [Table.get?_insert]
      by_cases hname : a.target.name = name
      · subst hname
        rw [if_pos rfl, (visit_eq_field hv).1]
        exact bulk_readMember_le v generated
      · apply Nat.le_of_eq
        rw [if_neg hname]

/-- Two members that reading takes for the same: equal ones, or variables of fields. -/
private def Alike (m m' : Option Member) : Prop :=
  m = m' ∨ ∃ x g x' g', visit m = .field x g ∧ visit m' = .field x' g'

private theorem visit_readMember_eq {x : Variable} {generated : Bool}
    (h : x.isClassVar = false) :
    visit (some (readMember v x generated)) = .field (x.unwrap v) generated := by
  rw [readMember, visit, unwrap_eq, if_neg (by simp [h])]

/-- Where `t` has a field and its name is wrapped in `s`, reading `s` makes its type smaller. -/
private theorem bulk_scan_lt (as : List Assignment) (s t : Table Member)
    (alike : ∀ name, Alike (s.get? name) (t.get? name)) {p : Assignment × Variable}
    (hp : p ∈ visits v as t) {x : Variable} {generated : Bool}
    (hx : s.get? p.1.target.name = some { symbol := .var x, generated })
    (wrapped : x.isInitOnly v = true) :
    bulk ((scan v as s).1.get? p.1.target.name) < bulk (s.get? p.1.target.name) := by
  induction as generalizing s t with
  | nil => cases hp
  | cons a rest ih =>
    rw [visits] at hp
    rw [scan]
    cases hv : visit (t.get? a.target.name) with
    | skip =>
      rw [hv] at hp
      have hvs : visit (s.get? a.target.name) = .skip := by
        rcases alike a.target.name with he | ⟨y, g, y', g', -, hy'⟩
        · rw [he, hv]
        · rw [hv] at hy'
          cases hy'
      rw [hvs]
      exact ih s t alike hp hx
    | stop =>
      rw [hv] at hp
      cases hp
    | field z g =>
      rw [hv] at hp
      obtain ⟨y, gy, hvs⟩ : ∃ y gy, visit (s.get? a.target.name) = .field y gy := by
        rcases alike a.target.name with he | ⟨y, gy, y', g', hy, -⟩
        · exact ⟨z, g, by rw [he, hv]⟩
        · exact ⟨y, gy, hy⟩
      obtain ⟨hs, hsclass⟩ := visit_eq_field hvs
      rw [hvs]
      by_cases hname : a.target.name = p.1.target.name
      · rw [← hname, hs] at hx ⊢
        cases hx
        refine Nat.lt_of_le_of_lt (bulk_scan_le v rest _ _) ?_
        rw [Table.get?_insert_self]
        exact bulk_readMember_lt v _ wrapped
      · have hget : (s.insert a.target.name (readMember v y gy)).get? p.1.target.name =
            s.get? p.1.target.name := by
          rw [Table.get?_insert, if_neg hname]
        have hmem : p ∈ visits v rest (t.insert a.target.name (readMember v z g)) := by
          rcases List.mem_cons.mp hp with he | hp
          · exact absurd (congrArg (fun q => q.1.target.name) he).symm hname
          · exact hp
        rw [← hget] at hx ⊢
        refine ih _ _ ?_ hmem hx
        intro other
        rw [Table.get?_insert, Table.get?_insert]
        by_cases ho : a.target.name = other
        · rw [if_pos ho, if_pos ho]
          exact .inr ⟨_, _, _, _, visit_readMember_eq v hsclass,
            visit_readMember_eq v (visit_eq_field hv).2⟩
        · rw [if_neg ho, if_neg ho]
          exact alike other

/-- Reading once more changes nothing only where reading leaves no wrapped type. -/
theorem unwrapped_of_scan_scan (as : List Assignment) (t u : Table Member)
    (left : (scan v as t).1 = u) (again : (scan v as u).1 = u) : Unwrapped v as t u := by
  intro p hp
  rcases hx : u.get? p.1.target.name with _ | ⟨symbol, generated⟩
  · rfl
  · cases symbol with
    | method m => rfl
    | typeVar d => rfl
    | placeholder => rfl
    | var x =>
      cases hwrapped : x.isInitOnly v with
      | false => exact hwrapped
      | true =>
        have alike : ∀ name, Alike (u.get? name) (t.get? name) := by
          intro name
          rcases get?_scan v as t name with he | ⟨y, ty, g, hy, hc, hu⟩
          · exact .inl (left ▸ he)
          · rw [left] at hu
            refine .inr ⟨{ y with ty }, g, y, g, ?_, ?_⟩
            · rw [hu, visit, if_neg (by simp [hc])]
            · rw [hy, visit, if_neg (by simp [hc])]
        have hlt := bulk_scan_lt v as u t alike hp hx hwrapped
        rw [again] at hlt
        exact absurd hlt (Nat.lt_irrefl _)

/-! ## Reading what is annotated -/

/-- Whether reading takes a member for a field. -/
def isField (m : Option Member) : Bool :=
  match visit m with
  | .field _ _ => true
  | _ => false

/-- A member after it was read: the variable of a field is unwrapped. -/
def Member.read (m : Member) : Member :=
  match visit (some m) with
  | .field x generated => readMember v x generated
  | _ => m

/-- The field of a declaration that is constructor-only by its annotation alone. -/
def annotatedField (a : Assignment) : Field :=
  { declaredField v a default with initOnly := a.isInitOnly v }

private theorem declaredField_eq {a : Assignment} {x : Variable}
    (h : x.isInitOnly v = true → a.isInitOnly v = true) :
    declaredField v a x = annotatedField v a := by
  have hinit : (x.isInitOnly v || a.isInitOnly v) = a.isInitOnly v := by
    cases hx : x.isInitOnly v with
    | false => exact Bool.false_or _
    | true => rw [h hx, Bool.or_true]
  rw [declaredField, annotatedField, ← hinit]
  rfl

theorem isField_eq_of_visit {m : Option Member} {x : Variable} {generated : Bool}
    (h : visit m = .field x generated) : isField m = true := by
  rw [isField, h]

theorem isSome_of_isField {m : Option Member} (h : isField m = true) : m.isSome = true := by
  cases m with
  | none => cases h
  | some m => rfl

theorem read_of_not_isField {m : Member} (h : isField (some m) = false) :
    Member.read v m = m := by
  cases hv : visit (some m) with
  | skip => rw [Member.read, hv]
  | stop => rw [Member.read, hv]
  | field x generated =>
    rw [isField_eq_of_visit hv] at h
    cases h

theorem read_var {x : Variable} (generated : Bool) (h : x.isClassVar = false) :
    Member.read v { symbol := .var x, generated } = readMember v x generated := by
  simp [Member.read, visit, h]

theorem isField_readMember {x : Variable} (generated : Bool) (h : x.isClassVar = false) :
    isField (some (readMember v x generated)) = true := by
  rw [isField, visit_readMember_eq v h]

/-- A wrapped variable is flat, and the first declaration of its name is annotated so. -/
def Annotated (as : List Assignment) (t : Table Member) : Prop :=
  ∀ name x generated a, visit (t.get? name) = .field x generated → x.isInitOnly v = true →
    as.find? (fun a => a.target.name == name) = some a →
      (x.unwrap v).isInitOnly v = false ∧ a.isInitOnly v = true

private theorem Annotated.skip {a : Assignment} {rest : List Assignment} {t : Table Member}
    (h : Annotated v (a :: rest) t) (skip : isField (t.get? a.target.name) = false) :
    Annotated v rest t := by
  intro name x generated b hv hx hb
  have hne : a.target.name ≠ name := by
    rintro rfl
    rw [isField_eq_of_visit hv] at skip
    cases skip
  exact h name x generated b hv hx (by rw [List.find?_cons_of_neg (by simpa using hne), hb])

private theorem Annotated.read {a : Assignment} {rest : List Assignment} {t : Table Member}
    {x : Variable} {generated : Bool} (h : Annotated v (a :: rest) t)
    (flat : (x.unwrap v).isInitOnly v = false) (shared : x.isClassVar = false) :
    Annotated v rest (t.insert a.target.name (readMember v x generated)) := by
  intro name y g b hv hy hb
  rw [Table.get?_insert] at hv
  by_cases hname : a.target.name = name
  · rw [if_pos hname, visit_readMember_eq v shared] at hv
    cases hv
    rw [flat] at hy
    cases hy
  · rw [if_neg hname] at hv
    exact h name y g b hv hy (by rw [List.find?_cons_of_neg (by simpa using hname), hb])

/-- Where wrapped types come from annotations, reading finds one field for every declaration of
a variable that instances keep, and reads the members of all declarations. -/
theorem scan_annotated (as : List Assignment) (t : Table Member)
    (goes : ∀ a ∈ as, visit (t.get? a.target.name) ≠ .stop) (h : Annotated v as t) :
    (scan v as t).2 =
        .ok ((as.filter fun a => isField (t.get? a.target.name)).map (annotatedField v)) ∧
      ∀ name, (scan v as t).1.get? name =
        if name ∈ as.map (fun a => a.target.name) then (t.get? name).map (Member.read v)
        else t.get? name := by
  induction as generalizing t with
  | nil => exact ⟨rfl, fun _ => rfl⟩
  | cons a rest ih =>
    have hrest : ∀ b ∈ rest, visit (t.get? b.target.name) ≠ .stop :=
      fun b hb => goes b (List.mem_cons_of_mem _ hb)
    rw [scan]
    cases hv : visit (t.get? a.target.name) with
    | stop => exact absurd hv (goes a List.mem_cons_self)
    | skip =>
      have hskip : isField (t.get? a.target.name) = false := by rw [isField, hv]
      obtain ⟨hfields, htable⟩ := ih t hrest (h.skip v hskip)
      refine ⟨?_, ?_⟩
      · rw [List.filter_cons_of_neg (by simp [hskip])]
        exact hfields
      · intro name
        rw [htable name, List.map_cons]
        by_cases hname : name = a.target.name
        · subst hname
          have hread : (t.get? a.target.name).map (Member.read v) = t.get? a.target.name := by
            cases hm : t.get? a.target.name with
            | none => rfl
            | some m => rw [Option.map_some, read_of_not_isField v (hm ▸ hskip)]
          rw [hread, ite_self, ite_self]
        · simp only [List.mem_cons, hname, false_or]
    | field x generated =>
      obtain ⟨hget, hclass⟩ := visit_eq_field hv
      have hfield := isField_eq_of_visit hv
      have hfirst : (a :: rest).find? (fun b => b.target.name == a.target.name) = some a :=
        List.find?_cons_of_pos (by simp)
      have hflat : (x.unwrap v).isInitOnly v = false := by
        cases hx : x.isInitOnly v with
        | true => exact (h _ x generated a hv hx hfirst).1
        | false => rw [unwrap_of_not_initOnly v hx, hx]
      have hdeclared : declaredField v a x = annotatedField v a := by
        apply declaredField_eq
        exact fun hx => (h _ x generated a hv hx hfirst).2
      have hgoes : ∀ b ∈ rest, visit ((t.insert a.target.name
          (readMember v x generated)).get? b.target.name) ≠ .stop := by
        intro b hb
        rw [Table.get?_insert]
        split
        · exact visit_readMember v x generated
        · exact hrest b hb
      obtain ⟨hfields, htable⟩ := ih _ hgoes (h.read v hflat hclass)
      have hsame : rest.filter (fun b => isField ((t.insert a.target.name
            (readMember v x generated)).get? b.target.name)) =
          rest.filter fun b => isField (t.get? b.target.name) := by
        apply List.filter_congr
        intro b _
        rw [Table.get?_insert]
        split
        · next he => rw [isField_readMember v generated hclass, ← he, hfield]
        · rfl
      refine ⟨?_, ?_⟩
      · rw [List.filter_cons, if_pos hfield, List.map_cons, ← hdeclared, ← hsame]
        simp only [hfields]
        rfl
      · intro name
        rw [htable name, Table.get?_insert, List.map_cons]
        by_cases hname : a.target.name = name
        · subst hname
          have hread : Member.read v (readMember v x generated) = readMember v x generated := by
            rw [readMember, read_var v generated (by rw [unwrap_eq, hclass]), readMember,
              unwrap_of_not_initOnly v hflat]
          rw [if_pos rfl, if_pos List.mem_cons_self, Option.map_some, hread, ite_self, hget,
            Option.map_some, read_var v generated hclass]
        · have hname' : ¬ name = a.target.name := fun e => hname e.symm
          simp only [List.mem_cons, hname, hname', false_or, if_false]

end Scan

end Synthesis

end DataHolder
