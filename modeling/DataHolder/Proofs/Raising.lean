import DataHolder.Proofs.Binding
import DataHolder.Proofs.Precedence
import DataHolder.Proofs.Views

/-!
# Classes that were brought up and left alone

A hierarchy is brought up by runs, ancestors before descendants, and no class is touched after its
run. So every class stands there as its run has left it, what is recorded comes from these runs, and
every field of a class is declared by the class itself or by one above it.
-/

namespace DataHolder

namespace Synthesis

/-! ## What a body declares -/

section Visits

variable (v : Vocabulary)

/-- Reading answers with the fields that it visits. -/
theorem eq_map_visits {as : List Assignment} {t : Table Member} {own : List Field}
    (h : (scan v as t).2 = .ok own) :
    own = (visits v as t).map fun p => declaredField v p.1 p.2 := by
  induction as generalizing t own with
  | nil =>
    cases h
    rfl
  | cons a rest ih =>
    rw [scan] at h
    rw [visits]
    cases hv : visit (t.get? a.target.name) with
    | skip =>
      rw [hv] at h
      exact ih h
    | stop =>
      rw [hv] at h
      cases h
    | field x generated =>
      rw [hv] at h
      dsimp only at h ⊢
      cases hrest : (scan v rest (t.insert a.target.name (readMember v x generated))).2 with
      | error deferral =>
        rw [hrest] at h
        cases h
      | ok fields =>
        rw [hrest] at h
        cases h
        rw [List.map_cons, ← ih hrest]

/-- What is visited of a body is its first declaration, or it is visited of the rest. -/
theorem mem_visits_cons {a : Assignment} {rest : List Assignment} {t : Table Member}
    {p : Assignment × Variable} (h : p ∈ visits v (a :: rest) t) :
    (visit (t.get? a.target.name) = .skip ∧ p ∈ visits v rest t) ∨
      ∃ x generated, visit (t.get? a.target.name) = .field x generated ∧
        (p = (a, x) ∨
          p ∈ visits v rest (t.insert a.target.name (readMember v x generated))) := by
  rw [visits] at h
  cases hv : visit (t.get? a.target.name) with
  | skip =>
    rw [hv] at h
    exact .inl ⟨rfl, h⟩
  | stop =>
    rw [hv] at h
    cases h
  | field x generated =>
    rw [hv] at h
    exact .inr ⟨x, generated, rfl, List.mem_cons.mp h⟩

theorem mem_of_mem_visits {as : List Assignment} {t : Table Member} {p : Assignment × Variable}
    (h : p ∈ visits v as t) : p.1 ∈ as := by
  induction as generalizing t with
  | nil => cases h
  | cons a rest ih =>
    obtain ⟨-, h⟩ | ⟨x, generated, -, rfl | h⟩ := mem_visits_cons v h
    · exact List.mem_cons_of_mem _ (ih h)
    · exact List.mem_cons_self
    · exact List.mem_cons_of_mem _ (ih h)

/-- Where a name is declared once, reading finds the variable that is there at the start. -/
theorem get?_of_visited_once {as : List Assignment} {t : Table Member} {p : Assignment × Variable}
    (once : (as.map fun a => a.target.name).count p.1.target.name ≤ 1) (h : p ∈ visits v as t) :
    ∃ generated, t.get? p.1.target.name = some { symbol := .var p.2, generated } ∧
      p.2.isClassVar = false := by
  induction as generalizing t with
  | nil => cases h
  | cons a rest ih =>
    have hrest : (rest.map fun a => a.target.name).count p.1.target.name ≤ 1 :=
      Nat.le_trans List.count_le_count_cons once
    obtain ⟨-, h⟩ | ⟨x, generated, hv, rfl | h⟩ := mem_visits_cons v h
    · exact ih hrest h
    · exact ⟨generated, visit_eq_field hv⟩
    · have hne : a.target.name ≠ p.1.target.name := by
        intro he
        have hlater : 0 < (rest.map fun a => a.target.name).count p.1.target.name :=
          List.count_pos_iff.mpr (List.mem_map_of_mem (mem_of_mem_visits v h))
        rw [List.map_cons, he, List.count_cons_self] at once
        omega
      obtain ⟨g, hget, hclass⟩ := ih hrest h
      rw [Table.get?_insert, if_neg hne] at hget
      exact ⟨g, hget, hclass⟩

end Visits

/-! ## The constructor -/

/-- The constructor that a run has generated for its class. It stands in the body; and where the
table has a generated method under its name, this is it. -/
structure Constructor (d : ClassDecl) (init : Method) : Prop where
  name : init.name = "__init__"
  body : Statement.method init ∈ d.body
  table : ∀ other,
    d.members.get? "__init__" = some { symbol := .method other, generated := true } → other = init

section Constructor

variable {v : Vocabulary} {r : Registry} {id : ClassId} {c : ClassDecl} {m : Collection}
  {init : Method}

/-- A method in the body of a completed class was there before or is one that was added. -/
theorem method_mem_completed (h : Statement.method init ∈ (completed v r id c m).body) :
    Statement.method init ∈ c.body ∨ (init.name, .method init) ∈ added v r id c m := by
  rw [body_completed] at h
  obtain ⟨s, hs, he⟩ := List.mem_map.mp h
  obtain rfl : s = .method init := by
    cases s with
    | method f => exact he
    | pass => cases he
    | assign a =>
      rw [unbind] at he
      split at he <;> cases he
  rcases List.mem_append.mp hs with hs | hs
  · exact .inl (List.mem_filter.mp hs).1
  · obtain ⟨f, hf, he⟩ := List.mem_map.mp hs
    cases he
    exact .inr (mem_additions_of_methodsIn _ _ _ _ _ hf)

/-- A constructor that is added takes the parameters of the merged fields. -/
theorem parameters_of_added (h : ("__init__", Symbol.method init) ∈ added v r id c m) :
    init.parameters = initParameters
      ((r.set id (readClass v c)).set id (readClass v c).clearGenerated) id m.fields := by
  rw [eq_of_method_mem_additions _ _ _ _ _ h, if_pos rfl, Draft.constructor]

/-- A constructor is generated where the flags ask for it, none was written, and there are
fields. -/
theorem init_mem_added_iff (apart : v.selfTypeVar ≠ "__init__") :
    "__init__" ∈ (added v r id c m).map Prod.fst ↔
      (Flags.ofDecorator (v.decorator? c)).init = true ∧ c.written? "__init__" = none ∧
        m.plain ≠ [] := by
  have hcontains : (readClass v c).clearGenerated.members.contains "__init__" =
      (c.written? "__init__").isSome := by
    rw [Table.contains, ClassDecl.get?_clearGenerated, isSome_written?_readClass]
  rw [added, init_mem_additions_iff _ _ _ _ _ apart, hcontains]
  simp [and_assoc]

/-- A run that generates a constructor leaves it in the body. -/
theorem exists_constructor (apart : v.selfTypeVar ≠ "__init__")
    (h : "__init__" ∈ (added v r id c m).map Prod.fst) :
    ∃ init, Constructor (completed v r id c m) init ∧
      ("__init__", .method init) ∈ added v r id c m := by
  obtain ⟨symbol, hadded, hdraft⟩ := get?_draft_of_mem h
  obtain ⟨init, rfl⟩ : ∃ init, symbol = .method init := by
    rcases of_mem_additions _ _ _ _ _ hadded with ⟨-, hmethod⟩ | ⟨hname, -⟩
    · exact hmethod
    · exact absurd hname.symm apart
  refine ⟨init, ⟨(of_method_mem_additions _ _ _ _ _ hadded).1, ?_, ?_⟩, hadded⟩
  · rw [body_completed]
    refine List.mem_map.mpr ⟨.method init, List.mem_append_right _ ?_, rfl⟩
    exact List.mem_map_of_mem (List.mem_filterMap.mpr ⟨_, hadded, rfl⟩)
  · intro other hother
    have hsame := get?_draft_of_completed v r id c m hother rfl
    rw [hdraft] at hsame
    cases hsame
    rfl

end Constructor

/-! ## Bringing up -/

/-- A class as it comes in: it has no members, and none of its declarations is bound. -/
structure Untouched (c : ClassDecl) : Prop where
  members : c.members = ∅
  unbound : Unbound c.body

/-- A class that was brought up: as its run has found it, and what the run has answered. -/
structure Raised where
  id : ClassId
  found : ClassDecl
  answer : Synthesis

/-- The fields that the body declares, as the run has read them. -/
def Raised.own (v : Vocabulary) (e : Raised) : List Field :=
  (readBody v e.found.body e.found.members).2.toOption.getD []

/-- A class is the next to be brought up: its run completes, and the class is an ancestor of none
that was brought up before. -/
structure Raises (v : Vocabulary) (up : List Raised) (r : Registry) (e : Raised) : Prop where
  registered : r.get? e.id = some e.found
  first : ∃ tail, e.found.mro = e.id :: tail ∧ e.id ∉ tail
  ordered : ∀ a ∈ up, e.id ∉ a.found.mro
  completes : (run v r e.id).result = .ok e.answer

/-- Classes brought up one after the other, the last one first. At first nothing is recorded; and
between the runs anything may change but the records and the classes that were brought up. -/
inductive Built (v : Vocabulary) : List Raised → Registry → Prop
  | start {r : Registry} (none : ∀ id, recordAt v r id = .ok none) : Built v [] r
  | change {up : List Raised} {r r' : Registry} (before : Built v up r)
    (records : ∀ id, recordAt v r' id = recordAt v r id)
    (kept : ∀ e ∈ up, r'.get? e.id = r.get? e.id) : Built v up r'
  | run {up : List Raised} {r : Registry} {e : Raised} (before : Built v up r)
    (next : Raises v up r e) : Built v (e :: up) (Synthesis.run v r e.id).registry

variable {v : Vocabulary} {up : List Raised} {r : Registry} {e : Raised}

/-- A completed run of a class answers with what it has collected, and leaves the class
completed. -/
theorem Raised.exists_completed (registered : r.get? e.id = some e.found)
    (completes : (run v r e.id).result = .ok e.answer) :
    ∃ m, (readBody v e.found.body e.found.members).2 = .ok (e.own v) ∧
      collect v (r.set e.id (readClass v e.found)) e.id e.found.mro (.ok (e.own v)) = .ok m ∧
      e.answer = { fields := m.plain
                   flags := Flags.ofDecorator (v.decorator? e.found)
                   generated := (added v r e.id e.found m).map Prod.fst
                   dependencies := m.dependencies } ∧
      (run v r e.id).registry = r.set e.id (completed v r e.id e.found m) ∧
      (run v r e.id).registry.get? e.id = some (completed v r e.id e.found m) := by
  obtain ⟨own, m, hown, hm, hanswer, hregistry, hget⟩ := run_of_ok registered completes
  obtain rfl : e.own v = own := by
    rw [Raised.own, hown]
    rfl
  exact ⟨m, hown, hm, hanswer, hregistry, hget⟩

/-- So does the run of a class that is brought up. -/
theorem Raises.exists_completed (next : Raises v up r e) :
    ∃ m, (readBody v e.found.body e.found.members).2 = .ok (e.own v) ∧
      collect v (r.set e.id (readClass v e.found)) e.id e.found.mro (.ok (e.own v)) = .ok m ∧
      e.answer = { fields := m.plain
                   flags := Flags.ofDecorator (v.decorator? e.found)
                   generated := (added v r e.id e.found m).map Prod.fst
                   dependencies := m.dependencies } ∧
      (run v r e.id).registry = r.set e.id (completed v r e.id e.found m) ∧
      (run v r e.id).registry.get? e.id = some (completed v r e.id e.found m) :=
  Raised.exists_completed next.registered next.completes

/-- The fields that a body declares are the fields that reading it visits. -/
theorem Raises.own_eq (next : Raises v up r e) :
    e.own v = (visits v (declarations e.found.body) e.found.members).map
      fun p => declaredField v p.1 p.2 := by
  obtain ⟨-, hown, -⟩ := next.exists_completed
  rw [readBody_eq_scan] at hown
  exact eq_map_visits v hown

theorem Raises.names_own (next : Raises v up r e) :
    (e.own v).map Field.name = fieldNames e.found := by
  obtain ⟨-, hown, -⟩ := next.exists_completed
  exact names_of_readBody v hown

theorem Raises.mem_mro (next : Raises v up r e) : e.id ∈ e.found.mro := by
  obtain ⟨tail, hmro, -⟩ := next.first
  rw [hmro]
  exact List.mem_cons_self

namespace Built

/-- Every class was brought up by a run in what had been brought up before, and stands as this run
has left it. -/
theorem exists_raises (built : Built v up r) (mem : e ∈ up) :
    ∃ before q, Built v before q ∧ Raises v before q e ∧ before ⊆ up ∧
      r.get? e.id = (Synthesis.run v q e.id).registry.get? e.id := by
  induction built with
  | start => cases mem
  | change _ _ kept ih =>
    obtain ⟨before, q, hq, hraises, hsub, hget⟩ := ih mem
    exact ⟨before, q, hq, hraises, hsub, (kept e mem).trans hget⟩
  | @run up r new built next ih =>
    rcases List.mem_cons.mp mem with rfl | mem
    · exact ⟨up, r, built, next, List.subset_cons_self _ _, rfl⟩
    · obtain ⟨before, q, hq, hraises, hsub, hget⟩ := ih mem
      have hne : new.id ≠ e.id := by
        intro he
        exact next.ordered e mem (he ▸ hraises.mem_mro)
      obtain ⟨m, -, -, -, hregistry, -⟩ := next.exists_completed
      refine ⟨before, q, hq, hraises, fun a ha => List.mem_cons_of_mem _ (hsub ha), ?_⟩
      rw [hregistry, Registry.get?_set_ne _ _ hne, hget]

/-- What is recorded are fields of classes that were brought up. -/
theorem recorded (built : Built v up r) {id : ClassId} {record : Record}
    (h : recordAt v r id = .ok (some record)) :
    ∃ a ∈ up, a.id = id ∧ record.fields ⊆ a.answer.fields := by
  induction built with
  | start none =>
    rw [none] at h
    cases h
  | change _ records _ ih => exact ih (records id ▸ h)
  | @run up r new _ next ih =>
    obtain ⟨m, -, -, hanswer, hregistry, hget⟩ := next.exists_completed
    by_cases he : new.id = id
    · subst he
      rw [recordAt, hget] at h
      dsimp only at h
      rw [record?_completed] at h
      cases h
      refine ⟨new, List.mem_cons_self, rfl, ?_⟩
      rw [hanswer]
      exact Record.fields_ofFields_subset _ _
    · rw [hregistry, recordAt_set_ne _ he] at h
      obtain ⟨a, ha, hid, hsub⟩ := ih h
      exact ⟨a, List.mem_cons_of_mem _ ha, hid, hsub⟩

/-- A field is declared by its class, or an ancestor that was brought up before has it. -/
theorem inherited (built : Built v up r) (next : Raises v up r e) {f : Field}
    (hf : f ∈ e.answer.fields) :
    f ∈ e.own v ∨ ∃ a ∈ up, a.id ∈ e.found.mro ∧ f ∈ a.answer.fields := by
  obtain ⟨m, -, hm, hanswer, -⟩ := next.exists_completed
  obtain ⟨tail, hmro, hapart⟩ := next.first
  rw [hanswer] at hf
  rcases (mem_plain_of_gather (gather_of_collect hm)).2 f hf with hown | ⟨-, a, ha, hfa⟩
  · exact .inl hown
  · obtain ⟨id, hid, hget, hrecord⟩ := mem_recorded.mp ha
    have hne : e.id ≠ id := by
      rintro rfl
      rw [hmro] at hid
      exact hapart (List.dropLast_subset _ hid)
    rw [Registry.get?_set_ne _ _ hne] at hget
    have hat : recordAt v r id = .ok (some a.2) := by
      rw [recordAt, hget]
      exact hrecord
    obtain ⟨b, hb, rfl, hsub⟩ := built.recorded hat
    exact .inr ⟨b, hb, interior_subset _ hid, hsub hfa⟩

/-- Among classes that have the ancestors of each other, every field is declared by one of them. -/
theorem exists_declaring (built : Built v up r) {S : List ClassId}
    (closed : ∀ a ∈ up, a.id ∈ S → a.found.mro ⊆ S) (mem : e ∈ up) (hS : e.id ∈ S) {f : Field}
    (hf : f ∈ e.answer.fields) : ∃ b ∈ up, b.id ∈ S ∧ f ∈ b.own v := by
  induction built generalizing e with
  | start => cases mem
  | change _ _ _ ih => exact ih closed mem hS hf
  | @run up r new built next ih =>
    have hbefore : ∀ a ∈ up, a.id ∈ S → f ∈ a.answer.fields →
        ∃ b ∈ new :: up, b.id ∈ S ∧ f ∈ b.own v := by
      intro a ha haS hfa
      obtain ⟨b, hb, hbS, hfb⟩ := ih (fun a ha => closed a (List.mem_cons_of_mem _ ha)) ha haS hfa
      exact ⟨b, List.mem_cons_of_mem _ hb, hbS, hfb⟩
    rcases List.mem_cons.mp mem with rfl | mem
    · rcases built.inherited next hf with hown | ⟨a, ha, hamro, hfa⟩
      · exact ⟨e, List.mem_cons_self, hS, hown⟩
      · exact hbefore a ha (closed e List.mem_cons_self hS hamro) hfa
    · exact hbefore e mem hS hf

end Built

end Synthesis

end DataHolder
