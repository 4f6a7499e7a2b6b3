import DataHolder.Proofs.Generation
import DataHolder.Proofs.Marks
import DataHolder.Proofs.Stages

/-!
# Completing a run

A run on a class that bears the remains of earlier runs completes as a run on the class without
them. The ancestors do not see the class, what it sees of itself is the same without the
generated members, and these are cleared before new ones are added.
-/

namespace DataHolder

/-- The generated methods are those that the table holds as generated members. -/
theorem ClassDecl.mem_generatedMethods_iff (c : ClassDecl) (f : Method) :
    f ∈ c.generatedMethods ↔
      ∃ name, c.members.get? name = some { symbol := .method f, generated := true } := by
  rw [generatedMethods, List.mem_filterMap]
  constructor
  · rintro ⟨⟨symbol, generated⟩, hm, hf⟩
    obtain ⟨hvalue, hg⟩ := List.mem_filter.mp hm
    obtain ⟨⟨name, m⟩, hentry, rfl⟩ := List.mem_map.mp hvalue
    cases symbol with
    | method f' =>
      cases hf
      change generated = true at hg
      subst hg
      exact ⟨name, (Table.mem_entries_iff _ _ _).mp hentry⟩
    | var x => cases hf
    | typeVar d => cases hf
    | placeholder => cases hf
  · rintro ⟨name, hname⟩
    refine ⟨{ symbol := .method f, generated := true }, List.mem_filter.mpr ⟨?_, rfl⟩, rfl⟩
    exact List.mem_map.mpr ⟨_, (Table.mem_entries_iff _ _ _).mpr hname, rfl⟩

namespace Synthesis

section View

variable (v : Vocabulary)

/-- The class under a number is neither among these classes nor an ancestor of one. -/
def Unseen (r : Registry) (id : ClassId) (ids : List ClassId) : Prop :=
  ∀ a ∈ ids, a ≠ id ∧ ∀ d, r.get? a = some d → id ∉ d.mro

/-- What ancestors contribute does not depend on a class that they do not see. -/
theorem contributions_set {r : Registry} {id : ClassId} (c : ClassDecl) {ids : List ClassId}
    (h : Unseen r id ids) : contributions v (r.set id c) ids = contributions v r ids := by
  induction ids with
  | nil => rfl
  | cons a ids ih =>
    obtain ⟨hne, hunseen⟩ := h a List.mem_cons_self
    have hinherit : inherit (r.set id c) a = inherit r a := by
      funext f
      rw [inherit, inherit, constructorTy?, constructorTy?, Registry.lookupMethod,
        Registry.lookupMethod, Registry.lookup, Registry.lookup,
        Registry.searchMro_set r c _ hne hunseen]
    rw [contributions_cons, contributions_cons, ih fun b hb => h b (List.mem_cons_of_mem _ hb),
      contribution?, contribution?, Registry.get?_set_ne r c (Ne.symm hne), hinherit]

/-- What is gathered for a class does not depend on one that its ancestors do not see. -/
theorem gather_set {r : Registry} {id : ClassId} (c : ClassDecl) {mro : List ClassId}
    (h : Unseen r id (interior mro)) (own : Except Deferral (List Field)) :
    gather v (r.set id c) mro own = gather v r mro own := by
  unfold gather
  rw [contributions_set v c h]

/-- What can be seen of a member from a class: all but read-only copies. -/
def visible (m : Option Member) : Option Symbol :=
  m.bind fun m => if m.isCopy then none else some m.symbol

/-- A class looks at itself first. -/
theorem declared?_set {r : Registry} {id : ClassId} {c : ClassDecl} {tail : List ClassId}
    (registered : id < r.size) (mro : c.mro = id :: tail) (apart : id ∉ tail) (name : String) :
    declared? (r.set id c) id name =
      (visible (c.members.get? name)).or
        (tail.findSome? fun a => (r.get? a).bind fun d => visible (d.members.get? name)) := by
  have htail : (tail.findSome? fun a => ((r.set id c).get? a).bind fun d =>
        visible (d.members.get? name)) =
      tail.findSome? fun a => (r.get? a).bind fun d => visible (d.members.get? name) := by
    clear mro
    induction tail with
    | nil => rfl
    | cons a tail ih =>
      rw [List.mem_cons, not_or] at apart
      rw [List.findSome?_cons, List.findSome?_cons, Registry.get?_set_ne r c apart.1,
        ih apart.2]
  have hself : declared? (r.set id c) id name =
      ((id :: tail).findSome? fun a => ((r.set id c).get? a).bind fun d =>
        visible (d.members.get? name)) := by
    rw [declared?, Registry.searchMro, Registry.get?_set_self r id c registered,
      Option.bind_some, mro]
    rfl
  rw [hself, ← htail, List.findSome?_cons, Registry.get?_set_self r id c registered,
    Option.bind_some]
  cases visible (c.members.get? name) <;> rfl

/-- Two classes show the same under a name, but for marks. -/
def SameView (c c' : ClassDecl) (name : String) : Prop :=
  (visible (c.members.get? name)).map Symbol.unmarked =
    (visible (c'.members.get? name)).map Symbol.unmarked

/-- Members that differ in their marks alone show the same. -/
theorem sameView_of_unmarked {c c' : ClassDecl} {name : String}
    (h : (c.members.get? name).map Member.unmarked =
      (c'.members.get? name).map Member.unmarked) : SameView c c' name := by
  have hview : ∀ m : Option Member, (visible m).map Symbol.unmarked =
      (m.map Member.unmarked).bind fun m => if m.isCopy then none else some m.symbol := by
    intro m
    rcases m with _ | ⟨symbol, generated⟩
    · rfl
    · have hcopy : (Member.unmarked ⟨symbol, generated⟩).isCopy =
          Member.isCopy ⟨symbol, generated⟩ := by
        rw [Member.isCopy, Member.isCopy, Member.unmarked, Symbol.isVar_unmarked]
      rw [visible, Option.bind_some, Option.map_some, Option.bind_some, hcopy]
      split <;> rfl
  rw [SameView, hview, hview, h]

section Unmarked

variable {r q : Registry} {id : ClassId} {name : String}

/-- A field has the same type where the same is declared, but for marks. -/
theorem fieldTy?_of_unmarked (h : (declared? q id name).map Symbol.unmarked =
    (declared? r id name).map Symbol.unmarked) : fieldTy? q id name = fieldTy? r id name := by
  have hty : ∀ s : Option Symbol,
      s.bind Symbol.fieldTy? = (s.map Symbol.unmarked).bind Symbol.fieldTy? := by
    intro s
    rcases s with _ | s
    · rfl
    · cases s <;> rfl
  rw [fieldTy?, fieldTy?, hty, hty (declared? r id name), h]

/-- A field waits for the same where the same is declared, but for marks. -/
theorem waitsFor?_of_unmarked {f : Field} (h : (declared? q id f.name).map Symbol.unmarked =
    (declared? r id f.name).map Symbol.unmarked) : waitsFor? q id f = waitsFor? r id f := by
  rw [waitsFor?, waitsFor?]
  cases hd : declared? q id f.name with
  | none =>
    rw [hd, Option.map_none] at h
    rw [Option.map_eq_none_iff.mp h.symm]
  | some s =>
    rw [hd, Option.map_some] at h
    obtain ⟨s', hs', he⟩ := Option.map_eq_some_iff.mp h.symm
    rw [hs']
    cases s <;> cases s' <;> simp_all [Symbol.unmarked]

end Unmarked

section Same

variable {r : Registry} {id : ClassId} {c c' : ClassDecl} {tail : List ClassId}

private theorem declared?_unmarked (registered : id < r.size) (mro : c.mro = id :: tail)
    (mro' : c'.mro = id :: tail) (apart : id ∉ tail) {name : String} (h : SameView c c' name) :
    (declared? (r.set id c) id name).map Symbol.unmarked =
      (declared? (r.set id c') id name).map Symbol.unmarked := by
  rw [declared?_set registered mro apart, declared?_set registered mro' apart]
  unfold SameView at h
  cases hv : visible (c.members.get? name) with
  | none =>
    rw [hv, Option.map_none] at h
    rw [Option.map_eq_none_iff.mp h.symm]
  | some s =>
    rw [hv, Option.map_some] at h
    obtain ⟨s', hs', he⟩ := Option.map_eq_some_iff.mp h.symm
    rw [hs', Option.some_or, Option.some_or, Option.map_some, Option.map_some, he]

/-- A field has the same type in classes that show the same under its name. -/
theorem fieldTy?_set_eq (registered : id < r.size) (mro : c.mro = id :: tail)
    (mro' : c'.mro = id :: tail) (apart : id ∉ tail) {name : String} (h : SameView c c' name) :
    fieldTy? (r.set id c) id name = fieldTy? (r.set id c') id name :=
  fieldTy?_of_unmarked (declared?_unmarked registered mro mro' apart h)

/-- A field waits for the same in classes that show the same under its name. -/
theorem waitsFor?_set_eq (registered : id < r.size) (mro : c.mro = id :: tail)
    (mro' : c'.mro = id :: tail) (apart : id ∉ tail) {f : Field} (h : SameView c c' f.name) :
    waitsFor? (r.set id c) id f = waitsFor? (r.set id c') id f :=
  waitsFor?_of_unmarked (declared?_unmarked registered mro mro' apart h)

/-- The fields that a class collects are the same as in one that shows the same under their
names. -/
theorem collect_set_eq (registered : id < r.size) (mro : c.mro = id :: tail)
    (mro' : c'.mro = id :: tail) (apart : id ∉ tail) (unseen : Unseen r id (interior (id :: tail)))
    (own : Except Deferral (List Field))
    (same : ∀ m, gather v r (id :: tail) own = .ok m → ∀ f ∈ m.plain, SameView c c' f.name) :
    collect v (r.set id c) id (id :: tail) own = collect v (r.set id c') id (id :: tail) own := by
  rw [collect, collect, gather_set v c unseen, gather_set v c' unseen]
  cases hm : gather v r (id :: tail) own with
  | error halt => rfl
  | ok m =>
    have hwaits : unresolved? (r.set id c) id m.plain = unresolved? (r.set id c') id m.plain := by
      rw [unresolved?, unresolved?]
      have hsame := same m hm
      generalize m.plain = fields at hsame
      induction fields with
      | nil => rfl
      | cons f fields ih =>
        rw [List.findSome?_cons, List.findSome?_cons,
          waitsFor?_set_eq registered mro mro' apart (hsame f List.mem_cons_self),
          ih fun g hg => hsame g (List.mem_cons_of_mem _ hg)]
    dsimp only
    rw [hwaits]

end Same

/-! ## What a run does with a cleared class -/

/-- The class with what a run generates for these fields. -/
def extended (r : Registry) (id : ClassId) (m : Collection) (c : ClassDecl) : ClassDecl :=
  let flags := Flags.ofDecorator (v.decorator? c)
  let added := additions v flags (initParameters (r.set id c) id m.fields) (!m.plain.isEmpty) c
  { c with
    members := c.members.insertAll (Draft.entriesOf added)
    body := c.body ++ Draft.statementsOf added }

/-- The names of the constructor-only fields. -/
def initOnlyNames (fields : List Field) : List String :=
  (fields.filter Field.initOnly).map Field.name

/-- A statement whose declaration is unbound, where it has one of these names. -/
def unbind (names : List String) (s : Statement) : Statement :=
  match s with
  | .assign a =>
    if a.isDeclaration && names.contains a.target.name then
      .assign { a with target := { a.target with binding := none } }
    else .assign a
  | s => s

/-- The class once its fields are marked, the constructor-only ones dropped, and all recorded. -/
def finished (r : Registry) (id : ClassId) (fields : List Field) (c : ClassDecl) : ClassDecl :=
  let frozen := (Flags.ofDecorator (v.decorator? c)).frozen
  let ty := fun name => (fieldTy? (r.set id c) id name).getD .any
  let marked := (fields.filter fun f => !f.initOnly).foldl (ClassDecl.mark c.fullname ty frozen)
    c.members
  { c with
    members := marked.filter fun name _ => !(initOnlyNames fields).contains name
    body := c.body.map (unbind (initOnlyNames fields))
    records := c.records.insert v.recordKey (Record.ofFields fields frozen).toJson }

/-- A run clears the class, generates and finishes. -/
theorem complete_eq (r : Registry) (id : ClassId) (c : ClassDecl) (m : Collection) :
    complete v r id c m =
      let k := c.clearGenerated
      let flags := Flags.ofDecorator (v.decorator? k)
      { registry := r.set id (finished v r id m.plain (extended v r id m k))
        result := .ok {
          fields := m.plain
          flags
          generated := (additions v flags (initParameters (r.set id k) id m.fields)
            (!m.plain.isEmpty) k).map Prod.fst
          dependencies := m.dependencies }
        log := orderLog m.plain ++ Flags.misuses (v.decorator? k) k.position ++
          orderReports v flags k } := by
  rw [complete]
  simp only [generate_eq, Draft.addAll_eq, ClassDecl.applyReadOnly_eq]
  rfl

section Unmarked

variable {c c' : ClassDecl} (h : ∀ name, (c.members.get? name).map Member.unmarked =
  (c'.members.get? name).map Member.unmarked)

include h

private theorem written?_unmarked (name : String) :
    (c.written? name).map Member.unmarked = (c'.written? name).map Member.unmarked := by
  have hfilter : ∀ m : Option Member, (m.filter fun m => !m.generated).map Member.unmarked =
      (m.map Member.unmarked).filter fun m => !m.generated := by
    intro m
    rcases m with _ | ⟨symbol, generated⟩
    · rfl
    · cases generated <;> rfl
  rw [ClassDecl.written?, ClassDecl.written?, hfilter, hfilter, h]

/-- The reports on written ordering methods do not depend on marks. -/
private theorem writtenOrdering?_unmarked (position : c.position = c'.position) (name : String) :
    writtenOrdering? c name = writtenOrdering? c' name := by
  have hm := written?_unmarked h name
  rw [writtenOrdering?, writtenOrdering?, position]
  cases hw : c.written? name with
  | none =>
    rw [hw, Option.map_none] at hm
    rw [Option.map_eq_none_iff.mp hm.symm]
  | some n =>
    rw [hw, Option.map_some] at hm
    obtain ⟨n', hn', he⟩ := Option.map_eq_some_iff.mp hm.symm
    have hp : n.symbol.position? = n'.symbol.position? := by
      have hs := congrArg (fun m => m.symbol.position?) he
      simpa only [Member.unmarked, Symbol.position?_unmarked] using hs.symm
    rw [hn', Option.map_some, Option.map_some, hp]

/-- What generation adds does not depend on marks. -/
theorem additions_eq_of_unmarked (flags : Flags) (parameters : List Parameter) (hasFields : Bool)
    (shape : c = { c' with members := c.members, records := c.records }) :
    additions v flags parameters hasFields c = additions v flags parameters hasFields c' ∧
      orderReports v flags c = orderReports v flags c' := by
  have hcontains : c.members.contains = c'.members.contains := by
    funext name
    have hsome := congrArg Option.isSome (h name)
    rwa [Option.isSome_map, Option.isSome_map] at hsome
  have hadded : additions v flags parameters hasFields c =
      additions v flags parameters hasFields { c' with members := c.members } := by
    rw [shape]
    rfl
  have hnone : (fun name => v.selfTypeVar == name ||
        (({ c' with members := c.members } : ClassDecl).written? name).isNone) =
      fun name => v.selfTypeVar == name || (c'.written? name).isNone := by
    funext name
    have hm := congrArg Option.isNone (written?_unmarked h name)
    rw [Option.isNone_map, Option.isNone_map] at hm
    rw [← hm]
    rfl
  have hposition : c.position = c'.position := by rw [shape]
  constructor
  · rw [hadded]
    unfold additions addedInit addedTypeVar addedComparisons wantsTypeVar wantsEquality
    rw [hnone]
    simp only [hcontains]
    rfl
  · have hreport : writtenOrdering? c = writtenOrdering? c' := by
      funext name
      exact writtenOrdering?_unmarked h hposition name
    rw [orderReports, orderReports, hreport, hposition]

end Unmarked

/-! ## Completing with the remains of earlier runs -/

/-- A class as it was read after earlier runs, beside the same class as a first run reads it:
there may be generated members and methods besides, other marks under the names of `free`, and
another order of the names of `gone`. -/
structure Resumes (free gone : List String) (fresh c : ClassDecl) : Prop where
  shape : c = { fresh with members := c.members, body := c.body, records := c.records }
  records : ∀ j, c.records.insert v.recordKey j = fresh.records.insert v.recordKey j
  body : ∃ added : List Method, c.body = fresh.body ++ added.map Statement.method ∧
    ∀ f ∈ added, c.members.get? f.name = some { symbol := .method f, generated := true }
  written : ∀ name m₀, fresh.members.get? name = some m₀ → m₀.generated = false ∧
    ∃ m, c.members.get? name = some m ∧ m.unmarked = m₀.unmarked ∧ (name ∉ free → m = m₀)
  generated : ∀ name m, c.members.get? name = some m → fresh.members.get? name = none →
    m.generated = true ∧ ∀ f, m.symbol = .method f → f.name = name
  order : (c.members.keys.filter fun name =>
      fresh.members.contains name && !gone.contains name) =
    fresh.members.keys.filter fun name => !gone.contains name
  methods : ∀ f, Statement.method f ∈ fresh.body → fresh.members.contains f.name = true

/-- Whether clearing keeps a statement, when these methods were generated. -/
def stays (stale : List Method) (s : Statement) : Bool :=
  match s with
  | .method m => !stale.contains m
  | _ => true

namespace Resumes

variable {free gone : List String} {fresh c : ClassDecl} (h : Resumes v free gone fresh c)

include h

/-- Clearing takes away what is generated, and nothing else. -/
private theorem written_iff {name : String} {m : Member} (hm : c.members.get? name = some m) :
    m.generated = false ↔ fresh.members.contains name = true := by
  cases h₀ : fresh.members.get? name with
  | none =>
    have hg := (h.generated name m hm h₀).1
    simp [Table.contains, h₀, hg]
  | some m₀ =>
    obtain ⟨hg₀, m', hm', he, -⟩ := h.written name m₀ h₀
    rw [hm, Option.some.injEq] at hm'
    subst hm'
    have hg : m.generated = false := by rw [Member.generated_eq he, hg₀]
    simp [Table.contains, h₀, hg]

theorem like_clearGenerated : Like free gone c.clearGenerated.members fresh.members := by
  have hget : ∀ name, c.clearGenerated.members.get? name =
      (c.members.get? name).filter fun m => !m.generated := by
    intro name
    exact Table.get?_filter _ _ _
  have hcleared : ∀ name, fresh.members.get? name = none →
      c.clearGenerated.members.get? name = none := by
    intro name h₀
    rw [hget]
    cases hm : c.members.get? name with
    | none => rfl
    | some m => simp [Option.filter, (h.generated name m hm h₀).1]
  have hkept : ∀ name m₀, fresh.members.get? name = some m₀ →
      ∃ m, c.clearGenerated.members.get? name = some m ∧ m.unmarked = m₀.unmarked ∧
        (name ∉ free → m = m₀) := by
    intro name m₀ h₀
    obtain ⟨hg₀, m, hm, he, hfree⟩ := h.written name m₀ h₀
    refine ⟨m, ?_, he, hfree⟩
    rw [hget, hm]
    simp [Option.filter, Member.generated_eq he, hg₀]
  constructor
  · rw [← h.order]
    change ((c.members.filter fun _ m => !m.generated).keys.filter fun name =>
      !gone.contains name) = _
    rw [Table.keys_filter, List.filter_filter]
    apply List.filter_congr
    intro name hname
    obtain ⟨m, hm⟩ := Option.isSome_iff_exists.mp ((Table.mem_keys_iff _ _).mp hname)
    have hw := h.written_iff v hm
    rw [hm, Option.any_some, Bool.and_comm]
    congr 1
    rw [Bool.eq_iff_iff, Bool.not_eq_true', hw]
  · intro name
    cases h₀ : fresh.members.get? name with
    | none => rw [hcleared name h₀]
    | some m₀ =>
      obtain ⟨m, hm, he, -⟩ := hkept name m₀ h₀
      rw [hm, Option.map_some, Option.map_some, he]
  · intro name hname
    cases h₀ : fresh.members.get? name with
    | none => rw [hcleared name h₀]
    | some m₀ =>
      obtain ⟨m, hm, -, hfree⟩ := hkept name m₀ h₀
      rw [hm, hfree hname]

theorem body_clearGenerated : c.clearGenerated.body = fresh.body := by
  obtain ⟨added, hbody, hadded⟩ := h.body
  have hfilter : c.clearGenerated.body = c.body.filter (stays c.generatedMethods) := rfl
  rw [hfilter, hbody, List.filter_append]
  have hkeep : fresh.body.filter (stays c.generatedMethods) = fresh.body := by
    apply List.filter_eq_self.mpr
    intro s hs
    cases s with
    | assign a => rfl
    | pass => rfl
    | method f =>
      -- A method of the body has a written member, and a generated one goes by its name.
      have hnot : f ∉ c.generatedMethods := by
        intro hf
        obtain ⟨name, hname⟩ := (c.mem_generatedMethods_iff f).mp hf
        have hw := (h.written_iff v hname).not
        have hnone : fresh.members.get? name = none := by
          simpa [Table.contains] using hw
        have he := (h.generated name _ hname hnone).2 f rfl
        have hsome := h.methods f hs
        rw [he, Table.contains, hnone] at hsome
        cases hsome
      simpa [stays] using hnot
  have hdrop : (added.map Statement.method).filter (stays c.generatedMethods) = [] := by
    apply List.filter_eq_nil_iff.mpr
    intro s hs
    obtain ⟨f, hf, rfl⟩ := List.mem_map.mp hs
    have hmem := (c.mem_generatedMethods_iff f).mpr ⟨f.name, hadded f hf⟩
    simpa [stays] using hmem
  rw [hkeep, hdrop, List.append_nil]

theorem clearGenerated_eq :
    c.clearGenerated =
      { fresh with members := c.clearGenerated.members, records := c.records } := by
  have hbody := h.body_clearGenerated v
  have hshape := h.shape
  rw [ClassDecl.clearGenerated] at hbody ⊢
  dsimp only at hbody ⊢
  rw [hbody]
  generalize c.members.filter _ = cleared
  rw [hshape]

end Resumes

/-- A class on which no run has left anything resumes itself. -/
theorem Resumes.refl {c : ClassDecl}
    (written : ∀ name m, c.members.get? name = some m → m.generated = false)
    (methods : ∀ f, Statement.method f ∈ c.body → c.members.contains f.name = true) :
    Resumes v [] [] c c := by
  refine ⟨rfl, fun _ => rfl, ⟨[], by simp, by simp⟩, ?_, ?_, ?_, methods⟩
  · exact fun name m hm => ⟨written name m hm, m, hm, rfl, fun _ => rfl⟩
  · intro name m hm hnone
    rw [hm] at hnone
    cases hnone
  · apply List.filter_congr
    intro name hname
    have hc := (Table.contains_iff c.members name).mpr hname
    simp [hc]

/-- Without the remains there is nothing to clear. -/
theorem Resumes.clearGenerated_fresh {free gone : List String} {fresh c : ClassDecl}
    (h : Resumes v free gone fresh c) : fresh.clearGenerated = fresh := by
  have hself := Resumes.refl v (fun name m hm => (h.written name m hm).1) h.methods
  have hlike := hself.like_clearGenerated v
  have hmembers : fresh.clearGenerated.members = fresh.members := by
    apply Table.ext_get?
    · simpa using hlike.order
    · exact fun name => hlike.marks name (by simp)
  rw [hself.clearGenerated_eq v, hmembers]

/-- What is finished is the same for classes that are alike, where the fields cover the names
under which they may differ. -/
private theorem finished_eq_of_like {free gone : List String} {r : Registry} {id : ClassId}
    {c c' : ClassDecl} {tail : List ClassId} (registered : id < r.size)
    (mro : c'.mro = id :: tail) (apart : id ∉ tail)
    (shape : c = { c' with members := c.members, records := c.records })
    (records : ∀ j, c.records.insert v.recordKey j = c'.records.insert v.recordKey j)
    (like : Like free gone c.members c'.members) {fields : List Field}
    (covers : free ⊆ fields.map Field.name) (drops : gone ⊆ initOnlyNames fields) :
    finished v r id fields c = finished v r id fields c' := by
  have hmro : c.mro = id :: tail := by rw [shape, mro]
  have hty : (fun name => (fieldTy? (r.set id c) id name).getD .any) =
      fun name => (fieldTy? (r.set id c') id name).getD .any := by
    funext name
    rw [fieldTy?_set_eq registered hmro mro apart (sameView_of_unmarked (like.members name))]
  have hdecorator : v.decorator? c = v.decorator? c' := by
    rw [shape]
    rfl
  have hfullname : c.fullname = c'.fullname := by rw [shape]
  have hmarked := like.foldl_mark c'.fullname
    (fun name => (fieldTy? (r.set id c') id name).getD .any)
    (Flags.ofDecorator (v.decorator? c')).frozen (fields.filter fun f => !f.initOnly)
  have hfree : (free.filter fun name =>
      !((fields.filter fun f => !f.initOnly).map Field.name).contains name) ⊆
        initOnlyNames fields := by
    intro name hname
    obtain ⟨hmem, hnot⟩ := List.mem_filter.mp hname
    obtain ⟨f, hf, rfl⟩ := List.mem_map.mp (covers hmem)
    cases hinit : f.initOnly with
    | true => exact List.mem_map_of_mem (List.mem_filter.mpr ⟨hf, hinit⟩)
    | false =>
      have hin : f.name ∈ (fields.filter fun f => !f.initOnly).map Field.name :=
        List.mem_map_of_mem (List.mem_filter.mpr ⟨hf, by simp [hinit]⟩)
      simp [hin] at hnot
  have htable := hmarked.filter_eq hfree drops
  rw [finished, finished, hty, hdecorator, hfullname, htable, records, shape]

/-- A run completes with the remains of earlier runs as it does without them. -/
theorem Resumes.complete_same {free gone : List String} {fresh c : ClassDecl}
    (h : Resumes v free gone fresh c) {r : Registry} {id : ClassId} {tail : List ClassId}
    (registered : id < r.size) (mro : fresh.mro = id :: tail) (apart : id ∉ tail)
    {m : Collection} (covers : free ⊆ m.plain.map Field.name)
    (drops : gone ⊆ initOnlyNames m.plain) :
    complete v (r.set id c) id c m = complete v (r.set id fresh) id fresh m := by
  have hfresh := h.clearGenerated_fresh v
  have hshape := h.clearGenerated_eq v
  have hlike := h.like_clearGenerated v
  rw [complete_eq, complete_eq, hfresh]
  generalize c.clearGenerated = k at hshape hlike
  have hrecords : k.records = c.records := by rw [hshape]
  have hmro : k.mro = id :: tail := by rw [hshape, mro]
  have hparameters : initParameters (r.set id k) id m.fields =
      initParameters (r.set id fresh) id m.fields := by
    have hty : parameterTy (r.set id k) id = parameterTy (r.set id fresh) id := by
      funext f
      rw [parameterTy, parameterTy,
        fieldTy?_set_eq registered hmro mro apart (sameView_of_unmarked (hlike.members f.name))]
    rw [initParameters, initParameters, hty]
  have hdecorator : v.decorator? k = v.decorator? fresh := by
    rw [hshape]
    rfl
  have hposition : k.position = fresh.position := by rw [hshape]
  rw [← hrecords] at hshape
  have hadded := fun flags parameters hasFields =>
    additions_eq_of_unmarked v hlike.members flags parameters hasFields hshape
  have hextended : finished v (r.set id c) id m.plain (extended v (r.set id c) id m k) =
      finished v (r.set id fresh) id m.plain (extended v (r.set id fresh) id m fresh) := by
    have hset : ∀ d e : ClassDecl, finished v (r.set id d) id m.plain e =
        finished v r id m.plain e := by
      intro d e
      rw [finished, finished, Registry.set_set]
    have hset' : ∀ d e : ClassDecl, extended v (r.set id d) id m e = extended v r id m e := by
      intro d e
      rw [extended, extended, Registry.set_set]
    rw [hset, hset, hset', hset']
    have hmro' : (extended v r id m fresh).mro = id :: tail := mro
    refine finished_eq_of_like v registered hmro' apart ?_ ?_ ?_ covers drops
    · rw [extended, extended, hdecorator, hparameters, (hadded _ _ _).1, hshape]
    · intro j
      change k.records.insert v.recordKey j = fresh.records.insert v.recordKey j
      rw [hrecords, h.records j]
    · rw [extended, extended, hdecorator, hparameters, (hadded _ _ _).1]
      exact hlike.insertAll _
  dsimp only
  rw [hextended, Registry.set_set, Registry.set_set, Registry.set_set, Registry.set_set,
    hdecorator, hparameters, (hadded _ _ _).1, (hadded _ [] false).2, hposition]

end View

end Synthesis

end DataHolder
