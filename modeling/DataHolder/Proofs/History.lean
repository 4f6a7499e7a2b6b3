import DataHolder.Proofs.Rounds

/-!
# Independence of history

A run that completes does what it would have done with the class as it was at first, exactly when
the type variable replaces no declaration that stays. Otherwise there are two rounds of which the
first replaces the declaration by the type variable, and the second clears it away.
-/

namespace DataHolder

/-- Whether nothing has to wait for a member, and no class looks through it. -/
def Member.isReady (m : Member) : Bool :=
  match m.symbol with
  | .var x => !m.generated && !x.ty.isPending
  | .method _ => true
  | .typeVar _ => true
  | .placeholder => false

theorem Member.isReady_unmarked (m : Member) : m.unmarked.isReady = m.isReady := by
  obtain ⟨symbol, generated⟩ := m
  cases symbol <;> rfl

namespace Synthesis

private theorem isReady_readMember (v : Vocabulary) (x : Variable) (generated : Bool) :
    (readMember v x generated).isReady = Member.isReady { symbol := .var x, generated } := by
  rw [readMember, Variable.unwrap]
  cases hx : x.ty with
  | resolved t =>
    dsimp only
    split <;> simp [Member.isReady, Binding.isPending, hx]
  | pending => rfl

/-! ## Tables in which nothing is missing -/

/-- Nothing has to wait for a member of this table. -/
def Calm (t : Table Member) : Prop := ∀ name m, t.get? name = some m → m.isReady = true

namespace Calm

variable {t u : Table Member} {es : List (String × Member)}

theorem insert (h : Calm t) {name : String} {m : Member} (ready : m.isReady = true) :
    Calm (t.insert name m) := by
  intro other m' hm'
  rw [Table.get?_insert] at hm'
  split at hm'
  · cases hm'
    exact ready
  · exact h other m' hm'

theorem insertAll (h : Calm t) (ready : ∀ e ∈ es, e.2.isReady = true) :
    Calm (t.insertAll es) := by
  induction es generalizing t with
  | nil => exact h
  | cons e es ih =>
    rw [Table.insertAll_cons]
    exact ih (h.insert (ready e List.mem_cons_self)) fun e' he' =>
      ready e' (List.mem_cons_of_mem _ he')

theorem offerAll (h : Calm t) (ready : ∀ e ∈ es, e.2.isReady = true) :
    Calm (t.offerAll es) := by
  intro name m hm
  rw [Table.get?_offerAll] at hm
  rcases Option.or_eq_some_iff.mp hm with hold | ⟨-, hnew⟩
  · exact h name m hold
  · exact ready _ (Table.mem_of_lookup hnew)

theorem filter (h : Calm t) (p : String → Member → Bool) : Calm (t.filter p) := by
  intro name m hm
  rw [Table.get?_filter] at hm
  exact h name m (Option.filter_eq_some_iff.mp hm).1

/-- Marks do not matter. -/
theorem of_unmarked (h : Calm t)
    (same : ∀ name, (u.get? name).map Member.unmarked = (t.get? name).map Member.unmarked) :
    Calm u := by
  intro name m hm
  have hsame := same name
  rw [hm, Option.map_some] at hsame
  obtain ⟨m', hm', he⟩ := Option.map_eq_some_iff.mp hsame.symm
  rw [← m.isReady_unmarked, ← he, m'.isReady_unmarked]
  exact h name m' hm'

/-- Reading a calm table finds all its fields, and leaves it calm. -/
theorem scan (v : Vocabulary) (h : Calm t) (as : List Assignment) :
    Calm (scan v as t).1 ∧ ∃ fields, (scan v as t).2 = .ok fields ∧
      ∀ f ∈ fields, f.name ∈ t.keys := by
  induction as generalizing t with
  | nil => exact ⟨h, [], rfl, by simp⟩
  | cons a as ih =>
    rw [Synthesis.scan]
    cases hv : visit (t.get? a.target.name) with
    | skip => exact ih h
    | stop =>
      obtain ⟨generated, hm⟩ := visit_eq_stop hv
      have hready := h _ _ hm
      cases hready
    | field x generated =>
      obtain ⟨hm, -⟩ := visit_eq_field hv
      have hkey : a.target.name ∈ t.keys := by
        rw [Table.mem_keys_iff, hm]
        rfl
      have hready := h _ _ hm
      rw [← isReady_readMember v x generated] at hready
      obtain ⟨hcalm, fields, hfields, hnames⟩ := ih (h.insert hready)
      have hall : ((scan v as (t.insert a.target.name (readMember v x generated))).2.map fun fs =>
          declaredField v a x :: fs) = .ok (declaredField v a x :: fields) := by
        rw [hfields]
        rfl
      refine ⟨hcalm, declaredField v a x :: fields, hall, ?_⟩
      intro f hf
      rcases List.mem_cons.mp hf with rfl | hf
      · exact hkey
      · rcases (Table.mem_keys_insert _ _ _ _).mp (hnames f hf) with hname | hname
        · exact hname ▸ hkey
        · exact hname

end Calm

/-! ## Where the ancestors contribute nothing -/

/-- A registry of empty classes in which a number is taken. -/
def bare (id : ClassId) : Registry := ⟨List.replicate (id + 1) { name := "", fullname := "" }⟩

private theorem get?_bare {id other : ClassId} {d : ClassDecl}
    (h : (bare id).get? other = some d) : d = { name := "", fullname := "" } := by
  have hmem := List.mem_of_getElem? h
  exact (List.mem_replicate.mp hmem).2

theorem lt_size_bare (id : ClassId) : id < (bare id).size := by
  have hsize : (bare id).size = id + 1 := List.length_replicate
  rw [hsize]
  exact Nat.lt_succ_self id

theorem unseen_bare (id : ClassId) {ids : List ClassId} (apart : id ∉ ids) :
    Unseen (bare id) id ids := by
  intro a ha
  refine ⟨fun he => apart (he ▸ ha), ?_⟩
  intro d hd
  rw [get?_bare hd]
  exact List.not_mem_nil

variable (v : Vocabulary) (id : ClassId)

theorem recorded_bare (ids : List ClassId) : recorded v (bare id) ids = [] := by
  apply List.filterMap_eq_nil_iff.mpr
  intro a ha
  cases hd : (bare id).get? a with
  | none => rfl
  | some d =>
    rw [get?_bare hd]
    rfl

private theorem contributions_bare (ids : List ClassId) :
    contributions v (bare id) ids = .ok [] := by
  induction ids with
  | nil => rfl
  | cons a ids ih =>
    have hnone : contribution? v (bare id) a = .ok none := by
      rw [contribution?]
      cases hd : (bare id).get? a with
      | none => rfl
      | some d =>
        rw [get?_bare hd]
        rfl
    rw [contributions_cons, hnone, ih]
    rfl

/-- The fields of a class to which no ancestor contributes. -/
private def alone (own : List Field) : Collection where
  fields := own.map fun f => { field := f }
  dependencies := []

private theorem plain_alone (own : List Field) : (alone own).plain = own := by
  rw [alone, Collection.plain, List.map_map]
  exact List.map_id own

private theorem gather_bare (mro : List ClassId) (own : List Field) :
    gather v (bare id) mro (.ok own) = .ok (alone own) := by
  rw [gather, contributions_bare]
  rfl

variable {tail : List ClassId} {c : ClassDecl}

/-- In the bare registry, a class with a calm table completes its run. -/
theorem run_bare (calm : Calm c.members) (mro : c.mro = id :: tail) (apart : id ∉ tail) :
    ∃ own, (readBody v c.body c.members).2 = .ok own ∧
      run v ((bare id).set id c) id =
        complete v ((bare id).set id (readClass v c)) id (readClass v c) (alone own) := by
  obtain ⟨hcalm, own, hown, hnames⟩ := calm.scan v (declarations c.body)
  have hread : (readBody v c.body c.members).2 = .ok own := by
    rw [readBody_eq_scan]
    exact hown
  have hmro : (readClass v c).mro = id :: tail := mro
  have hinterior : id ∉ interior (id :: tail) := fun hin => apart (List.dropLast_subset _ hin)
  have hready : unresolved? ((bare id).set id (readClass v c)) id (alone own).plain = none := by
    rw [plain_alone, unresolved?]
    apply List.findSome?_eq_none_iff.mpr
    intro f hf
    have hcontains : f.name ∈ (readClass v c).members.keys := by
      rw [keys_readClass v]
      exact hnames f hf
    obtain ⟨m, hm⟩ := Option.isSome_iff_exists.mp ((Table.mem_keys_iff _ _).mp hcontains)
    have hm' : m.isReady = true := by
      apply hcalm f.name m
      rw [← readBody_eq_scan]
      exact hm
    obtain ⟨symbol, generated⟩ := m
    rw [waitsFor?, declared?_set (lt_size_bare id) hmro apart, hm]
    cases symbol with
    | var x =>
      simp only [Member.isReady, Bool.and_eq_true, Bool.not_eq_true'] at hm'
      obtain ⟨rfl, hresolved⟩ := hm'
      simp [visible, Member.isCopy, hresolved]
    | method f => simp [visible, Member.isCopy, Symbol.isVar, Symbol.var?]
    | typeVar d => simp [visible, Member.isCopy, Symbol.isVar, Symbol.var?]
    | placeholder => cases hm'
  have hcollect : collect v ((bare id).set id (readClass v c)) id (id :: tail) (.ok own) =
      .ok (alone own) := by
    rw [collect, gather_set v _ (unseen_bare id hinterior), gather_bare]
    dsimp only
    rw [hready]
  refine ⟨own, hread, ?_⟩
  rw [run_of_get? v (Registry.get?_set_self _ _ _ (lt_size_bare id)), Registry.set_set, hread,
    mro, hcollect]

/-! ## Two rounds -/

/-- The type that a statement declares, where it declares one. -/
def declaredTy? : Statement → Option Binding
  | .assign a => a.declaredTy
  | _ => none

/-- All declared types are known. -/
def Known (body : List Statement) : Prop := ∀ s ∈ body, declaredTy? s ≠ some .pending

private theorem declaredTy?_bound (owner : String) (s : Statement) :
    declaredTy? (s.bound owner) = declaredTy? s := by
  cases s with
  | assign a =>
    rw [Statement.bound]
    split <;> rfl
  | method f => rfl
  | pass => rfl

private theorem declaredTy?_unbind (names : List String) (s : Statement) :
    declaredTy? (unbind names s) = declaredTy? s := by
  cases s with
  | assign a =>
    rw [unbind]
    split <;> rfl
  | method f => rfl
  | pass => rfl

private theorem isReady_offers (owner : String) {body : List Statement} (known : Known body) :
    ∀ e ∈ ClassDecl.offers owner body, e.2.isReady = true := by
  intro e he
  obtain ⟨s, hs, hoffer⟩ := List.mem_filterMap.mp he
  have hty := known s hs
  cases s with
  | pass => cases hoffer
  | method f =>
    cases hoffer
    rfl
  | assign a =>
    obtain ⟨target, declaredTy, value, position⟩ := a
    cases declaredTy with
    | none => cases hoffer
    | some ty =>
      rw [Statement.offer?] at hoffer
      split at hoffer
      · cases hoffer
      · cases hoffer
        cases ty with
        | pending => exact absurd rfl hty
        | resolved t =>
          simp only [Member.isReady, Variable.declared]
          split <;> rfl

/-- A class with a calm table, all of whose declared types are known. -/
structure Prepared (c : ClassDecl) : Prop where
  calm : Calm c.members
  known : Known c.body

/-- Binding prepares for the next run. -/
theorem prepared_enter (h : Prepared c) (env : Surroundings) : Prepared (enter env c) := by
  constructor
  · rw [enter, ClassDecl.bind_eq]
    exact h.calm.offerAll (isReady_offers _ h.known)
  · intro s hs
    obtain ⟨s₀, hs₀, rfl⟩ := List.mem_map.mp hs
    rw [declaredTy?_bound]
    exact h.known s₀ hs₀

theorem prepared_of_fresh (fresh : Fresh v id tail c) : Prepared c := by
  constructor
  · intro name m hm
    rw [fresh.members] at hm
    cases hm
  · intro s hs hty
    cases s with
    | method f => cases hty
    | pass => cases hty
    | assign a =>
      have hdeclaration : a ∈ declarations c.body :=
        List.mem_filterMap.mpr ⟨.assign a, hs, by
          rw [declaration?, if_pos]
          rw [Assignment.isDeclaration, show a.declaredTy = some .pending from hty]
          rfl⟩
      obtain ⟨t, ht, -⟩ := fresh.resolved a hdeclaration
      rw [show a.declaredTy = some .pending from hty] at ht
      cases ht

private theorem unmarked_foldl_mark (owner : String) (ty : String → Ty) (fields : List Field)
    (t : Table Member) (name : String) :
    ((fields.foldl (ClassDecl.mark owner ty false) t).get? name).map Member.unmarked =
      (t.get? name).map Member.unmarked := by
  induction fields generalizing t with
  | nil => rfl
  | cons f fields ih =>
    rw [List.foldl_cons, ih, ClassDecl.mark]
    rcases hm : t.get? f.name with _ | ⟨symbol, generated⟩
    · rfl
    · cases symbol with
      | var x =>
        rw [ClassDecl.marked?, Table.get?_insert]
        by_cases hname : f.name = name
        · subst hname
          rw [if_pos rfl, hm]
          rfl
        · rw [if_neg hname]
      | method f' => rfl
      | typeVar d => rfl
      | placeholder => rfl

/-- Where nothing is frozen, finishing drops the constructor-only fields and changes only marks. -/
private theorem get?_finished {k : ClassDecl} (r : Registry) (fields : List Field)
    (frozen : (Flags.ofDecorator (v.decorator? k)).frozen = false) (name : String) :
    ((finished v r id fields k).members.get? name).map Member.unmarked =
      if name ∈ initOnlyNames fields then none
      else (k.members.get? name).map Member.unmarked := by
  rw [finished, frozen, Table.get?_filter]
  by_cases hname : name ∈ initOnlyNames fields
  · rw [if_pos hname]
    cases Table.get? _ name <;> simp [Option.filter, hname]
  · rw [if_neg hname, ← unmarked_foldl_mark]
    cases Table.get? _ name <;> simp [Option.filter, hname]

/-- The class for which a round in the bare registry generates members. -/
private def cleared (ds : List Expr) (c : ClassDecl) : ClassDecl :=
  (readClass v (enter ⟨ds, bare id⟩ c)).clearGenerated

/-- In the bare registry, a round of a prepared class completes, and what it leaves is what it
generates for the class once that was read and cleared. -/
theorem next_bare (h : Prepared c) (mro : c.mro = id :: tail) (apart : id ∉ tail)
    (ds : List Expr) :
    ∃ own, (readBody v (enter ⟨ds, bare id⟩ c).body (enter ⟨ds, bare id⟩ c).members).2 = .ok own ∧
      (∃ s, (round v id ⟨ds, bare id⟩ c).result = .ok s) ∧
      ∃ r, next v id ⟨ds, bare id⟩ c =
        finished v r id own (extended v r id (alone own) (cleared v id ds c)) := by
  obtain ⟨own, hown, hrun⟩ := run_bare v id (prepared_enter h ⟨ds, bare id⟩).calm mro apart
  refine ⟨own, hown, ?_⟩
  have hround : round v id ⟨ds, bare id⟩ c = complete v
      ((bare id).set id (readClass v (enter ⟨ds, bare id⟩ c))) id
      (readClass v (enter ⟨ds, bare id⟩ c)) (alone own) := hrun
  rw [complete_eq, plain_alone] at hround
  rw [next, hround]
  refine ⟨⟨_, rfl⟩, (bare id).set id (readClass v (enter ⟨ds, bare id⟩ c)), ?_⟩
  dsimp only
  rw [Registry.get?_set_self, Option.getD_some]
  · rfl
  · rw [Registry.size_set]
    exact lt_size_bare id

/-- After a round in the bare registry that freezes nothing, a class is prepared again. -/
theorem prepared_next (h : Prepared c) (mro : c.mro = id :: tail) (apart : id ∉ tail)
    {ds : List Expr} (frozen : (Flags.ofDecorator (ds.find? v.isDecorator)).frozen = false) :
    Prepared (next v id ⟨ds, bare id⟩ c) := by
  obtain ⟨own, -, -, r, hnext⟩ := next_bare v id h mro apart ds
  have henter := prepared_enter h ⟨ds, bare id⟩
  rw [hnext]
  constructor
  · have hread : Calm (readClass v (enter ⟨ds, bare id⟩ c)).members := by
      rw [readClass, readBody_eq_scan]
      exact (henter.calm.scan v _).1
    have hcleared : Calm (cleared v id ds c).members := hread.filter _
    have hextended : Calm (extended v r id (alone own) (cleared v id ds c)).members := by
      apply hcleared.insertAll
      intro e he
      obtain ⟨a, ha, rfl⟩ := List.mem_map.mp he
      rcases of_mem_additions v _ _ _ _ ha with ⟨-, f, hf⟩ | ⟨-, d, hd⟩
      · rw [hf]
        rfl
      · rw [hd]
        rfl
    have hfrozen : (Flags.ofDecorator (v.decorator?
        (extended v r id (alone own) (cleared v id ds c)))).frozen = false := frozen
    rw [finished, hfrozen]
    apply Calm.filter
    apply hextended.of_unmarked
    intro name
    exact unmarked_foldl_mark _ _ _ _ name
  · intro s hs
    obtain ⟨s₁, hs₁, rfl⟩ := List.mem_map.mp hs
    rw [declaredTy?_unbind]
    rcases List.mem_append.mp hs₁ with hold | hnew
    · exact henter.known s₁ (List.mem_filter.mp hold).1
    · obtain ⟨f, -, rfl⟩ := List.mem_map.mp hnew
      intro hty
      cases hty

/-- A call of a decorator with one keyword argument. -/
def request (name keyword : String) (value : Bool) : Expr :=
  .call (.name { name }) [{ keyword := some keyword, value := .bool value }]

private theorem find?_request {name : String} (h : name ∈ v.decorators) (keyword : String)
    (value : Bool) :
    [request name keyword value].find? v.isDecorator = some (request name keyword value) := by
  have hdecorator : v.isDecorator (request name keyword value) = true :=
    List.contains_iff_mem.mpr h
  rw [List.find?_cons_of_pos hdecorator]

/-- Surroundings in which a decorator is called with one keyword, and no ancestor contributes. -/
abbrev asking (id : ClassId) (name keyword : String) (value : Bool) : Surroundings :=
  ⟨[request name keyword value], bare id⟩

section Asking

variable {name : String} (hname : name ∈ v.decorators)

include hname

/-- A round that asks for ordering puts a generated member in the place of a declaration under
the name of the type variable. -/
private theorem replaced (h : Prepared c) (mro : c.mro = id :: tail) (apart : id ∉ tail)
    (hgone : ∀ own, (readBody v c.bind.body c.bind.members).2 = .ok own →
      v.selfTypeVar ∉ initOnlyNames own) :
    ∃ m, (next v id (asking id name "order" true) c).members.get? v.selfTypeVar = some m ∧
      m.generated = true ∧ m.symbol.isVar = false := by
  obtain ⟨own, hown, -, r, hnext⟩ := next_bare v id h mro apart [request name "order" true]
  let k := cleared v id [request name "order" true] c
  let flags := Flags.ofDecorator ([request name "order" true].find? v.isDecorator)
  let added := additions v flags (initParameters (r.set id k) id (alone own).fields)
    (!(alone own).plain.isEmpty) k
  have hflags : flags = { order := true } := by
    show Flags.ofDecorator ([request name "order" true].find? v.isDecorator) = _
    rw [find?_request v hname]
    rfl
  have hwants : wantsTypeVar flags k = true := by
    rw [hflags, wantsTypeVar, Bool.or_true]
  have hmem : v.selfTypeVar ∈ (Draft.entriesOf added).map Prod.fst := by
    rw [Draft.names_entriesOf]
    exact selfTypeVar_mem_additions v _ _ _ _ hwants
  obtain ⟨m, hin, hget⟩ := k.members.exists_get?_insertAll hmem
  obtain ⟨a, ha, he⟩ := List.mem_map.mp hin
  have hm : m = { symbol := a.2, generated := true } := (Prod.mk.inj he).2.symm
  have hvar : m.symbol.isVar = false := by
    rw [hm]
    rcases of_mem_additions v _ _ _ _ ha with ⟨-, f, hf⟩ | ⟨-, d, hd⟩
    · rw [hf]
      rfl
    · rw [hd]
      rfl
  have hfrozen : (Flags.ofDecorator (v.decorator? (extended v r id (alone own) k))).frozen =
      false :=
    congrArg Flags.frozen hflags
  have hextended : (extended v r id (alone own) k).members.get? v.selfTypeVar = some m := hget
  have hfinished := get?_finished v id r own hfrozen v.selfTypeVar
  rw [← hnext, if_neg (hgone own hown), hextended, Option.map_some] at hfinished
  obtain ⟨m', hm', hsame⟩ := Option.map_eq_some_iff.mp hfinished
  have hmm : m = m' := Member.eq_of_not_var hsame.symm hvar
  refine ⟨m, hmm ▸ hm', ?_, hvar⟩
  rw [hm]

/-- A round that asks for no comparison adds nothing under the name of the type variable. -/
private theorem cleared_or_kept (h : Prepared c) (mro : c.mro = id :: tail) (apart : id ∉ tail)
    (hinit : v.selfTypeVar ≠ "__init__") :
    ∃ own, (readBody v c.bind.body c.bind.members).2 = .ok own ∧
      (∃ s, (round v id (asking id name "eq" false) c).result = .ok s) ∧
      ((next v id (asking id name "eq" false) c).members.get? v.selfTypeVar).map
          Member.unmarked =
        if v.selfTypeVar ∈ initOnlyNames own then none
        else (((readClass v c.bind).members.get? v.selfTypeVar).filter fun m =>
          !m.generated).map Member.unmarked := by
  obtain ⟨own, hown, hresult, r, hnext⟩ := next_bare v id h mro apart [request name "eq" false]
  let k := cleared v id [request name "eq" false] c
  have hflags : Flags.ofDecorator ([request name "eq" false].find? v.isDecorator) =
      { eq := false } := by
    rw [find?_request v hname]
    rfl
  have hfrozen : (Flags.ofDecorator (v.decorator? (extended v r id (alone own) k))).frozen =
      false :=
    congrArg Flags.frozen hflags
  have hnot : ∀ parameters hasFields, v.selfTypeVar ∉
      (Draft.entriesOf (additions v { eq := false } parameters hasFields k)).map Prod.fst := by
    intro parameters hasFields
    rw [Draft.names_entriesOf]
    simp only [additions, addedInit, addedTypeVar, wantsTypeVar, wantsEquality, addedComparisons]
    split <;> simp [hinit]
  have hextended : (extended v r id (alone own) k).members.get? v.selfTypeVar =
      k.members.get? v.selfTypeVar := by
    have hadded := hnot (initParameters (r.set id k) id (alone own).fields)
      (!(alone own).plain.isEmpty)
    rw [← hflags] at hadded
    exact Table.get?_insertAll_of_not_mem _ hadded
  have hcleared : k.members.get? v.selfTypeVar =
      ((readClass v c.bind).members.get? v.selfTypeVar).filter fun m => !m.generated :=
    Table.get?_filter _ _ _
  have hfinished := get?_finished v id r own hfrozen v.selfTypeVar
  rw [← hnext, hextended, hcleared] at hfinished
  exact ⟨own, hown, hresult, hfinished⟩

/-- After a round that asks for ordering, one that asks for no comparison completes, and leaves
nothing under the name of the type variable. -/
private theorem lost_after_ordering (h : Prepared c) (mro : c.mro = id :: tail)
    (apart : id ∉ tail) (hinit : v.selfTypeVar ≠ "__init__")
    (hgone : ∀ own, (readBody v c.bind.body c.bind.members).2 = .ok own →
      v.selfTypeVar ∉ initOnlyNames own) {d : ClassDecl}
    (hd : d = next v id (asking id name "order" true) c) :
    (∃ s, (round v id (asking id name "eq" false) d).result = .ok s) ∧
      (next v id (asking id name "eq" false) d).members.get? v.selfTypeVar = none := by
  have hprepared : Prepared d := by
    rw [hd]
    apply prepared_next v id h mro apart
    rw [find?_request v hname]
    rfl
  have hmro : d.mro = id :: tail := by
    obtain ⟨own, -, -, r, hnext⟩ := next_bare v id h mro apart [request name "order" true]
    rw [hd, hnext]
    exact mro
  obtain ⟨m, hm, hgenerated, hvar⟩ := replaced v id hname h mro apart hgone
  rw [← hd] at hm
  obtain ⟨own, -, hcompletes, hnext⟩ := cleared_or_kept v id hname hprepared hmro apart hinit
  have hbind : d.bind.members.get? v.selfTypeVar = some m := by
    rw [ClassDecl.bind_eq, Table.get?_offerAll, hm, Option.some_or]
  have hread : (readClass v d.bind).members.get? v.selfTypeVar = some m := by
    rw [readClass, readBody_eq_scan]
    rcases get?_scan v (declarations d.bind.body) d.bind.members v.selfTypeVar with
      hsame | ⟨x, ty, g, hx, -, -⟩
    · exact hsame.trans hbind
    · rw [hbind] at hx
      cases hx
      cases hvar
  refine ⟨hcompletes, ?_⟩
  rw [hread] at hnext
  apply Option.map_eq_none_iff.mp
  rw [hnext]
  simp [Option.filter, hgenerated]

/-- A first round that asks for no comparison keeps a declaration under the name of the type
variable. -/
private theorem kept_alone (fresh : Fresh v id tail c) (hinit : v.selfTypeVar ≠ "__init__")
    (hgone : ∀ own, (readBody v c.bind.body c.bind.members).2 = .ok own →
      v.selfTypeVar ∉ initOnlyNames own) (hkey : v.selfTypeVar ∈ c.bind.members.keys) :
    (next v id (asking id name "eq" false) c).members.get? v.selfTypeVar ≠ none := by
  obtain ⟨own, hread, -, hnext⟩ :=
    cleared_or_kept v id hname (prepared_of_fresh v id fresh) fresh.mro fresh.apart hinit
  have hkept : v.selfTypeVar ∈ (readClass v c.bind).members.keys := by
    rw [keys_readClass v]
    exact hkey
  obtain ⟨m, hm⟩ := Option.isSome_iff_exists.mp ((Table.mem_keys_iff _ _).mp hkept)
  have g := grounded_bind v fresh
  have hwritten := ((Settled.refl v [] c.bind).resumes g rfl).written _ _ hm
  intro hnone
  rw [hnone, if_neg (hgone own hread), hm] at hnext
  simp [Option.filter, hwritten.1] at hnext

end Asking

private theorem admissible_bare (fresh : Fresh v id tail c) (ds : List Expr) :
    Admissible v id c ⟨ds, bare id⟩ := by
  have hinterior : id ∉ interior c.mro := by
    rw [fresh.mro]
    exact fun hin => fresh.apart (List.dropLast_subset _ hin)
  refine ⟨lt_size_bare id, unseen_bare id hinterior, ?_⟩
  rw [recorded_bare]
  intro a ha
  cases ha

/-- Where the history does not matter, the type variable replaces no declaration that stays: it
would be cleared after a round that asks for ordering, and kept by the first one that does not. -/
theorem apart_of_historyIndependent (fresh : Fresh v id tail c) (hdecorators : v.decorators ≠ [])
    (hinit : v.selfTypeVar ≠ "__init__") (hordering : v.selfTypeVar ∉ orderingMethods)
    (h : HistoryIndependent v id c) : TypeVarApart v c := by
  by_contra hnot
  rw [TypeVarApart, not_or, not_and, not_and] at hnot
  have hkey : v.selfTypeVar ∈ c.bind.members.keys := by
    by_contra hkey
    exact hnot.2 hkey hinit
  have hgone : ∀ own, (readBody v c.bind.body c.bind.members).2 = .ok own →
      v.selfTypeVar ∉ initOnlyNames own := by
    intro own hread hin
    have hfields : ownFields v c = own := by rw [ownFields, hread]
    apply hnot.1 _ hordering
    rw [goneNames, hfields]
    exact hin
  obtain ⟨name, hname⟩ := List.exists_mem_of_ne_nil _ hdecorators
  have hkept := kept_alone v id hname fresh hinit hgone hkey
  obtain ⟨⟨s, hs⟩, hlost⟩ := lost_after_ordering v id hname (prepared_of_fresh v id fresh)
    fresh.mro fresh.apart hinit hgone rfl
  have hsame := h [asking id name "order" true] (asking id name "eq" false)
    (by simpa using admissible_bare v id fresh _) (admissible_bare v id fresh _) s hs
  have hget : (round v id (asking id name "eq" false)
      (next v id (asking id name "order" true) c)).registry.get? id =
        some (next v id (asking id name "eq" false)
          (next v id (asking id name "order" true) c)) :=
    get?_round _ (lt_size_bare id)
  rw [show round v id _ (next v id _ c) = round v id _ c from hsame,
    get?_round c (lt_size_bare id)] at hget
  rw [Option.some.inj hget] at hkept
  exact hkept hlost

/-- What a completed run leaves of a class does not depend on the runs before it, if the type
variable replaces no declaration that stays. For a type variable that is named neither like the
constructor nor like an ordering method, it does not depend on them only then. -/
theorem history_independent (fresh : Fresh v id tail c) :
    (TypeVarApart v c → HistoryIndependent v id c) ∧
      (v.decorators ≠ [] → v.selfTypeVar ≠ "__init__" → v.selfTypeVar ∉ orderingMethods →
        HistoryIndependent v id c → TypeVarApart v c) :=
  ⟨historyIndependent_of_apart fresh, apart_of_historyIndependent v id fresh⟩

/-- A class below a root, with one field. -/
private def point : ClassDecl where
  name := "Point"
  fullname := "geometry.Point"
  body :=
    [.assign
      { target := { name := "x" }, declaredTy := some (.resolved (.named "builtins.int")) }]
  mro := [1, 0]

/-- A class with a method that has the name of the type variable. -/
private def shadowing : ClassDecl :=
  { point with
    body :=
      point.body ++
        [.method
          { name := "_DT", fullname := "geometry.Point._DT", parameters := [], result := .none }] }

theorem history_independent_point :
    Fresh {} 1 [0] point ∧ TypeVarApart {} point ∧ HistoryIndependent {} 1 point := by
  have fresh : Fresh {} 1 [0] point := by
    refine ⟨rfl, ?_, ?_, rfl, by decide⟩
    · intro a ha
      rw [List.mem_singleton.mp ha]
    · intro a ha
      rw [List.mem_singleton.mp ha]
      exact ⟨_, rfl, by decide⟩
  have clear : TypeVarApart {} point := .inr ⟨by decide, by decide⟩
  exact ⟨fresh, clear, (history_independent {} 1 fresh).1 clear⟩

theorem not_historyIndependent_shadowing : ¬ HistoryIndependent {} 1 shadowing := by
  intro h
  have fresh : Fresh {} 1 [0] shadowing := by
    refine ⟨rfl, ?_, ?_, rfl, by decide⟩
    · intro a ha
      rw [List.mem_singleton.mp ha]
    · intro a ha
      rw [List.mem_singleton.mp ha]
      exact ⟨_, rfl, by decide⟩
  have hsame := h [asking 1 "dataclass" "order" true] (asking 1 "dataclass" "eq" false)
    (by simpa using admissible_bare {} 1 fresh _) (admissible_bare {} 1 fresh _) _ rfl
  have hnames := congrArg (fun r => (r.registry.get? 1).map fun c => c.members.keys) hsame
  exact absurd hnames (by decide)

end Synthesis

end DataHolder
