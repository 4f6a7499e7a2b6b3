import DataHolder.Proofs.Outcome
import DataHolder.Proofs.Rounds

/-!
# Methods added between runs

The user may add methods to a class that has been run. Binding registers a method where its name
is free, so that what a run has generated hides it: the run takes the generated member away, but
the method that was passed over stays without an entry. `added_method_lost` says that of any class,
and `tracked_after` what rounds make of the entry and the statements of a name: they leave the
written ones alone, and keep of their own at most one method, which the table holds.
-/

namespace DataHolder

/-- The method that a statement defines. -/
def Statement.method? : Statement → Option Method
  | .method f => some f
  | _ => none

/-- The methods that a body defines, in body order. -/
def methods (body : List Statement) : List Method := body.filterMap Statement.method?

/-- The methods that a body defines under a name. -/
def methodsNamed (name : String) (body : List Statement) : List Method :=
  (methods body).filter fun f => f.name == name

theorem methods_append (body body' : List Statement) :
    methods (body ++ body') = methods body ++ methods body' :=
  List.filterMap_append

theorem methodsNamed_append (name : String) (body body' : List Statement) :
    methodsNamed name (body ++ body') = methodsNamed name body ++ methodsNamed name body' := by
  rw [methodsNamed, methods_append, List.filter_append]
  rfl

theorem methods_map_method (fs : List Method) : methods (fs.map Statement.method) = fs := by
  rw [methods, List.filterMap_map]
  exact List.filterMap_some

theorem mem_methodsNamed {name : String} {body : List Statement} {f : Method} :
    f ∈ methodsNamed name body ↔ f ∈ methods body ∧ f.name = name := by
  rw [methodsNamed, List.mem_filter, beq_iff_eq]

namespace ClassDecl

/-- The class with methods added at the end of its body. -/
def withMethods (c : ClassDecl) (fs : List Method) : ClassDecl :=
  { c with body := c.body ++ fs.map Statement.method }

theorem methods_bind (c : ClassDecl) : methods c.bind.body = methods c.body := by
  rw [bind_eq, methods, methods, List.filterMap_map]
  congr 1
  funext s
  cases s with
  | method f => rfl
  | pass => rfl
  | assign a =>
    rw [Function.comp_apply, Synthesis.bound_eq]
    cases Synthesis.declaration? (.assign a) <;> rfl

private theorem lookup_append {α : Type} (es fs : List (String × α)) (key : String) :
    Table.lookup key (es ++ fs) = (Table.lookup key es).or (Table.lookup key fs) := by
  induction es with
  | nil => exact Option.none_or.symm
  | cons e es ih =>
    obtain ⟨k, a⟩ := e
    rw [List.cons_append, Table.lookup, Table.lookup]
    split
    · exact Option.some_or.symm
    · exact ih

private theorem lookup_offers_methods (owner : String) (fs : List Method) (name : String) :
    Table.lookup name (offers owner (fs.map Statement.method)) =
      (fs.find? fun f => f.name == name).map fun f => { symbol := .method f } := by
  induction fs with
  | nil => rfl
  | cons f fs ih =>
    rw [List.map_cons, offers, List.filterMap_cons]
    dsimp only [Statement.offer?]
    rw [Table.lookup]
    by_cases h : f.name = name
    · rw [if_pos h, List.find?_cons_of_pos (by simpa using h)]
      rfl
    · rw [if_neg h, List.find?_cons_of_neg (by simpa using h)]
      exact ih

/-- Binding registers the first of the methods added under a name where nothing else goes by it. -/
theorem get?_bind_withMethods (c : ClassDecl) (fs : List Method) (name : String) :
    (c.withMethods fs).bind.members.get? name =
      (c.bind.members.get? name).or
        ((fs.find? fun f => f.name == name).map fun f => { symbol := .method f }) := by
  rw [bind_eq, bind_eq, withMethods]
  dsimp only
  rw [Table.get?_offerAll, Table.get?_offerAll, Option.or_assoc, offers, List.filterMap_append,
    lookup_append]
  congr 2
  exact lookup_offers_methods _ _ _

/-- What a class has under a name stays when it is bound. -/
theorem get?_bind_of_some {c : ClassDecl} {name : String} {m : Member}
    (h : c.members.get? name = some m) : c.bind.members.get? name = some m := by
  rw [bind_eq, Table.get?_offerAll, h, Option.some_or]

/-- Where binding registers nothing under a name, the body has no method of that name. -/
theorem methodsNamed_of_bind {c : ClassDecl} {name : String}
    (h : c.bind.members.get? name = none) : methodsNamed name c.body = [] := by
  rw [List.eq_nil_iff_forall_not_mem]
  intro f hf
  obtain ⟨hmem, rfl⟩ := mem_methodsNamed.mp hf
  obtain ⟨s, hs, hsf⟩ := List.mem_filterMap.mp hmem
  rw [bind_eq, Table.get?_offerAll, Option.or_eq_none_iff] at h
  cases s with
  | assign a => cases hsf
  | pass => cases hsf
  | method g =>
    cases hsf
    have hoffer : (f.name, { symbol := .method f }) ∈ offers c.fullname c.body :=
      List.mem_filterMap.mpr ⟨_, hs, rfl⟩
    have hsome := (Table.isSome_lookup_iff f.name (offers c.fullname c.body)).mpr
      (List.mem_map_of_mem hoffer)
    rw [h.2] at hsome
    cases hsome

/-- A body that binds all its declarations of a name and has no method of that name registers
nothing under it. -/
theorem get?_bind_of_bound {c : ClassDecl} {name : String}
    (bound : ∀ a ∈ Synthesis.declarations c.body, a.target.name = name →
      a.target.binding.isSome = true)
    (none : methodsNamed name c.body = []) :
    c.bind.members.get? name = c.members.get? name := by
  have hnot : name ∉ (offers c.fullname c.body).map Prod.fst := by
    intro hmem
    obtain ⟨⟨key, m⟩, he, rfl⟩ := List.mem_map.mp hmem
    obtain ⟨s, hs, hoffer⟩ := List.mem_filterMap.mp he
    cases s with
    | pass => cases hoffer
    | method f =>
      cases hoffer
      have hf : f ∈ methodsNamed f.name c.body :=
        mem_methodsNamed.mpr ⟨List.mem_filterMap.mpr ⟨_, hs, rfl⟩, rfl⟩
      rw [none] at hf
      cases hf
    | assign a =>
      obtain ⟨target, declaredTy, value, position⟩ := a
      cases declaredTy with
      | none => cases hoffer
      | some ty =>
        have hdeclared : ⟨target, some ty, value, position⟩ ∈ Synthesis.declarations c.body :=
          List.mem_filterMap.mpr ⟨_, hs, rfl⟩
        rw [Statement.offer?] at hoffer
        split at hoffer
        · cases hoffer
        · next hfree =>
          cases hoffer
          exact hfree (bound _ hdeclared rfl)
  have hlookup : Table.lookup name (offers c.fullname c.body) = Option.none := by
    simpa using (Table.isSome_lookup_iff name (offers c.fullname c.body)).not.mpr hnot
  rw [bind_eq, Table.get?_offerAll, hlookup, Option.or_none]

end ClassDecl

namespace Synthesis

/-! ## What a completed run leaves of a name -/

/-- Every generated method goes by the name that it is held under. -/
def Keyed (c : ClassDecl) : Prop :=
  ∀ name f, c.members.get? name = some { symbol := .method f, generated := true } → f.name = name

private theorem methods_map_unbind (names : List String) (body : List Statement) :
    methods (body.map (unbind names)) = methods body := by
  rw [methods, methods, List.filterMap_map]
  congr 1
  funext s
  cases s with
  | method f => rfl
  | pass => rfl
  | assign a =>
    rw [Function.comp_apply, unbind]
    split <;> rfl

private theorem methods_filter_stays (stale : List Method) (body : List Statement) :
    methods (body.filter (stays stale)) = (methods body).filter fun f => !stale.contains f := by
  rw [methods, methods, List.filterMap_filter, List.filter_filterMap]
  congr 1
  funext s
  cases s with
  | method f => rfl
  | pass => rfl
  | assign a => rfl

/-- The class that is bound, and the class that is read, hold their generated methods as before. -/
theorem Keyed.bind {c : ClassDecl} (h : Keyed c) : Keyed c.bind := by
  intro name f hf
  rw [ClassDecl.bind_eq, Table.get?_offerAll] at hf
  cases hold : c.members.get? name with
  | some m =>
    rw [hold, Option.some_or] at hf
    exact h name f (hold.trans hf)
  | none =>
    rw [hold, Option.none_or] at hf
    cases (offers_written _ _ (Table.mem_of_lookup hf)).1

theorem Keyed.read {v : Vocabulary} {c : ClassDecl} (h : Keyed c) : Keyed (readClass v c) := by
  intro name f hf
  rw [readClass, readBody_eq_scan] at hf
  rcases get?_scan v (declarations c.body) c.members name with he | ⟨x, ty, generated, -, -, he⟩
  · exact h name f (he.symm.trans hf)
  · rw [he] at hf
    cases hf

section Completed

variable {v : Vocabulary} {r : Registry} {id : ClassId} {c : ClassDecl} {m : Collection}
  {name : String}

/-- The methods that a completed run leaves are those of the body that are not stale, and those
that were added. -/
theorem methods_completed :
    methods (completed v r id c m).body =
      ((methods c.body).filter fun f => !(readClass v c).generatedMethods.contains f) ++
        Draft.methodsIn (added v r id c m) := by
  rw [body_completed, methods_map_unbind, methods_append, methods_filter_stays]
  congr 1
  exact methods_map_method _

theorem keyed_completed : Keyed (completed v r id c m) := by
  intro name f hf
  have hdraft := get?_draft_of_completed v r id c m hf rfl
  by_cases hmem : name ∈ (added v r id c m).map Prod.fst
  · obtain ⟨symbol, hadded, hget⟩ := get?_draft_of_mem hmem
    rw [hget, Option.some.injEq, Member.mk.injEq] at hdraft
    rw [hdraft.1] at hadded
    exact (of_method_mem_additions _ _ _ _ _ hadded).1
  · rw [get?_draft_of_not_mem hmem, ClassDecl.written?] at hdraft
    cases (Option.filter_eq_some_iff.mp hdraft).2

section Apart

variable (apart : v.selfTypeVar ≠ name) (foreign : name ∉ m.plain.map Field.name)

include apart foreign

/-- A written member stays where the name is that of no field and not that of the type variable,
and so do the methods of the body under the name. -/
theorem completed_of_written {w : Member} (keyed : Keyed (readClass v c))
    (written : (readClass v c).written? name = some w) :
    (completed v r id c m).members.get? name = some w ∧
      name ∉ (added v r id c m).map Prod.fst ∧
      methodsNamed name (completed v r id c m).body = methodsNamed name c.body := by
  have hadded : name ∉ (added v r id c m).map Prod.fst := by
    rw [mem_added_iff (by rw [written]; rfl)]
    exact fun h => apart h.1
  refine ⟨?_, hadded, ?_⟩
  · rw [get?_completed_of_not_mem v r id c m foreign, get?_draft_of_not_mem hadded, written]
  · have hnew : (Draft.methodsIn (added v r id c m)).filter (fun f => f.name == name) = [] := by
      apply List.filter_eq_nil_iff.mpr
      intro f hf hname
      rw [← beq_iff_eq.mp hname] at hadded
      exact hadded (List.mem_map_of_mem (f := Prod.fst) (mem_additions_of_methodsIn _ _ _ _ _ hf))
    rw [methodsNamed, methods_completed, List.filter_append, hnew, List.append_nil, methodsNamed,
      List.filter_filter]
    apply List.filter_congr
    intro f hf
    by_cases hname : f.name = name
    · -- A stale method of this name would be the member under it, which is a written one.
      have hstale : f ∉ (readClass v c).generatedMethods := by
        intro hmem
        obtain ⟨key, hkey⟩ := ((readClass v c).mem_generatedMethods_iff f).mp hmem
        rw [← keyed key f hkey, hname] at hkey
        rw [ClassDecl.written?, hkey] at written
        cases written
      simp [hname, hstale]
    · simp [hname]

/-- Where no member was written, a completed run holds nothing or one method that it has added,
and leaves no other method of this name but those of the body that were not stale. -/
theorem completed_of_not_written (written : (readClass v c).written? name = none) :
    ∃ f? : Option Method,
      (completed v r id c m).members.get? name =
        f?.map (fun f => { symbol := .method f, generated := true }) ∧
      ∀ g ∈ methodsNamed name (completed v r id c m).body, f? = some g ∨
        g ∈ methodsNamed name c.body ∧ g ∉ (readClass v c).generatedMethods := by
  have hsplit : ∀ g ∈ methodsNamed name (completed v r id c m).body,
      (name, .method g) ∈ added v r id c m ∨
        g ∈ methodsNamed name c.body ∧ g ∉ (readClass v c).generatedMethods := by
    intro g hg
    rw [mem_methodsNamed, methods_completed, List.mem_append, List.mem_filter] at hg
    obtain ⟨⟨hold, hstale⟩ | hnew, hname⟩ := hg
    · exact .inr ⟨mem_methodsNamed.mpr ⟨hold, hname⟩, by simpa using hstale⟩
    · rw [← hname]
      exact .inl (mem_additions_of_methodsIn _ _ _ _ _ hnew)
  have hget := get?_completed_of_not_mem v r id c m foreign
  by_cases hmem : name ∈ (added v r id c m).map Prod.fst
  · obtain ⟨symbol, hadded, hdraft⟩ := get?_draft_of_mem hmem
    obtain ⟨f, rfl⟩ : ∃ f, symbol = .method f := by
      rcases of_mem_additions _ _ _ _ _ hadded with ⟨-, hf⟩ | ⟨hname, -⟩
      · exact hf
      · exact absurd hname.symm apart
    refine ⟨some f, hget.trans hdraft, fun g hg => (hsplit g hg).imp_left fun hnew => ?_⟩
    rw [eq_of_method_mem_additions _ _ _ _ _ hadded, eq_of_method_mem_additions _ _ _ _ _ hnew]
  · refine ⟨none, ?_, fun g hg => (hsplit g hg).imp_left fun hnew => ?_⟩
    · rw [hget, get?_draft_of_not_mem hmem, written]
      rfl
    · exact absurd (List.mem_map_of_mem (f := Prod.fst) hnew) hmem

end Apart

end Completed

/-! ## Over rounds -/

section Rounds

variable (v : Vocabulary) (id : ClassId)

/-- The syntheses with which rounds answer, where they complete. -/
def answers : List Surroundings → ClassDecl → List Synthesis
  | [], _ => []
  | env :: history, c =>
    (round v id env c).result.toOption.toList ++ answers history (next v id env c)

variable {v id} {env : Surroundings} {c d : ClassDecl} {s : Synthesis} {name : String}

/-- A round that completes leaves its class completed. -/
theorem next_of_ok (h : (round v id env d).result = .ok s) :
    ∃ m, s.fields = m.plain ∧
      s.generated =
        (added v (env.registry.set id (enter env d)) id (enter env d) m).map Prod.fst ∧
      next v id env d = completed v (env.registry.set id (enter env d)) id (enter env d) m := by
  have hsome : ∃ k, (env.registry.set id (enter env d)).get? id = some k := by
    cases hget : (env.registry.set id (enter env d)).get? id with
    | some k => exact ⟨k, rfl⟩
    | none =>
      rw [round, run, hget] at h
      cases h
  obtain ⟨k, hget⟩ := hsome
  have registered := Registry.lt_size_of_get? hget
  rw [Registry.size_set] at registered
  obtain ⟨own, m, -, -, rfl, -, hleft⟩ :=
    run_of_ok (Registry.get?_set_self _ _ _ registered) h
  exact ⟨m, rfl, rfl, by rw [next, round, hleft, Option.getD_some]⟩

/-- A round passes its class over, leaves it read where it halts, or completes it. -/
theorem next_cases (env : Surroundings) (d : ClassDecl) :
    next v id env d = d ∨ next v id env d = readClass v (enter env d) ∨
      ∃ s, (round v id env d).result = .ok s := by
  by_cases registered : id < env.registry.size
  · have hget := Registry.get?_set_self env.registry id (enter env d) registered
    cases hresult : (round v id env d).result with
    | error halt =>
      refine .inr (.inl ?_)
      rw [next, round, registry_of_halt v hget hresult, Registry.set_set,
        Registry.get?_set_self _ _ _ registered, Option.getD_some]
    | ok s => exact .inr (.inr ⟨s, rfl⟩)
  · have hnone : (env.registry.set id (enter env d)).get? id = none := by
      rw [Registry.get?, List.getElem?_eq_none_iff]
      exact Nat.not_lt.mp fun h => registered (by rwa [← Registry.size_set env.registry id])
    exact .inl (by rw [next, round, run, hnone, hnone, Option.getD_none])

/-- What rounds have made of a class under a name: it holds and defines what it would at first, or
else a method that a run has generated where the class has none. -/
inductive Standing (name : String) (c d : ClassDecl) : Prop
  | own (entry : d.bind.members.get? name = c.bind.members.get? name)
    (statements : methodsNamed name d.body = methodsNamed name c.body)
  | generated (f : Method) (free : c.bind.members.get? name = none)
    (entry : d.bind.members.get? name = some { symbol := .method f, generated := true })
    (statements : ∀ g ∈ methodsNamed name d.body, g = f)

/-- A class after rounds, as far as a name is concerned. -/
structure Tracked (name : String) (c d : ClassDecl) : Prop where
  declared : (declarations d.body).map (fun a => a.target.name) =
    (declarations c.body).map fun a => a.target.name
  keyed : Keyed d
  standing : Standing name c d

/-- No member of a class is generated. -/
def Pristine (c : ClassDecl) : Prop :=
  ∀ name m, c.members.get? name = some m → m.generated = false

theorem Tracked.refl (pristine : Pristine c) : Tracked name c c := by
  refine ⟨rfl, ?_, .own rfl rfl⟩
  intro key f hf
  cases pristine key _ hf

theorem Pristine.bind (h : Pristine c) : Pristine c.bind := by
  intro name m hm
  rw [ClassDecl.bind_eq, Table.get?_offerAll] at hm
  cases hold : c.members.get? name with
  | some m' =>
    rw [hold, Option.some_or] at hm
    exact h name m (hold.trans hm)
  | none =>
    rw [hold, Option.none_or] at hm
    exact (offers_written _ _ (Table.mem_of_lookup hm)).1

/-- A class stands as at first if its table and its methods are as they would be at first. -/
private theorem standing_own {e : ClassDecl}
    (bound : ∀ a ∈ declarations e.body, a.target.name = name → a.target.binding.isSome = true)
    (entry : e.members.get? name = c.bind.members.get? name)
    (statements : methodsNamed name e.body = methodsNamed name c.body) : Standing name c e := by
  refine .own ?_ statements
  cases hc : c.bind.members.get? name with
  | some m =>
    rw [hc] at entry
    exact ClassDecl.get?_bind_of_some entry
  | none =>
    rw [ClassDecl.methodsNamed_of_bind hc] at statements
    rw [ClassDecl.get?_bind_of_bound bound statements, entry, hc]

/-- The declarations of a class are bound once it is entered. -/
private theorem bound_enter {a : Assignment} (ha : a ∈ declarations (enter env d).body) :
    a.target.binding.isSome = true := by
  have ha : a ∈ declarations d.bind.body := ha
  rw [declarations_bind] at ha
  obtain ⟨b, -, rfl⟩ := List.mem_map.mp ha
  exact isSome_binding_boundTarget _ b

private theorem methodsNamed_enter :
    methodsNamed name (enter env d).body = methodsNamed name d.body := by
  rw [methodsNamed, methodsNamed]
  exact congrArg _ (ClassDecl.methods_bind d)

/-- The names that the class declares stay the same, and so does what is a field among them. -/
private theorem Tracked.not_mem_fieldNames (h : Tracked name c d)
    (own : name ∉ fieldNames c.bind) : name ∉ fieldNames (enter env d) := by
  intro hmem
  obtain ⟨hdeclared, hmember⟩ : name ∈ (declarations d.bind.body).map (fun a => a.target.name) ∧
      isField (d.bind.members.get? name) = true := mem_fieldNames.mp hmem
  rw [names_bind, h.declared, ← names_bind] at hdeclared
  cases h.standing with
  | own entry _ =>
    rw [entry] at hmember
    exact own (mem_fieldNames.mpr ⟨hdeclared, hmember⟩)
  | generated f _ entry _ =>
    rw [entry] at hmember
    cases hmember

/-- A round that halts changes nothing under a name that is none of the fields. -/
private theorem Tracked.read (h : Tracked name c d) (own : name ∉ fieldNames c.bind) :
    Tracked name c (readClass v (enter env d)) := by
  have hentry : (readClass v (enter env d)).members.get? name = d.bind.members.get? name :=
    get?_readClass_of_not_mem v (h.not_mem_fieldNames own)
  have keyed : Keyed (enter env d) := h.keyed.bind
  refine ⟨(names_bind d).trans h.declared, keyed.read, ?_⟩
  cases h.standing with
  | own entry statements =>
    exact standing_own (fun a ha _ => bound_enter ha) (hentry.trans entry)
      (methodsNamed_enter.trans statements)
  | generated f free entry statements =>
    refine .generated f free (ClassDecl.get?_bind_of_some (hentry.trans entry)) ?_
    rw [show methodsNamed name (readClass v (enter env d)).body = methodsNamed name d.body from
      methodsNamed_enter]
    exact statements

/-- The declarations that a completed round leaves have their names, and those of no field are
bound. -/
private theorem declarations_next {r : Registry} {m : Collection}
    (foreign : name ∉ m.plain.map Field.name) :
    (declarations (completed v r id (enter env d) m).body).map (fun a => a.target.name) =
        (declarations d.body).map (fun a => a.target.name) ∧
      ∀ a ∈ declarations (completed v r id (enter env d) m).body,
        a.target.name = name → a.target.binding.isSome = true := by
  have hname : ∀ (names : List String) (a : Assignment),
      (unbindTarget names a).target.name = a.target.name := by
    intro names a
    rw [unbindTarget]
    split <;> rfl
  rw [declarations_completed]
  constructor
  · rw [List.map_map, ← names_bind d]
    exact List.map_congr_left fun a _ => hname _ a
  · intro a ha he
    obtain ⟨b, hb, rfl⟩ := List.mem_map.mp ha
    rw [hname] at he
    have hkept : (initOnlyNames m.plain).contains b.target.name = false := by
      rw [he]
      by_contra hgone
      have hmem : name ∈ initOnlyNames m.plain := by simpa using hgone
      exact foreign (List.map_subset _ (List.filter_subset_self _) hmem)
    rw [unbindTarget, hkept, if_neg Bool.false_ne_true]
    exact bound_enter hb

/-- A round that completes leaves the written member of a name and its methods as they are, where
the name is that of no field and not that of the type variable. -/
private theorem Tracked.complete (h : Tracked name c d) (pristine : Pristine c)
    (apart : v.selfTypeVar ≠ name) (own : name ∉ fieldNames c.bind) {r : Registry}
    {m : Collection} (foreign : name ∉ m.plain.map Field.name) :
    Tracked name c (completed v r id (enter env d) m) := by
  have hentry : (readClass v (enter env d)).members.get? name = d.bind.members.get? name :=
    get?_readClass_of_not_mem v (h.not_mem_fieldNames own)
  have keyed : Keyed (enter env d) := h.keyed.bind
  obtain ⟨hnames, hbound⟩ := declarations_next (v := v) (d := d) foreign
  refine ⟨hnames.trans h.declared, keyed_completed, ?_⟩
  cases hc : c.bind.members.get? name with
  | some w =>
    cases h.standing with
    | generated f free _ _ =>
      rw [free] at hc
      cases hc
    | own entry statements =>
      have hwritten : (readClass v (enter env d)).written? name = some w := by
        rw [ClassDecl.written?, hentry, entry, hc]
        exact Option.filter_eq_some_iff.mpr ⟨rfl, by rw [pristine.bind name w hc]; rfl⟩
      obtain ⟨hget, -, hmethods⟩ := completed_of_written apart foreign keyed.read hwritten
      exact standing_own hbound (hget.trans hc.symm)
        (hmethods.trans (methodsNamed_enter.trans statements))
  | none =>
    have hfree : methodsNamed name c.body = [] := ClassDecl.methodsNamed_of_bind hc
    -- Nothing is written, and all methods of this name in the body are stale.
    have hstale : (readClass v (enter env d)).written? name = none ∧
        ∀ g ∈ methodsNamed name (enter env d).body,
          g ∈ (readClass v (enter env d)).generatedMethods := by
      rw [methodsNamed_enter, ClassDecl.written?, hentry]
      cases h.standing with
      | own entry statements =>
        rw [statements, entry, hc, hfree]
        exact ⟨rfl, by simp⟩
      | generated f _ entry statements =>
        refine ⟨by rw [entry]; rfl, fun g hg => ?_⟩
        rw [statements g hg]
        exact (ClassDecl.mem_generatedMethods_iff _ f).mpr ⟨name, hentry.trans entry⟩
    obtain ⟨f?, hget, hmethods⟩ := completed_of_not_written apart foreign hstale.1
    have hnew : ∀ g ∈ methodsNamed name (completed v r id (enter env d) m).body, f? = some g :=
      fun g hg => (hmethods g hg).resolve_right fun hold => hold.2 (hstale.2 g hold.1)
    cases f? with
    | some f =>
      exact .generated f hc (ClassDecl.get?_bind_of_some hget) fun g hg =>
        (Option.some.inj (hnew g hg)).symm
    | none =>
      refine standing_own hbound (hget.trans hc.symm) ?_
      rw [hfree, List.eq_nil_iff_forall_not_mem]
      intro g hg
      cases hnew g hg

/-- A round keeps a class tracked under a name that is no field's and not the type variable's. -/
private theorem Tracked.next (h : Tracked name c d) (pristine : Pristine c)
    (apart : v.selfTypeVar ≠ name) (own : name ∉ fieldNames c.bind)
    (merged : ∀ s, (round v id env d).result = .ok s → name ∉ s.fields.map Field.name) :
    Tracked name c (next v id env d) := by
  rcases next_cases env d with he | he | ⟨s, hs⟩
  · rw [he]
    exact h
  · rw [he]
    exact h.read own
  · obtain ⟨m, hfields, -, he⟩ := next_of_ok hs
    rw [he]
    exact h.complete pristine apart own (hfields ▸ merged s hs)

/-- After any rounds a class is tracked under a name that is no field's, neither of the class nor
of a round that completed, and not the type variable's. -/
theorem tracked_after {history : List Surroundings} (pristine : Pristine c)
    (apart : v.selfTypeVar ≠ name) (own : name ∉ fieldNames c.bind)
    (merged : ∀ s ∈ answers v id history c, name ∉ s.fields.map Field.name) :
    Tracked name c (after v id history c) := by
  have hstep : ∀ d, Tracked name c d →
      (∀ s ∈ answers v id history d, name ∉ s.fields.map Field.name) →
        Tracked name c (after v id history d) := by
    clear merged
    induction history with
    | nil => exact fun d h _ => h
    | cons env history ih =>
      intro d h merged
      rw [answers] at merged
      refine ih _ (h.next pristine apart own fun s hs => ?_) fun s hs =>
        merged s (List.mem_append_right _ hs)
      exact merged s (List.mem_append_left _ (by rw [hs]; exact List.mem_singleton_self s))
  exact hstep c (Tracked.refl pristine) merged

/-! ## Methods that are added -/

/-- What a run has generated stands under a name. -/
def Stale (d : ClassDecl) (name : String) : Prop :=
  ∃ g, d.members.get? name = some g ∧ g.generated = true

/-- A name is that of no field, neither of those that a class declares nor of those that rounds and
a last run have merged. -/
structure NoField (v : Vocabulary) (id : ClassId) (history : List Surroundings) (c : ClassDecl)
    (s : Synthesis) (name : String) : Prop where
  own : name ∉ fieldNames c.bind
  merged : ∀ s ∈ answers v id history c, name ∉ s.fields.map Field.name
  last : name ∉ s.fields.map Field.name

/-- A method added under a name wins: the member is what the class had from the start, or else the
method; it is written; nothing was generated under the name, and the body has the methods of this
name that the class would have had with the added ones from the start. -/
structure Wins (c : ClassDecl) (fs : List Method) (f : Method) (s : Synthesis) (d : ClassDecl) :
    Prop where
  entry : d.members.get? f.name =
    some ((c.bind.members.get? f.name).getD { symbol := .method f })
  written : (d.written? f.name).isSome = true
  unlisted : f.name ∉ s.generated
  statements : methodsNamed f.name d.body = methodsNamed f.name (c.withMethods fs).body

/-- What a run has generated hides the method that is added under its name. -/
theorem added_method_lost {fs : List Method}
    (completes : (round v id env (d.withMethods fs)).result = .ok s) (stale : Stale d name) :
    (next v id env (d.withMethods fs)).written? name = none := by
  obtain ⟨m, -, -, he⟩ := next_of_ok completes
  obtain ⟨g, hget, hg⟩ := stale
  have henter : (enter env (d.withMethods fs)).members.get? name = some g :=
    ClassDecl.get?_bind_of_some hget
  rw [he]
  apply written?_completed_of_none
  rw [ClassDecl.written?, henter]
  simp [Option.filter, hg]

/-- Binding makes nothing generated. -/
private theorem stale_of_bind {g : Member} (h : d.bind.members.get? name = some g)
    (generated : g.generated = true) : Stale d name := by
  rw [ClassDecl.bind_eq, Table.get?_offerAll] at h
  cases hold : d.members.get? name with
  | some g' =>
    rw [hold, Option.some_or, Option.some.injEq] at h
    exact ⟨g', hold, h ▸ generated⟩
  | none =>
    rw [hold, Option.none_or] at h
    rw [(offers_written _ _ (Table.mem_of_lookup h)).1] at generated
    cases generated

private theorem declarations_withMethods (d : ClassDecl) (fs : List Method) :
    declarations (d.withMethods fs).body = declarations d.body := by
  have hnone : (fs.map Statement.method).filterMap declaration? = [] := by
    apply List.filterMap_eq_nil_iff.mpr
    intro s hs
    obtain ⟨f, -, rfl⟩ := List.mem_map.mp hs
    rfl
  rw [ClassDecl.withMethods, declarations, List.filterMap_append, hnone, List.append_nil]
  rfl

/-- Where nothing generated is in the way, adding methods to a tracked class is adding them to the
class that it was at first. -/
private theorem Tracked.withMethods (h : Tracked name c d) (fresh : ¬ Stale d name)
    (fs : List Method) : Tracked name (c.withMethods fs) (d.withMethods fs) := by
  refine ⟨by rw [declarations_withMethods, declarations_withMethods, h.declared], h.keyed, ?_⟩
  cases h.standing with
  | own entry statements =>
    refine .own ?_ ?_
    · rw [ClassDecl.get?_bind_withMethods, ClassDecl.get?_bind_withMethods, entry]
    · rw [ClassDecl.withMethods, ClassDecl.withMethods, methodsNamed_append, methodsNamed_append,
        statements]
  | generated f free entry statements => exact absurd (stale_of_bind entry rfl) fresh

/-- Adding methods makes no name that of a field. -/
private theorem not_mem_fieldNames_withMethods {fs : List Method}
    (own : name ∉ fieldNames c.bind) : name ∉ fieldNames (c.withMethods fs).bind := by
  intro hmem
  obtain ⟨hdeclared, hfield⟩ := mem_fieldNames.mp hmem
  rw [names_bind, declarations_withMethods, ← names_bind] at hdeclared
  rw [ClassDecl.get?_bind_withMethods] at hfield
  cases hc : c.bind.members.get? name with
  | some w =>
    rw [hc, Option.some_or, ← hc] at hfield
    exact own (mem_fieldNames.mpr ⟨hdeclared, hfield⟩)
  | none =>
    rw [hc, Option.none_or] at hfield
    cases hfind : fs.find? fun f => f.name == name <;> rw [hfind] at hfield <;> cases hfield

/-- Where nothing generated hides it, the method wins. -/
private theorem wins_of_not_stale {fs : List Method} {f : Method} (pristine : Pristine c)
    (tracked : Tracked f.name c d) (fresh : ¬ Stale d f.name)
    (completes : (round v id env (d.withMethods fs)).result = .ok s)
    (added : (fs.find? fun g => g.name == f.name) = some f) (apart : v.selfTypeVar ≠ f.name)
    (own : f.name ∉ fieldNames c.bind) (last : f.name ∉ s.fields.map Field.name) :
    Wins c fs f s (next v id env (d.withMethods fs)) := by
  obtain ⟨m, hfields, hgenerated, he⟩ := next_of_ok completes
  rw [hfields] at last
  have h := tracked.withMethods fresh fs
  have hentry : (c.withMethods fs).bind.members.get? f.name =
      some ((c.bind.members.get? f.name).getD { symbol := .method f }) := by
    rw [ClassDecl.get?_bind_withMethods, added, Option.map_some, Option.or_some]
  cases h.standing with
  | generated g free _ _ =>
    rw [free] at hentry
    cases hentry
  | own entry statements =>
    have hforeign : f.name ∉ fieldNames (enter env (d.withMethods fs)) :=
      h.not_mem_fieldNames (not_mem_fieldNames_withMethods own)
    have hread : (readClass v (enter env (d.withMethods fs))).members.get? f.name =
        some ((c.bind.members.get? f.name).getD { symbol := .method f }) :=
      (get?_readClass_of_not_mem v hforeign).trans (entry.trans hentry)
    have pristine : Pristine (c.withMethods fs) := pristine
    have hwritten : (readClass v (enter env (d.withMethods fs))).written? f.name =
        some ((c.bind.members.get? f.name).getD { symbol := .method f }) := by
      rw [ClassDecl.written?, hread]
      exact Option.filter_eq_some_iff.mpr ⟨rfl, by rw [pristine.bind _ _ hentry]; rfl⟩
    have keyed : Keyed (enter env (d.withMethods fs)) := h.keyed.bind
    obtain ⟨hget, hnot, hmethods⟩ := completed_of_written apart last keyed.read hwritten
    rw [he]
    refine ⟨hget, ?_, ?_, ?_⟩
    · rw [ClassDecl.written?, hget, ← hread]
      exact Option.isSome_iff_exists.mpr ⟨_, hwritten⟩
    · rw [hgenerated]
      exact hnot
    · exact hmethods.trans (methodsNamed_enter.trans statements)

end Rounds

variable {v : Vocabulary} {id : ClassId} {c : ClassDecl}

/-- The user adds methods to a class after rounds, and a further round completes. Where something
generated stands under the name of a method, no written member of that name is left. Where nothing
does, the method wins, if the class had no generated member at first and the name is that of no
field and not that of the type variable. -/
theorem added_method_wins_unless_stale {history : List Surroundings} {last : Surroundings}
    {fs : List Method} {f : Method} {s : Synthesis}
    (completes : (round v id last ((after v id history c).withMethods fs)).result = .ok s)
    (added : (fs.find? fun g => g.name == f.name) = some f) :
    (Stale (after v id history c) f.name →
      (next v id last ((after v id history c).withMethods fs)).written? f.name = none) ∧
    (Pristine c → v.selfTypeVar ≠ f.name → NoField v id history c s f.name →
      ¬ Stale (after v id history c) f.name →
        Wins c fs f s (next v id last ((after v id history c).withMethods fs))) := by
  refine ⟨added_method_lost completes, fun pristine apart noField fresh => ?_⟩
  have tracked := tracked_after pristine apart noField.own noField.merged
  exact wins_of_not_stale pristine tracked fresh completes added apart noField.own noField.last

private def circle : ClassDecl where
  name := "Circle"
  fullname := "Circle"
  body := [.assign
    { target := { name := "radius" }, declaredTy := some (.resolved (.named "builtins.int")) }]
  mro := [1, 0]

/-- Surroundings in which a class below the root is asked for a constructor, or for none. -/
private def constructing (init : Bool) : Surroundings where
  decorators :=
    [.call (.name { name := "dataclass" }) [{ keyword := some "init", value := .bool init }]]
  registry := ⟨[{ name := "object", fullname := "object" }, { name := "", fullname := "" }]⟩

private def init : Method :=
  { name := "__init__", fullname := "Circle.__init__", parameters := [], result := .none }

theorem added_method_wins_circle : ∃ s,
    (round {} 1 (constructing true)
      ((after {} 1 [constructing false] circle).withMethods [init])).result = .ok s ∧
    Wins circle [init] init s
      (next {} 1 (constructing true)
        ((after {} 1 [constructing false] circle).withMethods [init])) := by
  obtain ⟨s, completes, last⟩ : ∃ s,
      (round {} 1 (constructing true)
        ((after {} 1 [constructing false] circle).withMethods [init])).result = .ok s ∧
      "__init__" ∉ s.fields.map Field.name := ⟨_, rfl, by decide⟩
  refine ⟨s, completes, (added_method_wins_unless_stale completes rfl).2 ?_ (by decide) ?_ ?_⟩
  · intro name m hm
    cases hm
  · exact ⟨by decide, by decide, last⟩
  · rintro ⟨g, hg, -⟩
    cases hg

/-- After a run that has generated a constructor, the one that the user adds is passed over, and
the next run generates its own again. -/
theorem added_method_hidden_circle : ∃ s m,
    (answers {} 1 [constructing true] circle).length = 1 ∧
    (round {} 1 (constructing true)
      ((after {} 1 [constructing true] circle).withMethods [init])).result = .ok s ∧
    (next {} 1 (constructing true)
      ((after {} 1 [constructing true] circle).withMethods [init])).members.get? "__init__" =
        some m ∧
    m.generated = true ∧ "__init__" ∈ s.generated := by
  exact ⟨_, _, rfl, rfl, rfl, rfl, by decide⟩

end Synthesis

end DataHolder
