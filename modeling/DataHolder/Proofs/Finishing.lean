import DataHolder.Proofs.Settling

/-!
# After a completed run

A run that completes on a fresh class leaves a class that is settled again once it is bound: the
constructor-only fields are created anew at the end of the table, the generated members stay
for the next run to clear, and nothing that was declared is lost. This takes that generation
puts nothing in the place of a declared member that stays.
-/

namespace DataHolder

namespace Synthesis

variable (v : Vocabulary)

/-! ## Binding again -/

private theorem bound_of_unbound (owner : String) {target : Reference} (ty : Binding) (value : Expr)
    (position : Position) (h : target.binding = none) :
    (Statement.assign { target, declaredTy := some ty, value, position }).bound owner =
      .assign { target := { target with binding := some (qualify owner target.name) }
                declaredTy := some ty, value, position } := by
  simp [Statement.bound, Assignment.isDeclaration, h]

/-- Unbinding a bound statement lets it offer its entry again, where its name is among those. -/
private theorem offer?_unbind_bound (owner : String) (names : List String) {s : Statement}
    (unbound : ∀ a, declaration? s = some a → a.target.binding = none) :
    (unbind names (s.bound owner)).offer? owner = s.offer? owner ∨
      (unbind names (s.bound owner)).offer? owner = none ∧
        ∀ e, s.offer? owner = some e → e.1 ∉ names := by
  cases s with
  | method f => exact .inl rfl
  | pass => exact .inl rfl
  | assign a =>
    obtain ⟨target, declaredTy, value, position⟩ := a
    cases declaredTy with
    | none => exact .inl rfl
    | some ty =>
      have hb : target.binding = none := unbound _ rfl
      rw [bound_of_unbound owner ty value position hb]
      simp only [unbind, Assignment.isDeclaration, Option.isSome_some, Bool.true_and]
      by_cases hn : target.name ∈ names
      · rw [if_pos (by simpa using hn)]
        simp [Statement.offer?, hb]
      · rw [if_neg (by simpa using hn)]
        refine .inr ⟨rfl, ?_⟩
        intro e he
        simp only [Statement.offer?, hb, Option.isSome_none, Bool.false_eq_true, if_false,
          Option.some.injEq] at he
        rw [← he]
        exact hn

/-- Binding a statement again undoes unbinding it. -/
private theorem bound_unbind_bound (owner : String) (names : List String) {s : Statement}
    (unbound : ∀ a, declaration? s = some a → a.target.binding = none) :
    (unbind names (s.bound owner)).bound owner = s.bound owner := by
  cases s with
  | method f => rfl
  | pass => rfl
  | assign a =>
    obtain ⟨target, declaredTy, value, position⟩ := a
    cases declaredTy with
    | none => rfl
    | some ty =>
      have hb : target.binding = none := unbound _ rfl
      rw [bound_of_unbound owner ty value position hb]
      simp only [unbind, Assignment.isDeclaration, Option.isSome_some, Bool.true_and]
      split
      · simp [Statement.bound, Assignment.isDeclaration]
      · simp [Statement.bound, Assignment.isDeclaration]

private theorem unbound_of_mem {body : List Statement} (h : Unbound body) {s : Statement}
    (hs : s ∈ body) : ∀ a, declaration? s = some a → a.target.binding = none := by
  intro a ha
  exact h a (List.mem_filterMap.mpr ⟨s, hs, ha⟩)

/-- The body of a fresh class after it was bound, some declarations were unbound, and methods
were added. -/
def rebound (owner : String) (names : List String) (body : List Statement) (added : List Method) :
    List Statement :=
  (body.map (Statement.bound owner)).map (unbind names) ++ added.map Statement.method

private theorem map_bound_rebound (owner : String) (names : List String) {body : List Statement}
    (h : Unbound body) (added : List Method) :
    (rebound owner names body added).map (Statement.bound owner) =
      body.map (Statement.bound owner) ++ added.map Statement.method := by
  rw [rebound, List.map_append, List.map_map, List.map_map, List.map_map]
  congr 1
  apply List.map_congr_left
  intro s hs
  exact bound_unbind_bound owner names (unbound_of_mem h hs)

private theorem offers_rebound (owner : String) (names : List String) (body : List Statement)
    (added : List Method) :
    ClassDecl.offers owner (rebound owner names body added) =
      body.filterMap (fun s => (unbind names (s.bound owner)).offer? owner) ++
        added.map fun f => (f.name, { symbol := .method f }) := by
  rw [ClassDecl.offers, rebound, List.filterMap_append, List.filterMap_map, List.filterMap_map,
    List.filterMap_map]
  congr 1
  exact congrFun List.filterMap_eq_map added

/-- A name that was unbound is offered what it was offered at first. -/
private theorem lookup_offers_rebound (owner : String) {names : List String}
    {body : List Statement} (h : Unbound body) (added : List Method) {name : String}
    {m : Member} (hname : name ∈ names)
    (hm : Table.lookup name (ClassDecl.offers owner body) = some m) :
    Table.lookup name (ClassDecl.offers owner (rebound owner names body added)) = some m := by
  rw [offers_rebound]
  induction body with
  | nil => cases hm
  | cons s body ih =>
    have hs := unbound_of_mem h (List.mem_cons_self (a := s))
    have hrest : Unbound body := by
      intro a ha
      obtain ⟨s', hs', ha'⟩ := List.mem_filterMap.mp ha
      exact unbound_of_mem h (List.mem_cons_of_mem _ hs') a ha'
    rw [ClassDecl.offers, List.filterMap_cons] at hm
    rw [List.filterMap_cons]
    rcases offer?_unbind_bound owner names hs with he | ⟨hnone, hother⟩
    · rw [he]
      cases hoffer : s.offer? owner with
      | none =>
        rw [hoffer] at hm
        exact ih hrest hm
      | some e =>
        rw [hoffer] at hm
        obtain ⟨k, a⟩ := e
        rw [Table.lookup] at hm
        rw [List.cons_append, Table.lookup]
        split at hm
        · next hk => rw [if_pos hk, hm]
        · next hk =>
          rw [if_neg hk]
          exact ih hrest hm
    · rw [hnone]
      cases hoffer : s.offer? owner with
      | none =>
        rw [hoffer] at hm
        exact ih hrest hm
      | some e =>
        rw [hoffer] at hm
        obtain ⟨k, a⟩ := e
        have hk : k ≠ name := fun hk => hother _ hoffer (hk ▸ hname)
        rw [Table.lookup, if_neg hk] at hm
        exact ih hrest hm

/-- What is offered again was offered at first, or is an added method. -/
private theorem mem_offers_rebound (owner : String) {names : List String} {body : List Statement}
    (h : Unbound body) {added : List Method} {name : String}
    (hname : name ∈ (ClassDecl.offers owner (rebound owner names body added)).map Prod.fst) :
    name ∈ (ClassDecl.offers owner body).map Prod.fst ∨ ∃ f ∈ added, f.name = name := by
  rw [offers_rebound, List.map_append, List.mem_append] at hname
  rcases hname with hname | hname
  · obtain ⟨e, he, rfl⟩ := List.mem_map.mp hname
    obtain ⟨s, hs, hoffer⟩ := List.mem_filterMap.mp he
    rcases offer?_unbind_bound owner names (unbound_of_mem h hs) with hsame | ⟨hnone, -⟩
    · exact .inl (List.mem_map_of_mem (List.mem_filterMap.mpr ⟨s, hs, hsame ▸ hoffer⟩))
    · rw [hnone] at hoffer
      cases hoffer
  · rw [List.map_map] at hname
    obtain ⟨f, hf, rfl⟩ := List.mem_map.mp hname
    exact .inr ⟨f, hf, rfl⟩

/-! ## The table before constructor-only fields are dropped -/

/-- The table of a class to which members were added, with the methods among them: it holds what
is declared, but for the names of `gone`, and else only what runs leave. -/
structure Drafted (gone : List String) (bound : ClassDecl) (added : List Method)
    (t : Table Member) : Prop where
  kept : ∀ name m₀, bound.members.get? name = some m₀ → name ∉ gone →
    ∃ m, t.get? name = some m ∧ Kept v m₀ m
  leftover : ∀ name m, t.get? name = some m → bound.members.get? name = none → Leftover v name m
  order : (t.keys.filter fun name => bound.members.contains name && !gone.contains name) =
    bound.members.keys.filter fun name => !gone.contains name
  present : ∀ name ∈ bound.members.keys, name ∈ t.keys
  methods : ∀ f ∈ added, t.get? f.name = some { symbol := .method f, generated := true }

/-- Storing under names that are present, or that a test rejects, leaves the names that pass. -/
private theorem filter_keys_insertAll {α : Type} (p : String → Bool) (t : Table α)
    (es : List (String × α)) (h : ∀ e ∈ es, p e.1 = true → e.1 ∈ t.keys) :
    (t.insertAll es).keys.filter p = t.keys.filter p := by
  have hnone : ((es.map Prod.fst).filter fun name => name ∉ t.keys).eraseDups.filter p = [] := by
    apply List.filter_eq_nil_iff.mpr
    intro name hname hp
    obtain ⟨hmem, hnot⟩ := List.mem_filter.mp (List.mem_eraseDups.mp hname)
    obtain ⟨e, he, rfl⟩ := List.mem_map.mp hmem
    exact of_decide_eq_true hnot (h e he hp)
  rw [Table.keys_insertAll, List.filter_append, hnone, List.append_nil]

/-- Dropping names that a test rejects, and offering entries after that, leaves the names that
pass. -/
private theorem filter_keys_offerAll {α : Type} (p : String → Bool) (t : Table α)
    {names : List String} (es : List (String × α)) (rejected : ∀ name ∈ names, p name = false)
    (present : ∀ name, p name = true → name ∈ t.keys) :
    ((t.filter fun name _ => !names.contains name).offerAll es).keys.filter p =
      t.keys.filter p := by
  have hkept : ∀ name, p name = true → (!names.contains name) = true := by
    intro name hp
    rw [Bool.not_eq_true', ← Bool.not_eq_true, List.contains_iff_mem]
    intro hn
    rw [rejected name hn] at hp
    cases hp
  have hold : (t.keys.filter fun name => !names.contains name).filter p = t.keys.filter p := by
    rw [List.filter_filter]
    apply List.filter_congr
    intro name _
    cases hp : p name with
    | false => rfl
    | true => exact hkept name hp
  -- Only names that were dropped come in again, and none of them passes.
  have hnone : ((es.map Prod.fst).filter fun name =>
      name ∉ t.keys.filter fun name => !names.contains name).eraseDups.filter p = [] := by
    apply List.filter_eq_nil_iff.mpr
    intro name hname hp
    have hnot := (List.mem_filter.mp (List.mem_eraseDups.mp hname)).2
    exact of_decide_eq_true hnot (List.mem_filter.mpr ⟨present name hp, hkept name hp⟩)
  rw [Table.keys_offerAll, Table.keys_filter_key, List.filter_append, hold, hnone, List.append_nil]

variable {v}

/-- Adding members to a fresh class that was read. -/
theorem drafted_of_additions {gone : List String} {bound : ClassDecl} (g : Grounded v bound)
    {as : List (String × Symbol)} {added : List Method}
    (reserved : ∀ a ∈ as, a.1 ∈ reservedNames v)
    (apart : ∀ a ∈ as, bound.members.contains a.1 = true → a.1 ∈ gone)
    (names : ∀ a ∈ as, ∀ f, a.2 = .method f → f.name = a.1)
    (methods : ∀ f ∈ added,
      ((readClass v bound).members.insertAll (Draft.entriesOf as)).get? f.name =
        some { symbol := .method f, generated := true }) :
    Drafted v gone bound added
      ((readClass v bound).members.insertAll (Draft.entriesOf as)) := by
  have hread := (Settled.refl v gone bound).read g
  have hentries := Draft.names_entriesOf as
  refine ⟨?_, ?_, ?_, ?_, methods⟩
  · intro name m₀ hm₀ hgone
    have hnot : name ∉ (Draft.entriesOf as).map Prod.fst := by
      rw [hentries]
      intro hmem
      obtain ⟨a, ha, rfl⟩ := List.mem_map.mp hmem
      exact hgone (apart a ha (by rw [Table.contains, hm₀]; rfl))
    rw [Table.get?_insertAll_of_not_mem _ hnot]
    exact hread.kept name m₀ hm₀
  · intro name m hm hnone
    by_cases hmem : name ∈ (Draft.entriesOf as).map Prod.fst
    · obtain ⟨m', hin, hget⟩ := (readClass v bound).members.exists_get?_insertAll hmem
      rw [hm, Option.some.injEq] at hget
      subst hget
      obtain ⟨a, ha, he⟩ := List.mem_map.mp hin
      cases he
      exact ⟨rfl, .inr (reserved a ha), names a ha⟩
    · rw [Table.get?_insertAll_of_not_mem _ hmem] at hm
      exact hread.leftover name m hm hnone
  · rw [filter_keys_insertAll, hread.order]
    intro e he hp
    obtain ⟨a, ha, rfl⟩ := List.mem_map.mp he
    rw [Bool.and_eq_true, Bool.not_eq_true'] at hp
    have hgone := apart a ha hp.1
    simp [hgone] at hp
  · intro name hname
    rw [Table.mem_keys_insertAll]
    refine .inl ?_
    rw [keys_readClass v]
    exact hname

namespace Drafted

variable {gone : List String} {bound : ClassDecl} {added : List Method} {t : Table Member}

/-- Marking leaves of what runs leave a variable, or a copy. -/
private theorem leftover_marked {owner : String} {ty : String → Ty} {frozen : Bool} {f : Field}
    {old : Option Member} {m : Member} (hold : ∀ m', old = some m' → Leftover v f.name m')
    (h : ClassDecl.marked? owner ty frozen f old = some m) : Leftover v f.name m := by
  have hcopy : (if frozen then some (ClassDecl.copyIn owner f (ty f.name)) else none) = some m →
      Leftover v f.name m := by
    intro hm
    split at hm
    · rw [Option.some.injEq] at hm
      subst hm
      exact ⟨rfl, .inl rfl, fun f' hf' => by cases hf'⟩
    · cases hm
  rcases old with _ | ⟨symbol, generated⟩
  · exact hcopy h
  · cases symbol with
    | var x =>
      simp only [ClassDecl.marked?, Option.some.injEq] at h
      subst h
      exact ⟨(hold _ rfl).generated, .inl rfl, fun f' hf' => by cases hf'⟩
    | method f' => exact hcopy h
    | typeVar d => exact hcopy h
    | placeholder => exact hcopy h

/-- Marking the variable of a field changes nothing that runs do not change. -/
private theorem kept_marked {owner : String} {ty : String → Ty} {frozen : Bool} {f : Field}
    {m₀ old m : Member} (hk : Kept v m₀ old) (written : m₀.generated = false)
    (field : isField (some m₀) = true)
    (h : ClassDecl.marked? owner ty frozen f (some old) = some m) : Kept v m₀ m := by
  cases hk with
  | same =>
    obtain ⟨symbol, generated⟩ := m₀
    cases symbol with
    | var x =>
      dsimp only at written
      subst written
      have shared : x.isClassVar = false := by
        cases hc : x.isClassVar with
        | false => rfl
        | true => simp [isField, visit, hc] at field
      simp only [ClassDecl.marked?, Option.some.injEq] at h
      rw [← h]
      exact .field frozen shared (.inl rfl)
    | method f' => cases field
    | typeVar d => cases field
    | placeholder => cases field
  | field mark shared unwrapped =>
    simp only [ClassDecl.marked?, Option.some.injEq] at h
    rw [← h]
    exact .field frozen shared unwrapped

/-- Marking a field of the class, or one that is inherited under a name of its own. -/
theorem mark (h : Drafted v gone bound added t) (g : Grounded v bound)
    (undeclared : ∀ f ∈ added, f.name ∈ reservedNames v ∧ bound.members.get? f.name = none)
    (owner : String) (ty : String → Ty) (frozen : Bool) {f : Field}
    (field : isField (bound.members.get? f.name) = true ∨
      bound.members.get? f.name = none ∧ f.name ∉ reservedNames v) :
    Drafted v gone bound added (ClassDecl.mark owner ty frozen t f) := by
  rw [ClassDecl.mark]
  cases hmarked : ClassDecl.marked? owner ty frozen f (t.get? f.name) with
  | none => exact h
  | some m =>
    refine ⟨?_, ?_, ?_, ?_, ?_⟩
    · intro name m₀ hm₀ hgone
      obtain ⟨m', hm', hk⟩ := h.kept name m₀ hm₀ hgone
      rw [Table.get?_insert]
      by_cases hname : f.name = name
      · subst hname
        rw [if_pos rfl]
        refine ⟨m, rfl, ?_⟩
        have hf : isField (some m₀) = true := by
          rcases field with hf | ⟨hnone, -⟩
          · rwa [hm₀] at hf
          · rw [hm₀] at hnone
            cases hnone
        rw [hm'] at hmarked
        exact kept_marked hk (g.written f.name m₀ hm₀).1 hf hmarked
      · rw [if_neg hname]
        exact ⟨m', hm', hk⟩
    · intro name m' hm' hnone
      rw [Table.get?_insert] at hm'
      by_cases hname : f.name = name
      · subst hname
        rw [if_pos rfl, Option.some.injEq] at hm'
        subst hm'
        exact leftover_marked (fun m' hm' => h.leftover f.name m' hm' hnone) hmarked
      · rw [if_neg hname] at hm'
        exact h.leftover name m' hm' hnone
    · rw [← h.order]
      refine filter_keys_insertAll _ t [(f.name, m)] ?_
      intro e he hp
      rw [List.mem_singleton.mp he] at hp ⊢
      rw [Bool.and_eq_true] at hp
      exact h.present f.name ((Table.contains_iff _ _).mp hp.1)
    · intro name hname
      exact (Table.mem_keys_insert _ _ _ _).mpr (.inr (h.present name hname))
    · intro f' hf'
      obtain ⟨hreserved, hnone⟩ := undeclared f' hf'
      have hname : f.name ≠ f'.name := by
        intro he
        rcases field with hf | ⟨-, hnot⟩
        · rw [he, hnone] at hf
          cases hf
        · exact hnot (he ▸ hreserved)
      rw [Table.get?_insert, if_neg hname]
      exact h.methods f' hf'

theorem foldl_mark (h : Drafted v gone bound added t) (g : Grounded v bound)
    (undeclared : ∀ f ∈ added, f.name ∈ reservedNames v ∧ bound.members.get? f.name = none)
    (owner : String) (ty : String → Ty) (frozen : Bool) {fields : List Field}
    (each : ∀ f ∈ fields, isField (bound.members.get? f.name) = true ∨
      bound.members.get? f.name = none ∧ f.name ∉ reservedNames v) :
    Drafted v gone bound added (fields.foldl (ClassDecl.mark owner ty frozen) t) := by
  induction fields generalizing t with
  | nil => exact h
  | cons f fields ih =>
    have hf := each f List.mem_cons_self
    exact ih (h.mark g undeclared owner ty frozen hf) fun f' hf' =>
      each f' (List.mem_cons_of_mem _ hf')

end Drafted

/-- Once the constructor-only fields are dropped and the class is bound again, it is settled. -/
theorem settled_rebound {id : ClassId} {tail : List ClassId} {c : ClassDecl}
    (fresh : Fresh v id tail c) {gone names : List String} {added : List Method}
    {t : Table Member} (h : Drafted v gone c.bind added t) (drops : gone ⊆ names)
    (dropped : ∀ name ∈ names, c.bind.members.contains name = true → name ∈ gone)
    (stays : ∀ f ∈ added, f.name ∉ names) (ds : List Expr) {records : Table Json}
    (hrecords : ∀ j, records.insert v.recordKey j = c.records.insert v.recordKey j) :
    Settled v gone c.bind
      (ClassDecl.bind { c with
        decorators := ds
        members := t.filter fun name _ => !names.contains name
        body := rebound c.fullname names c.body added
        records }) := by
  have hget : ∀ name, (t.filter fun name _ => !names.contains name).get? name =
      if name ∈ names then none else t.get? name := by
    intro name
    rw [Table.get?_filter_key]
    by_cases hn : name ∈ names <;> simp [hn]
  rw [ClassDecl.bind_eq { c with
    decorators := ds
    members := t.filter fun name _ => !names.contains name
    body := rebound c.fullname names c.body added
    records }]
  dsimp only
  rw [map_bound_rebound c.fullname names fresh.unbound added]
  refine ⟨?_, hrecords, ?_, ?_, ?_, ?_⟩
  · rw [ClassDecl.bind_eq]
  · refine ⟨added, by rw [ClassDecl.bind_eq], ?_⟩
    intro f hf
    rw [Table.get?_offerAll, hget, if_neg (stays f hf), h.methods f hf, Option.some_or]
  · intro name m₀ hm₀
    by_cases hn : name ∈ names
    · -- A name that was dropped is declared anew.
      have hlookup := lookup_offers_rebound c.fullname fresh.unbound added hn
        ((members_bind v fresh name).symm.trans hm₀)
      refine ⟨m₀, ?_, .same m₀⟩
      rw [Table.get?_offerAll, hget, if_pos hn, Option.none_or, hlookup]
    · obtain ⟨m, hm, hk⟩ := h.kept name m₀ hm₀ fun hg => hn (drops hg)
      refine ⟨m, ?_, hk⟩
      rw [Table.get?_offerAll, hget, if_neg hn, hm, Option.some_or]
  · intro name m hm hnone
    rw [Table.get?_offerAll, hget] at hm
    have hnot : name ∉ (ClassDecl.offers c.fullname c.body).map Prod.fst := by
      rw [← Table.isSome_lookup_iff, ← members_bind v fresh, hnone]
      exact Bool.false_ne_true
    cases hold : (if name ∈ names then none else t.get? name) with
    | some m' =>
      rw [hold, Option.some_or, Option.some.injEq] at hm
      subst hm
      split at hold
      · cases hold
      · exact h.leftover name m' hold hnone
    | none =>
      rw [hold, Option.none_or] at hm
      have hoffered := (Table.isSome_lookup_iff _ _).mp (Option.isSome_iff_exists.mpr ⟨m, hm⟩)
      rcases mem_offers_rebound c.fullname fresh.unbound hoffered with hmem | ⟨f, hf, rfl⟩
      · exact absurd hmem hnot
      · rw [if_neg (stays f hf), h.methods f hf] at hold
        cases hold
  · rw [filter_keys_offerAll, h.order]
    · intro name hn
      cases hc : c.bind.members.contains name with
      | false => rfl
      | true =>
        have hg := dropped name hn hc
        simp [hg]
    · intro name hp
      rw [Bool.and_eq_true, Table.contains_iff] at hp
      exact h.present name hp.1

/-! ## Between two runs -/

/-- A settled class is bound already. -/
theorem Settled.bind_eq_self {id : ClassId} {tail : List ClassId} {c d : ClassDecl}
    (fresh : Fresh v id tail c) {gone : List String} (h : Settled v gone c.bind d) :
    d.bind = d := by
  have g := grounded_bind v fresh
  obtain ⟨added, hbody, hadded⟩ := h.body
  have hname : d.fullname = c.fullname := by rw [h.shape, ClassDecl.bind_eq]
  have hstatements : c.bind.body = c.body.map (Statement.bound c.fullname) := rfl
  have hbound : d.body.map (Statement.bound d.fullname) = d.body := by
    rw [hbody, hname, hstatements, List.map_append, List.map_map, List.map_map]
    congr 1
    apply List.map_congr_left
    exact fun s _ => bound_bound c.fullname s
  have hpresent : ∀ name ∈ (ClassDecl.offers d.fullname d.body).map Prod.fst,
      name ∈ d.members.keys := by
    intro name hname'
    rw [Table.mem_keys_iff]
    obtain ⟨e, he, rfl⟩ := List.mem_map.mp hname'
    obtain ⟨s, hs, hoffer⟩ := List.mem_filterMap.mp he
    rw [hbody, List.mem_append] at hs
    rcases hs with hs | hs
    · have hs' := hs
      rw [hstatements] at hs'
      obtain ⟨s₀, -, rfl⟩ := List.mem_map.mp hs'
      rw [hname, offer?_bound] at hoffer
      cases s₀ with
      | method f =>
        cases hoffer
        obtain ⟨m₀, hm₀⟩ := Option.isSome_iff_exists.mp (g.methods f hs)
        obtain ⟨m, hm, -⟩ := h.kept f.name m₀ hm₀
        rw [hm]
        rfl
      | assign a => cases hoffer
      | pass => cases hoffer
    · obtain ⟨f, hf, rfl⟩ := List.mem_map.mp hs
      cases hoffer
      rw [hadded f hf]
      rfl
  rw [ClassDecl.bind_eq, Table.offerAll_of_present _ _ hpresent, hbound]

variable (v)

/-- The names of the constructor-only fields that a class declares itself. -/
def goneNames (c : ClassDecl) : List String := initOnlyNames (ownFields v c)

/-- Fields under which those of the class are have all its constructor-only names. -/
theorem goneNames_subset {c : ClassDecl} {fields : List Field} (h : ownFields v c ⊆ fields) :
    goneNames v c ⊆ initOnlyNames fields := by
  intro name hname
  obtain ⟨f, hf, rfl⟩ := List.mem_map.mp hname
  obtain ⟨hmem, hinit⟩ := List.mem_filter.mp hf
  exact List.mem_map_of_mem (List.mem_filter.mpr ⟨h hmem, hinit⟩)

/-- The type variable replaces no declaration that stays: it has the name of a constructor-only
field, or of nothing that is declared. -/
def TypeVarApart (c : ClassDecl) : Prop :=
  (v.selfTypeVar ∈ goneNames v c ∧ v.selfTypeVar ∉ orderingMethods) ∨
    (v.selfTypeVar ∉ c.bind.members.keys ∧ v.selfTypeVar ≠ "__init__")

variable {v}

section Completing

variable {id : ClassId} {tail : List ClassId} {c : ClassDecl} (fresh : Fresh v id tail c)

include fresh

theorem ownFields_eq : ownFields v c = boundFields v c.bind := by
  have g := grounded_bind v fresh
  rw [ownFields, ((Settled.refl v [] c.bind).readBody_eq g).1]

/-- The fields of a fresh class are among what it declares. -/
theorem isField_of_mem_ownFields {f : Field} (hf : f ∈ ownFields v c) :
    isField (c.bind.members.get? f.name) = true := by
  rw [ownFields_eq fresh] at hf
  exact Grounded.isField_of_mem (List.mem_map_of_mem hf)

theorem mem_keys_of_mem_ownFields {f : Field} (hf : f ∈ ownFields v c) :
    f.name ∈ c.bind.members.keys := by
  rw [Table.mem_keys_iff]
  exact isSome_of_isField (isField_of_mem_ownFields fresh hf)

theorem mem_keys_of_mem_goneNames {name : String} (hname : name ∈ goneNames v c) :
    name ∈ c.bind.members.keys := by
  obtain ⟨f, hf, rfl⟩ := List.mem_map.mp hname
  exact mem_keys_of_mem_ownFields fresh (List.mem_filter.mp hf).1

/-- The members of a fresh class that was read are those that it declares, all of them written. -/
private theorem written?_readClass (name : String) :
    (readClass v c.bind).written? name = (readClass v c.bind).members.get? name := by
  have g := grounded_bind v fresh
  have hresumes := (Settled.refl v [] c.bind).resumes g rfl
  rw [ClassDecl.written?]
  cases h : (readClass v c.bind).members.get? name with
  | none => rfl
  | some m => simp [Option.filter, (hresumes.written name m h).1]

/-- What is declared on a fresh class is a written member once it was read. -/
private theorem undeclared_of_written? {name : String}
    (h : (readClass v c.bind).written? name = none) : name ∉ c.bind.members.keys := by
  rw [written?_readClass fresh, Table.get?_eq_none_iff, keys_readClass v] at h
  exact h

section Additions

variable (clear : TypeVarApart v c) (flags : Flags) (parameters : List Parameter)
  (hasFields : Bool)

include clear

private theorem additions_apart {a : String × Symbol}
    (h : a ∈ additions v flags parameters hasFields (readClass v c.bind))
    (declared : a.1 ∈ c.bind.members.keys) : a.1 ∈ goneNames v c := by
  rcases written?_of_mem_additions v flags parameters hasFields _ (List.mem_map_of_mem h) with
    hnone | ⟨hname, -⟩
  · exact absurd declared (undeclared_of_written? fresh hnone)
  · rw [← hname] at declared ⊢
    exact clear.elim And.left fun hnot => absurd declared hnot.1

private theorem methodsIn_additions {f : Method}
    (h : f ∈ Draft.methodsIn (additions v flags parameters hasFields (readClass v c.bind))) :
    (f.name, Symbol.method f) ∈ additions v flags parameters hasFields (readClass v c.bind) ∧
      f.name ∈ reservedNames v ∧ f.name ∉ c.bind.members.keys := by
  have ha := mem_additions_of_methodsIn v flags parameters hasFields _ h
  obtain ⟨-, -, hwritten⟩ := of_method_mem_additions v flags parameters hasFields _ ha
  refine ⟨ha, mem_reservedNames_of_added v ha, ?_⟩
  rcases hwritten with hnone | ⟨hname, hordering⟩
  · exact undeclared_of_written? fresh hnone
  · -- The name is that of the type variable, and an ordering method.
    rw [← hname] at hordering ⊢
    exact clear.elim (fun hin => absurd hordering hin.2) And.left

private theorem drafted_additions :
    Drafted v (goneNames v c) c.bind
      (Draft.methodsIn (additions v flags parameters hasFields (readClass v c.bind)))
      ((readClass v c.bind).members.insertAll
        (Draft.entriesOf (additions v flags parameters hasFields (readClass v c.bind)))) := by
  have g := grounded_bind v fresh
  apply drafted_of_additions g
  · exact fun a ha => mem_reservedNames_of_added v ha
  · exact fun a ha hdeclared => additions_apart fresh clear flags parameters hasFields ha
      ((Table.contains_iff _ _).mp hdeclared)
  · intro a ha f hf
    obtain ⟨name, symbol⟩ := a
    dsimp only at hf
    subst hf
    exact (of_method_mem_additions v flags parameters hasFields _ ha).1
  · intro f hf
    obtain ⟨ha, -, -⟩ := methodsIn_additions fresh clear flags parameters hasFields hf
    refine get?_insertAll_additions v flags parameters hasFields _ _ ?_ ha
    -- A field that has the name of the constructor keeps it from being generated.
    intro hinit
    have hgone : "__init__" ∈ goneNames v c := by
      rw [← hinit]
      exact clear.elim And.left fun hnot => absurd hinit hnot.2
    have hcontains : (readClass v c.bind).members.contains "__init__" = true := by
      rw [Table.contains_iff, keys_readClass v]
      exact mem_keys_of_mem_goneNames fresh hgone
    rw [addedInit, hcontains, Bool.not_true, Bool.and_false, Bool.false_and, if_neg]
    exact Bool.false_ne_true

end Additions

/-- Completing a run on a fresh class settles it, where the fields are its own and such as do
not have the name of another member. -/
theorem settled_finished (clear : TypeVarApart v c) (r : Registry) (m : Collection)
    (own : ∀ f ∈ ownFields v c, f ∈ m.plain)
    (others : ∀ f ∈ m.plain, f ∈ ownFields v c ∨
      f.name ∉ c.bind.members.keys ∧ f.name ∉ reservedNames v) :
    Settled v (goneNames v c) c.bind
      (finished v r id m.plain (extended v r id m (readClass v c.bind))).bind := by
  have g := grounded_bind v fresh
  let flags := Flags.ofDecorator (v.decorator? (readClass v c.bind))
  let parameters := initParameters (r.set id (readClass v c.bind)) id m.fields
  let hasFields := !m.plain.isEmpty
  let added := Draft.methodsIn (additions v flags parameters hasFields (readClass v c.bind))
  have hadded : ∀ f ∈ added, f.name ∈ reservedNames v ∧ f.name ∉ c.bind.members.keys :=
    fun f hf => (methodsIn_additions fresh clear flags parameters hasFields hf).2
  have heach : ∀ f ∈ m.plain.filter fun f => !f.initOnly,
      isField (c.bind.members.get? f.name) = true ∨
        c.bind.members.get? f.name = none ∧ f.name ∉ reservedNames v := by
    intro f hf
    rcases others f (List.mem_filter.mp hf).1 with hown | ⟨hnot, hreserved⟩
    · exact .inl (isField_of_mem_ownFields fresh hown)
    · exact .inr ⟨(Table.get?_eq_none_iff _ _).mpr hnot, hreserved⟩
  have hdrafted := (drafted_additions fresh clear flags parameters hasFields).foldl_mark g
    (fun f hf => (hadded f hf).imp_right (Table.get?_eq_none_iff _ _).mpr) c.fullname
    (fun name => (fieldTy? (r.set id (extended v r id m (readClass v c.bind))) id name).getD .any)
    flags.frozen heach
  have hnames : ∀ name ∈ initOnlyNames m.plain, name ∈ goneNames v c ∨
      name ∉ c.bind.members.keys ∧ name ∉ reservedNames v := by
    intro name hname
    obtain ⟨f, hf, rfl⟩ := List.mem_map.mp hname
    obtain ⟨hmem, hinit⟩ := List.mem_filter.mp hf
    exact (others f hmem).imp_left fun hown =>
      List.mem_map_of_mem (List.mem_filter.mpr ⟨hown, hinit⟩)
  have hdropped : ∀ name ∈ initOnlyNames m.plain, c.bind.members.contains name = true →
      name ∈ goneNames v c := fun name hname hin =>
    (hnames name hname).resolve_right fun hnot => hnot.1 ((Table.contains_iff _ _).mp hin)
  have hstays : ∀ f ∈ added, f.name ∉ initOnlyNames m.plain := by
    intro f hf hname
    rcases hnames f.name hname with hin | ⟨-, hnot⟩
    · exact (hadded f hf).2 (mem_keys_of_mem_goneNames fresh hin)
    · exact hnot (hadded f hf).1
  have hrebound := settled_rebound fresh hdrafted (goneNames_subset v own) hdropped hstays
    c.decorators
    (fun j => Table.insert_insert c.records v.recordKey
      (Record.ofFields m.plain flags.frozen).toJson j)
  have hbody : (c.bind.body ++ added.map Statement.method).map (unbind (initOnlyNames m.plain)) =
      rebound c.fullname (initOnlyNames m.plain) c.body added := by
    rw [rebound, List.map_append, List.map_map]
    rfl
  rw [← hbody] at hrebound
  exact hrebound

end Completing

end Synthesis

end DataHolder
