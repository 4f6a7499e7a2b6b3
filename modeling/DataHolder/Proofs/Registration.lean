import DataHolder.Proofs.Binding

/-!
# What binding registers

Binding walks over the body once and changes table and statements together. Its effect can be said
without the walk: the table keeps its entries and gets, behind them, one for each declared name that
it lacks, from the first statement that declares it; an annotated target that is not bound gets its
full name. Afterwards only methods declare anything, under names that the table has, and so a second
binding finds nothing to do.
-/

namespace DataHolder

namespace Table

variable {α : Type}

/-- Storing under a name that is absent appends the entry. -/
theorem entries_insert_of_not_mem (t : Table α) {key : String} (value : α) (h : key ∉ t.keys) :
    (t.insert key value).entries = t.entries ++ [(key, value)] := by
  have hput : ∀ es : List (String × α), key ∉ es.map Prod.fst →
      put key value es = es ++ [(key, value)] := by
    intro es hes
    induction es with
    | nil => rfl
    | cons e es ih =>
      rw [List.map_cons, List.mem_cons, not_or] at hes
      rw [put, if_neg (Ne.symm hes.1), ih hes.2]
      rfl
  exact hput t.entries h

/-- Offers leave the entries that are there in their places. -/
private theorem entries_offerAll_prefix (t : Table α) (es : List (String × α)) :
    ∃ added, (t.offerAll es).entries = t.entries ++ added := by
  induction es generalizing t with
  | nil => exact ⟨[], by simp [offerAll]⟩
  | cons e es ih =>
    rw [offerAll_cons]
    split
    · exact ih t
    · next hc =>
      rw [contains_iff] at hc
      obtain ⟨added, hadded⟩ := ih (t.insert e.1 e.2)
      rw [entries_insert_of_not_mem t e.2 hc, List.append_assoc] at hadded
      exact ⟨[e] ++ added, hadded⟩

/-- Offers append an entry for every name that is offered and absent: the first that is offered. -/
theorem entries_offerAll (t : Table α) (es : List (String × α)) :
    ∃ added, (t.offerAll es).entries = t.entries ++ added ∧
      added.map Prod.fst = ((es.map Prod.fst).filter fun key => key ∉ t.keys).eraseDups ∧
      ∀ e ∈ added, lookup e.1 es = some e.2 := by
  obtain ⟨added, hentries⟩ := entries_offerAll_prefix t es
  have hnames : added.map Prod.fst =
      ((es.map Prod.fst).filter fun key => key ∉ t.keys).eraseDups := by
    have hkeys := keys_offerAll t es
    rw [keys, hentries, List.map_append] at hkeys
    exact List.append_cancel_left hkeys
  refine ⟨added, hentries, hnames, ?_⟩
  intro e he
  have hget : (t.offerAll es).get? e.1 = some e.2 := by
    rw [← mem_entries_iff, hentries]
    exact List.mem_append_right _ he
  have habsent : e.1 ∉ t.keys := by
    have hmem := List.mem_map_of_mem (f := Prod.fst) he
    rw [hnames, List.mem_eraseDups] at hmem
    simpa using (List.mem_filter.mp hmem).2
  rwa [get?_offerAll, (get?_eq_none_iff t e.1).mpr habsent, Option.none_or] at hget

end Table

namespace Statement

/-! ## What a statement declares -/

/-- The name that a statement declares: that of an annotated target which is not bound, or that of
a method. -/
def declaredName? : Statement → Option String
  | .assign a => if a.declaredTy.isSome && a.target.binding.isNone then some a.target.name else none
  | .method m => some m.name
  | .pass => none

/-- What a statement declares under a name in a class of this full name. An annotation is the type
of the variable, but for the wrapper of a shared attribute, which is taken off and noted. -/
inductive Declares (owner : String) : Statement → String → Member → Prop where
  | variable {target : Reference} {ty : Binding} {value : Expr} {position : Position}
      (unbound : target.binding = none)
      (plain : ∀ args, ty ≠ .resolved (.inst classVarWrapper args)) :
      Declares owner (.assign { target, declaredTy := some ty, value, position }) target.name
        { symbol := .var
            { name := target.name, fullname := owner ++ "." ++ target.name, ty, position }
          generated := false }
  | shared {target : Reference} {args : List Ty} {value : Expr} {position : Position}
      (unbound : target.binding = none) :
      Declares owner
        (.assign
          { target, declaredTy := some (.resolved (.inst classVarWrapper args)), value, position })
        target.name
        { symbol := .var
            { name := target.name, fullname := owner ++ "." ++ target.name
              ty := .resolved (args.headD .any), isClassVar := true, position }
          generated := false }
  | method (m : Method) :
      Declares owner (.method m) m.name { symbol := .method m, generated := false }

/-- What binding makes of a statement: an annotated target that is not bound gets its full name,
and all else stays. -/
inductive Binds (owner : String) : Statement → Statement → Prop where
  | target (a : Assignment) (declares : a.declaredTy.isSome = true)
      (unbound : a.target.binding = none) :
      Binds owner (.assign a)
        (.assign
          { a with target := { a.target with binding := some (owner ++ "." ++ a.target.name) } })
  | other (s : Statement)
      (settled : ∀ a, s = .assign a → a.declaredTy.isSome = true → a.target.binding.isSome = true) :
      Binds owner s s

/-- Statements offer entries under the names that they declare. -/
theorem map_fst_offer? (owner : String) (s : Statement) :
    (s.offer? owner).map Prod.fst = s.declaredName? := by
  cases s with
  | method m => rfl
  | pass => rfl
  | assign a =>
    obtain ⟨target, declaredTy, value, position⟩ := a
    cases declaredTy with
    | none => rfl
    | some ty => cases hb : target.binding <;> simp [offer?, declaredName?, hb]

/-- The entry that a statement offers is what it declares. -/
theorem declares_of_offer? {owner : String} {s : Statement} {name : String} {m : Member}
    (h : s.offer? owner = some (name, m)) : s.Declares owner name m := by
  cases s with
  | method f =>
    cases h
    exact .method f
  | pass => cases h
  | assign a =>
    obtain ⟨target, declaredTy, value, position⟩ := a
    cases declaredTy with
    | none => cases h
    | some ty =>
      cases hb : target.binding with
      | some b => simp [offer?, hb] at h
      | none =>
        simp only [offer?, hb, Option.isSome_none, Bool.false_eq_true, if_false, Option.some.injEq,
          Prod.mk.injEq] at h
        obtain ⟨rfl, rfl⟩ := h
        by_cases hshared : ∃ args, ty = .resolved (.inst classVarWrapper args)
        · obtain ⟨args, rfl⟩ := hshared
          exact .shared hb
        · have hplain : Variable.declared owner target.name ty position =
              { name := target.name, fullname := qualify owner target.name, ty, position } := by
            cases ty with
            | pending => rfl
            | resolved t =>
              rw [Variable.declared]
              refine if_neg fun hinst => hshared ?_
              cases t <;> simp_all [Ty.isInst, Ty.fullname?]
          rw [hplain]
          exact .variable hb fun args he => hshared ⟨args, he⟩

theorem binds_bound (owner : String) (s : Statement) : s.Binds owner (s.bound owner) := by
  cases s with
  | method m => exact .other _ fun a h => by cases h
  | pass => exact .other _ fun a h => by cases h
  | assign a =>
    rw [bound]
    split
    · next h =>
      obtain ⟨declares, unbound⟩ := Bool.and_eq_true_iff.mp h
      exact .target a declares (Option.isNone_iff_eq_none.mp unbound)
    · next h =>
      refine .other _ fun b hb declares => ?_
      cases hb
      rw [Assignment.isDeclaration, declares, Bool.true_and] at h
      cases hbinding : a.target.binding with
      | none => simp [hbinding] at h
      | some b => rfl

end Statement

namespace ClassDecl

/-- The first offer under a name comes from the first statement that declares the name. -/
private theorem exists_first_of_lookup {owner : String} {body : List Statement} {name : String}
    {m : Member} (h : Table.lookup name (offers owner body) = some m) :
    ∃ before s after, body = before ++ s :: after ∧
      (∀ s' ∈ before, s'.declaredName? ≠ some name) ∧ s.Declares owner name m := by
  induction body with
  | nil => cases h
  | cons s body ih =>
    -- A statement that does not declare the name is passed over.
    have hpass (hs : s.declaredName? ≠ some name)
        (hrest : Table.lookup name (offers owner body) = some m) :
        ∃ before s' after, s :: body = before ++ s' :: after ∧
          (∀ s' ∈ before, s'.declaredName? ≠ some name) ∧ s'.Declares owner name m := by
      obtain ⟨before, s', after, hbody, hbefore, hdeclares⟩ := ih hrest
      refine ⟨s :: before, s', after, by rw [hbody, List.cons_append], ?_, hdeclares⟩
      intro other hother
      rcases List.mem_cons.mp hother with rfl | hother
      · exact hs
      · exact hbefore other hother
    have hname := s.map_fst_offer? owner
    rw [offers, List.filterMap_cons] at h
    cases hoffer : s.offer? owner with
    | none =>
      rw [hoffer] at h hname
      exact hpass (by simp [← hname]) h
    | some e =>
      rw [hoffer] at h hname
      rw [Table.lookup] at h
      split at h
      · next he =>
        cases h
        subst he
        exact ⟨[], s, body, rfl, by simp, Statement.declares_of_offer? hoffer⟩
      · next he => exact hpass (hname ▸ fun hn => he (Option.some.inj hn)) h

/-- The names under which a body offers entries are those that it declares. -/
private theorem names_offers (owner : String) (body : List Statement) :
    (offers owner body).map Prod.fst = body.filterMap Statement.declaredName? := by
  rw [offers, List.map_filterMap]
  exact List.filterMap_congr fun s _ => s.map_fst_offer? owner

/-- A bound class has nothing left to bind. -/
private theorem bind_bind (c : ClassDecl) : c.bind.bind = c.bind := by
  have hbody : (c.body.map (Statement.bound c.fullname)).map (Statement.bound c.fullname) =
      c.body.map (Statement.bound c.fullname) := by
    rw [List.map_map]
    exact List.map_congr_left fun s _ => Synthesis.bound_bound c.fullname s
  have hmembers : (c.members.offerAll (offers c.fullname c.body)).offerAll
        (offers c.fullname (c.body.map (Statement.bound c.fullname))) =
      c.members.offerAll (offers c.fullname c.body) := by
    apply Table.offerAll_of_present
    intro key hkey
    obtain ⟨e, he, rfl⟩ := List.mem_map.mp hkey
    obtain ⟨s', hs', hoffer⟩ := List.mem_filterMap.mp he
    obtain ⟨s, hs, rfl⟩ := List.mem_map.mp hs'
    -- Only methods are offered again, and they were offered before.
    have hbefore : s.offer? c.fullname = some e := by
      rw [Synthesis.offer?_bound] at hoffer
      cases s with
      | method m => exact hoffer
      | assign a => cases hoffer
      | pass => cases hoffer
    have hmem : e.1 ∈ (offers c.fullname c.body).map Prod.fst :=
      List.mem_map_of_mem (List.mem_filterMap.mpr ⟨s, hs, hbefore⟩)
    rw [Table.keys_offerAll, List.mem_append, List.mem_eraseDups, List.mem_filter]
    by_cases hkeys : e.1 ∈ c.members.keys
    · exact .inl hkeys
    · exact .inr ⟨hmem, by simpa using hkeys⟩
  rw [bind_eq c, bind_eq]
  dsimp only
  rw [hbody, hmembers]

/-- Binding keeps the entries of the table in their places and appends, in the order in which the
body first declares them, the names that the table lacks, each with what the first statement to
declare it declares. It leaves every annotated target bound, changes nothing else of the body or of
the class, and does nothing when it is repeated. -/
theorem bind_conservative (c : ClassDecl) :
    (∃ added, c.bind.members.entries = c.members.entries ++ added ∧
      added.map Prod.fst = ((c.body.filterMap Statement.declaredName?).filter
        fun name => name ∉ c.members.keys).eraseDups ∧
      ∀ name m, (name, m) ∈ added → ∃ before s after, c.body = before ++ s :: after ∧
        (∀ s' ∈ before, s'.declaredName? ≠ some name) ∧ s.Declares c.fullname name m) ∧
    List.Forall₂ (Statement.Binds c.fullname) c.body c.bind.body ∧
    (∀ a, .assign a ∈ c.bind.body → a.declaredTy.isSome = true → a.target.binding.isSome = true) ∧
    c.bind = { c with members := c.bind.members, body := c.bind.body } ∧
    c.bind.bind = c.bind := by
  refine ⟨?_, ?_, ?_, rfl, bind_bind c⟩
  · obtain ⟨added, hentries, hnames, hfirst⟩ :=
      c.members.entries_offerAll (offers c.fullname c.body)
    rw [names_offers] at hnames
    refine ⟨added, by rw [bind_eq, hentries], hnames, fun name m h => ?_⟩
    exact exists_first_of_lookup (hfirst (name, m) h)
  · have hbody : c.bind.body = c.body.map (Statement.bound c.fullname) := rfl
    rw [hbody, List.forall₂_map_right_iff, List.forall₂_same]
    exact fun s _ => s.binds_bound c.fullname
  · intro a ha declares
    obtain ⟨s, -, hs⟩ := List.mem_map.mp ha
    have hbinds := hs ▸ s.binds_bound c.fullname
    generalize hb : Statement.assign a = b at hbinds
    cases hbinds with
    | target a' _ _ =>
      cases hb
      rfl
    | other s' settled => exact settled a hb.symm declares

/-- A name that a method and an annotation share goes to the first of them. -/
example :
    let f : Method := { name := "x", fullname := "C.x", parameters := [], result := .none }
    let c : ClassDecl :=
      { name := "C", fullname := "C"
        body := [.method f, .assign { target := { name := "x" }, declaredTy := some .pending },
          .assign { target := { name := "y" }, declaredTy := some .pending }] }
    c.bind.members.keys = ["x", "y"] ∧ c.bind.method? "x" = some f := by
  decide

end ClassDecl

end DataHolder
