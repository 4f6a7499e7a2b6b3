import DataHolder.Proofs.Requests

/-!
# What a run lists as generated

A run lists what generation adds while it adds it, and the list is not looked at again. The table
goes on changing: freezing puts copies under the names of fields that the class does not have
itself, and the constructor-only fields take away whatever has their names. Nor does a place in the
list tell a place in the table, where a member that is stored over another one stays in front.
`generated_listed_iff` says what is generated in the end, and when the list is the same.
-/

namespace DataHolder

/-! ## Names in order -/

/-- Of two names in a list without repetitions, the one that is in a prefix comes first. -/
private theorem not_sublist_of_mem {names others : List String} {a b : String}
    (nodup : (names ++ others).Nodup) (ha : a ∉ names) (hb : b ∈ names) :
    ¬ [a, b].Sublist (names ++ others) := by
  intro h
  obtain ⟨l, l', hsplit, hl, hl'⟩ := List.sublist_append_iff.mp h
  cases l with
  | nil =>
    rw [List.nil_append] at hsplit
    have hmem : b ∈ others := hl'.subset (by simp [← hsplit])
    exact (List.nodup_append.mp nodup).2.2 b hb b hmem rfl
  | cons c l =>
    obtain rfl : a = c := (List.cons.inj hsplit).1
    exact ha (hl.subset List.mem_cons_self)

/-- Names that are appended where they are new stand in their own order, if at most the first of them
was there before. -/
private theorem sublist_append_filter {names new : List String}
    (first : ∀ name ∈ new.tail, name ∉ names) :
    new.Sublist (names ++ new.filter fun name => name ∉ names) := by
  cases new with
  | nil => exact List.nil_sublist _
  | cons a rest =>
    have hrest : rest.filter (fun name => name ∉ names) = rest :=
      List.filter_eq_self.mpr fun name hname => by simpa using first name hname
    by_cases ha : a ∈ names
    · rw [List.filter_cons_of_neg (by simpa using ha), hrest]
      exact (List.singleton_sublist.mpr ha).append (List.Sublist.refl rest)
    · rw [List.filter_cons_of_pos (by simpa using ha), hrest]
      exact List.sublist_append_right _ _

/-- A list that stands in order in a longer one without repetitions is what its members select. -/
private theorem eq_filter_mem {names all : List String} (nodup : all.Nodup)
    (h : names.Sublist all) : names = all.filter fun name => name ∈ names := by
  have hsublist : names.Sublist (all.filter fun name => name ∈ names) := by
    have hself : names.filter (fun name => name ∈ names) = names :=
      List.filter_eq_self.mpr fun name hname => decide_eq_true hname
    have hfilter := h.filter fun name => decide (name ∈ names)
    rwa [hself] at hfilter
  have hperm : names.Perm (all.filter fun name => name ∈ names) := by
    rw [List.perm_ext_iff_of_nodup (nodup.sublist h) (nodup.filter _)]
    intro name
    rw [List.mem_filter, decide_eq_true_iff]
    exact (and_iff_right_of_imp fun hname => h.subset hname).symm
  exact hsublist.eq_of_length hperm.length_eq

namespace ClassDecl

/-! ## Generated members of a table -/

/-- The names of the generated members of a class, in table order. -/
def generatedNames (c : ClassDecl) : List String :=
  (c.members.entries.filter fun e => e.2.generated).map Prod.fst

theorem generatedNames_eq (c : ClassDecl) :
    c.generatedNames = c.members.keys.filter fun name =>
      (c.members.get? name).any Member.generated :=
  Table.keys_filter c.members fun _ m => m.generated

theorem nodup_generatedNames (c : ClassDecl) : c.generatedNames.Nodup := by
  rw [generatedNames_eq]
  exact c.members.nodup_keys.filter _

theorem mem_generatedNames {c : ClassDecl} {name : String} :
    name ∈ c.generatedNames ↔ (c.members.get? name).any Member.generated = true := by
  rw [generatedNames_eq, List.mem_filter, and_iff_right_iff_imp, Table.mem_keys_iff]
  intro h
  cases hm : c.members.get? name with
  | none =>
    rw [hm] at h
    cases h
  | some m => rfl

/-- Whether a class has written a variable under a name. -/
def writesVar (c : ClassDecl) (name : String) : Bool :=
  (c.written? name).any fun m => m.symbol.isVar

/-! ## Marking -/

/-- What marking leaves is generated where it was before, and where a frozen class had no variable:
there the copy is. -/
theorem any_generated_foldl_afterMark (owner : String) (ty : String → Ty) (frozen : Bool)
    (fields : List Field) (old : Option Member) :
    (fields.foldl (afterMark owner ty frozen) old).any Member.generated =
      (old.any Member.generated ||
        (frozen && !fields.isEmpty && !old.any fun m => m.symbol.isVar)) := by
  induction fields generalizing old with
  | nil => simp
  | cons f fields ih =>
    have hone : (afterMark owner ty frozen old f).any Member.generated =
          (old.any Member.generated || (frozen && !old.any fun m => m.symbol.isVar)) ∧
        ((afterMark owner ty frozen old f).any fun m => m.symbol.isVar) =
          (frozen || old.any fun m => m.symbol.isVar) := by
      rcases old with _ | ⟨symbol, generated⟩
      · cases frozen <;> exact ⟨rfl, rfl⟩
      · cases symbol <;> cases frozen <;> cases generated <;> exact ⟨rfl, rfl⟩
    rw [List.foldl_cons, ih, hone.1, hone.2]
    cases frozen <;> simp

/-- Marking leaves every name in its place, and copies come behind. -/
theorem keys_foldl_mark (owner : String) (ty : String → Ty) (frozen : Bool) (t : Table Member)
    (fields : List Field) :
    ∃ copied, (fields.foldl (mark owner ty frozen) t).keys = t.keys ++ copied := by
  induction fields generalizing t with
  | nil => exact ⟨[], (List.append_nil _).symm⟩
  | cons f fields ih =>
    obtain ⟨copied, hcopied⟩ := ih (mark owner ty frozen t f)
    rw [List.foldl_cons, hcopied, mark]
    split
    · rw [Table.keys_insert]
      split
      · exact ⟨copied, rfl⟩
      · exact ⟨[f.name] ++ copied, List.append_assoc _ _ _⟩
    · exact ⟨copied, rfl⟩

end ClassDecl

namespace Synthesis

variable {v : Vocabulary} {r : Registry} {id : ClassId} {c : ClassDecl} {m : Collection}

/-! ## What a completed run leaves generated -/

/-- Reading leaves written variables written variables. -/
theorem writesVar_readClass (name : String) :
    (readClass v c).writesVar name = c.writesVar name := by
  rw [ClassDecl.writesVar, ClassDecl.written?, ClassDecl.writesVar, ClassDecl.written?, readClass,
    readBody_eq_scan]
  rcases get?_scan v (declarations c.body) c.members name with h | ⟨x, ty, generated, hx, -, h⟩
  · rw [h]
  · rw [h, hx]
    cases generated <;> rfl

/-- Before the fields are marked, the generated members are those that were added. -/
theorem any_generated_draft (name : String) :
    ((draft v r id c m).get? name).any Member.generated =
      decide (name ∈ (added v r id c m).map Prod.fst) := by
  by_cases h : name ∈ (added v r id c m).map Prod.fst
  · obtain ⟨symbol, -, hdraft⟩ := get?_draft_of_mem h
    rw [hdraft, decide_eq_true h]
    rfl
  · rw [get?_draft_of_not_mem h, decide_eq_false h, ClassDecl.written?]
    rcases (readClass v c).members.get? name with _ | ⟨symbol, generated⟩
    · rfl
    · cases generated <;> rfl

/-- The variables are the written ones that nothing was added over. -/
theorem any_isVar_draft (name : String) :
    (((draft v r id c m).get? name).any fun w => w.symbol.isVar) =
      (!decide (name ∈ (added v r id c m).map Prod.fst) && c.writesVar name) := by
  by_cases h : name ∈ (added v r id c m).map Prod.fst
  · obtain ⟨symbol, hmem, hdraft⟩ := get?_draft_of_mem h
    rw [hdraft, decide_eq_true h]
    rcases of_mem_additions _ _ _ _ _ hmem with ⟨-, method, rfl⟩ | ⟨-, decl, rfl⟩ <;> rfl
  · rw [get?_draft_of_not_mem h, decide_eq_false h, ← writesVar_readClass (v := v)]
    rfl

/-- After the run, what was added is generated and so is the copy of a field that the class does
not write, unless a constructor-only field has the name. -/
theorem mem_generatedNames_completed {name : String} :
    name ∈ (completed v r id c m).generatedNames ↔
      name ∉ initOnlyNames m.plain ∧
        (name ∈ (added v r id c m).map Prod.fst ∨
          (Flags.ofDecorator (v.decorator? c)).frozen = true ∧ c.writesVar name = false ∧
            ∃ f ∈ m.plain, f.initOnly = false ∧ f.name = name) := by
  have hfields : (!((m.plain.filter fun f => !f.initOnly).filter fun f =>
      f.name == name).isEmpty) = true ↔ ∃ f ∈ m.plain, f.initOnly = false ∧ f.name = name := by
    rw [Bool.not_eq_true', List.isEmpty_eq_false_iff_exists_mem]
    simp only [List.mem_filter, Bool.not_eq_true', beq_iff_eq, and_assoc]
  rw [ClassDecl.mem_generatedNames, get?_completed]
  by_cases hgone : name ∈ initOnlyNames m.plain
  · rw [if_pos hgone]
    exact iff_of_false Bool.false_ne_true fun h => h.1 hgone
  · rw [if_neg hgone, ClassDecl.any_generated_foldl_afterMark, any_generated_draft, any_isVar_draft,
      and_iff_right hgone, Bool.or_eq_true, decide_eq_true_iff]
    apply or_congr_right'
    intro hadded
    rw [Bool.and_eq_true, Bool.and_eq_true, hfields, decide_eq_false hadded, Bool.not_false,
      Bool.true_and, Bool.not_eq_true', and_assoc, and_comm (b := c.writesVar name = false)]

/-! ## In which order -/

section Names

variable (v r id c m)

/-- The table after a run has the written names first, then the new ones among those that were
added, and then the copies; and the constructor-only fields are gone. -/
theorem keys_completed :
    let written := (readClass v c).clearGenerated.members.keys
    let new := (((added v r id c m).map Prod.fst).filter fun name => name ∉ written).eraseDups
    ∃ copied, (written ++ new ++ copied).Nodup ∧
      (completed v r id c m).members.keys =
        (written ++ new ++ copied).filter fun name => !(initOnlyNames m.plain).contains name := by
  obtain ⟨copied, hcopied⟩ := ClassDecl.keys_foldl_mark c.fullname (copyTy v r id c m)
    (Flags.ofDecorator (v.decorator? c)).frozen (draft v r id c m)
    (m.plain.filter fun f => !f.initOnly)
  rw [draft, Table.keys_insertAll, Draft.names_entriesOf] at hcopied
  refine ⟨copied, hcopied ▸ Table.nodup_keys _, ?_⟩
  rw [members_completed, Table.keys_filter_key, ← hcopied]
  rfl

theorem selfTypeVar_mem_addedComparisons (flags : Flags) :
    v.selfTypeVar ∈ addedComparisons v flags c ↔
      flags.order = true ∧ flags.eq = true ∧ v.selfTypeVar ∈ orderingMethods := by
  rw [addedComparisons, List.mem_append]
  constructor
  · rintro (h | h)
    · split at h
      · simp at h
      · cases h
    · split at h
      · next hflags =>
        rw [Bool.and_eq_true] at hflags
        exact ⟨hflags.1, hflags.2, (List.mem_filter.mp h).1⟩
      · cases h
  · rintro ⟨order, eq, h⟩
    refine .inr ?_
    rw [order, eq, Bool.and_self, if_pos rfl]
    exact List.mem_filter.mpr ⟨h, by simp⟩

/-- A constructor is added. -/
def AddsInit (flags : Flags) (fields : List Field) (c : ClassDecl) : Prop :=
  flags.init ∧ "__init__" ∉ c.writtenNames ∧ !fields.isEmpty

/-- The type variable is added. -/
def AddsTypeVar (flags : Flags) (c : ClassDecl) : Prop :=
  flags.order ∨ flags.eq ∧ "__eq__" ∉ c.writtenNames

private theorem names_added_cases :
    let flags := Flags.ofDecorator (v.decorator? c)
    ∃ first second,
      (added v r id c m).map Prod.fst =
        first ++ second ++ addedComparisons v flags (readClass v c).clearGenerated ∧
      (AddsInit flags m.plain c ∧ first = ["__init__"] ∨
        ¬ AddsInit flags m.plain c ∧ first = []) ∧
      (AddsTypeVar flags c ∧ second = [v.selfTypeVar] ∨ ¬ AddsTypeVar flags c ∧ second = []) := by
  intro flags
  refine ⟨_, _, names_added, ?_, ?_⟩
  · by_cases h : AddsInit flags m.plain c
    · exact .inl ⟨h, if_pos h⟩
    · exact .inr ⟨h, if_neg h⟩
  · by_cases h : AddsTypeVar flags c
    · exact .inl ⟨h, if_pos h⟩
    · exact .inr ⟨h, if_neg h⟩

/-- The names that are added are distinct, unless the type variable has the name of a method that is
added as well. -/
theorem nodup_names_added_iff :
    let flags := Flags.ofDecorator (v.decorator? c)
    ((added v r id c m).map Prod.fst).Nodup ↔
      (AddsTypeVar flags c → v.selfTypeVar = "__init__" → ¬ AddsInit flags m.plain c) ∧
      (flags.order = true → flags.eq = true → v.selfTypeVar ∉ orderingMethods) := by
  obtain ⟨first, second, hnames, hfirst, hsecond⟩ := names_added_cases v r id c m
  dsimp only
  rw [hnames]
  generalize Flags.ofDecorator (v.decorator? c) = flags at hfirst hsecond ⊢
  have hcomparisons := nodup_addedComparisons v flags (readClass v c).clearGenerated
  have hinit : "__init__" ∉ addedComparisons v flags (readClass v c).clearGenerated := fun h =>
    absurd (mem_addedComparisons v flags _ h).1 (by decide)
  have htypeVar := selfTypeVar_mem_addedComparisons v (readClass v c).clearGenerated flags
  -- Two of the names can be the same only where one of them is that of the type variable.
  rcases hsecond with ⟨wants, rfl⟩ | ⟨wants, rfl⟩
  · rcases hfirst with ⟨adds, rfl⟩ | ⟨adds, rfl⟩
    · simp only [List.cons_append, List.nil_append, List.nodup_cons, List.mem_cons, hinit, or_false,
        htypeVar, hcomparisons, and_true, wants, adds, true_imp_iff, not_true, imp_false, not_and,
        eq_comm (a := "__init__")]
    · simp only [List.cons_append, List.nil_append, List.nodup_cons, htypeVar, hcomparisons,
        and_true, wants, adds, not_false_iff, imp_true_iff, true_and, not_and]
  · have horder : ¬ flags.order = true := fun h => wants (.inl h)
    have hdistinct : (first ++ [] ++ addedComparisons v flags
        (readClass v c).clearGenerated).Nodup := by
      rcases hfirst with ⟨adds, rfl⟩ | ⟨adds, rfl⟩
      · exact List.nodup_cons.mpr ⟨hinit, hcomparisons⟩
      · exact hcomparisons
    exact iff_of_true hdistinct ⟨fun h => absurd h wants, fun h => absurd h horder⟩

theorem mem_keys_cleared (name : String) :
    name ∈ (readClass v c).clearGenerated.members.keys ↔ name ∈ c.writtenNames := by
  rw [← Table.contains_iff, contains_cleared, decide_eq_true_iff]

/-- Of the names that are added only the first may be written: it is that of the type variable, where
no constructor is added before it. -/
theorem tail_added_apart (nodup : ((added v r id c m).map Prod.fst).Nodup)
    (ahead : AddsTypeVar (Flags.ofDecorator (v.decorator? c)) c → v.selfTypeVar ∈ c.writtenNames →
      ¬ AddsInit (Flags.ofDecorator (v.decorator? c)) m.plain c) :
    ∀ name ∈ ((added v r id c m).map Prod.fst).tail, name ∉ c.writtenNames := by
  intro name hname hwritten
  have hread : ((readClass v c).written? name).isSome = true := by
    rw [isSome_written?_readClass]
    exact ClassDecl.mem_writtenNames.mp hwritten
  obtain ⟨rfl, wants⟩ := (mem_added_iff hread).mp (List.mem_of_mem_tail hname)
  have hwants : AddsTypeVar (Flags.ofDecorator (v.decorator? c)) c := by
    have heq : c.clearGenerated.members.contains "__eq__" =
        decide ("__eq__" ∈ c.writtenNames) := by
      rw [Table.contains, ClassDecl.get?_clearGenerated, Bool.eq_iff_iff, decide_eq_true_iff,
        ClassDecl.mem_writtenNames]
    rw [wantsTypeVar, wantsEquality, heq] at wants
    simpa [AddsTypeVar, or_comm] using wants
  obtain ⟨first, second, hnames, hfirst, hsecond⟩ := names_added_cases v r id c m
  obtain ⟨-, rfl⟩ := hfirst.resolve_left fun h => ahead hwants hwritten h.1
  obtain ⟨-, rfl⟩ := hsecond.resolve_right fun h => h.1 hwants
  rw [hnames] at nodup hname
  exact (List.nodup_cons.mp nodup).1 hname

end Names

/-! ## When the list is the table's -/

/-- The list of a run accounts for the generated members of the class. -/
structure Accounted (v : Vocabulary) (c : ClassDecl) (s : Synthesis) : Prop where
  /-- No constructor is added before a type variable that has its name or stands over a written
  member. -/
  ahead : AddsTypeVar s.flags c → v.selfTypeVar = "__init__" ∨ v.selfTypeVar ∈ c.writtenNames →
    ¬ AddsInit s.flags s.fields c
  /-- No ordering method is added over the type variable. -/
  apart : s.flags.order = true → s.flags.eq = true → v.selfTypeVar ∉ orderingMethods
  /-- No constructor-only field takes a member that was added out of the table. -/
  kept : ∀ f ∈ s.fields, f.initOnly = true → f.name ∉ s.generated
  /-- No field is copied, but under a name that is listed anyway or leaves the table. -/
  owned : s.flags.frozen = true → ∀ f ∈ s.fields, f.initOnly = false →
    f.name ∈ s.generated ∨ c.writesVar f.name = true ∨ f.name ∈ initOnlyNames s.fields

section Completed

variable {s : Synthesis} (hs : s = {
    fields := m.plain
    flags := Flags.ofDecorator (v.decorator? c)
    generated := (added v r id c m).map Prod.fst
    dependencies := m.dependencies })

include hs

private theorem accounted_of_listed (h : s.generated = (completed v r id c m).generatedNames) :
    Accounted v c s := by
  subst hs
  dsimp only at h
  have hnodup : ((added v r id c m).map Prod.fst).Nodup := h ▸ ClassDecl.nodup_generatedNames _
  obtain ⟨hinit, hordering⟩ := (nodup_names_added_iff v r id c m).mp hnodup
  refine ⟨?_, hordering, ?_, ?_⟩
  · rintro wants (htypeVar | hwritten) adds
    · exact hinit wants htypeVar adds
    · -- The constructor is added first, and the written name has a place before it.
      obtain ⟨first, second, hnames, hfirst, hsecond⟩ := names_added_cases v r id c m
      obtain ⟨-, rfl⟩ := hfirst.resolve_right fun hno => hno.1 adds
      obtain ⟨-, rfl⟩ := hsecond.resolve_right fun hno => hno.1 wants
      obtain ⟨copied, hkeys, hcompleted⟩ := keys_completed v r id c m
      rw [List.append_assoc] at hkeys hcompleted
      refine not_sublist_of_mem hkeys (mt (mem_keys_cleared v c _).mp adds.2.1)
        ((mem_keys_cleared v c _).mpr hwritten) ?_
      have hfront : ["__init__", v.selfTypeVar].Sublist ((added v r id c m).map Prod.fst) := by
        rw [hnames]
        exact List.sublist_append_left _ _
      rw [h, ClassDecl.generatedNames_eq, hcompleted] at hfront
      exact (hfront.trans List.filter_sublist).trans List.filter_sublist
  · intro f hf gone hmem
    rw [h, mem_generatedNames_completed] at hmem
    exact hmem.1 (List.mem_map_of_mem (List.mem_filter.mpr ⟨hf, gone⟩))
  · intro frozen f hf kept
    by_contra hno
    obtain ⟨hlisted, hvar, hgone⟩ : f.name ∉ (added v r id c m).map Prod.fst ∧
        c.writesVar f.name = false ∧ f.name ∉ initOnlyNames m.plain := by
      simpa only [not_or, Bool.not_eq_true] using hno
    apply hlisted
    rw [h, mem_generatedNames_completed]
    exact ⟨hgone, .inr ⟨frozen, hvar, f, hf, kept, rfl⟩⟩

private theorem listed_of_accounted (accounted : Accounted v c s) :
    s.generated = (completed v r id c m).generatedNames := by
  subst hs
  obtain ⟨ahead, apart, kept, owned⟩ := accounted
  dsimp only at ahead apart kept owned ⊢
  have hnodup : ((added v r id c m).map Prod.fst).Nodup :=
    (nodup_names_added_iff v r id c m).mpr ⟨fun wants h => ahead wants (.inl h), apart⟩
  have hstays : ∀ name ∈ (added v r id c m).map Prod.fst, name ∉ initOnlyNames m.plain := by
    intro name hname hgone
    obtain ⟨f, hf, rfl⟩ := List.mem_map.mp hgone
    exact kept f (List.mem_filter.mp hf).1 (List.mem_filter.mp hf).2 hname
  -- The list stands in order in the table.
  have hsublist : ((added v r id c m).map Prod.fst).Sublist
      (completed v r id c m).members.keys := by
    obtain ⟨copied, -, hkeys⟩ := keys_completed v r id c m
    have hfirst := tail_added_apart v r id c m hnodup fun wants h => ahead wants (.inr h)
    simp only [← mem_keys_cleared v] at hfirst
    have hself : ((added v r id c m).map Prod.fst).filter
        (fun name => !(initOnlyNames m.plain).contains name) = (added v r id c m).map Prod.fst :=
      List.filter_eq_self.mpr fun name hname => by simpa using hstays name hname
    have hall := ((sublist_append_filter hfirst).trans (List.sublist_append_left _ copied)).filter
      fun name => !(initOnlyNames m.plain).contains name
    rw [hself] at hall
    rwa [hkeys, Table.eraseDups_of_nodup _ (hnodup.filter _)]
  rw [ClassDecl.generatedNames_eq]
  refine (eq_filter_mem (Table.nodup_keys _) hsublist).trans ?_
  apply List.filter_congr
  intro name _
  rw [Bool.eq_iff_iff, decide_eq_true_iff, ← ClassDecl.mem_generatedNames,
    mem_generatedNames_completed]
  constructor
  · exact fun hname => ⟨hstays name hname, .inl hname⟩
  · rintro ⟨hstay, hname | ⟨frozen, hvar, f, hf, hkept, rfl⟩⟩
    · exact hname
    · rcases owned frozen f hf hkept with hlisted | hwritten | hgone
      · exact hlisted
      · rw [hvar] at hwritten
        cases hwritten
      · exact absurd hgone hstay

end Completed

/-- After a completed run, the generated members of its class are those that are listed and, in a
frozen class, the copies of fields that instances keep and the class does not write, in both cases
but for the names of constructor-only fields. So the list names exactly the generated members, each
once and in table order, if and only if it accounts for them. -/
theorem generated_listed_iff {s : Synthesis} (registered : r.get? id = some c)
    (completes : (run v r id).result = .ok s) :
    ∃ d, (run v r id).registry.get? id = some d ∧
      (∀ name, name ∈ d.generatedNames ↔ name ∉ initOnlyNames s.fields ∧
        (name ∈ s.generated ∨ s.flags.frozen = true ∧ c.writesVar name = false ∧
          ∃ f ∈ s.fields, f.initOnly = false ∧ f.name = name)) ∧
      (s.generated = d.generatedNames ↔ Accounted v c s) := by
  obtain ⟨own, m, -, -, hs, -, hleft⟩ := run_of_ok registered completes
  refine ⟨_, hleft, fun name => ?_, accounted_of_listed hs, listed_of_accounted hs⟩
  rw [hs]
  exact mem_generatedNames_completed

/-- A frozen class below one that declares a field, which it declares again or does not. -/
private def icedClass (again : Bool) : ClassId → ClassDecl
  | 1 =>
    { name := "Base", fullname := "Base", mro := [1, 0]
      decorators := [.name { name := "dataclass" }], body := [declaration] }
  | 2 =>
    { name := "Child", fullname := "Child", mro := [2, 1, 0]
      decorators := [.call (.name { name := "dataclass" })
        [{ keyword := some "frozen", value := .bool true }]]
      body := if again then [declaration] else [] }
  | _ => { name := "object", fullname := "object", mro := [0] }
where
  /-- The declaration of the field. -/
  declaration : Statement :=
    .assign { target := { name := "x" }, declaredTy := some (.resolved (.named "builtins.int")) }

/-- The registry in which the class below is to be run. -/
private def iced (again : Bool) : Registry :=
  (run {} ⟨(List.range 3).map fun id => (icedClass again id).bind⟩ 1).registry

theorem generated_listed_iff_child : ∃ s d, (run {} (iced true) 2).result = .ok s ∧
    (run {} (iced true) 2).registry.get? 2 = some d ∧
    Accounted {} (icedClass true 2).bind s ∧ s.generated = d.generatedNames := by
  have completes : (run {} (iced true) 2).result =
      .ok
        { fields := [{ name := "x" }], flags := { frozen := true }
          generated := ["__init__", "_DT", "__eq__", "__ne__"], dependencies := ["Base"] } := rfl
  obtain ⟨d, hd, -, hiff⟩ :=
    generated_listed_iff (rfl : (iced true).get? 2 = some (icedClass true 2).bind) completes
  have accounted : Accounted {} (icedClass true 2).bind
      { fields := [{ name := "x" }], flags := { frozen := true }
        generated := ["__init__", "_DT", "__eq__", "__ne__"], dependencies := ["Base"] } := by
    refine ⟨fun _ h => absurd h (by decide), fun h => absurd h (by decide), by decide, ?_⟩
    intro _ f hf _
    rw [List.mem_singleton.mp hf]
    exact .inr (.inl rfl)
  exact ⟨_, d, completes, hd, accounted, hiff.mpr accounted⟩

/-- Without a declaration of its own, the frozen class gets a copy of the field, which is generated
and not listed. -/
theorem not_generated_listed_child : ∃ s d, (run {} (iced false) 2).result = .ok s ∧
    (run {} (iced false) 2).registry.get? 2 = some d ∧
    s.generated = ["__init__", "_DT", "__eq__", "__ne__"] ∧
    d.generatedNames = ["__init__", "_DT", "__eq__", "__ne__", "x"] ∧
    s.generated ≠ d.generatedNames :=
  ⟨_, _, rfl, rfl, rfl, rfl, by decide⟩

end Synthesis

end DataHolder
