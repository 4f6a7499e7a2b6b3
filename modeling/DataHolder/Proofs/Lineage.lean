import DataHolder.Proofs.Raising

/-!
# A single line of inheritance

With single inheritance the linearized ancestors of a class are the class and those of its parent.
The data holders of such a line are brought up one after the other, from the root on. Each run
finds what the classes above have recorded, and all of it is in the record of the nearest data
holder. So every class has the fields of that one in their order, and behind them the new ones of
its own.
-/

namespace DataHolder

namespace Synthesis

/-! ## Lines -/

/-- The next data holder of a line: its ancestors are the line, and its run completes. -/
structure Joins (v : Vocabulary) (ids : List ClassId) (r : Registry) (e : Raised) : Prop where
  registered : r.get? e.id = some e.found
  mro : e.found.mro = e.id :: ids
  holder : v.isDataHolder e.found = true
  completes : (run v r e.id).result = .ok e.answer

/-- A single line of inheritance, the last class first, and its data holders as they were brought
up, the last one first. The root is no data holder, and classes that are none have no record.
Between the runs anything may change but the classes that the line has reached. -/
inductive Lineage (v : Vocabulary) : List ClassId → List Raised → Registry → Prop
  | root {id : ClassId} {r : Registry} {c : ClassDecl} (registered : r.get? id = some c)
    (mro : c.mro = [id]) (other : v.isDataHolder c = false) : Lineage v [id] [] r
  | change {ids : List ClassId} {up : List Raised} {r r' : Registry} (before : Lineage v ids up r)
    (kept : ∀ id ∈ ids, r'.get? id = r.get? id) : Lineage v ids up r'
  | plain {ids : List ClassId} {up : List Raised} {id : ClassId} {r : Registry} {c : ClassDecl}
    (before : Lineage v ids up r) (registered : r.get? id = some c) (mro : c.mro = id :: ids)
    (other : v.isDataHolder c = false) (unrecorded : c.record? v.recordKey = .ok none) :
    Lineage v (id :: ids) up r
  | run {ids : List ClassId} {up : List Raised} {r : Registry} {e : Raised}
    (before : Lineage v ids up r) (next : Joins v ids r e) :
    Lineage v (e.id :: ids) (e :: up) (Synthesis.run v r e.id).registry

section Line

variable {v : Vocabulary} {ids : List ClassId} {up : List Raised} {r : Registry} {e : Raised}

/-- The run of the next data holder leaves it completed, and all other classes alone. -/
theorem Joins.exists_completed (next : Joins v ids r e) :
    ∃ m, (readBody v e.found.body e.found.members).2 = .ok (e.own v) ∧
      collect v (r.set e.id (readClass v e.found)) e.id e.found.mro (.ok (e.own v)) = .ok m ∧
      e.answer = { fields := m.plain
                   flags := Flags.ofDecorator (v.decorator? e.found)
                   generated := (added v r e.id e.found m).map Prod.fst
                   dependencies := m.dependencies } ∧
      (run v r e.id).registry.get? e.id = some (completed v r e.id e.found m) ∧
      ∀ a, e.id ≠ a → (run v r e.id).registry.get? a = r.get? a := by
  obtain ⟨m, hown, hm, hanswer, hregistry, hget⟩ :=
    Raised.exists_completed next.registered next.completes
  refine ⟨m, hown, hm, hanswer, hget, fun a ne => ?_⟩
  rw [hregistry, Registry.get?_set_ne _ _ ne]

/-- From each of its classes on, a line is the linearized ancestors of the class. -/
def Straight (ids : List ClassId) (r : Registry) : Prop :=
  ∀ id ∈ ids, ∃ c rest, r.get? id = some c ∧ c.mro = id :: rest ∧ id :: rest <:+ ids

/-- A class below a line is not on it. -/
private theorem Straight.not_mem (straight : Straight ids r) {id : ClassId} {c : ClassDecl}
    (registered : r.get? id = some c) (mro : c.mro = id :: ids) : id ∉ ids := by
  intro mem
  obtain ⟨d, rest, hd, hmro, hsuffix⟩ := straight id mem
  rw [registered, Option.some.injEq] at hd
  subst hd
  have hlength := hsuffix.length_le
  rw [← hmro, mro, List.length_cons] at hlength
  omega

private theorem Straight.cons (straight : Straight ids r) {id : ClassId} {c : ClassDecl}
    (registered : r.get? id = some c) (mro : c.mro = id :: ids) : Straight (id :: ids) r := by
  intro a ha
  rcases List.mem_cons.mp ha with rfl | ha
  · exact ⟨c, ids, registered, mro, List.suffix_refl _⟩
  · obtain ⟨d, rest, hd, hmro, hsuffix⟩ := straight a ha
    exact ⟨d, rest, hd, hmro, hsuffix.trans (List.suffix_cons _ _)⟩

private theorem Straight.congr (straight : Straight ids r) {r' : Registry}
    (same : ∀ id ∈ ids, r'.get? id = r.get? id) : Straight ids r' := by
  intro id hid
  rw [same id hid]
  exact straight id hid

namespace Lineage

theorem ne_nil (line : Lineage v ids up r) : ids ≠ [] := by
  induction line with
  | root => exact List.cons_ne_nil _ _
  | change _ _ ih => exact ih
  | plain => exact List.cons_ne_nil _ _
  | run => exact List.cons_ne_nil _ _

theorem straight (line : Lineage v ids up r) : Straight ids r := by
  induction line with
  | root registered mro =>
    intro a ha
    obtain rfl := List.mem_singleton.mp ha
    exact ⟨_, [], registered, mro, List.suffix_refl _⟩
  | change _ kept ih => exact ih.congr kept
  | plain _ registered mro _ _ ih => exact ih.cons registered mro
  | @run ids up r e _ next ih =>
    obtain ⟨m, -, -, -, hget, hothers⟩ := next.exists_completed
    have hapart := ih.not_mem next.registered next.mro
    exact (ih.congr fun a ha => hothers a fun he => hapart (he ▸ ha)).cons hget next.mro

theorem not_mem (line : Lineage v ids up r) (next : Joins v ids r e) : e.id ∉ ids :=
  line.straight.not_mem next.registered next.mro

/-- The next data holder of a line is brought up. -/
theorem raises (line : Lineage v ids up r) (next : Joins v ids r e) : Raises v [] r e :=
  ⟨next.registered, ⟨ids, next.mro, line.not_mem next⟩, nofun, next.completes⟩

/-- Setting the next data holder changes nothing above. -/
theorem get?_set_of_mem (line : Lineage v ids up r) (next : Joins v ids r e) (c : ClassDecl) :
    ∀ a ∈ ids, (r.set e.id c).get? a = r.get? a := by
  intro a ha
  exact Registry.get?_set_ne _ _ fun he => line.not_mem next (he ▸ ha)

/-- The run of the next data holder changes nothing above. -/
theorem get?_run_of_mem (line : Lineage v ids up r) (next : Joins v ids r e) :
    ∀ a ∈ ids, (Synthesis.run v r e.id).registry.get? a = r.get? a := by
  intro a ha
  obtain ⟨m, -, -, -, -, hothers⟩ := next.exists_completed
  exact hothers a fun he => line.not_mem next (he ▸ ha)

/-- Every data holder of a line joined a line of those above it. Since its run neither the class nor
any above has changed. -/
theorem part (later : List Raised) {before : List Raised}
    (line : Lineage v ids (later ++ e :: before) r) :
    ∃ above q, Lineage v above before q ∧ Joins v above q e ∧ e.id :: above <:+ ids ∧
      ∀ a ∈ e.id :: above, r.get? a = (Synthesis.run v q e.id).registry.get? a := by
  generalize hup : later ++ e :: before = up at line
  induction line generalizing later with
  | root => simp at hup
  | change _ kept ih =>
    obtain ⟨above, q, hline, hnext, hsuffix, hsame⟩ := ih _ hup
    exact ⟨above, q, hline, hnext, hsuffix,
      fun a ha => (kept a (hsuffix.subset ha)).trans (hsame a ha)⟩
  | plain _ _ _ _ _ ih =>
    obtain ⟨above, q, hline, hnext, hsuffix, hsame⟩ := ih _ hup
    exact ⟨above, q, hline, hnext, hsuffix.trans (List.suffix_cons _ _), hsame⟩
  | @run ids _ r b line next ih =>
    cases later with
    | nil =>
      cases hup
      exact ⟨ids, r, line, next, List.suffix_refl _, fun _ _ => rfl⟩
    | cons b' later =>
      cases hup
      obtain ⟨above, q, hline, hnext, hsuffix, hsame⟩ := ih _ rfl
      exact ⟨above, q, hline, hnext, hsuffix.trans (List.suffix_cons _ _),
        fun a ha => (line.get?_run_of_mem next a (hsuffix.subset ha)).trans (hsame a ha)⟩

/-- The last data holder of a line joined the others. Since then neither they nor, once it was run,
the class itself have changed. -/
theorem last (line : Lineage v ids (e :: up) r) :
    ∃ above q, Lineage v above up q ∧ Joins v above q e ∧ e.id :: above ⊆ ids ∧
      (∀ a ∈ above, r.get? a = q.get? a) ∧
      ∀ a ∈ e.id :: above, r.get? a = (Synthesis.run v q e.id).registry.get? a := by
  obtain ⟨above, q, hline, hnext, hsuffix, hsame⟩ := line.part []
  refine ⟨above, q, hline, hnext, hsuffix.subset, fun a ha => ?_, hsame⟩
  exact (hsame a (List.mem_cons_of_mem _ ha)).trans (hline.get?_run_of_mem hnext a ha)

/-- The data holders of a line are the classes that were brought up. -/
theorem ids_eq (line : Lineage v ids up r) :
    up.map Raised.id = ids.filter fun id => (r.get? id).any v.isDataHolder := by
  induction line with
  | root registered _ other => simp [registered, other]
  | change _ kept ih =>
    rw [ih]
    exact List.filter_congr fun a ha => by rw [kept a ha]
  | plain _ registered _ other _ ih => simp [ih, registered, other]
  | @run ids up r e before next ih =>
    obtain ⟨m, -, -, -, hget, -⟩ := next.exists_completed
    have hself : ((Synthesis.run v r e.id).registry.get? e.id).any v.isDataHolder = true := by
      rw [hget]
      exact next.holder
    rw [List.filter_cons, if_pos hself, List.map_cons, ih]
    congr 1
    exact List.filter_congr fun a ha => by rw [before.get?_run_of_mem next a ha]

end Lineage

/-! ## What a line has recorded -/

/-- What a data holder that was brought up contributes to the classes below. -/
def Raised.contribution (q : Registry) (e : Raised) : Contribution :=
  { owner := e.found.fullname
    fields := (Record.ofFields e.answer.fields e.answer.flags.frozen).fields.map (inherit q e.id) }

namespace Lineage

/-- The data holders of a line are all that contributes. -/
theorem contributions_eq (line : Lineage v ids up r) {q : Registry}
    (same : ∀ a ∈ ids, q.get? a = r.get? a) :
    contributions v q ids.dropLast = .ok (up.map (Raised.contribution q)) := by
  induction line with
  | root => rfl
  | change _ kept ih => exact ih fun a ha => (same a ha).trans (kept a ha)
  | plain before registered _ other unrecorded ih =>
    rw [List.dropLast_cons_of_ne_nil before.ne_nil, contributions_cons, contribution?,
      (same _ List.mem_cons_self).trans registered]
    dsimp only
    rw [unrecorded, ih fun a ha => same a (List.mem_cons_of_mem _ ha)]
    dsimp only
    rw [other]
    rfl
  | @run ids up r e before next ih =>
    obtain ⟨m, -, -, hanswer, hget, -⟩ := next.exists_completed
    have hrest := ih fun a ha => (same a (List.mem_cons_of_mem _ ha)).trans
      (before.get?_run_of_mem next a ha)
    rw [List.dropLast_cons_of_ne_nil before.ne_nil, contributions_cons, contribution?,
      (same _ List.mem_cons_self).trans hget]
    dsimp only
    rw [record?_completed, hrest]
    dsimp only
    rw [List.map_cons, Raised.contribution, hanswer]
    rfl

/-- The next data holder of a line has its own fields, merged with what those above have
recorded. -/
theorem exists_merged (line : Lineage v ids up r) (next : Joins v ids r e) :
    ∃ m, collect v (r.set e.id (readClass v e.found)) e.id e.found.mro (.ok (e.own v)) = .ok m ∧
      e.answer.fields = m.plain ∧
      m.fields = merge ((e.own v).map ofOwn) (up.map fun a =>
        (a.contribution (r.set e.id (readClass v e.found))).fields) := by
  obtain ⟨m, -, hm, hanswer, -⟩ := next.exists_completed
  obtain ⟨found, hfound, hfields, -⟩ := gather_ok (gather_of_collect hm)
  have hinterior : interior e.found.mro = ids.dropLast := by
    rw [next.mro]
    rfl
  rw [hinterior, line.contributions_eq (line.get?_set_of_mem next _), Except.ok.injEq] at hfound
  refine ⟨m, hm, by rw [hanswer], ?_⟩
  rw [hfields, ← hfound, List.map_map]
  rfl

end Lineage

end Line

/-! ## Records that go on from each other -/

/-- Among distinct names, a list is given by its names and by what is found under them. -/
theorem ext_find?_name {α : Type} {name : α → String} {l l' : List α}
    (nodup : (l.map name).Nodup) (names : l'.map name = l.map name)
    (found : ∀ n, (l'.find? fun a => name a == n) = l.find? fun a => name a == n) : l' = l := by
  have hself : ∀ l : List α, (l.map name).Nodup →
      ((l.map name).filterMap fun n => l.find? fun a => name a == n) = l := by
    intro l nodup
    rw [List.filterMap_map]
    calc l.filterMap ((fun n => l.find? fun a => name a == n) ∘ name)
        = l.filterMap some := List.filterMap_congr fun a ha => find?_name_of_mem nodup ha
      _ = l := List.filterMap_some
  rw [← hself l' (names ▸ nodup), ← hself l nodup, names]
  exact List.filterMap_congr fun n _ => found n

private theorem removeAll_of_prefix {names others : List String} (nodup : others.Nodup)
    (h : names <+: others) : names ++ others.removeAll names = others := by
  obtain ⟨rest, rfl⟩ := h
  obtain ⟨-, -, hapart⟩ := List.nodup_append.mp nodup
  have hfirst : (names.filter fun n => !names.elem n) = [] := by
    apply List.filter_eq_nil_iff.mpr
    intro n hn
    simp [hn]
  have hrest : (rest.filter fun n => !names.elem n) = rest := by
    apply List.filter_eq_self.mpr
    intro n hn
    simpa using fun hmem => hapart n hmem n hn rfl
  rw [List.removeAll, List.filter_append, hfirst, hrest, List.nil_append]

/-- A record whose names are the first ones of the fields changes nothing. -/
private theorem mergeRecord_of_prefix {fields record : List MergedField}
    (nodup : (fields.map MergedField.name).Nodup)
    (h : record.map MergedField.name <+: fields.map MergedField.name) :
    mergeRecord fields record = fields := by
  rw [mergeRecord_eq_overlay _ _ nodup (nodup.sublist h.sublist)]
  apply ext_find?_name nodup
  · rw [names_overlay, removeAll_of_prefix nodup h]
  · intro n
    rw [find?_overlay]
    cases hfields : fields.find? fun g => g.name == n with
    | some g => rfl
    | none =>
      rw [Option.none_or, List.find?_eq_none]
      intro g hg hname
      obtain ⟨g', hg', he⟩ := List.mem_map.mp (h.subset (List.mem_map_of_mem hg))
      exact List.find?_eq_none.mp hfields g' hg' (by rwa [he])

/-- Where the names of the further records are the first ones of the nearest, only the nearest
counts. -/
private theorem merge_of_prefixes {own record : List MergedField}
    {records : List (List MergedField)} (nodupOwn : (own.map MergedField.name).Nodup)
    (nodup : (record.map MergedField.name).Nodup)
    (prefixes : ∀ further ∈ records,
      further.map MergedField.name <+: record.map MergedField.name) :
    merge own (record :: records) = overlay own record := by
  rw [merge, List.foldl_cons, mergeRecord_eq_overlay _ _ nodupOwn nodup]
  have hoverlay := nodup_names_overlay nodupOwn nodup
  have hprefix : record.map MergedField.name <+: (overlay own record).map MergedField.name := by
    rw [names_overlay]
    exact List.prefix_append _ _
  induction records with
  | nil => rfl
  | cons further records ih =>
    rw [List.foldl_cons, mergeRecord_of_prefix hoverlay
      ((prefixes further List.mem_cons_self).trans hprefix)]
    exact ih fun g hg => prefixes g (List.mem_cons_of_mem _ hg)

private theorem find?_or_eq_some_iff {own inherited : List Field}
    (nodupOwn : (own.map Field.name).Nodup) (nodup : (inherited.map Field.name).Nodup) (f : Field) :
    ((own.find? fun g => g.name == f.name).or (inherited.find? fun g => g.name == f.name)) =
        some f ↔
      f ∈ own ∨ f.name ∉ own.map Field.name ∧ f ∈ inherited := by
  rw [mem_iff_find?_name nodupOwn, mem_iff_find?_name nodup]
  cases hown : own.find? fun g => g.name == f.name with
  | some g =>
    have hmem : f.name ∈ own.map Field.name :=
      List.mem_map.mpr ⟨g, List.mem_of_find?_eq_some hown, by simpa using List.find?_some hown⟩
    simp [hmem]
  | none =>
    have hnot : f.name ∉ own.map Field.name := by
      intro hmem
      obtain ⟨g, hg, hname⟩ := List.mem_map.mp hmem
      exact List.find?_eq_none.mp hown g hg (by simpa using hname)
    simp [hnot]

/-! ## Fields along a line -/

/-- The fields that come down to a class: those of the nearest of the data holders above it. -/
def handedDown (above : List Raised) : List Field :=
  above.head?.elim [] fun a => a.answer.fields

/-- The fields of a class that has some handed down. Their names come first, in their order, and
then the new names of its own. The class has its own descriptions of fields, and all others as they
were handed down. -/
structure Appends (inherited own fields : List Field) : Prop where
  names : fields.map Field.name =
    inherited.map Field.name ++ (own.map Field.name).removeAll (inherited.map Field.name)
  descriptions : ∀ f, f ∈ fields ↔ f ∈ own ∨ f.name ∉ own.map Field.name ∧ f ∈ inherited

section Fields

variable {v : Vocabulary} {ids : List ClassId} {up : List Raised} {r : Registry} {e : Raised}

namespace Lineage

/-- A class that declares no name twice has fields with distinct names. -/
theorem nodup_fields (line : Lineage v ids up r) (next : Joins v ids r e)
    (once : ((declarations e.found.body).map fun a => a.target.name).Nodup) :
    ((e.own v).map Field.name).Nodup ∧ (e.answer.fields.map Field.name).Nodup := by
  obtain ⟨m, hm, hfields, -⟩ := line.exists_merged next
  have hown : ((e.own v).map Field.name).Nodup := by
    rw [(line.raises next).names_own]
    exact once.sublist (List.filter_sublist.map _)
  exact ⟨hown, hfields ▸ (nodup_plain_of_gather_iff (gather_of_collect hm)).mpr hown⟩

/-- Where the fields above go on from each other, the next class goes on from the nearest ones. -/
private theorem appends (line : Lineage v ids up r) (next : Joins v ids r e)
    (nodupOwn : ((e.own v).map Field.name).Nodup)
    (nodup : ∀ a ∈ e :: up, (a.answer.fields.map Field.name).Nodup)
    (prefixes : up.Pairwise fun a b =>
      b.answer.fields.map Field.name <+: a.answer.fields.map Field.name) :
    Appends (handedDown up) (e.own v) e.answer.fields := by
  obtain ⟨m, -, hfields, hmerged⟩ := line.exists_merged next
  cases up with
  | nil =>
    have hall : e.answer.fields = e.own v := by
      rw [hfields, Collection.plain, hmerged, List.map_nil, merge, List.foldl_nil, field_ofOwn]
    rw [hall]
    exact ⟨by simp [handedDown, List.removeAll], by simp [handedDown]⟩
  | cons b rest =>
    have hrecorded : ∀ q, ∀ a ∈ b :: rest,
        (a.contribution q).fields.map MergedField.field = a.answer.fields := by
      intro q a ha
      rw [Raised.contribution, (Record.fields_ofFields_eq_iff _ _).mpr
        (nodup a (List.mem_cons_of_mem _ ha)), List.map_map]
      exact List.map_id _
    have hnames : ∀ q, ∀ a ∈ b :: rest,
        (a.contribution q).fields.map MergedField.name = a.answer.fields.map Field.name := by
      intro q a ha
      rw [← hrecorded q a ha, List.map_map]
      rfl
    have hnearest := nodup b (List.mem_cons_of_mem _ List.mem_cons_self)
    rw [List.map_cons, merge_of_prefixes (by rwa [names_ofOwn])
      (by rwa [hnames _ b List.mem_cons_self])] at hmerged
    · refine ⟨?_, fun f => ?_⟩
      · calc e.answer.fields.map Field.name
            = m.fields.map MergedField.name := by rw [hfields, Collection.plain, List.map_map]; rfl
          _ = _ := by
            rw [hmerged, names_overlay, names_ofOwn, hnames _ b List.mem_cons_self]
            rfl
      · have hfind : (e.answer.fields.find? fun g => g.name == f.name) =
            ((e.own v).find? fun g => g.name == f.name).or
              (b.answer.fields.find? fun g => g.name == f.name) := by
          rw [hfields, Collection.plain, find?_field, hmerged, find?_overlay, Option.map_or,
            ← find?_field, ← find?_field, field_ofOwn, hrecorded _ b List.mem_cons_self]
        rw [mem_iff_find?_name (nodup e List.mem_cons_self), hfind,
          find?_or_eq_some_iff nodupOwn hnearest]
        rfl
    · intro further hfurther
      obtain ⟨a, ha, rfl⟩ := List.mem_map.mp hfurther
      rw [hnames _ a (List.mem_cons_of_mem _ ha), hnames _ b List.mem_cons_self]
      exact (List.pairwise_cons.mp prefixes).1 a ha

/-- On a line of classes that declare no name twice, all fields go on from those above. -/
private theorem exists_appends (line : Lineage v ids up r)
    (once : ∀ a ∈ up, ((declarations a.found.body).map fun d => d.target.name).Nodup) :
    (∀ a ∈ up, ((a.own v).map Field.name).Nodup ∧ (a.answer.fields.map Field.name).Nodup) ∧
      up.Pairwise fun a b => b.answer.fields.map Field.name <+: a.answer.fields.map Field.name := by
  induction line with
  | root => exact ⟨nofun, .nil⟩
  | change _ _ ih => exact ih once
  | plain _ _ _ _ _ ih => exact ih once
  | @run ids up r e line next ih =>
    obtain ⟨hnodup, hprefixes⟩ := ih fun a ha => once a (List.mem_cons_of_mem _ ha)
    have hnodup' : ∀ a ∈ e :: up,
        ((a.own v).map Field.name).Nodup ∧ (a.answer.fields.map Field.name).Nodup := by
      intro a ha
      rcases List.mem_cons.mp ha with rfl | ha
      · exact line.nodup_fields next (once a List.mem_cons_self)
      · exact hnodup a ha
    refine ⟨hnodup', List.pairwise_cons.mpr ⟨?_, hprefixes⟩⟩
    have happends := line.appends next (hnodup' e List.mem_cons_self).1
      (fun a ha => (hnodup' a ha).2) hprefixes
    have hnearest : (handedDown up).map Field.name <+: e.answer.fields.map Field.name := by
      rw [happends.names]
      exact List.prefix_append _ _
    intro a ha
    cases up with
    | nil => cases ha
    | cons b rest =>
      rcases List.mem_cons.mp ha with rfl | ha
      · exact hnearest
      · exact ((List.pairwise_cons.mp hprefixes).1 a ha).trans hnearest

/-- On a single line of inheritance, whose classes declare no name twice, every data holder has the
fields of the nearest data holder above it in their order, and behind them those of its own body
under new names, in the order of the body. Redeclared fields are described as the class itself does
it, and all others as they were. So the fields of all data holders above stand first, in their
order. -/
theorem fields_append (line : Lineage v ids up r)
    (once : ∀ a ∈ up, ((declarations a.found.body).map fun d => d.target.name).Nodup)
    {later before : List Raised} (split : up = later ++ e :: before) :
    (e :: before).map Raised.id =
        e.found.mro.filter (fun id => (r.get? id).any v.isDataHolder) ∧
      (e.own v).map Field.name = fieldNames e.found ∧
      Appends (handedDown before) (e.own v) e.answer.fields ∧
      ∀ a ∈ before, a.answer.fields.map Field.name <+: e.answer.fields.map Field.name := by
  obtain ⟨hnodup, hprefixes⟩ := line.exists_appends once
  subst split
  obtain ⟨above, q, hline, hnext, -, hsame⟩ := line.part later
  have hids := (hline.run hnext).ids_eq
  have hprefixes' := (List.pairwise_append.mp hprefixes).2.1
  refine ⟨?_, (hline.raises hnext).names_own, ?_, (List.pairwise_cons.mp hprefixes').1⟩
  · rw [hnext.mro, hids]
    exact List.filter_congr fun a ha => by rw [hsame a ha]
  · exact hline.appends hnext (hnodup e (List.mem_append_right _ List.mem_cons_self)).1
      (fun a ha => (hnodup a (List.mem_append_right _ ha)).2) (List.pairwise_cons.mp hprefixes').2

end Lineage

/-- The classes of a line as they come in. The one in the middle is no data holder, and those after
it redeclare a field of the first. -/
private def growingClass : ClassId → ClassDecl
  | 1 =>
    { name := "A", fullname := "A", mro := [1, 0], decorators := [.name { name := "dataclass" }]
      body := [field "a" 1 .empty, field "b" 2 .empty] }
  | 2 => { name := "P", fullname := "P", mro := [2, 1, 0] }
  | 3 =>
    { name := "B", fullname := "B", mro := [3, 2, 1, 0]
      decorators := [.name { name := "dataclass" }]
      body := [field "c" 3 .empty, field "b" 4 (.str "")] }
  | 4 =>
    { name := "C", fullname := "C", mro := [4, 3, 2, 1, 0]
      decorators := [.name { name := "dataclass" }]
      body := [field "d" 5 .empty, field "a" 6 .empty] }
  | _ => { name := "object", fullname := "object", mro := [0] }
where
  /-- A declaration in some line. -/
  field (name : String) (line : UInt32) (value : Expr) : Statement :=
    .assign
      { target := { name }, declaredTy := some (.resolved (.named "builtins.str")), value
        position := ⟨line, 4⟩ }

/-- One of its data holders, brought up. -/
private def growingRaised (id : ClassId) (fields : List Field) (dependencies : List String) :
    Raised :=
  { id
    found := (growingClass id).bind
    answer :=
      { fields
        flags := {}
        generated := ["__init__", "_DT", "__eq__", "__ne__"]
        dependencies } }

private def growingFirst : Raised :=
  growingRaised 1 [{ name := "a", position := ⟨1, 4⟩ }, { name := "b", position := ⟨2, 4⟩ }] []

private def growingSecond : Raised :=
  growingRaised 3
    [{ name := "a", position := ⟨1, 4⟩ }, { name := "b", hasDefault := true, position := ⟨4, 4⟩ },
      { name := "c", position := ⟨3, 4⟩ }]
    ["A"]

private def growingThird : Raised :=
  growingRaised 4
    [{ name := "a", position := ⟨6, 4⟩ }, { name := "b", hasDefault := true, position := ⟨4, 4⟩ },
      { name := "c", position := ⟨3, 4⟩ }, { name := "d", position := ⟨5, 4⟩ }]
    ["B", "A"]

theorem fields_append_third :
    Appends growingSecond.answer.fields (growingThird.own {}) growingThird.answer.fields ∧
      ["a", "b"] <+: ["a", "b", "c", "d"] := by
  have root : Lineage {} [0] [] ⟨(List.range 5).map fun id => (growingClass id).bind⟩ :=
    .root rfl rfl rfl
  have first := root.run (e := growingFirst) ⟨rfl, rfl, rfl, rfl⟩
  have other : Lineage {} [2, 1, 0] [growingFirst] _ := first.plain rfl rfl rfl rfl
  have second := other.run (e := growingSecond) ⟨rfl, rfl, rfl, rfl⟩
  have third := second.run (e := growingThird) ⟨rfl, rfl, rfl, rfl⟩
  have once : ∀ a ∈ [growingThird, growingSecond, growingFirst],
      ((declarations a.found.body).map fun d => d.target.name).Nodup := by decide
  obtain ⟨-, -, happends, hprefix⟩ :=
    third.fields_append once (rfl : _ = [] ++ growingThird :: [growingSecond, growingFirst])
  exact ⟨happends, hprefix growingFirst (List.mem_cons_of_mem _ List.mem_cons_self)⟩

end Fields

end Synthesis

end DataHolder
