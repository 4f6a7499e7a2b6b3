import DataHolder.Proofs.Table
import DataHolder.Synthesis.Run

/-!
# The merged fields

A run merges the records of the ancestors from the nearest to the furthest, taking fields out
of what it has and putting blocks in front. The main statement says what comes out: what an
insertion-ordered table holds after the fields of the furthest record, of the nearer ones and
of the class itself were stored in it, in this order. One record is handled by `overlay`, the
closed form of `mergeRecord`, and the records of all ancestors by induction.
-/

namespace DataHolder

namespace Synthesis

/-! ## One record -/

/-- The fields of a record in their order, each in its nearest description, and after them the
other fields of nearer classes. -/
def overlay (fields record : List MergedField) : List MergedField :=
  record.map (fun f => (fields.find? fun g => g.name == f.name).getD f) ++
    fields.filter fun g => !record.any fun f => f.name == g.name

private theorem eraseP_eq_filter {fields : List MergedField} (name : String)
    (nodup : (fields.map MergedField.name).Nodup) :
    (fields.eraseP fun g => g.name == name) = fields.filter fun g => !(name == g.name) := by
  induction fields with
  | nil => rfl
  | cons g fields ih =>
    rw [List.map_cons, List.nodup_cons] at nodup
    by_cases h : g.name = name
    · subst h
      have hrest : (fields.filter fun f => !(g.name == f.name)) = fields := by
        apply List.filter_eq_self.mpr
        intro f hf
        have hne : g.name ≠ f.name := fun e => nodup.1 (List.mem_map.mpr ⟨f, hf, e.symm⟩)
        simp [hne]
      simp [hrest]
    · have h' : ¬ name = g.name := fun e => h e.symm
      simp [h, h', ih nodup.2]

private theorem find?_filter_ne {fields : List MergedField} {name other : String}
    (ne : name ≠ other) :
    ((fields.filter fun g => !(name == g.name)).find? fun g => g.name == other) =
      fields.find? fun g => g.name == other := by
  rw [List.find?_filter]
  congr 1
  funext g
  by_cases h : g.name = other
  · simp [h, ne]
  · simp [h]

/-- A field that nearer classes have moves to the place that the record gives it. -/
private theorem mergeField_of_found {inherited rest : List MergedField} {f nearer : MergedField}
    (nodup : (rest.map MergedField.name).Nodup)
    (found : (rest.find? fun g => g.name == f.name) = some nearer) :
    mergeField (inherited, rest) f =
      (inherited ++ [nearer], rest.filter fun g => !(f.name == g.name)) := by
  simp only [mergeField, found, eraseP_eq_filter f.name nodup]

/-- A field that only the record has is taken as the record has it. -/
private theorem mergeField_of_new {inherited rest : List MergedField} {f : MergedField}
    (missing : (rest.find? fun g => g.name == f.name) = none)
    (fresh : ∀ g ∈ inherited, g.name ≠ f.name) :
    mergeField (inherited, rest) f = (inherited ++ [f], rest) := by
  have hany : (inherited.any fun g => g.name == f.name) = false := by
    rw [List.any_eq_false]
    intro g hg
    simpa using fresh g hg
  simp only [mergeField, missing, hany, Bool.false_eq_true, if_false]

/-- The loop over a record: it collects the record in its order and leaves the fields that the
record does not mention. -/
private theorem foldl_mergeField (inherited rest record : List MergedField)
    (nodupRest : (rest.map MergedField.name).Nodup)
    (nodup : (record.map MergedField.name).Nodup)
    (fresh : ∀ f ∈ record, ∀ g ∈ inherited, g.name ≠ f.name) :
    record.foldl mergeField (inherited, rest) =
      (inherited ++ record.map (fun f => (rest.find? fun g => g.name == f.name).getD f),
        rest.filter fun g => !record.any fun f => f.name == g.name) := by
  induction record generalizing inherited rest with
  | nil => simp
  | cons f record ih =>
    rw [List.map_cons, List.nodup_cons] at nodup
    have hne : ∀ f' ∈ record, f.name ≠ f'.name := by
      intro f' hf' he
      exact nodup.1 (List.mem_map.mpr ⟨f', hf', he.symm⟩)
    have hfresh : ∀ e : MergedField, e.name = f.name →
        ∀ f' ∈ record, ∀ g ∈ inherited ++ [e], g.name ≠ f'.name := by
      intro e he f' hf' g hg
      rcases List.mem_append.mp hg with hg | hg
      · exact fresh f' (List.mem_cons_of_mem _ hf') g hg
      · rw [List.mem_singleton.mp hg, he]
        exact hne f' hf'
    rw [List.foldl_cons]
    cases hfind : rest.find? fun g => g.name == f.name with
    | some nearer =>
      have hname : nearer.name = f.name := by simpa using List.find?_some hfind
      have hnodup : ((rest.filter fun g => !(f.name == g.name)).map MergedField.name).Nodup :=
        nodupRest.sublist (List.filter_sublist.map _)
      rw [mergeField_of_found nodupRest hfind, ih _ _ hnodup nodup.2 (hfresh nearer hname)]
      -- Without the moved field, look-up of the other names is the same.
      have hpick : record.map (fun f' =>
            ((rest.filter fun g => !(f.name == g.name)).find? fun g => g.name == f'.name).getD f') =
          record.map fun f' => (rest.find? fun g => g.name == f'.name).getD f' := by
        apply List.map_congr_left
        intro f' hf'
        rw [find?_filter_ne (hne f' hf')]
      rw [hpick]
      simp [hfind, List.filter_filter, Bool.and_comm]
    | none =>
      have hnew := mergeField_of_new hfind (fresh f List.mem_cons_self)
      rw [hnew, ih _ _ nodupRest nodup.2 (hfresh f rfl)]
      have hrest : (rest.filter fun g => !(f :: record).any fun f' => f'.name == g.name) =
          rest.filter fun g => !record.any fun f' => f'.name == g.name := by
        apply List.filter_congr
        intro g hg
        have hg' : (g.name == f.name) = false := by
          simpa using List.find?_eq_none.mp hfind g hg
        rw [List.any_cons, BEq.comm, hg', Bool.false_or]
      rw [hrest]
      simp [hfind]

/-- A record whose names are distinct is merged by laying the nearer fields over it. -/
theorem mergeRecord_eq_overlay (fields record : List MergedField)
    (nodupFields : (fields.map MergedField.name).Nodup)
    (nodup : (record.map MergedField.name).Nodup) :
    mergeRecord fields record = overlay fields record := by
  rw [mergeRecord, foldl_mergeField [] fields record nodupFields nodup (by simp)]
  simp [overlay]

private theorem name_pick (fields : List MergedField) (f : MergedField) :
    ((fields.find? fun g => g.name == f.name).getD f).name = f.name := by
  cases h : fields.find? fun g => g.name == f.name with
  | none => rfl
  | some g => simpa using List.find?_some h

/-- What is laid over a record has the names of the record first. -/
theorem names_overlay (fields record : List MergedField) :
    (overlay fields record).map MergedField.name =
      record.map MergedField.name ++
        (fields.map MergedField.name).removeAll (record.map MergedField.name) := by
  have hpick : MergedField.name ∘ (fun f => (fields.find? fun g => g.name == f.name).getD f) =
      MergedField.name := funext (name_pick fields)
  rw [overlay, List.map_append, List.map_map, hpick, List.removeAll, List.filter_map]
  congr 3
  funext g
  rw [Function.comp_apply, Bool.eq_iff_iff]
  simp

/-- Look-up prefers the nearer description. -/
theorem find?_overlay (fields record : List MergedField) (name : String) :
    ((overlay fields record).find? fun g => g.name == name) =
      (fields.find? fun g => g.name == name).or (record.find? fun g => g.name == name) := by
  have hpick : (fun f : MergedField =>
      ((fields.find? fun g => g.name == f.name).getD f).name == name) =
        fun f => f.name == name := by
    funext f
    rw [name_pick]
  rw [overlay, List.find?_append, List.find?_map, Function.comp_def, hpick]
  cases hrec : record.find? fun g => g.name == name with
  | some f =>
    have hname : f.name = name := by simpa using List.find?_some hrec
    rw [Option.map_some, Option.some_or, hname]
    cases fields.find? fun g => g.name == name <;> rfl
  | none =>
    rw [Option.map_none, Option.none_or, Option.or_none, List.find?_filter]
    congr 1
    funext g
    by_cases hg : g.name = name
    · have hany : (record.any fun f => f.name == g.name) = false := by
        rw [List.any_eq_false]
        intro f hf
        rw [hg]
        exact List.find?_eq_none.mp hrec f hf
      rw [hany, hg]
      simp
    · simp [hg]

/-- What is laid over a record has distinct names where both have. -/
theorem nodup_names_overlay {fields record : List MergedField}
    (nodupFields : (fields.map MergedField.name).Nodup)
    (nodup : (record.map MergedField.name).Nodup) :
    ((overlay fields record).map MergedField.name).Nodup := by
  rw [names_overlay, List.nodup_append]
  refine ⟨nodup, nodupFields.sublist List.filter_sublist, ?_⟩
  intro a ha b hb he
  subst he
  simpa [ha] using (List.mem_filter.mp hb).2

/-! ## Storing by name -/

/-- The table of fields that were stored under their names one after the other. -/
def byName (fields : List MergedField) : Table MergedField :=
  Table.ofList (fields.map fun f => (f.name, f))

private theorem names_keyed (fields : List MergedField) :
    (fields.map fun f => (f.name, f)).map Prod.fst = fields.map MergedField.name := by
  rw [List.map_map]
  rfl

private theorem lookup_keyed (fields : List MergedField) (name : String) :
    Table.lookup name (fields.map fun f => (f.name, f)) =
      fields.find? fun f => f.name == name := by
  induction fields with
  | nil => rfl
  | cons f fields ih =>
    by_cases h : f.name = name <;> simp [Table.lookup, h, ih]

private theorem keys_byName (fields : List MergedField) :
    (byName fields).keys = (fields.map MergedField.name).eraseDups := by
  rw [byName, Table.keys_ofList, names_keyed]

private theorem byName_append (fields others : List MergedField) :
    byName (fields ++ others) =
      (byName fields).insertAll (others.map fun f => (f.name, f)) := by
  rw [byName, List.map_append]
  exact Table.insertAll_append ∅ _ _

/-- A list of fields that have distinct names is stored as it is. -/
private theorem values_byName {fields : List MergedField}
    (nodup : (fields.map MergedField.name).Nodup) : (byName fields).values = fields := by
  have hkeys : ((fields.map fun f => (f.name, f)).map Prod.fst).Nodup := by rwa [names_keyed]
  rw [byName, Table.ofList_of_nodup _ hkeys, Table.values, List.map_map]
  exact List.map_id _

private theorem get?_byName {fields : List MergedField}
    (nodup : (fields.map MergedField.name).Nodup) (name : String) :
    (byName fields).get? name = fields.find? fun f => f.name == name := by
  have hkeys : ((fields.map fun f => (f.name, f)).map Prod.fst).Nodup := by rwa [names_keyed]
  rw [byName, Table.ofList_of_nodup _ hkeys]
  exact lookup_keyed fields name

/-- Storing a record and then the nearer fields is storing what is laid over the record. -/
theorem byName_append_eq_overlay {fields record : List MergedField}
    (nodupFields : (fields.map MergedField.name).Nodup)
    (nodup : (record.map MergedField.name).Nodup) :
    byName (record ++ fields) = byName (overlay fields record) := by
  have hkeyed : ((fields.map fun f => (f.name, f)).map Prod.fst).Nodup := by rwa [names_keyed]
  have hoverlay := nodup_names_overlay nodupFields nodup
  apply Table.ext_get?
  · have hrest : ((fields.map MergedField.name).removeAll (record.map MergedField.name)).Nodup :=
      nodupFields.sublist List.filter_sublist
    rw [keys_byName, keys_byName, Table.eraseDups_of_nodup _ hoverlay, names_overlay,
      List.map_append, List.eraseDups_append, Table.eraseDups_of_nodup _ nodup,
      Table.eraseDups_of_nodup _ hrest]
  · intro name
    rw [byName_append, Table.get?_insertAll _ _ _ hkeyed, lookup_keyed, get?_byName nodup,
      get?_byName hoverlay, find?_overlay]

private theorem entries_byName {fields : List MergedField}
    (nodup : (fields.map MergedField.name).Nodup) :
    (byName fields).entries = fields.map fun f => (f.name, f) := by
  have hkeys : ((fields.map fun f => (f.name, f)).map Prod.fst).Nodup := by rwa [names_keyed]
  rw [byName, Table.ofList_of_nodup _ hkeys]

/-- The same, after whatever was stored before. -/
theorem byName_append_append {fields record : List MergedField} (before : List MergedField)
    (nodupFields : (fields.map MergedField.name).Nodup)
    (nodup : (record.map MergedField.name).Nodup) :
    byName (before ++ overlay fields record) = byName (before ++ (record ++ fields)) := by
  have hoverlay := nodup_names_overlay nodupFields nodup
  rw [byName_append, byName_append, ← entries_byName hoverlay,
    ← byName_append_eq_overlay nodupFields nodup]
  exact Table.insertAll_entries_insertAll (byName before) ∅ _

/-! ## All records -/

private theorem merge_cons (own record : List MergedField) (records : List (List MergedField))
    (nodupOwn : (own.map MergedField.name).Nodup)
    (nodup : (record.map MergedField.name).Nodup) :
    merge own (record :: records) = merge (overlay own record) records := by
  rw [merge, List.foldl_cons, mergeRecord_eq_overlay own record nodupOwn nodup]
  rfl

/-- Merging the records of the ancestors, nearest first, leaves what a table holds in which the
furthest record, the nearer ones, and the fields of the class were stored in this order. -/
theorem merge_eq_values_byName (own : List MergedField) (records : List (List MergedField))
    (nodupOwn : (own.map MergedField.name).Nodup)
    (nodup : ∀ record ∈ records, (record.map MergedField.name).Nodup) :
    merge own records = (byName (records.reverse.flatten ++ own)).values := by
  induction records generalizing own with
  | nil => simp [merge, values_byName nodupOwn]
  | cons record records ih =>
    have hrecord := nodup record List.mem_cons_self
    have hown := nodup_names_overlay nodupOwn hrecord
    rw [merge_cons own record records nodupOwn hrecord,
      ih _ hown (fun r hr => nodup r (List.mem_cons_of_mem _ hr)),
      byName_append_append _ nodupOwn hrecord]
    simp

private theorem find?_eraseP_ne {name other : String} (ne : name ≠ other)
    (fields : List MergedField) :
    ((fields.eraseP fun g => g.name == name).find? fun g => g.name == other) =
      fields.find? fun g => g.name == other := by
  induction fields with
  | nil => rfl
  | cons g fields ih =>
    by_cases h : g.name = name
    · have hother : (g.name == other) = false := by simpa [h] using ne
      rw [List.eraseP_cons_of_pos (by simpa using h), List.find?_cons, hother]
    · rw [List.eraseP_cons_of_neg (by simpa using h), List.find?_cons, List.find?_cons, ih]

/-- A recorded field counts for look-up only where nothing else has its name. -/
private theorem find?_mergeField (inherited rest : List MergedField) (f : MergedField)
    (name : String) :
    (((mergeField (inherited, rest) f).1 ++ (mergeField (inherited, rest) f).2).find?
        fun g => g.name == name) =
      (inherited ++ rest ++ [f]).find? fun g => g.name == name := by
  have hlast : f.name ≠ name → ([f].find? fun g => g.name == name) = none := by
    intro h
    simpa using h
  cases hfind : rest.find? fun g => g.name == f.name with
  | some nearer =>
    simp only [mergeField, hfind, List.find?_append]
    by_cases h : f.name = name
    · have hnearer : nearer.name = name := by simpa [h] using List.find?_some hfind
      rw [h] at hfind
      simp [hfind, hnearer]
    · have hnearer : nearer.name ≠ name := by
        have he : nearer.name = f.name := by simpa using List.find?_some hfind
        rwa [he]
      rw [hlast h, find?_eraseP_ne h]
      simp [hnearer]
  | none =>
    cases hany : inherited.any fun g => g.name == f.name with
    | true =>
      simp only [mergeField, hfind, hany, if_true, List.find?_append]
      by_cases h : f.name = name
      · rw [h, ← List.isSome_find?] at hany
        obtain ⟨g, hg⟩ := Option.isSome_iff_exists.mp hany
        simp [hg]
      · rw [hlast h, Option.or_none]
    | false =>
      simp only [mergeField, hfind, hany, Bool.false_eq_true, if_false, List.find?_append]
      by_cases h : f.name = name
      · rw [h] at hfind
        rw [hfind, Option.or_none, Option.or_none]
      · rw [hlast h, Option.or_none, Option.or_none]

private theorem find?_foldl_mergeField (record : List MergedField)
    (state : List MergedField × List MergedField) (name : String) :
    (((record.foldl mergeField state).1 ++ (record.foldl mergeField state).2).find?
        fun g => g.name == name) =
      (state.1 ++ state.2 ++ record).find? fun g => g.name == name := by
  induction record generalizing state with
  | nil => rw [List.foldl_nil, List.append_nil]
  | cons f record ih =>
    rw [List.foldl_cons, ih, List.find?_append, find?_mergeField, ← List.find?_append,
      List.append_assoc]
    rfl

/-- Look-up in the merged fields finds the description of the nearest class. -/
theorem find?_merge (own : List MergedField) (records : List (List MergedField)) (name : String) :
    ((merge own records).find? fun f => f.name == name) =
      (own ++ records.flatten).find? fun f => f.name == name := by
  induction records generalizing own with
  | nil => simp [merge]
  | cons record records ih =>
    have hrecord : ((mergeRecord own record).find? fun f => f.name == name) =
        (own ++ record).find? fun f => f.name == name :=
      find?_foldl_mergeField record ([], own) name
    rw [merge, List.foldl_cons, ← merge, ih, List.find?_append, hrecord, ← List.find?_append,
      List.append_assoc, List.flatten_cons]

private theorem name_of_mem_byName (fields : List MergedField) :
    ∀ e ∈ (byName fields).entries, e.2.name = e.1 := by
  have hall : ∀ (t : Table MergedField) (fs : List MergedField),
      (∀ e ∈ t.entries, e.2.name = e.1) →
      ∀ e ∈ (t.insertAll (fs.map fun f => (f.name, f))).entries, e.2.name = e.1 := by
    intro t fs
    induction fs generalizing t with
    | nil => exact fun h => h
    | cons f fs ih =>
      intro h
      apply ih (t.insert f.name f)
      rintro ⟨k, g⟩ hg
      rw [Table.mem_entries_iff, Table.get?_insert] at hg
      by_cases hk : f.name = k
      · rw [if_pos hk] at hg
        cases hg
        exact hk
      · rw [if_neg hk] at hg
        exact h (k, g) ((Table.mem_entries_iff _ _ _).mpr hg)
  exact hall ∅ fields (by simp)

/-- The merged names stand in the order in which they first occur from the furthest record on. -/
theorem names_merge (own : List MergedField) (records : List (List MergedField))
    (nodupOwn : (own.map MergedField.name).Nodup)
    (nodup : ∀ record ∈ records, (record.map MergedField.name).Nodup) :
    (merge own records).map MergedField.name =
      ((records.reverse.flatten ++ own).map MergedField.name).eraseDups := by
  rw [merge_eq_values_byName own records nodupOwn nodup, ← keys_byName, Table.values, Table.keys,
    List.map_map]
  exact List.map_congr_left (name_of_mem_byName _)

/-! ## What merging adds -/

private theorem perm_find?_eraseP (name : String) (rest : List MergedField) :
    ((rest.find? fun g => g.name == name).toList ++ rest.eraseP fun g => g.name == name).Perm
      rest := by
  induction rest with
  | nil => exact .nil
  | cons g rest ih =>
    by_cases h : g.name = name
    · simp only [List.find?_cons, List.eraseP_cons, h, beq_self_eq_true, cond_true,
        Option.toList_some, List.singleton_append]
      exact .refl _
    · have hne : (g.name == name) = false := by simpa using h
      simp only [List.find?_cons, List.eraseP_cons, hne, cond_false]
      exact List.perm_middle.trans (ih.cons g)

private theorem names_eraseP (name : String) (rest : List MergedField) :
    (rest.eraseP fun g => g.name == name).map MergedField.name =
      (rest.map MergedField.name).erase name := by
  rw [List.erase_eq_eraseP', List.eraseP_map]
  rfl

private theorem any_name (fields : List MergedField) (name : String) :
    (fields.any fun g => g.name == name) = (fields.map MergedField.name).contains name := by
  rw [List.contains_eq_any_beq, List.any_map]
  congr 1
  funext g
  rw [Function.comp_apply, BEq.comm]

private theorem isSome_find?_name (fields : List MergedField) (name : String) :
    (fields.find? fun g => g.name == name).isSome =
      (fields.map MergedField.name).contains name := by
  rw [List.isSome_find?, any_name]

/-- The names of both parts of the state of the loop over a record. -/
private def stateNames (state : List MergedField × List MergedField) : List String × List String :=
  (state.1.map MergedField.name, state.2.map MergedField.name)

/-- What one recorded field does to the names, and whether it is added, follows from the names
that are there: it is added where none is its own. -/
private theorem mergeField_step (f : MergedField) (names : List String × List String) :
    ∃ after added, added ⊆ [f] ∧ (∀ g ∈ added, g.name ∉ names.1 ++ names.2) ∧
      names.1 ++ names.2 ⊆ after.1 ++ after.2 ∧ ∀ state, stateNames state = names →
        stateNames (mergeField state f) = after ∧
          ((mergeField state f).1 ++ (mergeField state f).2).Perm
            (state.1 ++ state.2 ++ added) := by
  by_cases hrest : names.2.contains f.name = true
  · refine ⟨(names.1 ++ [f.name], names.2.erase f.name), [], List.nil_subset _, by simp, ?_, ?_⟩
    · intro name hname
      by_cases hn : name = f.name
      · simp [hn]
      · simpa [List.mem_erase_of_ne hn, hn] using hname
    · rintro ⟨inherited, rest⟩ rfl
      have hsome := isSome_find?_name rest f.name
      rw [show (rest.map MergedField.name).contains f.name = true from hrest,
        Option.isSome_iff_exists] at hsome
      obtain ⟨nearer, hfind⟩ := hsome
      have hname : nearer.name = f.name := by simpa using List.find?_some hfind
      have hperm := perm_find?_eraseP f.name rest
      rw [hfind, Option.toList_some] at hperm
      simp only [mergeField, hfind, stateNames]
      constructor
      · rw [List.map_append, List.map_singleton, hname, names_eraseP]
      · rw [List.append_nil, List.append_assoc]
        exact hperm.append_left inherited
  · have hnone : ∀ rest : List MergedField, rest.map MergedField.name = names.2 →
        (rest.find? fun g => g.name == f.name) = none := by
      intro rest h
      rw [← Option.not_isSome_iff_eq_none, isSome_find?_name, h]
      exact hrest
    by_cases hinherited : names.1.contains f.name = true
    · refine ⟨names, [], List.nil_subset _, by simp, List.Subset.refl _, ?_⟩
      rintro ⟨inherited, rest⟩ h
      subst h
      have hany : (inherited.any fun g => g.name == f.name) = true := by
        rw [any_name]
        exact hinherited
      rw [mergeField, hnone rest rfl, if_pos hany, List.append_nil]
      exact ⟨rfl, .refl _⟩
    · refine ⟨(names.1 ++ [f.name], names.2), [f], List.Subset.refl _, ?_, ?_, ?_⟩
      · intro g hg
        rw [List.mem_singleton.mp hg, List.mem_append, not_or]
        exact ⟨by simpa using hinherited, by simpa using hrest⟩
      · intro name hname
        rcases List.mem_append.mp hname with hname | hname
        · exact List.mem_append_left _ (List.mem_append_left _ hname)
        · exact List.mem_append_right _ hname
      · rintro ⟨inherited, rest⟩ h
        subst h
        have hany : (inherited.any fun g => g.name == f.name) = false := by
          rw [any_name]
          exact Bool.eq_false_iff.mpr hinherited
        simp only [mergeField, hnone rest rfl, hany, Bool.false_eq_true, if_false, stateNames]
        constructor
        · rw [List.map_append, List.map_singleton]
        · rw [List.append_assoc, List.append_assoc]
          exact List.perm_append_comm.append_left inherited

private theorem foldl_mergeField_perm (record : List MergedField)
    (names : List String × List String) :
    ∃ after added, added ⊆ record ∧ (∀ g ∈ added, g.name ∉ names.1 ++ names.2) ∧
      names.1 ++ names.2 ⊆ after.1 ++ after.2 ∧ ∀ state, stateNames state = names →
        stateNames (record.foldl mergeField state) = after ∧
          ((record.foldl mergeField state).1 ++ (record.foldl mergeField state).2).Perm
            (state.1 ++ state.2 ++ added) := by
  induction record generalizing names with
  | nil =>
    exact ⟨names, [], List.nil_subset _, by simp, List.Subset.refl _,
      fun state h => ⟨h, by rw [List.append_nil]; rfl⟩⟩
  | cons f record ih =>
    obtain ⟨between, added, hadded, hnew, hgrow, hstep⟩ := mergeField_step f names
    obtain ⟨after, added', hadded', hnew', hgrow', hrest⟩ := ih between
    refine ⟨after, added ++ added', ?_, ?_, List.Subset.trans hgrow hgrow', ?_⟩
    · apply List.append_subset.mpr
      constructor
      · exact fun g hg => List.mem_cons.mpr (.inl (List.mem_singleton.mp (hadded hg)))
      · exact fun g hg => List.mem_cons_of_mem _ (hadded' hg)
    · intro g hg
      rcases List.mem_append.mp hg with hg | hg
      · exact hnew g hg
      · exact fun h => hnew' g hg (hgrow h)
    · intro state h
      obtain ⟨hnames, hperm⟩ := hstep state h
      obtain ⟨hnames', hperm'⟩ := hrest _ hnames
      rw [List.foldl_cons, ← List.append_assoc]
      exact ⟨hnames', hperm'.trans (hperm.append_right added')⟩

/-- Merging keeps every field of the class and adds recorded fields under other names, which
depend only on the names that the class has. -/
theorem merge_perm (records : List (List MergedField)) (names : List String) :
    ∃ added, added ⊆ records.flatten ∧ (∀ g ∈ added, g.name ∉ names) ∧
      ∀ own : List MergedField, own.map MergedField.name = names →
        (merge own records).Perm (own ++ added) := by
  induction records generalizing names with
  | nil => exact ⟨[], List.nil_subset _, by simp, fun own _ => by rw [List.append_nil]; rfl⟩
  | cons record records ih =>
    obtain ⟨after, added, hadded, hnew, hgrow, hrecord⟩ := foldl_mergeField_perm record ([], names)
    obtain ⟨added', hadded', hnew', hrest⟩ := ih (after.1 ++ after.2)
    refine ⟨added ++ added', ?_, ?_, ?_⟩
    · rw [List.flatten_cons]
      apply List.append_subset.mpr
      constructor
      · exact fun g hg => List.mem_append_left _ (hadded hg)
      · exact fun g hg => List.mem_append_right _ (hadded' hg)
    · intro g hg
      rcases List.mem_append.mp hg with hg | hg
      · exact hnew g hg
      · exact fun h => hnew' g hg (hgrow h)
    · intro own h
      obtain ⟨hnames, hperm⟩ := hrecord ([], own) (by rw [stateNames, h]; rfl)
      have hmerged := hrest (mergeRecord own record) (by
        rw [← hnames, mergeRecord, List.map_append]
        rfl)
      rw [merge, List.foldl_cons, ← List.append_assoc]
      exact hmerged.trans (hperm.append_right added')

private theorem count_mergeField (state : List MergedField × List MergedField) (f : MergedField)
    (name : String) :
    (((mergeField state f).1 ++ (mergeField state f).2).map MergedField.name).count name =
      max (((state.1 ++ state.2).map MergedField.name).count name)
        (if f.name = name then 1 else 0) := by
  obtain ⟨inherited, rest⟩ := state
  have hany := any_name inherited f.name
  have hsome := isSome_find?_name rest f.name
  -- A name that is there already counts at least once.
  have hpresent : f.name ∈ (inherited ++ rest).map MergedField.name → f.name = name →
      1 ≤ ((inherited ++ rest).map MergedField.name).count name := by
    rintro h rfl
    exact List.count_pos_iff.mpr h
  cases hfind : rest.find? fun g => g.name == f.name with
  | some nearer =>
    have hperm := perm_find?_eraseP f.name rest
    rw [hfind, Option.toList_some] at hperm
    have hcount := ((hperm.append_left inherited).map MergedField.name).count_eq name
    rw [hfind, Option.isSome_some, eq_comm, List.contains_iff_mem] at hsome
    rw [List.map_append] at hpresent
    have hone := hpresent (List.mem_append_right _ hsome)
    rw [← List.map_append] at hone
    simp only [mergeField, hfind, List.append_assoc]
    rw [hcount]
    split
    · next h => have := hone h; omega
    · omega
  | none =>
    rw [hfind, Option.isSome_none] at hsome
    cases hin : (inherited.any fun g => g.name == f.name) with
    | true =>
      rw [hin, eq_comm, List.contains_iff_mem] at hany
      rw [List.map_append] at hpresent
      have hone := hpresent (List.mem_append_left _ hany)
      rw [← List.map_append] at hone
      simp only [mergeField, hfind, hin, if_true]
      split
      · next h => have := hone h; omega
      · omega
    | false =>
      have hnew : f.name ∉ (inherited ++ rest).map MergedField.name := by
        rw [List.map_append, List.mem_append, not_or, ← List.contains_iff_mem,
          ← List.contains_iff_mem, ← hany, ← hsome, hin]
        simp
      simp only [mergeField, hfind, hin, Bool.false_eq_true, if_false]
      by_cases h : f.name = name
      · subst h
        have hzero := List.count_eq_zero.mpr hnew
        simp only [List.map_append, List.count_append] at hzero ⊢
        simp [hzero]
        omega
      · simp [h]

private theorem count_foldl_mergeField (state : List MergedField × List MergedField)
    (record : List MergedField) (name : String) :
    (((record.foldl mergeField state).1 ++ (record.foldl mergeField state).2).map
        MergedField.name).count name =
      max (((state.1 ++ state.2).map MergedField.name).count name)
        (if name ∈ record.map MergedField.name then 1 else 0) := by
  induction record generalizing state with
  | nil => simp
  | cons f record ih =>
    rw [List.foldl_cons, ih, count_mergeField, List.map_cons]
    by_cases h : f.name = name
    · rw [if_pos h, if_pos (List.mem_cons.mpr (.inl h.symm))]
      split <;> omega
    · have h' : name ∈ f.name :: record.map MergedField.name ↔
          name ∈ record.map MergedField.name := by
        rw [List.mem_cons, or_iff_right (Ne.symm h)]
      rw [if_neg h, Nat.max_zero]
      simp only [h']

/-- A name occurs among the merged fields as often as among those of the class itself, but at
least once where a record has it. -/
theorem count_merge (own : List MergedField) (records : List (List MergedField)) (name : String) :
    ((merge own records).map MergedField.name).count name =
      max ((own.map MergedField.name).count name)
        (if name ∈ records.flatten.map MergedField.name then 1 else 0) := by
  induction records generalizing own with
  | nil => simp [merge]
  | cons record records ih =>
    have hrecord : ((mergeRecord own record).map MergedField.name).count name =
        max ((own.map MergedField.name).count name)
          (if name ∈ record.map MergedField.name then 1 else 0) :=
      count_foldl_mergeField ([], own) record name
    rw [merge, List.foldl_cons, ← merge, ih, hrecord, List.flatten_cons, List.map_append]
    by_cases h : name ∈ record.map MergedField.name
    · rw [if_pos h, if_pos (List.mem_append_left _ h)]
      split <;> omega
    · rw [if_neg h, Nat.max_zero]
      simp only [List.mem_append, h, false_or]

/-- The merged names are those of the class itself and of the records. -/
theorem mem_names_merge_iff {own : List MergedField} {records : List (List MergedField)}
    {name : String} :
    name ∈ (merge own records).map MergedField.name ↔
      name ∈ own.map MergedField.name ∨
        ∃ record ∈ records, name ∈ record.map MergedField.name := by
  have hrecords : (∃ record ∈ records, name ∈ record.map MergedField.name) ↔
      name ∈ records.flatten.map MergedField.name := by
    rw [List.map_flatten, List.mem_flatten]
    constructor
    · rintro ⟨record, hrecord, h⟩
      exact ⟨_, List.mem_map_of_mem hrecord, h⟩
    · rintro ⟨_, hmem, h⟩
      obtain ⟨record, hrecord, rfl⟩ := List.mem_map.mp hmem
      exact ⟨record, hrecord, h⟩
  rw [hrecords, ← List.count_pos_iff, count_merge, ← List.count_pos_iff (l := own.map _)]
  by_cases h : name ∈ records.flatten.map MergedField.name
  · rw [if_pos h]
    exact iff_of_true (by omega) (.inr h)
  · rw [if_neg h, Nat.max_zero, or_iff_left h]

/-! ## The ancestors that have a record -/

/-- The classes of a list that are registered and have a record, each with its record. -/
def recorded (v : Vocabulary) (r : Registry) (ids : List ClassId) : List (ClassDecl × Record) :=
  ids.filterMap fun id =>
    (r.get? id).bind fun c =>
      match c.record? v.recordKey with
      | .ok (some record) => some (c, record)
      | _ => none

theorem mem_recorded {v : Vocabulary} {r : Registry} {ids : List ClassId}
    {e : ClassDecl × Record} :
    e ∈ recorded v r ids ↔
      ∃ a ∈ ids, r.get? a = some e.1 ∧ e.1.record? v.recordKey = .ok (some e.2) := by
  rw [recorded, List.mem_filterMap]
  apply exists_congr
  intro a
  apply and_congr_right
  intro _
  constructor
  · intro h
    obtain ⟨c, hc, h⟩ := Option.bind_eq_some_iff.mp h
    split at h
    · next record hrecord =>
      cases h
      exact ⟨hc, hrecord⟩
    · cases h
  · rintro ⟨hc, hrecord⟩
    rw [hc, Option.bind_some, hrecord]

/-- An ancestor contributes the fields of its record, and nothing without one. -/
private theorem contribution?_ok {v : Vocabulary} {r : Registry} {id : ClassId}
    {k : Option Contribution} (h : contribution? v r id = .ok k) :
    k.toList.map (fun k => (k.owner, k.fields.map MergedField.field)) =
      (recorded v r [id]).map fun a => (a.1.fullname, a.2.fields) := by
  unfold contribution? at h
  cases hc : r.get? id with
  | none =>
    rw [hc] at h
    cases h
    simp [recorded, hc]
  | some c =>
    rw [hc] at h
    cases hrec : c.record? v.recordKey with
    | error failure => simp [hrec] at h
    | ok found =>
      cases found with
      | none =>
        simp only [hrec] at h
        split at h
        · cases h
        · cases h
          simp [recorded, hc, hrec]
      | some record =>
        simp only [hrec] at h
        cases h
        have hfield : MergedField.field ∘ inherit r id = fun f => f := rfl
        simp [recorded, hc, hrec, hfield]

/-- The first ancestor that stops the merging stops it for all. -/
theorem contributions_cons (v : Vocabulary) (r : Registry) (id : ClassId) (ids : List ClassId) :
    contributions v r (id :: ids) =
      match contribution? v r id with
      | .error halt => .error halt
      | .ok k => (contributions v r ids).map fun found => k.toList ++ found := by
  rw [contributions, contributions, List.mapM_cons]
  cases contribution? v r id with
  | error halt => rfl
  | ok k =>
    cases ids.mapM (contribution? v r) with
    | error halt => rfl
    | ok found => cases k <;> rfl

theorem contributions_cons_ok {v : Vocabulary} {r : Registry} {id : ClassId} {ids : List ClassId}
    {found : List Contribution} (h : contributions v r (id :: ids) = .ok found) :
    ∃ k rest, contribution? v r id = .ok k ∧ contributions v r ids = .ok rest ∧
      found = k.toList ++ rest := by
  rw [contributions_cons] at h
  cases hk : contribution? v r id with
  | error halt => simp [hk] at h
  | ok k =>
    cases hrest : contributions v r ids with
    | error halt => simp [hk, hrest, Except.map] at h
    | ok rest =>
      simp only [hk, hrest, Except.map, Except.ok.injEq] at h
      exact ⟨k, rest, rfl, rfl, h.symm⟩

/-- What the ancestors contribute is what they have recorded. -/
theorem contributions_ok {v : Vocabulary} {r : Registry} {ids : List ClassId}
    {found : List Contribution} (h : contributions v r ids = .ok found) :
    found.map (fun k => (k.owner, k.fields.map MergedField.field)) =
      (recorded v r ids).map fun a => (a.1.fullname, a.2.fields) := by
  induction ids generalizing found with
  | nil =>
    cases h
    rfl
  | cons id ids ih =>
    obtain ⟨k, rest, hk, hrest, rfl⟩ := contributions_cons_ok h
    have hsplit : recorded v r ([id] ++ ids) = recorded v r [id] ++ recorded v r ids :=
      List.filterMap_append
    rw [List.map_append, contribution?_ok hk, ih hrest, ← List.map_append, ← hsplit]
    rfl

/-- What is contributed comes from one of the ancestors. -/
theorem exists_contribution? {v : Vocabulary} {r : Registry} {ids : List ClassId}
    {found : List Contribution} (h : contributions v r ids = .ok found) {k : Contribution}
    (hk : k ∈ found) : ∃ id ∈ ids, contribution? v r id = .ok (some k) := by
  induction ids generalizing found with
  | nil =>
    cases h
    cases hk
  | cons id ids ih =>
    obtain ⟨first, rest, hfirst, hrest, rfl⟩ := contributions_cons_ok h
    rcases List.mem_append.mp hk with hk | hk
    · exact ⟨id, List.mem_cons_self, by rw [hfirst, Option.mem_toList.mp hk]⟩
    · obtain ⟨a, ha, hcontribution⟩ := ih hrest hk
      exact ⟨a, List.mem_cons_of_mem _ ha, hcontribution⟩

/-- An ancestor contributes fields as they are inherited from it. -/
theorem exists_inherit_of_contribution? {v : Vocabulary} {r : Registry} {id : ClassId}
    {k : Contribution} (h : contribution? v r id = .ok (some k)) :
    ∃ fields : List Field, k.fields = fields.map (inherit r id) := by
  unfold contribution? at h
  split at h
  · cases h
  · split at h
    · cases h
    · next record _ =>
      cases h
      exact ⟨record.fields, rfl⟩
    · split at h <;> cases h

/-! ## The whole collection -/

/-- Fields that are ready were gathered. -/
theorem gather_of_collect {v : Vocabulary} {r : Registry} {id : ClassId} {mro : List ClassId}
    {own : Except Deferral (List Field)} {m : Collection}
    (h : collect v r id mro own = .ok m) : gather v r mro own = .ok m := by
  unfold collect at h
  split at h
  · cases h
  · next m' hm' =>
    split at h
    · cases h
    · cases h
      exact hm'

/-- A field of the class itself, as it enters the merging. -/
def ofOwn (f : Field) : MergedField := { field := f }

/-- What is gathered are the fields of the class, merged with what its ancestors contribute. -/
theorem gather_ok {v : Vocabulary} {r : Registry} {mro : List ClassId}
    {own : List Field} {m : Collection} (h : gather v r mro (.ok own) = .ok m) :
    ∃ found, contributions v r (interior mro) = .ok found ∧
      m.fields = merge (own.map ofOwn) (found.map Contribution.fields) ∧
      m.dependencies = found.map Contribution.owner := by
  unfold gather at h
  cases hfound : contributions v r (interior mro) with
  | error halt => simp [hfound] at h
  | ok found =>
    simp only [hfound, Except.ok.injEq] at h
    subst h
    exact ⟨found, rfl, rfl, rfl⟩

/-- A field of the class itself keeps its name. -/
theorem names_ofOwn (own : List Field) :
    (own.map ofOwn).map MergedField.name = own.map Field.name := by
  rw [List.map_map]
  rfl

/-- A field of the class itself keeps its description. -/
theorem field_ofOwn (own : List Field) :
    (own.map ofOwn).map MergedField.field = own := by
  rw [List.map_map]
  exact List.map_id _

/-- Gathering keeps every field of the class itself, and all other fields are recorded ones
under other names. -/
theorem mem_plain_of_gather {v : Vocabulary} {r : Registry} {mro : List ClassId}
    {own : List Field} {m : Collection} (h : gather v r mro (.ok own) = .ok m) :
    (∀ f ∈ own, f ∈ m.plain) ∧ ∀ f ∈ m.plain, f ∈ own ∨
      f.name ∉ own.map Field.name ∧ ∃ a ∈ recorded v r (interior mro), f ∈ a.2.fields := by
  obtain ⟨found, hfound, hfields, -⟩ := gather_ok h
  have hpairs := contributions_ok hfound
  have hrecords : (found.map Contribution.fields).map (List.map MergedField.field) =
      (recorded v r (interior mro)).map fun a => a.2.fields := by
    simpa [Function.comp_def] using congrArg (List.map Prod.snd) hpairs
  obtain ⟨added, hadded, hnew, hperm⟩ := merge_perm (found.map Contribution.fields)
    (own.map Field.name)
  have hplain : m.plain.Perm (own ++ added.map MergedField.field) := by
    have hmap := (hperm _ (names_ofOwn own)).map MergedField.field
    rwa [← hfields, List.map_append, field_ofOwn] at hmap
  constructor
  · exact fun f hf => hplain.mem_iff.mpr (List.mem_append_left _ hf)
  · intro f hf
    rcases List.mem_append.mp (hplain.mem_iff.mp hf) with hf | hf
    · exact .inl hf
    · obtain ⟨g, hg, rfl⟩ := List.mem_map.mp hf
      obtain ⟨record, hrecord, hmem⟩ := List.mem_flatten.mp (hadded hg)
      have hin : record.map MergedField.field ∈
          (recorded v r (interior mro)).map fun a => a.2.fields :=
        hrecords ▸ List.mem_map_of_mem hrecord
      obtain ⟨a, ha, he⟩ := List.mem_map.mp hin
      exact .inr ⟨hnew g hg, a, ha, he ▸ List.mem_map_of_mem hmem⟩

/-- A name occurs among the gathered fields as often as among those of the class itself, or once
where only a record has it. -/
theorem count_plain_of_gather {v : Vocabulary} {r : Registry} {mro : List ClassId}
    {own : List Field} {m : Collection} (h : gather v r mro (.ok own) = .ok m) (name : String) :
    (own.map Field.name).count name ≤ (m.plain.map Field.name).count name ∧
      (m.plain.map Field.name).count name ≤ max ((own.map Field.name).count name) 1 := by
  obtain ⟨found, -, hfields, -⟩ := gather_ok h
  have hcount := count_merge (own.map ofOwn) (found.map Contribution.fields) name
  rw [names_ofOwn, ← hfields] at hcount
  have hnames : m.plain.map Field.name = m.fields.map MergedField.name := by
    rw [Collection.plain, List.map_map]
    rfl
  rw [hnames, hcount]
  constructor
  · exact Nat.le_max_left _ _
  · split <;> omega

private theorem values_byName_field (fields : List MergedField) :
    (byName fields).values.map MergedField.field =
      (Table.ofList ((fields.map MergedField.field).map fun f => (f.name, f))).values := by
  rw [byName, ← Table.values_ofList_map]
  simp only [List.map_map]
  rfl

/-- Look-up among fields does not depend on the recovered types. -/
theorem find?_field (fields : List MergedField) (name : String) :
    ((fields.map MergedField.field).find? fun f => f.name == name) =
      (fields.find? fun f => f.name == name).map MergedField.field := by
  rw [List.find?_map]
  rfl

/-- An element is found by its name where no other has it. -/
theorem find?_name_of_only {α : Type} {name : α → String} {l : List α} {a : α} (ha : a ∈ l)
    (only : ∀ b ∈ l, name b = name a → b = a) : (l.find? fun b => name b == name a) = some a := by
  cases hfind : l.find? fun b => name b == name a with
  | none => exact absurd (List.find?_eq_none.mp hfind a ha) (by simp)
  | some b => rw [only b (List.mem_of_find?_eq_some hfind) (by simpa using List.find?_some hfind)]

/-- Where a name is given once, it selects the element that has it. -/
theorem filter_name_of_once {α : Type} {name : α → String} {l : List α} {a : α}
    (once : (l.map name).count (name a) ≤ 1) (ha : a ∈ l) :
    (l.filter fun b => name b == name a) = [a] := by
  have hlength : (l.filter fun b => name b == name a).length ≤ 1 := by
    rwa [List.count_eq_countP, List.countP_map, List.countP_eq_length_filter] at once
  have hmem : a ∈ l.filter fun b => name b == name a :=
    List.mem_filter.mpr ⟨ha, beq_self_eq_true _⟩
  obtain ⟨b, hb⟩ := List.length_eq_one_iff.mp
    (Nat.le_antisymm hlength (List.length_pos_of_mem hmem))
  rw [hb, List.mem_singleton] at hmem
  rw [hb, hmem]

/-- Among distinct names, each element is found by its own. -/
theorem find?_name_of_mem {α : Type} {name : α → String} {l : List α} (nodup : (l.map name).Nodup)
    {a : α} (ha : a ∈ l) : (l.find? fun b => name b == name a) = some a :=
  find?_name_of_only ha fun _ hb he => List.inj_on_of_nodup_map nodup hb ha he

theorem mem_iff_find?_name {fields : List Field} (nodup : (fields.map Field.name).Nodup)
    (f : Field) : f ∈ fields ↔ (fields.find? fun g => g.name == f.name) = some f :=
  ⟨find?_name_of_mem nodup, List.mem_of_find?_eq_some⟩

/-- Gathering repeats no name that the class itself does not repeat. -/
theorem nodup_plain_of_gather_iff {v : Vocabulary} {r : Registry} {mro : List ClassId}
    {own : List Field} {m : Collection} (h : gather v r mro (.ok own) = .ok m) :
    (m.plain.map Field.name).Nodup ↔ (own.map Field.name).Nodup := by
  rw [List.nodup_iff_count_le_one, List.nodup_iff_count_le_one]
  refine forall_congr' fun name => ?_
  have hcount := count_plain_of_gather h name
  omega

/-- Look-up in the gathered fields finds the description that comes first, of the class itself or of
the nearest record. -/
theorem find?_plain_of_gather {v : Vocabulary} {r : Registry} {mro : List ClassId}
    {own : List Field} {m : Collection} (h : gather v r mro (.ok own) = .ok m) (name : String) :
    (m.plain.find? fun f => f.name == name) =
      (own ++ (recorded v r (interior mro)).flatMap fun a => a.2.fields).find?
        fun f => f.name == name := by
  obtain ⟨found, hfound, hfields, -⟩ := gather_ok h
  have hrecords : (found.map Contribution.fields).map (List.map MergedField.field) =
      (recorded v r (interior mro)).map fun a => a.2.fields := by
    simpa [Function.comp_def] using congrArg (List.map Prod.snd) (contributions_ok hfound)
  rw [Collection.plain, find?_field, hfields, find?_merge, ← find?_field, List.map_append,
    field_ofOwn, List.map_flatten, hrecords]
  rfl

/-- When the fields of a class are gathered, and neither the class nor a record names a field
twice, the merged list is what an insertion-ordered table holds after the fields of the recorded
ancestors, from the furthest to the nearest, and those of the class itself were stored in it.
The dependencies are these ancestors, nearest first. So the names stand where the furthest
record has them, every description is that of the nearest class, and nothing else is there. -/
theorem gather_eq_stored (v : Vocabulary) (r : Registry) (mro : List ClassId)
    (own : List Field) (m : Collection)
    (ready : gather v r mro (.ok own) = .ok m)
    (distinctOwn : (own.map Field.name).Nodup)
    (distinct : ∀ a ∈ recorded v r (interior mro), (a.2.fields.map Field.name).Nodup) :
    let ancestors := recorded v r (interior mro)
    let layers := ancestors.reverse.flatMap (fun a => a.2.fields) ++ own
    m.plain = (Table.ofList (layers.map fun f => (f.name, f))).values ∧
      m.dependencies = ancestors.map (fun a => a.1.fullname) ∧
      m.plain.map Field.name = (layers.map Field.name).eraseDups ∧
      ∀ f, f ∈ m.plain ↔
        ((own ++ ancestors.flatMap fun a => a.2.fields).find? fun g => g.name == f.name) =
          some f := by
  intro ancestors layers
  obtain ⟨found, hfound, hfields, hdeps⟩ := gather_ok ready
  have hpairs := contributions_ok hfound
  have howners : found.map Contribution.owner = ancestors.map fun a => a.1.fullname := by
    simpa [Function.comp_def] using congrArg (List.map Prod.fst) hpairs
  have hrecords : (found.map Contribution.fields).map (List.map MergedField.field) =
      ancestors.map fun a => a.2.fields := by
    simpa [Function.comp_def] using congrArg (List.map Prod.snd) hpairs
  have hnames : ∀ record ∈ found.map Contribution.fields,
      (record.map MergedField.name).Nodup := by
    intro record hmem
    have hrecord : record.map MergedField.field ∈ ancestors.map fun a => a.2.fields :=
      hrecords ▸ List.mem_map_of_mem hmem
    obtain ⟨a, ha, he⟩ := List.mem_map.mp hrecord
    have := distinct a ha
    rwa [he, List.map_map] at this
  have hown : ((own.map ofOwn).map MergedField.name).Nodup := by rwa [names_ofOwn]
  have hlayers : ((found.map Contribution.fields).reverse.flatten ++ own.map ofOwn).map
      MergedField.field = layers := by
    rw [List.map_append, field_ofOwn, List.map_flatten, List.map_reverse, hrecords,
      ← List.map_reverse]
    rfl
  have hplain : m.plain = (Table.ofList (layers.map fun f => (f.name, f))).values := by
    rw [Collection.plain, hfields, merge_eq_values_byName _ _ hown hnames, values_byName_field,
      hlayers]
  have hplainNames : m.plain.map Field.name = (layers.map Field.name).eraseDups := by
    have h := names_merge _ _ hown hnames
    rw [← hfields] at h
    rw [Collection.plain, ← hlayers, List.map_map, List.map_map]
    exact h
  refine ⟨hplain, hdeps.trans howners, hplainNames, ?_⟩
  intro f
  have hnodup : (m.plain.map Field.name).Nodup := by
    rw [hplainNames]
    exact Table.nodup_eraseDups _
  have hnearest : (own ++ ancestors.flatMap fun a => a.2.fields) =
      (own.map ofOwn ++ (found.map Contribution.fields).flatten).map MergedField.field := by
    rw [List.map_append, field_ofOwn, List.map_flatten, hrecords]
    rfl
  rw [mem_iff_find?_name hnodup, hnearest, find?_field, ← find?_merge, ← hfields,
    Collection.plain, find?_field]

/-- A root, a base, and two classes that each override a field of the base. -/
private def diamond : Registry :=
  let recording (fullname : String) (fields : List Field) : ClassDecl :=
    ({ name := fullname, fullname } : ClassDecl).withRecord "dataclass"
      (Record.ofFields fields false)
  ⟨[{ name := "object", fullname := "object" },
    recording "A" [{ name := "x" }, { name := "y" }],
    recording "B" [{ name := "x" }, { name := "y", hasDefault := true }, { name := "b" }],
    recording "C" [{ name := "x", inInit := false }, { name := "y" }, { name := "c" }]]⟩

theorem gather_eq_stored_diamond :
    gather {} diamond [4, 3, 2, 1, 0] (.ok [{ name := "c", initOnly := true }, { name := "d" }]) =
        .ok
          { fields :=
              [{ field := { name := "x", inInit := false } }, { field := { name := "y" } },
                { field := { name := "b" } }, { field := { name := "c", initOnly := true } },
                { field := { name := "d" } }]
            dependencies := ["C", "B", "A"] } ∧
      ["C", "B", "A"] =
        (recorded {} diamond (interior [4, 3, 2, 1, 0])).map fun a => a.1.fullname := by
  have ready : gather {} diamond [4, 3, 2, 1, 0]
      (.ok [{ name := "c", initOnly := true }, { name := "d" }]) = .ok _ := rfl
  have h := gather_eq_stored {} diamond [4, 3, 2, 1, 0] _ _ ready (by decide) (by decide)
  exact ⟨rfl, h.2.1⟩

end Synthesis

end DataHolder
