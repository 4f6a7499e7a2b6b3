import DataHolder.Table
import Mathlib.Data.List.Induction
import Mathlib.Data.List.Nodup

/-!
# Laws of insertion-ordered tables

A table is determined by its names, in order, and by what look-up finds under them. Storing
a list of entries adds the names that are new in the order of their first occurrence, and
look-up finds the last value given for a name. Storing the entries of a table that was built
from a list is therefore the same as storing that list.
-/

namespace DataHolder

namespace Table

variable {α β : Type}

/-! ## Names and look-up determine a table -/

private theorem entries_eq_of_lookup (es fs : List (String × α))
    (nodup : (es.map Prod.fst).Nodup) (keys : es.map Prod.fst = fs.map Prod.fst)
    (same : ∀ k, lookup k es = lookup k fs) : es = fs := by
  induction es generalizing fs with
  | nil =>
    cases fs with
    | nil => rfl
    | cons f fs => simp at keys
  | cons e es ih =>
    obtain ⟨k, a⟩ := e
    cases fs with
    | nil => simp at keys
    | cons f fs =>
      obtain ⟨k', b⟩ := f
      simp only [List.map_cons, List.cons.injEq] at keys
      obtain ⟨hk, keys⟩ := keys
      subst hk
      simp only [List.map_cons, List.nodup_cons] at nodup
      have hab : a = b := by simpa [lookup] using same k
      have hrest : es = fs := by
        apply ih fs nodup.2 keys
        intro q
        by_cases hq : k = q
        · -- The name in front occurs in neither rest.
          subst hq
          have hes : lookup k es = none := by
            have h := (isSome_lookup_iff k es).not.mpr nodup.1
            simpa using h
          have hfs : lookup k fs = none := by
            have h := (isSome_lookup_iff k fs).not.mpr (keys ▸ nodup.1)
            simpa using h
          rw [hes, hfs]
        · simpa [lookup, hq] using same q
      rw [hab, hrest]

/-- Two tables with the same names in the same order and the same values under them are
equal. -/
theorem ext_get? {t u : Table α} (keys : t.keys = u.keys) (same : ∀ k, t.get? k = u.get? k) :
    t = u :=
  Table.ext (entries_eq_of_lookup t.entries u.entries t.nodup_keys keys same)

theorem get?_eq_none_iff (t : Table α) (key : String) : t.get? key = none ↔ key ∉ t.keys := by
  rw [mem_keys_iff]
  cases t.get? key <;> simp

theorem contains_iff (t : Table α) (key : String) : t.contains key = true ↔ key ∈ t.keys := by
  rw [contains, mem_keys_iff]

theorem mem_keys_insert (t : Table α) (key key' : String) (value : α) :
    key' ∈ (t.insert key value).keys ↔ key' = key ∨ key' ∈ t.keys := by
  rw [mem_keys_iff, get?_insert]
  by_cases h : key = key'
  · simp [h]
  · simp [h, Ne.symm h, mem_keys_iff]

/-- Storing twice under one name keeps the later value. -/
theorem insert_insert (t : Table α) (key : String) (a b : α) :
    (t.insert key a).insert key b = t.insert key b := by
  apply ext_get?
  · rw [keys_insert, keys_insert, keys_insert]
    by_cases h : key ∈ t.keys <;> simp [h]
  · intro k
    simp only [get?_insert]
    by_cases h : key = k <;> simp [h]

/-- Storing under a present name commutes with storing under another name. -/
theorem insert_comm (t : Table α) {key key' : String} (a b : α) (ne : key ≠ key')
    (h : key ∈ t.keys) :
    (t.insert key a).insert key' b = (t.insert key' b).insert key a := by
  apply ext_get?
  · have h' : key ∈ (t.insert key' b).keys := (mem_keys_insert _ _ _ _).mpr (.inr h)
    rw [keys_insert _ key a, if_pos h', keys_insert, keys_insert, if_pos h, keys_insert]
  · intro k
    simp only [get?_insert]
    by_cases hk : key = k
    · subst hk
      simp [Ne.symm ne]
    · simp [hk]

/-- Storing what is there already changes nothing. -/
theorem insert_get? (t : Table α) {key : String} {a : α} (h : t.get? key = some a) :
    t.insert key a = t := by
  apply ext_get?
  · rw [keys_insert, if_pos ((mem_keys_iff t key).mpr (by simp [h]))]
  · intro k
    rw [get?_insert]
    by_cases hk : key = k
    · subst hk
      simp [h]
    · simp [hk]

/-! ## Keeping some entries -/

private theorem lookup_filter (p : String × α → Bool) (key : String) {es : List (String × α)}
    (nodup : (es.map Prod.fst).Nodup) :
    lookup key (es.filter p) = (lookup key es).filter fun a => p (key, a) := by
  induction es with
  | nil => rfl
  | cons e es ih =>
    obtain ⟨k, a⟩ := e
    simp only [List.map_cons, List.nodup_cons] at nodup
    by_cases hk : k = key
    · subst hk
      cases hp : p (k, a) with
      | true => simp [lookup, Option.filter, hp]
      | false =>
        have hes : lookup k es = none := by
          have h := (isSome_lookup_iff k es).not.mpr nodup.1
          simpa using h
        simp [lookup, Option.filter, hp, ih nodup.2, hes]
    · cases hp : p (k, a) <;> simp [lookup, hp, hk, ih nodup.2]

theorem get?_filter (t : Table α) (p : String → α → Bool) (key : String) :
    (t.filter p).get? key = (t.get? key).filter (p key) :=
  lookup_filter (fun e => p e.1 e.2) key t.nodup_keys

/-- Keeping entries keeps the names of those whose values pass the test. -/
theorem keys_filter (t : Table α) (p : String → α → Bool) :
    (t.filter p).keys = t.keys.filter fun key => (t.get? key).any (p key) := by
  rw [keys, keys, filter, List.filter_map]
  congr 1
  apply List.filter_congr
  rintro ⟨key, value⟩ h
  rw [mem_entries_iff] at h
  rw [Function.comp_apply, h]
  rfl

/-- A test on names alone selects the names. -/
theorem keys_filter_key (t : Table α) (p : String → Bool) :
    (t.filter fun k _ => p k).keys = t.keys.filter p := by
  simp only [keys, filter, List.filter_map]
  rfl

/-- What a test on names alone leaves under a name. -/
theorem get?_filter_key (t : Table α) (p : String → Bool) (key : String) :
    (t.filter fun k _ => p k).get? key = if p key then t.get? key else none := by
  rw [get?_filter]
  cases hp : p key with
  | true => cases t.get? key <;> rfl
  | false => cases t.get? key <;> rfl

/-! ## Storing lists of entries -/

/-- Store the entries of a list one after the other. -/
def insertAll (t : Table α) (entries : List (String × α)) : Table α :=
  entries.foldl (fun t e => t.insert e.1 e.2) t

@[simp] theorem insertAll_nil (t : Table α) : t.insertAll [] = t := rfl

@[simp] theorem insertAll_cons (t : Table α) (e : String × α) (es : List (String × α)) :
    t.insertAll (e :: es) = (t.insert e.1 e.2).insertAll es := rfl

theorem insertAll_append (t : Table α) (es fs : List (String × α)) :
    t.insertAll (es ++ fs) = (t.insertAll es).insertAll fs :=
  List.foldl_append

theorem ofList_eq_insertAll (es : List (String × α)) : ofList es = insertAll ∅ es := rfl

theorem mem_keys_insertAll (t : Table α) (es : List (String × α)) (key : String) :
    key ∈ (t.insertAll es).keys ↔ key ∈ t.keys ∨ key ∈ es.map Prod.fst := by
  induction es generalizing t with
  | nil => simp
  | cons e es ih =>
    rw [insertAll_cons, ih, mem_keys_insert, List.map_cons, List.mem_cons]
    tauto

/-- Storing a list of entries leaves the names in the order of their first occurrence. -/
theorem keys_ofList (es : List (String × α)) : (ofList es).keys = (es.map Prod.fst).eraseDups := by
  induction es using List.reverseRecOn with
  | nil => rfl
  | append_singleton es e ih =>
    have hstep : ofList (es ++ [e]) = (ofList es).insert e.1 e.2 := insertAll_append ∅ es [e]
    have hmem : e.1 ∈ (ofList es).keys ↔ e.1 ∈ es.map Prod.fst := by
      rw [ih, List.mem_eraseDups]
    rw [hstep, keys_insert, List.map_append, List.eraseDups_append, ← ih]
    by_cases h : e.1 ∈ es.map Prod.fst
    · rw [if_pos (hmem.mpr h)]
      simp [List.removeAll, h]
    · rw [if_neg (fun h' => h (hmem.mp h'))]
      simp [List.removeAll, h, List.eraseDups_cons]

/-- Names that are not in the list keep their values. -/
theorem get?_insertAll_of_not_mem (t : Table α) {es : List (String × α)} {key : String}
    (h : key ∉ es.map Prod.fst) : (t.insertAll es).get? key = t.get? key := by
  induction es generalizing t with
  | nil => rfl
  | cons e es ih =>
    simp only [List.map_cons, List.mem_cons, not_or] at h
    rw [insertAll_cons, ih _ h.2, get?_insert, if_neg (Ne.symm h.1)]

/-- Names in the list have one of the values given for them. -/
theorem exists_get?_insertAll (t : Table α) {es : List (String × α)} {key : String}
    (h : key ∈ es.map Prod.fst) :
    ∃ value, (key, value) ∈ es ∧ (t.insertAll es).get? key = some value := by
  induction es generalizing t with
  | nil => simp at h
  | cons e es ih =>
    by_cases hrest : key ∈ es.map Prod.fst
    · obtain ⟨value, hmem, hget⟩ := ih (t.insert e.1 e.2) hrest
      exact ⟨value, List.mem_cons_of_mem _ hmem, hget⟩
    · have hkey : key = e.1 := by
        rw [List.map_cons, List.mem_cons] at h
        exact h.resolve_right hrest
      subst hkey
      refine ⟨e.2, List.mem_cons_self, ?_⟩
      rw [insertAll_cons, get?_insertAll_of_not_mem _ hrest, get?_insert_self]

/-- Dropping repetitions leaves distinct names. -/
theorem nodup_eraseDups (names : List String) : names.eraseDups.Nodup := by
  have h := (ofList (names.map fun n => (n, ()))).nodup_keys
  change (ofList _).keys.Nodup at h
  rw [keys_ofList, List.map_map] at h
  simpa [Function.comp_def] using h

private theorem entries_insert (t : Table α) (key : String) (value : α) :
    (t.insert key value).entries = put key value t.entries := rfl

private theorem insertAll_insert (t : Table α) (key : String) (value : α)
    (es : List (String × α)) (present : key ∈ t.keys) (fresh : key ∉ es.map Prod.fst) :
    (t.insert key value).insertAll es = (t.insertAll es).insert key value := by
  induction es generalizing t with
  | nil => rfl
  | cons e es ih =>
    simp only [List.map_cons, List.mem_cons, not_or] at fresh
    rw [insertAll_cons, insertAll_cons, insert_comm t value e.2 fresh.1 present]
    exact ih _ ((mem_keys_insert _ _ _ _).mpr (.inr present)) fresh.2

private theorem insertAll_put (t : Table α) (key : String) (value : α)
    (es : List (String × α)) (nodup : (es.map Prod.fst).Nodup) :
    t.insertAll (put key value es) = (t.insertAll es).insert key value := by
  induction es generalizing t with
  | nil => rfl
  | cons e es ih =>
    obtain ⟨k, a⟩ := e
    simp only [List.map_cons, List.nodup_cons] at nodup
    by_cases hk : k = key
    · subst hk
      have hmem : k ∈ (t.insert k a).keys := (mem_keys_insert _ _ _ _).mpr (.inl rfl)
      rw [put, if_pos rfl, insertAll_cons, insertAll_cons, ← insertAll_insert _ _ _ _ hmem nodup.1,
        insert_insert]
    · rw [put, if_neg hk, insertAll_cons, insertAll_cons, ih _ nodup.2]

/-- Storing the entries of a table that a list was stored in is storing both. -/
theorem insertAll_entries_insertAll (t u : Table α) (es : List (String × α)) :
    t.insertAll (u.insertAll es).entries = (t.insertAll u.entries).insertAll es := by
  induction es generalizing u with
  | nil => rfl
  | cons e es ih =>
    rw [insertAll_cons, ih, entries_insert, insertAll_put _ _ _ _ u.nodup_keys, insertAll_cons]

/-- Look-up finds the stored value, where each name is stored at most once. -/
theorem get?_insertAll (t : Table α) (es : List (String × α)) (key : String)
    (nodup : (es.map Prod.fst).Nodup) :
    (t.insertAll es).get? key = (lookup key es).or (t.get? key) := by
  induction es generalizing t with
  | nil => rfl
  | cons e es ih =>
    obtain ⟨k, a⟩ := e
    simp only [List.map_cons, List.nodup_cons] at nodup
    rw [insertAll_cons, ih _ nodup.2, get?_insert]
    by_cases hk : k = key
    · subst hk
      have hes : lookup k es = none := by
        have h := (isSome_lookup_iff k es).not.mpr nodup.1
        simpa using h
      simp [lookup, hes]
    · simp [lookup, hk]

/-- Distinct names stay as they are when repetitions are dropped. -/
theorem eraseDups_of_nodup (names : List String) (nodup : names.Nodup) :
    names.eraseDups = names := by
  induction names with
  | nil => rfl
  | cons a names ih =>
    rw [List.nodup_cons] at nodup
    have hfilter : names.filter (fun b => !b == a) = names := by
      apply List.filter_eq_self.mpr
      intro b hb
      have hne : b ≠ a := fun h => nodup.1 (h ▸ hb)
      simp [hne]
    rw [List.eraseDups_cons, hfilter, ih nodup.2]

/-- A list that names every entry once is stored as it is. -/
theorem ofList_of_nodup (es : List (String × α)) (nodup : (es.map Prod.fst).Nodup) :
    ofList es = ⟨es, nodup⟩ := by
  apply ext_get?
  · rw [keys_ofList]
    exact eraseDups_of_nodup _ nodup
  · intro key
    rw [ofList_eq_insertAll, get?_insertAll _ _ _ nodup, get?_empty, Option.or_none]
    rfl

/-- Storing a list of entries adds the names that are new, in the order in which they first
occur. -/
theorem keys_insertAll (t : Table α) (es : List (String × α)) :
    (t.insertAll es).keys =
      t.keys ++ ((es.map Prod.fst).filter fun key => key ∉ t.keys).eraseDups := by
  have hlist : t.insertAll es = ofList (t.entries ++ es) := by
    rw [ofList_eq_insertAll, insertAll_append, ← ofList_eq_insertAll,
      ofList_of_nodup t.entries t.nodup_keys]
  have hnew : (es.map Prod.fst).removeAll t.keys =
      (es.map Prod.fst).filter fun key => key ∉ t.keys := by
    apply List.filter_congr
    intro key _
    simp
  have hkeys : (t.entries ++ es).map Prod.fst = t.keys ++ es.map Prod.fst := List.map_append
  rw [hlist, keys_ofList, hkeys, List.eraseDups_append, hnew,
    eraseDups_of_nodup t.keys t.nodup_keys]

/-- Converting the values is the same before and after a list is stored. -/
theorem values_ofList_map (g : α → β) (es : List (String × α)) :
    (ofList (es.map fun e => (e.1, g e.2))).values = (ofList es).values.map g := by
  have hput : ∀ (k : String) (a : α) (fs : List (String × α)),
      put k (g a) (fs.map fun e => (e.1, g e.2)) = (put k a fs).map fun e => (e.1, g e.2) := by
    intro k a fs
    induction fs with
    | nil => rfl
    | cons f fs ih =>
      by_cases h : f.1 = k <;> simp [put, h, ih]
  have hall : ∀ (t : Table α) (u : Table β) (fs : List (String × α)),
      u.entries = t.entries.map (fun e => (e.1, g e.2)) →
      (u.insertAll (fs.map fun e => (e.1, g e.2))).entries =
        (t.insertAll fs).entries.map fun e => (e.1, g e.2) := by
    intro t u fs
    induction fs generalizing t u with
    | nil => exact fun h => h
    | cons f fs ih =>
      intro h
      refine ih (t.insert f.1 f.2) (u.insert f.1 (g f.2)) ?_
      rw [entries_insert, entries_insert, h, hput]
  rw [values, values, ofList_eq_insertAll, ofList_eq_insertAll, hall ∅ ∅ es rfl]
  simp [Function.comp_def]

end Table

end DataHolder
