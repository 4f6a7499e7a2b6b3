/-!
# Insertion-ordered tables

A table maps names to values and remembers the order in which the names first came in.
Storing under a name that is present replaces the value and keeps the place; a name that
is erased and stored again goes to the end. The view of a table is its list of `entries`,
and each operation has one law through it: `keys_insert`, `get?_insert`, `entries_erase`,
`get?_erase`.
-/

namespace DataHolder

/-- Values under pairwise distinct names, in order of first insertion. -/
@[ext] structure Table (α : Type) where
  entries : List (String × α)
  nodup_keys : (entries.map Prod.fst).Nodup := by simp

namespace Table

variable {α : Type}

/-! ## Entries -/

/-- The value under a name, in a list of entries. -/
def lookup (key : String) : List (String × α) → Option α
  | [] => none
  | (k, a) :: rest => if k = key then some a else lookup key rest

/-- The list with this value under the name: in the old place, or at the end. -/
def put (key : String) (value : α) : List (String × α) → List (String × α)
  | [] => [(key, value)]
  | (k, a) :: rest => if k = key then (k, value) :: rest else (k, a) :: put key value rest

/-- Storing adds a name only where it is absent, and then at the end. -/
theorem map_fst_put (key : String) (value : α) (entries : List (String × α)) :
    (put key value entries).map Prod.fst =
      if key ∈ entries.map Prod.fst then entries.map Prod.fst
      else entries.map Prod.fst ++ [key] := by
  induction entries with
  | nil => simp [put]
  | cons e rest ih =>
    obtain ⟨k, a⟩ := e
    by_cases h : k = key
    · simp [put, h]
    · have h' : key ≠ k := fun e => h e.symm
      simp only [put, h, if_false, List.map_cons, ih, List.mem_cons, h', false_or]
      split <;> rfl

/-- Storing keeps the names distinct. -/
theorem nodup_map_fst_put {entries : List (String × α)} (key : String) (value : α)
    (h : (entries.map Prod.fst).Nodup) : ((put key value entries).map Prod.fst).Nodup := by
  rw [map_fst_put]
  split
  · exact h
  · rename_i hk
    rw [List.nodup_append]
    refine ⟨h, by simp, ?_⟩
    intro a ha b hb
    rw [List.mem_singleton.1 hb]
    exact fun e => hk (e ▸ ha)

/-- What is stored is found, and nothing else moves. -/
theorem lookup_put (key key' : String) (value : α) (entries : List (String × α)) :
    lookup key' (put key value entries) =
      if key = key' then some value else lookup key' entries := by
  induction entries with
  | nil => simp [put, lookup]
  | cons e rest ih =>
    obtain ⟨k, a⟩ := e
    by_cases h : k = key
    · subst h
      by_cases h' : k = key' <;> simp [put, lookup, h']
    · by_cases h' : k = key'
      · subst h'
        have h'' : ¬ key = k := fun e => h e.symm
        simp [put, lookup, h, h'']
      · simp [put, lookup, h, h', ih]

/-- A name is found exactly when it is among the names of the entries. -/
theorem isSome_lookup_iff (key : String) (entries : List (String × α)) :
    (lookup key entries).isSome ↔ key ∈ entries.map Prod.fst := by
  induction entries with
  | nil => simp [lookup]
  | cons e rest ih =>
    obtain ⟨k, a⟩ := e
    by_cases h : k = key
    · simp [lookup, h]
    · have h' : key ≠ k := fun e => h e.symm
      simp only [lookup, h, if_false, ih, List.map_cons, List.mem_cons, h', false_or]

/-- What is found is an entry. -/
theorem mem_of_lookup {key : String} {value : α} {entries : List (String × α)}
    (h : lookup key entries = some value) : (key, value) ∈ entries := by
  induction entries with
  | nil => simp [lookup] at h
  | cons e rest ih =>
    obtain ⟨k, a⟩ := e
    by_cases hk : k = key
    · simp only [lookup, hk, if_true, Option.some.injEq] at h
      simp [hk, h]
    · simp only [lookup, hk, if_false] at h
      exact List.mem_cons_of_mem _ (ih h)

/-- Among distinct names, every entry is found. -/
theorem lookup_of_mem {key : String} {value : α} {entries : List (String × α)}
    (nodup : (entries.map Prod.fst).Nodup) (h : (key, value) ∈ entries) :
    lookup key entries = some value := by
  induction entries with
  | nil => simp at h
  | cons e rest ih =>
    obtain ⟨k, a⟩ := e
    simp only [List.map_cons, List.nodup_cons] at nodup
    rcases List.mem_cons.1 h with he | hr
    · cases he
      simp [lookup]
    · have hk : k ≠ key := fun e => nodup.1 (e ▸ List.mem_map_of_mem (f := Prod.fst) hr)
      simp only [lookup, hk, if_false]
      exact ih nodup.2 hr

/-- Keeping some of the entries keeps the names distinct. -/
theorem nodup_map_fst_filter {entries : List (String × α)} (p : String × α → Bool)
    (h : (entries.map Prod.fst).Nodup) : ((entries.filter p).map Prod.fst).Nodup :=
  h.sublist (List.filter_sublist.map _)

/-- Keeping the entries that satisfy a test on names looks only the others away. -/
theorem lookup_filter_fst (p : String → Bool) (key : String) (entries : List (String × α)) :
    lookup key (entries.filter fun e => p e.1) = if p key then lookup key entries else none := by
  induction entries with
  | nil => simp [lookup]
  | cons e rest ih =>
    obtain ⟨k, a⟩ := e
    by_cases h : p k <;> by_cases hk : k = key <;> simp_all [lookup]

/-! ## Operations -/

/-- The table without entries. -/
def empty : Table α := ⟨[], by simp⟩

instance : EmptyCollection (Table α) := ⟨empty⟩

instance : Inhabited (Table α) := ⟨empty⟩

instance [DecidableEq α] : DecidableEq (Table α) := fun s t =>
  decidable_of_iff (s.entries = t.entries) Table.ext_iff.symm

/-- The names, in order of first insertion. -/
def keys (t : Table α) : List String := t.entries.map Prod.fst

/-- The values, in the order of their names. -/
def values (t : Table α) : List α := t.entries.map Prod.snd

/-- The number of entries. -/
def size (t : Table α) : Nat := t.entries.length

/-- Whether there is no entry. -/
def isEmpty (t : Table α) : Bool := t.entries.isEmpty

/-- The value under a name. -/
def get? (t : Table α) (key : String) : Option α := lookup key t.entries

/-- Whether there is a value under a name. -/
def contains (t : Table α) (key : String) : Bool := (t.get? key).isSome

/-- Store a value under a name: in the place of the old one, or at the end. -/
def insert (t : Table α) (key : String) (value : α) : Table α :=
  ⟨put key value t.entries, nodup_map_fst_put key value t.nodup_keys⟩

/-- Keep the entries that satisfy a test, in their order. -/
def filter (t : Table α) (p : String → α → Bool) : Table α :=
  ⟨t.entries.filter fun e => p e.1 e.2, nodup_map_fst_filter _ t.nodup_keys⟩

/-- Drop the entry under a name; the others keep their order. -/
def erase (t : Table α) (key : String) : Table α := t.filter fun k _ => k != key

/-- Store the values of a list one after the other. -/
def ofList (entries : List (String × α)) : Table α :=
  entries.foldl (fun t e => t.insert e.1 e.2) ∅

/-! ## Laws -/

@[simp] theorem entries_empty : (∅ : Table α).entries = [] := rfl

@[simp] theorem keys_empty : (∅ : Table α).keys = [] := rfl

@[simp] theorem get?_empty (key : String) : (∅ : Table α).get? key = none := rfl

/-- Storing replaces in place, or appends the name. -/
theorem keys_insert (t : Table α) (key : String) (value : α) :
    (t.insert key value).keys = if key ∈ t.keys then t.keys else t.keys ++ [key] :=
  map_fst_put key value t.entries

/-- What is stored is found, and nothing else moves. -/
theorem get?_insert (t : Table α) (key key' : String) (value : α) :
    (t.insert key value).get? key' = if key = key' then some value else t.get? key' :=
  lookup_put key key' value t.entries

@[simp] theorem get?_insert_self (t : Table α) (key : String) (value : α) :
    (t.insert key value).get? key = some value := by
  simp [get?_insert]

/-- Entries are exactly the pairs that look-up finds. -/
theorem mem_entries_iff (t : Table α) (key : String) (value : α) :
    (key, value) ∈ t.entries ↔ t.get? key = some value :=
  ⟨lookup_of_mem t.nodup_keys, mem_of_lookup⟩

/-- A name is listed exactly when look-up finds a value. -/
theorem mem_keys_iff (t : Table α) (key : String) : key ∈ t.keys ↔ (t.get? key).isSome :=
  (isSome_lookup_iff key t.entries).symm

/-- Erasing keeps the entries of the other names, in their order. -/
theorem entries_erase (t : Table α) (key : String) :
    (t.erase key).entries = t.entries.filter fun e => e.1 != key := rfl

/-- What is erased is gone, and nothing else moves. -/
theorem get?_erase (t : Table α) (key key' : String) :
    (t.erase key).get? key' = if key = key' then none else t.get? key' := by
  show lookup key' (t.entries.filter fun e => e.1 != key) = _
  rw [lookup_filter_fst (fun k => k != key)]
  by_cases h : key = key' <;> simp [h, get?]
  intro e
  exact absurd e.symm h

end Table

end DataHolder
