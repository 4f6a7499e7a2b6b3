import DataHolder.Field.Record
import DataHolder.Proofs.Table

/-!
# Reading records back

What a run leaves as a record is read back as it was written: a field, a record, and the record
of a class under its key. The record of a list of fields holds these fields themselves exactly
when no two of them share a name.
-/

namespace DataHolder

theorem Json.word?_toNat (w : UInt32) : (Json.int w.toNat).word? = some w := by
  have h := w.toNat_lt
  rw [Json.word?, if_pos (by omega)]
  simp

/-- A field is read back as it was written. -/
theorem Field.ofJson?_toJson (f : Field) : Field.ofJson? f.toJson = some f := by
  obtain ⟨name, inInit, initOnly, hasDefault, ⟨line, column⟩⟩ := f
  simp [Field.ofJson?, Field.toJson, Json.values?, Field.keys, Table.lookup, Json.str?,
    Json.bool?, Json.word?_toNat]

namespace Record

/-- A record is read back as it was written. -/
theorem ofJson?_toJson (r : Record) : Record.ofJson? r.toJson = some r := by
  obtain ⟨⟨entries, nodup⟩, frozen⟩ := r
  have hentries : (entries.map fun e => (e.1, e.2.toJson)).mapM (fun m =>
      (Field.ofJson? m.2).map fun f => (m.1, f)) = some entries := by
    clear nodup
    induction entries with
    | nil => rfl
    | cons e entries ih => simp [List.mapM_cons, ih, Field.ofJson?_toJson]
  simp [Record.ofJson?, Record.toJson, Json.values?, keys, Table.lookup, Json.bool?, Json.obj?,
    hentries, Table.ofList_of_nodup _ nodup]

private theorem names_keyed (fields : List Field) :
    (fields.map fun f => (f.name, f)).map Prod.fst = fields.map Field.name := by
  rw [List.map_map]
  rfl

/-- A recorded field is one of the list, and stands under its name. -/
private theorem of_mem_ofFields (fields : List Field) (frozen : Bool) :
    ∀ e ∈ (ofFields fields frozen).attributes.entries, e.2 ∈ fields ∧ e.2.name = e.1 := by
  rintro ⟨key, f⟩ he
  rw [Table.mem_entries_iff] at he
  have hkey : key ∈ (fields.map fun f => (f.name, f)).map Prod.fst := by
    have hmem := (Table.mem_keys_iff (ofFields fields frozen).attributes key).mpr (by rw [he]; rfl)
    rw [ofFields, Table.keys_ofList, List.mem_eraseDups] at hmem
    exact hmem
  obtain ⟨g, hg, hget⟩ := Table.exists_get?_insertAll ∅ hkey
  rw [ofFields, Table.ofList_eq_insertAll, hget, Option.some.injEq] at he
  subst he
  obtain ⟨f, hf, he⟩ := List.mem_map.mp hg
  cases he
  exact ⟨hf, rfl⟩

/-- The record of a list of fields holds no others. -/
theorem fields_ofFields_subset (fields : List Field) (frozen : Bool) :
    (ofFields fields frozen).fields ⊆ fields := by
  intro f hf
  obtain ⟨e, he, rfl⟩ := List.mem_map.mp hf
  exact (of_mem_ofFields fields frozen e he).1

/-- The record of a list of fields has each of their names once. -/
theorem names_ofFields (fields : List Field) (frozen : Bool) :
    (ofFields fields frozen).fields.map Field.name = (fields.map Field.name).eraseDups := by
  have hkeys : (ofFields fields frozen).attributes.keys = (fields.map Field.name).eraseDups := by
    rw [ofFields, Table.keys_ofList, names_keyed]
  rw [← hkeys, Record.fields, Table.values, Table.keys, List.map_map]
  exact List.map_congr_left fun e he => (of_mem_ofFields fields frozen e he).2

/-- The record of a list of fields holds them as they are exactly when their names differ. -/
theorem fields_ofFields_eq_iff (fields : List Field) (frozen : Bool) :
    (ofFields fields frozen).fields = fields ↔ (fields.map Field.name).Nodup := by
  constructor
  · intro h
    have hnames := names_ofFields fields frozen
    rw [h] at hnames
    rw [hnames]
    exact Table.nodup_eraseDups _
  · intro h
    rw [Record.fields, ofFields, Table.ofList_of_nodup _ (by rwa [names_keyed]), Table.values,
      List.map_map]
    exact List.map_id _

end Record

/-- The record that a class was given is the one that it has. -/
theorem ClassDecl.record?_withRecord (c : ClassDecl) (key : String) (r : Record) :
    (c.withRecord key r).record? key = .ok (some r) := by
  rw [withRecord, record?, Table.get?_insert_self]
  simp only [Record.ofJson?_toJson]

end DataHolder
