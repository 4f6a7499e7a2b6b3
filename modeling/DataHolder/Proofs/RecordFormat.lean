import DataHolder.Proofs.RecordCodec
import DataHolder.Proofs.Stages

/-!
# The format of a record

Which values are records is said here without the reader. A structure is an object that has its
parts under their names, whatever else it holds, or the list of exactly its parts in order; nothing
is converted. The reader accepts these values and no others. A value that is read and written back
has its normal form, which reading and writing keep.
-/

namespace DataHolder

/-! ## Values of one kind -/

namespace Json

theorem str?_eq_some_iff {v : Json} {s : String} : v.str? = some s ↔ v = .str s := by
  cases v <;> simp [str?]

theorem bool?_eq_some_iff {v : Json} {b : Bool} : v.bool? = some b ↔ v = .bool b := by
  cases v <;> simp [bool?]

theorem obj?_eq_some_iff {v : Json} {members : List (String × Json)} :
    v.obj? = some members ↔ v = .obj members := by
  cases v <;> simp [obj?]

/-- A number is read where it is an integer of 32 bits without sign. -/
theorem word?_eq_some_iff {v : Json} {w : UInt32} : v.word? = some w ↔ v = .int w.toNat := by
  constructor
  · intro h
    cases v with
    | int i =>
      rw [word?] at h
      split at h
      · next hi =>
        have hw : w.toNat = i.toNat := by
          rw [← Option.some.inj h, UInt32.toNat_ofNat']
          omega
        congr 1
        omega
      · cases h
    | _ => cases h
  · rintro rfl
    exact word?_toNat w

/-- A value has the parts of a structure: it is an object that has each of them under its name,
whatever else it holds, or the list of exactly these parts. -/
inductive HasParts (names : List String) : Json → List Json → Prop
  | object {members : List (String × Json)} {parts : List Json}
    (found : List.Forall₂ (fun name part => Table.lookup name members = some part) names parts) :
    HasParts names (.obj members) parts
  | list {parts : List Json} (exact : parts.length = names.length) :
    HasParts names (.arr parts) parts

end Json

/-- Converting each element of a list gives a list of what they are converted to. -/
theorem mapM_eq_some_iff {α β : Type} {f : α → Option β} {as : List α} {bs : List β} :
    as.mapM f = some bs ↔ List.Forall₂ (fun a b => f a = some b) as bs := by
  induction as generalizing bs with
  | nil => simp [eq_comm]
  | cons a as ih =>
    rw [List.mapM_cons, List.forall₂_cons_left_iff]
    constructor
    · intro h
      obtain ⟨b, hb, h⟩ := Option.bind_eq_some_iff.mp h
      obtain ⟨rest, hrest, h⟩ := Option.bind_eq_some_iff.mp h
      exact ⟨b, rest, hb, ih.mp hrest, (Option.some.inj h).symm⟩
    · rintro ⟨b, rest, hb, hrest, rfl⟩
      rw [hb, ih.mpr hrest]
      rfl

theorem Json.values?_eq_some_iff {names : List String} {v : Json} {parts : List Json} :
    v.values? names = some parts ↔ v.HasParts names parts := by
  constructor
  · intro h
    cases v with
    | obj members => exact .object (mapM_eq_some_iff.mp h)
    | arr items =>
      rw [Json.values?] at h
      split at h
      · next exact =>
        cases h
        exact .list exact
      · cases h
    | _ => cases h
  · rintro (found | exact)
    · exact mapM_eq_some_iff.mpr found
    · exact if_pos exact

/-! ## Fields and records -/

/-- The parts of a field, in the order of their names. -/
def Field.parts (f : Field) : List Json :=
  [.str f.name, .bool f.inInit, .bool f.initOnly, .bool f.hasDefault, .int f.position.line.toNat,
    .int f.position.column.toNat]

/-- A value describes a field: it has the parts of this field. -/
def Field.DescribedBy (v : Json) (f : Field) : Prop := v.HasParts Field.keys f.parts

/-- A value describes a record: its parts are an object, whose members describe the fields under
their keys, and the mark of a frozen class. Of two members with one key the first gives the place
and the last the field. -/
def Record.DescribedBy (v : Json) (r : Record) : Prop :=
  ∃ members entries, v.HasParts Record.keys [.obj members, .bool r.frozen] ∧
    List.Forall₂ (fun member entry => entry.1 = member.1 ∧ entry.2.DescribedBy member.2)
      members entries ∧
    r.attributes = Table.ofList entries

/-- The reader of fields accepts what describes a field, and nothing else. -/
theorem Field.ofJson?_eq_some_iff {v : Json} {f : Field} :
    Field.ofJson? v = some f ↔ f.DescribedBy v := by
  rw [Field.DescribedBy, ← Json.values?_eq_some_iff]
  constructor
  · intro h
    rw [Field.ofJson?] at h
    split at h
    · next hparts =>
      obtain ⟨name, hname, h⟩ := Option.bind_eq_some_iff.mp h
      obtain ⟨inInit, hinInit, h⟩ := Option.bind_eq_some_iff.mp h
      obtain ⟨initOnly, hinitOnly, h⟩ := Option.bind_eq_some_iff.mp h
      obtain ⟨hasDefault, hhasDefault, h⟩ := Option.bind_eq_some_iff.mp h
      obtain ⟨line, hline, h⟩ := Option.bind_eq_some_iff.mp h
      obtain ⟨column, hcolumn, h⟩ := Option.bind_eq_some_iff.mp h
      cases h
      rw [hparts, Json.str?_eq_some_iff.mp hname, Json.bool?_eq_some_iff.mp hinInit,
        Json.bool?_eq_some_iff.mp hinitOnly, Json.bool?_eq_some_iff.mp hhasDefault,
        Json.word?_eq_some_iff.mp hline, Json.word?_eq_some_iff.mp hcolumn]
      rfl
    · cases h
  · intro h
    rw [Field.ofJson?, h]
    simp only [Field.parts, Json.str?, Json.bool?, Json.word?_toNat]
    rfl

namespace Record

/-- The reader of the members of a record accepts what describes fields. -/
private theorem mapM_members_iff {members : List (String × Json)}
    {entries : List (String × Field)} :
    (members.mapM fun m => (Field.ofJson? m.2).map fun f => (m.1, f)) = some entries ↔
      List.Forall₂ (fun member entry => entry.1 = member.1 ∧ entry.2.DescribedBy member.2)
        members entries := by
  have hone : ∀ (member : String × Json) (entry : String × Field),
      ((Field.ofJson? member.2).map fun f => (member.1, f)) = some entry ↔
        entry.1 = member.1 ∧ entry.2.DescribedBy member.2 := by
    rintro ⟨key, value⟩ ⟨name, f⟩
    rw [Option.map_eq_some_iff]
    constructor
    · rintro ⟨g, hg, he⟩
      cases he
      exact ⟨rfl, Field.ofJson?_eq_some_iff.mp hg⟩
    · rintro ⟨rfl, hf⟩
      exact ⟨f, Field.ofJson?_eq_some_iff.mpr hf, rfl⟩
  rw [mapM_eq_some_iff]
  simp only [hone]

/-- The reader of records accepts what describes a record, and nothing else. -/
theorem ofJson?_eq_some_iff {v : Json} {r : Record} :
    Record.ofJson? v = some r ↔ r.DescribedBy v := by
  constructor
  · intro h
    rw [Record.ofJson?] at h
    split at h
    · next hparts =>
      obtain ⟨members, hmembers, h⟩ := Option.bind_eq_some_iff.mp h
      obtain ⟨entries, hentries, h⟩ := Option.bind_eq_some_iff.mp h
      obtain ⟨frozen, hfrozen, h⟩ := Option.bind_eq_some_iff.mp h
      cases h
      rw [Json.obj?_eq_some_iff.mp hmembers, Json.bool?_eq_some_iff.mp hfrozen] at hparts
      exact ⟨members, entries, Json.values?_eq_some_iff.mp hparts, mapM_members_iff.mp hentries,
        rfl⟩
    · cases h
  · obtain ⟨attributes, frozen⟩ := r
    rintro ⟨members, entries, hparts, hentries, rfl⟩
    rw [Record.ofJson?, Json.values?_eq_some_iff.mpr hparts]
    simp only [Json.obj?, Json.bool?, Option.bind_eq_bind, Option.bind_some,
      mapM_members_iff.mpr hentries]
    rfl

end Record

/-! ## Records of a class -/

namespace ClassDecl

/-- A class with what is kept under a key read as a record and written back, where there is
something. -/
def normalized (c : ClassDecl) (key : String) : Except Failure ClassDecl :=
  (c.record? key).map fun found => found.elim c (c.withRecord key)

/-- A class as it was, but for the value that it keeps under a key: this stands where an older one
did, or else behind the others. -/
structure Keeps (c : ClassDecl) (key : String) (value : Json) (d : ClassDecl) : Prop where
  shape : d = { c with records := d.records }
  value : d.records.get? key = some value
  others : ∀ other, other ≠ key → d.records.get? other = c.records.get? other
  keys : d.records.keys = if key ∈ c.records.keys then c.records.keys else c.records.keys ++ [key]

theorem keeps_withRecord (c : ClassDecl) (key : String) (r : Record) :
    c.Keeps key r.toJson (c.withRecord key r) where
  shape := rfl
  value := Table.get?_insert_self _ _ _
  others _ ne := by rw [withRecord, Table.get?_insert, if_neg (Ne.symm ne)]
  keys := Table.keys_insert _ _ _

/-- Writing a record twice is writing it once. -/
theorem withRecord_withRecord (c : ClassDecl) (key : String) (r : Record) :
    (c.withRecord key r).withRecord key r = c.withRecord key r := by
  rw [withRecord, withRecord, Table.insert_insert]

/-- What a class has under a key is a record exactly where it describes one. -/
theorem record?_eq_ok_iff {c : ClassDecl} {key : String} {value : Json}
    (kept : c.records.get? key = some value) (r : Record) :
    c.record? key = .ok (some r) ↔ r.DescribedBy value := by
  rw [← Record.ofJson?_eq_some_iff, record?, kept]
  dsimp only
  cases Record.ofJson? value <;> simp

/-- What describes no record is refused, with the names of the class and of the key. -/
theorem record?_of_not_described {c : ClassDecl} {key : String} {value : Json}
    (kept : c.records.get? key = some value) (malformed : ∀ r : Record, ¬ r.DescribedBy value) :
    c.record? key = .error (.malformedRecord c.fullname key) := by
  have hnone : Record.ofJson? value = none := by
    rw [Option.eq_none_iff_forall_ne_some]
    exact fun r hr => malformed r (Record.ofJson?_eq_some_iff.mp hr)
  rw [record?, kept]
  dsimp only
  rw [hnone]

end ClassDecl

namespace Synthesis

/-- A run of a class comes to one of its ancestors: it reads the body, and what the nearer ancestors
contribute. -/
def Reaches (v : Vocabulary) (r : Registry) (id a : ClassId) : Prop :=
  ∃ c own nearer further contributed, r.get? id = some c ∧
    (readBody v c.body c.members).2 = .ok own ∧ interior c.mro = nearer ++ a :: further ∧
    contributions v (r.set id (readClass v c)) nearer = .ok contributed

section Malformed

variable {v : Vocabulary} {r : Registry} {id a : ClassId} {d : ClassDecl} {failure : Failure}

/-- The first ancestor whose record cannot be read stops the collection. -/
private theorem contributions_of_malformed {nearer : List ClassId} {contributed : List Contribution}
    (before : contributions v r nearer = .ok contributed) (registered : r.get? a = some d)
    (malformed : d.record? v.recordKey = .error failure) (further : List ClassId) :
    contributions v r (nearer ++ a :: further) = .error (.failed failure) := by
  induction nearer generalizing contributed with
  | nil => simp only [List.nil_append, contributions_cons, contribution?, registered, malformed]
  | cons b nearer ih =>
    obtain ⟨k, rest, hk, hrest, -⟩ := contributions_cons_ok before
    rw [List.cons_append, contributions_cons, hk, ih hrest]
    rfl

/-- A run that comes to a record which cannot be read fails with that, and no class has other
records than before. -/
theorem run_of_malformed (reaches : Reaches v r id a) (registered : r.get? a = some d)
    (malformed : d.record? v.recordKey = .error failure) :
    (run v r id).result = .error (.failed failure) ∧
      ∀ other, ((run v r id).registry.get? other).map ClassDecl.records =
        (r.get? other).map ClassDecl.records := by
  obtain ⟨c, own, nearer, further, contributed, hc, hown, hmro, hbefore⟩ := reaches
  obtain ⟨e, he, hrecord⟩ : ∃ e, (r.set id (readClass v c)).get? a = some e ∧
      e.record? v.recordKey = .error failure := by
    rw [Registry.get?_set hc]
    split
    · next h =>
      subst h
      rw [hc] at registered
      cases registered
      exact ⟨_, rfl, malformed⟩
    · exact ⟨d, registered, malformed⟩
  have hcollect : collect v (r.set id (readClass v c)) id c.mro (.ok own) =
      .error (.failed failure) := by
    rw [collect, gather, hmro, contributions_of_malformed hbefore he hrecord further]
  have hresult : (run v r id).result = .error (.failed failure) := by
    rw [run_of_get? v hc, hown, hcollect]
  refine ⟨hresult, fun other => ?_⟩
  rw [registry_of_halt v hc hresult, Registry.get?_set hc]
  split
  · next h =>
    subst h
    rw [hc]
    rfl
  · rfl

end Malformed

end Synthesis

/-- Records are read back as they were written: a list of fields with distinct names comes back as
it is, in its order, and writing it changes nothing else of the class. Whatever value describes a
record is read as this record. Written back it has a normal form that reads the same and that
writing back keeps. Every other value is refused with the names of the class and of the key; a run
that comes to it fails with that and leaves all records alone. -/
theorem ClassDecl.record_codec (c : ClassDecl) (key : String) :
    (∀ fields frozen, (fields.map Field.name).Nodup → ∃ record,
      (c.withRecord key (Record.ofFields fields frozen)).record? key = .ok (some record) ∧
        record.fields = fields ∧ record.frozen = frozen) ∧
    (∀ record, c.Keeps key record.toJson (c.withRecord key record)) ∧
    ∀ value, c.records.get? key = some value →
      (∀ record, c.record? key = .ok (some record) ↔ record.DescribedBy value) ∧
      (∀ record, record.DescribedBy value → ∃ d, c.normalized key = .ok d ∧
        c.Keeps key record.toJson d ∧ d.record? key = .ok (some record) ∧
          d.normalized key = .ok d) ∧
      ((∀ record, ¬ Record.DescribedBy value record) →
        c.record? key = .error (.malformedRecord c.fullname key) ∧
        c.normalized key = .error (.malformedRecord c.fullname key) ∧
        ∀ v r id a, v.recordKey = key → r.get? a = some c → Synthesis.Reaches v r id a →
          (Synthesis.run v r id).result = .error (.failed (.malformedRecord c.fullname key)) ∧
            ∀ other, ((Synthesis.run v r id).registry.get? other).map ClassDecl.records =
              (r.get? other).map ClassDecl.records) := by
  refine ⟨?_, c.keeps_withRecord key, ?_⟩
  · intro fields frozen nodup
    exact ⟨_, c.record?_withRecord key _, (Record.fields_ofFields_eq_iff _ _).mpr nodup, rfl⟩
  · intro value kept
    refine ⟨record?_eq_ok_iff kept, ?_, ?_⟩
    · intro record described
      have hread := (record?_eq_ok_iff kept record).mpr described
      have hagain := c.record?_withRecord key record
      refine ⟨c.withRecord key record, ?_, c.keeps_withRecord key record, hagain, ?_⟩
      · rw [normalized, hread]
        rfl
      · rw [normalized, hagain]
        show Except.ok ((c.withRecord key record).withRecord key record) = _
        rw [withRecord_withRecord]
    · intro malformed
      have hread := record?_of_not_described kept malformed
      refine ⟨hread, by rw [normalized, hread]; rfl, ?_⟩
      rintro v r id a rfl registered reaches
      exact Synthesis.run_of_malformed reaches registered hread

/-- A class that keeps a value as its record, behind something else. -/
private def keeping (value : Json) : ClassDecl :=
  { name := "Base", fullname := "Base", mro := [1, 0]
    records := Table.ofList [("other", .null), ("dataclass", value)] }

/-- A record given as a list, with two fields: one given as a list that ends at the given line and
column, and one given as an object with its members in another order and one too many. Both stand
under keys that are not their names. -/
private def loose (line : Int) : Json :=
  .arr
    [.obj
        [("first", .arr [.str "x", .bool true, .bool false, .bool true, .int line, .int 0]),
          ("second", .obj
            [("column", .int 4), ("line", .int 3), ("note", .null), ("has_default", .bool false),
              ("is_init_var", .bool true), ("is_in_init", .bool true), ("name", .str "y")])],
      .bool true]

/-- The record that it describes where the line has 32 bits. -/
private def looseRecord : Record :=
  { attributes :=
      Table.ofList
        [("first", { name := "x", hasDefault := true, position := ⟨4294967295, 0⟩ }),
          ("second", { name := "y", initOnly := true, position := ⟨3, 4⟩ })]
    frozen := true }

private theorem described_loose : looseRecord.DescribedBy (loose 4294967295) :=
  Record.ofJson?_eq_some_iff.mp rfl

private theorem not_described_loose (record : Record) :
    ¬ record.DescribedBy (loose 4294967296) := by
  intro h
  have hnone : Record.ofJson? (loose 4294967296) = none := rfl
  rw [Record.ofJson?_eq_some_iff.mpr h] at hnone
  cases hnone

/-- A class below one that keeps a value as its record. -/
private def belowKeeping (value : Json) : Registry :=
  ⟨[{ name := "object", fullname := "object", mro := [0] }, keeping value,
    { name := "Derived", fullname := "Derived", mro := [2, 1, 0] }]⟩

theorem ClassDecl.record_codec_loose :
    (∃ d, (keeping (loose 4294967295)).normalized "dataclass" = .ok d ∧
      d.record? "dataclass" = .ok (some looseRecord) ∧ d.normalized "dataclass" = .ok d) ∧
    (∃ record, ((keeping .null).withRecord "dataclass" (.ofFields looseRecord.fields true)).record?
      "dataclass" = .ok (some record) ∧ record.fields = looseRecord.fields) ∧
    (keeping (loose 4294967296)).record? "dataclass" =
      .error (.malformedRecord "Base" "dataclass") ∧
    (Synthesis.run {} (belowKeeping (loose 4294967296)) 2).result =
      .error (.failed (.malformedRecord "Base" "dataclass")) := by
  obtain ⟨-, -, hloose⟩ := record_codec (keeping (loose 4294967295)) "dataclass"
  obtain ⟨hwritten, -⟩ := record_codec (keeping .null) "dataclass"
  obtain ⟨-, -, hwide⟩ := record_codec (keeping (loose 4294967296)) "dataclass"
  obtain ⟨-, hnormal, -⟩ := hloose _ rfl
  obtain ⟨-, -, hrefused⟩ := hwide _ rfl
  obtain ⟨hread, -, hrun⟩ := hrefused not_described_loose
  obtain ⟨d, hd, -, hagain, hstill⟩ := hnormal looseRecord described_loose
  obtain ⟨record, hrecord, hfields, -⟩ := hwritten looseRecord.fields true (by decide)
  refine ⟨⟨d, hd, hagain, hstill⟩, ⟨record, hrecord, hfields⟩, hread, ?_⟩
  exact (hrun {} (belowKeeping (loose 4294967296)) 2 1 rfl rfl
    ⟨_, [], [], [], [], rfl, rfl, rfl, rfl⟩).1

end DataHolder
