import DataHolder.Proofs.Completion
import DataHolder.Proofs.Reading
import DataHolder.Proofs.RecordCodec

/-!
# What a completed run leaves

A run that completes leaves its class under its number and changes no other. `run_of_ok` says
what the class is and what the run answers, and `get?_completed` which member it has under a
name: the written one or the one that was added, marked where the name is that of a field, and
none where the field exists for the constructor alone.
-/

namespace DataHolder

/-! ## Marking, name by name -/

namespace ClassDecl

/-- What marking a field leaves, given what it finds under the name. -/
def afterMark (owner : String) (ty : String → Ty) (frozen : Bool) (old : Option Member)
    (f : Field) : Option Member :=
  (marked? owner ty frozen f old).or old

/-- Marking a field touches its own name alone. -/
theorem get?_mark (owner : String) (ty : String → Ty) (frozen : Bool) (t : Table Member)
    (f : Field) (name : String) :
    (mark owner ty frozen t f).get? name =
      if f.name = name then afterMark owner ty frozen (t.get? name) f else t.get? name := by
  rw [mark, afterMark]
  cases hm : marked? owner ty frozen f (t.get? f.name) with
  | none =>
    dsimp only
    split
    · next h => rw [← h, hm, Option.none_or]
    · rfl
  | some m =>
    dsimp only
    rw [Table.get?_insert]
    split
    · next h => rw [← h, hm, Option.some_or]
    · rfl

/-- Marking fields does to a name what the fields of that name do to it. -/
theorem get?_foldl_mark (owner : String) (ty : String → Ty) (frozen : Bool) (t : Table Member)
    (fields : List Field) (name : String) :
    (fields.foldl (mark owner ty frozen) t).get? name =
      (fields.filter fun f => f.name == name).foldl (afterMark owner ty frozen) (t.get? name) := by
  induction fields generalizing t with
  | nil => rfl
  | cons f fields ih =>
    rw [List.foldl_cons, ih, get?_mark]
    by_cases h : f.name = name
    · rw [if_pos h, List.filter_cons_of_pos (by simpa using h), List.foldl_cons]
    · rw [if_neg h, List.filter_cons_of_neg (by simpa using h)]

/-- Marking puts a copy in the place of all but a variable, where the class is frozen. -/
theorem afterMark_of_not_var (owner : String) (ty : String → Ty) (frozen : Bool) {w : Member}
    (f : Field) (plain : w.symbol.isVar = false) :
    afterMark owner ty frozen (some w) f =
      some (if frozen then copyIn owner f (ty f.name) else w) := by
  obtain ⟨symbol, generated⟩ := w
  cases symbol with
  | var x => cases plain
  | method m => cases frozen <;> rfl
  | typeVar d => cases frozen <;> rfl
  | placeholder => cases frozen <;> rfl

/-- What marking leaves is what it finds, but for the mark of a variable, or else a copy. -/
theorem afterMark_cases (owner : String) (ty : String → Ty) (frozen : Bool) (old : Option Member)
    (f : Field) :
    afterMark owner ty frozen old f = old ∨
      (∃ x generated, old = some { symbol := .var x, generated } ∧
        afterMark owner ty frozen old f =
          some { symbol := .var { x with isReadOnly := frozen }, generated }) ∨
      afterMark owner ty frozen old f = some (copyIn owner f (ty f.name)) := by
  rcases old with _ | ⟨symbol, generated⟩
  · cases frozen with
    | false => exact .inl rfl
    | true => exact .inr (.inr rfl)
  · cases hv : symbol.isVar with
    | true =>
      obtain ⟨x, hx⟩ := Option.isSome_iff_exists.mp hv
      cases symbol <;> cases hx
      exact .inr (.inl ⟨x, generated, rfl, rfl⟩)
    | false =>
      rw [afterMark_of_not_var owner ty frozen f hv]
      cases frozen with
      | false => exact .inl rfl
      | true => exact .inr (.inr rfl)

/-- Whatever marking leaves that is no variable was there before. -/
theorem eq_of_foldl_afterMark {owner : String} {ty : String → Ty} {frozen : Bool}
    {fields : List Field} {old : Option Member} {m : Member}
    (h : fields.foldl (afterMark owner ty frozen) old = some m)
    (plain : m.symbol.isVar = false) : old = some m := by
  induction fields generalizing old with
  | nil => exact h
  | cons f fields ih =>
    have hfirst : afterMark owner ty frozen old f = some m := ih h
    rcases afterMark_cases owner ty frozen old f with he | ⟨x, generated, -, he⟩ | he
    · rw [← he]
      exact hfirst
    · rw [he] at hfirst
      cases hfirst
      cases plain
    · rw [he] at hfirst
      cases hfirst
      cases plain

/-- Marking makes nothing a written member that was none. -/
theorem generated_of_afterMark {owner : String} {ty : String → Ty} {frozen : Bool}
    {f : Field} {old : Option Member} (h : ∀ m, old = some m → m.generated = true) {m : Member}
    (hm : afterMark owner ty frozen old f = some m) : m.generated = true := by
  rcases afterMark_cases owner ty frozen old f with he | ⟨x, generated, hold, he⟩ | he
  · exact h m (he ▸ hm)
  · have hgenerated := h _ hold
    rw [he] at hm
    cases hm
    exact hgenerated
  · rw [he] at hm
    cases hm
    rfl

theorem generated_of_foldl_afterMark {owner : String} {ty : String → Ty} {frozen : Bool}
    {fields : List Field} {old : Option Member} (h : ∀ m, old = some m → m.generated = true)
    {m : Member} (hm : fields.foldl (afterMark owner ty frozen) old = some m) :
    m.generated = true := by
  induction fields generalizing old with
  | nil => exact h m hm
  | cons f fields ih => exact ih (fun m' hm' => generated_of_afterMark h hm') hm

/-- Clearing leaves the written members. -/
theorem get?_clearGenerated (c : ClassDecl) (name : String) :
    c.clearGenerated.members.get? name = c.written? name :=
  Table.get?_filter _ _ _

theorem written?_clearGenerated (c : ClassDecl) (name : String) :
    c.clearGenerated.written? name = c.written? name := by
  rw [written?, get?_clearGenerated, written?, Option.filter_filter]
  simp

end ClassDecl

namespace Synthesis

variable (v : Vocabulary)

/-! ## What reading leaves under a name -/

/-- A value that is mapped comes from a value. -/
theorem exists_of_map_ok {ε α β : Type} {f : α → β} {e : Except ε α} {b : β}
    (h : e.map f = .ok b) : ∃ a, e = .ok a ∧ f a = b := by
  cases e with
  | error d => cases h
  | ok a => exact ⟨a, rfl, Except.ok.inj h⟩

/-- Reading leaves alone what it does not take for the member of a field. -/
theorem get?_scan_of_not_field {as : List Assignment} {t : Table Member} {name : String}
    (foreign : ∀ a ∈ as, a.target.name = name → isField (t.get? name) = false) :
    (scan v as t).1.get? name = t.get? name := by
  induction as generalizing t with
  | nil => rfl
  | cons a rest ih =>
    rw [scan]
    cases hv : visit (t.get? a.target.name) with
    | skip => exact ih fun b hb => foreign b (List.mem_cons_of_mem _ hb)
    | stop => rfl
    | field x generated =>
      have hname : a.target.name ≠ name := by
        intro he
        have hno := foreign a List.mem_cons_self he
        rw [← he, isField_eq_of_visit hv] at hno
        cases hno
      have hget : (t.insert a.target.name (readMember v x generated)).get? name = t.get? name := by
        rw [Table.get?_insert, if_neg hname]
      have hrest := ih (t := t.insert a.target.name (readMember v x generated))
        fun b hb => hget.symm ▸ foreign b (List.mem_cons_of_mem _ hb)
      exact hrest.trans hget

/-- Reading a name that is declared once takes one wrapper off its variable. -/
theorem get?_scan_of_once {as : List Assignment} {t : Table Member}
    {own : List Field} {name : String} {x : Variable} {generated : Bool}
    (once : (as.map fun a => a.target.name).count name = 1)
    (found : t.get? name = some { symbol := .var x, generated }) (plain : x.isClassVar = false)
    (h : (scan v as t).2 = .ok own) :
    (scan v as t).1.get? name = some (readMember v x generated) := by
  induction as generalizing t own with
  | nil => cases once
  | cons a rest ih =>
    rw [List.map_cons, List.count_cons] at once
    by_cases hname : a.target.name = name
    · subst hname
      rw [beq_self_eq_true, if_pos rfl, Nat.succ.injEq, List.count_eq_zero] at once
      have hvisit : visit (t.get? a.target.name) = .field x generated := by
        rw [found, visit, if_neg (by simp [plain])]
      rw [scan, hvisit]
      dsimp only
      rw [get?_scan_of_not_field v, Table.get?_insert_self]
      intro b hb he
      exact absurd (he ▸ List.mem_map_of_mem hb) once
    · rw [if_neg (by simpa using hname), Nat.add_zero] at once
      rw [scan] at h ⊢
      cases hvisit : visit (t.get? a.target.name) with
      | skip =>
        rw [hvisit] at h
        exact ih once found h
      | stop =>
        rw [hvisit] at h
        cases h
      | field y g =>
        rw [hvisit] at h
        obtain ⟨rest', hrest, -⟩ := exists_of_map_ok h
        refine ih once ?_ hrest
        rw [Table.get?_insert, if_neg hname, found]

/-- Reading finds one field for every declaration of an instance variable, under its name. -/
private theorem names_scan {as : List Assignment} {t : Table Member} {own : List Field}
    (h : (scan v as t).2 = .ok own) :
    own.map Field.name =
      (as.filter fun a => isField (t.get? a.target.name)).map fun a => a.target.name := by
  induction as generalizing t own with
  | nil =>
    cases h
    rfl
  | cons a rest ih =>
    rw [scan] at h
    cases hv : visit (t.get? a.target.name) with
    | skip =>
      rw [hv] at h
      have hskip : isField (t.get? a.target.name) = false := by rw [isField, hv]
      rw [List.filter_cons_of_neg (by simp [hskip])]
      exact ih h
    | stop =>
      rw [hv] at h
      cases h
    | field x generated =>
      rw [hv] at h
      obtain ⟨fields, hfields, rfl⟩ := exists_of_map_ok h
      have hfield : isField (t.get? a.target.name) = true := isField_eq_of_visit hv
      -- Reading a field leaves a field, so the rest is selected alike.
      have hsame : ∀ b : Assignment,
          isField ((t.insert a.target.name (readMember v x generated)).get? b.target.name) =
            isField (t.get? b.target.name) := by
        intro b
        rw [Table.get?_insert]
        split
        · next he => rw [← he, hfield, isField_readMember v _ (visit_eq_field hv).2]
        · rfl
      have hrest := ih hfields
      simp only [hsame] at hrest
      simp only [List.filter_cons, hfield, if_true, List.map_cons, hrest]
      rfl

/-- The names under which the body of a class declares fields: those of the declarations whose
name is an instance variable. -/
def fieldNames (c : ClassDecl) : List String :=
  ((declarations c.body).filter fun a => isField (c.members.get? a.target.name)).map
    fun a => a.target.name

theorem mem_fieldNames {c : ClassDecl} {name : String} :
    name ∈ fieldNames c ↔
      name ∈ (declarations c.body).map (fun a => a.target.name) ∧
        isField (c.members.get? name) = true := by
  constructor
  · intro h
    obtain ⟨a, ha, rfl⟩ := List.mem_map.mp h
    obtain ⟨hmem, hfield⟩ := List.mem_filter.mp ha
    exact ⟨List.mem_map_of_mem hmem, hfield⟩
  · rintro ⟨h, hfield⟩
    obtain ⟨a, ha, rfl⟩ := List.mem_map.mp h
    exact List.mem_map.mpr ⟨a, List.mem_filter.mpr ⟨ha, hfield⟩, rfl⟩

/-- The fields that reading finds have the names under which the body declares fields. -/
theorem names_of_readBody {c : ClassDecl} {own : List Field}
    (h : (readBody v c.body c.members).2 = .ok own) : own.map Field.name = fieldNames c := by
  rw [readBody_eq_scan] at h
  exact names_scan v h

/-- Reading neither writes nor takes a written member away. -/
theorem isSome_written?_readClass (c : ClassDecl) (name : String) :
    ((readClass v c).written? name).isSome = (c.written? name).isSome := by
  rw [ClassDecl.written?, ClassDecl.written?, readClass, readBody_eq_scan]
  rcases get?_scan v (declarations c.body) c.members name with h | ⟨x, ty, generated, hx, -, h⟩
  · rw [h]
  · rw [h, hx]
    cases generated <;> rfl

/-- Under a name that is none of its fields, a class holds the same once it was read. -/
theorem get?_readClass_of_not_mem {c : ClassDecl} {name : String} (foreign : name ∉ fieldNames c) :
    (readClass v c).members.get? name = c.members.get? name := by
  rw [readClass, readBody_eq_scan]
  apply get?_scan_of_not_field
  rintro a ha rfl
  by_contra hfield
  exact foreign (mem_fieldNames.mpr ⟨List.mem_map_of_mem ha, by simpa using hfield⟩)

/-! ## What is added -/

section Completed

variable (r : Registry) (id : ClassId) (c : ClassDecl) (m : Collection)

/-- The members that a run adds to its class, once the fields are collected. -/
def added : List (String × Symbol) :=
  let read := r.set id (readClass v c)
  let cleared := (readClass v c).clearGenerated
  additions v (Flags.ofDecorator (v.decorator? c))
    (initParameters (read.set id cleared) id m.fields) (!m.plain.isEmpty) cleared

/-- The table with the members that are added, before the fields are marked. -/
def draft : Table Member :=
  (readClass v c).clearGenerated.members.insertAll (Draft.entriesOf (added v r id c m))

variable {v r id c m}

/-- Where nothing is added, the written member stays. -/
theorem get?_draft_of_not_mem {name : String} (h : name ∉ (added v r id c m).map Prod.fst) :
    (draft v r id c m).get? name = (readClass v c).written? name := by
  rw [draft, Table.get?_insertAll_of_not_mem, ClassDecl.get?_clearGenerated]
  rwa [Draft.names_entriesOf]

/-- Where something is added, that is the member. -/
theorem get?_draft_of_mem {name : String} (h : name ∈ (added v r id c m).map Prod.fst) :
    ∃ symbol, (name, symbol) ∈ added v r id c m ∧
      (draft v r id c m).get? name = some { symbol, generated := true } := by
  rw [← Draft.names_entriesOf] at h
  obtain ⟨member, hmem, hget⟩ :=
    (readClass v c).clearGenerated.members.exists_get?_insertAll h
  obtain ⟨a, ha, he⟩ := List.mem_map.mp hmem
  cases he
  exact ⟨a.2, ha, hget⟩

private theorem wantsTypeVar_readClass (flags : Flags) :
    wantsTypeVar flags (readClass v c).clearGenerated = wantsTypeVar flags c.clearGenerated := by
  have hcontains : (readClass v c).clearGenerated.members.contains "__eq__" =
      c.clearGenerated.members.contains "__eq__" := by
    rw [Table.contains, Table.contains, ClassDecl.get?_clearGenerated,
      ClassDecl.get?_clearGenerated, isSome_written?_readClass]
  rw [wantsTypeVar, wantsTypeVar, wantsEquality, wantsEquality, hcontains]

/-- Under the name of a written member only the type variable is added. -/
theorem mem_added_iff {name : String} (written : ((readClass v c).written? name).isSome = true) :
    name ∈ (added v r id c m).map Prod.fst ↔
      v.selfTypeVar = name ∧
        wantsTypeVar (Flags.ofDecorator (v.decorator? c)) c.clearGenerated = true := by
  rw [← wantsTypeVar_readClass]
  constructor
  · intro h
    refine (written?_of_mem_additions _ _ _ _ _ h).resolve_left fun hnone => ?_
    rw [ClassDecl.written?_clearGenerated] at hnone
    rw [hnone] at written
    cases written
  · rintro ⟨rfl, wants⟩
    exact selfTypeVar_mem_additions _ _ _ _ _ wants

/-! ## What is left -/

variable (v r id c m)

/-- The type of the read-only copy of a field. -/
def copyTy (name : String) : Ty :=
  let read := r.set id (readClass v c)
  let full := extended v read id m (readClass v c).clearGenerated
  (fieldTy? (read.set id full) id name).getD .any

/-- The class as a completed run leaves it. -/
def completed : ClassDecl :=
  let read := r.set id (readClass v c)
  finished v read id m.plain (extended v read id m (readClass v c).clearGenerated)

/-- A completed run leaves the linearized ancestors alone. -/
theorem mro_completed : (completed v r id c m).mro = c.mro := rfl

/-- The table that a completed run leaves: what was added is marked, and the constructor-only fields
are dropped. -/
theorem members_completed :
    (completed v r id c m).members =
      ((m.plain.filter fun f => !f.initOnly).foldl
        (ClassDecl.mark c.fullname (copyTy v r id c m)
          (Flags.ofDecorator (v.decorator? c)).frozen) (draft v r id c m)).filter
        fun name _ => !(initOnlyNames m.plain).contains name := rfl

/-- The member that a completed run leaves under a name. -/
theorem get?_completed (name : String) :
    (completed v r id c m).members.get? name =
      if name ∈ initOnlyNames m.plain then none
      else ((m.plain.filter fun f => !f.initOnly).filter fun f => f.name == name).foldl
        (ClassDecl.afterMark c.fullname (copyTy v r id c m)
          (Flags.ofDecorator (v.decorator? c)).frozen) ((draft v r id c m).get? name) := by
  rw [members_completed, Table.get?_filter_key, ClassDecl.get?_foldl_mark]
  by_cases h : name ∈ initOnlyNames m.plain <;> simp [h]

/-- Among distinct names, that of a field that instances keep stays in the table. -/
theorem not_mem_initOnlyNames {fields : List Field} (nodup : (fields.map Field.name).Nodup)
    {f : Field} (hf : f ∈ fields) (kept : f.initOnly = false) :
    f.name ∉ initOnlyNames fields := by
  intro hgone
  obtain ⟨g, hg, hname⟩ := List.mem_map.mp hgone
  obtain ⟨hg, hinit⟩ := List.mem_filter.mp hg
  obtain rfl : g = f := List.inj_on_of_nodup_map nodup hg hf hname
  rw [kept] at hinit
  cases hinit

/-- Under the name of a field that no other merged field has, a completed run does what this field
asks for. -/
theorem get?_completed_of_alone {f : Field}
    (alone : (m.plain.filter fun g => g.name == f.name) = [f]) :
    (completed v r id c m).members.get? f.name =
      if f.initOnly then none
      else ClassDecl.afterMark c.fullname (copyTy v r id c m)
        (Flags.ofDecorator (v.decorator? c)).frozen ((draft v r id c m).get? f.name) f := by
  have hselected : ∀ g, g = f ↔ g ∈ m.plain ∧ g.name = f.name := by
    intro g
    have hmem : g ∈ [f] ↔ g ∈ m.plain ∧ (g.name == f.name) = true := alone ▸ List.mem_filter
    rwa [List.mem_singleton, beq_iff_eq] at hmem
  rw [get?_completed, List.filter_comm, alone]
  cases hinit : f.initOnly with
  | true =>
    have hgone : f.name ∈ initOnlyNames m.plain :=
      List.mem_map_of_mem (List.mem_filter.mpr ⟨((hselected f).mp rfl).1, hinit⟩)
    rw [if_pos hgone, if_pos rfl]
  | false =>
    have hstays : f.name ∉ initOnlyNames m.plain := by
      intro hmem
      obtain ⟨g, hg, hname⟩ := List.mem_map.mp hmem
      obtain ⟨hg, hgone⟩ := List.mem_filter.mp hg
      rw [(hselected g).mpr ⟨hg, hname⟩, hinit] at hgone
      cases hgone
    rw [if_neg hstays, if_neg Bool.false_ne_true, List.filter_cons, hinit]
    rfl

/-- What a completed run leaves and is no variable is what it found or added. -/
theorem get?_draft_of_completed {name : String} {a : Member}
    (h : (completed v r id c m).members.get? name = some a) (plain : a.symbol.isVar = false) :
    (draft v r id c m).get? name = some a := by
  rw [get?_completed] at h
  split at h
  · cases h
  · exact ClassDecl.eq_of_foldl_afterMark h plain

/-- Under a name that is none of the fields, a completed run leaves what it found or added. -/
theorem get?_completed_of_not_mem {name : String} (foreign : name ∉ m.plain.map Field.name) :
    (completed v r id c m).members.get? name = (draft v r id c m).get? name := by
  have hgone : name ∉ initOnlyNames m.plain :=
    fun h => foreign (List.map_subset _ (List.filter_subset_self _) h)
  have hnone : (m.plain.filter fun f => !f.initOnly).filter (fun f => f.name == name) = [] := by
    apply List.filter_eq_nil_iff.mpr
    intro f hf hname
    have hmem := List.mem_map_of_mem (f := Field.name) (List.mem_filter.mp hf).1
    rw [beq_iff_eq.mp hname] at hmem
    exact foreign hmem
  rw [get?_completed, if_neg hgone, hnone, List.foldl_nil]

/-- A completed run leaves no written member under a name that had none. -/
theorem written?_completed_of_none {name : String} (h : c.written? name = none) :
    (completed v r id c m).written? name = none := by
  have hread : (readClass v c).written? name = none := by
    have hsome := isSome_written?_readClass v c name
    rw [h] at hsome
    simpa using hsome
  have hdraft : ∀ a, (draft v r id c m).get? name = some a → a.generated = true := by
    intro a ha
    by_cases hmem : name ∈ (added v r id c m).map Prod.fst
    · obtain ⟨symbol, -, hget⟩ := get?_draft_of_mem hmem
      rw [hget] at ha
      cases ha
      rfl
    · rw [get?_draft_of_not_mem hmem, hread] at ha
      cases ha
  rw [ClassDecl.written?, Option.filter_eq_none_iff]
  intro a ha
  rw [get?_completed] at ha
  split at ha
  · cases ha
  · rw [ClassDecl.generated_of_foldl_afterMark hdraft ha]
    exact Bool.false_ne_true

/-- The statements that a completed run leaves: the old ones but for generated methods, and the
methods that were added. -/
theorem body_completed :
    (completed v r id c m).body =
      (c.body.filter (stays (readClass v c).generatedMethods) ++
        Draft.statementsOf (added v r id c m)).map (unbind (initOnlyNames m.plain)) := rfl

/-- A declaration without its binding, where it has one of these names. -/
def unbindTarget (names : List String) (a : Assignment) : Assignment :=
  if names.contains a.target.name then { a with target := { a.target with binding := none } } else a

private theorem declaration?_unbind (names : List String) (s : Statement) :
    declaration? (unbind names s) = (declaration? s).map (unbindTarget names) := by
  cases s with
  | method f => rfl
  | pass => rfl
  | assign a =>
    cases hd : a.isDeclaration with
    | false => simp [unbind, declaration?, hd]
    | true =>
      cases hn : names.contains a.target.name with
      | false =>
        simp only [unbind, declaration?, unbindTarget, hd, hn, Bool.and_false, Bool.false_eq_true,
          if_false, if_true, Option.map_some]
      | true =>
        have hd' : (Assignment.mk { a.target with binding := none } a.declaredTy a.value
            a.position).isDeclaration = true := hd
        simp only [unbind, declaration?, unbindTarget, hd, hn, hd', Bool.and_self, if_true,
          Option.map_some]

/-- A completed run keeps the declarations, those of its constructor-only fields unbound. -/
theorem declarations_completed :
    declarations (completed v r id c m).body =
      (declarations c.body).map (unbindTarget (initOnlyNames m.plain)) := by
  have hstays : ∀ stale, declarations (c.body.filter (stays stale)) = declarations c.body := by
    intro stale
    rw [declarations, declarations, List.filterMap_filter]
    congr 1
    funext s
    cases s with
    | assign a => rfl
    | pass => rfl
    | method f =>
      split <;> rfl
  have hadded : declarations (Draft.statementsOf (added v r id c m)) = [] := by
    apply List.filterMap_eq_nil_iff.mpr
    intro s hs
    obtain ⟨f, -, rfl⟩ := List.mem_map.mp hs
    rfl
  rw [body_completed, declarations, List.filterMap_map]
  have hunbind : (declaration? ∘ unbind (initOnlyNames m.plain)) =
      fun s => (declaration? s).map (unbindTarget (initOnlyNames m.plain)) :=
    funext (declaration?_unbind _)
  rw [hunbind, ← List.map_filterMap]
  show (declarations _).map _ = _
  rw [declarations, List.filterMap_append]
  show (declarations _ ++ declarations _).map _ = _
  rw [hstays, hadded, List.append_nil]

/-- The record that a completed run leaves is that of the fields. -/
theorem record?_completed :
    (completed v r id c m).record? v.recordKey =
      .ok (some (Record.ofFields m.plain (Flags.ofDecorator (v.decorator? c)).frozen)) :=
  ClassDecl.record?_withRecord _ _ _

variable {v r id c m}

/-- What the run of a class is that has collected its fields. -/
theorem run_of_collect (registered : r.get? id = some c)
    (h : collect v (r.set id (readClass v c)) id c.mro (readBody v c.body c.members).2 = .ok m) :
    run v r id =
      { registry := r.set id (completed v r id c m)
        result := .ok
          { fields := m.plain
            flags := Flags.ofDecorator (v.decorator? c)
            generated := (added v r id c m).map Prod.fst
            dependencies := m.dependencies }
        log := orderLog m.plain ++ Flags.misuses (v.decorator? c) c.position ++
          orderReports v (Flags.ofDecorator (v.decorator? c)) (readClass v c).clearGenerated } := by
  have hregistry : (r.set id (readClass v c)).set id (completed v r id c m) =
      r.set id (completed v r id c m) := Registry.set_set r id _ _
  rw [run_of_get? v registered, h, ← hregistry]
  dsimp only
  rw [complete_eq]
  rfl

/-- A run that completes has read and collected the fields of its class, answers with them, and
leaves the class completed. -/
theorem run_of_ok {s : Synthesis} (registered : r.get? id = some c)
    (h : (run v r id).result = .ok s) :
    ∃ own m, (readBody v c.body c.members).2 = .ok own ∧
      collect v (r.set id (readClass v c)) id c.mro (.ok own) = .ok m ∧
      s = { fields := m.plain
            flags := Flags.ofDecorator (v.decorator? c)
            generated := (added v r id c m).map Prod.fst
            dependencies := m.dependencies } ∧
      (run v r id).registry = r.set id (completed v r id c m) ∧
      (run v r id).registry.get? id = some (completed v r id c m) := by
  cases hm : collect v (r.set id (readClass v c)) id c.mro (readBody v c.body c.members).2 with
  | error halt =>
    rw [run_of_get? v registered, hm] at h
    cases h
  | ok m =>
    have hread : ∃ own, (readBody v c.body c.members).2 = .ok own := by
      cases hown : (readBody v c.body c.members).2 with
      | error deferral =>
        rw [hown] at hm
        cases hm
      | ok own => exact ⟨own, rfl⟩
    obtain ⟨own, hown⟩ := hread
    have hrun := run_of_collect registered hm
    rw [hrun] at h ⊢
    exact ⟨own, m, hown, hown ▸ hm, (Except.ok.inj h).symm, rfl,
      Registry.get?_set_self _ _ _ (Registry.lt_size_of_get? registered)⟩

/-- The reports of a run that completes: those on its fields, those on the decorator, and those on
ordering. -/
theorem log_of_ok {s : Synthesis} (registered : r.get? id = some c)
    (h : (run v r id).result = .ok s) :
    (run v r id).log =
      orderLog s.fields ++ Flags.misuses (v.decorator? c) c.position ++
        orderReports v s.flags (readClass v c).clearGenerated := by
  obtain ⟨own, m, hown, hm, rfl, -⟩ := run_of_ok registered h
  rw [run_of_collect registered (hown ▸ hm)]

end Completed

end Synthesis

end DataHolder
