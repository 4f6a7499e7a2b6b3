import DataHolder.Proofs.Table
import DataHolder.Synthesis.ReadOnly

/-!
# Tables up to marks and order

Two runs may find the table of a class with other read-only marks on the variables of its
fields, and with its constructor-only fields in other places. Marking the fields makes the
marks agree, and dropping the constructor-only fields takes the places away that may differ:
what is left is the same table.
-/

namespace DataHolder

/-! ## Members without their marks -/

/-- A symbol without its read-only mark. -/
def Symbol.unmarked : Symbol → Symbol
  | .var x => .var { x with isReadOnly := false }
  | s => s

/-- A member without its read-only mark. -/
def Member.unmarked (m : Member) : Member := { m with symbol := m.symbol.unmarked }

theorem Member.unmarked_of_not_var {m : Member} (h : m.symbol.isVar = false) :
    m.unmarked = m := by
  obtain ⟨symbol, generated⟩ := m
  cases symbol with
  | var x => cases h
  | method m => rfl
  | typeVar d => rfl
  | placeholder => rfl

theorem Symbol.isVar_unmarked (s : Symbol) : s.unmarked.isVar = s.isVar := by
  cases s <;> rfl

theorem Symbol.position?_unmarked (s : Symbol) : s.unmarked.position? = s.position? := by
  cases s <;> rfl

/-- Two members that differ in their marks alone are both generated or both written. -/
theorem Member.generated_eq {m m' : Member} (h : m.unmarked = m'.unmarked) :
    m.generated = m'.generated := by
  have hg := congrArg Member.generated h
  exact hg

theorem Member.isVar_eq {m m' : Member} (h : m.unmarked = m'.unmarked) :
    m.symbol.isVar = m'.symbol.isVar := by
  have hs := congrArg (fun m => m.symbol.isVar) h
  simpa only [Member.unmarked, Symbol.isVar_unmarked] using hs

/-- Two members that differ in their marks alone, and are no variables, are equal. -/
theorem Member.eq_of_not_var {m m' : Member} (h : m.unmarked = m'.unmarked)
    (hv : m.symbol.isVar = false) : m = m' := by
  have hv' : m'.symbol.isVar = false := by rw [← Member.isVar_eq h, hv]
  rw [← Member.unmarked_of_not_var hv, h, Member.unmarked_of_not_var hv']

/-! ## Marking -/

namespace ClassDecl

/-- The read-only copy of an inherited field, in a class of this name. -/
def copyIn (owner : String) (f : Field) (ty : Ty) : Member :=
  { symbol := .var { f.toVariable ty with fullname := qualify owner f.name, isReadOnly := true }
    generated := true }

/-- The member that marking leaves under the name of a field, where it stores one. -/
def marked? (owner : String) (ty : String → Ty) (frozen : Bool) (f : Field) :
    Option Member → Option Member
  | some { symbol := .var x, generated } =>
    some { symbol := .var { x with isReadOnly := frozen }, generated }
  | _ => if frozen then some (copyIn owner f (ty f.name)) else none

/-- The table after marking a field. -/
def mark (owner : String) (ty : String → Ty) (frozen : Bool) (t : Table Member) (f : Field) :
    Table Member :=
  match marked? owner ty frozen f (t.get? f.name) with
  | some m => t.insert f.name m
  | none => t

/-- Marking a field changes the table alone. -/
theorem markReadOnly_eq (ty : String → Ty) (frozen : Bool) (c : ClassDecl) (f : Field) :
    c.markReadOnly ty frozen f = { c with members := mark c.fullname ty frozen c.members f } := by
  rw [markReadOnly, mark]
  rcases c.members.get? f.name with _ | ⟨symbol, generated⟩
  · cases frozen <;> rfl
  · cases symbol with
    | var x => rfl
    | method m => cases frozen <;> rfl
    | typeVar d => cases frozen <;> rfl
    | placeholder => cases frozen <;> rfl

/-- Marking all fields changes the table alone. -/
theorem applyReadOnly_eq (ty : String → Ty) (frozen : Bool) (c : ClassDecl) (fields : List Field) :
    c.applyReadOnly ty frozen fields =
      { c with
        members := (fields.filter fun f => !f.initOnly).foldl (mark c.fullname ty frozen)
          c.members } := by
  rw [applyReadOnly]
  induction (fields.filter fun f => !f.initOnly) generalizing c with
  | nil => rfl
  | cons f rest ih => rw [List.foldl_cons, List.foldl_cons, markReadOnly_eq, ih]

end ClassDecl

/-! ## Like tables -/

/-- Two tables with the same members: but for the marks of those under the names of `free`, and
in the same order but for the names of `gone`. -/
structure Like (free gone : List String) (t t' : Table Member) : Prop where
  order : (t.keys.filter fun name => !gone.contains name) =
    t'.keys.filter fun name => !gone.contains name
  members : ∀ name, (t.get? name).map Member.unmarked = (t'.get? name).map Member.unmarked
  marks : ∀ name, name ∉ free → t.get? name = t'.get? name

namespace Like

variable {free gone : List String} {t t' : Table Member}

theorem mem_keys_iff (h : Like free gone t t') (name : String) :
    name ∈ t.keys ↔ name ∈ t'.keys := by
  have hm := congrArg Option.isSome (h.members name)
  rw [Option.isSome_map, Option.isSome_map] at hm
  rw [Table.mem_keys_iff, Table.mem_keys_iff, hm]

theorem mono (h : Like free gone t t') {more : List String} (sub : free ⊆ more) :
    Like more gone t t' :=
  ⟨h.order, h.members, fun name hn => h.marks name fun hf => hn (sub hf)⟩

private theorem filter_keys_insert (t : Table Member) (p : String → Bool) (name : String)
    (m : Member) :
    (t.insert name m).keys.filter p =
      if name ∈ t.keys then t.keys.filter p else t.keys.filter p ++ [name].filter p := by
  rw [Table.keys_insert]
  split
  · rfl
  · rw [List.filter_append]

/-- Storing the same member in both makes them agree under its name. -/
theorem insert (h : Like free gone t t') (name : String) (m : Member) :
    Like (free.filter fun other => other != name) gone (t.insert name m) (t'.insert name m) := by
  constructor
  · rw [filter_keys_insert, filter_keys_insert, h.order]
    simp only [h.mem_keys_iff name]
  · intro other
    rw [Table.get?_insert, Table.get?_insert]
    split
    · rfl
    · exact h.members other
  · intro other ho
    rw [Table.get?_insert, Table.get?_insert]
    split
    · rfl
    · next hne =>
      apply h.marks
      intro hf
      exact ho (List.mem_filter.mpr ⟨hf, by simpa using Ne.symm hne⟩)

theorem insertAll (h : Like free gone t t') (es : List (String × Member)) :
    Like free gone (t.insertAll es) (t'.insertAll es) := by
  induction es generalizing t t' with
  | nil => exact h
  | cons e es ih => exact ih ((h.insert e.1 e.2).mono (List.filter_subset_self _))

private theorem marked?_eq {owner : String} {ty : String → Ty} {frozen : Bool} {f : Field}
    {m m' : Option Member} (h : m.map Member.unmarked = m'.map Member.unmarked) :
    ClassDecl.marked? owner ty frozen f m = ClassDecl.marked? owner ty frozen f m' := by
  rcases m with _ | m
  · rcases m' with _ | m'
    · rfl
    · cases h
  · rcases m' with _ | m'
    · cases h
    · rw [Option.map_some, Option.map_some, Option.some.injEq] at h
      cases hv : m.symbol.isVar with
      | false => rw [Member.eq_of_not_var h hv]
      | true =>
        have hv' : m'.symbol.isVar = true := by rw [← Member.isVar_eq h, hv]
        obtain ⟨symbol, generated⟩ := m
        obtain ⟨symbol', generated'⟩ := m'
        cases symbol with
        | var x =>
          cases symbol' with
          | var x' =>
            have hg : generated = generated' := Member.generated_eq h
            have hx := Symbol.var.inj (congrArg Member.symbol h)
            have hmarked := congrArg (fun x : Variable => { x with isReadOnly := frozen }) hx
            dsimp only at hmarked
            simp only [ClassDecl.marked?]
            rw [hmarked, hg]
          | method m => cases hv'
          | typeVar d => cases hv'
          | placeholder => cases hv'
        | method m => cases hv
        | typeVar d => cases hv
        | placeholder => cases hv

/-- Marking a field makes the marks under its name agree. -/
theorem mark (h : Like free gone t t') (owner : String) (ty : String → Ty) (frozen : Bool)
    (f : Field) :
    Like (free.filter fun name => name != f.name) gone
      (ClassDecl.mark owner ty frozen t f) (ClassDecl.mark owner ty frozen t' f) := by
  rw [ClassDecl.mark, ClassDecl.mark, ← marked?_eq (h.members f.name)]
  cases hm : ClassDecl.marked? owner ty frozen f (t.get? f.name) with
  | some m => exact h.insert f.name m
  | none =>
    refine ⟨h.order, h.members, ?_⟩
    intro name hn
    by_cases hname : name = f.name
    · -- What is not marked is no variable, and has no mark to differ in.
      subst hname
      have hmembers := h.members f.name
      cases ht : t.get? f.name with
      | none =>
        rw [ht, Option.map_none] at hmembers
        exact (Option.map_eq_none_iff.mp hmembers.symm).symm
      | some m =>
        rw [ht, Option.map_some] at hmembers
        obtain ⟨m', ht', he⟩ := Option.map_eq_some_iff.mp hmembers.symm
        have hv : m.symbol.isVar = false := by
          rw [ht] at hm
          obtain ⟨symbol, generated⟩ := m
          cases symbol with
          | var x => cases hm
          | method m => rfl
          | typeVar d => rfl
          | placeholder => rfl
        rw [ht', Member.eq_of_not_var he.symm hv]
    · apply h.marks
      intro hf
      exact hn (List.mem_filter.mpr ⟨hf, by simpa using hname⟩)

theorem foldl_mark (h : Like free gone t t') (owner : String) (ty : String → Ty) (frozen : Bool)
    (fields : List Field) :
    Like (free.filter fun name => !(fields.map Field.name).contains name) gone
      (fields.foldl (ClassDecl.mark owner ty frozen) t)
      (fields.foldl (ClassDecl.mark owner ty frozen) t') := by
  induction fields generalizing free t t' with
  | nil => exact h.mono (by simp)
  | cons f rest ih =>
    refine (ih (h.mark owner ty frozen f)).mono ?_
    intro name hn
    rw [List.filter_filter, List.mem_filter] at hn
    rw [List.mem_filter]
    refine ⟨hn.1, ?_⟩
    simpa [and_comm] using hn.2

/-- Like tables are equal once the names are dropped at which they may differ. -/
theorem filter_eq (h : Like free gone t t') {names : List String} (hfree : free ⊆ names)
    (hgone : gone ⊆ names) :
    (t.filter fun name _ => !names.contains name) =
      t'.filter fun name _ => !names.contains name := by
  apply Table.ext_get?
  · have hboth : ∀ keys : List String, (keys.filter fun name => !names.contains name) =
        (keys.filter fun name => !gone.contains name).filter fun name => !names.contains name := by
      intro keys
      rw [List.filter_filter]
      apply List.filter_congr
      intro name _
      by_cases hn : name ∈ names
      · simp [hn]
      · have hg : name ∉ gone := fun hg => hn (hgone hg)
        simp [hn, hg]
    rw [Table.keys_filter_key, Table.keys_filter_key, hboth, h.order, ← hboth]
  · intro name
    rw [Table.get?_filter, Table.get?_filter]
    by_cases hn : name ∈ names
    · have hdrop : ∀ m : Option Member, (m.filter fun _ => !names.contains name) = none := by
        intro m
        cases m with
        | none => rfl
        | some m => simp [Option.filter, hn]
      rw [hdrop, hdrop]
    · rw [h.marks name fun hf => hn (hfree hf)]

end Like

end DataHolder
