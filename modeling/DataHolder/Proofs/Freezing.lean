import DataHolder.Proofs.Raising

/-!
# Which fields end up read-only

Freezing comes last and looks at a table that reading, clearing and generation have passed over.
Under the name of a field that instances keep it finds the written variable, as it was before the
run, or no variable at all; the first it marks, and in the place of the second it puts a copy.
Where the class is not frozen, nothing is left of either.
-/

namespace DataHolder

/-- The type that a symbol is known to have as a variable; any where it is none or has no type. -/
def Symbol.knownTy : Symbol → Ty
  | .var x => x.ty.ty?.getD .any
  | .method _ => .any
  | .typeVar _ => .any
  | .placeholder => .any

/-- Without freezing, marking takes the mark off. -/
theorem ClassDecl.afterMark_of_not_frozen (owner : String) (ty : String → Ty) (old : Option Member)
    (f : Field) : afterMark owner ty false old f = old.map Member.unmarked := by
  rcases old with _ | ⟨symbol, generated⟩
  · rfl
  · cases symbol <;> rfl

/-- Without freezing, what marking leaves was generated and a variable before. -/
theorem ClassDecl.isCopy_foldl_afterMark (owner : String) (ty : String → Ty) (old : Option Member)
    (fields : List Field) :
    (fields.foldl (afterMark owner ty false) old).any Member.isCopy = old.any Member.isCopy := by
  induction fields generalizing old with
  | nil => rfl
  | cons f fields ih =>
    rw [List.foldl_cons, ih, afterMark_of_not_frozen]
    rcases old with _ | ⟨symbol, generated⟩
    · rfl
    · cases symbol <;> rfl

namespace Synthesis

variable {v : Vocabulary} {r : Registry} {id : ClassId} {c : ClassDecl} {m : Collection}
  {f : Field}

/-! ## The class before its fields are marked -/

/-- The class just before its fields are marked: it was read and cleared, and what the run
generates was added. -/
def beforeMarking (v : Vocabulary) (r : Registry) (id : ClassId) (c : ClassDecl) (m : Collection) :
    ClassDecl :=
  extended v (r.set id (readClass v c)) id m (readClass v c).clearGenerated

/-- The copy of a field has the type that is known of what is shown before the fields are
marked. -/
theorem copyTy_eq (name : String) :
    copyTy v r id c m name =
      ((declared? (r.set id (beforeMarking v r id c m)) id name).map Symbol.knownTy).getD .any := by
  have hregistry : (r.set id (readClass v c)).set id (beforeMarking v r id c m) =
      r.set id (beforeMarking v r id c m) := Registry.set_set r id _ _
  have hty : ∀ s : Option Symbol,
      (s.bind Symbol.fieldTy?).getD .any = (s.map Symbol.knownTy).getD .any := by
    intro s
    rcases s with _ | s
    · rfl
    · cases s <;> rfl
  rw [← hregistry, ← hty]
  rfl

/-- Before the fields are marked there is no generated variable. -/
theorem isCopy_draft (name : String) :
    ((draft v r id c m).get? name).any Member.isCopy = false := by
  by_cases h : name ∈ (added v r id c m).map Prod.fst
  · obtain ⟨symbol, hadded, hdraft⟩ := get?_draft_of_mem h
    rw [hdraft]
    rcases of_mem_additions _ _ _ _ _ hadded with ⟨-, method, rfl⟩ | ⟨-, decl, rfl⟩ <;> rfl
  · rw [get?_draft_of_not_mem h]
    cases hw : (readClass v c).written? name with
    | none => rfl
    | some w =>
      have hwritten : w.generated = false := by simpa using (Option.filter_eq_some_iff.mp hw).2
      rw [Option.any_some, Member.isCopy, hwritten, Bool.false_and]

/-! ## Fields of distinct names -/

/-- A name that is once among those of the fields of a body is declared once. -/
private theorem count_declarations_of_once (once : (fieldNames c).Nodup) {name : String}
    (own : name ∈ fieldNames c) :
    ((declarations c.body).map fun a => a.target.name).count name = 1 := by
  have hselected : fieldNames c = ((declarations c.body).map fun a => a.target.name).filter
      fun name => isField (c.members.get? name) := by
    rw [List.filter_map]
    rfl
  rw [← List.count_filter (p := fun name => isField (c.members.get? name)) (mem_fieldNames.mp own).2,
    ← hselected]
  exact List.count_eq_one_of_mem once own

section Distinct

variable (distinct : (m.plain.map Field.name).Nodup) (hf : f ∈ m.plain)

include distinct hf

/-- No other merged field has the name. -/
private theorem alone_of_distinct : (m.plain.filter fun g => g.name == f.name) = [f] :=
  filter_name_of_once (List.nodup_iff_count_le_one.mp distinct f.name) hf

variable {own : List Field} (hread : (readBody v c.body c.members).2 = .ok own)
  (hm : collect v (r.set id (readClass v c)) id c.mro (.ok own) = .ok m) (kept : f.initOnly = false)

include hread hm kept

/-- Reading leaves what stands under the name of a field that instances keep. -/
theorem get?_readClass_of_kept :
    (readClass v c).members.get? f.name = c.members.get? f.name := by
  by_cases hown : f.name ∈ fieldNames c
  · have hgather := gather_of_collect hm
    have hnames := names_of_readBody v hread
    have honce : (fieldNames c).Nodup := by
      rw [← hnames]
      exact (nodup_plain_of_gather_iff hgather).mp distinct
    -- The field is the one that the body declares, for no other has the name.
    obtain ⟨g, hg, hname⟩ := List.mem_map.mp (hnames ▸ hown)
    obtain rfl : g = f :=
      List.inj_on_of_nodup_map distinct ((mem_plain_of_gather hgather).1 g hg) hf hname
    have hcount := count_declarations_of_once honce hown
    rw [readBody_eq_scan] at hread
    obtain ⟨⟨a, x⟩, hp, rfl⟩ := List.mem_map.mp (eq_map_visits v hread ▸ hg)
    obtain ⟨generated, hget, hclass⟩ := get?_of_visited_once v (Nat.le_of_eq hcount) hp
    have hplain : x.isInitOnly v = false := (Bool.or_eq_false_iff.mp kept).1
    have hscan := get?_scan_of_once v hcount hget hclass hread
    rw [readMember, unwrap_of_not_initOnly v hplain] at hscan
    rw [readClass, readBody_eq_scan]
    exact hscan.trans hget.symm
  · exact get?_readClass_of_not_mem v hown

/-- What a frozen class has under the name of a field that instances keep: the written variable,
or else a copy. -/
theorem frozen_entry (frozen : (Flags.ofDecorator (v.decorator? c)).frozen = true) :
    ((f.name ∉ (added v r id c m).map Prod.fst ∧ ∃ y, c.written? f.name = some { symbol := .var y } ∧
      (completed v r id c m).members.get? f.name =
        some { symbol := .var { y with isReadOnly := true } }) ∨
    ((f.name ∈ (added v r id c m).map Prod.fst ∨
        ∀ y, c.written? f.name ≠ some { symbol := .var y }) ∧
      (completed v r id c m).members.get? f.name =
        some (ClassDecl.copyIn c.fullname f (copyTy v r id c m f.name)))) := by
  have hwritten : (readClass v c).written? f.name = c.written? f.name := by
    rw [ClassDecl.written?, get?_readClass_of_kept distinct hf hread hm kept]
    rfl
  rw [get?_completed_of_alone v r id c m (alone_of_distinct distinct hf), kept,
    if_neg Bool.false_ne_true, frozen]
  by_cases hadded : f.name ∈ (added v r id c m).map Prod.fst
  · refine .inr ⟨.inl hadded, ?_⟩
    obtain ⟨symbol, hmem, hdraft⟩ := get?_draft_of_mem hadded
    rw [hdraft]
    rcases of_mem_additions _ _ _ _ _ hmem with ⟨-, method, rfl⟩ | ⟨-, decl, rfl⟩ <;> rfl
  · rw [get?_draft_of_not_mem hadded, hwritten]
    cases hw : c.written? f.name with
    | none => exact .inr ⟨.inr fun y => by simp, rfl⟩
    | some w =>
      obtain ⟨symbol, generated⟩ := w
      obtain rfl : generated = false := by simpa using (Option.filter_eq_some_iff.mp hw).2
      cases symbol with
      | var y => exact .inl ⟨hadded, y, rfl, rfl⟩
      | method method => exact .inr ⟨.inr fun y => by simp, rfl⟩
      | typeVar decl => exact .inr ⟨.inr fun y => by simp, rfl⟩
      | placeholder => exact .inr ⟨.inr fun y => by simp, rfl⟩

end Distinct

/-! ## A completed run -/

/-- Where the class is not frozen, a completed run leaves no copy, and no variable of a merged field
is read-only. -/
private theorem thawed (frozen : (Flags.ofDecorator (v.decorator? c)).frozen = false)
    (distinct : (m.plain.map Field.name).Nodup) :
    (∀ name w, (completed v r id c m).members.get? name = some w → w.isCopy = false) ∧
    ∀ f ∈ m.plain, ∀ x generated,
      (completed v r id c m).members.get? f.name = some { symbol := .var x, generated } →
        x.isReadOnly = false := by
  constructor
  · intro name w hw
    rw [get?_completed, frozen] at hw
    split at hw
    · cases hw
    · have hcopy : ((draft v r id c m).get? name).any Member.isCopy = false := isCopy_draft name
      rw [← ClassDecl.isCopy_foldl_afterMark, hw] at hcopy
      exact hcopy
  · intro f hf x generated hx
    rw [get?_completed_of_alone v r id c m (alone_of_distinct distinct hf), frozen,
      ClassDecl.afterMark_of_not_frozen] at hx
    split at hx
    · cases hx
    · obtain ⟨⟨symbol, g⟩, -, he⟩ := Option.map_eq_some_iff.mp hx
      cases symbol <;> cases he
      rfl

/-- A completed run changes its own class alone. Where the merged fields have distinct names and the
class is frozen, it has a read-only variable for each of them that instances keep. This is the
written variable, as it was but for the mark, unless there is none or the run has generated a member
over it; then it is a copy, which goes by the class and the field, stands where the field does, and
has the type that is known, just before the fields are marked, of what the linearized ancestors show
when copies are looked through. Where the class is not frozen, it has no copy, and no variable of a
merged field is read-only. -/
theorem read_only_fields {s : Synthesis} (registered : r.get? id = some c)
    (completes : (run v r id).result = .ok s) (distinct : (s.fields.map Field.name).Nodup) :
    (∀ a, a ≠ id → (run v r id).registry.get? a = r.get? a) ∧
    ∃ (m : Collection) (d : ClassDecl),
      collect v (r.set id (readClass v c)) id c.mro (readBody v c.body c.members).2 = .ok m ∧
      m.plain = s.fields ∧
      (run v r id).registry.get? id = some d ∧
      d = finished v (r.set id (readClass v c)) id s.fields (beforeMarking v r id c m) ∧
      (s.flags.frozen = true → ∀ f ∈ s.fields, f.initOnly = false →
        ∃ x generated, d.members.get? f.name = some { symbol := .var x, generated } ∧
          x.isReadOnly = true ∧
          (generated = true ↔
            f.name ∈ s.generated ∨ ∀ y, c.written? f.name ≠ some { symbol := .var y }) ∧
          (generated = true →
            x.name = f.name ∧ x.fullname = qualify c.fullname f.name ∧ x.position = f.position ∧
            x.ty = .resolved (((declared? (r.set id (beforeMarking v r id c m)) id f.name).map
              Symbol.knownTy).getD .any)) ∧
          (generated = false → ∃ y, c.written? f.name = some { symbol := .var y } ∧
            x = { y with isReadOnly := true })) ∧
      (s.flags.frozen = false →
        (∀ name w, d.members.get? name = some w → w.isCopy = false) ∧
        ∀ f ∈ s.fields, ∀ x generated,
          d.members.get? f.name = some { symbol := .var x, generated } →
            x.isReadOnly = false) := by
  obtain ⟨own, m, hread, hm, rfl, hregistry, hleft⟩ := run_of_ok registered completes
  refine ⟨?_, m, _, hread ▸ hm, rfl, hleft, rfl, ?_, fun frozen => thawed frozen distinct⟩
  · intro a ha
    rw [hregistry, Registry.get?_set_ne _ _ (Ne.symm ha)]
  · intro frozen f hf kept
    rcases frozen_entry distinct hf hread hm kept frozen with
      ⟨hadded, y, hy, hget⟩ | ⟨hcopied, hget⟩
    · refine ⟨_, false, hget, rfl, ?_, fun h => absurd h Bool.false_ne_true, fun _ => ⟨y, hy, rfl⟩⟩
      refine iff_of_false Bool.false_ne_true ?_
      rintro (h | h)
      · exact hadded h
      · exact h y hy
    · refine ⟨_, true, hget, rfl, iff_of_true rfl hcopied, fun _ => ⟨rfl, rfl, rfl, ?_⟩,
        fun h => absurd h.symm Bool.false_ne_true⟩
      rw [← copyTy_eq]
      rfl

/-- A chain of frozen classes: the first declares a field, the second has a copy of it, and the
third adds a field of its own. -/
private def chilledClass : ClassId → ClassDecl
  | 1 => { frozenClass "Base" [1, 0] with body := [declare "x" 2 "builtins.int"] }
  | 2 => frozenClass "Middle" [2, 1, 0]
  | 3 => { frozenClass "Leaf" [3, 2, 1, 0] with body := [declare "y" 8 "builtins.str"] }
  | _ => { name := "object", fullname := "object", mro := [0] }
where
  /-- A frozen class without a body. -/
  frozenClass (name : String) (mro : List ClassId) : ClassDecl :=
    { name, fullname := name, mro
      decorators := [.call (.name { name := "dataclass" })
        [{ keyword := some "frozen", value := .bool true }]] }
  /-- A declaration in some line. -/
  declare (name : String) (line : UInt32) (ty : String) : Statement :=
    .assign
      { target := { name }, declaredTy := some (.resolved (.named ty)), value := .empty
        position := ⟨line, 4⟩ }

/-- The registry in which the last class is to be run. -/
private def chilled : Registry :=
  (run {} (run {} ⟨(List.range 4).map fun id => (chilledClass id).bind⟩ 1).registry 2).registry

theorem read_only_fields_leaf : ∃ d : ClassDecl,
    (run {} chilled 3).registry.get? 3 = some d ∧
    (∃ x, d.members.get? "x" = some { symbol := .var x, generated := true } ∧
      x.isReadOnly = true ∧ x.fullname = "Leaf.x" ∧ x.position = ⟨2, 4⟩ ∧
      x.ty = .resolved (.named "builtins.int")) ∧
    ∃ y, d.members.get? "y" = some { symbol := .var y } ∧ y.isReadOnly = true := by
  have completes : (run {} chilled 3).result =
      .ok
        { fields := [{ name := "x", position := ⟨2, 4⟩ }, { name := "y", position := ⟨8, 4⟩ }]
          flags := { frozen := true }
          generated := ["__init__", "_DT", "__eq__", "__ne__"]
          dependencies := ["Middle", "Base"] } := rfl
  obtain ⟨-, m, d, hm, -, hd, -, hfrozen, -⟩ :=
    read_only_fields (rfl : chilled.get? 3 = some (chilledClass 3).bind) completes (by decide)
  obtain ⟨x, generated, hx, hmark, hiff, hcopy, -⟩ :=
    hfrozen rfl { name := "x", position := ⟨2, 4⟩ } (by decide) rfl
  obtain ⟨y, generated', hy, hmark', hiff', -, hown⟩ :=
    hfrozen rfl { name := "y", position := ⟨8, 4⟩ } (by decide) rfl
  obtain rfl : generated = true := hiff.mpr (.inr fun y h => by cases h)
  obtain rfl : generated' = false := by
    by_contra h
    rcases hiff'.mp (by simpa using h) with h | h
    · exact absurd h (by decide)
    · exact h _ rfl
  obtain ⟨-, hfullname, hposition, hty⟩ := hcopy rfl
  obtain rfl : m =
      { fields :=
          [{ field := { name := "x", position := ⟨2, 4⟩ } },
            { field := { name := "y", position := ⟨8, 4⟩ } }]
        dependencies := ["Middle", "Base"] } := Except.ok.inj (hm.symm.trans rfl)
  exact ⟨d, hd, ⟨x, hx, hmark, hfullname, hposition, hty⟩, y, hy, hmark'⟩

end Synthesis

end DataHolder
