import DataHolder.Proofs.Dependencies
import DataHolder.Proofs.Freezing
import DataHolder.Proofs.Settling

/-!
# Freezing an ancestor

Two copies of a hierarchy are brought up side by side, and some of their classes are frozen in one
copy only. The runs of such a class leave different tables, for one has marks and copies that the
other lacks. To the classes below the two are alike all the same: copies are looked through, marks
do not matter to what a field waits for or to the type of a parameter, and the recorded fields and
the constructors are the same. So a run cannot tell which of its ancestors are frozen.
-/

namespace DataHolder

/-- Two registries with related classes under every number. -/
def Registry.Rel (P : ClassDecl → ClassDecl → Prop) (r q : Registry) : Prop :=
  ∀ a, Option.Rel P (r.get? a) (q.get? a)

namespace Synthesis

variable {v : Vocabulary}

/-! ## Classes that look alike from below -/

/-- Two classes that differ at most in whether the decorator freezes them. -/
structure Refrozen (v : Vocabulary) (c d : ClassDecl) : Prop where
  rest : d = { c with decorators := d.decorators }
  holder : v.isDataHolder d = v.isDataHolder c
  flags : Flags.ofDecorator (v.decorator? d) =
    { Flags.ofDecorator (v.decorator? c) with
      frozen := (Flags.ofDecorator (v.decorator? d)).frozen }

/-- Two classes that are the same to the classes below them: under every name they show the same
but for marks, and they have the same under that of the constructor. -/
structure AlikeBelow (v : Vocabulary) (c d : ClassDecl) : Prop where
  mro : d.mro = c.mro
  face : face v d = face v c
  view : ∀ name, SameView d c name
  init : d.members.get? "__init__" = c.members.get? "__init__"

theorem Refrozen.alike {c d : ClassDecl} (h : Refrozen v c d) : AlikeBelow v c d := by
  obtain ⟨rest, holder, -⟩ := h
  refine ⟨by rw [rest], ?_, fun name => by rw [SameView, rest], by rw [rest]⟩
  rw [face, face, holder, rest]
  rfl

/-- Related registries have the same of what related classes agree on. -/
private theorem bind_eq_of_rel {α : Type} {P : ClassDecl → ClassDecl → Prop}
    {f : ClassDecl → Option α} {c d : Option ClassDecl} (h : Option.Rel P c d)
    (hf : ∀ c d, P c d → f d = f c) : d.bind f = c.bind f := by
  cases h with
  | none => rfl
  | some h => exact hf _ _ h

private theorem map_eq_of_rel {α : Type} {P : ClassDecl → ClassDecl → Prop} {f : ClassDecl → α}
    {c d : Option ClassDecl} (h : Option.Rel P c d) (hf : ∀ c d, P c d → f d = f c) :
    d.map f = c.map f := by
  cases h with
  | none => rfl
  | some h => exact congrArg some (hf _ _ h)

section Views

variable {r q : Registry} (alike : Registry.Rel (AlikeBelow v) r q)

include alike

theorem contribution?_alike (a : ClassId) : contribution? v q a = contribution? v r a := by
  apply contribution?_congr (map_eq_of_rel (alike a) fun _ _ h => h.face)
  intro _ _ _ _ f _ _
  apply constructorTy?_congr (map_eq_of_rel (alike a) fun _ _ h => h.mro)
  intro _ _ b _
  exact bind_eq_of_rel (alike b) fun _ _ h => h.init

/-- A name resolves to the same but for marks. -/
theorem declared?_alike (id : ClassId) (name : String) :
    (declared? q id name).map Symbol.unmarked = (declared? r id name).map Symbol.unmarked := by
  have hshown : ∀ a, (shown? q a name).map Symbol.unmarked =
      (shown? r a name).map Symbol.unmarked := by
    intro a
    rw [shown?, shown?, Option.map_bind, Option.map_bind]
    exact bind_eq_of_rel (alike a) fun _ _ h => h.view name
  have hsearch : ∀ p : Registry, (declared? p id name).map Symbol.unmarked =
      (p.get? id).bind fun c => c.mro.findSome? fun a => (shown? p a name).map Symbol.unmarked := by
    intro p
    cases hp : p.get? id with
    | none =>
      rw [declared?, Registry.searchMro, hp]
      rfl
    | some c =>
      rw [declared?_eq hp, List.map_findSome?]
      rfl
  rw [hsearch, hsearch]
  simp only [hshown]
  exact bind_eq_of_rel (alike id) fun _ _ h => by rw [h.mro]

theorem fieldTy?_alike (id : ClassId) (name : String) : fieldTy? q id name = fieldTy? r id name :=
  fieldTy?_of_unmarked (declared?_alike alike id name)

theorem initParameters_alike (id : ClassId) (fields : List MergedField) :
    initParameters q id fields = initParameters r id fields := by
  apply List.map_congr_left
  intro f _
  rw [parameterTy, parameterTy, fieldTy?_alike alike]

theorem collect_alike (id : ClassId) (mro : List ClassId) (own : Except Deferral (List Field)) :
    collect v q id mro own = collect v r id mro own := by
  have hwaits : ∀ fields, unresolved? q id fields = unresolved? r id fields := fun fields =>
    findSome?_congr fun f _ => waitsFor?_of_unmarked (declared?_alike alike id f.name)
  rw [collect, collect, gather_congr fun a _ => contribution?_alike alike a]
  simp only [hwaits]

/-- Registries stay alike where alike classes are put under one number. -/
theorem alike_set {id : ClassId} {c d c' d' : ClassDecl} (hr : r.get? id = some c)
    (hq : q.get? id = some d) (h : AlikeBelow v c' d') :
    Registry.Rel (AlikeBelow v) (r.set id c') (q.set id d') := by
  intro a
  rw [Registry.get?_set hr, Registry.get?_set hq]
  split
  · exact .some h
  · exact alike a

end Views

/-! ## The run of one class -/

/-- Freezing takes nothing written from a class: no field goes by a name that generation uses, and
what is written under the name of a field that the class inherits is a variable. -/
structure Spares (v : Vocabulary) (c : ClassDecl) (fields : List Field) : Prop where
  apart : ∀ f ∈ fields, f.name ∉ reservedNames v
  written : ∀ f ∈ fields, f.name ∉ fieldNames c → ∀ w, c.written? f.name = some w →
    w.symbol.isVar = true

theorem Refrozen.read {c d : ClassDecl} (h : Refrozen v c d) :
    Refrozen v (readClass v c) (readClass v d) := by
  obtain ⟨rest, holder, flags⟩ := h
  refine ⟨?_, holder, flags⟩
  rw [rest]
  rfl

theorem Refrozen.cleared {c d : ClassDecl} (h : Refrozen v c d) :
    Refrozen v c.clearGenerated d.clearGenerated := by
  obtain ⟨rest, holder, flags⟩ := h
  refine ⟨?_, holder, flags⟩
  rw [rest]
  rfl

/-- Marking shows the same of nothing and of variables, whether it freezes or not. -/
private theorem view_foldl_afterMark (owner : String) (ty : String → Ty) (frozen : Bool)
    (fields : List Field) {old : Option Member} (plain : old.all (fun w => w.symbol.isVar) = true) :
    (visible (fields.foldl (ClassDecl.afterMark owner ty frozen) old)).map Symbol.unmarked =
      (visible old).map Symbol.unmarked := by
  induction fields generalizing old with
  | nil => rfl
  | cons f fields ih =>
    have hstep : (ClassDecl.afterMark owner ty frozen old f).all (fun w => w.symbol.isVar) = true ∧
        (visible (ClassDecl.afterMark owner ty frozen old f)).map Symbol.unmarked =
          (visible old).map Symbol.unmarked := by
      rcases old with _ | ⟨symbol, generated⟩
      · cases frozen <;> exact ⟨rfl, rfl⟩
      · cases symbol with
        | var x => cases generated <;> exact ⟨rfl, rfl⟩
        | method method => cases plain
        | typeVar decl => cases plain
        | placeholder => cases plain
    rw [List.foldl_cons, ih hstep.1, hstep.2]

/-- Where freezing takes nothing, it finds nothing or a variable under the name of a field. -/
private theorem isVar_draft_of_spares {r : Registry} {id : ClassId} {c : ClassDecl}
    {m : Collection} (spares : Spares v c m.plain) {f : Field} (hf : f ∈ m.plain) :
    ((draft v r id c m).get? f.name).all (fun w => w.symbol.isVar) = true := by
  have hadded : f.name ∉ (added v r id c m).map Prod.fst := by
    intro hmem
    obtain ⟨a, ha, hname⟩ := List.mem_map.mp hmem
    exact spares.apart f hf (hname ▸ mem_reservedNames_of_added v ha)
  rw [get?_draft_of_not_mem hadded, Option.all_eq_true]
  intro w hw
  by_cases hown : f.name ∈ fieldNames c
  · -- What is read as a field is a variable, and stays one.
    have hfield := (mem_fieldNames.mp hown).2
    have hget := (Option.filter_eq_some_iff.mp hw).1
    rw [readClass, readBody_eq_scan] at hget
    rcases get?_scan v (declarations c.body) c.members f.name with h | ⟨x, ty, generated, -, -, h⟩
    · rw [← h, hget] at hfield
      obtain ⟨symbol, generated⟩ := w
      cases symbol with
      | var x => rfl
      | method method => cases hfield
      | typeVar decl => cases hfield
      | placeholder => cases hfield
    · rw [hget] at h
      cases h
      rfl
  · rw [ClassDecl.written?, get?_readClass_of_not_mem v hown] at hw
    exact spares.written f hf hown w hw

section Twin

variable {r q : Registry} (alike : Registry.Rel (AlikeBelow v) r q) {id : ClassId} {c d : ClassDecl}
  (hr : r.get? id = some c) (hq : q.get? id = some d) (twin : Refrozen v c d)

include twin in
/-- Reading finds the same fields. -/
theorem readBody_twin : readBody v d.body d.members = readBody v c.body c.members := by
  rw [twin.rest]

include alike hr hq twin

theorem collect_twin (own : Except Deferral (List Field)) :
    collect v (q.set id (readClass v d)) id d.mro own =
      collect v (r.set id (readClass v c)) id c.mro own := by
  rw [twin.alike.mro]
  exact collect_alike (alike_set alike hr hq twin.read.alike) id c.mro own

variable {m : Collection}

/-- What is added does not depend on freezing. -/
theorem added_twin : added v q id d m = added v r id c m := by
  have hparameters : initParameters
        ((q.set id (readClass v d)).set id (readClass v d).clearGenerated) id m.fields =
      initParameters
        ((r.set id (readClass v c)).set id (readClass v c).clearGenerated) id m.fields := by
    rw [Registry.set_set, Registry.set_set]
    exact initParameters_alike (alike_set alike hr hq twin.read.cleared.alike) id m.fields
  rw [added, added, hparameters, twin.flags]
  have hrest := twin.read.cleared.rest
  rw [hrest]
  rfl

/-- So the classes are refrozen ones of each other until their fields are marked. -/
theorem beforeMarking_twin : Refrozen v (beforeMarking v r id c m) (beforeMarking v q id d m) := by
  have hadded : ∀ (p : Registry) (e : ClassDecl), beforeMarking v p id e m =
      let k := (readClass v e).clearGenerated
      { k with
        members := k.members.insertAll (Draft.entriesOf (added v p id e m))
        body := k.body ++ Draft.statementsOf (added v p id e m) } := fun _ _ => rfl
  obtain ⟨hrest, holder, flags⟩ := twin.read.cleared
  refine ⟨?_, holder, flags⟩
  rw [hadded, hadded, added_twin alike hr hq twin, hrest]

theorem draft_twin : draft v q id d m = draft v r id c m := by
  rw [draft, draft, added_twin alike hr hq twin, twin.read.cleared.rest]

theorem copyTy_twin : copyTy v q id d m = copyTy v r id c m := by
  funext name
  have halike := alike_set alike hr hq (beforeMarking_twin alike hr hq twin (m := m)).alike
  have hty := fieldTy?_alike halike id name
  rw [← Registry.set_set q id (readClass v d), ← Registry.set_set r id (readClass v c)] at hty
  exact congrArg (fun ty => ty.getD .any) hty

/-- Where both classes are frozen or both are not, completing leaves the same. -/
theorem completed_twin (flags : (Flags.ofDecorator (v.decorator? d)).frozen =
      (Flags.ofDecorator (v.decorator? c)).frozen) :
    completed v q id d m = { completed v r id c m with decorators := d.decorators } := by
  have hcompleted : ∀ (p : Registry) (e : ClassDecl), completed v p id e m =
      let frozen := (Flags.ofDecorator (v.decorator? e)).frozen
      { e with
        members := ((m.plain.filter fun f => !f.initOnly).foldl
            (ClassDecl.mark e.fullname (copyTy v p id e m) frozen) (draft v p id e m)).filter
              fun name _ => !(initOnlyNames m.plain).contains name
        body := (e.body.filter (stays (readClass v e).generatedMethods) ++
          Draft.statementsOf (added v p id e m)).map (unbind (initOnlyNames m.plain))
        records := e.records.insert v.recordKey (Record.ofFields m.plain frozen).toJson } :=
    fun _ _ => rfl
  have hstale : (readClass v d).generatedMethods = (readClass v c).generatedMethods := by
    rw [twin.read.rest]
    rfl
  rw [hcompleted, hcompleted, flags, draft_twin alike hr hq twin, copyTy_twin alike hr hq twin,
    added_twin alike hr hq twin, hstale]
  dsimp only
  rw [twin.rest]

/-- Where only one of the classes is frozen, completing leaves them alike, if freezing takes nothing
from them. -/
theorem completed_alike (spares : (Flags.ofDecorator (v.decorator? d)).frozen ≠
      (Flags.ofDecorator (v.decorator? c)).frozen → Spares v c m.plain) :
    AlikeBelow v (completed v r id c m) (completed v q id d m) := by
  by_cases hflags : (Flags.ofDecorator (v.decorator? d)).frozen =
      (Flags.ofDecorator (v.decorator? c)).frozen
  · have hsame := completed_twin alike hr hq twin hflags (m := m)
    exact Refrozen.alike ⟨by rw [hsame], twin.holder, twin.flags⟩
  · have hspares := spares hflags
    refine ⟨?_, ?_, ?_, ?_⟩
    · rw [mro_completed, mro_completed, twin.rest]
    · have hfullname : (completed v q id d m).fullname = (completed v r id c m).fullname := by
        change d.fullname = c.fullname
        rw [twin.rest]
      have hholder : v.isDataHolder (completed v q id d m) =
          v.isDataHolder (completed v r id c m) := twin.holder
      rw [face, face, record?_completed, record?_completed, hfullname, hholder]
      rfl
    · intro name
      rw [SameView, get?_completed, get?_completed, draft_twin alike hr hq twin]
      split
      · rfl
      · -- Only what stands under the name of a field is marked.
        by_cases hnone : (m.plain.filter fun f => !f.initOnly).filter
            (fun f => f.name == name) = []
        · rw [hnone]
          rfl
        · obtain ⟨f, hf⟩ := List.exists_mem_of_ne_nil _ hnone
          obtain ⟨hkept, hname⟩ := List.mem_filter.mp hf
          have hplain : ((draft v r id c m).get? name).all (fun w => w.symbol.isVar) = true :=
            beq_iff_eq.mp hname ▸ isVar_draft_of_spares hspares (List.mem_filter.mp hkept).1
          rw [view_foldl_afterMark _ _ _ _ hplain, view_foldl_afterMark _ _ _ _ hplain]
    · have hforeign : "__init__" ∉ m.plain.map Field.name := by
        intro hmem
        obtain ⟨f, hf, hname⟩ := List.mem_map.mp hmem
        exact hspares.apart f hf (hname ▸ List.mem_cons_self)
      rw [get?_completed_of_not_mem v q id d m hforeign,
        get?_completed_of_not_mem v r id c m hforeign, draft_twin alike hr hq twin]

end Twin

/-! ## Two copies of a hierarchy -/

/-- Two copies of a hierarchy that are brought up side by side. At first their classes differ at
most in whether they are frozen; and between the runs any class may be changed in both copies, so
that again it differs at most in that. A class is run in both copies as it stands then, and the run
completes. Where one copy of the class is frozen and the other is not, freezing takes nothing
written from it. -/
inductive Twins (v : Vocabulary) : Registry → Registry → Prop
  | start {r q : Registry} (refrozen : Registry.Rel (Refrozen v) r q) : Twins v r q
  | change {r q r' q' : Registry} (before : Twins v r q)
    (changed : ∀ a, r'.get? a = r.get? a ∧ q'.get? a = q.get? a ∨
      Option.Rel (Refrozen v) (r'.get? a) (q'.get? a)) : Twins v r' q'
  | run {r q : Registry} {id : ClassId} {c d : ClassDecl} {s : Synthesis} (before : Twins v r q)
    (left : r.get? id = some c) (right : q.get? id = some d) (refrozen : Refrozen v c d)
    (completes : (run v r id).result = .ok s)
    (spares : (Flags.ofDecorator (v.decorator? d)).frozen ≠ s.flags.frozen →
      Spares v c s.fields) :
    Twins v (Synthesis.run v r id).registry (Synthesis.run v q id).registry

namespace Twins

variable {r q : Registry}

/-- In both copies every class looks alike to the classes below. -/
theorem alike (twins : Twins v r q) : Registry.Rel (AlikeBelow v) r q := by
  have hrefrozen : ∀ {c d : Option ClassDecl}, Option.Rel (Refrozen v) c d →
      Option.Rel (AlikeBelow v) c d := by
    intro c d h
    cases h with
    | none => exact .none
    | some h => exact .some h.alike
  induction twins with
  | start refrozen => exact fun a => hrefrozen (refrozen a)
  | change _ changed ih =>
    intro a
    rcases changed a with ⟨hr, hq⟩ | h
    · rw [hr, hq]
      exact ih a
    · exact hrefrozen h
  | @run r q id c d s _ left right refrozen completes spares ih =>
    obtain ⟨own, m, hread, hm, rfl, hregistry, -⟩ := run_of_ok left completes
    have hcollect : collect v (q.set id (readClass v d)) id d.mro
        (readBody v d.body d.members).2 = .ok m := by
      rw [collect_twin ih left right refrozen, readBody_twin refrozen, hread, hm]
    rw [hregistry, run_of_collect right hcollect]
    exact alike_set ih left right (completed_alike ih left right refrozen spares)

/-- A run does not depend on which ancestors are frozen: of a class that is the same in both copies,
it answers and reports the same, and leaves the same class. -/
theorem sameRun (twins : Twins v r q) {id : ClassId} (same : q.get? id = r.get? id) :
    SameRun v r q id := by
  cases hr : r.get? id with
  | none =>
    rw [hr] at same
    rw [SameRun, Synthesis.run, Synthesis.run, hr, same]
    exact ⟨rfl, rfl, same.trans hr.symm⟩
  | some c =>
    have hq : q.get? id = some c := same.trans hr
    have hrefl : Refrozen v c c := ⟨rfl, rfl, rfl⟩
    have halike := twins.alike
    have hget : ∀ (p : Registry), p.get? id = some c → ∀ e, (p.set id e).get? id = some e :=
      fun p hp e => Registry.get?_set_self _ _ _ (Registry.lt_size_of_get? hp)
    have hcollect := collect_twin halike hr hq hrefl (readBody v c.body c.members).2
    cases hm : collect v (r.set id (readClass v c)) id c.mro (readBody v c.body c.members).2 with
    | error halt =>
      rw [hm] at hcollect
      rw [SameRun, run_of_get? v hr, run_of_get? v hq, hm, hcollect]
      exact ⟨rfl, rfl, (hget q hq _).trans (hget r hr _).symm⟩
    | ok m =>
      rw [hm] at hcollect
      have hadded := added_twin halike hr hq hrefl (m := m)
      have hcompleted := completed_twin halike hr hq hrefl rfl (m := m)
      rw [SameRun, run_of_collect hr hm, run_of_collect hq hcollect, hadded]
      exact ⟨rfl, rfl, (hget q hq _).trans (hcompleted ▸ (hget r hr _).symm)⟩

end Twins

/-- Three classes below each other. The first declares a field, the second may be frozen, and the
third adds a field. -/
private def cooledClass (frozen : Bool) : ClassId → ClassDecl
  | 1 =>
    { name := "Base", fullname := "Base", mro := [1, 0], decorators := [decorator false]
      body := [declare "x" "builtins.int"] }
  | 2 =>
    { name := "Middle", fullname := "Middle", mro := [2, 1, 0], decorators := [decorator frozen] }
  | 3 =>
    { name := "Leaf", fullname := "Leaf", mro := [3, 2, 1, 0], decorators := [decorator true]
      body := [declare "y" "builtins.str"] }
  | _ => { name := "object", fullname := "object", mro := [0] }
where
  /-- The decorator, with the switch. -/
  decorator (frozen : Bool) : Expr :=
    .call (.name { name := "dataclass" }) [{ keyword := some "frozen", value := .bool frozen }]
  /-- A declaration. -/
  declare (name ty : String) : Statement :=
    .assign { target := { name }, declaredTy := some (.resolved (.named ty)), value := .empty }

/-- The registry of the classes, as they are bound. -/
private def cool (frozen : Bool) : Registry :=
  ⟨(List.range 4).map fun id => (cooledClass frozen id).bind⟩

/-- The registry in which the last class is to be run. -/
private def cooled (frozen : Bool) : Registry :=
  (run {} (run {} (cool frozen) 1).registry 2).registry

private theorem refrozen_cooledClass (id : ClassId) :
    Refrozen {} (cooledClass false id).bind (cooledClass true id).bind := by
  match id with
  | 0 => exact ⟨rfl, rfl, rfl⟩
  | 1 => exact ⟨rfl, rfl, rfl⟩
  | 2 => exact ⟨rfl, rfl, rfl⟩
  | 3 => exact ⟨rfl, rfl, rfl⟩
  | _ + 4 => exact ⟨rfl, rfl, rfl⟩

private theorem twins_cooled : Twins {} (cooled false) (cooled true) := by
  have hstart : Twins {} (cool false) (cool true) := by
    refine .start fun a => ?_
    rw [cool, cool, Registry.get?, Registry.get?, List.getElem?_map, List.getElem?_map]
    cases (List.range 4)[a]? with
    | none => exact .none
    | some id => exact .some (refrozen_cooledClass id)
  have hbase : Twins {} (run {} (cool false) 1).registry (run {} (cool true) 1).registry := by
    have completes : (run {} (cool false) 1).result =
        .ok
          { fields := [{ name := "x" }], flags := {}
            generated := ["__init__", "_DT", "__eq__", "__ne__"], dependencies := [] } := rfl
    have left : (cool false).get? 1 = some (cooledClass false 1).bind := rfl
    have right : (cool true).get? 1 = some (cooledClass true 1).bind := rfl
    have hflags : (Flags.ofDecorator (Vocabulary.decorator? {}
        (cooledClass true 1).bind)).frozen = false := rfl
    exact hstart.run left right (refrozen_cooledClass 1) completes fun h => absurd hflags h
  have completes : (run {} (run {} (cool false) 1).registry 2).result =
      .ok
        { fields := [{ name := "x" }], flags := {}
          generated := ["__init__", "_DT", "__eq__", "__ne__"], dependencies := ["Base"] } := rfl
  have left : (run {} (cool false) 1).registry.get? 2 = some (cooledClass false 2).bind := rfl
  have right : (run {} (cool true) 1).registry.get? 2 = some (cooledClass true 2).bind := rfl
  refine hbase.run left right (refrozen_cooledClass 2) completes fun _ => ⟨by decide, ?_⟩
  intro f _ _ w hw
  cases hw

/-- The class in the middle has a copy in one registry and nothing in the other, and the runs below
it are the same. -/
theorem sameRun_cooled :
    ((cooled true).get? 2).map (fun c => c.members.contains "x") = some true ∧
    ((cooled false).get? 2).map (fun c => c.members.contains "x") = some false ∧
    SameRun {} (cooled false) (cooled true) 3 := by
  have left : (cooled false).get? 3 = some (cooledClass false 3).bind := rfl
  have right : (cooled true).get? 3 = some (cooledClass false 3).bind := rfl
  exact ⟨rfl, rfl, twins_cooled.sameRun (right.trans left.symm)⟩

end Synthesis

end DataHolder
