import DataHolder.Proofs.Outcome

/-!
# Members under the names of inherited fields

A class may have a member of its own under the name of a field that it inherits. A run that
completes keeps the member where the field is not for the constructor alone, the class is not
frozen or the member is a variable, and the type variable is not put in its place. Otherwise the
class loses the member: a field that the constructor takes alone leaves the table with whatever
has its name, and a frozen class gets a copy of a field that instances keep.
-/

namespace DataHolder

/-- Marking keeps a variable, and any member in a class that is not frozen, up to its mark. -/
theorem ClassDecl.afterMark_of_kept (owner : String) (ty : String → Ty) (frozen : Bool)
    (f : Field) {w : Member} (kept : frozen = true → w.symbol.isVar = true) :
    ∃ w', afterMark owner ty frozen (some w) f = some w' ∧ w'.unmarked = w.unmarked := by
  rcases afterMark_cases owner ty frozen (some w) f with he | ⟨x, generated, hx, he⟩ | he
  · exact ⟨w, he, rfl⟩
  · cases hx
    exact ⟨_, he, rfl⟩
  · cases hv : w.symbol.isVar with
    | true =>
      obtain ⟨symbol, generated⟩ := w
      cases symbol <;> cases hv
      exact ⟨_, rfl, rfl⟩
    | false =>
      have hfrozen : frozen = false := by
        by_contra h
        rw [kept (by simpa using h)] at hv
        cases hv
      rw [afterMark_of_not_var owner ty frozen f hv, hfrozen]
      exact ⟨w, rfl, rfl⟩

namespace Synthesis

variable (v : Vocabulary)

/-- The fields that a run merges spare a member under the name of one of them. -/
structure Spared (flags : Flags) (c : ClassDecl) (f : Field) (w : Member) : Prop where
  kept : f.initOnly = false
  marked : flags.frozen = true → w.symbol.isVar = true
  apart : ¬ (v.selfTypeVar = f.name ∧ wantsTypeVar flags c.clearGenerated = true)

section Run

variable {v} {r : Registry} {id : ClassId} {c : ClassDecl} {m : Collection} {own : List Field}
  {f : Field}

/-- Among the merged fields, one that the class inherits is alone under its name. -/
private theorem filter_plain_of_inherited (h : gather v r c.mro (.ok own) = .ok m)
    (merged : f ∈ m.plain) (inherited : f.name ∉ own.map Field.name) :
    (m.plain.filter fun g => g.name == f.name) = [f] := by
  have hcount := (count_plain_of_gather h f.name).2
  rw [List.count_eq_zero_of_not_mem inherited] at hcount
  exact filter_name_of_once hcount merged

/-- Under the name of an inherited field a run does what this field asks for. -/
private theorem get?_completed_of_inherited
    (h : collect v (r.set id (readClass v c)) id c.mro (.ok own) = .ok m)
    (merged : f ∈ m.plain) (inherited : f.name ∉ own.map Field.name) :
    (completed v r id c m).members.get? f.name =
      if f.initOnly then none
      else ClassDecl.afterMark c.fullname (copyTy v r id c m)
        (Flags.ofDecorator (v.decorator? c)).frozen ((draft v r id c m).get? f.name) f :=
  get?_completed_of_alone v r id c m
    (filter_plain_of_inherited (gather_of_collect h) merged inherited)

variable {w : Member} (hown : (readBody v c.body c.members).2 = .ok own)
  (h : collect v (r.set id (readClass v c)) id c.mro (.ok own) = .ok m) (merged : f ∈ m.plain)
  (inherited : f.name ∉ own.map Field.name) (written : c.written? f.name = some w)

include hown inherited written

/-- Reading leaves the written member under the name of an inherited field. -/
private theorem written?_readClass_of_inherited : (readClass v c).written? f.name = some w := by
  rw [names_of_readBody v hown] at inherited
  rw [ClassDecl.written?, get?_readClass_of_not_mem v inherited]
  exact written

/-- Only the type variable may be added under the name of the member. -/
private theorem mem_added_of_inherited :
    f.name ∈ (added v r id c m).map Prod.fst ↔
      v.selfTypeVar = f.name ∧
        wantsTypeVar (Flags.ofDecorator (v.decorator? c)) c.clearGenerated = true := by
  apply mem_added_iff
  rw [written?_readClass_of_inherited hown inherited written]
  rfl

include h merged

/-- What the fields spare is there after the run, but for its mark. -/
private theorem survives_of_spared (spared : Spared v (Flags.ofDecorator (v.decorator? c)) c f w) :
    ∃ w', (completed v r id c m).written? f.name = some w' ∧ w'.unmarked = w.unmarked := by
  have hread := written?_readClass_of_inherited hown inherited written
  have hadded : f.name ∉ (added v r id c m).map Prod.fst := by
    rw [mem_added_of_inherited hown inherited written]
    exact spared.apart
  have hafter := get?_completed_of_inherited h merged inherited
  rw [get?_draft_of_not_mem hadded, hread, if_neg (by simp [spared.kept])] at hafter
  obtain ⟨w', hw', hsame⟩ := ClassDecl.afterMark_of_kept c.fullname (copyTy v r id c m)
    (Flags.ofDecorator (v.decorator? c)).frozen f spared.marked
  have hwritten : (!w'.generated) = true := by
    rw [Member.generated_eq hsame]
    exact (Option.filter_eq_some_iff.mp written).2
  refine ⟨w', ?_, hsame⟩
  rw [ClassDecl.written?, hafter, hw']
  exact Option.filter_eq_some_iff.mpr ⟨rfl, hwritten⟩

/-- Where the fields do not spare a member, no written one is left under its name. -/
private theorem lost_of_not_spared
    (lost : ¬ Spared v (Flags.ofDecorator (v.decorator? c)) c f w) :
    (completed v r id c m).written? f.name = none := by
  have hread := written?_readClass_of_inherited hown inherited written
  rw [ClassDecl.written?, get?_completed_of_inherited h merged inherited]
  cases hinit : f.initOnly with
  | true => rfl
  | false =>
    rw [if_neg Bool.false_ne_true]
    by_cases hmem : f.name ∈ (added v r id c m).map Prod.fst
    · -- The type variable stands there now, or the copy that took its place.
      obtain ⟨symbol, -, hdraft⟩ := get?_draft_of_mem hmem
      rw [hdraft, Option.filter_eq_none_iff]
      intro a ha
      rw [ClassDecl.generated_of_afterMark (by simp) ha]
      exact Bool.false_ne_true
    · have hfrozen : (Flags.ofDecorator (v.decorator? c)).frozen = true ∧
          w.symbol.isVar = false := by
        by_contra hnot
        refine lost ⟨hinit, fun frozen => ?_, fun hadd =>
          hmem ((mem_added_of_inherited hown inherited written).mpr hadd)⟩
        by_contra hvar
        exact hnot ⟨frozen, by simpa using hvar⟩
      rw [get?_draft_of_not_mem hmem, hread, hfrozen.1,
        ClassDecl.afterMark_of_not_var _ _ _ _ hfrozen.2]
      rfl

end Run

variable {v} {r : Registry} {id : ClassId} {c : ClassDecl} {s : Synthesis} {f : Field} {w : Member}

/-- A run that completes keeps a written member that stands under the name of an inherited field,
but for its mark, exactly when the fields spare it. Otherwise the class has no written member of
that name any more. -/
theorem survives_iff_spared (registered : r.get? id = some c)
    (completes : (run v r id).result = .ok s) (merged : f ∈ s.fields)
    (inherited : f.name ∉ fieldNames c) (written : c.written? f.name = some w) :
    ∃ d, (run v r id).registry.get? id = some d ∧
      (Spared v s.flags c f w →
        ∃ w', d.written? f.name = some w' ∧ w'.unmarked = w.unmarked) ∧
      (¬ Spared v s.flags c f w → d.written? f.name = none) := by
  obtain ⟨own, m, hown, hm, rfl, -, hget⟩ := run_of_ok registered completes
  rw [← names_of_readBody v hown] at inherited
  exact ⟨_, hget, survives_of_spared hown hm merged inherited written,
    lost_of_not_spared hown hm merged inherited written⟩

private def getter (name : String) : Method :=
  { name, fullname := qualify "Derived" name, parameters := [], result := .any }

/-- A class, frozen or not, whose methods have the names of the fields that it inherits: one that
instances keep, and one for the constructor alone. -/
private def below (frozen : Bool) : Registry :=
  let decorator : Expr :=
    .call (.name { name := "dataclass" }) [{ keyword := some "frozen", value := .bool frozen }]
  ⟨[({ name := "Base", fullname := "Base", mro := [0, 2] } : ClassDecl).withRecord "dataclass"
      (Record.ofFields [{ name := "seed", initOnly := true }, { name := "size" }] false),
    ClassDecl.bind
      { name := "Derived", fullname := "Derived", mro := [1, 0, 2], decorators := [decorator]
        body := [.method (getter "seed"), .method (getter "size")] },
    { name := "object", fullname := "object", mro := [2] }]⟩

theorem survives_below : ∃ s d, (run {} (below false) 1).result = .ok s ∧
    (run {} (below false) 1).registry.get? 1 = some d ∧
    ∃ w, d.written? "size" = some w ∧ w.unmarked = { symbol := .method (getter "size") } := by
  obtain ⟨s, completes, merged, frozen⟩ : ∃ s, (run {} (below false) 1).result = .ok s ∧
      { name := "size" } ∈ s.fields ∧ s.flags.frozen = false := ⟨_, rfl, by decide, by decide⟩
  obtain ⟨d, hd, kept, -⟩ :=
    survives_iff_spared (c := (below false).classes[1]) rfl completes merged (by decide) rfl
  exact ⟨s, d, completes, hd, kept ⟨rfl, by simp [frozen], fun h => absurd h.1 (by decide)⟩⟩

/-- A frozen class loses both methods: a copy of the field that instances keep takes the place of
one, and the other leaves the table with the field that they do not keep. -/
theorem not_survives_below : ∃ s d, (run {} (below true) 1).result = .ok s ∧
    (run {} (below true) 1).registry.get? 1 = some d ∧
    ∀ name ∈ ["seed", "size"],
      name ∈ s.fields.map Field.name ∧ name ∉ fieldNames (below true).classes[1] ∧
      (below true).classes[1].written? name = some { symbol := .method (getter name) } ∧
      d.written? name = none := by
  refine ⟨_, _, rfl, rfl, ?_⟩
  intro name hname
  simp only [List.mem_cons, List.not_mem_nil, or_false] at hname
  rcases hname with rfl | rfl
  · exact ⟨by decide, by decide, rfl, rfl⟩
  · exact ⟨by decide, by decide, rfl, rfl⟩

end Synthesis

end DataHolder
