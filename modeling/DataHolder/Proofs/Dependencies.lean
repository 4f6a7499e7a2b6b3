import DataHolder.Proofs.Deferral
import DataHolder.Proofs.Views

/-!
# Dependencies of a run

A completed run names the ancestors whose records it has merged. Other classes reach it as well:
under the name of a merged field it sees what any linearized ancestor shows, and the type of a
field for the constructor alone comes from whatever constructor the recorded ancestor has or
inherits. So the dependencies alone do not determine what a run does, but together with these two
they do.
-/

namespace DataHolder

namespace Synthesis

variable (v : Vocabulary)

/-- A class that is neither a data holder nor the holder of a record. -/
def Plain (c : ClassDecl) : Prop :=
  v.isDataHolder c = false ∧ c.records.get? v.recordKey = none

/-- Two registries with the same class under a number and with the same classes under the names of
these dependencies. The other ancestors that might contribute are plain in both. -/
structure Changed (r q : Registry) (id : ClassId) (c : ClassDecl) (dependencies : List String) :
    Prop where
  self : r.get? id = some c ∧ q.get? id = some c
  kept : ∀ a d, d.fullname ∈ dependencies → (q.get? a = some d ↔ r.get? a = some d)
  plain : ∀ a ∈ interior c.mro, ∀ d, r.get? a = some d ∨ q.get? a = some d →
    d.fullname ∉ dependencies → Plain v d

/-- Two runs that answer and report the same, and leave the same class. -/
def SameRun (r q : Registry) (id : ClassId) : Prop :=
  (run v q id).result = (run v r id).result ∧ (run v q id).log = (run v r id).log ∧
    (run v q id).registry.get? id = (run v r id).registry.get? id

/-- Classes that are no dependencies of a completed run may change without effect on it. -/
def DependenciesComplete : Prop :=
  ∀ r q id c s, (run v r id).result = .ok s → Changed v r q id c s.dependencies →
    SameRun v r q id

/-- The linearized ancestors show the same under the names of the merged fields, and those of a
dependency with a field for the constructor alone have the same constructor. -/
structure Unread (r q : Registry) (c : ClassDecl) (s : Synthesis) : Prop where
  fields : ∀ a ∈ c.mro, ∀ f ∈ s.fields, shown? q a f.name = shown? r a f.name
  constructors : ∀ a ∈ interior c.mro, ∀ d record, r.get? a = some d →
    d.fullname ∈ s.dependencies → d.record? v.recordKey = .ok (some record) →
      (∃ f ∈ record.fields, f.initOnly = true) →
        ∀ b ∈ d.mro, q.member? b "__init__" = r.member? b "__init__"

variable {v}

theorem contribution?_of_plain {r : Registry} {a : ClassId}
    (plain : ∀ d, r.get? a = some d → Plain v d) : contribution? v r a = .ok none := by
  rw [contribution?]
  cases hd : r.get? a with
  | none => rfl
  | some d =>
    obtain ⟨hholder, hrecord⟩ := plain d hd
    simp [ClassDecl.record?, hholder, hrecord]

/-- An ancestor with a record is a dependency. -/
theorem mem_dependencies_of_gather {r : Registry} {mro : List ClassId} {own : List Field}
    {m : Collection} (h : gather v r mro (.ok own) = .ok m) {a : ClassId} (ha : a ∈ interior mro)
    {d : ClassDecl} {record : Record} (hd : r.get? a = some d)
    (hrecord : d.record? v.recordKey = .ok (some record)) : d.fullname ∈ m.dependencies := by
  obtain ⟨found, hfound, -, hdependencies⟩ := gather_ok h
  have howners : found.map Contribution.owner =
      (recorded v r (interior mro)).map fun e => e.1.fullname := by
    simpa [Function.comp_def] using congrArg (List.map Prod.fst) (contributions_ok hfound)
  rw [hdependencies, howners]
  exact List.mem_map.mpr ⟨(d, record), mem_recorded.mpr ⟨a, ha, hd, hrecord⟩, rfl⟩

section Same

variable {r q : Registry} {id : ClassId} {c : ClassDecl} {s : Synthesis}

/-- An ancestor contributes the same where nothing that is read has changed. -/
private theorem contribution?_same (changed : Changed v r q id c s.dependencies)
    (unread : Unread v r q c s) {a : ClassId} (ha : a ∈ interior c.mro)
    (listed : ∀ d record, (r.set id (readClass v c)).get? a = some d →
      d.record? v.recordKey = .ok (some record) → d.fullname ∈ s.dependencies) :
    contribution? v (q.set id (readClass v c)) a =
      contribution? v (r.set id (readClass v c)) a := by
  obtain ⟨hr, hq⟩ := changed.self
  have hgetr := Registry.get?_set hr (readClass v c)
  have hgetq := Registry.get?_set hq (readClass v c)
  generalize r.set id (readClass v c) = r' at hgetr listed ⊢
  generalize q.set id (readClass v c) = q' at hgetq ⊢
  have hplain : ∀ e, q.get? a = some e → r.get? a ≠ some e → Plain v e := by
    intro e he hne
    apply changed.plain a ha e (.inr he)
    exact fun hdep => hne ((changed.kept a e hdep).mp he)
  -- The ancestor is the same in both registries, or contributes nothing in either.
  have hcases : (∃ d e, r.get? a = some d ∧ r'.get? a = some e ∧ q'.get? a = some e ∧
      e.mro = d.mro ∧ e.fullname = d.fullname ∧ e.record? v.recordKey = d.record? v.recordKey) ∨
        (∀ e, r'.get? a = some e → Plain v e) ∧ ∀ e, q'.get? a = some e → Plain v e := by
    by_cases he : id = a
    · subst he
      exact .inl ⟨c, readClass v c, hr, by rw [hgetr, if_pos rfl], by rw [hgetq, if_pos rfl],
        rfl, rfl, rfl⟩
    · rw [hgetr, hgetq, if_neg he, if_neg he]
      cases hd : r.get? a with
      | none => exact .inr ⟨nofun, fun e he => hplain e he (by rw [hd]; nofun)⟩
      | some d =>
        by_cases hdep : d.fullname ∈ s.dependencies
        · exact .inl ⟨d, d, rfl, rfl, (changed.kept a d hdep).mpr hd, rfl, rfl, rfl⟩
        · have hself : Plain v d := changed.plain a ha d (.inl hd) hdep
          refine .inr ⟨fun e he => Option.some.inj he ▸ hself, fun e he => ?_⟩
          by_cases hsame : r.get? a = some e
          · rw [hd] at hsame
            exact Option.some.inj hsame ▸ hself
          · exact hplain e he hsame
  rcases hcases with ⟨d, e, hd, her, heq, hmro, hfullname, hrecord⟩ | ⟨hpr, hpq⟩
  · apply contribution?_congr (by rw [her, heq])
    intro e' record he' hfound f hf hinit
    rw [her] at he'
    cases he'
    apply constructorTy?_congr (by rw [her, heq])
    intro e' he' b hb
    rw [her] at he'
    cases he'
    rw [hgetr, hgetq]
    by_cases hid : id = b
    · rw [if_pos hid, if_pos hid]
    · rw [if_neg hid, if_neg hid]
      exact unread.constructors a ha d record hd (hfullname ▸ listed e record her hfound)
        (hrecord ▸ hfound) ⟨f, hf, hinit⟩ b (hmro ▸ hb)
  · rw [contribution?_of_plain hpr, contribution?_of_plain hpq]

/-- Once the class was read, its linearized ancestors show the same under the names of the merged
fields. -/
private theorem shown?_same (changed : Changed v r q id c s.dependencies)
    (unread : Unread v r q c s) {a : ClassId} (ha : a ∈ c.mro) {f : Field} (hf : f ∈ s.fields) :
    shown? (q.set id (readClass v c)) a f.name = shown? (r.set id (readClass v c)) a f.name := by
  obtain ⟨hr, hq⟩ := changed.self
  rw [shown?, shown?, Registry.get?_set hr, Registry.get?_set hq]
  by_cases he : id = a
  · rw [if_pos he, if_pos he]
  · rw [if_neg he, if_neg he]
    exact unread.fields a ha f hf

/-- What was collected once is collected again, where nothing that is read has changed. -/
private theorem collect_same (changed : Changed v r q id c s.dependencies)
    (unread : Unread v r q c s) {own : List Field} {m : Collection}
    (collected : collect v (r.set id (readClass v c)) id c.mro (.ok own) = .ok m)
    (fields : s.fields = m.plain) (dependencies : s.dependencies = m.dependencies) :
    collect v (q.set id (readClass v c)) id c.mro (.ok own) = .ok m := by
  obtain ⟨hr, hq⟩ := changed.self
  have hgather := gather_of_collect collected
  have hsame : gather v (q.set id (readClass v c)) c.mro (.ok own) =
      gather v (r.set id (readClass v c)) c.mro (.ok own) := by
    apply gather_congr
    intro a ha
    apply contribution?_same changed unread ha
    intro d record hd hrecord
    rw [dependencies]
    exact mem_dependencies_of_gather hgather ha hd hrecord
  have hwaits : unresolved? (q.set id (readClass v c)) id m.plain =
      unresolved? (r.set id (readClass v c)) id m.plain := by
    apply unresolved?_congr
    intro f hf
    apply declared?_congr (c := readClass v c) (d := readClass v c)
    · rw [Registry.get?_set hr, if_pos rfl]
    · rw [Registry.get?_set hq, if_pos rfl]
    · rfl
    · exact fun a ha => shown?_same changed unread ha (fields ▸ hf)
  rw [← collected, collect, collect, hsame, hgather]
  dsimp only
  rw [hwaits]

/-- A completed run does the same in registries that differ in what it does not read: outside the
dependencies, all but the members under the names of the merged fields and the constructors that
the dependencies inherit. -/
theorem sameRun_of_unread (completes : (run v r id).result = .ok s)
    (changed : Changed v r q id c s.dependencies) (unread : Unread v r q c s) :
    SameRun v r q id := by
  obtain ⟨hr, hq⟩ := changed.self
  obtain ⟨own, m, hown, hm, hs, -, -⟩ := run_of_ok hr completes
  have hfields : s.fields = m.plain := by rw [hs]
  have hcollect := collect_same changed unread hm hfields (by rw [hs])
  have hsizer : id < (r.set id (readClass v c)).size := by
    rw [Registry.size_set]
    exact Registry.lt_size_of_get? hr
  have hsizeq : id < (q.set id (readClass v c)).size := by
    rw [Registry.size_set]
    exact Registry.lt_size_of_get? hq
  have hcomplete : complete v (q.set id (readClass v c)) id (readClass v c) m =
      { complete v (r.set id (readClass v c)) id (readClass v c) m with
        registry := (q.set id (readClass v c)).set id
          (left v (r.set id (readClass v c)) id (readClass v c) m) } :=
    complete_congr v hsizer hsizeq (c := readClass v c)
      (fun a ha _ f hf => shown?_same changed unread ha (hfields ▸ hf)) (readClass v c).body
  have hrunr : run v r id = complete v (r.set id (readClass v c)) id (readClass v c) m := by
    rw [run_of_get? v hr, hown, hm]
  have hrunq : run v q id = complete v (q.set id (readClass v c)) id (readClass v c) m := by
    rw [run_of_get? v hq, hown, hcollect]
  rw [SameRun, hrunr, hrunq, hcomplete, registry_complete]
  exact ⟨rfl, rfl, by rw [Registry.get?_set_self _ _ _ hsizer, Registry.get?_set_self _ _ _ hsizeq]⟩

end Same

/-- The variable that a class declares under a name. -/
private def memberOf (owner name ty : String) : String × Member :=
  (name, { symbol := .var { name, fullname := qualify owner name, ty := .resolved (.named ty) } })

/-- The constructor that a class has written, with the type of the parameter `seed`. -/
private def initOf (owner ty : String) : String × Member :=
  let parameter (name ty : String) : Parameter :=
    { var := { name, fullname := name, ty := .resolved (.named ty) }, declaredTy := none
      isOptional := false }
  ("__init__", {
    symbol := .method {
      name := "__init__", fullname := qualify owner "__init__", result := .none
      parameters := [parameter "x" "builtins.int", parameter "seed" ty] } })

/-- A data holder without a body. -/
private def lowest (mro : List ClassId) : ClassDecl where
  name := "C"
  fullname := "C"
  mro := mro
  decorators := [.name { name := "dataclass" }]

/-- A base that has recorded a field that instances keep and one that its constructor takes alone, a
class that is no data holder, and a class below both. The lists are the linearized ancestors of the
base and of the class below, and the members of the first two. -/
private def mixed (base mro : List ClassId) (own members : List (String × Member)) : Registry :=
  let base : ClassDecl :=
    { name := "Base", fullname := "Base", mro := base, members := Table.ofList own
      decorators := [.name { name := "dataclass" }] }
  ⟨[{ name := "object", fullname := "object", mro := [0] },
    base.withRecord "dataclass"
      (Record.ofFields [{ name := "x" }, { name := "seed", initOnly := true }] false),
    { name := "Mixin", fullname := "Mixin", mro := [2, 0], members := Table.ofList members },
    lowest mro]⟩

private def answered : Synthesis :=
  { fields := [{ name := "x" }, { name := "seed", initOnly := true }], flags := {}
    generated := ["__init__", "_DT", "__eq__", "__ne__"], dependencies := ["Base"] }

private theorem changed_mixed {base mro : List ClassId} (between : interior mro ⊆ [1, 2])
    (own members members' : List (String × Member)) :
    Changed {} (mixed base mro own members) (mixed base mro own members') 3 (lowest mro)
      ["Base"] where
  self := ⟨rfl, rfl⟩
  kept := by
    intro a d hd
    rcases a with _ | _ | _ | _ | a
    · exact Iff.rfl
    · exact Iff.rfl
    · constructor
      · rintro ⟨⟩
        simp at hd
      · rintro ⟨⟩
        simp at hd
    · exact Iff.rfl
    · exact Iff.rfl
  plain := by
    intro a ha d hd hdep
    rcases between ha with _ | ⟨_, _ | ⟨_, hnil⟩⟩
    · rcases hd with hd | hd
      · cases hd
        exact absurd (List.mem_singleton.mpr rfl) hdep
      · cases hd
        exact absurd (List.mem_singleton.mpr rfl) hdep
    · rcases hd with hd | hd
      · cases hd
        exact ⟨rfl, rfl⟩
      · cases hd
        exact ⟨rfl, rfl⟩
    · cases hnil

/-- The base and a class before it, in a registry where that one has these members. -/
private def mixedBefore (members : List (String × Member)) : Registry :=
  mixed [1, 0] [3, 2, 1, 0]
    [memberOf "Base" "x" "builtins.int", initOf "Base" "builtins.str"] members

private theorem completes_before :
    (run {} (mixedBefore [memberOf "Mixin" "x" "builtins.bool"]) 3).result = .ok answered := by
  rfl

theorem sameRun_of_unread_mixed :
    (run {} (mixedBefore [memberOf "Mixin" "x" "builtins.bool"]) 3).result = .ok answered ∧
      SameRun {} (mixedBefore [memberOf "Mixin" "x" "builtins.bool"])
        (mixedBefore [memberOf "Mixin" "y" "builtins.int", memberOf "Mixin" "x" "builtins.bool"])
        3 := by
  refine ⟨completes_before,
    sameRun_of_unread completes_before (changed_mixed (by decide) _ _ _) ⟨by decide, ?_⟩⟩
  intro a ha d record hd hdep _ _
  rcases ha with _ | ⟨_, _ | ⟨_, hnil⟩⟩
  · cases hd
    simp [answered] at hdep
  · cases hd
    decide
  · cases hnil

/-- A class without a record that declares an inherited field again gives the field its type. -/
theorem not_dependenciesComplete : ¬ DependenciesComplete {} := by
  intro h
  have hsame := h _ (mixedBefore [memberOf "Mixin" "x" "builtins.str"]) 3 _ _ completes_before
    (changed_mixed (by decide) _ _ _)
  have hinit := congrArg (fun d => d.bind fun d => d.members.get? "__init__") hsame.2.2
  exact absurd hinit (by decide)

/-- The members under the names of the fields do not make the dependencies complete: a dependency
may inherit the constructor from which the type of a field is recovered. -/
theorem not_sameRun_of_inherited_init :
    ∃ r q c s, (run {} r 3).result = .ok s ∧ Changed {} r q 3 c s.dependencies ∧
      (∀ a ∈ c.mro, ∀ f ∈ s.fields, shown? q a f.name = shown? r a f.name) ∧
        ¬ SameRun {} r q 3 := by
  let after (ty : String) : Registry :=
    mixed [1, 2, 0] [3, 1, 2, 0] [memberOf "Base" "x" "builtins.int"] [initOf "Mixin" ty]
  refine ⟨after "builtins.int", after "builtins.str", _, answered, by rfl,
    changed_mixed (by decide) _ _ _, by decide, ?_⟩
  intro hsame
  have hinit := congrArg (fun d => d.bind fun d => d.members.get? "__init__") hsame.2.2
  exact absurd hinit (by decide)

end Synthesis

end DataHolder
