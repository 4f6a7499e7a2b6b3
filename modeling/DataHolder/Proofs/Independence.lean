import DataHolder.Proofs.Views

/-!
# Runs that do not meet

A run writes under the number of its own class and reads no further than its linearized ancestors
and, for the types that constructors keep, the linearized ancestors of these. Whatever stands under
another number leaves it as it is. So two runs commute where neither class is that close to the
other, whether they complete, are put off or fail.
-/

namespace DataHolder

/-- Classes are put under different numbers in any order. -/
theorem Registry.set_comm (r : Registry) {id other : ClassId} (c d : ClassDecl)
    (ne : id ≠ other) : (r.set id c).set other d = (r.set other d).set id c := by
  rw [set, set, set, set, List.set_comm _ _ ne]

namespace Synthesis

variable (v : Vocabulary)

/-- Two classes of which neither is among the linearized ancestors of the other, nor among those of
one of these. -/
structure Unrelated (r : Registry) (id other : ClassId) : Prop where
  ne : id ≠ other
  unseen : ∀ c, r.get? id = some c → Unseen r other c.mro
  unseeing : ∀ c, r.get? other = some c → Unseen r id c.mro

/-- A run changes nothing but its own class. -/
theorem exists_registry_eq_set {r : Registry} {id : ClassId} {c : ClassDecl}
    (registered : r.get? id = some c) : ∃ d, (run v r id).registry = r.set id d := by
  cases h : (run v r id).result with
  | error halt => exact ⟨_, registry_of_halt v registered h⟩
  | ok s =>
    obtain ⟨-, m, -, -, -, hregistry, -⟩ := run_of_ok registered h
    exact ⟨_, hregistry⟩

section Frame

variable {r : Registry} {id other : ClassId} {c : ClassDecl}

/-- A class sees no more once it was read. -/
private theorem unseen_read (registered : r.get? id = some c) (unseen : Unseen r other c.mro) :
    Unseen (r.set id (readClass v c)) other c.mro := by
  intro a ha
  refine ⟨(unseen a ha).1, fun e he hmem => ?_⟩
  rw [Registry.get?_set registered] at he
  split at he
  · cases he
    exact (unseen other hmem).1 rfl
  · exact (unseen a ha).2 e he hmem

/-- What a class collects does not depend on one that it does not see. -/
private theorem collect_set (registered : r.get? id = some c) (ne : id ≠ other)
    (unseen : Unseen r other c.mro) (d : ClassDecl) (own : Except Deferral (List Field)) :
    collect v (r.set other d) id c.mro own = collect v r id c.mro own := by
  have hgather : gather v (r.set other d) c.mro own = gather v r c.mro own :=
    gather_set v d (fun a ha => unseen a (List.mem_of_mem_drop (List.dropLast_subset _ ha))) own
  have hdeclared : ∀ name, declared? (r.set other d) id name = declared? r id name := by
    intro name
    refine Registry.searchMro_set r d _ ne ?_
    rintro e he hmem
    rw [registered] at he
    cases he
    exact (unseen other hmem).1 rfl
  have hwaits : ∀ fields, unresolved? (r.set other d) id fields = unresolved? r id fields :=
    fun fields => unresolved?_congr fun f _ => hdeclared f.name
  rw [collect, collect, hgather]
  simp only [hwaits]

/-- A run does the same whatever stands under a number that its class does not see, and leaves it
there. -/
theorem run_set (registered : r.get? id = some c) (ne : id ≠ other)
    (unseen : Unseen r other c.mro) (d : ClassDecl) :
    run v (r.set other d) id =
      { run v r id with registry := (run v r id).registry.set other d } := by
  have hset : (r.set other d).get? id = some c := by
    rw [Registry.get?_set_ne r d (Ne.symm ne), registered]
  have hread : (r.set id (readClass v c)).get? id = some (readClass v c) := by
    rw [Registry.get?_set registered, if_pos rfl]
  have hcollect := collect_set v hread ne (unseen_read v registered unseen) d
    (readBody v c.body c.members).2
  change collect v _ id c.mro _ = collect v _ id c.mro _ at hcollect
  rw [run_of_get? v hset, run_of_get? v registered, Registry.set_comm r d _ (Ne.symm ne), hcollect]
  cases collect v (r.set id (readClass v c)) id c.mro (readBody v c.body c.members).2 with
  | error halt => rfl
  | ok m =>
    have hsize := Registry.lt_size_of_get? hread
    have hshown : ∀ a ∈ (readClass v c).mro, a ≠ id → ∀ f ∈ m.plain,
        shown? ((r.set id (readClass v c)).set other d) a f.name =
          shown? (r.set id (readClass v c)) a f.name := by
      intro a ha _ f _
      rw [shown?, shown?, Registry.get?_set_ne _ _ (Ne.symm (unseen a ha).1)]
    have hcomplete : complete v ((r.set id (readClass v c)).set other d) id (readClass v c) m =
        { complete v (r.set id (readClass v c)) id (readClass v c) m with
          registry := ((r.set id (readClass v c)).set other d).set id
            (left v (r.set id (readClass v c)) id (readClass v c) m) } :=
      complete_congr v hsize (by rwa [Registry.size_set]) hshown (readClass v c).body
    dsimp only
    rw [hcomplete, registry_complete, Registry.set_comm _ d _ (Ne.symm ne)]

end Frame

/-- Runs on unrelated classes commute: in either order they leave the same registry, and each of
them answers and reports what it does when it comes first. -/
theorem runs_commute {r : Registry} {id other : ClassId} {c d : ClassDecl}
    (registered : r.get? id = some c) (registered' : r.get? other = some d)
    (unrelated : Unrelated r id other) :
    (run v (run v r id).registry other).registry =
        (run v (run v r other).registry id).registry ∧
      (run v (run v r other).registry id).result = (run v r id).result ∧
      (run v (run v r other).registry id).log = (run v r id).log ∧
      (run v (run v r id).registry other).result = (run v r other).result ∧
      (run v (run v r id).registry other).log = (run v r other).log := by
  obtain ⟨c', hc⟩ := exists_registry_eq_set v registered
  obtain ⟨d', hd⟩ := exists_registry_eq_set v registered'
  have hfirst := run_set v registered unrelated.ne (unrelated.unseen c registered) d'
  have hsecond := run_set v registered' (Ne.symm unrelated.ne)
    (unrelated.unseeing d registered') c'
  rw [hd, hc, hfirst, hsecond]
  exact ⟨by rw [hd, hc, Registry.set_comm r c' d' unrelated.ne], rfl, rfl, rfl, rfl⟩

/-- A base with a field that its constructor takes alone, and two classes below it. The type of a
field of the second is not known yet. -/
private def siblings : Registry :=
  let holder (name : String) (mro : List ClassId) (fields : List (String × Binding)) : ClassDecl :=
    ClassDecl.bind
      { name, fullname := name, mro, decorators := [.name { name := "dataclass" }]
        body := fields.map fun f => .assign { target := { name := f.1 }, declaredTy := some f.2 } }
  let base := holder "Base" [1, 0]
    [("seed", .resolved (.inst "dataclasses.InitVar" [.named "builtins.int"]))]
  (run {} ⟨[{ name := "object", fullname := "object", mro := [0] }, base,
    holder "Left" [2, 1, 0] [("x", .resolved (.named "builtins.str"))],
    holder "Right" [3, 1, 0] [("y", .pending)]]⟩ 1).registry

private theorem mro_siblings {a : ClassId} {d : ClassDecl} (registered : siblings.get? a = some d) :
    d.mro ⊆ [a, 1, 0] := by
  rcases a with _ | _ | _ | _ | a
  · cases registered
    decide
  · cases registered
    decide
  · cases registered
    decide
  · cases registered
    decide
  · cases registered

theorem runs_commute_siblings :
    (∃ s, (run {} siblings 2).result = .ok s ∧ s.dependencies = ["Base"]) ∧
      (run {} siblings 3).result = .error (.deferred (.pendingType "y")) ∧
      (run {} (run {} siblings 2).registry 3).registry =
        (run {} (run {} siblings 3).registry 2).registry := by
  have unseen : ∀ id other : ClassId, id ≠ other → other ∉ [1, 0] →
      ∀ c, siblings.get? id = some c → Unseen siblings other c.mro := by
    intro id other ne apart c registered a ha
    have hmem := mro_siblings registered ha
    have hne : a ≠ other := by
      rintro rfl
      exact (List.mem_cons.mp hmem).elim (fun he => ne he.symm) apart
    refine ⟨hne, fun d hd hother => ?_⟩
    exact (List.mem_cons.mp (mro_siblings hd hother)).elim (fun he => hne he.symm) apart
  have unrelated : Unrelated siblings 2 3 :=
    ⟨by decide, unseen 2 3 (by decide) (by decide), unseen 3 2 (by decide) (by decide)⟩
  exact ⟨⟨_, rfl, rfl⟩, rfl, (runs_commute {} rfl rfl unrelated).1⟩

end Synthesis

end DataHolder
