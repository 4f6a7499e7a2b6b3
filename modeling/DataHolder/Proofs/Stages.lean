import DataHolder.Proofs.Merge

/-!
# The stages of a run

A run reads, collects and then completes or halts. The laws of the registry say what putting a
class under a number changes, and the laws of a run what it does with the class that it finds.
-/

namespace DataHolder

/-- Functions that agree on a list find the same in it. -/
theorem findSome?_congr {α β : Type} {f g : α → Option β} {l : List α}
    (h : ∀ a ∈ l, f a = g a) : l.findSome? f = l.findSome? g := by
  induction l with
  | nil => rfl
  | cons a l ih =>
    rw [List.findSome?_cons, List.findSome?_cons, h a List.mem_cons_self,
      ih fun b hb => h b (List.mem_cons_of_mem _ hb)]

theorem findSome?_filterMap {α β γ : Type} (f : β → Option γ) (g : α → Option β) (l : List α) :
    (l.filterMap g).findSome? f = l.findSome? fun a => (g a).bind f := by
  induction l with
  | nil => rfl
  | cons a l ih =>
    rw [List.filterMap_cons, List.findSome?_cons, ← ih]
    cases g a <;> rfl

namespace Registry

/-- Classes under all numbers determine a registry. -/
theorem ext_get? {r q : Registry} (h : ∀ id, r.get? id = q.get? id) : r = q := by
  obtain ⟨classes⟩ := r
  obtain ⟨others⟩ := q
  congr 1
  exact List.ext_getElem? h

theorem lt_size_of_get? {r : Registry} {id : ClassId} {c : ClassDecl} (h : r.get? id = some c) :
    id < r.size :=
  (List.getElem?_eq_some_iff.mp h).1

/-- What a number stands for once another class was put under a number. -/
theorem get?_set {r : Registry} {id : ClassId} {old : ClassDecl} (h : r.get? id = some old)
    (c : ClassDecl) (other : ClassId) :
    (r.set id c).get? other = if id = other then some c else r.get? other := by
  by_cases ho : id = other
  · subst ho
    rw [if_pos rfl, get?_set_self r id c (lt_size_of_get? h)]
  · rw [if_neg ho, get?_set_ne r c ho]

theorem set_set (r : Registry) (id : ClassId) (c d : ClassDecl) :
    (r.set id c).set id d = r.set id d := by
  rw [set, set, set, List.set_set]

/-- A class whose linearized ancestors do not contain another does not see it. -/
theorem searchMro_set {α : Type} (r : Registry) {id other : ClassId} (c : ClassDecl)
    (f : ClassDecl → Option α) (ne : other ≠ id)
    (unseen : ∀ d, r.get? other = some d → id ∉ d.mro) :
    (r.set id c).searchMro other f = r.searchMro other f := by
  rw [searchMro, searchMro, get?_set_ne r c (Ne.symm ne)]
  cases hd : r.get? other with
  | none => rfl
  | some d =>
    rw [Option.bind_some, Option.bind_some]
    apply findSome?_congr
    intro a ha
    have hne : id ≠ a := by
      rintro rfl
      exact unseen d hd ha
    rw [get?_set_ne r c hne]

end Registry

namespace Synthesis

variable (v : Vocabulary)

/-- A class after its body was read. -/
def readClass (c : ClassDecl) : ClassDecl :=
  { c with members := (readBody v c.body c.members).1 }

/-- What a run does with a class that the registry holds. -/
theorem run_of_get? {r : Registry} {id : ClassId} {c : ClassDecl} (h : r.get? id = some c) :
    run v r id =
      match collect v (r.set id (readClass v c)) id c.mro (readBody v c.body c.members).2 with
      | .error halt => { registry := r.set id (readClass v c), result := .error halt }
      | .ok m => complete v (r.set id (readClass v c)) id (readClass v c) m := by
  simp only [run, h]
  rfl

/-- A run that halts leaves the table of its class read, and all else as it was. -/
theorem registry_of_halt {r : Registry} {id : ClassId} {c : ClassDecl} {halt : Halt}
    (registered : r.get? id = some c) (h : (run v r id).result = .error halt) :
    (run v r id).registry = r.set id (readClass v c) := by
  rw [run_of_get? v registered] at h ⊢
  split at h
  · rfl
  · cases h

/-- A run that completes has read all fields of the class, and merged them. -/
theorem collect_of_ok {r : Registry} {id : ClassId} {c : ClassDecl} {s : Synthesis}
    (registered : r.get? id = some c) (h : (run v r id).result = .ok s) :
    ∃ own found, (readBody v c.body c.members).2 = .ok own ∧
      contributions v (r.set id (readClass v c)) (interior c.mro) = .ok found ∧
      s.fields = (merge (own.map fun f => { field := f }) (found.map Contribution.fields)).map
        MergedField.field := by
  rw [run_of_get? v registered] at h
  split at h
  · cases h
  · next m hcollect =>
    have hfields : s.fields = m.plain := by
      have hs := Except.ok.inj h
      rw [← hs]
    have hgather := gather_of_collect hcollect
    unfold gather at hgather
    split at hgather
    · cases hgather
    · next own hown =>
      split at hgather
      · cases hgather
      · next found hfound =>
        cases hgather
        exact ⟨own, found, hown, hfound, hfields⟩

end Synthesis

end DataHolder
