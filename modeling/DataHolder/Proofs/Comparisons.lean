import DataHolder.Proofs.Deferral
import DataHolder.Proofs.Outcome
import DataHolder.Registry.Bound

/-!
# What comparison methods accept

A generated comparison method takes a value of a type variable that also types `self` and is bounded
by the class. Where full names tell classes apart, the bound check goes from a full name to the one
class that bears it, so what satisfies the bound are the instances of the class and of the classes
below it, and of no others.
-/

namespace DataHolder

/-- A last index is the index of an element that satisfies the test. -/
theorem of_lastIndex? {α : Type} {p : α → Bool} {l : List α} {i : Nat}
    (h : lastIndex? p l = some i) : ∃ a, l[i]? = some a ∧ p a = true := by
  induction l generalizing i with
  | nil => cases h
  | cons b l ih =>
    rw [lastIndex?] at h
    cases hrest : lastIndex? p l with
    | some j =>
      rw [hrest] at h
      cases h
      exact ih hrest
    | none =>
      rw [hrest] at h
      dsimp only at h
      split at h
      · next hb =>
        cases h
        exact ⟨b, rfl, hb⟩
      · cases h

/-- There is a last index as soon as some element satisfies the test. -/
theorem isSome_lastIndex? {α : Type} {p : α → Bool} {l : List α} {a : α} (ha : a ∈ l)
    (holds : p a = true) : (lastIndex? p l).isSome = true := by
  induction l with
  | nil => cases ha
  | cons b l ih =>
    rw [lastIndex?]
    cases hrest : lastIndex? p l with
    | some j => rfl
    | none =>
      rcases List.mem_cons.mp ha with rfl | ha
      · simp [holds]
      · rw [hrest] at ih
        cases ih ha

namespace Registry

/-- Full names tell the classes apart, and each of them heads its linearized ancestors. -/
structure Named (r : Registry) : Prop where
  distinct : ∀ a b c d, r.get? a = some c → r.get? b = some d → c.fullname = d.fullname → a = b
  first : ∀ a c, r.get? a = some c → c.mro.head? = some a

variable {r : Registry} {sub sup : ClassId} {c d : ClassDecl}

/-- The class with a full name is the one that bears it. -/
theorem Named.find?_eq (named : Named r) (registered : r.get? sub = some d) :
    r.find? d.fullname = some sub := by
  obtain ⟨i, hi⟩ := Option.isSome_iff_exists.mp
    (isSome_lastIndex? (p := fun e => e.fullname == d.fullname)
      (List.mem_of_getElem? registered) (by simp))
  obtain ⟨e, he, hname⟩ := of_lastIndex? hi
  have hsame : i = sub := named.distinct i sub e d he registered (by simpa using hname)
  rw [find?, hi, hsame]

/-- One class descends from another where this is among its linearized ancestors. -/
theorem Named.descends_iff (named : Named r) (below : r.get? sub = some d)
    (above : r.get? sup = some c) : r.descends d.fullname c.fullname = true ↔ sup ∈ d.mro := by
  rw [descends]
  split
  · next hname =>
    obtain rfl := named.distinct sub sup d c below above hname
    exact iff_of_true rfl (List.mem_of_mem_head? (named.first sub d below))
  · rw [named.find?_eq below, named.find?_eq above]
    simp [isSubclass, below]

/-- An instance satisfies a bound that is another class, unless the root, where it descends from
it. -/
theorem Named.satisfiesBound_iff (named : Named r) (below : r.get? sub = some d)
    (above : r.get? sup = some c) (proper : c.fullname ≠ rootName) (name fullname : String)
    (i : Int) :
    r.satisfiesBound d.instanceTy (.typeVar name fullname i c.instanceTy) = true ↔
      sup ∈ d.mro := by
  have hground : r.satisfiesBound d.instanceTy (.typeVar name fullname i c.instanceTy) =
      (c.fullname == rootName || r.descends d.fullname c.fullname) := rfl
  rw [hground, ← named.descends_iff below above]
  simp [proper]

end Registry

namespace Synthesis

variable {v : Vocabulary} {r : Registry} {id : ClassId} {c : ClassDecl} {s : Synthesis}

/-- A method that a run has listed and that still stands under its name is the one that the run has
generated. -/
theorem eq_comparison_of_listed (registered : r.get? id = some c)
    (completes : (run v r id).result = .ok s) {name : String} (ne : name ≠ "__init__")
    (listed : name ∈ s.generated) {f : Method} {generated : Bool}
    (kept : (run v r id).registry.member? id name = some { symbol := .method f, generated }) :
    f = Draft.comparison v c name := by
  obtain ⟨own, m, -, -, rfl, -, hget⟩ := run_of_ok registered completes
  rw [Registry.member?, hget, Option.bind_some] at kept
  obtain ⟨symbol, hadded, hdraft⟩ := get?_draft_of_mem listed
  rw [get?_draft_of_completed v r id c m kept rfl, Option.some.injEq, Member.mk.injEq] at hdraft
  rw [← hdraft.1] at hadded
  rw [eq_of_method_mem_additions _ _ _ _ _ hadded, if_neg ne]
  rfl

/-- A run that completes leaves full names and linearized ancestors as they are. -/
private theorem named_run (named : Registry.Named r) (registered : r.get? id = some c)
    (completes : (run v r id).result = .ok s) :
    Registry.Named (run v r id).registry ∧ ∀ a d, r.get? a = some d →
      ∃ e, (run v r id).registry.get? a = some e ∧ e.fullname = d.fullname ∧ e.mro = d.mro := by
  obtain ⟨own, m, -, -, -, hregistry, -⟩ := run_of_ok registered completes
  have hget := Registry.get?_set registered (completed v r id c m)
  rw [hregistry]
  have hkept : ∀ a e, (r.set id (completed v r id c m)).get? a = some e →
      ∃ d, r.get? a = some d ∧ e.fullname = d.fullname ∧ e.mro = d.mro := by
    intro a e he
    rw [hget] at he
    split at he
    · next hid =>
      cases he
      exact ⟨c, hid ▸ registered, rfl, rfl⟩
    · exact ⟨e, he, rfl, rfl⟩
  refine ⟨⟨?_, ?_⟩, ?_⟩
  · intro a b e e' he he' hname
    obtain ⟨d, hd, hfullname, -⟩ := hkept a e he
    obtain ⟨d', hd', hfullname', -⟩ := hkept b e' he'
    exact named.distinct a b d d' hd hd' (by rw [← hfullname, hname, hfullname'])
  · intro a e he
    obtain ⟨d, hd, -, hmro⟩ := hkept a e he
    rw [hmro, named.first a d hd]
  · intro a d hd
    rw [hget]
    split
    · next hid =>
      subst hid
      rw [registered] at hd
      cases hd
      exact ⟨_, rfl, rfl, rfl⟩
    · exact ⟨d, hd, rfl, rfl⟩

/-- A comparison method that a run has generated for a class, not the root, takes one other value.
An instance of a class may be passed exactly where the class descends from the one that was run,
and `self` has the same type. -/
theorem comparison_accepts_iff (named : Registry.Named r) (registered : r.get? id = some c)
    (proper : c.fullname ≠ rootName) (completes : (run v r id).result = .ok s) {name : String}
    (compares : name ∈ equalityMethods ++ orderingMethods) (listed : name ∈ s.generated)
    {f : Method} {generated : Bool}
    (kept : (run v r id).registry.member? id name = some { symbol := .method f, generated }) :
    ∃ other ty, f.parameters = [other] ∧ other.name = "other" ∧ other.declaredTy = some ty ∧
      f.selfType = some ty ∧ ∀ a d, r.get? a = some d →
        ((run v r id).registry.satisfiesBound d.instanceTy ty = true ↔ id ∈ d.mro) := by
  have hf := eq_comparison_of_listed registered completes
    (fun he => absurd (he ▸ compares) (by decide)) listed kept
  obtain ⟨hnamed, hkept⟩ := named_run named registered completes
  obtain ⟨c', hc, hfullname, -⟩ := hkept id c registered
  refine ⟨_, (Draft.selfTypeVar v c).ty, by rw [hf]; rfl, rfl, rfl, by rw [hf]; rfl, ?_⟩
  intro a d hd
  obtain ⟨d', hd', hname, hmro⟩ := hkept a d hd
  have hinstance : d'.instanceTy = d.instanceTy := congrArg Ty.named hname
  have hinstance' : c'.instanceTy = c.instanceTy := congrArg Ty.named hfullname
  have hbound := hnamed.satisfiesBound_iff hd' hc (hfullname ▸ proper) v.selfTypeVar
    (c.memberFullname v.selfTypeVar) (-1)
  rw [hinstance, hinstance', hmro] at hbound
  exact hbound

/-- A base with two classes below it, and a class below the first of these. -/
private def shapes : Registry :=
  let holder (name : String) (mro : List ClassId) : ClassDecl :=
    { name, fullname := name, mro, decorators := [.name { name := "dataclass" }] }
  (run {} ⟨[{ name := "object", fullname := rootName, mro := [0] }, holder "Shape" [1, 0],
    holder "Circle" [2, 1, 0], holder "Square" [3, 1, 0], holder "Disc" [4, 2, 1, 0]]⟩ 1).registry

private theorem named_shapes : Registry.Named shapes := by
  have hget : ∀ a c, shapes.get? a = some c → ∃ i : Fin 5, a = i ∧
      c.fullname = [rootName, "Shape", "Circle", "Square", "Disc"][i] ∧ c.mro.head? = some a := by
    intro a c hc
    rcases a with _ | _ | _ | _ | _ | a
    · cases hc
      exact ⟨0, rfl, rfl, rfl⟩
    · cases hc
      exact ⟨1, rfl, rfl, rfl⟩
    · cases hc
      exact ⟨2, rfl, rfl, rfl⟩
    · cases hc
      exact ⟨3, rfl, rfl, rfl⟩
    · cases hc
      exact ⟨4, rfl, rfl, rfl⟩
    · cases hc
  refine ⟨fun a b c d hc hd hname => ?_, fun a c hc => ?_⟩
  · obtain ⟨i, rfl, hi, -⟩ := hget a c hc
    obtain ⟨j, rfl, hj, -⟩ := hget b d hd
    rw [hi, hj] at hname
    have hinj : ∀ i j : Fin 5, [rootName, "Shape", "Circle", "Square", "Disc"][i] =
        [rootName, "Shape", "Circle", "Square", "Disc"][j] → i = j := by decide
    rw [hinj i j hname]
  · obtain ⟨-, -, -, hfirst⟩ := hget a c hc
    exact hfirst

theorem comparison_accepts_circle : ∃ s f ty, (run {} shapes 2).result = .ok s ∧
    "__eq__" ∈ s.generated ∧
    (run {} shapes 2).registry.member? 2 "__eq__" =
      some { symbol := .method f, generated := true } ∧
    f.selfType = some ty ∧ ∀ a d, shapes.get? a = some d →
      ((run {} shapes 2).registry.satisfiesBound d.instanceTy ty = true ↔ 2 ∈ d.mro) := by
  have completes : ∃ s, (run {} shapes 2).result = .ok s ∧ "__eq__" ∈ s.generated :=
    ⟨_, rfl, by decide⟩
  obtain ⟨s, hs, listed⟩ := completes
  have kept : ∃ f, (run {} shapes 2).registry.member? 2 "__eq__" =
      some { symbol := .method f, generated := true } := ⟨_, rfl⟩
  obtain ⟨f, hf⟩ := kept
  obtain ⟨-, ty, -, -, -, hself, haccepts⟩ := comparison_accepts_iff named_shapes
    (show shapes.get? 2 = some _ from rfl) (by decide) hs (by decide) listed hf
  exact ⟨s, f, ty, hs, listed, hf, hself, haccepts⟩

end Synthesis

end DataHolder
