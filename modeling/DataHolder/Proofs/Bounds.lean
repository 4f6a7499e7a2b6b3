import DataHolder.Proofs.Comparisons

/-!
# The bound check as an order

The check compares what is left of two types when type variables give way to their upper bounds:
instances by their full names first, and then by the classes that bear these. Where the linearized
ancestors of a class contain those of each ancestor, and the root descends from itself alone, this
is a preorder on the types that do not come down to the unconstrained one. That type stands both
below and above every other, so it cannot be in the middle.
-/

namespace DataHolder

namespace Ty

/-- One type arises from another where a type variable is replaced by its upper bound: the type
itself, or one in an upper bound or in an argument. -/
inductive Unfolds : Ty → Ty → Prop where
  | here (name fullname : String) (id : Int) (upper : Ty) :
      Unfolds (.typeVar name fullname id upper) upper
  | bound (name fullname : String) (id : Int) {upper upper' : Ty} (h : Unfolds upper upper') :
      Unfolds (.typeVar name fullname id upper) (.typeVar name fullname id upper')
  | arg (fullname : String) (before after : List Ty) {t t' : Ty} (h : Unfolds t t') :
      Unfolds (.inst fullname (before ++ t :: after)) (.inst fullname (before ++ t' :: after))

/-- Whether neither a type nor any of the upper bounds that it leads to is the unconstrained
type. -/
def isConstrained : Ty → Bool
  | .inst _ _ => true
  | .typeVar _ _ _ bound => bound.isConstrained
  | .none => true
  | .any => false

/-- What is left of a constrained type is an instance or the type of `None`. -/
theorem widen_of_isConstrained {t : Ty} (h : t.isConstrained = true) :
    (∃ name args, t.widen = .inst name args) ∨ t.widen = .none := by
  fun_induction isConstrained t with
  | case1 name args => exact .inl ⟨name, args, rfl⟩
  | case2 _ _ _ bound ih => exact ih h
  | case3 => exact .inr rfl
  | case4 => cases h

/-- No type variable is left of a type. -/
theorem widen_ne_typeVar (t : Ty) (name fullname : String) (id : Int) (bound : Ty) :
    t.widen ≠ .typeVar name fullname id bound := by
  fun_induction widen t with
  | case1 _ _ _ _ ih => exact ih
  | case2 t plain =>
    rintro rfl
    exact plain _ _ _ _ rfl

end Ty

namespace Registry

/-- The linearized ancestors of a class contain those of each of them, and the class at the root
has no ancestor but itself. -/
structure Linearized (r : Registry) : Prop where
  closed : ∀ a c, r.get? a = some c → ∀ b ∈ c.mro, ∀ d, r.get? b = some d → d.mro ⊆ c.mro
  root : ∀ a c, r.find? rootName = some a → r.get? a = some c → c.mro ⊆ [a]

variable {r : Registry}

/-! ## Registries that grow class by class -/

/-- A class that is found by a full name is registered and bears it. -/
theorem fullname_of_find? {name : String} {a : ClassId} (h : r.find? name = some a) :
    ∃ c, r.get? a = some c ∧ c.fullname = name := by
  obtain ⟨c, hget, hname⟩ := of_lastIndex? h
  exact ⟨c, hget, by simpa using hname⟩

/-- A registry to which classes were added one after the other, each of them behind the ancestors
of all its ancestors, and the root without any. -/
inductive Grown : Registry → Prop where
  | empty : Grown {}
  | add {r : Registry} {c : ClassDecl} {ancestors : List ClassId} (h : Grown r)
      (closed : ∀ a ∈ ancestors, ∃ d, r.get? a = some d ∧ d.mro ⊆ ancestors)
      (root : c.fullname = rootName → ancestors = []) : Grown (r.add c ancestors)

private theorem get?_add_self (c : ClassDecl) (ancestors : List ClassId) :
    (r.add c ancestors).get? r.nextId = some { c with mro := r.nextId :: ancestors } :=
  List.getElem?_concat_length

private theorem get?_add_of_lt (c : ClassDecl) (ancestors : List ClassId) {a : ClassId}
    (h : a < r.size) : (r.add c ancestors).get? a = r.get? a :=
  List.getElem?_append_left h

/-- A class of the registry to which one was added is the new one, or was there before. -/
private theorem of_get?_add {c d : ClassDecl} {ancestors : List ClassId} {a : ClassId}
    (h : (r.add c ancestors).get? a = some d) :
    (a = r.nextId ∧ d = { c with mro := r.nextId :: ancestors }) ∨
      a < r.size ∧ r.get? a = some d := by
  rcases Nat.lt_trichotomy a r.size with hlt | heq | hgt
  · exact .inr ⟨hlt, get?_add_of_lt c ancestors hlt ▸ h⟩
  · subst heq
    exact .inl ⟨rfl, Option.some.inj (h.symm.trans (get?_add_self c ancestors))⟩
  · have hbound := lt_size_of_get? h
    rw [size, add, List.length_append, List.length_singleton] at hbound
    exact absurd hbound (Nat.not_lt.mpr hgt)

private theorem lastIndex?_append_singleton {α : Type} (p : α → Bool) (l : List α) (a : α) :
    lastIndex? p (l ++ [a]) = if p a then some l.length else lastIndex? p l := by
  induction l with
  | nil => rfl
  | cons b l ih =>
    rw [List.cons_append, lastIndex?, ih, lastIndex?]
    cases p a <;> rfl

private theorem find?_add (c : ClassDecl) (ancestors : List ClassId) (name : String) :
    (r.add c ancestors).find? name = if c.fullname = name then some r.nextId else r.find? name := by
  rw [find?, add, lastIndex?_append_singleton]
  simp only [beq_iff_eq]
  rfl

/-- In a grown registry the linearized ancestors of a class are registered, and contain those of
each of them. -/
private theorem Grown.mro_subset (h : Grown r) :
    ∀ a c, r.get? a = some c → ∀ b ∈ c.mro, ∃ d, r.get? b = some d ∧ d.mro ⊆ c.mro := by
  induction h with
  | empty => intro a c hc; cases hc
  | @add r c ancestors h closed root ih =>
    have hold : ∀ b d, r.get? b = some d → (r.add c ancestors).get? b = some d := by
      intro b d hd
      rw [get?_add_of_lt c ancestors (lt_size_of_get? hd), hd]
    intro a e he b hb
    rcases of_get?_add he with ⟨rfl, rfl⟩ | ⟨-, he⟩
    · rcases List.mem_cons.mp hb with rfl | hb
      · exact ⟨_, get?_add_self c ancestors, List.Subset.refl _⟩
      · obtain ⟨d, hd, hsub⟩ := closed b hb
        exact ⟨d, hold b d hd, List.subset_cons_of_subset _ hsub⟩
    · obtain ⟨d, hd, hsub⟩ := ih a e he b hb
      exact ⟨d, hold b d hd, hsub⟩

/-- In a grown registry the root has no ancestor but itself. -/
private theorem Grown.mro_root (h : Grown r) :
    ∀ a c, r.find? rootName = some a → r.get? a = some c → c.mro ⊆ [a] := by
  induction h with
  | empty => intro a c ha; cases ha
  | @add r c ancestors h closed root ih =>
    intro a e ha he
    rw [find?_add] at ha
    split at ha
    · next hroot =>
      cases ha
      cases he.symm.trans (get?_add_self c ancestors)
      rw [root hroot]
      exact List.Subset.refl _
    · obtain ⟨d, hd, -⟩ := fullname_of_find? ha
      rw [get?_add_of_lt c ancestors (lt_size_of_get? hd)] at he
      exact ih a e ha he

theorem Grown.linearized (h : Grown r) : Linearized r where
  closed a c hc b hb d hd := by
    obtain ⟨e, he, hsub⟩ := h.mro_subset a c hc b hb
    cases hd.symm.trans he
    exact hsub
  root := h.mro_root

/-! ## Descent -/

/-- One full name descends from another where they are the same, or the class that bears the first
has the class that bears the second among its linearized ancestors. -/
theorem descends_iff (sub sup : String) :
    r.descends sub sup = true ↔
      sub = sup ∨ ∃ a b c, r.find? sub = some a ∧ r.find? sup = some b ∧ r.get? a = some c ∧
        b ∈ c.mro := by
  rw [descends]
  split
  · next h => exact iff_of_true rfl (.inl h)
  · next h =>
    constructor
    · intro hd
      split at hd
      · next a b ha hb =>
        obtain ⟨c, hc, -⟩ := fullname_of_find? ha
        have hmem : b ∈ c.mro := by simpa [isSubclass, hc] using hd
        exact .inr ⟨a, b, c, ha, hb, hc, hmem⟩
      · cases hd
    · rintro (he | ⟨a, b, c, ha, hb, hc, hmem⟩)
      · exact absurd he h
      · rw [ha, hb]
        simpa [isSubclass, hc] using hmem

theorem descends_refl (name : String) : r.descends name name = true :=
  (descends_iff name name).mpr (.inl rfl)

/-- Descent goes on along the ancestors of ancestors. -/
theorem Linearized.descends_trans (linearized : Linearized r) {low middle high : String}
    (h : r.descends low middle = true) (h' : r.descends middle high = true) :
    r.descends low high = true := by
  rw [descends_iff] at h h' ⊢
  rcases h with rfl | ⟨a, b, c, ha, hb, hc, hmem⟩
  · exact h'
  · rcases h' with rfl | ⟨b', e, d, hb', he, hd, hmem'⟩
    · exact .inr ⟨a, b, c, ha, hb, hc, hmem⟩
    · -- The name in the middle has one class, so the two chains meet.
      cases hb.symm.trans hb'
      exact .inr ⟨a, e, c, ha, he, hc, linearized.closed a c hc b hmem d hd hmem'⟩

/-- The root descends from nothing but itself. -/
theorem Linearized.eq_root_of_descends (linearized : Linearized r) {name : String}
    (h : r.descends rootName name = true) : name = rootName := by
  rcases (descends_iff _ _).mp h with rfl | ⟨a, b, c, ha, hb, hc, hmem⟩
  · rfl
  · obtain rfl := List.mem_singleton.mp (linearized.root a c ha hc hmem)
    obtain ⟨d, hd, hname⟩ := fullname_of_find? ha
    obtain ⟨d', hd', hname'⟩ := fullname_of_find? hb
    cases hd.symm.trans hd'
    exact hname'.symm.trans hname

/-! ## Types without type variables -/

/-- What an instance satisfies: the unconstrained type, the root, and what its class descends
from. -/
theorem groundSatisfies_inst_iff (name : String) (args : List Ty) (bound : Ty) :
    r.groundSatisfies (.inst name args) bound = true ↔
      bound = .any ∨ ∃ sup args', bound = .inst sup args' ∧
        (sup = rootName ∨ r.descends name sup = true) := by
  cases bound with
  | inst sup args' => simp [groundSatisfies]
  | typeVar n f i b => simp [groundSatisfies]
  | none => simp [groundSatisfies]
  | any => simp [groundSatisfies]

/-- What `None` satisfies: the unconstrained type, its own, and the root. -/
theorem groundSatisfies_none_iff (bound : Ty) :
    r.groundSatisfies .none bound = true ↔
      bound = .any ∨ bound = .none ∨ ∃ args, bound = .inst rootName args := by
  cases bound with
  | inst sup args => simp [groundSatisfies]
  | typeVar n f i b => simp [groundSatisfies]
  | none => simp [groundSatisfies]
  | any => simp [groundSatisfies]

theorem groundSatisfies_any_right (t : Ty) : r.groundSatisfies t .any = true := by
  cases t <;> rfl

/-- Below the type of `None` stand that type and the unconstrained one. -/
theorem eq_of_groundSatisfies_none {t : Ty} (h : r.groundSatisfies t .none = true) :
    t = .any ∨ t = .none := by
  cases t with
  | inst name args => cases h
  | typeVar n f i b => cases h
  | none => exact .inr rfl
  | any => exact .inl rfl

/-- Every type that is no type variable satisfies itself. -/
theorem groundSatisfies_self {t : Ty}
    (plain : ∀ name fullname id bound, t ≠ .typeVar name fullname id bound) :
    r.groundSatisfies t t = true := by
  cases t with
  | inst name args =>
    exact (groundSatisfies_inst_iff name args _).mpr
      (.inr ⟨name, args, rfl, .inr (descends_refl _)⟩)
  | typeVar n f i b => exact absurd rfl (plain n f i b)
  | none => rfl
  | any => rfl

/-- Through an instance, satisfaction goes on. -/
private theorem Linearized.groundSatisfies_inst_trans (linearized : Linearized r) {low high : Ty}
    {name : String} {args : List Ty} (h : r.groundSatisfies low (.inst name args) = true)
    (h' : r.groundSatisfies (.inst name args) high = true) :
    r.groundSatisfies low high = true := by
  rcases (groundSatisfies_inst_iff _ _ _).mp h' with rfl | ⟨sup, args', rfl, hsup⟩
  · exact groundSatisfies_any_right low
  -- Above the root there is the root alone, so whatever satisfies the root satisfies `sup`.
  have hroot : name = rootName → sup = rootName := by
    rintro rfl
    exact hsup.elim id linearized.eq_root_of_descends
  cases low with
  | inst sub subArgs =>
    obtain ⟨sup', args'', he, hsub⟩ :=
      ((groundSatisfies_inst_iff _ _ _).mp h).resolve_left (by simp)
    cases he
    refine (groundSatisfies_inst_iff _ _ _).mpr (.inr ⟨sup, args', rfl, ?_⟩)
    rcases hsub with hname | hsub
    · exact .inl (hroot hname)
    · exact hsup.imp_right fun hsup => linearized.descends_trans hsub hsup
  | typeVar n f i b => cases h
  | none =>
    have hname : name = rootName := by simpa [groundSatisfies] using h
    exact (groundSatisfies_none_iff _).mpr (.inr (.inr ⟨args', by rw [hroot hname]⟩))
  | any => rfl

/-! ## All types -/

/-- The check sees no difference where a type variable is replaced by its upper bound. -/
private theorem satisfiesBound_of_unfolds {t t' : Ty} (h : t.Unfolds t') (other : Ty) :
    r.satisfiesBound t other = r.satisfiesBound t' other ∧
      r.satisfiesBound other t = r.satisfiesBound other t' := by
  induction h with
  | here name fullname id upper => exact ⟨rfl, rfl⟩
  | bound name fullname id h ih => exact ih
  | arg fullname before after h ih =>
    -- Arguments are not compared.
    simp only [satisfiesBound, Ty.widen]
    cases other.widen <;> exact ⟨rfl, rfl⟩

/-- The bound check is reflexive, and it is transitive where the type in the middle does not come
down to the unconstrained one, so it is a preorder on the constrained types. On all types, its
answer is the same when a type variable on either side is replaced by its upper bound. -/
theorem satisfiesBound_preorder (linearized : Linearized r) :
    (∀ t, r.satisfiesBound t t = true) ∧
    (∀ low middle high : Ty, middle.isConstrained = true →
      r.satisfiesBound low middle = true → r.satisfiesBound middle high = true →
        r.satisfiesBound low high = true) ∧
    ∀ t t' other : Ty, t.Unfolds t' →
      r.satisfiesBound t other = r.satisfiesBound t' other ∧
        r.satisfiesBound other t = r.satisfiesBound other t' := by
  refine ⟨?_, ?_, fun t t' other h => satisfiesBound_of_unfolds h other⟩
  · intro t
    exact groundSatisfies_self t.widen_ne_typeVar
  · intro low middle high constrained h h'
    rw [satisfiesBound] at h h' ⊢
    rcases Ty.widen_of_isConstrained constrained with ⟨name, args, hmiddle⟩ | hmiddle
    · rw [hmiddle] at h h'
      exact linearized.groundSatisfies_inst_trans h h'
    · rw [hmiddle] at h h'
      rcases eq_of_groundSatisfies_none h with hlow | hlow
      · rw [hlow]
        rfl
      · rw [hlow]
        exact h'

/-- The unconstrained type in the middle would connect any two types. -/
example (low high : Ty) : ({} : Registry).satisfiesBound low .any = true ∧
    ({} : Registry).satisfiesBound .any high = true :=
  ⟨groundSatisfies_any_right low.widen, rfl⟩

/-- A chain of four classes below the root. -/
private def figures : Registry :=
  let figure (name : String) : ClassDecl := { name, fullname := name }
  (((({} : Registry).add (figure rootName) []).add (figure "Figure") [0]).add
    (figure "Ellipse") [1, 0]).add (figure "Circle") [2, 1, 0]

private theorem grown_figures : Grown figures := by
  refine .add (.add (.add (.add .empty ?_ ?_) ?_ ?_) ?_ ?_) ?_ ?_
  · exact fun a ha => absurd ha List.not_mem_nil
  · exact fun _ => rfl
  · intro a ha
    rw [List.mem_singleton.mp ha]
    exact ⟨_, rfl, by decide⟩
  · exact fun h => absurd h (by decide)
  · intro a ha
    rcases List.mem_cons.mp ha with rfl | ha
    · exact ⟨_, rfl, by decide⟩
    · rw [List.mem_singleton.mp ha]
      exact ⟨_, rfl, by decide⟩
  · exact fun h => absurd h (by decide)
  · intro a ha
    rcases List.mem_cons.mp ha with rfl | ha
    · exact ⟨_, rfl, by decide⟩
    · rcases List.mem_cons.mp ha with rfl | ha
      · exact ⟨_, rfl, by decide⟩
      · rw [List.mem_singleton.mp ha]
        exact ⟨_, rfl, by decide⟩
  · exact fun h => absurd h (by decide)

/-- A type variable bounded by another one, whose upper bound is the class at the bottom. -/
private def nestedVar : Ty := .typeVar "T" "T" (-1) (.typeVar "S" "S" (-2) (.named "Circle"))

theorem satisfiesBound_preorder_figures :
    Linearized figures ∧ (Ty.inst "Ellipse" [.any]).isConstrained = true ∧
      figures.satisfiesBound nestedVar (.inst "Ellipse" [.any]) = true ∧
      figures.satisfiesBound (.inst "Ellipse" [.any]) (.named "Figure") = true ∧
      figures.satisfiesBound nestedVar (.named "Figure") = true ∧
      figures.satisfiesBound nestedVar (.named "Figure") =
        figures.satisfiesBound (.typeVar "T" "T" (-1) (.named "Circle")) (.named "Figure") := by
  obtain ⟨-, trans, unfold⟩ := satisfiesBound_preorder grown_figures.linearized
  have hlow : figures.satisfiesBound nestedVar (.inst "Ellipse" [.any]) = true := by decide
  have hhigh : figures.satisfiesBound (.inst "Ellipse" [.any]) (.named "Figure") = true := by decide
  exact ⟨grown_figures.linearized, rfl, hlow, hhigh, trans _ _ _ rfl hlow hhigh,
    (unfold _ _ _ (.bound _ _ _ (.here _ _ _ _))).1⟩

end Registry

end DataHolder
