import DataHolder.Proofs.Reading

/-!
# Binding a body

Binding offers the table one entry for every statement that declares something and is not bound
yet. The table takes an entry when it has none under the name, so that of several declarations
the first counts, and a second binding changes nothing.
-/

namespace DataHolder

namespace Table

variable {α : Type}

/-- Store entries one after the other, each where the name is absent. -/
def offerAll (t : Table α) (es : List (String × α)) : Table α :=
  es.foldl (fun t e => if t.contains e.1 then t else t.insert e.1 e.2) t

theorem offerAll_cons (t : Table α) (e : String × α) (es : List (String × α)) :
    t.offerAll (e :: es) = (if t.contains e.1 then t else t.insert e.1 e.2).offerAll es := rfl

/-- Look-up finds what was there, or else the first entry that was offered. -/
theorem get?_offerAll (t : Table α) (es : List (String × α)) (key : String) :
    (t.offerAll es).get? key = (t.get? key).or (lookup key es) := by
  induction es generalizing t with
  | nil => exact Option.or_none.symm
  | cons e es ih =>
    obtain ⟨k, a⟩ := e
    rw [offerAll_cons, ih]
    dsimp only
    by_cases hc : t.contains k = true
    · rw [if_pos hc]
      by_cases hk : k = key
      · subst hk
        obtain ⟨b, hb⟩ := Option.isSome_iff_exists.mp hc
        rw [hb, Option.some_or, Option.some_or]
      · rw [lookup, if_neg hk]
    · rw [if_neg hc, get?_insert]
      by_cases hk : k = key
      · subst hk
        have hnone : t.get? k = none := by simpa [contains] using hc
        rw [if_pos rfl, hnone, lookup, if_pos rfl, Option.some_or, Option.none_or]
      · rw [if_neg hk, lookup, if_neg hk]

/-- The names that are offered and absent come to the end, in the order of their first offers. -/
theorem keys_offerAll (t : Table α) (es : List (String × α)) :
    (t.offerAll es).keys =
      t.keys ++ ((es.map Prod.fst).filter fun key => key ∉ t.keys).eraseDups := by
  -- Offering and storing differ in the values alone.
  have hsame : ∀ t u : Table α, t.keys = u.keys → (t.offerAll es).keys = (u.insertAll es).keys := by
    induction es with
    | nil => exact fun t u h => h
    | cons e es ih =>
      intro t u h
      rw [offerAll_cons, insertAll_cons]
      apply ih
      by_cases hmem : e.1 ∈ t.keys
      · rw [if_pos ((t.contains_iff e.1).mpr hmem), keys_insert, ← h, if_pos hmem]
      · rw [if_neg fun hc => hmem ((t.contains_iff e.1).mp hc), keys_insert, keys_insert, h]
  rw [hsame t t rfl, keys_insertAll]

/-- Which names there are does not depend on the values that are offered. -/
theorem keys_offerAll_congr {t u : Table α} {es fs : List (String × α)} (keys : t.keys = u.keys)
    (names : es.map Prod.fst = fs.map Prod.fst) : (t.offerAll es).keys = (u.offerAll fs).keys := by
  rw [keys_offerAll, keys_offerAll, keys, names]

/-- Offers under names that are present change nothing. -/
theorem offerAll_of_present (t : Table α) (es : List (String × α))
    (h : ∀ key ∈ es.map Prod.fst, key ∈ t.keys) : t.offerAll es = t := by
  induction es with
  | nil => rfl
  | cons e es ih =>
    have he : t.contains e.1 = true := (t.contains_iff e.1).mpr (h e.1 List.mem_cons_self)
    rw [offerAll_cons, if_pos he]
    exact ih fun key hk => h key (List.mem_cons_of_mem _ hk)

end Table

/-- The entry that binding offers for a statement. -/
def Statement.offer? (owner : String) : Statement → Option (String × Member)
  | .assign { target, declaredTy := some ty, position, .. } =>
    if target.binding.isSome then none
    else some (target.name, { symbol := .var (.declared owner target.name ty position) })
  | .method m => some (m.name, { symbol := .method m })
  | _ => none

namespace ClassDecl

/-- The entries that binding offers for a body. -/
def offers (owner : String) (body : List Statement) : List (String × Member) :=
  body.filterMap (Statement.offer? owner)

private theorem foldl_declare (owner : String) (body : List Statement) (t : Table Member) :
    body.foldl (fun t s => s.declare owner t) t = t.offerAll (offers owner body) := by
  induction body generalizing t with
  | nil => rfl
  | cons s body ih =>
    rw [List.foldl_cons, ih]
    unfold offers
    cases s with
    | method m => rfl
    | pass => rfl
    | assign a =>
      obtain ⟨target, declaredTy, value, position⟩ := a
      cases declaredTy with
      | none => rfl
      | some ty =>
        cases hb : target.binding.isSome with
        | true => simp [Statement.declare, Statement.offer?, hb]
        | false =>
          simp only [Statement.declare, Statement.offer?, hb, Bool.false_or, List.filterMap_cons,
            Bool.false_eq_true, if_false]
          rfl

/-- Binding stores what it offers and marks the declarations as bound. -/
theorem bind_eq (c : ClassDecl) :
    c.bind =
      { c with
        members := c.members.offerAll (offers c.fullname c.body)
        body := c.body.map (Statement.bound c.fullname) } := by
  rw [bind, foldl_declare]

end ClassDecl

/-- A variable that is not shared is declared with its annotation as the type. -/
theorem declared_plain {owner name : String} {t : Ty} {position : Position}
    (shared : (Variable.declared owner name (.resolved t) position).isClassVar = false) :
    Variable.declared owner name (.resolved t) position =
      { name, fullname := qualify owner name, ty := .resolved t, position } := by
  rw [Variable.declared] at shared ⊢
  dsimp only at shared ⊢
  split at shared
  · cases shared
  · next h => rw [if_neg h]

namespace Synthesis

/-- A declaration with its target bound. -/
def boundTarget (owner : String) (a : Assignment) : Assignment :=
  if a.target.binding.isSome then a
  else { a with target := { a.target with binding := some (qualify owner a.target.name) } }

theorem name_boundTarget (owner : String) (a : Assignment) :
    (boundTarget owner a).target.name = a.target.name := by
  rw [boundTarget]
  split <;> rfl

theorem declaredTy_boundTarget (owner : String) (a : Assignment) :
    (boundTarget owner a).declaredTy = a.declaredTy := by
  rw [boundTarget]
  split <;> rfl

theorem isSome_binding_boundTarget (owner : String) (a : Assignment) :
    (boundTarget owner a).target.binding.isSome = true := by
  rw [boundTarget]
  split
  · next h => exact h
  · rfl

/-- Binding leaves every statement but the unbound declarations as it is. -/
theorem bound_eq (owner : String) (s : Statement) :
    s.bound owner =
      match declaration? s with
      | some a => .assign (boundTarget owner a)
      | none => s := by
  cases s with
  | method m => rfl
  | pass => rfl
  | assign a =>
    by_cases hd : a.isDeclaration = true
    · cases hb : a.target.binding with
      | none => simp [Statement.bound, declaration?, boundTarget, hd, hb]
      | some b => simp [Statement.bound, declaration?, boundTarget, hd, hb]
    · simp [Statement.bound, declaration?, hd]

theorem declaration?_bound (owner : String) (s : Statement) :
    declaration? (s.bound owner) = (declaration? s).map (boundTarget owner) := by
  rw [bound_eq]
  cases hs : declaration? s with
  | none => exact hs
  | some a =>
    have hd : a.isDeclaration = true := by
      unfold declaration? at hs
      split at hs
      · split at hs
        · next h => exact Option.some.inj hs ▸ h
        · cases hs
      · cases hs
    have hd' : (boundTarget owner a).isDeclaration = true := by
      rw [Assignment.isDeclaration, declaredTy_boundTarget]
      exact hd
    simp only [declaration?, hd', if_true, Option.map_some]

/-- The declarations of a bound body are those of the body, bound. -/
theorem declarations_bound (owner : String) (body : List Statement) :
    declarations (body.map (Statement.bound owner)) =
      (declarations body).map (boundTarget owner) := by
  rw [declarations, declarations, List.filterMap_map, List.map_filterMap]
  congr 1
  funext s
  exact declaration?_bound owner s

theorem declarations_bind (c : ClassDecl) :
    declarations c.bind.body = (declarations c.body).map (boundTarget c.fullname) :=
  declarations_bound c.fullname c.body

/-- Binding keeps the names of the declarations. -/
theorem names_bind (c : ClassDecl) :
    (declarations c.bind.body).map (fun a => a.target.name) =
      (declarations c.body).map fun a => a.target.name := by
  rw [declarations_bind, List.map_map]
  exact List.map_congr_left fun a _ => name_boundTarget _ a

/-- Binding a second time changes no statement. -/
theorem bound_bound (owner : String) (s : Statement) :
    (s.bound owner).bound owner = s.bound owner := by
  rw [bound_eq owner (s.bound owner), declaration?_bound, bound_eq owner s]
  cases declaration? s with
  | none => rfl
  | some a =>
    rw [Option.map_some]
    dsimp only
    rw [boundTarget, if_pos (isSome_binding_boundTarget owner a)]

/-! ## What an unbound body declares -/

/-- No declaration of a body is bound. -/
def Unbound (body : List Statement) : Prop :=
  ∀ a ∈ declarations body, a.target.binding = none

theorem Unbound.cons {s : Statement} {body : List Statement} (h : Unbound (s :: body)) :
    Unbound body := by
  intro a ha
  apply h a
  rw [declarations, List.filterMap_cons]
  split
  · exact ha
  · exact List.mem_cons_of_mem _ ha

/-- What an unbound statement offers: the variable that it declares, or its method. -/
theorem offer?_of_unbound (owner : String) {s : Statement} {body : List Statement}
    (h : Unbound (s :: body)) :
    (∃ a ty, declaration? s = some a ∧ a.declaredTy = some ty ∧
        s.offer? owner = some (a.target.name,
          { symbol := .var (.declared owner a.target.name ty a.position) })) ∨
      declaration? s = none ∧ (s.offer? owner = none ∨
        ∃ m, s = .method m ∧ s.offer? owner = some (m.name, { symbol := .method m })) := by
  cases s with
  | method m => exact .inr ⟨rfl, .inr ⟨m, rfl, rfl⟩⟩
  | pass => exact .inr ⟨rfl, .inl rfl⟩
  | assign a =>
    obtain ⟨target, declaredTy, value, position⟩ := a
    cases declaredTy with
    | none => exact .inr ⟨rfl, .inl rfl⟩
    | some ty =>
      have hb : target.binding = none := h _ List.mem_cons_self
      refine .inl ⟨_, ty, rfl, rfl, ?_⟩
      rw [Statement.offer?, hb]
      rfl

/-- Of an unbound body, every declaration offers an entry. -/
theorem mem_offers_of_mem (owner : String) {body : List Statement} (h : Unbound body)
    {a : Assignment} (ha : a ∈ declarations body) :
    a.target.name ∈ (ClassDecl.offers owner body).map Prod.fst := by
  induction body with
  | nil => cases ha
  | cons s body ih =>
    rw [declarations, List.filterMap_cons] at ha
    rw [ClassDecl.offers, List.filterMap_cons]
    rcases offer?_of_unbound owner h with ⟨b, ty, hb, -, hoffer⟩ | ⟨hnone, -⟩
    · rw [hb] at ha
      rw [hoffer]
      rcases List.mem_cons.mp ha with rfl | ha
      · exact List.mem_cons_self
      · exact List.mem_cons_of_mem _ (ih h.cons ha)
    · rw [hnone] at ha
      cases s.offer? owner with
      | none => exact ih h.cons ha
      | some e => exact List.mem_cons_of_mem _ (ih h.cons ha)

/-- The first declaration of a variable that binding creates is the one that it follows from. -/
theorem find?_of_lookup_offers (owner : String) {body : List Statement} (h : Unbound body)
    {name : String} {x : Variable} {generated : Bool}
    (hx : Table.lookup name (ClassDecl.offers owner body) =
      some { symbol := .var x, generated }) :
    generated = false ∧ ∃ a ty,
      (declarations body).find? (fun a => a.target.name == name) = some a ∧
        a.declaredTy = some ty ∧ x = .declared owner name ty a.position := by
  induction body with
  | nil => cases hx
  | cons s body ih =>
    rw [ClassDecl.offers, List.filterMap_cons] at hx
    rw [declarations, List.filterMap_cons]
    rcases offer?_of_unbound owner h with
      ⟨a, ty, ha, hty, hoffer⟩ | ⟨hnone, hnone' | ⟨m, -, hoffer⟩⟩
    · rw [hoffer, Table.lookup] at hx
      rw [ha]
      dsimp only at hx ⊢
      by_cases hname : a.target.name = name
      · subst hname
        rw [if_pos rfl, Option.some.injEq] at hx
        cases hx
        refine ⟨rfl, a, ty, ?_, hty, rfl⟩
        exact List.find?_cons_of_pos (by simp)
      · rw [if_neg hname] at hx
        rw [List.find?_cons_of_neg (by simpa using hname)]
        exact ih h.cons hx
    · rw [hnone'] at hx
      rw [hnone]
      exact ih h.cons hx
    · rw [hoffer, Table.lookup] at hx
      rw [hnone]
      dsimp only at hx ⊢
      split at hx
      · cases hx
      · exact ih h.cons hx

/-- Binding offers variables and methods that the user has written. -/
theorem offers_written (owner : String) (body : List Statement) {e : String × Member}
    (h : e ∈ ClassDecl.offers owner body) :
    e.2.generated = false ∧ (e.2.symbol.isVar = true ∨ ∃ m, e.2.symbol = .method m) := by
  obtain ⟨s, -, hs⟩ := List.mem_filterMap.mp h
  cases s with
  | method m =>
    cases hs
    exact ⟨rfl, .inr ⟨m, rfl⟩⟩
  | pass => cases hs
  | assign a =>
    obtain ⟨target, declaredTy, value, position⟩ := a
    cases declaredTy with
    | none => cases hs
    | some ty =>
      rw [Statement.offer?] at hs
      split at hs
      · cases hs
      · cases hs
        exact ⟨rfl, .inl rfl⟩

/-- A bound body offers its methods alone. -/
theorem offer?_bound (owner : String) (s : Statement) :
    (s.bound owner).offer? owner =
      match s with
      | .method m => some (m.name, { symbol := .method m })
      | _ => none := by
  cases s with
  | method m => rfl
  | pass => rfl
  | assign a =>
    rw [bound_eq]
    cases hd : declaration? (.assign a) with
    | none =>
      obtain ⟨target, declaredTy, value, position⟩ := a
      cases declaredTy with
      | none => rfl
      | some ty => cases hd
    | some b =>
      have hb := isSome_binding_boundTarget owner b
      dsimp only
      generalize boundTarget owner b = b' at hb
      obtain ⟨target, declaredTy, value, position⟩ := b'
      cases declaredTy with
      | none => rfl
      | some ty => rw [Statement.offer?, if_pos hb]

end Synthesis

end DataHolder
