import DataHolder.Proofs.Finishing

/-!
# Rounds of a class

A round binds a class and runs it. Rounds follow each other while the decorators of the class and
the other classes change around it. Where the type variable replaces no declaration that stays,
`settled_after` says that the class is settled after any of them, and so a round that completes
does exactly what it would have done with the class as it was at first.
-/

namespace DataHolder

namespace Synthesis

/-- What a class finds when it is run: its decorators, and the registry with the other classes. -/
structure Surroundings where
  decorators : List Expr
  registry : Registry

variable (v : Vocabulary) (id : ClassId)

/-- The class with its decorators, bound. -/
def enter (env : Surroundings) (c : ClassDecl) : ClassDecl :=
  ClassDecl.bind { c with decorators := env.decorators }

/-- Bind a class in its surroundings, and run it. -/
def round (env : Surroundings) (c : ClassDecl) : Run :=
  run v (env.registry.set id (enter env c)) id

/-- The class as a round leaves it. -/
def next (env : Surroundings) (c : ClassDecl) : ClassDecl :=
  ((round v id env c).registry.get? id).getD c

/-- The class after rounds in these surroundings. -/
def after (history : List Surroundings) (c : ClassDecl) : ClassDecl :=
  history.foldl (fun c env => next v id env c) c

/-- Surroundings that a class may find: it is registered, its ancestors do not descend from it,
and no inherited field that it does not declare itself has the name of another member of its
own, or of one that is generated. -/
structure Admissible (c : ClassDecl) (env : Surroundings) : Prop where
  registered : id < env.registry.size
  unseen : Unseen env.registry id (interior c.mro)
  inherited : ∀ a ∈ recorded v env.registry (interior c.mro), ∀ f ∈ a.2.fields,
    f.name ∉ (ownFields v c).map Field.name →
      f.name ∉ c.bind.members.keys ∧ f.name ∉ reservedNames v

/-- The last of any sequence of runs, where it completes, is the one run of the fresh class. -/
def HistoryIndependent (c : ClassDecl) : Prop :=
  ∀ (history : List Surroundings) (last : Surroundings),
    (∀ env ∈ history, Admissible v id c env) → Admissible v id c last →
      ∀ s, (round v id last (after v id history c)).result = .ok s →
        round v id last (after v id history c) = round v id last c

section Rounds

variable {v} {id} {tail : List ClassId} {c d : ClassDecl}

private theorem Fresh.decorated (fresh : Fresh v id tail c) (ds : List Expr) :
    Fresh v id tail { c with decorators := ds } :=
  ⟨fresh.members, fresh.unbound, fresh.resolved, fresh.mro, fresh.apart⟩

/-- An inherited field that the class does not declare itself is visible in no settled table. -/
private theorem sameView_of_settled (fresh : Fresh v id tail c)
    (h : Settled v (goneNames v c) c.bind d.bind) {env : Surroundings}
    (admissible : Admissible v id c env) {m : Collection}
    (hm : gather v env.registry (id :: tail) (.ok (ownFields v c)) = .ok m) {f : Field}
    (hf : f ∈ m.plain) :
    SameView (readClass v (enter env d)) (readClass v (enter env c)) f.name := by
  have g : Grounded v (enter env c) := grounded_bind v (fresh.decorated env.decorators)
  have hs : Settled v (goneNames v c) (enter env c) (enter env d) :=
    h.decorated env.decorators env.decorators
  have hresumes := hs.resumes g rfl
  cases h₀ : (readClass v (enter env c)).members.get? f.name with
  | some m₀ =>
    obtain ⟨-, m', hm', he, -⟩ := hresumes.written f.name m₀ h₀
    apply sameView_of_unmarked
    rw [h₀, hm', Option.map_some, Option.map_some, he]
  | none =>
    have hkeys : (readClass v (enter env c)).members.keys = c.bind.members.keys :=
      keys_readClass v (enter env c)
    have hundeclared : f.name ∉ c.bind.members.keys := by
      rw [← hkeys]
      exact (Table.get?_eq_none_iff _ _).mp h₀
    have hnone : (enter env c).members.get? f.name = none :=
      (Table.get?_eq_none_iff _ _).mpr hundeclared
    have hreserved : f.name ∉ reservedNames v := by
      rcases (mem_plain_of_gather hm).2 f hf with hown | ⟨hnot, a, ha, hfa⟩
      · exact absurd (mem_keys_of_mem_ownFields fresh hown) hundeclared
      · rw [← fresh.mro] at ha
        exact (admissible.inherited a ha f hfa hnot).2
    rw [SameView, h₀]
    cases hm' : (readClass v (enter env d)).members.get? f.name with
    | none => rfl
    | some m' =>
      have hleft := (hs.read g).leftover f.name m' hm' hnone
      have hvar : m'.symbol.isVar = true := hleft.origin.resolve_right hreserved
      have hcopy : m'.isCopy = true := by rw [Member.isCopy, hleft.generated, hvar]; rfl
      rw [visible, Option.bind_some, if_pos hcopy]
      rfl

/-- What a round does with a settled class: it collects and completes as with the fresh one, and
only where it halts it leaves what it has found. -/
theorem round_eq (fresh : Fresh v id tail c) (h : Settled v (goneNames v c) c.bind d.bind)
    {env : Surroundings} (admissible : Admissible v id c env) :
    round v id env d =
      match collect v (env.registry.set id (readClass v (enter env c))) id (id :: tail)
        (.ok (ownFields v c)) with
      | .error halt =>
        { registry := env.registry.set id (readClass v (enter env d)), result := .error halt }
      | .ok m => complete v (env.registry.set id (readClass v (enter env c))) id
          (readClass v (enter env c)) m := by
  have g : Grounded v (enter env c) := grounded_bind v (fresh.decorated env.decorators)
  have hs : Settled v (goneNames v c) (enter env c) (enter env d) :=
    h.decorated env.decorators env.decorators
  have hread : (readBody v (enter env d).body (enter env d).members).2 = .ok (ownFields v c) := by
    rw [(hs.readBody_eq g).1, ownFields_eq fresh]
    rfl
  have hmro : (readClass v (enter env c)).mro = id :: tail := fresh.mro
  have hmro' : (enter env d).mro = id :: tail := by
    rw [hs.shape]
    exact hmro
  have hmroRead : (readClass v (enter env d)).mro = id :: tail := hmro'
  have hunseen : Unseen env.registry id (interior (id :: tail)) := fresh.mro ▸ admissible.unseen
  have hget : (env.registry.set id (enter env d)).get? id = some (enter env d) :=
    Registry.get?_set_self _ _ _ admissible.registered
  have hsame : ∀ m, gather v env.registry (id :: tail) (.ok (ownFields v c)) = .ok m →
      ∀ f ∈ m.plain, SameView (readClass v (enter env d)) (readClass v (enter env c)) f.name :=
    fun m hm f hf => sameView_of_settled fresh h admissible hm hf
  have hcollect := collect_set_eq v admissible.registered hmroRead hmro fresh.apart hunseen
    (.ok (ownFields v c)) hsame
  rw [round, run_of_get? v hget, hread, hmro', Registry.set_set, hcollect]
  cases hm : collect v (env.registry.set id (readClass v (enter env c))) id (id :: tail)
      (.ok (ownFields v c)) with
  | error halt => rfl
  | ok m =>
    have hown := (mem_plain_of_gather (gather_of_collect hm)).1
    refine (hs.resumes g rfl).complete_same v admissible.registered hmro fresh.apart ?_ ?_
    · rw [show boundFields v (enter env c) = ownFields v c from (ownFields_eq fresh).symm]
      exact List.map_subset _ hown
    · exact goneNames_subset v hown

/-- A round leaves the class in the registry. -/
theorem get?_round (d : ClassDecl) {env : Surroundings} (registered : id < env.registry.size) :
    (round v id env d).registry.get? id = some (next v id env d) := by
  have hsome : ∃ e, (round v id env d).registry.get? id = some e := by
    have hget := Registry.get?_set_self env.registry id (enter env d) registered
    rw [round, run_of_get? v hget, Registry.set_set]
    split
    · exact ⟨_, Registry.get?_set_self _ _ _ registered⟩
    · rw [complete_eq]
      dsimp only
      refine ⟨_, Registry.get?_set_self _ _ _ ?_⟩
      rw [Registry.size_set]
      exact registered
  obtain ⟨e, he⟩ := hsome
  rw [next, he, Option.getD_some]

/-- What is left by a round is settled when it is bound again. -/
theorem settled_next (fresh : Fresh v id tail c) (clear : TypeVarApart v c)
    (h : Settled v (goneNames v c) c.bind d.bind) {env : Surroundings}
    (admissible : Admissible v id c env) :
    Settled v (goneNames v c) c.bind (next v id env d).bind := by
  have fresh' := fresh.decorated env.decorators
  have g : Grounded v (enter env c) := grounded_bind v fresh'
  have hs : Settled v (goneNames v c) (enter env c) (enter env d) :=
    h.decorated env.decorators env.decorators
  have hunchanged : ∀ e, Settled v (goneNames v c) (enter env c) e →
      Settled v (goneNames v c) c.bind e := by
    intro e he
    exact he.decorated c.decorators e.decorators
  rw [next, round_eq fresh h admissible]
  split
  · next halt hhalt =>
    rw [Registry.get?_set_self _ _ _ admissible.registered, Option.getD_some]
    have hread := hs.read g
    rw [hread.bind_eq_self fresh']
    exact hunchanged _ hread
  · next m hm =>
    have hunseen : Unseen env.registry id (interior (id :: tail)) :=
      fresh.mro ▸ admissible.unseen
    have hgather := gather_of_collect hm
    rw [gather_set v _ hunseen] at hgather
    obtain ⟨hown, hothers⟩ := mem_plain_of_gather hgather
    have hclear : (readClass v (enter env c)).clearGenerated = readClass v (enter env c) :=
      ((Settled.refl v [] (enter env c)).resumes g rfl).clearGenerated_fresh v
    rw [complete_eq, hclear]
    dsimp only
    rw [Registry.get?_set_self _ _ _ (by rw [Registry.size_set]; exact admissible.registered),
      Option.getD_some]
    apply hunchanged
    apply settled_finished fresh' clear _ m hown
    intro f hf
    refine (hothers f hf).imp_right ?_
    rintro ⟨hnot, a, ha, hfa⟩
    exact admissible.inherited a (fresh.mro ▸ ha) f hfa hnot

/-- After any rounds, the class is settled when it is bound again. -/
theorem settled_after (fresh : Fresh v id tail c) (clear : TypeVarApart v c)
    {history : List Surroundings} (admissible : ∀ env ∈ history, Admissible v id c env) :
    Settled v (goneNames v c) c.bind (after v id history c).bind := by
  have hstep : ∀ d, Settled v (goneNames v c) c.bind d.bind →
      Settled v (goneNames v c) c.bind (after v id history d).bind := by
    induction history with
    | nil => exact fun d h => h
    | cons env history ih =>
      intro d h
      have hnext := settled_next fresh clear h (admissible env List.mem_cons_self)
      exact ih (fun e he => admissible e (List.mem_cons_of_mem _ he)) _ hnext
  exact hstep c (Settled.refl v _ _)

/-- Where the type variable replaces no declaration that stays, the history does not matter. -/
theorem historyIndependent_of_apart (fresh : Fresh v id tail c) (clear : TypeVarApart v c) :
    HistoryIndependent v id c := by
  intro history last admissible hlast s hs
  have hafter := settled_after fresh clear admissible
  have hfirst := Settled.refl v (goneNames v c) c.bind
  rw [round_eq fresh hafter hlast] at hs ⊢
  rw [round_eq fresh hfirst hlast]
  split at hs
  · cases hs
  · rfl

end Rounds

end Synthesis

end DataHolder
