import DataHolder.Proofs.Completion
import DataHolder.Proofs.Reading
import Mathlib.Logic.Relation

/-!
# Runs that halt

A run that is put off or fails leaves no report, no other class changed, and its own class as it
was, but for constructor-only wrappers that reading has taken off the types of its variables. A
run is taken apart here into steps that each look the class up again and may fail there:
`stepwise_eq` says that they make up the run, and `rebuild_eq` that none of them fails once the
generated members begin to go.
-/

namespace DataHolder

namespace Synthesis

variable (v : Vocabulary)

/-! ## What reading takes away -/

/-- What is left of a type when constructor-only wrappers are taken off it, at least one. -/
def Peels : Ty → Ty → Prop :=
  Relation.TransGen fun t u => v.isInitOnly t = true ∧ u = t.content

/-- A class as it was, but for variables under the names of its declarations, whose types may have
lost constructor-only wrappers. -/
structure Peeled (c d : ClassDecl) : Prop where
  shape : d = { c with members := d.members }
  keys : d.members.keys = c.members.keys
  members : ∀ name, d.members.get? name = c.members.get? name ∨
    ∃ a ∈ declarations c.body, a.target.name = name ∧ ∃ x t u generated,
      c.members.get? name = some { symbol := .var x, generated } ∧ x.ty = .resolved t ∧
        Peels v t u ∧
        d.members.get? name = some { symbol := .var { x with ty := .resolved u }, generated }

/-- Unwrapping a variable takes one wrapper off its type, or nothing. -/
private theorem unwrap_cases (x : Variable) :
    x.unwrap v = x ∨ ∃ t, x.ty = .resolved t ∧ v.isInitOnly t = true ∧
      x.unwrap v = { x with ty := .resolved t.content } := by
  cases hw : x.isInitOnly v with
  | false => exact .inl (unwrap_of_not_initOnly v hw)
  | true =>
    cases hty : x.ty with
    | pending => simp [Variable.isInitOnly, hty, Binding.ty?] at hw
    | resolved t =>
      have ht : v.isInitOnly t = true := by simpa [Variable.isInitOnly, hty, Binding.ty?] using hw
      exact .inr ⟨t, rfl, ht, by simp [Variable.unwrap, hty, ht]⟩

/-- Reading takes wrappers off the variables of declarations, and changes nothing else. -/
private theorem peels_scan (as : List Assignment) (t : Table Member) (name : String) :
    (scan v as t).1.get? name = t.get? name ∨
      ∃ a ∈ as, a.target.name = name ∧ ∃ x ty u generated,
        t.get? name = some { symbol := .var x, generated } ∧ x.ty = .resolved ty ∧ Peels v ty u ∧
          (scan v as t).1.get? name =
            some { symbol := .var { x with ty := .resolved u }, generated } := by
  induction as generalizing t with
  | nil => exact .inl rfl
  | cons a rest ih =>
    rw [scan]
    cases hv : visit (t.get? a.target.name) with
    | skip =>
      rcases ih t with h | ⟨b, hb, h⟩
      · exact .inl h
      · exact .inr ⟨b, List.mem_cons_of_mem _ hb, h⟩
    | stop => exact .inl rfl
    | field x generated =>
      have hget := (visit_eq_field hv).1
      have hrest := ih (t.insert a.target.name { symbol := .var (x.unwrap v), generated })
      rw [Table.get?_insert] at hrest
      by_cases hname : a.target.name = name
      · subst hname
        rw [if_pos rfl] at hrest
        rcases unwrap_cases v x with hx | ⟨ty, hty, hwrapped, hx⟩
        · rcases hrest with h | ⟨b, hb, hbname, y, ty', u, g, hy, hrest⟩
          · exact .inl (h.trans (by rw [hx, hget]))
          · rw [hx] at hy
            exact .inr ⟨b, List.mem_cons_of_mem _ hb, hbname, y, ty', u, g, hget.trans hy, hrest⟩
        · -- A further declaration of the name may take off the next wrapper.
          have hfirst : Peels v ty ty.content := .single ⟨hwrapped, rfl⟩
          refine .inr ⟨a, List.mem_cons_self, rfl, x, ty, ?_⟩
          rcases hrest with h | ⟨-, -, -, y, ty', u, g, hy, hty', hpeels, h⟩
          · exact ⟨ty.content, generated, hget, hty, hfirst, h.trans (by rw [hx])⟩
          · rw [hx] at hy
            cases hy
            cases hty'
            exact ⟨u, generated, hget, hty, hfirst.trans hpeels, h⟩
      · rw [if_neg hname] at hrest
        rcases hrest with h | ⟨b, hb, h⟩
        · exact .inl h
        · exact .inr ⟨b, List.mem_cons_of_mem _ hb, h⟩

/-- A class that was read is the class with some of its variables unwrapped. -/
theorem peeled_readClass (c : ClassDecl) : Peeled v c (readClass v c) := by
  rw [readClass, readBody_eq_scan]
  exact ⟨rfl, keys_scan v _ _, peels_scan v _ _⟩

/-! ## Step by step -/

/-- A step of a run. It may halt, and it leaves a registry either way. -/
abbrev Step (α : Type) := ExceptT Halt (StateM Registry) α

/-- What a step answers in a registry, and the registry that it leaves. -/
def attempt {α : Type} (step : Step α) (r : Registry) : Except Halt α × Registry :=
  step.run.run r

/-- Look up the class with a number, which may not be there. -/
def fetch (id : ClassId) : Step ClassDecl := do
  match (← get).get? id with
  | some c => return c
  | none => throw (.failed (.unknownClass id))

/-- Look up the class with a number, and change it. -/
def update (id : ClassId) (f : ClassDecl → ClassDecl) : Step Unit := do
  let c ← fetch id
  modify fun r => r.set id (f c)

/-- Clear what earlier runs have generated for a class, and build it again from these fields. -/
def rebuild (id : ClassId) (m : Collection) : Step (Synthesis × Log) := do
  update id ClassDecl.clearGenerated
  let cleared ← fetch id
  let decorator := v.decorator? cleared
  let flags := Flags.ofDecorator decorator
  let added :=
    additions v flags (initParameters (← get) id m.fields) (!m.plain.isEmpty) cleared
  added.forM fun a => update id fun c => (Draft.add { decl := c } a).decl
  let r ← get
  update id fun c =>
    c.applyReadOnly (fun name => (fieldTy? r id name).getD .any) flags.frozen m.plain
  update id fun c =>
    (c.dropInitOnly m.plain).withRecord v.recordKey (Record.ofFields m.plain flags.frozen)
  return ({ fields := m.plain, flags, generated := added.map Prod.fst
            dependencies := m.dependencies },
    orderLog m.plain ++ Flags.misuses decorator cleared.position ++ orderReports v flags cleared)

/-- A run in steps: read the class, collect its fields, and rebuild it. -/
def stepwise (id : ClassId) : Step (Synthesis × Log) := do
  let c ← fetch id
  update id (readClass v)
  let m ← collect v (← get) id c.mro (readBody v c.body c.members).2
  rebuild v id m

section Steps

variable {α β : Type} {r : Registry} {id : ClassId} {c : ClassDecl}

theorem attempt_bind (step : Step α) (next : α → Step β) (r : Registry) :
    attempt (step >>= next) r =
      match attempt step r with
      | (.ok a, r') => attempt (next a) r'
      | (.error halt, r') => (.error halt, r') := by
  rw [attempt, ExceptT.run_bind, StateT.run_bind]
  rcases h : attempt step r with ⟨halt | a, r'⟩ <;> rw [attempt] at h <;> rw [h] <;> rfl

theorem attempt_get (r : Registry) : attempt get r = (.ok r, r) := rfl

theorem attempt_pure (a : α) (r : Registry) : attempt (pure a) r = (.ok a, r) := rfl

/-- Looking a class up changes nothing, and halts only where the class is not there. -/
theorem attempt_fetch_eq (r : Registry) (id : ClassId) :
    attempt (fetch id) r =
      (match r.get? id with
      | some c => .ok c
      | none => .error (.failed (.unknownClass id)), r) := by
  rw [fetch, attempt_bind, attempt_get]
  dsimp only
  cases r.get? id <;> rfl

theorem attempt_fetch (registered : r.get? id = some c) : attempt (fetch id) r = (.ok c, r) := by
  rw [attempt_fetch_eq, registered]

theorem attempt_update (registered : r.get? id = some c) (f : ClassDecl → ClassDecl) :
    attempt (update id f) r = (.ok (), r.set id (f c)) := by
  rw [update, attempt_bind, attempt_fetch registered]
  rfl

/-- Changes that are made one after the other, each to the class as it is found then. -/
theorem attempt_forM_update (registered : r.get? id = some c) (f : α → ClassDecl → ClassDecl)
    (as : List α) :
    attempt (as.forM fun a => update id (f a)) r =
      (.ok (), r.set id (as.foldl (fun c a => f a c) c)) := by
  induction as generalizing r c with
  | nil =>
    have hsame : r.set id c = r := by
      apply Registry.ext_get?
      intro other
      rw [Registry.get?_set registered]
      split
      · next he => rw [← he, registered]
      · rfl
    rw [List.foldl_nil, hsame]
    rfl
  | cons a as ih =>
    have hset : (r.set id (f a c)).get? id = some (f a c) := by
      rw [Registry.get?_set registered, if_pos rfl]
    show attempt (update id (f a) >>= fun _ => as.forM fun a => update id (f a)) r = _
    rw [attempt_bind, attempt_update registered]
    dsimp only
    rw [ih hset, Registry.set_set, List.foldl_cons]

/-- Once clearing begins no step halts, and the steps make up the rest of the run. -/
theorem rebuild_eq (registered : r.get? id = some c) (m : Collection) :
    attempt (rebuild v id m) r =
      ((complete v r id c m).result.map fun s => (s, (complete v r id c m).log),
        (complete v r id c m).registry) := by
  have hset : ∀ d, (r.set id d).get? id = some d := by
    intro d
    rw [Registry.get?_set registered, if_pos rfl]
  have hdecl : ∀ (as : List (String × Symbol)) (d : Draft),
      as.foldl (fun c a => (Draft.add { decl := c } a).decl) d.decl = (d.addAll as).decl := by
    intro as
    induction as with
    | nil => exact fun _ => rfl
    | cons a as ih => exact fun d => ih (d.add a)
  rw [rebuild]
  simp only [attempt_bind, attempt_update registered, attempt_fetch (hset _), attempt_get,
    attempt_forM_update (hset _), attempt_update (hset _), Registry.set_set, attempt_pure,
    hdecl _ { decl := c.clearGenerated }]
  rw [complete]
  simp only [generate_eq, Draft.addAll_eq, List.nil_append]
  rfl

/-- A run that halts reports nothing. -/
theorem log_of_halt {halt : Halt} (h : (run v r id).result = .error halt) :
    (run v r id).log = [] := by
  cases registered : r.get? id with
  | none => simp only [run, registered]
  | some c =>
    rw [run_of_get? v registered] at h ⊢
    split at h
    · rfl
    · cases h

/-- The steps answer what the run answers, and leave the registry that it leaves. -/
theorem stepwise_eq (r : Registry) (id : ClassId) :
    attempt (stepwise v id) r =
      ((run v r id).result.map fun s => (s, (run v r id).log), (run v r id).registry) := by
  cases registered : r.get? id with
  | none =>
    have hrun : run v r id =
        { registry := r, result := .error (.failed (.unknownClass id)) } := by
      simp only [run, registered]
    rw [stepwise, attempt_bind, attempt_fetch_eq, registered, hrun]
    rfl
  | some c =>
    have hset : (r.set id (readClass v c)).get? id = some (readClass v c) := by
      rw [Registry.get?_set registered, if_pos rfl]
    rw [stepwise, run_of_get? v registered]
    simp only [attempt_bind, attempt_update registered, attempt_fetch registered, attempt_get]
    cases collect v (r.set id (readClass v c)) id c.mro (readBody v c.body c.members).2 with
    | error halt => rfl
    | ok m =>
      show attempt (rebuild v id m) (r.set id (readClass v c)) = _
      rw [rebuild_eq v hset]

end Steps

/-! ## What a halt leaves -/

/-- A run that is put off or fails is atomic. It reports nothing, changes no other class, and takes
from its own class no more than constructor-only wrappers off the types of declared variables. Once
generated members begin to go, nothing halts any more. -/
theorem halted_run_atomic (r : Registry) (id : ClassId) :
    (∀ halt, (run v r id).result = .error halt →
      (∀ reports : Log, reports ++ (run v r id).log = reports) ∧
        (∀ other, other ≠ id → (run v r id).registry.get? other = r.get? other) ∧
        (r.get? id = none → (run v r id).registry = r) ∧
        ∀ c, r.get? id = some c →
          ∃ d, (run v r id).registry.get? id = some d ∧ Peeled v c d) ∧
      attempt (stepwise v id) r =
        ((run v r id).result.map fun s => (s, (run v r id).log), (run v r id).registry) ∧
      ∀ (q : Registry) (m : Collection), (q.get? id).isSome = true →
        ∃ answer, (attempt (rebuild v id m) q).1 = .ok answer := by
  refine ⟨fun halt h => ?_, stepwise_eq v r id, fun q m registered => ?_⟩
  · cases registered : r.get? id with
    | none =>
      have hrun : run v r id =
          { registry := r, result := .error (.failed (.unknownClass id)) } := by
        simp only [run, registered]
      rw [hrun]
      refine ⟨fun reports => List.append_nil reports, fun _ _ => rfl, fun _ => rfl, ?_⟩
      rintro _ ⟨⟩
    | some c =>
      have hlog : (run v r id).log = [] := log_of_halt v h
      have hregistry := registry_of_halt v registered h
      refine ⟨fun reports => by rw [hlog, List.append_nil], ?_, ?_, ?_⟩
      · intro other hother
        rw [hregistry, Registry.get?_set_ne r _ (Ne.symm hother)]
      · rintro ⟨⟩
      · rintro _ ⟨⟩
        refine ⟨readClass v c, ?_, peeled_readClass v c⟩
        rw [hregistry, Registry.get?_set registered, if_pos rfl]
  · obtain ⟨c, hc⟩ := Option.isSome_iff_exists.mp registered
    rw [rebuild_eq v hc]
    exact ⟨_, rfl⟩

/-- A class in a registry of its own: `x` is wrapped as constructor-only, and `later` has no type
yet. -/
private def halting : Registry :=
  ⟨[{ name := "C", fullname := "C", mro := [0]
      body := [
        .assign { target := { name := "x" }, declaredTy := some .pending },
        .assign { target := { name := "later" }, declaredTy := some .pending }]
      members := Table.ofList [
        ("x", { symbol := .var { name := "x", fullname := "C.x"
                                 ty := .resolved (.inst "dataclasses.InitVar" [.any]) } }),
        ("later",
          { symbol := .var { name := "later", fullname := "C.later", ty := .pending } })] }]⟩

theorem halted_run_atomic_pending :
    (run {} halting 0).result = .error (.deferred (.pendingType "later")) ∧
      (((run {} halting 0).registry.get? 0).bind fun d => d.members.get? "x") =
        some { symbol := .var { name := "x", fullname := "C.x", ty := .resolved .any } } ∧
      ∃ d, (run {} halting 0).registry.get? 0 = some d ∧ Peeled {} halting.classes[0] d := by
  have deferred : (run {} halting 0).result = .error (.deferred (.pendingType "later")) := by rfl
  have halted := (halted_run_atomic {} halting 0).1 _ deferred
  exact ⟨deferred, by decide, halted.2.2.2 _ rfl⟩

end Synthesis

end DataHolder
