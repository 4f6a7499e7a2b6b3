import DataHolder.Proofs.Reading
import DataHolder.Proofs.Stages

/-!
# Runs that are put off

A run that does not complete leaves the table of its class as reading has left it, with
wrapped types taken off. Later the analyzer gives types to variables, resolves forward
references and records fields on ancestors, and the run is tried again. The main statement
says when the first try has left no trace: where every field is constructor-only by its
annotation or not at all, and none is wrapped more often than it is read.
-/

namespace DataHolder

namespace Registry

/-- The registry with one class changed, where it holds that class. -/
def modify (r : Registry) (id : ClassId) (f : ClassDecl → ClassDecl) : Registry :=
  match r.get? id with
  | some c => r.set id (f c)
  | none => r

theorem get?_modify (r : Registry) (id : ClassId) (f : ClassDecl → ClassDecl) (other : ClassId) :
    (r.modify id f).get? other = if id = other then (r.get? other).map f else r.get? other := by
  unfold modify
  cases h : r.get? id with
  | none =>
    by_cases ho : id = other
    · subst ho
      rw [if_pos rfl, h]
      rfl
    · rw [if_neg ho]
  | some c =>
    simp only [get?_set h]
    by_cases ho : id = other
    · subst ho
      rw [if_pos rfl, if_pos rfl, h]
      rfl
    · rw [if_neg ho, if_neg ho]

/-- The member that a class itself has under a name. -/
def member? (r : Registry) (id : ClassId) (name : String) : Option Member :=
  (r.get? id).bind fun c => c.members.get? name

end Registry

/-! ## What the analyzer does between two tries -/

/-- The table with the variable under a name given a type. -/
def Table.retype (t : Table Member) (name : String) (ty : Binding) : Table Member :=
  match (t.get? name).bind fun m => m.retype? ty with
  | some m => t.insert name m
  | none => t

/-- The table with the placeholder under a name replaced. -/
def Table.resolve (t : Table Member) (name : String) (m : Member) : Table Member :=
  if (t.get? name).any (fun old => old.symbol.isPlaceholder) then t.insert name m else t

/-- A change of the kind that a run is waiting for. -/
inductive Update where
  /-- Give a type to a variable of a class. -/
  | retype (id : ClassId) (name : String) (ty : Binding)
  /-- Replace a placeholder of a class. -/
  | resolve (id : ClassId) (name : String) (m : Member)
  /-- Keep a record on a class. -/
  | record (id : ClassId) (key : String) (value : Json)

namespace Update

/-- The registry after a change. -/
def apply (r : Registry) : Update → Registry
  | .retype id name ty => r.modify id fun c => { c with members := c.members.retype name ty }
  | .resolve id name m => r.modify id fun c => { c with members := c.members.resolve name m }
  | .record id key value => r.modify id fun c => { c with records := c.records.insert key value }

/-- A change leaves alone the variables whose types differ in two registries. -/
def Spares (r r' : Registry) : Update → Prop
  | .retype id name _ => r.member? id name = r'.member? id name
  | _ => True

/-- The registry after changes, made one after the other. -/
def applyAll (us : List Update) (r : Registry) : Registry := us.foldl apply r

end Update

namespace Synthesis

section Retry

variable (v : Vocabulary)

private theorem visit_eq_stop_iff (m : Option Member) :
    visit m = .stop ↔ m.any (fun m => m.symbol.isPlaceholder) = true := by
  rcases m with _ | ⟨symbol, generated⟩
  · simp [visit]
  · cases symbol with
    | var x => by_cases h : x.isClassVar <;> simp [visit, h, Symbol.isPlaceholder]
    | method m => simp [visit, Symbol.isPlaceholder]
    | typeVar d => simp [visit, Symbol.isPlaceholder]
    | placeholder => simp [visit, Symbol.isPlaceholder]

private theorem Apart.retype {t u s s' : Table Member} (h : Apart t u s s') {name : String}
    (agree : t.get? name = u.get? name) (ty : Binding) :
    Apart t u (s.retype name ty) (s'.retype name ty) := by
  rw [Table.retype, Table.retype, ← h.same name agree]
  cases hm : (s.get? name).bind fun m => m.retype? ty with
  | none => exact h
  | some m =>
    refine h.insert agree m ?_
    obtain ⟨old, -, hold⟩ := Option.bind_eq_some_iff.mp hm
    obtain ⟨x, -, hx⟩ := Option.map_eq_some_iff.mp hold
    subst hx
    intro hstop
    rw [visit_eq_stop_iff] at hstop
    cases hstop

private theorem Apart.resolve {t u s s' : Table Member} (h : Apart t u s s')
    (goes : ∀ name, t.get? name ≠ u.get? name →
      visit (t.get? name) ≠ .stop ∧ visit (u.get? name) ≠ .stop)
    (name : String) (m : Member) : Apart t u (s.resolve name m) (s'.resolve name m) := by
  rw [Table.resolve, Table.resolve]
  by_cases agree : t.get? name = u.get? name
  · rw [← h.same name agree]
    split
    · next hp => exact h.insert agree m fun _ => h.stops name ((visit_eq_stop_iff _).mpr hp)
    · exact h
  · obtain ⟨hs, hs'⟩ := h.moved name agree
    obtain ⟨ht, hu⟩ := goes name agree
    rw [ne_eq, visit_eq_stop_iff] at ht hu
    rw [hs, hs', if_neg ht, if_neg hu]
    exact h

/-- What reading changes are variables before and after. -/
private theorem goes_of_scan {as : List Assignment} {t : Table Member} {name : String}
    (h : t.get? name ≠ (scan v as t).1.get? name) :
    visit (t.get? name) ≠ .stop ∧ visit ((scan v as t).1.get? name) ≠ .stop := by
  rcases get?_scan v as t name with he | ⟨x, ty, g, hx, -, hu⟩
  · exact absurd he.symm h
  · rw [hu, hx]
    simp [visit_eq_stop_iff, Symbol.isPlaceholder]

/-- Two registries that differ at most in the table of one class, which is apart as `t` and `u`
are. -/
structure ApartAt (id : ClassId) (body : List Statement) (t u : Table Member)
    (q q' : Registry) : Prop where
  others : ∀ other, other ≠ id → q.get? other = q'.get? other
  own : ∃ d s', q.get? id = some d ∧ q'.get? id = some { d with members := s' } ∧
    d.body = body ∧ Apart t u d.members s'

private theorem ApartAt.modify {id : ClassId} {body : List Statement} {t u : Table Member}
    {q q' : Registry} (h : ApartAt id body t u q q') (other : ClassId) (f : ClassDecl → ClassDecl)
    (keeps : ∀ d, (f d).body = d.body)
    (step : other = id → ∀ d s', Apart t u d.members s' →
      ∃ s'', f { d with members := s' } = { f d with members := s'' } ∧
        Apart t u (f d).members s'') :
    ApartAt id body t u (q.modify other f) (q'.modify other f) := by
  obtain ⟨d, s', hd, hd', hbody, hapart⟩ := h.own
  constructor
  · intro k hk
    rw [Registry.get?_modify, Registry.get?_modify, h.others k hk]
  · rw [Registry.get?_modify, Registry.get?_modify, hd, hd']
    by_cases ho : other = id
    · obtain ⟨s'', hs'', hapart'⟩ := step ho d s' hapart
      rw [if_pos ho, if_pos ho, Option.map_some, Option.map_some, hs'']
      exact ⟨f d, s'', rfl, rfl, (keeps d).trans hbody, hapart'⟩
    · rw [if_neg ho, if_neg ho]
      exact ⟨d, s', rfl, rfl, hbody, hapart⟩

/-- A change that spares what a first try has left keeps two registries apart as they were. -/
private theorem ApartAt.apply {id : ClassId} {c : ClassDecl} {r r' q q' : Registry} {up : Update}
    (hc : r.get? id = some c)
    (hc' : r'.get? id = some { c with members := (scan v (declarations c.body) c.members).1 })
    (spares : up.Spares r r')
    (h : ApartAt id c.body c.members (scan v (declarations c.body) c.members).1 q q') :
    ApartAt id c.body c.members (scan v (declarations c.body) c.members).1
      (up.apply q) (up.apply q') := by
  cases up with
  | retype other name ty =>
    refine h.modify other _ (fun _ => rfl) ?_
    intro ho d s' hapart
    subst ho
    refine ⟨s'.retype name ty, rfl, hapart.retype ?_ ty⟩
    simpa [Update.Spares, Registry.member?, hc, hc'] using spares
  | resolve other name m =>
    refine h.modify other _ (fun _ => rfl) ?_
    intro ho d s' hapart
    exact ⟨s'.resolve name m, rfl, hapart.resolve (fun _ => goes_of_scan v) name m⟩
  | record other key value =>
    refine h.modify other _ (fun _ => rfl) ?_
    intro ho d s' hapart
    exact ⟨s', rfl, hapart⟩

private theorem ApartAt.applyAll {id : ClassId} {c : ClassDecl} {r r' q q' : Registry}
    {us : List Update} (hc : r.get? id = some c)
    (hc' : r'.get? id = some { c with members := (scan v (declarations c.body) c.members).1 })
    (spares : ∀ up ∈ us, up.Spares r r')
    (h : ApartAt id c.body c.members (scan v (declarations c.body) c.members).1 q q') :
    ApartAt id c.body c.members (scan v (declarations c.body) c.members).1
      (Update.applyAll us q) (Update.applyAll us q') := by
  induction us generalizing q q' with
  | nil => exact h
  | cons up us ih =>
    apply ih (fun w hw => spares w (List.mem_cons_of_mem _ hw))
    exact h.apply v hc hc' (spares up List.mem_cons_self)

/-! ## Running once more -/

/-- A first try that is put off leaves no trace: whatever is changed before the next one, apart
from the types that the first try has changed itself, the next run does what it would have done
without the first. -/
def Transparent (r : Registry) (id : ClassId) : Prop :=
  ∀ us : List Update, (∀ up ∈ us, up.Spares r (run v r id).registry) →
    run v (Update.applyAll us (run v r id).registry) id = run v (Update.applyAll us r) id

/-- Some changes of that kind make the run complete. -/
def Liftable (r : Registry) (id : ClassId) : Prop :=
  ∃ us : List Update, (∀ up ∈ us, up.Spares r (run v r id).registry) ∧
    ∃ s, (run v (Update.applyAll us r) id).result = .ok s

/-- A body can be read again: every type that is wrapped as constructor-only comes from an
annotation that says so, and no variable is left wrapped. -/
structure Repeatable (body : List Statement) (t : Table Member) : Prop where
  annotated : ∀ p ∈ visits v (declarations body) t,
    p.2.isInitOnly v = true → p.1.isInitOnly v = true
  unwrapped : Unwrapped v (declarations body) t (readBody v body t).1

instance (body : List Statement) (t : Table Member) : Decidable (Repeatable v body t) :=
  decidable_of_iff
    ((∀ p ∈ visits v (declarations body) t,
        p.2.isInitOnly v = true → p.1.isInitOnly v = true) ∧
      Unwrapped v (declarations body) t (readBody v body t).1)
    ⟨fun h => ⟨h.1, h.2⟩, fun h => ⟨h.annotated, h.unwrapped⟩⟩

private theorem Repeatable.not_unannotated {body : List Statement} {t : Table Member}
    (h : Repeatable v body t) : ¬ Unannotated v (declarations body) t := by
  rintro ⟨p, hp, hx, ha⟩
  rw [h.annotated p hp hx] at ha
  cases ha

/-- A first try leaves its registry apart from the one that it began with. -/
private theorem apartAt_read {r : Registry} {id : ClassId} {c : ClassDecl}
    (registered : r.get? id = some c) :
    ApartAt id c.body c.members (scan v (declarations c.body) c.members).1 r
      (r.set id { c with members := (scan v (declarations c.body) c.members).1 }) := by
  constructor
  · intro other ho
    rw [Registry.get?_set registered, if_neg (Ne.symm ho)]
  · refine ⟨c, (scan v (declarations c.body) c.members).1, registered, ?_, rfl, ?_⟩
    · rw [Registry.get?_set registered, if_pos rfl]
    · exact ⟨(keys_scan v _ _).symm, fun _ h => h, fun _ _ => ⟨rfl, rfl⟩, fun _ h => h⟩

/-- Once the class has been read in both, two registries that differ in its table are one. -/
private theorem ApartAt.set_eq {id : ClassId} {body : List Statement} {t u : Table Member}
    {q q' : Registry} (h : ApartAt id body t u q q') (c : ClassDecl) :
    q.set id c = q'.set id c := by
  obtain ⟨d, s', hd, hd', -, -⟩ := h.own
  apply Registry.ext_get?
  intro other
  rw [Registry.get?_set hd, Registry.get?_set hd']
  by_cases ho : id = other
  · rw [if_pos ho, if_pos ho]
  · rw [if_neg ho, if_neg ho, h.others other (Ne.symm ho)]

private theorem Loosens.eq {lost : Prop} {e e' : Except Deferral (List Field)}
    (h : Loosens lost e e') (kept : ¬ lost) : e = e' := by
  cases e with
  | error d =>
    cases e' with
    | error d' => exact congrArg Except.error h
    | ok fs' => exact h.elim
  | ok fs =>
    cases e' with
    | error d' => exact h.elim
    | ok fs' => exact congrArg Except.ok (h.2.2 kept)

/-- A run makes the same of two registries that a first try has set apart, where the body can be
read again. -/
private theorem ApartAt.run_eq {id : ClassId} {c : ClassDecl} {q q' : Registry}
    (h : ApartAt id c.body c.members (scan v (declarations c.body) c.members).1 q q')
    (repeatable : Repeatable v c.body c.members) : run v q' id = run v q id := by
  obtain ⟨d, s', hd, hd', hbody, hapart⟩ := h.own
  have hunwrapped := repeatable.unwrapped
  rw [readBody_eq_scan] at hunwrapped
  obtain ⟨htable, hfields⟩ := scan_related v _ _ _ _ _ rfl hunwrapped hapart
  have hread : readBody v d.body d.members = readBody v d.body s' := by
    rw [readBody_eq_scan, readBody_eq_scan, hbody]
    exact Prod.ext htable (hfields.eq (repeatable.not_unannotated v))
  have hclass : readClass v { d with members := s' } = readClass v d := by
    rw [readClass, readClass]
    exact congrArg (fun t => { d with members := Prod.fst t }) hread.symm
  rw [run_of_get? v hd, run_of_get? v hd', hclass, h.set_eq, hread]

/-- If the next run does the same where nothing was changed, then reading leaves nothing
wrapped. -/
private theorem unwrapped_of_transparent {r : Registry} {id : ClassId} {c : ClassDecl}
    {halt : Halt} (registered : r.get? id = some c)
    (halted : (run v r id).result = .error halt) (h : Transparent v r id) :
    Unwrapped v (declarations c.body) c.members (readBody v c.body c.members).1 := by
  have hagain : run v (run v r id).registry id = run v r id := h [] (by simp)
  have hregistry := registry_of_halt v registered halted
  have hget : (run v r id).registry.get? id = some (readClass v c) := by
    rw [hregistry, Registry.get?_set registered, if_pos rfl]
  have hregistry' := registry_of_halt v hget (hagain ▸ halted)
  rw [hagain] at hregistry'
  have hget' : some (readClass v c) = some (readClass v (readClass v c)) := by
    rw [← hget, hregistry', Registry.get?_set hget, if_pos rfl]
  have hmembers : (readBody v c.body c.members).1 =
      (readBody v c.body (readBody v c.body c.members).1).1 :=
    congrArg ClassDecl.members (Option.some.inj hget')
  rw [readBody_eq_scan, readBody_eq_scan] at hmembers
  rw [readBody_eq_scan]
  exact unwrapped_of_scan_scan v _ _ _ rfl hmembers.symm

private theorem countP_fields {own : List Field} {names : List String}
    {added : List MergedField} {found : List Contribution} {s : Synthesis}
    (merged : ∀ own : List MergedField, own.map MergedField.name = names →
      (merge own (found.map Contribution.fields)).Perm (own ++ added))
    (h : own.map Field.name = names)
    (fields : s.fields = (merge (own.map fun f => { field := f })
      (found.map Contribution.fields)).map MergedField.field) :
    s.fields.countP Field.initOnly =
      own.countP Field.initOnly + (added.map MergedField.field).countP Field.initOnly := by
  have hperm := (merged (own.map fun f => { field := f }) (by
    rw [← h, List.map_map]
    rfl)).map MergedField.field
  rw [fields, hperm.countP_eq, List.map_append, List.countP_append, List.map_map]
  congr 2
  exact List.map_id own

/-- If all later runs do the same and one of them completes, then no field is constructor-only
by its type alone: it would be so only without the first try. -/
private theorem annotated_of_transparent {r : Registry} {id : ClassId} {c : ClassDecl}
    {halt : Halt} (registered : r.get? id = some c)
    (halted : (run v r id).result = .error halt) (liftable : Liftable v r id)
    (h : Transparent v r id) : ¬ Unannotated v (declarations c.body) c.members := by
  intro hlost
  obtain ⟨us, hspares, s, hs⟩ := liftable
  have hunwrapped := unwrapped_of_transparent v registered halted h
  have hregistry := registry_of_halt v registered halted
  rw [readClass] at hregistry
  rw [readBody_eq_scan] at hunwrapped hregistry
  have hget : (run v r id).registry.get? id =
      some { c with members := (scan v (declarations c.body) c.members).1 } := by
    rw [hregistry, Registry.get?_set registered, if_pos rfl]
  have hstart := apartAt_read v registered
  rw [← hregistry] at hstart
  have happart := hstart.applyAll v registered hget hspares
  obtain ⟨d, s', hd, hd', hbody, hapart⟩ := happart.own
  obtain ⟨htable, hfields⟩ := scan_related v _ _ _ _ _ rfl hunwrapped hapart
  have hs' : (run v (Update.applyAll us (run v r id).registry) id).result = .ok s := by
    rw [h us hspares, hs]
  obtain ⟨own, found, hown, hfound, hmerged⟩ := collect_of_ok v hd hs
  obtain ⟨own', found', hown', hfound', hmerged'⟩ := collect_of_ok v hd' hs'
  rw [readClass] at hfound hfound'
  dsimp only at hown' hfound'
  rw [readBody_eq_scan, hbody] at hown hown' hfound hfound'
  rw [← htable, ← happart.set_eq, hfound] at hfound'
  cases hfound'
  rw [hown, hown'] at hfields
  obtain ⟨hnames, hless, -⟩ := hfields
  obtain ⟨added, -, -, hperm⟩ := merge_perm (found.map Contribution.fields) (own.map Field.name)
  have hcount := countP_fields hperm rfl hmerged
  have hcount' := countP_fields hperm hnames.symm hmerged'
  have hlt := hless hlost
  omega

/-- A run that was put off leaves no trace when its body can be read again. -/
theorem Repeatable.transparent {r : Registry} {id : ClassId} {c : ClassDecl} {d : Deferral}
    (h : Repeatable v c.body c.members) (registered : r.get? id = some c)
    (deferred : (run v r id).result = .error (.deferred d)) : Transparent v r id := by
  intro us hspares
  have hregistry := registry_of_halt v registered deferred
  rw [readClass, readBody_eq_scan] at hregistry
  have hget : (run v r id).registry.get? id =
      some { c with members := (scan v (declarations c.body) c.members).1 } := by
    rw [hregistry, Registry.get?_set registered, if_pos rfl]
  have hstart := apartAt_read v registered
  rw [← hregistry] at hstart
  exact (hstart.applyAll v registered hget hspares).run_eq v h

/-- A run that was put off leaves no trace when its body can be read again: whatever is changed
before the next try, that one answers, reports and leaves what it would have without the first.
This is also needed, wherever the run can be completed at all. -/
theorem deferred_run_transparent {r : Registry} {id : ClassId} {c : ClassDecl} {d : Deferral}
    (registered : r.get? id = some c) (deferred : (run v r id).result = .error (.deferred d)) :
    (Repeatable v c.body c.members → Transparent v r id) ∧
      (Liftable v r id → Transparent v r id → Repeatable v c.body c.members) := by
  constructor
  · exact fun repeatable => repeatable.transparent v registered deferred
  · intro liftable transparent
    have hannotated := annotated_of_transparent v registered deferred liftable transparent
    constructor
    · intro p hp hx
      cases ha : p.1.isInitOnly v with
      | true => rfl
      | false => exact absurd ⟨p, hp, hx, ha⟩ hannotated
    · exact unwrapped_of_transparent v registered deferred transparent

end Retry

/-- A class of which `x` is declared with one type and its variable has another, in a registry of
its own; `later` has no type yet. -/
private def waiting (declared ty : Binding) : Registry :=
  ⟨[{ name := "C", fullname := "C", mro := [0]
      body := [
        .assign { target := { name := "x" }, declaredTy := some declared },
        .assign { target := { name := "later" }, declaredTy := some .pending }]
      members := Table.ofList [
        ("x", { symbol := .var { name := "x", fullname := "C.x", ty } }),
        ("later",
          { symbol := .var { name := "later", fullname := "C.later", ty := .pending } })] }]⟩

private def initOnlyInt : Binding :=
  .resolved (.inst "dataclasses.InitVar" [.named "builtins.int"])

theorem deferred_run_transparent_annotated :
    (run {} (waiting initOnlyInt initOnlyInt) 0).result =
        .error (.deferred (.pendingType "later")) ∧
      Transparent {} (waiting initOnlyInt initOnlyInt) 0 := by
  have deferred : (run {} (waiting initOnlyInt initOnlyInt) 0).result =
      .error (.deferred (.pendingType "later")) := by rfl
  exact ⟨deferred, (deferred_run_transparent {} (c := (waiting initOnlyInt initOnlyInt).classes[0])
    rfl deferred).1 (by decide)⟩

/-- A field whose annotation was not known when its variable got a wrapped type is
constructor-only in a first try and no more in the next. -/
theorem deferred_run_not_transparent : ¬ Transparent {} (waiting .pending initOnlyInt) 0 := by
  intro h
  have hagree := h [.retype 0 "later" (.resolved (.named "builtins.int"))] (by
    intro up hup
    rw [List.mem_singleton.mp hup]
    rfl)
  exact absurd (congrArg Run.result hagree) (by decide)

end Synthesis

end DataHolder
