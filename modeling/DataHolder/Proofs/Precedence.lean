import DataHolder.Proofs.Outcome

/-!
# Which declaration wins

A hierarchy is brought up by runs, ancestors before descendants. A class has for every field the
description of its own declaration, or else that of the nearest ancestor that has the field. This
ancestor may have it from further up, past a class that stands between them in the linearization
and declares the field again. So the most derived declaration wins exactly where no such
ancestor hides one, and it does wherever a class has the ancestors of its nearest one.
-/

namespace DataHolder

namespace Synthesis

/-! ## Classes that were brought up -/

/-- What a completed run has made of a class: the fields that its body declares, and all that it
was left with. -/
structure Holder where
  id : ClassId
  mro : List ClassId
  own : List Field
  fields : List Field
deriving DecidableEq

/-- The record under a number; a number that is not registered has none. -/
def recordAt (v : Vocabulary) (r : Registry) (id : ClassId) : Except Failure (Option Record) :=
  match r.get? id with
  | none => .ok none
  | some c => c.record? v.recordKey

/-- Classes brought up one after the other, the last one first. At first nothing is recorded;
between the runs anything may change but the records; and no run finds its class among the ancestors
of one that was brought up before. -/
inductive BroughtUp (v : Vocabulary) : List Holder → Registry → Prop
  | start {r : Registry} (none : ∀ id, recordAt v r id = .ok none) : BroughtUp v [] r
  | change {up : List Holder} {r r' : Registry} (before : BroughtUp v up r)
    (same : ∀ id, recordAt v r' id = recordAt v r id) : BroughtUp v up r'
  | run {up : List Holder} {r : Registry} {id : ClassId} {c : ClassDecl} {tail : List ClassId}
    {own : List Field} {s : Synthesis} (before : BroughtUp v up r)
    (registered : r.get? id = some c) (mro : c.mro = id :: tail) (apart : id ∉ tail)
    (ordered : ∀ h ∈ up, id ∉ h.mro)
    (once : ((declarations c.body).map fun a => a.target.name).Nodup)
    (read : (readBody v c.body c.members).2 = .ok own)
    (completes : (Synthesis.run v r id).result = .ok s) :
    BroughtUp v (⟨id, c.mro, own, s.fields⟩ :: up) (Synthesis.run v r id).registry

/-- The class with a number, where it was brought up. -/
def holderAt (up : List Holder) (id : ClassId) : Option Holder := up.find? fun h => h.id == id

/-- The first declaration of a field along linearized ancestors. -/
def firstDeclared (up : List Holder) (mro : List ClassId) (name : String) : Option Field :=
  mro.findSome? fun id => (holderAt up id).bind fun h => h.own.find? fun f => f.name == name

/-- The nearest ancestor that has a field. -/
def nearest (up : List Holder) (mro : List ClassId) (name : String) : Option Holder :=
  (interior mro).findSome? fun id =>
    (holderAt up id).filter fun h => h.fields.any fun f => f.name == name

/-- Every field has the description of its first declaration along the linearized ancestors. -/
def MostDerived (up : List Holder) : Prop :=
  ∀ h ∈ up, ∀ f ∈ h.fields, firstDeclared up h.mro f.name = some f

/-- For every field that a class does not declare itself, the first declaration is the one that the
nearest ancestor with this field finds first, too. -/
def Agreeing (up : List Holder) : Prop :=
  ∀ h ∈ up, ∀ f ∈ h.fields, f.name ∉ h.own.map Field.name →
    firstDeclared up h.mro f.name =
      (nearest up h.mro f.name).bind fun a => firstDeclared up a.mro f.name

/-- The ancestors of an ancestor are ancestors of the class. -/
def Closed (up : List Holder) : Prop :=
  ∀ h ∈ up, ∀ a ∈ up, a.id ∈ h.mro → a.mro ⊆ h.mro

/-- No class occurs twice among the linearized ancestors of another, and from any ancestor on they
are the ancestors of this one. -/
structure Linear (up : List Holder) : Prop where
  nodup : ∀ h ∈ up, h.mro.Nodup
  suffix : ∀ h ∈ up, ∀ a ∈ up, a.id ∈ h.mro → a.mro <:+ h.mro

/-! ## Fields handed down -/

/-- Classes of which each has, for every field, its own declaration or the description of the
nearest ancestor with this field. -/
inductive Layered : List Holder → Prop
  | nil : Layered []
  | cons {h : Holder} {tail : List ClassId} {up : List Holder} (before : Layered up)
    (mro : h.mro = h.id :: tail) (apart : h.id ∉ tail) (ordered : ∀ e ∈ up, h.id ∉ e.mro)
    (once : (h.own.map Field.name).Nodup) (kept : h.own ⊆ h.fields)
    (merged : ∀ f ∈ h.fields, f ∈ h.own ∨ f.name ∉ h.own.map Field.name ∧
      ∃ a, nearest up h.mro f.name = some a ∧ f ∈ a.fields) : Layered (h :: up)

/-- The class that is found under a number has that number. -/
theorem mem_of_holderAt {up : List Holder} {id : ClassId} {h : Holder}
    (found : holderAt up id = some h) : h ∈ up ∧ h.id = id :=
  ⟨List.mem_of_find?_eq_some found, by simpa using List.find?_some found⟩

theorem holderAt_cons_of_ne {h : Holder} {id : ClassId} (up : List Holder) (ne : h.id ≠ id) :
    holderAt (h :: up) id = holderAt up id :=
  List.find?_cons_of_neg (by simpa using ne)

/-- A class that is brought up later does not count for ancestors without it. -/
theorem firstDeclared_cons {h : Holder} {mro : List ClassId} (up : List Holder)
    (apart : h.id ∉ mro) (name : String) :
    firstDeclared (h :: up) mro name = firstDeclared up mro name := by
  apply findSome?_congr
  intro id hid
  rw [holderAt_cons_of_ne up fun he => apart (he ▸ hid)]

theorem nearest_cons {h : Holder} {mro : List ClassId} (up : List Holder)
    (apart : h.id ∉ interior mro) (name : String) :
    nearest (h :: up) mro name = nearest up mro name := by
  apply findSome?_congr
  intro id hid
  rw [holderAt_cons_of_ne up fun he => apart (he ▸ hid)]

theorem mem_of_nearest {up : List Holder} {mro : List ClassId} {name : String} {a : Holder}
    (h : nearest up mro name = some a) : a ∈ up := by
  obtain ⟨id, -, ha⟩ := List.exists_of_findSome?_eq_some h
  exact List.mem_of_find?_eq_some (Option.filter_eq_some_iff.mp ha).1

private theorem not_mem_interior {mro tail : List ClassId} {id : ClassId} (h : mro = id :: tail)
    (apart : id ∉ tail) : id ∉ interior mro := by
  rw [h]
  exact fun hin => apart (List.dropLast_subset _ hin)

theorem interior_subset (mro : List ClassId) : interior mro ⊆ mro :=
  fun _ h => List.mem_of_mem_drop (List.dropLast_subset _ h)

/-- What stands around an ancestor among the interior ones. -/
private theorem split_of_interior {mro tail ids rest : List ClassId} {first id : ClassId}
    (hmro : mro = first :: tail) (h : interior mro = ids ++ id :: rest) :
    ∃ last, mro = (first :: ids) ++ id :: (rest ++ [last]) := by
  subst hmro
  have hdropLast : tail.dropLast = ids ++ id :: rest := h
  have htail : tail ≠ [] := by
    rintro rfl
    simp at hdropLast
  refine ⟨tail.getLast htail, ?_⟩
  have hconcat := List.dropLast_concat_getLast htail
  rw [hdropLast, List.append_assoc] at hconcat
  exact congrArg (first :: ·) hconcat.symm

/-- In a list without repetitions, an element stands where the suffix starts that it heads. -/
private theorem eq_append_of_suffix {mro before after tail : List ClassId} {id : ClassId}
    (nodup : mro.Nodup) (h : mro = before ++ id :: after) (suffix : id :: tail <:+ mro) :
    mro = before ++ id :: tail := by
  obtain ⟨before', hsuffix⟩ := suffix
  rw [h, List.nodup_append] at nodup
  have hbefore : id ∉ before := fun hin => nodup.2.2 _ hin _ List.mem_cons_self rfl
  have hafter : id ∉ after := (List.nodup_cons.mp nodup.2.1).1
  have hsame := (List.append_cons_inj_of_notMem hbefore hafter).mp (h.symm.trans hsuffix.symm)
  rw [hsame.1, hsuffix]

namespace Layered

variable {up : List Holder} {h : Holder}

theorem mro_eq (layered : Layered up) (mem : h ∈ up) : ∃ tail, h.mro = h.id :: tail := by
  induction layered with
  | nil => cases mem
  | cons before mro _ _ _ _ _ ih =>
    rcases List.mem_cons.mp mem with rfl | mem
    · exact ⟨_, mro⟩
    · exact ih mem

theorem once_own (layered : Layered up) (mem : h ∈ up) : (h.own.map Field.name).Nodup := by
  induction layered with
  | nil => cases mem
  | cons before _ _ _ once _ _ ih =>
    rcases List.mem_cons.mp mem with rfl | mem
    · exact once
    · exact ih mem

theorem own_subset (layered : Layered up) (mem : h ∈ up) : h.own ⊆ h.fields := by
  induction layered with
  | nil => cases mem
  | cons before _ _ _ _ kept _ ih =>
    rcases List.mem_cons.mp mem with rfl | mem
    · exact kept
    · exact ih mem

/-- Every class is found under its number. -/
theorem holderAt_eq (layered : Layered up) (mem : h ∈ up) : holderAt up h.id = some h := by
  induction layered with
  | nil => cases mem
  | cons before _ _ ordered _ _ _ ih =>
    rcases List.mem_cons.mp mem with rfl | mem
    · exact List.find?_cons_of_pos (by simp)
    · obtain ⟨tail, hmro⟩ := before.mro_eq mem
      rw [holderAt_cons_of_ne, ih mem]
      intro he
      apply ordered h mem
      rw [he, hmro]
      exact List.mem_cons_self

/-- A declaration of the class itself is the first one. -/
theorem firstDeclared_own (layered : Layered up) (mem : h ∈ up) {f : Field} (hf : f ∈ h.own) :
    firstDeclared up h.mro f.name = some f := by
  obtain ⟨tail, hmro⟩ := layered.mro_eq mem
  rw [firstDeclared, hmro, List.findSome?_cons, layered.holderAt_eq mem, Option.bind_some,
    (mem_iff_find?_name (layered.once_own mem) f).mp hf]

/-- A field is declared by its class, or the nearest ancestor with a field of its name has it. -/
theorem merged (layered : Layered up) (mem : h ∈ up) {f : Field} (hf : f ∈ h.fields) :
    f ∈ h.own ∨ f.name ∉ h.own.map Field.name ∧
      ∃ a, nearest up h.mro f.name = some a ∧ f ∈ a.fields := by
  induction layered with
  | nil => cases mem
  | cons before mro apart ordered _ _ hmerged ih =>
    rcases List.mem_cons.mp mem with rfl | mem
    · rw [nearest_cons _ (not_mem_interior mro apart)]
      exact hmerged f hf
    · rw [nearest_cons _ fun hin => ordered h mem (interior_subset _ hin)]
      exact ih mem

/-- Where the most derived declaration always wins, all agree on it. -/
theorem agreeing (layered : Layered up) (derived : MostDerived up) : Agreeing up := by
  intro h mem f hf foreign
  rcases layered.merged mem hf with hown | ⟨-, a, hnearest, ha⟩
  · exact absurd (List.mem_map_of_mem hown) foreign
  · rw [hnearest, Option.bind_some, derived h mem f hf, derived a (mem_of_nearest hnearest) f ha]

/-- Where all agree on the first declarations, these win: the first description that comes down to
a class is handed on, class by class. -/
theorem mostDerived (layered : Layered up) (agree : Agreeing up) : MostDerived up := by
  induction layered with
  | nil => exact fun _ mem => nomatch mem
  | @cons new tail up before mro apart ordered once kept hmerged ih =>
    have hfirst : ∀ h ∈ up, ∀ name,
        firstDeclared (new :: up) h.mro name = firstDeclared up h.mro name :=
      fun h mem name => firstDeclared_cons up (ordered h mem) name
    have hbefore : MostDerived up := by
      apply ih
      intro h mem f hf foreign
      have he := agree h (List.mem_cons_of_mem _ mem) f hf foreign
      rw [hfirst h mem, nearest_cons _ fun hin => ordered h mem (interior_subset _ hin)] at he
      rw [he]
      cases hnearest : nearest up h.mro f.name with
      | none => rfl
      | some a => rw [Option.bind_some, Option.bind_some, hfirst a (mem_of_nearest hnearest)]
    have layered : Layered (new :: up) := .cons before mro apart ordered once kept hmerged
    intro h mem f hf
    rcases List.mem_cons.mp mem with rfl | mem
    · rcases hmerged f hf with hown | ⟨foreign, a, hnearest, ha⟩
      · exact layered.firstDeclared_own List.mem_cons_self hown
      · have hmem := mem_of_nearest hnearest
        rw [agree h List.mem_cons_self f hf foreign,
          nearest_cons _ (not_mem_interior mro apart), hnearest, Option.bind_some, hfirst a hmem,
          hbefore a hmem f ha]
    · rw [hfirst h mem, hbefore h mem f hf]

/-- Below the nearest ancestor with a field no class declares it. -/
private theorem declares_of_passed (layered : Layered up) {id : ClassId} {name : String}
    (passed : ((holderAt up id).filter fun h => h.fields.any fun f => f.name == name) = none) :
    ((holderAt up id).bind fun h => h.own.find? fun f => f.name == name) = none := by
  cases hid : holderAt up id with
  | none => rfl
  | some b =>
    have hmem : b ∈ up := List.mem_of_find?_eq_some hid
    rw [hid, Option.filter_eq_none_iff] at passed
    rw [Option.bind_some, List.find?_eq_none]
    intro f hf hname
    exact passed b rfl (List.any_eq_true.mpr ⟨f, layered.own_subset hmem hf, hname⟩)

/-- In a linear hierarchy, what precedes the nearest ancestor with a field are the class itself and
ancestors that do not have it; the ancestors of this one follow. -/
private theorem mro_eq_append (layered : Layered up) (linear : Linear up) (mem : h ∈ up)
    {name : String} {a : Holder} (hnearest : nearest up h.mro name = some a) :
    ∃ ids, h.mro = (h.id :: ids) ++ a.mro ∧ ∀ id ∈ ids,
      ((holderAt up id).filter fun h => h.fields.any fun f => f.name == name) = none := by
  obtain ⟨ids, id, rest, hinterior, ha, hpassed⟩ := List.findSome?_eq_some_iff.mp hnearest
  obtain rfl : a.id = id := by
    simpa using List.find?_some (Option.filter_eq_some_iff.mp ha).1
  obtain ⟨tail, hmro⟩ := layered.mro_eq mem
  obtain ⟨tail', hmro'⟩ := layered.mro_eq (mem_of_nearest hnearest)
  obtain ⟨last, hsplit⟩ := split_of_interior hmro hinterior
  have hsuffix := linear.suffix h mem a (mem_of_nearest hnearest) (by rw [hsplit]; simp)
  rw [hmro'] at hsuffix ⊢
  exact ⟨ids, eq_append_of_suffix (linear.nodup h mem) hsplit hsuffix, hpassed⟩

/-- Where the hierarchy is linear, nothing stands between a class and the nearest ancestor with a
field but classes that do not have it. -/
theorem agreeing_of_linear (layered : Layered up) (linear : Linear up) : Agreeing up := by
  intro h mem f hf foreign
  rcases layered.merged mem hf with hown | ⟨-, a, hnearest, -⟩
  · exact absurd (List.mem_map_of_mem hown) foreign
  · obtain ⟨ids, hmro, hpassed⟩ := layered.mro_eq_append linear mem hnearest
    have hnone : firstDeclared up (h.id :: ids) f.name = none := by
      rw [firstDeclared, List.findSome?_eq_none_iff]
      intro id hid
      rcases List.mem_cons.mp hid with rfl | hid
      · rw [layered.holderAt_eq mem, Option.bind_some, List.find?_eq_none]
        intro g hg hname
        exact foreign (List.mem_map.mpr ⟨g, hg, by simpa using hname⟩)
      · exact layered.declares_of_passed (hpassed id hid)
    rw [hnearest, Option.bind_some, hmro, firstDeclared, List.findSome?_append, ← firstDeclared,
      hnone, Option.none_or, ← firstDeclared]

end Layered

/-! ## Bringing up -/

section BroughtUp

variable {v : Vocabulary} {up : List Holder} {r : Registry}

/-- The registry has the fields of the classes that were brought up as records, and no others. -/
def Recorded (v : Vocabulary) (up : List Holder) (r : Registry) : Prop :=
  ∀ id, ∃ found, recordAt v r id = .ok found ∧
    found.map Record.fields = (holderAt up id).map Holder.fields

theorem recordAt_set_ne {id other : ClassId} (c : ClassDecl) (ne : id ≠ other) :
    recordAt v (r.set id c) other = recordAt v r other := by
  rw [recordAt, Registry.get?_set_ne r c ne, recordAt]

/-- Reading a class changes no record. -/
private theorem recordAt_read {id : ClassId} {c : ClassDecl} (registered : r.get? id = some c)
    (other : ClassId) : recordAt v (r.set id (readClass v c)) other = recordAt v r other := by
  by_cases he : id = other
  · subst he
    rw [recordAt, recordAt, registered,
      Registry.get?_set_self _ _ _ (Registry.lt_size_of_get? registered)]
    rfl
  · exact recordAt_set_ne _ he

/-- What the records of some classes hold under a name is what those that were brought up have. -/
private theorem find?_recorded (h : Recorded v up r) (ids : List ClassId) (name : String) :
    (((recorded v r ids).flatMap fun a => a.2.fields).find? fun f => f.name == name) =
      ids.findSome? fun id =>
        (holderAt up id).bind fun h => h.fields.find? fun f => f.name == name := by
  rw [List.find?_flatMap, recorded, findSome?_filterMap]
  apply findSome?_congr
  intro id _
  obtain ⟨found, hfound, hfields⟩ := h id
  have hbind : ((holderAt up id).bind fun h => h.fields.find? fun f => f.name == name) =
      (found.map Record.fields).bind fun fs => fs.find? fun f => f.name == name := by
    rw [hfields, Option.bind_map]
    rfl
  rw [hbind]
  rw [recordAt] at hfound
  cases hc : r.get? id with
  | none =>
    rw [hc] at hfound
    cases hfound
    rfl
  | some c =>
    rw [hc] at hfound
    dsimp only at hfound
    rw [Option.bind_some, hfound]
    cases found <;> rfl

/-- What is recorded are the fields of classes that were brought up. -/
theorem exists_holder_of_recorded (h : Recorded v up r) {ids : List ClassId}
    {a : ClassDecl × Record} (ha : a ∈ recorded v r ids) :
    ∃ b ∈ up, b.id ∈ ids ∧ a.2.fields = b.fields := by
  obtain ⟨id, hmem, hc, hrecord⟩ := mem_recorded.mp ha
  obtain ⟨found, hfound, hfields⟩ := h id
  rw [recordAt, hc] at hfound
  dsimp only at hfound
  rw [hrecord] at hfound
  cases hfound
  obtain ⟨b, hb, he⟩ := Option.map_eq_some_iff.mp hfields.symm
  obtain ⟨hup, rfl⟩ := mem_of_holderAt hb
  exact ⟨b, hup, hmem, he.symm⟩

/-- The class that a field comes down from is the nearest ancestor with a field of its name. -/
private theorem exists_nearest {mro : List ClassId} {name : String} {f : Field}
    (h : ((interior mro).findSome? fun id =>
      (holderAt up id).bind fun h => h.fields.find? fun f => f.name == name) = some f) :
    ∃ a, nearest up mro name = some a ∧ f ∈ a.fields := by
  obtain ⟨ids, id, rest, hinterior, hid, hnone⟩ := List.findSome?_eq_some_iff.mp h
  obtain ⟨a, ha, hf⟩ := Option.bind_eq_some_iff.mp hid
  refine ⟨a, List.findSome?_eq_some_iff.mpr ⟨ids, id, rest, hinterior, ?_, ?_⟩,
    List.mem_of_find?_eq_some hf⟩
  · have hname := List.find?_some hf
    exact Option.filter_eq_some_iff.mpr
      ⟨ha, List.any_eq_true.mpr ⟨f, List.mem_of_find?_eq_some hf, hname⟩⟩
  · intro other hother
    rw [Option.filter_eq_none_iff]
    intro b hb hany
    obtain ⟨g, hg, hname⟩ := List.any_eq_true.mp hany
    have hmiss := hnone other hother
    rw [hb, Option.bind_some, List.find?_eq_none] at hmiss
    exact hmiss g hg hname

/-- Every class that was brought up has its own declarations and the descriptions of its nearest
ancestors, under distinct names, and they are what is recorded. -/
theorem layered_of_broughtUp (h : BroughtUp v up r) :
    Layered up ∧ Recorded v up r ∧ ∀ h ∈ up, (h.fields.map Field.name).Nodup := by
  induction h with
  | start none => exact ⟨.nil, fun id => ⟨Option.none, none id, rfl⟩, fun h mem => nomatch mem⟩
  | change _ same ih => exact ⟨ih.1, fun id => (same id).symm ▸ ih.2.1 id, ih.2.2⟩
  | @run up r id c tail own s before registered mro apart ordered once read completes ih =>
    obtain ⟨layered, hrecorded, hnodup⟩ := ih
    obtain ⟨own', m, hown, hm, rfl, hregistry, hget⟩ := run_of_ok registered completes
    rw [read] at hown
    cases hown
    have hgather := gather_of_collect hm
    have hread : Recorded v up (r.set id (readClass v c)) := fun other =>
      (recordAt_read registered other).symm ▸ hrecorded other
    have honce : (own.map Field.name).Nodup := by
      rw [names_of_readBody v read]
      exact once.sublist (List.filter_sublist.map _)
    have hplain : (m.plain.map Field.name).Nodup := (nodup_plain_of_gather_iff hgather).mpr honce
    have hfind := find?_plain_of_gather hgather
    refine ⟨.cons layered mro apart ordered honce (mem_plain_of_gather hgather).1 ?_, ?_, ?_⟩
    · intro f hf
      have hf : (m.plain.find? fun g => g.name == f.name) = some f :=
        (mem_iff_find?_name hplain f).mp hf
      rw [hfind, List.find?_append, find?_recorded hread] at hf
      cases hown : own.find? fun g => g.name == f.name with
      | some g =>
        rw [hown, Option.some_or, Option.some.injEq] at hf
        exact .inl (hf ▸ List.mem_of_find?_eq_some hown)
      | none =>
        rw [hown, Option.none_or] at hf
        refine .inr ⟨?_, exists_nearest hf⟩
        intro hmem
        obtain ⟨g, hg, hname⟩ := List.mem_map.mp hmem
        exact List.find?_eq_none.mp hown g hg (by simpa using hname)
    · intro other
      by_cases he : id = other
      · subst he
        refine ⟨some _, by rw [recordAt, hget]; exact record?_completed v r id c m, ?_⟩
        rw [holderAt, List.find?_cons_of_pos (by simp), Option.map_some, Option.map_some,
          (Record.fields_ofFields_eq_iff _ _).mpr hplain]
      · rw [hregistry, recordAt_set_ne _ he, holderAt_cons_of_ne up he]
        exact hrecorded other
    · intro h mem
      rcases List.mem_cons.mp mem with rfl | mem
      · exact hplain
      · exact hnodup h mem

end BroughtUp

/-- In a linear hierarchy the most derived declaration wins. -/
theorem mostDerived_of_linear {v : Vocabulary} {up : List Holder} {r : Registry}
    (h : BroughtUp v up r) (linear : Linear up) : MostDerived up :=
  have layered := (layered_of_broughtUp h).1
  layered.mostDerived (layered.agreeing_of_linear linear)

/-- In a hierarchy that was brought up, every field of every class carries the description of the
most derived declaration exactly where the ancestors agree on the first declarations. -/
theorem mostDerived_iff_agreeing {v : Vocabulary} {up : List Holder} {r : Registry}
    (h : BroughtUp v up r) : MostDerived up ↔ Agreeing up :=
  have layered := (layered_of_broughtUp h).1
  ⟨layered.agreeing, layered.mostDerived⟩

/-- A class `D` below `B` and `C`, which are both below `A`: `A` declares `x`, and `C` declares a
field with a default, `x` again or another one. -/
private def lattice (name : String) : Registry :=
  let declaring (name : String) (value : Expr) : Statement :=
    .assign { target := { name }, declaredTy := some (.resolved (.named "builtins.int")), value }
  let holder (name : String) (mro : List ClassId) (body : List Statement) : ClassDecl :=
    ClassDecl.bind
      { name, fullname := name, decorators := [.name { name := "dataclass" }], body, mro }
  ⟨[{ name := "object", fullname := "object", mro := [0] },
    holder "A" [1, 0] [declaring "x" .empty],
    holder "B" [2, 1, 0] [],
    holder "C" [3, 1, 0] [declaring name .other],
    holder "D" [4, 2, 3, 1, 0] []]⟩

/-- The classes of the lattice, brought up. -/
private def raised (name : String) : List Holder :=
  let x : Field := { name := "x" }
  let again : Field := { name, hasDefault := true }
  [⟨4, [4, 2, 3, 1, 0], [], if name = "x" then [x] else [x, again]⟩,
    ⟨3, [3, 1, 0], [again], if name = "x" then [again] else [x, again]⟩,
    ⟨2, [2, 1, 0], [], [x]⟩,
    ⟨1, [1, 0], [x], [x]⟩]

private theorem broughtUp_lattice {name : String} (h : name = "x" ∨ name = "y") :
    ∃ r, BroughtUp {} (raised name) r := by
  have start : BroughtUp {} [] (lattice name) := .start fun id =>
    match id with
    | 0 | 1 | 2 | 3 | 4 => rfl
    | _ + 5 => rfl
  rcases h with rfl | rfl
  all_goals
    have a := start.run (show Registry.get? _ 1 = some _ from rfl) rfl (by decide) (by simp)
      (by decide) rfl rfl
    have b := a.run (show Registry.get? _ 2 = some _ from rfl) rfl (by decide) (by decide)
      (by decide) rfl rfl
    have c := b.run (show Registry.get? _ 3 = some _ from rfl) rfl (by decide) (by decide)
      (by decide) rfl rfl
    have d := c.run (show Registry.get? _ 4 = some _ from rfl) rfl (by decide) (by decide)
      (by decide) rfl rfl
    exact ⟨_, d⟩

theorem mostDerived_lattice : ∃ r, BroughtUp {} (raised "y") r ∧ MostDerived (raised "y") := by
  obtain ⟨r, h⟩ := broughtUp_lattice (.inr rfl)
  exact ⟨r, h, (mostDerived_iff_agreeing h).mpr (by unfold Agreeing; decide)⟩

/-- Where `C` declares `x` again, `D` has it from `A` all the same, through `B`. -/
theorem not_mostDerived_lattice :
    ∃ r, BroughtUp {} (raised "x") r ∧ Closed (raised "x") ∧ ¬ MostDerived (raised "x") := by
  obtain ⟨r, h⟩ := broughtUp_lattice (.inl rfl)
  exact ⟨r, h, by unfold Closed; decide, by unfold MostDerived; decide⟩

end Synthesis

end DataHolder
