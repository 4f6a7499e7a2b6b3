import DataHolder.Proofs.Deferral
import DataHolder.Proofs.History
import DataHolder.Proofs.Precedence
import DataHolder.Proofs.Survival
import DataHolder.Proofs.Views

/-!
# One sweep brings a hierarchy up

A sweep binds and runs every data holder of a hierarchy of fresh classes once, ancestors before
descendants. Every run of it completes. A descendant finds a record on each data holder above it;
and a field that it inherits comes down from the class that declares it, where no run has taken
the variable away.
-/

namespace DataHolder

/-- Whether nothing has to wait for what a name resolves to. -/
def Symbol.isKnown : Symbol → Bool
  | .var x => !x.ty.isPending
  | .method _ => true
  | .typeVar _ => true
  | .placeholder => false

namespace Synthesis

variable {v : Vocabulary}

/-! ## What is seen from below -/

/-- Nothing has to wait for what is seen of a table. -/
def Quiet (t : Table Member) : Prop :=
  ∀ name s, visible (t.get? name) = some s → s.isKnown = true

theorem Calm.quiet {t : Table Member} (h : Calm t) : Quiet t := by
  intro name s hs
  obtain ⟨⟨symbol, generated⟩, hm, hv⟩ := Option.bind_eq_some_iff.mp hs
  have hready := h name _ hm
  split at hv
  · cases hv
  · cases hv
    cases symbol with
    | var x => exact (Bool.and_eq_true_iff.mp hready).2
    | method m => rfl
    | typeVar d => rfl
    | placeholder => cases hready

/-- What is written is shown. -/
theorem isSome_shown? {r : Registry} {id : ClassId} {c : ClassDecl} {name : String}
    (registered : r.get? id = some c) (written : (c.written? name).isSome = true) :
    (shown? r id name).isSome = true := by
  obtain ⟨w, hw⟩ := Option.isSome_iff_exists.mp written
  obtain ⟨hm, hg⟩ := Option.filter_eq_some_iff.mp hw
  have hgenerated : w.generated = false := by simpa using hg
  rw [shown?, registered, Option.bind_some, hm, visible, Option.bind_some, Member.isCopy,
    hgenerated]
  rfl

/-- A field that some ancestor shows does not wait, where nothing has to wait for any member. A
constructor-only field does not need to be shown. -/
theorem waitsFor?_eq_none {r : Registry} {id : ClassId} {c : ClassDecl}
    (registered : r.get? id = some c) (quiet : ∀ a d, r.get? a = some d → Quiet d.members)
    {f : Field}
    (shown : f.initOnly = false → ∃ a ∈ c.mro, (shown? r a f.name).isSome = true) :
    waitsFor? r id f = none := by
  have hdeclared := declared?_eq registered f.name
  rw [waitsFor?]
  cases hs : declared? r id f.name with
  | none =>
    cases hinit : f.initOnly with
    | true => rfl
    | false =>
      obtain ⟨a, ha, hsome⟩ := shown hinit
      rw [hs, eq_comm, List.findSome?_eq_none_iff] at hdeclared
      rw [hdeclared a ha] at hsome
      cases hsome
  | some s =>
    have hknown : s.isKnown = true := by
      rw [hs, eq_comm] at hdeclared
      obtain ⟨a, -, ha⟩ := List.exists_of_findSome?_eq_some hdeclared
      obtain ⟨d, hd, hv⟩ := Option.bind_eq_some_iff.mp ha
      exact quiet a d hd f.name s hv
    cases s with
    | var x =>
      have hpending : x.ty.isPending = false := by simpa [Symbol.isKnown] using hknown
      simp [hpending]
    | method m => rfl
    | typeVar d => rfl
    | placeholder => cases hknown

/-! ## What a run keeps for the descendants -/

/-- Marking hides a member or leaves it as well known as it was. -/
private theorem quiet_afterMark {owner : String} {ty : String → Ty} {frozen : Bool} {f : Field}
    {old : Option Member} (h : ∀ s, visible old = some s → s.isKnown = true) {s : Symbol}
    (hs : visible (ClassDecl.afterMark owner ty frozen old f) = some s) : s.isKnown = true := by
  rcases ClassDecl.afterMark_cases owner ty frozen old f with he | ⟨x, generated, rfl, he⟩ | he
  · exact h s (he ▸ hs)
  · rw [he] at hs
    cases generated with
    | true => cases hs
    | false =>
      cases hs
      exact h (.var x) rfl
  · rw [he] at hs
    cases hs

private theorem isVar_foldl_afterMark (owner : String) (ty : String → Ty) (frozen : Bool)
    (fields : List Field) {w : Member} (hw : w.symbol.isVar = true) :
    ∃ w', fields.foldl (ClassDecl.afterMark owner ty frozen) (some w) = some w' ∧
      w'.generated = w.generated := by
  induction fields generalizing w with
  | nil => exact ⟨w, rfl, rfl⟩
  | cons f fields ih =>
    obtain ⟨w', he, hsame⟩ := ClassDecl.afterMark_of_kept owner ty frozen f fun _ => hw
    obtain ⟨w'', hfold, hgenerated⟩ := ih (Member.isVar_eq hsame ▸ hw)
    exact ⟨w'', by rw [List.foldl_cons, he, hfold], hgenerated.trans (Member.generated_eq hsame)⟩

section Keeps

variable {r : Registry} {id : ClassId} {c : ClassDecl} {m : Collection} {own : List Field}

/-- Reading a calm class leaves the variable of every field that it finds. -/
theorem exists_written_of_own (calm : Calm c.members)
    (read : (readBody v c.body c.members).2 = .ok own) {f : Field} (hf : f ∈ own) :
    ∃ w, (readClass v c).written? f.name = some w ∧ w.symbol.isVar = true := by
  have hname : f.name ∈ fieldNames c :=
    names_of_readBody v read ▸ List.mem_map_of_mem hf
  have hfield := (mem_fieldNames.mp hname).2
  rw [isField] at hfield
  split at hfield
  · next x generated hvisit =>
    obtain ⟨hx, -⟩ := visit_eq_field hvisit
    have hready := calm _ _ hx
    obtain rfl : generated = false := by
      simpa using (Bool.and_eq_true_iff.mp hready).1
    rw [ClassDecl.written?, readClass, readBody_eq_scan]
    rcases get?_scan v (declarations c.body) c.members f.name with h | ⟨y, ty, g, hy, -, h⟩
    · exact ⟨_, by rw [h, hx]; rfl, rfl⟩
    · rw [hx] at hy
      cases hy
      exact ⟨_, by rw [h]; rfl, rfl⟩
  · cases hfield

/-- A completed run of a calm class leaves nothing to wait for. -/
theorem quiet_completed (calm : Calm (readClass v c).members) :
    Quiet (completed v r id c m).members := by
  intro name s hs
  have hdraft : ∀ s, visible ((draft v r id c m).get? name) = some s → s.isKnown = true := by
    intro s hs
    by_cases hmem : name ∈ (added v r id c m).map Prod.fst
    · obtain ⟨symbol, hadded, hget⟩ := get?_draft_of_mem hmem
      rw [hget] at hs
      rcases of_mem_additions _ _ _ _ _ hadded with ⟨-, f, rfl⟩ | ⟨-, d, rfl⟩
      · cases hs
        rfl
      · cases hs
        rfl
    · rw [get?_draft_of_not_mem hmem] at hs
      apply calm.quiet name
      obtain ⟨w, hw, hv⟩ := Option.bind_eq_some_iff.mp hs
      rw [(Option.filter_eq_some_iff.mp hw).1]
      exact hv
  rw [get?_completed] at hs
  split at hs
  · cases hs
  · generalize (draft v r id c m).get? name = old at hdraft hs
    generalize (m.plain.filter fun f => !f.initOnly).filter (fun f => f.name == name) = fields at hs
    induction fields generalizing old with
    | nil => exact hdraft s hs
    | cons f fields ih => exact ih _ (fun s hs => quiet_afterMark hdraft hs) hs

/-- A completed run keeps the variables of the fields that its class declares for instances. -/
theorem isSome_written?_completed (calm : Calm c.members)
    (read : (readBody v c.body c.members).2 = .ok own)
    (h : collect v (r.set id (readClass v c)) id c.mro (.ok own) = .ok m)
    (once : (own.map Field.name).Nodup) {f : Field} (hf : f ∈ own) (kept : f.initOnly = false)
    (apart : v.selfTypeVar ≠ f.name) :
    ((completed v r id c m).written? f.name).isSome = true := by
  obtain ⟨w, hw, hvar⟩ := exists_written_of_own calm read hf
  have hdraft : (draft v r id c m).get? f.name = some w := by
    rw [get?_draft_of_not_mem, hw]
    rw [mem_added_iff (by rw [hw]; rfl)]
    exact fun h => apart h.1
  have hgather := gather_of_collect h
  have hplain : (m.plain.map Field.name).Nodup := (nodup_plain_of_gather_iff hgather).mpr once
  have hstays := not_mem_initOnlyNames hplain ((mem_plain_of_gather hgather).1 f hf) kept
  obtain ⟨w', hw', hgenerated⟩ := isVar_foldl_afterMark c.fullname (copyTy v r id c m)
    (Flags.ofDecorator (v.decorator? c)).frozen
    ((m.plain.filter fun f => !f.initOnly).filter fun g => g.name == f.name) hvar
  rw [ClassDecl.written?, get?_completed, if_neg hstays, hdraft, hw', Option.filter, hgenerated,
    if_pos]
  · rfl
  · exact (Option.filter_eq_some_iff.mp hw).2

end Keeps

/-! ## Fields and where they are declared -/

/-- Every field of a class is declared by the class or by one above it. -/
theorem Layered.exists_declaring {up : List Holder} (layered : Layered up) (closed : Closed up) :
    ∀ h ∈ up, ∀ f ∈ h.fields, ∃ b ∈ up, b.id ∈ h.mro ∧ f ∈ b.own := by
  induction layered with
  | nil => exact fun _ mem => nomatch mem
  | @cons new tail up before mro apart ordered once kept merged ih =>
    have hbefore := ih fun h hh a ha =>
      closed h (List.mem_cons_of_mem _ hh) a (List.mem_cons_of_mem _ ha)
    have hup : ∀ {h : Holder} {f : Field}, (∃ b ∈ up, b.id ∈ h.mro ∧ f ∈ b.own) →
        ∃ b ∈ new :: up, b.id ∈ h.mro ∧ f ∈ b.own :=
      fun ⟨b, hb, hbmro, hf⟩ => ⟨b, List.mem_cons_of_mem _ hb, hbmro, hf⟩
    intro h mem f hf
    rcases List.mem_cons.mp mem with rfl | mem
    · rcases merged f hf with hown | ⟨-, a, hnearest, ha⟩
      · exact ⟨h, List.mem_cons_self, by rw [mro]; exact List.mem_cons_self, hown⟩
      · obtain ⟨id, hid, hfound⟩ := List.exists_of_findSome?_eq_some hnearest
        obtain ⟨hmem, rfl⟩ := mem_of_holderAt (Option.filter_eq_some_iff.mp hfound).1
        obtain ⟨b, hb, hbmro, hfb⟩ := hbefore a hmem f ha
        exact ⟨b, List.mem_cons_of_mem _ hb,
          closed h List.mem_cons_self a (List.mem_cons_of_mem _ hmem)
            (interior_subset _ hid) hbmro, hfb⟩
    · exact hup (hbefore h mem f hf)

/-- Ancestors contribute where each of them either has a record or need not have one. -/
theorem contributions_of_recorded {r : Registry} {ids : List ClassId}
    (found : ∀ a ∈ ids, ∃ record, recordAt v r a = .ok record ∧
      (record = none → ∀ d, r.get? a = some d → v.isDataHolder d = false)) :
    ∃ found, contributions v r ids = .ok found := by
  induction ids with
  | nil => exact ⟨[], rfl⟩
  | cons a ids ih =>
    obtain ⟨rest, hrest⟩ := ih fun b hb => found b (List.mem_cons_of_mem _ hb)
    obtain ⟨record, hrecord, hplain⟩ := found a List.mem_cons_self
    have hfirst : ∃ k, contribution? v r a = .ok k := by
      rw [contribution?]
      rw [recordAt] at hrecord
      cases hd : r.get? a with
      | none => exact ⟨none, rfl⟩
      | some d =>
        rw [hd] at hrecord
        dsimp only at hrecord ⊢
        rw [hrecord]
        cases record with
        | some record => exact ⟨_, rfl⟩
        | none => exact ⟨none, by simp [hplain rfl d hd]⟩
    obtain ⟨k, hk⟩ := hfirst
    exact ⟨_, by rw [contributions_cons, hk, hrest]; rfl⟩

/-! ## Hierarchies -/

variable (v)

/-- Fresh classes of which each knows its ancestors, and the ancestors of these. They declare no
name twice, all declared types are known, and no field has the name of the type variable. What
the last of the ancestors is does not matter. -/
structure Hierarchy (r : Registry) : Prop where
  members : ∀ id c, r.get? id = some c → c.members = ∅
  records : ∀ id c, r.get? id = some c → c.records = ∅
  known : ∀ id c, r.get? id = some c → Known c.body
  once : ∀ id c, r.get? id = some c →
    ((declarations c.body).map fun a => a.target.name).Nodup
  apart : ∀ id c, r.get? id = some c → v.selfTypeVar ∉ fieldNames c.bind
  first : ∀ id c, r.get? id = some c → c.mro.head? = some id
  closed : ∀ id c, r.get? id = some c → ∀ a ∈ c.mro, ∀ d, r.get? a = some d → d.mro ⊆ c.mro

/-- Whether all data holders above a class are among these. -/
def Ready (r : Registry) (done : List ClassId) (id : ClassId) : Prop :=
  ∀ c, r.get? id = some c → ∀ a ∈ c.mro.drop 1, ∀ d, r.get? a = some d →
    v.isDataHolder d = true → a ∈ done

/-- An order in which every class comes once, and after the data holders above it. -/
def AncestorsFirst (r : Registry) : List ClassId → List ClassId → Prop
  | _, [] => True
  | done, id :: rest => id ∉ done ∧ Ready v r done id ∧ AncestorsFirst r (id :: done) rest

/-- The registry with every class bound that is no data holder. -/
def bindOthers (r : Registry) : Registry :=
  ⟨r.classes.map fun c => if v.isDataHolder c then c else c.bind⟩

/-- Bind a class and run it. -/
def raise (r : Registry) (id : ClassId) : Run := run v (r.modify id ClassDecl.bind) id

/-- The runs of a sweep over classes, each with the registry that the run before has left. -/
def sweep : Registry → List ClassId → List Run
  | _, [] => []
  | r, id :: rest => raise v r id :: sweep (raise v r id).registry rest

/-- A registry in the course of a sweep: these classes have been brought up, the last one first,
and the others are as they were. -/
structure Swept (r : Registry) (up : List Holder) (q : Registry) : Prop where
  broughtUp : BroughtUp v up q
  waiting : ∀ id, id ∉ up.map Holder.id → q.get? id = (bindOthers v r).get? id
  origin : ∀ h ∈ up, ∃ c, r.get? h.id = some c ∧ h.mro = c.mro
  complete : ∀ h ∈ up, ∀ a ∈ h.mro, ∀ d, r.get? a = some d → v.isDataHolder d = true →
    a ∈ up.map Holder.id
  quiet : ∀ id d, q.get? id = some d → Quiet d.members
  written : ∀ h ∈ up, ∀ f ∈ h.own, f.initOnly = false →
    ∃ d, q.get? h.id = some d ∧ (d.written? f.name).isSome = true

variable {v}

theorem get?_bindOthers (r : Registry) (id : ClassId) :
    (bindOthers v r).get? id =
      (r.get? id).map fun c => if v.isDataHolder c then c else c.bind := by
  rw [bindOthers, Registry.get?, Registry.get?, List.getElem?_map]

section Sweep

variable {r q : Registry} {up : List Holder} {id : ClassId} {c : ClassDecl}

/-- The class itself heads its linearized ancestors. -/
theorem Hierarchy.mro_eq (h : Hierarchy v r) (registered : r.get? id = some c) :
    ∃ tail, c.mro = id :: tail :=
  List.head?_eq_some_iff.mp (h.first id c registered)

theorem Hierarchy.prepared (h : Hierarchy v r) (registered : r.get? id = some c) :
    Prepared c.bind := by
  have hc : Prepared c := by
    refine ⟨?_, h.known id c registered⟩
    intro name m hm
    rw [h.members id c registered] at hm
    cases hm
  exact prepared_enter hc ⟨c.decorators, r⟩

/-- At the start of a sweep nothing has been brought up. -/
theorem Hierarchy.swept (h : Hierarchy v r) : Swept v r [] (bindOthers v r) := by
  have hclass : ∀ id d, (bindOthers v r).get? id = some d →
      ∃ c, r.get? id = some c ∧ (d = c ∨ d = c.bind) := by
    intro id d hd
    rw [get?_bindOthers] at hd
    obtain ⟨c, hc, rfl⟩ := Option.map_eq_some_iff.mp hd
    exact ⟨c, hc, by split <;> simp⟩
  refine ⟨.start ?_, fun _ _ => rfl, nofun, nofun, ?_, nofun⟩
  · intro id
    rw [recordAt]
    cases hd : (bindOthers v r).get? id with
    | none => rfl
    | some d =>
      obtain ⟨c, hc, hcases⟩ := hclass id d hd
      have hrecords : d.records = ∅ := by
        rcases hcases with rfl | rfl
        · exact h.records id d hc
        · exact h.records id c hc
      show d.record? v.recordKey = .ok none
      rw [ClassDecl.record?, hrecords, Table.get?_empty]
  · intro id d hd
    obtain ⟨c, hc, rfl | rfl⟩ := hclass id d hd
    · intro name s hs
      rw [h.members id d hc] at hs
      cases hs
    · exact (h.prepared hc).calm.quiet

/-- The registry in which the next class of a sweep is run. -/
private theorem get?_bound (hq : q.get? id = some c) (a : ClassId) :
    (q.modify id ClassDecl.bind).get? a = if id = a then some c.bind else q.get? a := by
  rw [Registry.get?_modify]
  by_cases he : id = a
  · subst he
    rw [if_pos rfl, if_pos rfl, hq, Option.map_some]
  · rw [if_neg he, if_neg he]

private theorem get?_bound_set (hq : q.get? id = some c) (d : ClassDecl) (a : ClassId) :
    ((q.modify id ClassDecl.bind).set id d).get? a = if id = a then some d else q.get? a := by
  have hbound : (q.modify id ClassDecl.bind).get? id = some c.bind := by
    rw [get?_bound hq, if_pos rfl]
  rw [Registry.get?_set hbound, get?_bound hq]
  by_cases he : id = a
  · rw [if_pos he, if_pos he]
  · rw [if_neg he, if_neg he, if_neg he]

/-- A class that keeps its record may change. -/
private theorem recordAt_of_get? {q' : Registry} {d : ClassDecl} (hq : q.get? id = some c)
    (get : ∀ a, q'.get? a = if id = a then some d else q.get? a)
    (same : d.record? v.recordKey = c.record? v.recordKey) (a : ClassId) :
    recordAt v q' a = recordAt v q a := by
  rw [recordAt, recordAt, get]
  by_cases he : id = a
  · subst he
    rw [if_pos rfl, hq]
    exact same
  · rw [if_neg he]

/-- Where a sweep has come to a class, the data holders above it have records. -/
private theorem Swept.contribute (swept : Swept v r up q) (registered : r.get? id = some c)
    (holder : v.isDataHolder c = true) (new : id ∉ up.map Holder.id)
    (ready : Ready v r (up.map Holder.id) id) {q' : Registry} (recorded : Recorded v up q')
    (apart : ∀ a, a ≠ id → q'.get? a = q.get? a) :
    ∃ found, contributions v q' (interior c.mro) = .ok found := by
  apply contributions_of_recorded
  intro a ha
  have habove : a ∈ c.mro.drop 1 := List.dropLast_subset _ ha
  obtain ⟨found, hfound, hfields⟩ := recorded a
  refine ⟨found, hfound, ?_⟩
  rintro rfl d hd
  have hnone : a ∉ up.map Holder.id := by
    intro hmem
    obtain ⟨b, hb, hid⟩ := List.mem_map.mp hmem
    rw [Option.map_none, eq_comm, Option.map_eq_none_iff, holderAt, List.find?_eq_none] at hfields
    exact hfields b hb (by simpa using hid)
  have hne : a ≠ id := by
    rintro rfl
    exact new (ready c registered a habove c registered holder)
  rw [apart a hne, swept.waiting a hnone, get?_bindOthers] at hd
  obtain ⟨e, he, rfl⟩ := Option.map_eq_some_iff.mp hd
  cases hholder : v.isDataHolder e with
  | true => exact absurd (ready c registered a habove e he hholder) hnone
  | false => exact hholder

/-- Where a sweep has come to a class, it is read and its fields are collected. -/
private theorem Swept.collects (h : Hierarchy v r) (swept : Swept v r up q)
    (registered : r.get? id = some c) (holder : v.isDataHolder c = true)
    (new : id ∉ up.map Holder.id) (ready : Ready v r (up.map Holder.id) id)
    (hq : q.get? id = some c) {own : List Field}
    (read : (readBody v c.bind.body c.bind.members).2 = .ok own) :
    ∃ m, collect v ((q.modify id ClassDecl.bind).set id (readClass v c.bind)) id c.mro
      (.ok own) = .ok m := by
  obtain ⟨tail, hmro⟩ := h.mro_eq registered
  have hcalm := (h.prepared registered).calm
  have hget := get?_bound_set hq (readClass v c.bind)
  generalize (q.modify id ClassDecl.bind).set id (readClass v c.bind) = q' at hget
  have hself : q'.get? id = some (readClass v c.bind) := by rw [hget, if_pos rfl]
  have hother : ∀ a, a ≠ id → q'.get? a = q.get? a := fun a ha => by
    rw [hget, if_neg (Ne.symm ha)]
  have hsame := recordAt_of_get? (v := v) hq hget rfl
  obtain ⟨layered, hrecorded, -⟩ := layered_of_broughtUp (swept.broughtUp.change hsame)
  obtain ⟨found, hfound⟩ := swept.contribute registered holder new ready hrecorded hother
  obtain ⟨m, hm⟩ : ∃ m, gather v q' c.mro (.ok own) = .ok m := ⟨_, by rw [gather, hfound]⟩
  have hclosed : Closed up := by
    intro b hb a ha hmem
    obtain ⟨d, hd, hbmro⟩ := swept.origin b hb
    obtain ⟨e, he, hamro⟩ := swept.origin a ha
    rw [hbmro] at hmem ⊢
    rw [hamro]
    exact h.closed b.id d hd a.id hmem e he
  have hquiet : ∀ a d, q'.get? a = some d → Quiet d.members := by
    intro a d hd
    rw [hget] at hd
    split at hd
    · cases hd
      rw [readClass, readBody_eq_scan]
      exact (hcalm.scan v _).1.quiet
    · exact swept.quiet a d hd
  have hready : unresolved? q' id m.plain = none := by
    rw [unresolved?, List.findSome?_eq_none_iff]
    intro f hf
    apply waitsFor?_eq_none hself hquiet
    intro hinit
    rcases (mem_plain_of_gather hm).2 f hf with hown | ⟨-, a, ha, hfa⟩
    · -- A field of the class itself is seen on the class.
      obtain ⟨w, hw, -⟩ := exists_written_of_own hcalm read hown
      have hmem : id ∈ c.mro := by
        rw [hmro]
        exact List.mem_cons_self
      exact ⟨id, hmem, isSome_shown? hself (by rw [hw]; rfl)⟩
    · -- A field that is inherited is seen on the class that declares it.
      obtain ⟨b, hb, hbmem, hfields⟩ := exists_holder_of_recorded hrecorded ha
      rw [hfields] at hfa
      obtain ⟨b', hb', hbmro, hdeclared⟩ := layered.exists_declaring hclosed b hb f hfa
      obtain ⟨d, hd, hwritten⟩ := swept.written b' hb' f hdeclared hinit
      obtain ⟨e, he, hemro⟩ := swept.origin b hb
      have hmem : b'.id ∈ c.mro :=
        h.closed id c registered b.id (interior_subset _ hbmem) e he (hemro ▸ hbmro)
      have hne : b'.id ≠ id := fun hid => new (hid ▸ List.mem_map_of_mem hb')
      exact ⟨b'.id, hmem, isSome_shown? (by rw [hother _ hne, hd]) hwritten⟩
  refine ⟨m, ?_⟩
  rw [collect, hm]
  dsimp only
  rw [hready]

/-- A class that a sweep has come to is as it was at first. -/
private theorem Swept.get?_new (swept : Swept v r up q) (registered : r.get? id = some c)
    (holder : v.isDataHolder c = true) (new : id ∉ up.map Holder.id) : q.get? id = some c := by
  rw [swept.waiting id new, get?_bindOthers, registered, Option.map_some, if_pos holder]

/-- The run of a class whose data holders above it have been brought up completes. -/
private theorem Swept.completes (h : Hierarchy v r) (swept : Swept v r up q)
    (registered : r.get? id = some c) (holder : v.isDataHolder c = true)
    (new : id ∉ up.map Holder.id) (ready : Ready v r (up.map Holder.id) id) :
    ∃ answer, (raise v q id).result = .ok answer := by
  have hq := swept.get?_new registered holder new
  have hbound : (q.modify id ClassDecl.bind).get? id = some c.bind := by
    rw [Registry.get?_modify, if_pos rfl, hq, Option.map_some]
  obtain ⟨own, hown⟩ : ∃ own, (readBody v c.bind.body c.bind.members).2 = .ok own := by
    rw [readBody_eq_scan]
    obtain ⟨-, fields, hfields, -⟩ := (h.prepared registered).calm.scan v (declarations c.bind.body)
    exact ⟨fields, hfields⟩
  obtain ⟨m, hm⟩ := swept.collects h registered holder new ready hq hown
  rw [raise, run_of_get? v hbound, hown, show c.bind.mro = c.mro from rfl, hm]
  exact ⟨_, rfl⟩

/-- The data holders above a class that has been brought up have been so before it. -/
private theorem Swept.complete_cons (h : Hierarchy v r) (swept : Swept v r up q)
    (registered : r.get? id = some c) (ready : Ready v r (up.map Holder.id) id)
    (own fields : List Field) :
    ∀ b ∈ (⟨id, c.mro, own, fields⟩ :: up : List Holder), ∀ a ∈ b.mro, ∀ d, r.get? a = some d →
      v.isDataHolder d = true → a ∈ id :: up.map Holder.id := by
  intro b hb a ha d hd hdata
  rcases List.mem_cons.mp hb with rfl | hb
  · obtain ⟨tail, hmro⟩ := h.mro_eq registered
    rw [hmro] at ha
    rcases List.mem_cons.mp ha with rfl | ha
    · exact List.mem_cons_self
    · exact List.mem_cons_of_mem _ (ready c registered a (by rw [hmro]; exact ha) d hd hdata)
  · exact List.mem_cons_of_mem _ (swept.complete b hb a ha d hd hdata)

/-- A sweep goes on: the run of a class whose data holders above it have been brought up
completes, and the class has been brought up with them. -/
theorem Swept.next (h : Hierarchy v r) (swept : Swept v r up q)
    (registered : r.get? id = some c) (holder : v.isDataHolder c = true)
    (new : id ∉ up.map Holder.id) (ready : Ready v r (up.map Holder.id) id) :
    ∃ answer own, (raise v q id).result = .ok answer ∧
      Swept v r (⟨id, c.mro, own, answer.fields⟩ :: up) (raise v q id).registry := by
  obtain ⟨tail, hmro⟩ := h.mro_eq registered
  have hcalm := (h.prepared registered).calm
  have hq := swept.get?_new registered holder new
  have hbound : (q.modify id ClassDecl.bind).get? id = some c.bind := by
    rw [Registry.get?_modify, if_pos rfl, hq, Option.map_some]
  obtain ⟨answer, hok⟩ := swept.completes h registered holder new ready
  obtain ⟨own, m, hown, hm, -, hregistry, hget⟩ := run_of_ok hbound hok
  have hafter : ∀ a, (raise v q id).registry.get? a =
      if id = a then some (completed v (q.modify id ClassDecl.bind) id c.bind m)
      else q.get? a := by
    intro a
    rw [raise, hregistry]
    exact get?_bound_set hq _ a
  have honce : ((declarations c.bind.body).map fun a => a.target.name).Nodup := by
    rw [names_bind]
    exact h.once id c registered
  refine ⟨answer, own, hok, ?_, ?_, ?_, ?_, ?_, ?_⟩
  · have hbefore : BroughtUp v up (q.modify id ClassDecl.bind) :=
      swept.broughtUp.change (recordAt_of_get? hq (get?_bound hq) rfl)
    have hapart : id ∉ tail := by
      intro hmem
      exact new (ready c registered id (by rw [hmro]; exact hmem) c registered holder)
    refine hbefore.run (c := c.bind) hbound hmro hapart ?_ honce hown hok
    exact fun b hb hmem => new (swept.complete b hb id hmem c registered holder)
  · intro a ha
    rw [List.map_cons, List.mem_cons, not_or] at ha
    rw [hafter, if_neg (Ne.symm ha.1), swept.waiting a ha.2]
  · intro b hb
    rcases List.mem_cons.mp hb with rfl | hb
    · exact ⟨c, registered, rfl⟩
    · exact swept.origin b hb
  · exact swept.complete_cons h registered ready own answer.fields
  · intro a d hd
    rw [hafter] at hd
    split at hd
    · cases hd
      have hread : Calm (readClass v c.bind).members := by
        rw [readClass, readBody_eq_scan]
        exact (hcalm.scan v _).1
      exact quiet_completed hread
    · exact swept.quiet a d hd
  · intro b hb f hf hinit
    rcases List.mem_cons.mp hb with rfl | hb
    · have hnames : (own.map Field.name).Nodup := by
        rw [names_of_readBody v hown]
        exact honce.sublist (List.filter_sublist.map _)
      refine ⟨_, hget, isSome_written?_completed hcalm hown hm hnames hf hinit ?_⟩
      intro he
      apply h.apart id c registered
      rw [he, ← names_of_readBody v hown]
      exact List.mem_map_of_mem hf
    · obtain ⟨d, hd, hwritten⟩ := swept.written b hb f hf hinit
      have hne : id ≠ b.id := fun hid => new (hid ▸ List.mem_map_of_mem hb)
      exact ⟨d, by rw [hafter, if_neg hne, hd], hwritten⟩

/-- One sweep over all data holders of a hierarchy, ancestors first, completes every run. -/
theorem sweep_completes (h : Hierarchy v r) {order : List ClassId}
    (all : ∀ id, id ∈ order ↔ ∃ c, r.get? id = some c ∧ v.isDataHolder c = true)
    (ordered : AncestorsFirst v r [] order) :
    ∀ s ∈ sweep v (bindOthers v r) order, ∃ answer, s.result = .ok answer := by
  have hall : ∀ id ∈ order, ∃ c, r.get? id = some c ∧ v.isDataHolder c = true :=
    fun id hid => (all id).mp hid
  clear all
  have hswept := h.swept
  have hdone : ([] : List Holder).map Holder.id = [] := rfl
  rw [← hdone] at ordered
  generalize bindOthers v r = q at hswept ⊢
  generalize ([] : List Holder) = up at hswept ordered
  induction order generalizing up q with
  | nil => exact nofun
  | cons id order ih =>
    obtain ⟨new, ready, hrest⟩ := ordered
    obtain ⟨c, registered, holder⟩ := hall id List.mem_cons_self
    obtain ⟨answer, own, hok, hnext⟩ := hswept.next h registered holder new ready
    intro s hs
    rcases List.mem_cons.mp hs with rfl | hs
    · exact ⟨answer, hok⟩
    · exact ih (fun a ha => hall a (List.mem_cons_of_mem _ ha)) _ _ hnext hrest s hs

end Sweep

/-- A root, a class that is no data holder, a base with a field that the constructor takes alone,
and a frozen class below it that declares the other field of the base again. -/
private def family : Registry :=
  let field (name : String) (ty : Ty) : Statement :=
    .assign { target := { name }, declaredTy := some (.resolved ty) }
  ⟨[{ name := "object", fullname := "object", mro := [0] },
    { name := "Mixin", fullname := "Mixin", mro := [1, 3, 2, 0], body := [field "y" .any] },
    { name := "Base", fullname := "Base", mro := [2, 0]
      decorators := [request "dataclass" "order" true]
      body := [field "x" (.named "builtins.int"),
        field "seed" (.inst "dataclasses.InitVar" [.named "builtins.int"])] },
    { name := "Point", fullname := "Point", mro := [3, 2, 0]
      decorators := [request "dataclass" "frozen" true]
      body := [field "x" (.named "builtins.str"), field "y" (.named "builtins.int")] }]⟩

private theorem forall_family {P : ClassId → ClassDecl → Prop}
    (h : ∀ i : Fin family.classes.length, P i family.classes[i]) :
    ∀ id c, family.get? id = some c → P id c := by
  intro id c hc
  obtain ⟨hlt, rfl⟩ := List.getElem?_eq_some_iff.mp hc
  exact h ⟨id, hlt⟩

private theorem hierarchy_family : Hierarchy {} family where
  members := forall_family (by decide)
  records := by
    intro id c hc
    have hmem : c ∈ family.classes := List.mem_of_getElem? hc
    rcases hmem with _ | ⟨_, _ | ⟨_, _ | ⟨_, _ | ⟨_, hnil⟩⟩⟩⟩
    · rfl
    · rfl
    · rfl
    · rfl
    · cases hnil
  known := forall_family (by unfold Known; decide)
  once := forall_family (by decide)
  apart := forall_family (by decide)
  first := forall_family (by decide)
  closed := forall_family (by decide)

theorem sweep_completes_family : AncestorsFirst {} family [] [2, 3] ∧
    ∀ s ∈ sweep {} (bindOthers {} family) [2, 3], ∃ answer, s.result = .ok answer := by
  have all : ∀ id, id ∈ [2, 3] ↔
      ∃ c, family.get? id = some c ∧ ({} : Vocabulary).isDataHolder c = true := by
    intro id
    constructor
    · intro hid
      rcases hid with _ | ⟨_, _ | ⟨_, hnil⟩⟩
      · exact ⟨_, rfl, by decide⟩
      · exact ⟨_, rfl, by decide⟩
      · cases hnil
    · rintro ⟨c, hc, holder⟩
      have hmem : ∀ id c, family.get? id = some c →
          ({} : Vocabulary).isDataHolder c = true → id ∈ [2, 3] := forall_family (by decide)
      exact hmem id c hc holder
  have ordered : AncestorsFirst {} family [] [2, 3] := by
    unfold AncestorsFirst AncestorsFirst AncestorsFirst Ready
    decide
  exact ⟨ordered, sweep_completes hierarchy_family all ordered⟩

end Synthesis

end DataHolder
