import DataHolder.Proofs.ParameterOrder

/-!
# What the switches ask for

The guards of generation stand in several places and look at a table that is being filled. Put
together they depend on two things alone: the switches, and the names under which the class has
written members before the run. `requested` lists the names to generate from these, and
`orderingReports` the reports; `generated_as_requested` says that a completed run generates and
reports this and nothing else.
-/

namespace DataHolder

/-! ## Reading the switches -/

/-- The keyword that sets a switch. -/
def Flag.keyword : Flag → String
  | .init => "init"
  | .eq => "eq"
  | .order => "order"
  | .frozen => "frozen"

theorem Flag.ofKeyword?_eq_some_iff (keyword : String) (flag : Flag) :
    Flag.ofKeyword? keyword = some flag ↔ keyword = flag.keyword := by
  constructor
  · intro h
    unfold Flag.ofKeyword? at h
    split at h
    · next he => cases h; exact he
    · split at h
      · next he => cases h; exact he
      · split at h
        · next he => cases h; exact he
        · split at h
          · next he => cases h; exact he
          · cases h
  · rintro rfl
    cases flag <;> decide

namespace Flags

/-- The value of one switch. -/
def get (f : Flags) : Flag → Bool
  | .init => f.init
  | .eq => f.eq
  | .order => f.order
  | .frozen => f.frozen

theorem get_set (f : Flags) (flag other : Flag) (b : Bool) :
    (f.set flag b).get other = if flag = other then b else f.get other := by
  cases flag <;> cases other <;> rfl

/-- The boolean literals that a keyword is given, in call order. -/
def literals (keyword : String) (args : List (String × Expr)) : List Bool :=
  (args.filter fun arg => arg.1 = keyword).filterMap fun arg => arg.2.bool?

private theorem get_step (f : Flags) (arg : String × Expr) (flag : Flag) :
    (f.step arg).get flag =
      if arg.1 = flag.keyword then arg.2.bool?.getD (f.get flag) else f.get flag := by
  rw [step]
  cases hk : Flag.ofKeyword? arg.1 with
  | none =>
    have hne : arg.1 ≠ flag.keyword := by
      intro he
      rw [(Flag.ofKeyword?_eq_some_iff _ _).mpr he] at hk
      cases hk
    rw [if_neg hne]
  | some own =>
    have hown := (Flag.ofKeyword?_eq_some_iff _ _).mp hk
    have hiff : arg.1 = flag.keyword ↔ own = flag := by
      rw [← Flag.ofKeyword?_eq_some_iff, hk, Option.some_inj]
    cases hb : arg.2.bool? with
    | none => simp
    | some b =>
      dsimp only
      rw [get_set, Option.getD_some]
      simp only [hiff]

private theorem literals_cons (keyword : String) (arg : String × Expr)
    (args : List (String × Expr)) :
    literals keyword (arg :: args) =
      if arg.1 = keyword then arg.2.bool?.toList ++ literals keyword args
      else literals keyword args := by
  rw [literals, List.filter_cons]
  by_cases hname : arg.1 = keyword
  · rw [if_pos (by simpa using hname), if_pos hname, List.filterMap_cons]
    cases arg.2.bool? <;> rfl
  · rw [if_neg (by simpa using hname), if_neg hname]
    rfl

/-- Of the literals that a keyword is given the last one counts, over what the switch was. -/
theorem get_foldl_step (f : Flags) (args : List (String × Expr)) (flag : Flag) :
    (args.foldl step f).get flag = (literals flag.keyword args).getLast?.getD (f.get flag) := by
  induction args generalizing f with
  | nil => rfl
  | cons arg args ih =>
    rw [List.foldl_cons, ih, get_step, literals_cons]
    by_cases hname : arg.1 = flag.keyword
    · rw [if_pos hname, if_pos hname]
      cases arg.2.bool? with
      | none => rfl
      | some b =>
        rw [Option.toList_some, List.singleton_append, List.getLast?_cons, Option.getD_some,
          Option.getD_some]
    · rw [if_neg hname, if_neg hname]

/-- The report on a switch that is given anything but a boolean literal. -/
def keywordReport (position : Position) (keyword : String) : Diagnostic :=
  { kind := .nonBooleanFlag, position
    message := Diagnostic.Kind.withDetail .nonBooleanFlag keyword }

/-- Whether a keyword argument sets a switch and is no boolean literal. -/
def isMisuse (arg : String × Expr) : Bool :=
  ["init", "eq", "order", "frozen"].contains arg.1 && arg.2.bool?.isNone

private theorem misuse?_eq (position : Position) (arg : String × Expr) :
    misuse? position arg = if isMisuse arg then some (keywordReport position arg.1) else none := by
  have hknown : ["init", "eq", "order", "frozen"].contains arg.1 =
      (Flag.ofKeyword? arg.1).isSome := by
    rw [Bool.eq_iff_iff, Option.isSome_iff_exists, List.contains_iff_mem]
    simp only [Flag.ofKeyword?_eq_some_iff]
    constructor
    · intro h
      simp only [List.mem_cons, List.not_mem_nil, or_false] at h
      rcases h with h | h | h | h
      · exact ⟨.init, h⟩
      · exact ⟨.eq, h⟩
      · exact ⟨.order, h⟩
      · exact ⟨.frozen, h⟩
    · rintro ⟨flag, h⟩
      rw [h]
      cases flag <;> decide
  rw [isMisuse, hknown, misuse?]
  cases Flag.ofKeyword? arg.1 <;> cases arg.2.bool? <;> rfl

theorem misuses_eq (decorator : Option Expr) (position : Position) :
    misuses decorator position =
      ((keywords decorator).filter isMisuse).map fun arg => keywordReport position arg.1 := by
  rw [misuses, ← List.filterMap_eq_filter, List.map_filterMap]
  apply List.filterMap_congr
  intro arg _
  rw [misuse?_eq]
  cases h : isMisuse arg <;> simp [Option.guard, h]

end Flags

/-! ## What is written -/

namespace ClassDecl

/-- The names under which a class has written members. -/
def writtenNames (c : ClassDecl) : List String :=
  (c.members.entries.filter fun e => !e.2.generated).map Prod.fst

theorem mem_writtenNames {c : ClassDecl} {name : String} :
    name ∈ c.writtenNames ↔ (c.written? name).isSome = true := by
  constructor
  · intro h
    obtain ⟨⟨name, m⟩, hm, rfl⟩ := List.mem_map.mp h
    obtain ⟨hmem, hwritten⟩ := List.mem_filter.mp hm
    rw [written?, (Table.mem_entries_iff _ _ _).mp hmem, Option.filter_some, if_pos hwritten]
    rfl
  · intro h
    obtain ⟨m, hm⟩ := Option.isSome_iff_exists.mp h
    obtain ⟨hget, hwritten⟩ := Option.filter_eq_some_iff.mp hm
    exact List.mem_map.mpr
      ⟨(name, m), List.mem_filter.mpr ⟨(Table.mem_entries_iff _ _ _).mpr hget, hwritten⟩, rfl⟩

/-- Where a member stands; one without a position stands where the class does. -/
def positionOf (c : ClassDecl) (name : String) : Position :=
  ((c.members.get? name).bind fun m => m.symbol.position?).getD c.position

end ClassDecl

namespace Synthesis

/-! ## What is asked for -/

/-- The names that the switches ask for, where some names are written: the constructor, where there
are fields; the type variable, where any comparison method is wanted; the equality methods, where
the first of them is not written; and the ordering methods. -/
def requested (v : Vocabulary) (flags : Flags) (hasFields : Bool) (written : List String) :
    List String :=
  (if flags.init ∧ "__init__" ∉ written ∧ hasFields then ["__init__"] else []) ++
  (if flags.order ∨ flags.eq ∧ "__eq__" ∉ written then [v.selfTypeVar] else []) ++
  (if flags.eq ∧ "__eq__" ∉ written then
    "__eq__" :: if "__ne__" ∉ written then ["__ne__"] else []
  else []) ++
  (if flags.order ∧ flags.eq then
    ["__lt__", "__gt__", "__le__", "__ge__"].filter fun name => name ∉ written
  else [])

/-- The report on a written ordering method. -/
def orderingReport (c : ClassDecl) (name : String) : Diagnostic :=
  { kind := .writtenOrdering, position := c.positionOf name
    message := Diagnostic.Kind.withDetail .writtenOrdering name
    related := [⟨c.position, "order=True requested here"⟩]
    hints := (Diagnostic.Kind.hint? .writtenOrdering).toList }

/-- The reports on ordering that the switches give rise to. -/
def orderingReports (flags : Flags) (c : ClassDecl) : Log :=
  if flags.order ∧ flags.eq then
    (["__lt__", "__gt__", "__le__", "__ge__"].filter fun name => name ∈ c.writtenNames).map
      (orderingReport c)
  else if flags.order then
    [{ kind := .orderWithoutEq, position := c.position
       message := Diagnostic.Kind.base .orderWithoutEq }]
  else []

section Asked

variable {v : Vocabulary} {r : Registry} {id : ClassId} {c : ClassDecl} {m : Collection}

/-- A class that was read and cleared has members under the written names alone. -/
theorem contains_cleared (name : String) :
    (readClass v c).clearGenerated.members.contains name = decide (name ∈ c.writtenNames) := by
  rw [Table.contains, ClassDecl.get?_clearGenerated, isSome_written?_readClass]
  simp [ClassDecl.mem_writtenNames]

private theorem isNone_written?_cleared (name : String) :
    ((readClass v c).clearGenerated.written? name).isNone = decide (name ∉ c.writtenNames) := by
  rw [ClassDecl.written?_clearGenerated, ← Option.not_isSome, isSome_written?_readClass, decide_not]
  simp only [ClassDecl.mem_writtenNames, Bool.decide_eq_true]

/-- Reading leaves every member where it stands. -/
private theorem position?_readClass (name : String) :
    ((readClass v c).members.get? name).bind (fun m => m.symbol.position?) =
      (c.members.get? name).bind fun m => m.symbol.position? := by
  rw [readClass, readBody_eq_scan]
  rcases get?_scan v (declarations c.body) c.members name with h | ⟨x, ty, generated, hx, -, h⟩
  · rw [h]
  · rw [h, hx]
    rfl

private theorem writtenOrdering?_cleared (name : String) :
    writtenOrdering? (readClass v c).clearGenerated name =
      if name ∈ c.writtenNames then some (orderingReport c name) else none := by
  have hposition := position?_readClass (v := v) (c := c) name
  have hmem : name ∈ c.writtenNames ↔ ((readClass v c).written? name).isSome = true := by
    rw [isSome_written?_readClass, ClassDecl.mem_writtenNames]
  rw [writtenOrdering?, ClassDecl.written?_clearGenerated]
  cases hw : (readClass v c).written? name with
  | none =>
    rw [hw] at hmem
    rw [if_neg fun h => Bool.false_ne_true (hmem.mp h)]
    rfl
  | some w =>
    rw [hw] at hmem
    rw [(Option.filter_eq_some_iff.mp hw).1, Option.bind_some] at hposition
    rw [Option.map_some, if_pos (hmem.mpr rfl), orderingReport, ClassDecl.positionOf, ← hposition]
    rfl

private theorem wantsEquality_cleared (flags : Flags) :
    wantsEquality flags (readClass v c).clearGenerated =
      decide (flags.eq ∧ "__eq__" ∉ c.writtenNames) := by
  rw [wantsEquality, contains_cleared]
  simp

/-- The type variable is no method, so it takes the place of none. -/
private theorem bne_selfTypeVar (apart : v.selfTypeVar ∉ methodNames) {name : String}
    (h : name ∈ methodNames) : (v.selfTypeVar == name) = false := by
  apply beq_eq_false_iff_ne.mpr
  rintro rfl
  exact apart h

/-- The names of the comparison methods that a run adds. -/
private theorem addedComparisons_eq (apart : v.selfTypeVar ∉ methodNames) (flags : Flags) :
    addedComparisons v flags (readClass v c).clearGenerated =
      (if flags.eq ∧ "__eq__" ∉ c.writtenNames then
        "__eq__" :: if "__ne__" ∉ c.writtenNames then ["__ne__"] else []
      else []) ++
      (if flags.order ∧ flags.eq then
        ["__lt__", "__gt__", "__le__", "__ge__"].filter fun name => name ∉ c.writtenNames
      else []) := by
  have hequality : (equalityMethods.filter fun name =>
        v.selfTypeVar != name && !(readClass v c).clearGenerated.members.contains name) =
      equalityMethods.filter fun name => name ∉ c.writtenNames := by
    apply List.filter_congr
    intro name hname
    rw [bne, bne_selfTypeVar apart (List.mem_cons_of_mem _ (List.mem_append_left _ hname)),
      contains_cleared]
    simp
  have hordering : (orderingMethods.filter fun name => v.selfTypeVar == name ||
        ((readClass v c).clearGenerated.written? name).isNone) =
      orderingMethods.filter fun name => name ∉ c.writtenNames := by
    apply List.filter_congr
    intro name hname
    rw [bne_selfTypeVar apart (List.mem_cons_of_mem _ (List.mem_append_right _ hname)),
      isNone_written?_cleared, Bool.false_or]
  rw [addedComparisons, hequality, hordering, wantsEquality_cleared]
  congr 1
  · by_cases hwants : flags.eq ∧ "__eq__" ∉ c.writtenNames
    · rw [if_pos (decide_eq_true hwants), if_pos hwants, equalityMethods, List.filter_cons,
        if_pos (decide_eq_true hwants.2), List.filter_cons, List.filter_nil]
      simp
    · rw [if_neg (by simpa using hwants), if_neg hwants]
  · simp only [Bool.and_eq_true]
    rfl

/-- The names of the members that a run adds: the constructor, the type variable, and the comparison
methods. -/
theorem names_added :
    let flags := Flags.ofDecorator (v.decorator? c)
    (added v r id c m).map Prod.fst =
      (if flags.init ∧ "__init__" ∉ c.writtenNames ∧ !m.plain.isEmpty then ["__init__"] else []) ++
      (if flags.order ∨ flags.eq ∧ "__eq__" ∉ c.writtenNames then [v.selfTypeVar] else []) ++
      addedComparisons v flags (readClass v c).clearGenerated := by
  have hinit (flags : Flags) (parameters : List Parameter) (hasFields : Bool) :
      (addedInit flags parameters hasFields (readClass v c).clearGenerated).map Prod.fst =
        if flags.init ∧ "__init__" ∉ c.writtenNames ∧ hasFields then ["__init__"] else [] := by
    rw [addedInit, contains_cleared, apply_ite (List.map Prod.fst)]
    simp [and_assoc]
  have htypeVar (flags : Flags) :
      (addedTypeVar v flags (readClass v c).clearGenerated).map Prod.fst =
        if flags.order ∨ flags.eq ∧ "__eq__" ∉ c.writtenNames then [v.selfTypeVar] else [] := by
    rw [addedTypeVar, wantsTypeVar, wantsEquality_cleared, apply_ite (List.map Prod.fst)]
    simp [or_comm]
  have hnames (names : List String) (f : String → Symbol) :
      (names.map fun name => (name, f name)).map Prod.fst = names := by
    rw [List.map_map]
    exact List.map_id _
  dsimp only
  rw [added, additions, List.map_append, List.map_append, hinit, htypeVar, hnames]

/-- They are those that the switches ask for. -/
theorem names_added_eq (apart : v.selfTypeVar ∉ methodNames) :
    (added v r id c m).map Prod.fst =
      requested v (Flags.ofDecorator (v.decorator? c)) (!m.plain.isEmpty) c.writtenNames := by
  rw [names_added, addedComparisons_eq apart, requested, ← List.append_assoc]

/-- So are the reports on ordering. -/
theorem orderReports_eq (apart : v.selfTypeVar ∉ methodNames) (flags : Flags) :
    orderReports v flags (readClass v c).clearGenerated = orderingReports flags c := by
  have hwritten : (orderingMethods.filterMap fun name =>
        if v.selfTypeVar = name then none
        else writtenOrdering? (readClass v c).clearGenerated name) =
      (orderingMethods.filter fun name => name ∈ c.writtenNames).map (orderingReport c) := by
    rw [← List.filterMap_eq_filter, List.map_filterMap]
    apply List.filterMap_congr
    intro name hname
    have hne := bne_selfTypeVar apart (List.mem_cons_of_mem _ (List.mem_append_right _ hname))
    rw [if_neg (beq_eq_false_iff_ne.mp hne), writtenOrdering?_cleared]
    by_cases hmem : name ∈ c.writtenNames <;> simp [hmem, Option.guard]
  rw [orderReports, orderingReports, hwritten]
  cases flags.order <;> cases flags.eq <;> rfl

/-! ## What a run generates and reports -/

/-- A completed run reads each switch as the last boolean literal that its keyword is given to the
first recognized decorator, generates the members that the switches ask for beside the written ones,
in this order, and reports, in this order: the merged fields that come too late in the constructor,
the keywords whose value is no boolean literal, and what stands in the way of ordering. -/
theorem generated_as_requested {s : Synthesis} (registered : r.get? id = some c)
    (completes : (run v r id).result = .ok s) (apart : v.selfTypeVar ∉ methodNames) :
    (∀ flag, s.flags.get flag =
      (Flags.literals flag.keyword (Flags.keywords (v.decorator? c))).getLast?.getD
        (({} : Flags).get flag)) ∧
    s.generated = requested v s.flags (!s.fields.isEmpty) c.writtenNames ∧
    (run v r id).log =
      (behind Field.isOptional Field.isRequired s.fields).map lateReport ++
      ((Flags.keywords (v.decorator? c)).filter Flags.isMisuse).map
        (fun arg => Flags.keywordReport c.position arg.1) ++
      orderingReports s.flags c := by
  have hlog := log_of_ok registered completes
  rw [orderLog_eq, Flags.misuses_eq, orderReports_eq apart] at hlog
  obtain ⟨own, m, -, -, rfl, -⟩ := run_of_ok registered completes
  exact ⟨Flags.get_foldl_step {} _, names_added_eq apart, hlog⟩

/-- A class that asks for ordering, writes an equality and an ordering method itself, and gives a
switch a number. -/
private def ranked : ClassDecl :=
  { name := "Ranked", fullname := "Ranked", mro := [1, 0], position := ⟨2, 0⟩
    decorators :=
      [.call (.name { name := "dataclass" })
        [{ keyword := some "order", value := .bool false },
          { keyword := some "init", value := .int 1 },
          { keyword := some "order", value := .bool true }]]
    body :=
      [.assign
        { target := { name := "rank" }, declaredTy := some (.resolved (.named "builtins.int"))
          value := .empty, position := ⟨3, 4⟩ },
        .method (comparing "__ne__" 4), .method (comparing "__lt__" 6)] }
where
  /-- A written method in some line. -/
  comparing (name : String) (line : UInt32) : Method :=
    { name, fullname := "Ranked." ++ name, parameters := [], result := .any, position := ⟨line, 4⟩ }

/-- The registry in which the class is to be run. -/
private def ranks : Registry :=
  ⟨[{ name := "object", fullname := "object", mro := [0] }, ranked.bind]⟩

theorem generated_as_requested_ranked :
    requested {} { order := true } true ranked.bind.writtenNames =
      ["__init__", "_DT", "__eq__", "__gt__", "__le__", "__ge__"] ∧
    (run {} ranks 1).log =
      [Flags.keywordReport ⟨2, 0⟩ "init", orderingReport ranked.bind "__lt__"] ∧
    ranked.bind.positionOf "__lt__" = ⟨6, 4⟩ := by
  have completes : (run {} ranks 1).result =
      .ok
        { fields := [{ name := "rank", position := ⟨3, 4⟩ }]
          flags := { order := true }
          generated := ["__init__", "_DT", "__eq__", "__gt__", "__le__", "__ge__"]
          dependencies := [] } := rfl
  obtain ⟨-, hgenerated, hlog⟩ :=
    generated_as_requested (rfl : ranks.get? 1 = some ranked.bind) completes (by decide)
  exact ⟨hgenerated.symm, hlog, rfl⟩

end Asked

end Synthesis

end DataHolder
