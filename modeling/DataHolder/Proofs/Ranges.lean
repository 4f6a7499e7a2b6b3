import DataHolder.Excerpt.Report
import DataHolder.Proofs.TextBytes

/-!
# Where ranges lie

A position stands behind the last line of a text, at the end of its line, at an identifier, at
another character, or inside one. `PointsAt` gives the range for each of these cases, in terms of
the characters before the position, and `pointsAt_range` says that no other range is computed. It
follows that ranges stay on their lines. They cover whole characters but in two cases: where the
position itself lies inside a character, and where a character of several bytes that belongs to no
identifier starts there, since one byte is marked of that. Such ranges cannot be drawn.
-/

namespace DataHolder.Excerpt

/-! ## Lines -/

/-- A line of a text between what stands before it and what stands behind it, where the newline
that ends it belongs to what stands behind it. -/
structure IsLine (source before line after : List Char) : Prop where
  split : source = before ++ line ++ after
  opens : ∀ c ∈ before.getLast?, c = '\n'
  single : '\n' ∉ line
  closes : ∀ c ∈ after.head?, c = '\n'

/-- The line that a position addresses: as many newlines stand before it as its number says, which
counts from one. -/
structure IsAddressed (p : Position) (source before line after : List Char) : Prop extends
    IsLine source before line after where
  index : before.count '\n' = p.line.toNat - 1

variable {source before line after : List Char} {p : Position}

/-- One more character in front moves a line, where it is a newline or others stand between. -/
theorem IsLine.cons {c : Char} (h : IsLine source before line after)
    (opens : before = [] → c = '\n') : IsLine (c :: source) (c :: before) line after := by
  refine ⟨by rw [h.split]; rfl, ?_, h.single, h.closes⟩
  intro d hd
  rw [List.getLast?_cons, Option.mem_some_iff] at hd
  subst hd
  cases hlast : before.getLast? with
  | none => exact opens (List.getLast?_eq_none_iff.mp hlast)
  | some d => exact h.opens d hlast

/-- The first line of a text ends at its first newline. -/
theorem firstLine_append (single : '\n' ∉ line) (closes : ∀ c ∈ after.head?, c = '\n') :
    firstLine (line ++ after) = line := by
  have hline : ∀ c ∈ line, (c != '\n') = true := by
    intro c hc
    simpa using ne_of_mem_of_not_mem hc single
  rw [firstLine, List.takeWhile_append_of_pos hline]
  cases after with
  | nil => simp
  | cons c cs => simp [closes c rfl]

/-- Without its first lines, a text starts behind as many newlines. -/
theorem dropLines_append (opens : ∀ c ∈ before.getLast?, c = '\n') :
    dropLines (before.count '\n') (before ++ after) = after := by
  induction before with
  | nil => cases after <;> rfl
  | cons c cs ih =>
    have hlast : cs.getLast?.getD c = '\n' := opens _ (by simp [List.getLast?_cons])
    have htail := ih fun d hd => by simpa [Option.mem_def.mp hd] using hlast
    by_cases hc : c = '\n'
    · subst hc
      rw [List.count_cons_self, List.cons_append, dropLines, if_pos rfl, htail]
    · -- the newline that the part before ends with is still to come
      have hmem : '\n' ∈ cs := by
        cases hd : cs.getLast? with
        | none => exact absurd (by simpa [hd] using hlast) hc
        | some d =>
          rw [hd, Option.getD_some] at hlast
          exact hlast ▸ List.mem_of_getLast? hd
      obtain ⟨n, hn⟩ := Nat.exists_eq_succ_of_ne_zero (Nat.ne_of_gt (List.count_pos_iff.mpr hmem))
      rw [hn] at htail
      rw [List.count_cons_of_ne hc, hn, List.cons_append, dropLines, if_neg hc, htail]

/-- Behind its last line, nothing is left of a text. -/
theorem dropLines_eq_nil {n : Nat} (h : source.count '\n' < n) : dropLines n source = [] := by
  fun_induction dropLines n source with
  | case1 => omega
  | case2 => rfl
  | case3 n cs ih =>
    rw [List.count_cons_self] at h
    exact ih (by omega)
  | case4 n c cs hc ih =>
    rw [List.count_cons_of_ne hc] at h
    exact ih h

/-- A text has a line behind each of its newlines, and one before the first. -/
theorem exists_isLine {n : Nat} (h : n ≤ source.count '\n') :
    ∃ before line after, IsLine source before line after ∧ before.count '\n' = n := by
  fun_induction dropLines n source with
  | case1 cs =>
    refine ⟨[], firstLine cs, cs.dropWhile (· != '\n'), ⟨?_, by simp, ?_, ?_⟩, rfl⟩
    · rw [List.nil_append, firstLine, List.takeWhile_append_dropWhile]
    · exact fun hmem => by simpa using List.all_eq_true.mp List.all_takeWhile _ hmem
    · intro c hc
      have hnot := List.head?_dropWhile_not (· != '\n') cs
      rw [Option.mem_def.mp hc] at hnot
      simpa using hnot
  | case2 => simp at h
  | case3 n cs ih =>
    rw [List.count_cons_self] at h
    obtain ⟨before, line, after, hline, rfl⟩ := ih (by omega)
    refine ⟨'\n' :: before, line, after, ?_, List.count_cons_self⟩
    exact hline.cons fun _ => rfl
  | case4 n c cs hc ih =>
    rw [List.count_cons_of_ne hc] at h
    obtain ⟨before, line, after, hline, hcount⟩ := ih h
    refine ⟨c :: before, line, after, hline.cons fun hnil => ?_, ?_⟩
    · simp [hnil] at hcount
    · rw [List.count_cons_of_ne hc, hcount]

/-! ## Identifiers -/

/-- A newline is no part of an identifier. -/
theorem isIdentifier_newline : Text.isIdentifier '\n' = false := by decide +kernel

/-- An identifier does not go on behind the end of its line. -/
theorem takeWhile_isIdentifier_append (line : List Char)
    (closes : ∀ c ∈ after.head?, c = '\n') :
    (line ++ after).takeWhile Text.isIdentifier = line.takeWhile Text.isIdentifier := by
  induction line with
  | nil =>
    cases after with
    | nil => rfl
    | cons c cs => simp [closes c rfl, isIdentifier_newline]
  | cons c cs ih => simp [List.takeWhile_cons, ih]

/-- The identifier at the start of a text is not empty where one of its characters stands first. -/
theorem byteSize_identifier_pos {c : Char} (h : Text.isIdentifier c = true) (back : List Char) :
    0 < byteSize ((c :: back).takeWhile Text.isIdentifier) := by
  have := c.utf8Size_pos
  rw [List.takeWhile_cons_of_pos h, byteSize_cons]
  omega

/-- The size of the identifier behind some characters of a line. -/
theorem identifierSize_append (front back : List Char) :
    identifierSize (front ++ back) (byteSize front) =
      byteSize (back.takeWhile Text.isIdentifier) := by
  rw [identifierSize, dropBytes?_eq_some_iff.mpr ⟨front, rfl, rfl⟩]

/-! ## What a position points at -/

/-- A character of a line as one of the text. -/
theorem IsLine.split_at {front back : List Char} {c : Char}
    (h : IsLine source before (front ++ c :: back) after) :
    source = before ++ front ++ c :: (back ++ after) := by
  rw [h.split]
  simp

namespace IsAddressed

/-- An addressed line is one of the text, so the newlines before it are no more than there are. -/
theorem count_eq_min (h : IsAddressed p source before line after) :
    before.count '\n' = min (p.line.toNat - 1) (source.count '\n') := by
  have hle : before.count '\n' ≤ source.count '\n' := by
    rw [h.split, List.append_assoc, List.count_append]
    exact Nat.le_add_right _ _
  rw [← h.index, Nat.min_eq_left hle]

/-- The range of a position on a line, where `n` bytes of the line stand before its column. -/
theorem range_eq (h : IsAddressed p source before line after) {n : Nat}
    (column : min p.column.toNat (byteSize line) = n) :
    range source p =
      if identifierSize line n = 0 then
        ⟨byteSize before + n, min (byteSize before + n + 1) (byteSize source)⟩
      else ⟨byteSize before + n, byteSize before + n + identifierSize line n⟩ := by
  have hdrop : dropLines (p.line.toNat - 1) source = line ++ after := by
    rw [← h.index, h.split, List.append_assoc, dropLines_append h.opens]
  have hsize : byteSize source = byteSize before + byteSize (line ++ after) := by
    rw [h.split, List.append_assoc, byteSize_append]
  have hle : byteSize before + n ≤ byteSize source := by
    rw [hsize, byteSize_append]
    omega
  simp only [range, hdrop, firstLine_append h.single h.closes, column]
  rw [hsize, Nat.add_sub_cancel, ← hsize, Nat.max_eq_left hle]

/-- The range of a position between characters of a line. -/
theorem range_eq_between {front back : List Char}
    (h : IsAddressed p source before (front ++ back) after)
    (column : byteSize front = p.column.toNat) :
    range source p =
      if byteSize (back.takeWhile Text.isIdentifier) = 0 then
        ⟨byteSize (before ++ front), min (byteSize (before ++ front) + 1) (byteSize source)⟩
      else ⟨byteSize (before ++ front),
        byteSize (before ++ front) + byteSize (back.takeWhile Text.isIdentifier)⟩ := by
  have hmin : min p.column.toNat (byteSize (front ++ back)) = byteSize front := by
    rw [byteSize_append]
    omega
  rw [h.range_eq hmin, identifierSize_append, byteSize_append]

end IsAddressed

/-- What a position points at: behind the last line, at the end of its line, at an identifier, at
another character, or into a character. -/
inductive PointsAt (source : List Char) (p : Position) : ByteRange → Prop where
  | beyond (h : source.count '\n' < p.line.toNat - 1) :
      PointsAt source p ⟨byteSize source, byteSize source⟩
  | lineEnd {before line after : List Char} (addressed : IsAddressed p source before line after)
      (column : byteSize line ≤ p.column.toNat) :
      PointsAt source p ⟨byteSize (before ++ line), byteSize (before ++ line ++ after.take 1)⟩
  | identifier {before front back after : List Char} {c : Char}
      (addressed : IsAddressed p source before (front ++ c :: back) after)
      (column : byteSize front = p.column.toNat) (h : Text.isIdentifier c = true) :
      PointsAt source p ⟨byteSize (before ++ front),
        byteSize (before ++ front ++ (c :: back ++ after).takeWhile Text.isIdentifier)⟩
  | other {before front back after : List Char} {c : Char}
      (addressed : IsAddressed p source before (front ++ c :: back) after)
      (column : byteSize front = p.column.toNat) (h : Text.isIdentifier c = false) :
      PointsAt source p ⟨byteSize (before ++ front), byteSize (before ++ front) + 1⟩
  | inside {before front back after : List Char} {c : Char}
      (addressed : IsAddressed p source before (front ++ c :: back) after)
      (behind : byteSize front < p.column.toNat)
      (ahead : p.column.toNat < byteSize front + c.utf8Size) :
      PointsAt source p ⟨byteSize before + p.column.toNat, byteSize before + p.column.toNat + 1⟩

/-- The range of a position is what it points at. -/
theorem PointsAt.range_eq {r : ByteRange} (h : PointsAt source p r) : range source p = r := by
  cases h with
  | beyond h =>
    simp [range, dropLines_eq_nil h, firstLine, identifierSize]
  | @lineEnd before line after addressed column =>
    have hsize : identifierSize line (byteSize line) = 0 := by
      simpa using identifierSize_append line []
    rw [addressed.range_eq (Nat.min_eq_right column), if_pos hsize, ByteRange.mk.injEq]
    refine ⟨(byteSize_append before line).symm, ?_⟩
    -- one byte more is the newline that ends the line, if there is one
    rw [addressed.split]
    cases after with
    | nil => simp
    | cons c cs =>
      have hc : c.utf8Size = 1 := by
        rw [addressed.closes c rfl]
        rfl
      rw [List.take_succ_cons, List.take_zero, byteSize_append _ (c :: cs), byteSize_append _ [c],
        byteSize_cons, byteSize_cons, hc, byteSize_append, byteSize_nil]
      omega
  | @identifier before front back after c addressed column h =>
    rw [addressed.range_eq_between column, if_neg (Nat.ne_of_gt (byteSize_identifier_pos h back)),
      takeWhile_isIdentifier_append _ addressed.closes, ← byteSize_append]
  | @other before front back after c addressed column h =>
    have hnone : (c :: back).takeWhile Text.isIdentifier = [] :=
      List.takeWhile_cons_of_neg (by simp [h])
    have hroom : byteSize (before ++ front) + 1 ≤ byteSize source := by
      have := c.utf8Size_pos
      rw [addressed.split_at, byteSize_append _ (c :: _), byteSize_cons]
      omega
    rw [addressed.range_eq_between column, hnone, if_pos byteSize_nil, Nat.min_eq_left hroom]
  | @inside before front back after c addressed behind ahead =>
    have hmin : min p.column.toNat (byteSize (front ++ c :: back)) = p.column.toNat := by
      rw [byteSize_append, byteSize_cons]
      omega
    have hzero : identifierSize (front ++ c :: back) p.column.toNat = 0 := by
      rw [identifierSize, dropBytes?_inside behind ahead]
    have hroom : byteSize before + p.column.toNat + 1 ≤ byteSize source := by
      simp only [addressed.split, byteSize_append, byteSize_cons]
      omega
    rw [addressed.range_eq hmin, if_pos hzero, Nat.min_eq_left hroom]

/-- A position points at something. -/
theorem exists_pointsAt (source : List Char) (p : Position) : ∃ r, PointsAt source p r := by
  by_cases hbeyond : source.count '\n' < p.line.toNat - 1
  · exact ⟨_, .beyond hbeyond⟩
  obtain ⟨before, line, after, hline, hindex⟩ := exists_isLine (Nat.le_of_not_lt hbeyond)
  by_cases hend : byteSize line ≤ p.column.toNat
  · exact ⟨_, .lineEnd ⟨hline, hindex⟩ hend⟩
  obtain ⟨front, c, back, rfl, hle, hlt⟩ := exists_character (Nat.lt_of_not_le hend)
  rcases Nat.lt_or_eq_of_le hle with hin | hat
  · exact ⟨_, .inside ⟨hline, hindex⟩ hin hlt⟩
  · cases hc : Text.isIdentifier c with
    | true => exact ⟨_, .identifier ⟨hline, hindex⟩ hat hc⟩
    | false => exact ⟨_, .other ⟨hline, hindex⟩ hat hc⟩

/-- A position points at its range. -/
theorem pointsAt_range (source : List Char) (p : Position) :
    PointsAt source p (range source p) := by
  obtain ⟨r, h⟩ := exists_pointsAt source p
  exact h.range_eq ▸ h

/-! ## The line of a range -/

namespace IsLine

/-- The newlines before a byte of a line are those before the line. -/
theorem count_take (h : IsLine source before line after) {n : Nat}
    (lower : byteSize before ≤ n) (upper : n ≤ byteSize (before ++ line)) :
    ((bytes source).take n).count newline = before.count '\n' := by
  obtain ⟨k, rfl⟩ := Nat.exists_eq_add_of_le lower
  rw [byteSize_append] at upper
  have hline : newline ∉ (bytes (line ++ after)).take k := by
    rw [bytes_append, List.take_append_of_le_length (by rw [length_bytes]; omega)]
    exact fun hmem => newline_not_mem_bytes h.single (List.mem_of_mem_take hmem)
  rw [h.split, List.append_assoc, bytes_append, ← length_bytes, List.take_length_add_append,
    List.count_append, count_bytes, List.count_eq_zero.mpr hline, Nat.add_zero]

/-- A line with all newlines before it is the last one. -/
theorem after_eq_nil (h : IsLine source before line after)
    (last : before.count '\n' = source.count '\n') : after = [] := by
  rw [h.split, List.count_append, List.count_append] at last
  cases after with
  | nil => rfl
  | cons c cs =>
    rw [h.closes c rfl, List.count_cons_self] at last
    omega

end IsLine

/-- A range that starts on a line and stops there too, or behind the newline of the line. Only at
the end of the text it may be empty. -/
structure ByteRange.LiesOn (r : ByteRange) (before line after : List Char) : Prop where
  lower : byteSize before ≤ r.start
  upper : r.start ≤ byteSize (before ++ line)
  ordered : r.start ≤ r.stop
  bounded : r.stop ≤ byteSize (before ++ line ++ after.take 1)
  filled : r.start = r.stop → after = [] ∧ byteSize (before ++ line) ≤ r.start

/-- What a position points at lies on the line that it addresses, or on the last one if it
addresses none. -/
theorem PointsAt.liesOn {r : ByteRange} (h : PointsAt source p r) :
    ∃ before line after, IsLine source before line after ∧
      before.count '\n' = min (p.line.toNat - 1) (source.count '\n') ∧
      r.LiesOn before line after := by
  cases h with
  | beyond h =>
    obtain ⟨before, line, after, hline, hcount⟩ := exists_isLine (Nat.le_refl (source.count '\n'))
    obtain rfl := hline.after_eq_nil hcount
    refine ⟨before, line, [], hline, by omega, ?_⟩
    have hsplit := hline.split
    rw [List.append_nil] at hsplit
    subst hsplit
    exact ⟨by simp, Nat.le_refl _, Nat.le_refl _, by simp, fun _ => ⟨rfl, Nat.le_refl _⟩⟩
  | @lineEnd before line after addressed column =>
    refine ⟨before, line, after, addressed.toIsLine, addressed.count_eq_min, by simp, Nat.le_refl _,
      by simp, Nat.le_refl _, fun hempty => ⟨?_, Nat.le_refl _⟩⟩
    have htake : byteSize (after.take 1) = 0 := by
      simp only [byteSize_append] at hempty
      omega
    simpa using byteSize_eq_zero_iff.mp htake
  | @identifier before front back after c addressed column h =>
    refine ⟨before, front ++ c :: back, after, addressed.toIsLine, addressed.count_eq_min, ?_⟩
    have hpos := byteSize_identifier_pos h back
    have hle := byteSize_mono (List.takeWhile_prefix Text.isIdentifier (l := c :: back))
    rw [takeWhile_isIdentifier_append _ addressed.closes]
    constructor <;> simp only [byteSize_append] <;> omega
  | @other before front back after c addressed column h =>
    refine ⟨before, front ++ c :: back, after, addressed.toIsLine, addressed.count_eq_min, ?_⟩
    have := c.utf8Size_pos
    constructor <;> simp only [byteSize_append, byteSize_cons] <;> omega
  | @inside before front back after c addressed behind ahead =>
    refine ⟨before, front ++ c :: back, after, addressed.toIsLine, addressed.count_eq_min, ?_⟩
    constructor <;> simp only [byteSize_append, byteSize_cons] <;> omega

/-- A range lies in its text, on the line that its position addresses or else on the last one, and
stops behind the newline of that line at the latest. It is empty at the end of the text only, and
where an identifier starts at the position, it is the longest one there. -/
theorem range_in_source (source : List Char) (p : Position) :
    (range source p).start ≤ (range source p).stop ∧
    (range source p).stop ≤ (bytes source).length ∧
    ((bytes source).take (range source p).start).count newline =
      min (p.line.toNat - 1) (source.count '\n') ∧
    (∃ before line after, IsLine source before line after ∧
      before.count '\n' = min (p.line.toNat - 1) (source.count '\n') ∧
      byteSize before ≤ (range source p).start ∧
      (range source p).start ≤ byteSize (before ++ line) ∧
      (range source p).stop ≤ byteSize (before ++ line ++ after.take 1)) ∧
    ((range source p).start = (range source p).stop →
      (range source p).start = (bytes source).length) ∧
    ∀ before front c back after, IsAddressed p source before (front ++ c :: back) after →
      byteSize front = p.column.toNat → Text.isIdentifier c = true →
      ∃ word rest, c :: back ++ after = word ++ rest ∧
        (∀ d ∈ word, Text.isIdentifier d = true) ∧
        (∀ d ∈ rest.head?, Text.isIdentifier d = false) ∧
        range source p = ⟨byteSize (before ++ front), byteSize (before ++ front ++ word)⟩ := by
  obtain ⟨before, line, after, hline, hindex, lies⟩ := (pointsAt_range source p).liesOn
  rw [length_bytes]
  refine ⟨lies.ordered, ?_, ?_, ⟨before, line, after, hline, hindex, lies.lower, lies.upper,
    lies.bounded⟩, ?_, ?_⟩
  · refine Nat.le_trans lies.bounded (byteSize_mono ?_)
    rw [hline.split]
    exact (List.prefix_append_right_inj _).mpr (List.take_prefix 1 after)
  · rw [hline.count_take lies.lower lies.upper, hindex]
  · intro hempty
    obtain ⟨rfl, hle⟩ := lies.filled hempty
    have hsplit := hline.split
    rw [List.append_nil] at hsplit
    exact (Nat.le_antisymm lies.upper hle).trans (congrArg byteSize hsplit).symm
  · intro before front c back after addressed column h
    refine ⟨_, _, List.takeWhile_append_dropWhile.symm, List.all_eq_true.mp List.all_takeWhile, ?_,
      (PointsAt.identifier addressed column h).range_eq⟩
    intro d hd
    have hnot := List.head?_dropWhile_not Text.isIdentifier (c :: back ++ after)
    rwa [Option.mem_def.mp hd] at hnot

/-! ## Ranges of whole characters -/

/-- The character that starts at a position. -/
def StartsAt (source : List Char) (p : Position) (c : Char) : Prop :=
  ∃ before front back after, IsAddressed p source before (front ++ c :: back) after ∧
    byteSize front = p.column.toNat

/-- Whether the column of a position lies inside a character of its line. -/
def LiesInside (source : List Char) (p : Position) : Prop :=
  ∃ before front c back after, IsAddressed p source before (front ++ c :: back) after ∧
    byteSize front < p.column.toNat ∧ p.column.toNat < byteSize front + c.utf8Size

/-- Whether a character that starts at a position belongs to an identifier or takes a single
byte. -/
def StartsPlainly (source : List Char) (p : Position) : Prop :=
  ∀ c, StartsAt source p c → Text.isIdentifier c = true ∨ c.utf8Size = 1

/-- A range that covers a text, between what stands before it and what stands behind it. -/
structure ByteRange.Covers (r : ByteRange) (source before text after : List Char) : Prop where
  split : source = before ++ text ++ after
  start : r.start = byteSize before
  stop : r.stop = byteSize (before ++ text)

/-- A range for a position that can be sliced out of the text: both ends lie between characters, and
unless an identifier starts at the position, the range covers one character, or none where the text
ends. -/
structure ByteRange.IsSlice (r : ByteRange) (source : List Char) (p : Position) : Prop where
  start : (⟨r.start⟩ : String.Pos.Raw).IsValid (String.ofList source)
  stop : (⟨r.stop⟩ : String.Pos.Raw).IsValid (String.ofList source)
  covers : ∃ before text after, r.Covers source before text after ∧
    ((∃ c, StartsAt source p c ∧ Text.isIdentifier c = true) ∨ text.length = 1 ∨
      text = [] ∧ after = [])

namespace ByteRange.Covers

variable {r : ByteRange} {text : List Char}

theorem isValid_start (h : r.Covers source before text after) :
    (⟨r.start⟩ : String.Pos.Raw).IsValid (String.ofList source) :=
  isValid_ofList_iff.mpr ⟨before, text ++ after, by rw [h.split, List.append_assoc], h.start.symm⟩

theorem isValid_stop (h : r.Covers source before text after) :
    (⟨r.stop⟩ : String.Pos.Raw).IsValid (String.ofList source) :=
  isValid_ofList_iff.mpr ⟨before ++ text, after, h.split, h.stop.symm⟩

end ByteRange.Covers

/-- Inside a character, a string has no position. -/
theorem not_isValid_inside {c : Char} {n : Nat} (split : source = before ++ c :: after)
    (behind : byteSize before < n) (ahead : n < byteSize before + c.utf8Size) :
    ¬ (⟨n⟩ : String.Pos.Raw).IsValid (String.ofList source) := by
  rw [← isSome_dropBytes?_iff, split, dropBytes?_inside behind ahead]
  simp

/-- A range that starts between characters does not lie inside one. -/
theorem not_liesInside_of_isValid
    (h : (⟨(range source p).start⟩ : String.Pos.Raw).IsValid (String.ofList source)) :
    ¬ LiesInside source p := by
  rintro ⟨before, front, c, back, after, addressed, behind, ahead⟩
  rw [(PointsAt.inside addressed behind ahead).range_eq] at h
  refine not_isValid_inside addressed.split_at ?_ ?_ h
  · simpa using behind
  · simpa [Nat.add_assoc] using ahead

/-- A range that stops between characters is that of an identifier, or of a single byte. -/
theorem startsPlainly_of_isValid
    (h : (⟨(range source p).stop⟩ : String.Pos.Raw).IsValid (String.ofList source)) :
    StartsPlainly source p := by
  rintro c ⟨before, front, back, after, addressed, column⟩
  cases hc : Text.isIdentifier c with
  | true => exact .inl rfl
  | false =>
    refine .inr ?_
    rw [(PointsAt.other addressed column hc).range_eq] at h
    -- one byte is marked of the character, so it ends there if it is whole
    have hle := Nat.le_of_not_lt fun ahead =>
      not_isValid_inside addressed.split_at (Nat.lt_succ_self _) ahead h
    exact Nat.le_antisymm (by omega) c.utf8Size_pos

/-- The range of a position outside of characters covers whole ones, where no long character
outside of identifiers starts there. -/
theorem exists_covers (outside : ¬ LiesInside source p) (plain : StartsPlainly source p) :
    ∃ before text after, (range source p).Covers source before text after ∧
      ((∃ c, StartsAt source p c ∧ Text.isIdentifier c = true) ∨ text.length = 1 ∨
        text = [] ∧ after = []) := by
  generalize hr : range source p = r
  cases hr ▸ pointsAt_range source p with
  | beyond h => exact ⟨source, [], [], ⟨by simp, rfl, by simp⟩, .inr (.inr ⟨rfl, rfl⟩)⟩
  | @lineEnd before line after addressed column =>
    refine ⟨before ++ line, after.take 1, after.drop 1, ⟨?_, rfl, rfl⟩, .inr ?_⟩
    · rw [addressed.split, List.append_assoc _ (after.take 1), List.take_append_drop]
    · cases after with
      | nil => exact .inr ⟨rfl, rfl⟩
      | cons c cs => exact .inl rfl
  | @identifier before front back after c addressed column h =>
    refine ⟨before ++ front, (c :: back ++ after).takeWhile Text.isIdentifier,
      (c :: back ++ after).dropWhile Text.isIdentifier, ⟨?_, rfl, rfl⟩, .inl ?_⟩
    · rw [List.append_assoc (before ++ front), List.takeWhile_append_dropWhile]
      exact addressed.split_at
    · exact ⟨c, ⟨before, front, back, after, addressed, column⟩, h⟩
  | @other before front back after c addressed column h =>
    have hsize : c.utf8Size = 1 := by
      have := plain c ⟨before, front, back, after, addressed, column⟩
      simpa [h] using this
    refine ⟨before ++ front, [c], back ++ after, ⟨?_, rfl, ?_⟩, .inr (.inl rfl)⟩
    · rw [List.append_assoc (before ++ front)]
      exact addressed.split_at
    · rw [byteSize_append _ [c], byteSize_cons, hsize, byteSize_nil]
  | @inside before front back after c addressed behind ahead =>
    exact absurd ⟨before, front, c, back, after, addressed, behind, ahead⟩ outside

/-- The range of a position covers whole characters if and only if the position lies outside of
characters, and no long character outside of identifiers starts there. -/
theorem isWhole_range_iff :
    (range source p).isWhole source = true ↔ ¬ LiesInside source p ∧ StartsPlainly source p := by
  rw [ByteRange.isWhole, Bool.and_eq_true, isSome_dropBytes?_iff, isSome_dropBytes?_iff]
  constructor
  · rintro ⟨hstart, hstop⟩
    exact ⟨not_liesInside_of_isValid hstart, startsPlainly_of_isValid hstop⟩
  · rintro ⟨outside, plain⟩
    obtain ⟨before, text, after, covers, -⟩ := exists_covers outside plain
    exact ⟨covers.isValid_start, covers.isValid_stop⟩

/-- The range of a position outside of characters can be sliced out of the text, as the identifier
or the one character that starts there, if and only if that is not a long character outside of
identifiers. -/
theorem range_isSlice_iff (outside : ¬ LiesInside source p) :
    (range source p).IsSlice source p ↔ StartsPlainly source p := by
  constructor
  · exact fun h => startsPlainly_of_isValid h.stop
  · intro plain
    obtain ⟨before, text, after, covers, shape⟩ := exists_covers outside plain
    exact ⟨covers.isValid_start, covers.isValid_stop, before, text, after, covers, shape⟩

/-- A text of two lines with an identifier on the second one, behind longer characters. -/
private def twoLines : List Char := ['、', '\n', 'é', '、', 'ß', '_', '1', ' ', '=']

/-- Where the identifier starts. -/
private def namePlace : Position := { line := 2, column := 5 }

theorem range_isSlice_iff_name : ¬ LiesInside twoLines namePlace ∧
    range twoLines namePlace = ⟨9, 13⟩ ∧ (range twoLines namePlace).IsSlice twoLines namePlace := by
  have hwhole : (range twoLines namePlace).isWhole twoLines = true := by decide +kernel
  obtain ⟨outside, plain⟩ := isWhole_range_iff.mp hwhole
  exact ⟨outside, by decide +kernel, (range_isSlice_iff outside).mpr plain⟩

/-- The range for the start of a comma of three bytes stops behind the first of them. -/
theorem not_isSlice_comma :
    ¬ LiesInside ['、'] { line := 1 } ∧ range ['、'] { line := 1 } = ⟨0, 1⟩ ∧
    byteSize ['、'] = 3 ∧ ¬ (range ['、'] { line := 1 }).IsSlice ['、'] { line := 1 } := by
  have hrange : range ['、'] { line := 1 } = ⟨0, 1⟩ := by decide +kernel
  refine ⟨?_, hrange, by decide, ?_⟩
  · rintro ⟨_, _, _, _, _, _, behind, -⟩
    exact Nat.not_lt_zero _ behind
  · have hsplit : ['、'] = [] ++ '、' :: [] := rfl
    exact fun h => not_isValid_inside hsplit (by decide) (by decide) (hrange ▸ h.stop)

/-! ## Drawings -/

/-- A diagnostic can be drawn beside a text if and only if none of its positions, nor of those of
its remarks, lies inside a character or before a long one outside of identifiers. -/
theorem isSome_canvas?_iff {path : Option String} {d : Diagnostic} :
    (canvas? source path d).isSome ↔ ∀ p ∈ d.position :: d.related.map Related.position,
      ¬ LiesInside source p ∧ StartsPlainly source p := by
  simp only [← isWhole_range_iff]
  rw [canvas?, rangesOf]
  simp

end DataHolder.Excerpt

namespace DataHolder.Log

/-- All of some partial results are there if and only if each of them is. -/
private theorem isSome_mapM_iff {α β : Type} {f : α → Option β} {as : List α} :
    (as.mapM f).isSome ↔ ∀ a ∈ as, (f a).isSome := by
  induction as with
  | nil => simp
  | cons a as ih =>
    rw [List.mapM_cons, List.forall_mem_cons, ← ih]
    cases f a with
    | none => simp
    | some b => cases as.mapM f <;> simp

/-- A log can be drawn beside a text if and only if no position in it lies inside a character or
before a long one outside of identifiers. -/
theorem isSome_render_iff {log : Log} {source : String} {path : Option String} {colored : Bool} :
    (log.render (some source) path colored).isSome ↔
      ∀ d ∈ log, ∀ p ∈ d.position :: d.related.map Related.position,
        ¬ Excerpt.LiesInside source.toList p ∧ Excerpt.StartsPlainly source.toList p := by
  calc (log.render (some source) path colored).isSome
      ↔ (log.mapM (Excerpt.canvas? source.toList path)).isSome := by
        rw [render]
        cases log.mapM (Excerpt.canvas? source.toList path) <;> simp
    _ ↔ ∀ d ∈ log, (Excerpt.canvas? source.toList path d).isSome := isSome_mapM_iff
    _ ↔ _ := by simp only [Excerpt.isSome_canvas?_iff]

end DataHolder.Log
