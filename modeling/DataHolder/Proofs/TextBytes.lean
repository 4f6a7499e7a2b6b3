import DataHolder.Excerpt.Range

/-!
# Texts as bytes

A source text is a list of characters here, while ranges count the bytes of its encoding. A number
of bytes is the size of a part that the text starts with, or else it points into a character; the
first are the positions of the text as a string. The byte of a newline is no part of any other
character, so newlines can be counted among the bytes.
-/

namespace DataHolder.Excerpt

/-! ## Sizes -/

@[simp] theorem byteSize_nil : byteSize [] = 0 := rfl

@[simp] theorem byteSize_cons (c : Char) (cs : List Char) :
    byteSize (c :: cs) = c.utf8Size + byteSize cs := rfl

@[simp] theorem byteSize_append (before after : List Char) :
    byteSize (before ++ after) = byteSize before + byteSize after := by
  induction before with
  | nil => simp
  | cons c cs ih => simp [ih, Nat.add_assoc]

/-- Only the empty text has no bytes. -/
theorem byteSize_eq_zero_iff {cs : List Char} : byteSize cs = 0 ↔ cs = [] := by
  cases cs with
  | nil => simp
  | cons c cs =>
    have := c.utf8Size_pos
    simp only [byteSize_cons, reduceCtorEq, iff_false]
    omega

/-- What a text starts with has no more bytes than the text. -/
theorem byteSize_mono {front cs : List Char} (h : front <+: cs) :
    byteSize front ≤ byteSize cs := by
  obtain ⟨back, rfl⟩ := h
  rw [byteSize_append]
  exact Nat.le_add_right _ _

/-- The size of a text is that of its string. -/
theorem utf8ByteSize_ofList (cs : List Char) : (String.ofList cs).utf8ByteSize = byteSize cs := by
  induction cs with
  | nil => rfl
  | cons c cs ih => simp [String.ofList_cons, ih]

/-- A byte of a text belongs to one of its characters. -/
theorem exists_character {n : Nat} {cs : List Char} (h : n < byteSize cs) :
    ∃ before c after, cs = before ++ c :: after ∧ byteSize before ≤ n ∧
      n < byteSize before + c.utf8Size := by
  induction cs generalizing n with
  | nil => simp at h
  | cons c cs ih =>
    by_cases first : n < c.utf8Size
    · exact ⟨[], c, cs, rfl, Nat.zero_le n, by simpa using first⟩
    · rw [byteSize_cons] at h
      obtain ⟨before, d, after, rfl, hle, hlt⟩ := ih (n := n - c.utf8Size) (by omega)
      refine ⟨c :: before, d, after, rfl, ?_, ?_⟩
      · rw [byteSize_cons]
        omega
      · rw [byteSize_cons]
        omega

/-! ## Points between characters -/

/-- Dropping the bytes of a text and some more drops these from what stands behind it. -/
theorem dropBytes?_append (before : List Char) (n : Nat) (after : List Char) :
    dropBytes? (byteSize before + n) (before ++ after) = dropBytes? n after := by
  induction before with
  | nil => simp
  | cons c cs ih =>
    have := c.utf8Size_pos
    have hn : c.utf8Size + byteSize cs + n - c.utf8Size = byteSize cs + n := by omega
    rw [byteSize_cons, List.cons_append, dropBytes?, if_neg (by omega), if_pos (by omega), hn, ih]

@[simp] theorem dropBytes?_zero (cs : List Char) : dropBytes? 0 cs = some cs := by
  cases cs <;> rfl

/-- The bytes up to a point can be dropped if and only if it lies between characters. -/
theorem dropBytes?_eq_some_iff {n : Nat} {cs after : List Char} :
    dropBytes? n cs = some after ↔ ∃ before, cs = before ++ after ∧ byteSize before = n := by
  constructor
  · intro h
    fun_induction dropBytes? n cs with
    | case1 => exact ⟨[], by simpa using h, rfl⟩
    | case2 => cases h
    | case3 => exact ⟨[], by simpa using h, rfl⟩
    | case4 n c cs _ hle ih =>
      obtain ⟨before, rfl, hsize⟩ := ih h
      refine ⟨c :: before, rfl, ?_⟩
      rw [byteSize_cons]
      omega
    | case5 => cases h
  · rintro ⟨before, rfl, rfl⟩
    simpa using dropBytes?_append before 0 after

/-- No text is left behind a point in a character. -/
theorem dropBytes?_inside {before after : List Char} {c : Char} {n : Nat}
    (behind : byteSize before < n) (ahead : n < byteSize before + c.utf8Size) :
    dropBytes? n (before ++ c :: after) = none := by
  obtain ⟨k, rfl⟩ := Nat.exists_eq_add_of_le (Nat.le_of_lt behind)
  rw [dropBytes?_append, dropBytes?, if_neg (by omega), if_neg (by omega)]

/-- A number is a position in the string of a text if and only if it is the size of a part that the
text starts with. -/
theorem isValid_ofList_iff {n : Nat} {cs : List Char} :
    (⟨n⟩ : String.Pos.Raw).IsValid (String.ofList cs) ↔
      ∃ before after, cs = before ++ after ∧ byteSize before = n := by
  rw [String.Pos.Raw.isValid_iff_exists_append]
  constructor
  · rintro ⟨s, t, hs, hn⟩
    refine ⟨s.toList, t.toList, ?_, ?_⟩
    · simpa using congrArg String.toList hs
    · rw [← utf8ByteSize_ofList, String.ofList_toList]
      exact (congrArg String.Pos.Raw.byteIdx hn).symm
  · rintro ⟨before, after, rfl, rfl⟩
    refine ⟨String.ofList before, String.ofList after, String.ofList_append, ?_⟩
    rw [← utf8ByteSize_ofList]
    rfl

/-- Where bytes can be dropped is where a string has its positions. -/
theorem isSome_dropBytes?_iff {n : Nat} {cs : List Char} :
    (dropBytes? n cs).isSome ↔ (⟨n⟩ : String.Pos.Raw).IsValid (String.ofList cs) := by
  rw [isValid_ofList_iff, Option.isSome_iff_exists]
  simp only [dropBytes?_eq_some_iff]
  exact exists_comm

/-! ## Newlines among the bytes -/

/-- The bytes of a text in UTF-8. -/
def bytes (cs : List Char) : List UInt8 := cs.flatMap String.utf8EncodeChar

/-- The byte of a newline. -/
def newline : UInt8 := 10

theorem bytes_append (before after : List Char) :
    bytes (before ++ after) = bytes before ++ bytes after := List.flatMap_append

theorem length_bytes (cs : List Char) : (bytes cs).length = byteSize cs := by
  induction cs with
  | nil => rfl
  | cons c cs ih => simp [bytes, String.length_utf8EncodeChar, ← ih]

/-- The byte of a newline is no part of any other character. -/
theorem newline_not_mem_utf8EncodeChar {c : Char} (h : c ≠ '\n') :
    newline ∉ String.utf8EncodeChar c := by
  have hc : c.val.toNat ≠ 10 := fun hval => h (Char.ext (UInt32.toNat_inj.mp hval))
  have hbyte : ∀ n, n < 256 → n ≠ 10 → newline ≠ UInt8.ofNat n := by
    intro n hlt hne hn
    have hnat := congrArg UInt8.toNat hn
    rw [UInt8.toNat_ofNat', Nat.mod_eq_of_lt hlt] at hnat
    exact hne hnat.symm
  unfold String.utf8EncodeChar
  intro hmem
  simp only at hmem
  split at hmem
  · exact hbyte _ (by omega) hc (List.mem_singleton.mp hmem)
  · -- each byte of a longer encoding has its highest bit set
    split at hmem
    · simp only [List.mem_cons, List.not_mem_nil, or_false] at hmem
      rcases hmem with hmem | hmem <;> exact hbyte _ (by omega) (by omega) hmem
    · split at hmem
      · simp only [List.mem_cons, List.not_mem_nil, or_false] at hmem
        rcases hmem with hmem | hmem | hmem <;> exact hbyte _ (by omega) (by omega) hmem
      · simp only [List.mem_cons, List.not_mem_nil, or_false] at hmem
        rcases hmem with hmem | hmem | hmem | hmem <;> exact hbyte _ (by omega) (by omega) hmem

/-- A text without newlines has none of its bytes. -/
theorem newline_not_mem_bytes {cs : List Char} (h : '\n' ∉ cs) : newline ∉ bytes cs := by
  intro hmem
  obtain ⟨c, hc, hbyte⟩ := List.mem_flatMap.mp hmem
  exact newline_not_mem_utf8EncodeChar (fun heq => h (heq ▸ hc)) hbyte

/-- A text has as many newlines as its encoding has bytes of a newline. -/
theorem count_bytes (cs : List Char) : (bytes cs).count newline = cs.count '\n' := by
  induction cs with
  | nil => rfl
  | cons c cs ih =>
    rw [bytes, List.flatMap_cons, List.count_append, ← bytes, ih]
    by_cases hc : c = '\n'
    · subst hc
      rw [List.count_cons_self, Nat.add_comm]
      rfl
    · rw [List.count_cons_of_ne hc, List.count_eq_zero.mpr (newline_not_mem_utf8EncodeChar hc),
        Nat.zero_add]

end DataHolder.Excerpt
