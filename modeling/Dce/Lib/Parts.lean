import Dce.Lib.Split

/-!
# Texts made of parts

A text is split at every occurrence of a separator into parts, which give the
text back when they are joined, or cut at one of the occurrences.
-/

namespace Dce.Text

variable {separator : Char} {text before after : Str}

/-- Parts with a separator between them. -/
def join (separator : Char) (parts : List Str) : Str := [separator].intercalate parts

/-- What follows the last separator. -/
def lastPart (separator : Char) (text : Str) : Str :=
  match rsplitOnce separator text with
  | some (_, after) => after
  | none => text

/-- A text in front of its last part, the separator included, and the last part. -/
def cutLastPart (separator : Char) (text : Str) : Str × Str :=
  match rsplitOnce separator text with
  | some (before, after) => (before ++ [separator], after)
  | none => ([], text)

/-- The texts before the occurrences of a separator, those before later ones first. -/
def cuts (separator : Char) : Str → List Str
  | [] => []
  | c :: text => (cuts separator text).map (c :: ·) ++ if c = separator then [[]] else []

theorem rsplitOnce_eq_none : rsplitOnce separator text = none ↔ separator ∉ text := by
  induction text with
  | nil => simp [rsplitOnce]
  | cons c text ih =>
      rw [rsplitOnce]
      cases found : rsplitOnce separator text with
      | none =>
          have free := ih.mp found
          by_cases same : c = separator
          · simp [same]
          · simp [same, free, Ne.symm same]
      | some halves =>
          have there : separator ∈ text := by
            by_contra free
            rw [ih.mpr free] at found
            cases found
          simp [there]

theorem rsplitOnce_append (free : separator ∉ after) (before : Str) :
    rsplitOnce separator (before ++ separator :: after) = some (before, after) := by
  induction before with
  | nil => simp [rsplitOnce, rsplitOnce_eq_none.mpr free]
  | cons c before ih => simp [rsplitOnce, ih]

theorem eq_of_rsplitOnce (found : rsplitOnce separator text = some (before, after)) :
    text = before ++ separator :: after ∧ separator ∉ after := by
  induction text generalizing before with
  | nil => cases found
  | cons c text ih =>
      rw [rsplitOnce] at found
      cases later : rsplitOnce separator text with
      | none =>
          rw [later] at found
          dsimp only at found
          split at found
          · rename_i same
            cases found
            exact ⟨by rw [same, List.nil_append], rsplitOnce_eq_none.mp later⟩
          · cases found
      | some halves =>
          rcases halves with ⟨left, right⟩
          rw [later] at found
          cases found
          rcases ih later with ⟨rfl, free⟩
          exact ⟨rfl, free⟩

theorem eq_of_splitOnce (found : splitOnce separator text = some (before, after)) :
    text = before ++ separator :: after ∧ separator ∉ before := by
  induction text generalizing before with
  | nil => cases found
  | cons c text ih =>
      rw [splitOnce] at found
      split at found
      · rename_i same
        cases found
        exact ⟨by rw [same, List.nil_append], by simp⟩
      · rename_i other
        cases later : splitOnce separator text with
        | none =>
            rw [later] at found
            cases found
        | some halves =>
            rcases halves with ⟨left, right⟩
            rw [later] at found
            cases found
            rcases ih later with ⟨rfl, free⟩
            exact ⟨rfl, by simp [Ne.symm other, free]⟩

theorem splitOnce_eq_none : splitOnce separator text = none ↔ separator ∉ text := by
  induction text with
  | nil => simp [splitOnce]
  | cons c text ih =>
      rw [splitOnce]
      by_cases same : c = separator
      · simp [same]
      · simp [same, ih, Ne.symm same]

theorem lastPart_append (free : separator ∉ after) (before : Str) :
    lastPart separator (before ++ separator :: after) = after := by
  rw [lastPart, rsplitOnce_append free]

theorem lastPart_of_free (free : separator ∉ text) : lastPart separator text = text := by
  rw [lastPart, rsplitOnce_eq_none.mpr free]

theorem cutLastPart_spec (separator : Char) (text : Str) :
    (cutLastPart separator text).1 ++ (cutLastPart separator text).2 = text ∧
      separator ∉ (cutLastPart separator text).2 ∧
      ∀ part, separator ∉ part →
        lastPart separator ((cutLastPart separator text).1 ++ part) = part := by
  rw [cutLastPart]
  cases found : rsplitOnce separator text with
  | none => exact ⟨rfl, rsplitOnce_eq_none.mp found, fun part free => lastPart_of_free free⟩
  | some halves =>
      rcases halves with ⟨before, after⟩
      rcases eq_of_rsplitOnce found with ⟨rfl, free⟩
      refine ⟨by simp, free, fun part free => ?_⟩
      rw [List.append_assoc]
      exact lastPart_append free before

theorem mem_cuts_iff :
    before ∈ cuts separator text ↔ ∃ after, text = before ++ separator :: after := by
  induction text generalizing before with
  | nil => simp [cuts]
  | cons c text ih =>
      rw [cuts, List.mem_append, List.mem_map]
      constructor
      · rintro (⟨front, mem, rfl⟩ | first)
        · rcases ih.mp mem with ⟨after, rfl⟩
          exact ⟨after, rfl⟩
        · split at first
          · rename_i same
            rw [List.mem_singleton.mp first, same]
            exact ⟨text, rfl⟩
          · cases first
      · rintro ⟨after, split⟩
        cases before with
        | nil =>
            cases split
            simp
        | cons d before =>
            cases split
            exact Or.inl ⟨before, ih.mpr ⟨after, rfl⟩, rfl⟩

/-- The longer beginnings come first. -/
theorem pairwise_cuts (separator : Char) (text : Str) :
    (cuts separator text).Pairwise fun left right => right.length < left.length := by
  induction text with
  | nil => exact .nil
  | cons c text ih =>
      rw [cuts]
      refine List.pairwise_append.mpr ⟨?_, ?_, ?_⟩
      · rw [List.pairwise_map]
        exact ih.imp fun shorter => by simpa using shorter
      · split
        · exact List.pairwise_singleton _ _
        · exact .nil
      · intro left mem right mem'
        rcases List.mem_map.mp mem with ⟨front, _, rfl⟩
        split at mem'
        · cases List.mem_singleton.mp mem'
          simp
        · cases mem'

/-- A separator of one byte ends one byte behind the text before it. -/
theorem sliceFrom_cut (oneByte : separator.utf8Size = 1) (before after : Str) :
    sliceFrom (before ++ separator :: after) (len before + 1) = some after := by
  have length : len (before ++ [separator]) = len before + 1 := by simp [oneByte]
  have whole : before ++ separator :: after = (before ++ [separator]) ++ after := by simp
  rw [whole, ← length, sliceFrom, cut_len]
  rfl

theorem cut_len_add (left right : Str) (position : Nat) :
    cut (left ++ right) (len left + position) =
      (cut right position).map fun (before, after) => (left ++ before, after) := by
  induction left with
  | nil => simp
  | cons c left ih =>
      have positive := c.utf8Size_pos
      rcases Nat.exists_eq_add_of_lt positive with ⟨size, utf8Size⟩
      have shifted : len (c :: left) + position = (size + len left + position) + 1 := by
        rw [len_cons]
        omega
      have rest : size + len left + position + 1 - c.utf8Size = len left + position := by omega
      rw [List.cons_append, shifted, cut, rest, ih, if_pos (by omega), Option.map_map]
      rfl

/-- A position inside of a character cuts no text. -/
theorem cut_inside {position : Nat} (positive : 0 < position)
    (inside : position < separator.utf8Size) (before after : Str) :
    cut (before ++ separator :: after) (len before + position) = none := by
  rw [cut_len_add]
  rcases Nat.exists_eq_add_of_lt positive with ⟨rest, rfl⟩
  simp only [Nat.zero_add, cut]
  rw [if_neg (by omega)]
  rfl

theorem sliceFrom_cut_wide (wide : separator.utf8Size ≠ 1) (before after : Str) :
    sliceFrom (before ++ separator :: after) (len before + 1) = none := by
  have positive := separator.utf8Size_pos
  rw [sliceFrom, cut_inside Nat.one_pos (by omega)]
  rfl

theorem slice_before (oneByte : separator.utf8Size = 1) (before after : Str) :
    slice (before ++ separator :: after) 0 (len (before ++ separator :: after) - len after - 1) =
      some before := by
  have stop : len (before ++ separator :: after) - len after - 1 = len before := by
    simp only [len_append, len_cons, oneByte]
    omega
  rw [slice, if_pos (Nat.zero_le _), stop, cut_len]
  simp [cut]

theorem slice_before_wide (wide : separator.utf8Size ≠ 1) (before after : Str) :
    slice (before ++ separator :: after) 0 (len (before ++ separator :: after) - len after - 1) =
      none := by
  have positive := separator.utf8Size_pos
  have stop : len (before ++ separator :: after) - len after - 1 =
      len before + (separator.utf8Size - 1) := by
    simp only [len_append, len_cons]
    omega
  rw [slice, if_pos (Nat.zero_le _), stop, cut_inside (by omega) (by omega)]
  rfl

theorem not_mem_of_mem_splitOn {part : Str} (mem : part ∈ text.splitOn separator) :
    separator ∉ part := by
  induction text generalizing part with
  | nil =>
      rw [List.splitOn_nil, List.mem_singleton] at mem
      simp [mem]
  | cons c text ih =>
      rw [List.splitOn_cons_eq_if_modifyHead] at mem
      split at mem
      · rcases List.mem_cons.mp mem with rfl | later
        · simp
        · exact ih later
      · rename_i other
        cases split : text.splitOn separator with
        | nil => exact absurd split (List.splitOn_ne_nil separator text)
        | cons first rest =>
            rw [split] at mem ih
            rcases List.mem_cons.mp mem with rfl | later
            · simp only [beq_iff_eq] at other
              simp [Ne.symm other, ih List.mem_cons_self]
            · exact ih (List.mem_cons_of_mem _ later)

theorem mem_of_mem_splitOn {part : Str} (mem : part ∈ text.splitOn separator) {c : Char}
    (within : c ∈ part) : c ∈ text := by
  induction text generalizing part with
  | nil =>
      rw [List.splitOn_nil, List.mem_singleton] at mem
      simp [mem] at within
  | cons d text ih =>
      rw [List.splitOn_cons_eq_if_modifyHead] at mem
      split at mem
      · rcases List.mem_cons.mp mem with rfl | later
        · cases within
        · exact List.mem_cons_of_mem d (ih later within)
      · cases split : text.splitOn separator with
        | nil => exact absurd split (List.splitOn_ne_nil separator text)
        | cons first rest =>
            rw [split] at mem ih
            rcases List.mem_cons.mp mem with rfl | later
            · rcases List.mem_cons.mp within with rfl | behind
              · exact List.mem_cons_self
              · exact List.mem_cons_of_mem d (ih List.mem_cons_self behind)
            · exact List.mem_cons_of_mem d (ih (List.mem_cons_of_mem _ later) within)

@[simp]
theorem join_splitOn (separator : Char) (text : Str) :
    join separator (text.splitOn separator) = text := List.intercalate_splitOn separator

theorem splitOn_join {parts : List Str} (free : ∀ part ∈ parts, separator ∉ part)
    (nonempty : parts ≠ []) : (join separator parts).splitOn separator = parts :=
  List.splitOn_intercalate separator free nonempty

theorem splitOn_inj {left right : Str}
    (same : left.splitOn separator = right.splitOn separator) : left = right := by
  rw [← join_splitOn separator left, same, join_splitOn]

/-- A text without a separator is its only part. -/
theorem splitOn_of_rsplitOnce_eq_none (unfound : rsplitOnce separator text = none) :
    text.splitOn separator = [text] :=
  List.splitOn_eq_singleton (rsplitOnce_eq_none.mp unfound)

/-- The last separator sets off the last part. -/
theorem splitOn_of_rsplitOnce (found : rsplitOnce separator text = some (before, after)) :
    text.splitOn separator = before.splitOn separator ++ [after] := by
  rcases eq_of_rsplitOnce found with ⟨rfl, free⟩
  rw [List.splitOn_append_cons_self, List.splitOn_eq_singleton free]

theorem getLast?_splitOn (separator : Char) (text : Str) :
    (text.splitOn separator).getLast? = some (lastPart separator text) := by
  rw [lastPart]
  cases found : rsplitOnce separator text with
  | none => simp [splitOn_of_rsplitOnce_eq_none found]
  | some halves => simp [splitOn_of_rsplitOnce found]

theorem trimEndBy_isPrefix (drop : Char → Bool) (text : Str) : trimEndBy drop text <+: text := by
  rw [trimEndBy, ← List.reverse_suffix, List.reverse_reverse]
  exact List.dropWhile_suffix drop

theorem head?_of_isPrefix {c : Char} {left right : Str} (isPrefix : left <+: right)
    (first : left.head? = some c) : right.head? = some c := by
  rcases isPrefix with ⟨rest, rfl⟩
  rw [List.head?_append, first]
  rfl

/-- A trimmed text does not begin with what was trimmed. -/
theorem head?_trimBy (drop : Char → Bool) {c : Char} {text : Str}
    (first : (trimBy drop text).head? = some c) : drop c = false := by
  have kept := head?_of_isPrefix (trimEndBy_isPrefix drop (text.dropWhile drop)) first
  have stays := List.head?_dropWhile_not drop text
  rw [kept] at stays
  simpa using stays

end Dce.Text
