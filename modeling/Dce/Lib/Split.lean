import Dce.Lib.Text

/-!
# Finding and splitting

The first occurrence of a text or of a character, the lines of a text, and what
these give on a text that was put together from pieces.
-/

namespace Dce.Text

/-- The text before and after the first occurrence of `needle`. -/
def find (needle : Str) : Str → Option (Str × Str)
  | [] => if needle.isEmpty then some ([], []) else none
  | c :: text =>
      if needle.isPrefixOf (c :: text) then some ([], (c :: text).drop needle.length)
      else (find needle text).map fun (before, after) => (c :: before, after)

/-- The text before and after the first occurrence of a character. -/
def splitOnce (separator : Char) : Str → Option (Str × Str)
  | [] => none
  | c :: text =>
      if c = separator then some ([], text)
      else (splitOnce separator text).map fun (before, after) => (c :: before, after)

/-- A text without the character `last` at its end. -/
def stripSuffix (last : Char) (text : Str) : Option Str :=
  if text.getLast? = some last then some text.dropLast else none

/-- The parts of a text that end with `terminator`, and what is left after the last one. -/
def splitInclusive (terminator : Char) : Str → List Str
  | [] => []
  | c :: text =>
      if c = terminator then [c] :: splitInclusive terminator text
      else match splitInclusive terminator text with
        | [] => [[c]]
        | part :: parts => (c :: part) :: parts

/-- A line without its ending, which is `\n` or `\r\n`. -/
def lineOf (part : Str) : Str :=
  match stripSuffix '\n' part with
  | some line => (stripSuffix '\r' line).getD line
  | none => part

def lines (text : Str) : List Str := (splitInclusive '\n' text).map lineOf

/-- A text without the white space around it. -/
def trim (text : Str) : Str := trimBy isWhitespace text

@[simp]
theorem len_nil : len [] = 0 := rfl

@[simp]
theorem len_cons (c : Char) (text : Str) : len (c :: text) = c.utf8Size + len text := by
  simp [len]

@[simp]
theorem len_append (left right : Str) : len (left ++ right) = len left + len right := by
  simp [len]

theorem cut_len (left right : Str) : cut (left ++ right) (len left) = some (left, right) := by
  induction left with
  | nil => simp [cut]
  | cons c left ih =>
      have positive := c.utf8Size_pos
      rcases Nat.exists_eq_add_of_lt positive with ⟨size, utf8Size⟩
      have position : len (c :: left) = (size + len left) + 1 := by
        rw [len_cons]
        omega
      rw [List.cons_append, position, cut]
      have rest : size + len left + 1 - c.utf8Size = len left := by omega
      rw [rest, ih, if_pos (by omega)]
      rfl

theorem eq_of_cut {text left right : Str} {position : Nat}
    (found : cut text position = some (left, right)) :
    text = left ++ right ∧ len left = position := by
  induction text generalizing position left with
  | nil =>
      cases position with
      | zero =>
          rw [cut] at found
          cases found
          exact ⟨rfl, rfl⟩
      | succ position => cases found
  | cons c text ih =>
      cases position with
      | zero =>
          rw [cut] at found
          cases found
          exact ⟨rfl, rfl⟩
      | succ position =>
          rw [cut] at found
          split at found
          · rename_i fits
            rcases Option.map_eq_some_iff.mp found with ⟨⟨before, after⟩, later, eq⟩
            cases eq
            rcases ih later with ⟨rfl, rest⟩
            refine ⟨rfl, ?_⟩
            rw [len_cons]
            omega
          · cases found

theorem eq_of_find {needle text before after : Str}
    (found : find needle text = some (before, after)) : text = before ++ needle ++ after := by
  induction text generalizing before with
  | nil =>
      simp only [find, Option.ite_none_right_eq_some, List.isEmpty_iff, Option.some.injEq,
        Prod.mk.injEq] at found
      rcases found with ⟨rfl, rfl, rfl⟩
      rfl
  | cons c text ih =>
      rw [find] at found
      split at found
      · rename_i starts
        cases found
        rcases List.isPrefixOf_iff_prefix.mp starts with ⟨rest, eq⟩
        rw [← eq]
        simp
      · rcases Option.map_eq_some_iff.mp found with ⟨⟨left, right⟩, later, eq⟩
        cases eq
        rw [ih later]
        rfl

theorem find_self {needle : Str} (nonempty : needle ≠ []) (rest : Str) :
    find needle (needle ++ rest) = some ([], rest) := by
  cases needle with
  | nil => exact absurd rfl nonempty
  | cons c needle =>
      have starts : (c :: needle).isPrefixOf (c :: (needle ++ rest)) :=
        List.isPrefixOf_iff_prefix.mpr ⟨rest, rfl⟩
      rw [List.cons_append, find, if_pos starts]
      simp

/-- An occurrence that starts in a piece without `needle` runs up to the end of that piece. -/
theorem not_prefix_of_not_infix {needle piece rest : Str} {c : Char} (apart : c ∉ needle)
    (free : ¬needle <:+: piece) : ¬needle <+: piece ++ c :: rest := by
  intro starts
  rcases Nat.le_total needle.length piece.length with within | beyond
  · apply free
    exact (List.prefix_of_prefix_length_le starts (List.prefix_append _ _) within).isInfix
  · have piece_starts := List.prefix_of_prefix_length_le (List.prefix_append piece (c :: rest))
      starts beyond
    rcases piece_starts with ⟨more, rfl⟩
    rw [List.prefix_append_right_inj] at starts
    cases more with
    | nil =>
        apply free
        rw [List.append_nil]
    | cons d more =>
        rcases List.cons_prefix_cons.mp starts with ⟨rfl, _⟩
        exact apart (List.mem_append_right _ List.mem_cons_self)

theorem not_infix_append {needle left right : Str} {c : Char} (apart : c ∉ needle)
    (freeLeft : ¬needle <:+: left) (freeRight : ¬needle <:+: right) :
    ¬needle <:+: left ++ c :: right := by
  induction left with
  | nil =>
      intro inner
      rcases List.infix_cons_iff.mp inner with starts | later
      · have within : needle <+: [] ++ c :: right := starts
        exact not_prefix_of_not_infix apart freeLeft within
      · exact freeRight later
  | cons d left ih =>
      intro inner
      rcases List.infix_cons_iff.mp inner with starts | later
      · have within : needle <+: (d :: left) ++ c :: right := starts
        exact not_prefix_of_not_infix apart freeLeft within
      · exact ih (fun within => freeLeft (within.trans (List.suffix_cons d left).isInfix)) later

/-- Searching goes on behind a piece without `needle` that is closed by another character. -/
theorem find_skip {needle piece : Str} {c : Char} (apart : c ∉ needle)
    (free : ¬needle <:+: piece) (rest : Str) :
    find needle (piece ++ c :: rest) =
      (find needle rest).map fun (before, after) => (piece ++ c :: before, after) := by
  induction piece with
  | nil =>
      have other : ¬needle.isPrefixOf (c :: rest) := by
        intro starts
        exact not_prefix_of_not_infix apart free (List.isPrefixOf_iff_prefix.mp starts)
      rw [List.nil_append, find, if_neg other]
      rfl
  | cons d piece ih =>
      have other : ¬needle.isPrefixOf (d :: (piece ++ c :: rest)) := by
        intro starts
        exact not_prefix_of_not_infix apart free (List.isPrefixOf_iff_prefix.mp starts)
      have later := ih fun inner => free (inner.trans (List.suffix_cons d piece).isInfix)
      rw [List.cons_append, find, if_neg other, later, Option.map_map]
      rfl

theorem splitOnce_append {separator : Char} {before : Str} (free : separator ∉ before)
    (after : Str) : splitOnce separator (before ++ separator :: after) = some (before, after) := by
  induction before with
  | nil => simp [splitOnce]
  | cons c before ih =>
      have other : c ≠ separator := by
        rintro rfl
        exact free List.mem_cons_self
      have later := ih fun mem => free (List.mem_cons_of_mem _ mem)
      simp [splitOnce, other, later]

theorem splitInclusive_append {terminator : Char} {line : Str} (free : terminator ∉ line)
    (rest : Str) :
    splitInclusive terminator (line ++ terminator :: rest) =
      (line ++ [terminator]) :: splitInclusive terminator rest := by
  induction line with
  | nil => simp [splitInclusive]
  | cons c line ih =>
      have other : c ≠ terminator := by
        rintro rfl
        exact free List.mem_cons_self
      have later := ih fun mem => free (List.mem_cons_of_mem _ mem)
      simp [splitInclusive, other, later]

/-- Searching goes on behind lines without `needle`. -/
theorem find_lines {needle : Str} (nonempty : needle ≠ []) (apart : '\n' ∉ needle)
    {pieces : List Str} (free : ∀ line ∈ pieces, ¬needle <:+: line) (rest : Str) :
    find needle (pieces.flatMap (· ++ ['\n']) ++ needle ++ rest) =
      some (pieces.flatMap (· ++ ['\n']), rest) := by
  induction pieces with
  | nil => exact find_self nonempty rest
  | cons line pieces ih =>
      have later := ih fun line mem => free line (List.mem_cons_of_mem _ mem)
      have skip := find_skip apart (free line List.mem_cons_self)
        (pieces.flatMap (· ++ ['\n']) ++ needle ++ rest)
      rw [later] at skip
      simpa using skip

/-- A line of its own: it holds no line break and no carriage return at its end. -/
structure IsLine (line : Str) : Prop where
  unbroken : '\n' ∉ line
  bare : line.getLast? ≠ some '\r'

theorem lines_append {line : Str} (isLine : IsLine line) (rest : Str) :
    lines (line ++ '\n' :: rest) = line :: lines rest := by
  have ending : stripSuffix '\n' (line ++ ['\n']) = some line := by simp [stripSuffix]
  have kept : stripSuffix '\r' line = none := by simp [stripSuffix, isLine.bare]
  rw [lines, splitInclusive_append isLine.unbroken, List.map_cons]
  simp [lineOf, ending, kept, lines]

theorem lines_flatMap {pieces : List Str} (areLines : ∀ line ∈ pieces, IsLine line) :
    lines (pieces.flatMap (· ++ ['\n'])) = pieces := by
  induction pieces with
  | nil => rfl
  | cons line pieces ih =>
      have later := ih fun line mem => areLines line (List.mem_cons_of_mem _ mem)
      have first := lines_append (areLines line List.mem_cons_self) (pieces.flatMap (· ++ ['\n']))
      rw [later] at first
      simpa using first

theorem lines_eq_nil {text : Str} : lines text = [] ↔ text = [] := by
  cases text with
  | nil => simp [lines, splitInclusive]
  | cons c text =>
      simp only [lines, splitInclusive, reduceCtorEq, iff_false]
      split
      · simp
      · split <;> simp

/-- Trimming the end stops at a character that stays. -/
theorem trimEndBy_append {drop : Char → Bool} {left : Str} {c : Char} (stays : drop c = false)
    (right : Str) :
    trimEndBy drop (left ++ c :: right) = left ++ c :: trimEndBy drop right := by
  rw [trimEndBy, trimEndBy, List.reverse_append, List.reverse_cons, List.append_assoc,
    List.dropWhile_append]
  split
  · rename_i empty
    simp [stays, List.isEmpty_iff.mp empty]
  · simp

theorem trimBy_append {drop : Char → Bool} {first last : Char} {middle : Str}
    (begins : drop first = false) (ends : drop last = false) (right : Str) :
    trimBy drop (first :: middle ++ last :: right) =
      first :: middle ++ last :: trimEndBy drop right := by
  rw [trimBy, List.cons_append, List.dropWhile_cons_of_neg (by simp [begins]), ← List.cons_append]
  exact trimEndBy_append ends right

/-- A trimmed text does not begin with white space. -/
theorem head_of_trimBy {drop : Char → Bool} {c : Char} {text : Str}
    (trimmed : trimBy drop (c :: text) = c :: text) : drop c = false := by
  by_contra dropped
  rw [Bool.not_eq_false] at dropped
  have shorter : (trimBy drop (c :: text)).length ≤ text.length := by
    rw [trimBy, List.dropWhile_cons_of_pos dropped, trimEndBy, List.length_reverse]
    apply (List.dropWhile_suffix _).length_le.trans
    rw [List.length_reverse]
    exact (List.dropWhile_suffix _).length_le
  rw [trimmed, List.length_cons] at shorter
  omega

/-- A trimmed text does not end with white space. -/
theorem last_of_trimBy {drop : Char → Bool} {c : Char} {text : Str}
    (trimmed : trimBy drop (text ++ [c]) = text ++ [c]) : drop c = false := by
  by_contra dropped
  rw [Bool.not_eq_false] at dropped
  have shorter : (trimBy drop (text ++ [c])).length ≤ text.length := by
    rw [trimBy, trimEndBy, List.length_reverse, List.dropWhile_append]
    split
    · simp [dropped]
    · rw [List.reverse_append, List.reverse_singleton, List.singleton_append,
        List.dropWhile_cons_of_pos dropped]
      apply (List.dropWhile_suffix _).length_le.trans
      rw [List.length_reverse]
      exact (List.dropWhile_suffix _).length_le
  rw [trimmed, List.length_append, List.length_singleton] at shorter
  omega

/-- What comes behind the first occurrence has no part in finding it. -/
theorem find_append {needle before after : Str}
    (found : find needle (before ++ needle ++ after) = some (before, after)) (other : Str) :
    find needle (before ++ needle ++ other) = some (before, other) := by
  induction before with
  | nil =>
      cases needle with
      | nil => cases other <;> rfl
      | cons c needle => exact find_self (List.cons_ne_nil c needle) other
  | cons c before ih =>
      have within (rest : Str) : needle <+: c :: before ++ needle ++ rest ↔
          needle <+: c :: before ++ needle := by
        constructor
        · intro starts
          refine List.prefix_of_prefix_length_le starts (List.prefix_append _ rest) ?_
          rw [List.length_append]
          omega
        · exact fun starts => starts.trans (List.prefix_append _ rest)
      simp only [List.cons_append, find] at found ⊢
      have same : needle.isPrefixOf (c :: (before ++ needle ++ other)) =
          needle.isPrefixOf (c :: (before ++ needle ++ after)) := by
        rw [Bool.eq_iff_iff, List.isPrefixOf_iff_prefix, List.isPrefixOf_iff_prefix]
        exact (within other).trans (within after).symm
      rw [same]
      split at found
      · cases found
      · rename_i later
        rcases Option.map_eq_some_iff.mp found with ⟨⟨left, right⟩, inner, eq⟩
        cases eq
        rw [if_neg later, ih inner]
        rfl

/-- Characters dropped in front of a text are dropped in front of an occurrence in it. -/
theorem find_dropWhile {drop : Char → Bool} {first : Char} (begins : drop first = false)
    (needle text : Str) :
    find (first :: needle) (text.dropWhile drop) =
      (find (first :: needle) text).map fun (before, after) => (before.dropWhile drop, after) := by
  induction text with
  | nil => rfl
  | cons c text ih =>
      by_cases dropped : drop c = true
      · have other : ¬(first :: needle).isPrefixOf (c :: text) := by
          intro starts
          rcases List.cons_prefix_cons.mp (List.isPrefixOf_iff_prefix.mp starts) with ⟨rfl, _⟩
          rw [begins] at dropped
          cases dropped
        rw [List.dropWhile_cons_of_pos dropped, ih, find, if_neg other, Option.map_map]
        congr 1
        funext parts
        simp [List.dropWhile_cons_of_pos dropped]
      · rw [List.dropWhile_cons_of_neg dropped]
        cases found : find (first :: needle) (c :: text) with
        | none => rfl
        | some parts =>
            rcases parts with ⟨before, after⟩
            have whole := eq_of_find found
            cases before with
            | nil => rfl
            | cons d before =>
                rcases List.cons.inj whole with ⟨rfl, _⟩
                simp [List.dropWhile_cons_of_neg dropped]

/-- An occurrence in a text is found in the trimmed text, its surroundings being trimmed. -/
theorem find_trimBy {drop : Char → Bool} {first last : Char} {text before after : Str}
    (middle : Str) (begins : drop first = false) (ends : drop last = false)
    (found : find (first :: middle ++ [last]) text = some (before, after)) :
    find (first :: middle ++ [last]) (trimBy drop text) =
      some (before.dropWhile drop, trimEndBy drop after) := by
  have dropped := find_dropWhile begins (middle ++ [last]) text
  rw [← List.cons_append, found] at dropped
  have whole := eq_of_find dropped
  have kept : trimBy drop text =
      before.dropWhile drop ++ (first :: middle ++ [last]) ++ trimEndBy drop after := by
    have stops : trimEndBy drop (before.dropWhile drop ++ first :: middle ++ last :: after) =
        before.dropWhile drop ++ first :: middle ++ last :: trimEndBy drop after :=
      trimEndBy_append ends after
    rw [trimBy, whole]
    simpa using stops
  rw [whole] at dropped
  rw [kept]
  exact find_append dropped _

end Dce.Text
