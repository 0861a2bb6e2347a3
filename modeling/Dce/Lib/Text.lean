import Mathlib

/-!
# UTF-8 text

Text is a list of characters whose positions are counted in the bytes of its
UTF-8 encoding. Cutting a text at a byte position fails when the position is
past its end or falls inside a character.
-/

namespace Dce

/-- A text, as the list of its characters. -/
abbrev Str := List Char

namespace Text

/-- The number of bytes of a text. -/
def len (text : Str) : Nat := (text.map Char.utf8Size).sum

/-- Cut a text at a byte position. -/
def cut : Str → Nat → Option (Str × Str)
  | text, 0 => some ([], text)
  | [], _ + 1 => none
  | c :: text, position + 1 =>
      if c.utf8Size ≤ position + 1 then
        (cut text (position + 1 - c.utf8Size)).map fun (left, right) => (c :: left, right)
      else none

/-- The bytes of a text from `start` up to `stop`. -/
def slice (text : Str) (start stop : Nat) : Option Str :=
  if start ≤ stop then do
    let (left, _) ← cut text stop
    let (_, middle) ← cut left start
    return middle
  else none

/-- The bytes of a text from `start` on. -/
def sliceFrom (text : Str) (start : Nat) : Option Str := (cut text start).map Prod.snd

/-- The characters with the Unicode property `White_Space`. -/
def isWhitespace (c : Char) : Bool :=
  let code := c.toNat
  (0x09 ≤ code && code ≤ 0x0D) || code == 0x20 || code == 0x85 ||
    code == 0xA0 || code == 0x1680 ||
    (0x2000 ≤ code && code ≤ 0x200A) || code == 0x2028 || code == 0x2029 || code == 0x202F ||
    code == 0x205F || code == 0x3000

/-- Drop the characters meeting `drop` from the end of a text. -/
def trimEndBy (drop : Char → Bool) (text : Str) : Str := (text.reverse.dropWhile drop).reverse

/-- Drop the characters meeting `drop` from both ends of a text. -/
def trimBy (drop : Char → Bool) (text : Str) : Str := trimEndBy drop (text.dropWhile drop)

/-- Equality up to the case of ASCII letters. -/
def eqIgnoreAsciiCase (left right : Str) : Bool := left.map Char.toLower == right.map Char.toLower

/-- The text before and after the last occurrence of a character. -/
def rsplitOnce (separator : Char) : Str → Option (Str × Str)
  | [] => none
  | c :: text =>
      match rsplitOnce separator text with
      | some (before, after) => some (c :: before, after)
      | none => if c = separator then some ([], text) else none

/-- The hexadecimal digit of a number below 16, in upper case. -/
def hexDigit (n : Nat) : Char := "0123456789ABCDEF".toList.getD n '0'

/-- The least `width` hexadecimal digits of a number. -/
def hexPadded : Nat → Nat → Str
  | 0, _ => []
  | width + 1, n => hexPadded width (n / 16) ++ [hexDigit (n % 16)]

/-- A number below `16 ^ 16` in hexadecimal digits, without leading zeros. -/
def hex (n : Nat) : Str :=
  match (hexPadded 16 n).dropWhile (· = '0') with
  | [] => ['0']
  | digits => digits

/-- The value of a hexadecimal digit, in either case. -/
def hexValue (c : Char) : Option Nat :=
  let code := c.toNat
  if 0x30 ≤ code ∧ code ≤ 0x39 then some (code - 0x30)
  else if 0x41 ≤ code ∧ code ≤ 0x46 then some (code - 0x37)
  else if 0x61 ≤ code ∧ code ≤ 0x66 then some (code - 0x57)
  else none

/-- The number that hexadecimal digits spell. -/
def hexNumber (digits : Str) : Option Nat :=
  digits.foldlM (fun n c => (hexValue c).map (16 * n + ·)) 0

/-- Parse an unsigned integer below `bound` from hexadecimal digits, after an optional plus sign. -/
def fromStrRadix16 (bound : Nat) (text : Str) : Option Nat :=
  let digits := match text with
    | '+' :: digits => digits
    | digits => digits
  if digits.isEmpty then none else (hexNumber digits).filter (· < bound)

theorem cut_append {left : Str} (oneByte : ∀ c ∈ left, c.utf8Size = 1) (right : Str) :
    cut (left ++ right) left.length = some (left, right) := by
  induction left with
  | nil => simp [cut]
  | cons c left ih =>
      have later := ih fun c mem => oneByte c (List.mem_cons_of_mem _ mem)
      simp [cut, oneByte c, later]

theorem slice_append {left middle : Str} (oneByte : ∀ c ∈ left ++ middle, c.utf8Size = 1)
    (right : Str) :
    slice (left ++ middle ++ right) left.length (left.length + middle.length) = some middle := by
  have whole := cut_append oneByte right
  rw [List.length_append] at whole
  have inner := cut_append (fun c mem => oneByte c (List.mem_append_left _ mem)) middle
  simp only [slice, Nat.le_add_right, if_true, whole, Option.bind_eq_bind, Option.bind_some, inner,
    Option.pure_def]

theorem sliceFrom_append {left : Str} (oneByte : ∀ c ∈ left, c.utf8Size = 1) (right : Str) :
    sliceFrom (left ++ right) left.length = some right := by
  rw [sliceFrom, cut_append oneByte right]
  rfl

theorem length_le_len (text : Str) : text.length ≤ len text := by
  induction text with
  | nil => exact Nat.le_refl 0
  | cons c text ih =>
      have positive := c.utf8Size_pos
      simp only [len, List.map_cons, List.sum_cons, List.length_cons] at ih ⊢
      omega

theorem hexValue_hexDigit {n : Nat} (small : n < 16) : hexValue (hexDigit n) = some n := by
  rcases n with _ | _ | _ | _ | _ | _ | _ | _ | _ | _ | _ | _ | _ | _ | _ | _ | n
  all_goals first | rfl | omega

theorem utf8Size_hexDigit (n : Nat) : (hexDigit n).utf8Size = 1 := by
  rcases n with _ | _ | _ | _ | _ | _ | _ | _ | _ | _ | _ | _ | _ | _ | _ | _ | n
  all_goals rfl

theorem hexDigit_ne_plus {n : Nat} (small : n < 16) : hexDigit n ≠ '+' := by
  rcases n with _ | _ | _ | _ | _ | _ | _ | _ | _ | _ | _ | _ | _ | _ | _ | _ | n
  all_goals first | omega | decide

@[simp]
theorem length_hexPadded (width n : Nat) : (hexPadded width n).length = width := by
  induction width generalizing n with
  | zero => rfl
  | succ width ih => simp [hexPadded, ih]

theorem mem_hexPadded {width n : Nat} {c : Char} (mem : c ∈ hexPadded width n) :
    ∃ digit, digit < 16 ∧ c = hexDigit digit := by
  induction width generalizing n with
  | zero => simp [hexPadded] at mem
  | succ width ih =>
      rw [hexPadded, List.mem_append, List.mem_singleton] at mem
      rcases mem with higher | rfl
      · exact ih higher
      · exact ⟨n % 16, Nat.mod_lt _ (by decide), rfl⟩

theorem hexNumber_hexPadded (width n : Nat) :
    hexNumber (hexPadded width n) = some (n % 16 ^ width) := by
  induction width generalizing n with
  | zero => simp [hexPadded, hexNumber, Nat.mod_one]
  | succ width ih =>
      have higher := ih (n / 16)
      rw [hexNumber] at higher
      have lowest := hexValue_hexDigit (Nat.mod_lt n (show 16 > 0 by decide))
      simp only [hexNumber, hexPadded, List.foldlM_append, higher, Option.bind_eq_bind,
        Option.bind_some, List.foldlM_cons, List.foldlM_nil, lowest, Option.map_some]
      rw [Nat.pow_succ', Nat.mod_mul]
      simp [Nat.add_comm]

theorem fromStrRadix16_of_digits {digits : Str} {n bound : Nat} (nonempty : digits ≠ [])
    (spelled : ∀ c ∈ digits, ∃ digit, digit < 16 ∧ c = hexDigit digit)
    (number : hexNumber digits = some n) (small : n < bound) :
    fromStrRadix16 bound digits = some n := by
  unfold fromStrRadix16
  split
  · rcases spelled '+' List.mem_cons_self with ⟨digit, below, signed⟩
    exact absurd signed.symm (hexDigit_ne_plus below)
  · simp [nonempty, number, small]

theorem fromStrRadix16_hexPadded {width n bound : Nat} (positive : 0 < width)
    (fits : n < 16 ^ width) (small : n < bound) :
    fromStrRadix16 bound (hexPadded width n) = some n := by
  have number := hexNumber_hexPadded width n
  rw [Nat.mod_eq_of_lt fits] at number
  refine fromStrRadix16_of_digits ?_ (fun c mem => mem_hexPadded mem) number small
  intro empty
  have length := length_hexPadded width n
  rw [empty, List.length_nil] at length
  omega

/-- Leading zeros do not count. -/
theorem hexNumber_dropWhile (digits : Str) :
    hexNumber (digits.dropWhile (· = '0')) = hexNumber digits := by
  induction digits with
  | nil => rfl
  | cons c digits ih =>
      by_cases zero : c = '0'
      · subst zero
        rw [List.dropWhile_cons_of_pos (by simp), ih]
        rfl
      · rw [List.dropWhile_cons_of_neg (by simpa using zero)]

theorem hexNumber_hex {n : Nat} (fits : n < 16 ^ 16) : hexNumber (hex n) = some n := by
  have number := hexNumber_hexPadded 16 n
  rw [Nat.mod_eq_of_lt fits, ← hexNumber_dropWhile] at number
  rw [hex]
  split
  · rename_i zeros
    rwa [zeros] at number
  · exact number

theorem mem_hex {n : Nat} {c : Char} (mem : c ∈ hex n) :
    ∃ digit, digit < 16 ∧ c = hexDigit digit := by
  rw [hex] at mem
  split at mem
  · exact ⟨0, by decide, List.mem_singleton.mp mem⟩
  · exact mem_hexPadded ((List.dropWhile_suffix _).subset mem)

theorem hex_ne_nil (n : Nat) : hex n ≠ [] := by
  rw [hex]
  split
  · exact List.cons_ne_nil _ _
  · assumption

theorem fromStrRadix16_hex {n bound : Nat} (fits : n < 16 ^ 16) (small : n < bound) :
    fromStrRadix16 bound (hex n) = some n :=
  fromStrRadix16_of_digits (hex_ne_nil n) (fun _ mem => mem_hex mem) (hexNumber_hex fits) small

theorem hexValue_lt {c : Char} {value : Nat} (found : hexValue c = some value) : value < 16 := by
  unfold hexValue at found
  dsimp only at found
  split at found
  · cases found
    omega
  · split at found
    · cases found
      omega
    · split at found
      · cases found
        omega
      · cases found

/-- Digits spell a number of at most their length. -/
theorem hexNumber_lt {digits : Str} {n : Nat} (number : hexNumber digits = some n) :
    n < 16 ^ digits.length := by
  have step (digits : Str) : ∀ before n, digits.foldlM
      (fun n c => (hexValue c).map (16 * n + ·)) before = some n →
      n < (before + 1) * 16 ^ digits.length := by
    induction digits with
    | nil =>
        intro before n read
        cases read
        simp
    | cons c digits ih =>
        intro before n read
        rw [List.foldlM_cons] at read
        rcases Option.bind_eq_some_iff.mp read with ⟨next, digit, later⟩
        rcases Option.map_eq_some_iff.mp digit with ⟨value, found, rfl⟩
        have below := hexValue_lt found
        apply Nat.lt_of_lt_of_le (ih _ n later)
        rw [List.length_cons, Nat.pow_succ', ← Nat.mul_assoc]
        apply Nat.mul_le_mul_right
        omega
  simpa using step digits 0 n number

/-- A number takes as many digits as it needs. -/
theorem lt_length_hex {n width : Nat} (fits : n < 16 ^ 16) (large : 16 ^ width ≤ n) :
    width < (hex n).length := by
  have bound := hexNumber_lt (hexNumber_hex fits)
  exact (Nat.pow_lt_pow_iff_right (by decide)).mp (Nat.lt_of_le_of_lt large bound)

/-- A number is written with digits and a sign. -/
theorem notMem_toString {c : Char} (noDigit : c.isDigit = false) (unsigned : c ≠ '-')
    (number : Int) : c ∉ (toString number).toList := by
  have digits (n : Nat) : c ∉ n.repr.toList := by
    intro mem
    rw [Nat.toList_repr] at mem
    have digit := Nat.isDigit_of_mem_toDigits (by decide) (by decide) mem
    cases digit.symm.trans noDigit
  rw [Int.toString_eq_repr, Int.repr_eq_if]
  split
  · exact digits _
  · rw [String.toList_append, List.mem_append]
    rintro (minus | mem)
    · exact unsigned (List.mem_singleton.mp minus)
    · exact digits _ mem

end Text

end Dce
