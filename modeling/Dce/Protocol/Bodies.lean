import Dce.Protocol.Receiving

/-!
# The body of a message

The separator is searched in the trimmed text, and the position behind it is
used in the text as it arrived. The body is what follows the separator exactly
when nothing was trimmed in front of it.
-/

namespace Dce.Protocol

open Text

/-- The heads of a message and what reading its body gives. -/
abbrev Reading := Outcome DceErr (Router.Heads × Outcome DceErr Router.Serialized)

def SemiTcpProtocol.read (value : ByteArray) : Reading := do
  let self ← fromBytes value
  return (self.info.heads, self.body.1)

def SemiWebsocketProtocol.read {M : Type} [Message M] (value : M) : Reading := do
  let self ← fromMessage value
  return (self.info.heads, self.body.1)

/-- A text that holds the separator is read with what follows it as the body, and any text with
the same part before the separator with the same heads. -/
def SplitsAtSeparator (read : Str → Reading) (text : Str) : Prop :=
  ∀ before after, find headBodySeparator text = some (before, after) →
    ∃ heads, read text = .ok (heads, .ok (.string after)) ∧
      ∀ text' after', find headBodySeparator text' = some (before, after') →
        ∃ body, read text' = .ok (heads, body)

/-- The separator, if there is one, comes after a head that does not begin with white space. -/
def BeginsWithHead (text : Str) : Prop :=
  ∀ before after, find headBodySeparator text = some (before, after) →
    ∃ c head, before = c :: head ∧ isWhitespace c = false

/-- Read the heads and the body of a text. -/
def readText (text : Except Str Str) : Reading := do
  let (heads, bodyIndex) ← decode (text.toOption.elim [] trim)
  return (heads, bodyOf text bodyIndex)

theorem SemiTcpProtocol.read_eq (value : ByteArray) : read value = readText (textOf value) := by
  rw [read, fromBytes, readText]
  cases decode ((textOf value).toOption.elim [] trim) with
  | ok heads => rfl
  | err error => rfl
  | panic => rfl

theorem SemiWebsocketProtocol.read_eq {M : Type} [Message M] (value : M) :
    read value = readText (Message.toText value) := by
  rw [read, fromMessage, readText]
  cases decode ((Message.toText value).toOption.elim [] trim) with
  | ok heads => rfl
  | err error => rfl
  | panic => rfl

theorem find_trim {text before after : Str}
    (found : find headBodySeparator text = some (before, after)) :
    find headBodySeparator (trim text) =
      some (before.dropWhile isWhitespace, trimEndBy isWhitespace after) :=
  find_trimBy "BODY>>".toList rfl rfl found

theorem readText_of_no_head {text after : Str}
    (found : find headBodySeparator (trim text) = some ([], after)) :
    readText (.ok text) = .panic := by
  have panics := decode_of_no_head found
  simp [readText, Except.toOption, panics]

theorem readText_of_before {before : Str} (head : before ≠ []) :
    ∃ heads, ∀ text after, find headBodySeparator (trim text) = some (before, after) →
      readText (.ok text) =
        .ok (heads, bodyOf (.ok text) (len before + len headBodySeparator)) := by
  rcases decode_of_before head with ⟨heads, decoded⟩
  refine ⟨heads, ?_⟩
  intro text after found
  have read := decoded (trim text) after found
  simp [readText, Except.toOption, read]

theorem bodyOf_eq_ok_iff {text body : Str} {bodyIndex : Nat} :
    bodyOf (.ok text) bodyIndex = .ok (.string body) ↔
      ∃ left, text = left ++ body ∧ len left = bodyIndex := by
  constructor
  · intro cutOff
    cases found : cut text bodyIndex with
    | none => simp [bodyOf, sliceFrom, found, Outcome.ofSlice] at cutOff
    | some parts =>
        rcases parts with ⟨left, right⟩
        have same : right = body := by
          simpa [bodyOf, sliceFrom, found, Outcome.ofSlice] using cutOff
        subst same
        exact ⟨left, eq_of_cut found⟩
  · rintro ⟨left, rfl, rfl⟩
    simp [bodyOf, sliceFrom, cut_len, Outcome.ofSlice]

/-- Nothing was dropped in front of a text that kept its length. -/
theorem dropWhile_eq_self (drop : Char → Bool) (text : Str)
    (kept : len (text.dropWhile drop) = len text) : text.dropWhile drop = text := by
  have whole := List.takeWhile_append_dropWhile (p := drop) (l := text)
  have lengths := congrArg len whole
  rw [len_append, kept] at lengths
  have none := length_le_len (text.takeWhile drop)
  have empty : text.takeWhile drop = [] := List.eq_nil_of_length_eq_zero (by omega)
  rw [empty, List.nil_append] at whole
  exact whole

theorem splitsAtSeparator_readText_iff (text : Str) :
    SplitsAtSeparator (fun text => readText (.ok text)) text ↔ BeginsWithHead text := by
  constructor
  · intro splits before after found
    rcases splits before after found with ⟨heads, read, _⟩
    change readText (.ok text) = _ at read
    have trimmed := find_trim found
    cases kept : before.dropWhile isWhitespace with
    | nil =>
        rw [kept] at trimmed
        rw [readText_of_no_head trimmed] at read
        cases read
    | cons c head =>
        rw [kept] at trimmed
        rcases readText_of_before (List.cons_ne_nil c head) with ⟨heads', reads⟩
        rw [reads text _ trimmed] at read
        rcases bodyOf_eq_ok_iff.mp (congrArg (·.2) (Outcome.ok.inj read)) with
          ⟨left, parts, position⟩
        have begins : left = before ++ headBodySeparator := by
          have whole := eq_of_find found
          rw [parts] at whole
          exact List.append_cancel_right whole
        rw [begins, len_append, ← kept] at position
        have same := dropWhile_eq_self isWhitespace before (by omega)
        refine ⟨c, head, same.symm.trans kept, ?_⟩
        have first := List.head?_dropWhile_not isWhitespace before
        simpa [kept] using first
  · intro begins before after found
    rcases begins before after found with ⟨c, head, rfl, visible⟩
    have unpadded : (c :: head).dropWhile isWhitespace = c :: head :=
      List.dropWhile_cons_of_neg (by simp [visible])
    rcases readText_of_before (List.cons_ne_nil c head) with ⟨heads, reads⟩
    refine ⟨heads, ?_, ?_⟩
    · have trimmed := find_trim found
      rw [unpadded] at trimmed
      have body : bodyOf (.ok text) (len (c :: head) + len headBodySeparator) =
          .ok (.string after) :=
        bodyOf_eq_ok_iff.mpr
          ⟨c :: head ++ headBodySeparator, eq_of_find found, len_append _ _⟩
      change readText (.ok text) = _
      rw [reads text _ trimmed, body]
    · intro text' after' found'
      have trimmed := find_trim found'
      rw [unpadded] at trimmed
      exact ⟨_, reads text' _ trimmed⟩

theorem SemiTcpProtocol.read_toBytes (text : Str) : read (toBytes text) = readText (.ok text) := by
  rw [read_eq, textOf, fromUtf8_toBytes]

theorem SemiWebsocketProtocol.read_text {M : Type} [Message M] (text : Str) :
    read (Message.text text : M) = readText (.ok text) := by
  rw [read_eq, Message.toText_text]

theorem SemiWebsocketProtocol.read_binary {M : Type} [Message M] (text : Str) :
    read (Message.binary (toBytes text) : M) = readText (.ok text) := by
  have isText := Message.toText_binary (M := M) (toBytes text)
  rw [fromUtf8_toBytes] at isText
  cases read : (Message.toText (Message.binary (toBytes text) : M)) with
  | error message =>
      rw [read] at isText
      cases isText
  | ok content =>
      rw [read] at isText
      cases isText
      rw [read_eq, read]

/-- A text message is split at its separator exactly when it begins with a head that no white
space precedes. -/
theorem splits_iff (M : Type) [Message M] (text : Str) :
    (SplitsAtSeparator (fun text => SemiTcpProtocol.read (toBytes text)) text ↔
      BeginsWithHead text) ∧
    (SplitsAtSeparator (fun text => SemiWebsocketProtocol.read (Message.text text : M)) text ↔
      BeginsWithHead text) ∧
    (SplitsAtSeparator
        (fun text => SemiWebsocketProtocol.read (Message.binary (toBytes text) : M)) text ↔
      BeginsWithHead text) := by
  have same := splitsAtSeparator_readText_iff text
  simp only [SemiTcpProtocol.read_toBytes, SemiWebsocketProtocol.read_text,
    SemiWebsocketProtocol.read_binary]
  exact ⟨same, same, same⟩

/-- With a line break in front of a message its body begins with the end of the separator. -/
theorem not_splits :
    ¬∀ text, SplitsAtSeparator (fun text => SemiTcpProtocol.read (toBytes text)) text ∧
      SplitsAtSeparator
        (fun text => SemiWebsocketProtocol.read (Message.text text : PlainMessage)) text := by
  intro splits
  have tcp := (splits "\n1;a>BODY>>>x".toList).1
  simp only [SemiTcpProtocol.read_toBytes] at tcp
  have begins := (splitsAtSeparator_readText_iff _).mp tcp
  have first : find headBodySeparator "\n1;a>BODY>>>x".toList = some ("\n1;a".toList, ['x']) := by
    decide
  rcases begins _ _ first with ⟨c, head, parts, visible⟩
  rcases List.cons.inj parts with ⟨rfl, _⟩
  cases visible

end Dce.Protocol
