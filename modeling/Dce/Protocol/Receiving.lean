import Dce.Protocol.Semi

/-!
# Receiving a message

A message is received without a panic exactly when its head is not empty and its
body does not begin inside a character of the text as it arrived: the position
of the body is counted in the trimmed text, but used in the untrimmed one.
-/

namespace Dce.Protocol

open Text

/-- The separator, if there is one, comes after a head, and its end in the trimmed text is the
position of a character in the text as well. -/
def Receivable (text : Str) : Prop :=
  ∀ before after, find headBodySeparator (trim text) = some (before, after) →
    before ≠ [] ∧ (cut text (len before + len headBodySeparator)).isSome

/-- Read the heads of a text and then its body. -/
def receiveText (text : Except Str Str) : Outcome DceErr Router.Serialized := do
  let (_, bodyIndex) ← decode (text.toOption.elim [] trim)
  bodyOf text bodyIndex

theorem SemiTcpProtocol.receive_eq (value : ByteArray) :
    receive value = receiveText (textOf value) := by
  rw [receive, fromBytes, receiveText]
  cases decode ((textOf value).toOption.elim [] trim) with
  | ok heads => rfl
  | err error => rfl
  | panic => rfl

theorem SemiWebsocketProtocol.receive_eq {M : Type} [Message M] (value : M) :
    receive value = receiveText (Message.toText value) := by
  rw [receive, fromMessage, receiveText]
  cases decode ((Message.toText value).toOption.elim [] trim) with
  | ok heads => rfl
  | err error => rfl
  | panic => rfl

/-- The heads depend on what is before the separator alone. -/
theorem decode_of_before {before : Str} (head : before ≠ []) :
    ∃ heads, ∀ text after, find headBodySeparator text = some (before, after) →
      decode text = .ok (heads, len before + len headBodySeparator) := by
  cases split : lines before with
  | nil => exact absurd (lines_eq_nil.mp split) head
  | cons first headLines =>
      refine ⟨(headsOf first headLines).1.insert Router.headPathName (headsOf first headLines).2,
        ?_⟩
      intro text after found
      simp only [decode, found, split]

theorem decode_of_head {text before after : Str}
    (found : find headBodySeparator text = some (before, after)) (head : before ≠ []) :
    ∃ heads, decode text = .ok (heads, len before + len headBodySeparator) := by
  rcases decode_of_before head with ⟨heads, decoded⟩
  exact ⟨heads, decoded text after found⟩

theorem decode_of_no_head {text after : Str}
    (found : find headBodySeparator text = some ([], after)) : decode text = .panic := by
  simp [decode, found, lines_eq_nil.mpr]

theorem decode_of_unseparated {text : Str} (absent : find headBodySeparator text = none) :
    decode text = .ok ((∅ : Router.Heads).insert Router.headPathName text, 0) := by
  simp [decode, absent]

theorem returns_bodyOf_iff (text : Str) (bodyIndex : Nat) :
    (bodyOf (.ok text) bodyIndex).Returns ↔ (cut text bodyIndex).isSome := by
  cases found : cut text bodyIndex <;>
    simp [bodyOf, sliceFrom, found, Outcome.ofSlice, Outcome.Returns]

theorem returns_receiveText_iff (text : Str) :
    (receiveText (.ok text)).Returns ↔ Receivable text := by
  change (decode (trim text) >>= fun decoded => bodyOf (.ok text) decoded.2).Returns ↔ _
  cases found : find headBodySeparator (trim text) with
  | none =>
      simp [decode_of_unseparated found, returns_bodyOf_iff, Receivable, found, cut]
  | some parts =>
      rcases parts with ⟨before, after⟩
      by_cases head : before = []
      · subst head
        simp [decode_of_no_head found, Receivable, found, Outcome.Returns]
      · rcases decode_of_head found head with ⟨heads, decoded⟩
        simp [decoded, returns_bodyOf_iff, Receivable, found, head]

/-- What is no text has no separator. -/
theorem returns_receiveText_error (message : Str) : (receiveText (.error message)).Returns := by
  rintro ⟨⟩

theorem returns_receiveText (text : Except Str Str) :
    (receiveText text).Returns ↔
      ∀ content, text.toOption = some content → Receivable content := by
  cases text with
  | ok content => simp [returns_receiveText_iff, Except.toOption]
  | error message => simp [returns_receiveText_error, Except.toOption]

theorem SemiTcpProtocol.toOption_textOf (value : ByteArray) :
    (textOf value).toOption = fromUtf8 value := by
  rw [textOf]
  cases fromUtf8 value <;> rfl

/-- Bytes and messages are received without a panic exactly when their text, if they are one, is
receivable. -/
theorem receive_returns_iff (M : Type) [Message M] :
    (∀ bytes : ByteArray, (SemiTcpProtocol.receive bytes).Returns ↔
      ∀ text, fromUtf8 bytes = some text → Receivable text) ∧
    (∀ text : Str, (SemiWebsocketProtocol.receive (Message.text text : M)).Returns ↔
      Receivable text) ∧
    ∀ bytes : ByteArray, (SemiWebsocketProtocol.receive (Message.binary bytes : M)).Returns ↔
      ∀ text, fromUtf8 bytes = some text → Receivable text := by
  refine ⟨fun bytes => ?_, fun text => ?_, fun bytes => ?_⟩
  · rw [SemiTcpProtocol.receive_eq, returns_receiveText, SemiTcpProtocol.toOption_textOf]
  · rw [SemiWebsocketProtocol.receive_eq, Message.toText_text, returns_receiveText_iff]
  · rw [SemiWebsocketProtocol.receive_eq, returns_receiveText, Message.toText_binary]

/-- Messages that are kept as they came. -/
inductive PlainMessage where
  | text (content : Str)
  | binary (bytes : ByteArray)

instance plainMessage : Message PlainMessage where
  text := .text
  binary := .binary
  toText
    | .text content => .ok content
    | .binary bytes => SemiTcpProtocol.textOf bytes
  intoData
    | .text content => toBytes content
    | .binary bytes => bytes
  toText_text _ := rfl
  toText_binary := SemiTcpProtocol.toOption_textOf
  intoData_text _ := rfl
  intoData_binary _ := rfl

/-- A message that begins with the separator cannot be received. -/
theorem not_receive_returns :
    ¬((∀ bytes : ByteArray, (SemiTcpProtocol.receive bytes).Returns) ∧
      ∀ message : PlainMessage, (SemiWebsocketProtocol.receive message).Returns) := by
  rintro ⟨tcp, _⟩
  have received := tcp (toBytes ">BODY>>>x".toList)
  rw [SemiTcpProtocol.receive_eq, SemiTcpProtocol.textOf, fromUtf8_toBytes] at received
  have first : find headBodySeparator (trim ">BODY>>>x".toList) = some ([], ['x']) := by decide
  exact ((returns_receiveText_iff _).mp received [] ['x'] first).1 rfl

end Dce.Protocol
