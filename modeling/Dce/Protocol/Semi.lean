import Dce.Lib.Split
import Dce.Router.Protocol

/-!
# The semi protocols

A message begins with a line `id;path` and lines `name:value`, and its body
follows a separator. Over TCP and UDP a message is a sequence of bytes, over a
web socket it is a text or a binary message. Both kinds are read alike.
-/

namespace Dce.Protocol

open Router Text

def idPathSeparator : Char := ';'
def headBodySeparator : Str := ">BODY>>>".toList

/-- The messages of the web socket library, as far as a server is sent and sends them. -/
class Message (M : Type) where
  text : Str → M
  binary : ByteArray → M
  /-- The text of a message, or the text of the error that it has none. -/
  toText : M → Except Str Str
  intoData : M → ByteArray
  toText_text (content : Str) : toText (text content) = .ok content
  toText_binary (bytes : ByteArray) : (toText (binary bytes)).toOption = fromUtf8 bytes
  intoData_text (content : Str) : intoData (text content) = toBytes content
  intoData_binary (bytes : ByteArray) : intoData (binary bytes) = bytes

structure SemiTcpProtocol where
  info : Router.Meta ByteArray ByteArray
  bodyIndex : Nat

structure SemiWebsocketProtocol (M : Type) where
  info : Router.Meta M M
  bodyIndex : Nat
  binaryResponse : Bool

/-- The head that a line gives. -/
def headOf (line : Str) : Str × Str := (splitOnce ':' line).getD (line, [])

/-- The heads of a message that starts with the line `first`, without the path, and the path. -/
def headsOf (first : Str) (headLines : List Str) : Heads × Str :=
  let (heads, path) : Heads × Str := match splitOnce idPathSeparator first with
    | some (id, path) => ((∅ : Heads).insert headIdName id, path)
    | none => (∅, first)
  (headLines.foldl (fun heads line => heads.insert (headOf line).1 (headOf line).2) heads, path)

/-- The heads of a trimmed text and the position of its body. The list of head lines has no first
line to remove when it is empty. -/
def decode (text : Str) : Outcome DceErr (Heads × Nat) :=
  match find headBodySeparator text with
  | some (before, _) =>
      match lines before with
      | first :: headLines =>
          let (heads, path) := headsOf first headLines
          .ok (heads.insert headPathName path, len before + len headBodySeparator)
      | [] => .panic
  | none => .ok ((∅ : Heads).insert headPathName text, 0)

/-- The body of a message, which is cut from the text as it was before it was trimmed. -/
def bodyOf (text : Except Str Str) (bodyIndex : Nat) : Outcome DceErr Serialized :=
  match text with
  | .ok text => do
      let body ← .ofSlice (sliceFrom text bodyIndex)
      return .string body
  | .error message => .err (.closed0 message)

def emptyRequest : DceErr := .closed0 "Empty request".toList

namespace SemiTcpProtocol

/-- `String::from_utf8`, with the text of its error. -/
def textOf (bytes : ByteArray) : Except Str Str :=
  match fromUtf8 bytes with
  | some text => .ok text
  | none => .error (utf8ErrorOf bytes).message

def fromBytes (value : ByteArray) : Outcome DceErr SemiTcpProtocol := do
  let (heads, bodyIndex) ← decode ((textOf value).toOption.elim [] trim)
  return { info := .new value heads, bodyIndex }

def body (self : SemiTcpProtocol) : Outcome DceErr Serialized × SemiTcpProtocol :=
  let taken := { self with info := { self.info with req := none } }
  match self.info.req with
  | some req => (bodyOf (textOf req) self.bodyIndex, taken)
  | none => (.err emptyRequest, taken)

/-- Read a message and its body. -/
def receive (value : ByteArray) : Outcome DceErr Serialized := do
  let self ← fromBytes value
  self.body.1

def packResp (_ : SemiTcpProtocol) : Serialized → ByteArray
  | .string text => toBytes text
  | .bytes bytes => bytes

end SemiTcpProtocol

namespace SemiWebsocketProtocol

variable {M : Type} [Message M]

def fromMessage (value : M) : Outcome DceErr (SemiWebsocketProtocol M) := do
  let (heads, bodyIndex) ← decode ((Message.toText value).toOption.elim [] trim)
  return { info := .new value heads, bodyIndex, binaryResponse := false }

omit [Message M] in
def binary (self : SemiWebsocketProtocol M) : SemiWebsocketProtocol M :=
  { self with binaryResponse := true }

def body (self : SemiWebsocketProtocol M) :
    Outcome DceErr Serialized × SemiWebsocketProtocol M :=
  let taken := { self with info := { self.info with req := none } }
  match self.info.req with
  | some req => (bodyOf (Message.toText req) self.bodyIndex, taken)
  | none => (.err emptyRequest, taken)

/-- Read a message and its body. -/
def receive (value : M) : Outcome DceErr Serialized := do
  let self ← fromMessage value
  self.body.1

/-- The text of a serialized response, with replacement characters for what is no text. -/
def lossy : Serialized → Str
  | .string text => text
  | .bytes bytes => fromUtf8Lossy (bytes.size + 1) bytes

def packResp (_ : SemiWebsocketProtocol M) (serialized : Serialized) : M :=
  Message.text (lossy serialized)

end SemiWebsocketProtocol

def headLine (head : Str × Str) : Str := '\n' :: head.1 ++ ':' :: head.2

/-- The part of a reply before its body. -/
def headText {Req Resp : Type} (order : IterOrder) (info : Router.Meta Req Resp) : Str :=
  info.id.elim [] (· ++ [idPathSeparator]) ++ info.path ++
    (order.entries info.respHeads).flatMap headLine ++ '\n' :: headBodySeparator ++ ['\n']

def SemiTcpProtocol.into (order : IterOrder) (self : SemiTcpProtocol) : ByteArray :=
  match self.info.resp with
  | some (.raw resp) => resp
  | some (.serialized sd) => toBytes (headText order self.info) ++ self.packResp sd
  | none => toBytes (headText order self.info)

def SemiWebsocketProtocol.into {M : Type} [Message M] (order : IterOrder)
    (self : SemiWebsocketProtocol M) : M :=
  match self.info.resp with
  | some (.raw resp) => resp
  | some (.serialized sd) =>
      if self.binaryResponse then
        Message.binary (toBytes (headText order self.info) ++
          match sd with
          | .bytes bytes => bytes
          | .string text => toBytes text)
      else Message.text (headText order self.info ++ lossy sd)
  | none =>
      if self.binaryResponse then Message.binary (toBytes (headText order self.info))
      else Message.text (headText order self.info)

end Dce.Protocol
