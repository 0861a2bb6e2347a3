import Dce.Lib.Parts
import Dce.Router.Protocol

/-!
# The session of an http request

The sid comes in a header of its own or in a cookie. The header is taken to be
readable as text, and the cookie is searched for by a piece of text that any
other cookie may hold as well.
-/

namespace Dce.Protocol

open Router Text

/-- The header values of the http library, which reads visible ASCII as text. -/
class HeaderValue (V : Type) where
  octets : V → List UInt8
  toStr : V → Option Str
  toStr_eq (value : V) : toStr value =
    if (octets value).all (fun octet => 32 ≤ octet && octet < 127 || octet == 9) then
      some ((octets value).map fun octet => Char.ofNat octet.toNat)
    else none

/-- A request, with the names of its headers in lower case and in the order in which they came. -/
structure HttpRequest (V : Type) where
  path : Str
  headers : List (Str × V)
  body : Except Str ByteArray

def sessionHeader : Str := "x-session-id".toList
def cookieHeader : Str := "cookie".toList
def cookieSeparator : Char := ';'
def sessionMark : Str := "session_id=".toList

namespace HttpRequest

variable {V : Type}

/-- The first header of a name. -/
def header (request : HttpRequest V) (name : Str) : Option V := request.headers.lookup name

end HttpRequest

structure HyperHttpProtocol (V Resp : Type) where
  info : Meta (HttpRequest V) Resp

namespace HyperHttpProtocol

variable {V Resp : Type}

def ofRequest (value : HttpRequest V) : HyperHttpProtocol V Resp where
  info := .new value ∅

def path (self : HyperHttpProtocol V Resp) : Str :=
  self.info.req.elim [] fun req => req.path.dropWhile (· = '/')

def body (self : HyperHttpProtocol V Resp) :
    Outcome DceErr Serialized × HyperHttpProtocol V Resp :=
  let taken := { self with info := { self.info with req := none } }
  match self.info.req with
  | some req =>
      match req.body with
      | .ok bytes => (.ok (.bytes bytes), taken)
      | .error message => (.err (.closed0 message), taken)
  | none => (.err (.closed0 "Empty request".toList), taken)

variable [HeaderValue V]

/-- The text behind the mark, if a piece holds it. -/
def behindMark (piece : Str) : Option Str := (find sessionMark piece).map Prod.snd

def sid (self : HyperHttpProtocol V Resp) : Outcome DceErr (Option Str) :=
  match self.info.req with
  | none => .ok none
  | some req =>
      match req.header sessionHeader with
      | some value =>
          match HeaderValue.toStr value with
          | some text => .ok (some text)
          | none => .panic
      | none =>
          .ok ((req.header cookieHeader).bind fun value =>
            (((HeaderValue.toStr value).getD []).splitOn cookieSeparator).findSome? behindMark)

end HyperHttpProtocol

/-- The characters that may stand in a readable header. -/
def isVisible (c : Char) : Bool := 32 ≤ c.toNat && c.toNat < 127 || c.toNat == 9

/-- The value of the session cookie in a piece between semicolons: its name is all of the piece up
to the equals sign, the blanks in front aside. -/
def cookieValue (piece : Str) : Option Str :=
  let cookie := piece.dropWhile fun c => c = ' ' || c = '\t'
  if sessionMark.isPrefixOf cookie then some (cookie.drop sessionMark.length) else none

namespace HttpRequest

variable {V : Type} [HeaderValue V]

/-- The pieces of all cookie headers. -/
def cookies (request : HttpRequest V) : List Str :=
  (request.headers.filter (·.1 = cookieHeader)).flatMap fun header =>
    ((HeaderValue.octets header.2).map fun octet => Char.ofNat octet.toNat).splitOn cookieSeparator

/-- The value of the first session cookie, if it is readable. -/
def sessionCookie (request : HttpRequest V) : Option Str :=
  (request.cookies.findSome? cookieValue).filter (·.all isVisible)

/-- The session that a request names. -/
def namedSid (request : HttpRequest V) : Option Str :=
  ((request.header sessionHeader).bind HeaderValue.toStr).or request.sessionCookie

/-- The pieces of the first cookie header as they are searched. -/
def pieces (request : HttpRequest V) : List Str :=
  (request.header cookieHeader).elim [] fun value =>
    ((HeaderValue.toStr value).getD []).splitOn cookieSeparator

/-- The header of the session is readable if it is there. If it is not, the first piece of the
first cookie header that holds the mark is a session cookie, and without such a piece there is no
session cookie with a readable value. -/
structure ReadsNamed (request : HttpRequest V) : Prop where
  readable : ∀ value, request.header sessionHeader = some value →
    (HeaderValue.toStr value).isSome
  marked : request.header sessionHeader = none → ∀ piece,
    request.pieces.find? (fun piece => (HyperHttpProtocol.behindMark piece).isSome) = some piece →
    (cookieValue piece).isSome
  unmarked : request.header sessionHeader = none →
    (∀ piece ∈ request.pieces, HyperHttpProtocol.behindMark piece = none) →
    ∀ value, request.cookies.findSome? cookieValue = some value → value.all isVisible = false

/-- No two cookies hold the same text behind the mark. -/
def Unrepeated (request : HttpRequest V) : Prop :=
  (request.cookies.filterMap HyperHttpProtocol.behindMark).Nodup

end HttpRequest

open HyperHttpProtocol HttpRequest

section Readable

variable {V : Type} [HeaderValue V] {value : V} {text : Str}

theorem toNat_ofNat {n : Nat} (small : n < 0xD800) : (Char.ofNat n).toNat = n := by
  rw [Char.ofNat, dif_pos (Or.inl small)]
  rfl

theorem eq_of_toStr (read : HeaderValue.toStr value = some text) :
    text = (HeaderValue.octets value).map fun octet => Char.ofNat octet.toNat := by
  rw [HeaderValue.toStr_eq] at read
  split at read
  · exact (Option.some.inj read).symm
  · cases read

theorem isVisible_of_toStr (read : HeaderValue.toStr value = some text) {c : Char}
    (mem : c ∈ text) : isVisible c = true := by
  have same := eq_of_toStr read
  rw [HeaderValue.toStr_eq] at read
  split at read
  · rename_i visible
    rw [same] at mem
    rcases List.mem_map.mp mem with ⟨octet, within, rfl⟩
    have range := List.all_eq_true.mp visible octet within
    simp only [Bool.or_eq_true, Bool.and_eq_true, decide_eq_true_eq, beq_iff_eq,
      UInt8.le_iff_toNat_le, UInt8.lt_iff_toNat_lt] at range
    have code : (Char.ofNat octet.toNat).toNat = octet.toNat :=
      toNat_ofNat (octet.toNat_lt.trans (by decide))
    simpa [isVisible, code, ← UInt8.toNat_inj] using range
  · cases read

end Readable

/-- A text that begins with `needle` behind what is dropped holds it there first. -/
theorem find_of_dropWhile {drop : Char → Bool} {first : Char} {text rest : Str} (needle : Str)
    (begins : drop first = false) (starts : text.dropWhile drop = first :: needle ++ rest) :
    (find (first :: needle) text).map Prod.snd = some rest := by
  have bare := find_self (List.cons_ne_nil first needle) rest
  rw [← starts, find_dropWhile begins] at bare
  rcases Option.map_eq_some_iff.mp bare with ⟨⟨before, after⟩, found, eq⟩
  rw [found]
  exact congrArg some (Prod.mk.inj eq).2

/-- The session cookie holds the mark, with its value behind it. -/
theorem behindMark_of_cookieValue {piece sid : Str} (named : cookieValue piece = some sid) :
    behindMark piece = some sid := by
  rw [cookieValue, Option.ite_none_right_eq_some] at named
  rcases named with ⟨starts, value⟩
  rcases List.isPrefixOf_iff_prefix.mp starts with ⟨rest, cookie⟩
  have found := find_of_dropWhile "ession_id=".toList rfl cookie.symm
  rw [← cookie, List.drop_left] at value
  rw [← Option.some.inj value]
  exact found

/-- The first member for which `read` has a value decides. -/
theorem findSome?_of_find? {α β : Type} {read : α → Option β} {values : List α} {first : α}
    (found : values.find? (fun value => (read value).isSome) = some first) :
    values.findSome? read = read first := by
  rcases List.find?_eq_some_iff_append.mp found with ⟨has, before, after, rfl, apart⟩
  have none : before.findSome? read = none := by
    rw [List.findSome?_eq_none_iff]
    intro value mem
    simpa using apart value mem
  rw [List.findSome?_append, none, Option.none_or, List.findSome?_cons_of_isSome has]

/-- Members with the same value are the same if no value comes twice. -/
theorem eq_of_nodup_filterMap {α β : Type} {read : α → Option β} {values : List α}
    (nodup : (values.filterMap read).Nodup) {left right : α} (leftMem : left ∈ values)
    (rightMem : right ∈ values) {value : β} (atLeft : read left = some value)
    (atRight : read right = some value) : left = right := by
  induction values with
  | nil => cases leftMem
  | cons first rest ih =>
      have later {member : α} (mem : member ∈ rest) (own : read member = some value) :
          value ∈ rest.filterMap read := List.mem_filterMap.mpr ⟨member, mem, own⟩
      rw [List.filterMap_cons] at nodup
      rcases List.mem_cons.mp leftMem with rfl | leftLater
      · rcases List.mem_cons.mp rightMem with rfl | rightLater
        · rfl
        · rw [atLeft] at nodup
          exact absurd (later rightLater atRight) (List.nodup_cons.mp nodup).1
      · rcases List.mem_cons.mp rightMem with rfl | rightLater
        · rw [atRight] at nodup
          exact absurd (later leftLater atLeft) (List.nodup_cons.mp nodup).1
        · refine ih ?_ leftLater rightLater
          cases own : read first with
          | none => simpa [own] using nodup
          | some other =>
              rw [own] at nodup
              exact (List.nodup_cons.mp nodup).2

variable {V Resp : Type} [HeaderValue V] (request : HttpRequest V)

/-- The cookies begin with those of the first cookie header. -/
theorem cookies_of_header {value : V} (first : request.header cookieHeader = some value) :
    ∃ later, request.cookies =
      ((HeaderValue.octets value).map fun octet => Char.ofNat octet.toNat).splitOn cookieSeparator
        ++ later := by
  rcases List.lookup_eq_some_iff.mp first with ⟨before, after, headers, apart⟩
  have none : before.filter (·.1 = cookieHeader) = [] := by
    rw [List.filter_eq_nil_iff]
    intro header mem same
    simpa [of_decide_eq_true same] using apart header mem
  refine ⟨(after.filter (·.1 = cookieHeader)).flatMap fun header =>
    ((HeaderValue.octets header.2).map fun octet => Char.ofNat octet.toNat).splitOn
      cookieSeparator, ?_⟩
  rw [cookies, headers, List.filter_append, none]
  simp

theorem pieces_of_readable {value : V} {text : Str}
    (first : request.header cookieHeader = some value)
    (read : HeaderValue.toStr value = some text) :
    request.pieces = text.splitOn cookieSeparator ∧
      ∃ later, request.cookies = request.pieces ++ later := by
  have whole : request.pieces = text.splitOn cookieSeparator := by simp [pieces, first, read]
  rcases cookies_of_header request first with ⟨later, cookies⟩
  rw [← eq_of_toStr read] at cookies
  exact ⟨whole, later, by rw [whole, cookies]⟩

/-- What holds the mark comes from a readable header. -/
theorem readable_of_piece {piece : Str} (mem : piece ∈ request.pieces)
    (marked : (behindMark piece).isSome) :
    ∃ value text, request.header cookieHeader = some value ∧
      HeaderValue.toStr value = some text := by
  cases first : request.header cookieHeader with
  | none => simp [pieces, first] at mem
  | some value =>
      cases read : HeaderValue.toStr value with
      | some text => exact ⟨value, text, rfl, read⟩
      | none =>
          have empty : piece = [] := by simpa [pieces, first, read] using mem
          rw [empty] at marked
          cases marked

/-- A session cookie that is searched first is the session cookie of the request. -/
theorem sessionCookie_of_first {piece sid : Str}
    (first : request.pieces.find? (fun piece => (behindMark piece).isSome) = some piece)
    (named : cookieValue piece = some sid) : request.sessionCookie = some sid := by
  have marked := behindMark_of_cookieValue named
  have mem := List.mem_of_find?_eq_some first
  rcases readable_of_piece request mem (by simp [marked]) with ⟨value, text, header, read⟩
  rcases pieces_of_readable request header read with ⟨whole, later, cookies⟩
  rcases List.find?_eq_some_iff_append.mp first with ⟨_, before, after, parts, apart⟩
  have unnamed : before.findSome? cookieValue = none := by
    rw [List.findSome?_eq_none_iff]
    intro other earlier
    cases value : cookieValue other with
    | none => rfl
    | some sid =>
        have absent := apart other earlier
        rw [behindMark_of_cookieValue value] at absent
        cases absent
  have visible : sid.all isVisible = true := by
    rw [List.all_eq_true]
    intro c within
    rcases Option.map_eq_some_iff.mp marked with ⟨⟨front, rest⟩, found, rfl⟩
    apply isVisible_of_toStr read
    rw [whole] at mem
    apply mem_of_mem_splitOn mem
    rw [eq_of_find found]
    exact List.mem_append_right _ within
  rw [sessionCookie, cookies, parts, List.append_assoc, List.findSome?_append, unnamed,
    Option.none_or, List.cons_append, List.findSome?_cons_of_isSome (by simp [named]), named]
  simp [visible]

theorem sid_of_header {value : V} (header : request.header sessionHeader = some value) :
    (ofRequest request : HyperHttpProtocol V Resp).sid = .ok request.namedSid ↔
      (HeaderValue.toStr value).isSome := by
  cases read : HeaderValue.toStr value with
  | some text => simp [sid, ofRequest, Meta.new, namedSid, header, read]
  | none => simp [sid, ofRequest, Meta.new, header, read]

theorem sid_of_no_header (header : request.header sessionHeader = none) :
    (ofRequest request : HyperHttpProtocol V Resp).sid = .ok request.namedSid ↔
      request.pieces.findSome? behindMark = request.sessionCookie := by
  have named : request.namedSid = request.sessionCookie := by simp [namedSid, header]
  rw [named]
  cases cookie : request.header cookieHeader with
  | none => simp [sid, ofRequest, Meta.new, header, pieces, cookie]
  | some value => simp [sid, ofRequest, Meta.new, header, pieces, cookie]

theorem sessionCookie_eq_none_iff : request.sessionCookie = none ↔
    ∀ value, request.cookies.findSome? cookieValue = some value →
      value.all isVisible = false := by
  rw [sessionCookie, Option.filter_eq_none_iff]
  simp

/-- The piece that is searched first holds the value of the session cookie. -/
theorem findSome?_pieces (header : request.header sessionHeader = none)
    (reads : request.ReadsNamed) :
    request.pieces.findSome? behindMark = request.sessionCookie := by
  cases first : request.pieces.find? (fun piece => (behindMark piece).isSome) with
  | none =>
      have unmarked : ∀ piece ∈ request.pieces, behindMark piece = none := by
        intro piece mem
        simpa using List.find?_eq_none.mp first piece mem
      rw [(sessionCookie_eq_none_iff request).mpr (reads.unmarked header unmarked),
        List.findSome?_eq_none_iff]
      exact unmarked
  | some piece =>
      rw [findSome?_of_find? first]
      rcases Option.isSome_iff_exists.mp (reads.marked header piece first) with ⟨sid, value⟩
      rw [behindMark_of_cookieValue value, sessionCookie_of_first request first value]

/-- Where no two cookies hold the same text behind the mark, the piece that gives the value of the
session cookie is the session cookie. -/
theorem readsNamed_of_findSome? (unrepeated : request.Unrepeated)
    (header : request.header sessionHeader = none)
    (same : request.pieces.findSome? behindMark = request.sessionCookie) :
    request.ReadsNamed := by
  refine ⟨by simp [header], ?_, ?_⟩
  · intro _ piece first
    rw [findSome?_of_find? first] at same
    have mem := List.mem_of_find?_eq_some first
    have marked := List.find?_some first
    rcases Option.isSome_iff_exists.mp marked with ⟨sid, behind⟩
    rcases readable_of_piece request mem marked with ⟨value, text, cookie, read⟩
    rcases pieces_of_readable request cookie read with ⟨_, later, cookies⟩
    rw [behind, sessionCookie] at same
    have named := (Option.filter_eq_some_iff.mp same.symm).1
    rcases List.exists_of_findSome?_eq_some named with ⟨other, otherMem, value_eq⟩
    have behind' := behindMark_of_cookieValue value_eq
    have pieceMem : piece ∈ request.cookies := by
      rw [cookies]
      exact List.mem_append_left _ mem
    rw [eq_of_nodup_filterMap unrepeated pieceMem otherMem behind behind', value_eq]
    rfl
  · intro _ unmarked
    rw [← sessionCookie_eq_none_iff, ← same, List.findSome?_eq_none_iff]
    exact unmarked

/-- The sid is that of the request when the header is readable and the mark leads to the session
cookie, and only then if no two cookies hold the same text behind the mark. -/
theorem sid_eq_iff :
    (request.ReadsNamed →
      (ofRequest request : HyperHttpProtocol V Resp).sid = .ok request.namedSid) ∧
    (request.Unrepeated →
      (ofRequest request : HyperHttpProtocol V Resp).sid = .ok request.namedSid →
      request.ReadsNamed) := by
  cases header : request.header sessionHeader with
  | none =>
      rw [sid_of_no_header request header]
      exact ⟨findSome?_pieces request header,
        fun unrepeated => readsNamed_of_findSome? request unrepeated header⟩
  | some value =>
      rw [sid_of_header request header]
      refine ⟨fun reads => reads.readable value header, fun _ readable => ?_⟩
      exact ⟨by simpa [header] using readable, by simp [header], by simp [header]⟩

/-- Bytes that may stand in a header. -/
structure HeaderBytes where
  octets : List UInt8
  admissible : octets.all (fun octet => 32 ≤ octet && octet != 127 || octet == 9)

instance headerBytes : HeaderValue HeaderBytes where
  octets := HeaderBytes.octets
  toStr value :=
    if value.octets.all (fun octet => 32 ≤ octet && octet < 127 || octet == 9) then
      some (value.octets.map fun octet => Char.ofNat octet.toNat)
    else none
  toStr_eq _ := rfl

/-- The cookies `a=b` and `session_id=1`. -/
def wellNamed : HttpRequest HeaderBytes where
  path := "/".toList
  headers :=
    [(cookieHeader, ⟨"a=b; session_id=1".toList.map fun c => UInt8.ofNat c.toNat, by decide⟩)]
  body := .ok .empty

/-- The session cookie is found behind another one. -/
theorem sid_eq_iff_wellNamed :
    wellNamed.ReadsNamed ∧
      (ofRequest wellNamed : HyperHttpProtocol HeaderBytes Unit).sid = .ok wellNamed.namedSid ∧
      wellNamed.namedSid = some ['1'] := by
  have converse : wellNamed.Unrepeated →
      (ofRequest wellNamed : HyperHttpProtocol HeaderBytes Unit).sid = .ok wellNamed.namedSid →
      wellNamed.ReadsNamed := (sid_eq_iff wellNamed).2
  have reads := converse (by rw [Unrepeated]; decide) (by decide)
  exact ⟨reads, (sid_eq_iff wellNamed).1 reads, by decide⟩

/-- A byte that is no ASCII in the header of the session. -/
def unreadable : HttpRequest HeaderBytes where
  path := "/".toList
  headers := [(sessionHeader, ⟨[0xE9], by decide⟩)]
  body := .ok .empty

/-- The cookie `xsession_id=1`. -/
def lookalike : HttpRequest HeaderBytes where
  path := "/".toList
  headers :=
    [(cookieHeader, ⟨"xsession_id=1".toList.map fun c => UInt8.ofNat c.toNat, by decide⟩)]
  body := .ok .empty

/-- A request can make the server panic, and give it the value of another cookie. -/
theorem not_sid_eq :
    (ofRequest unreadable : HyperHttpProtocol HeaderBytes Unit).sid ≠ .ok unreadable.namedSid ∧
      (ofRequest lookalike : HyperHttpProtocol HeaderBytes Unit).sid = .ok (some ['1']) ∧
      lookalike.namedSid = none := by
  decide

end Dce.Protocol
