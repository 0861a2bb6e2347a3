import Dce.Protocol.Receiving

/-!
# What a reply tells of its request

A reply that is built from a result begins with the id and the path of its
request and carries the heads that were set for it. An error is packed as a raw
response, which leaves nothing but the error's text.
-/

namespace Dce.Protocol

open Router Text

def SemiTcpProtocol.protocol (order : IterOrder) :
    RoutableProtocol SemiTcpProtocol ByteArray ByteArray where
  info self := self.info
  withInfo self info := { self with info }
  packResp := packResp
  into := into order
  info_withInfo _ _ := rfl

def SemiWebsocketProtocol.protocol {M : Type} [Message M] (order : IterOrder) :
    RoutableProtocol (SemiWebsocketProtocol M) M M where
  info self := self.info
  withInfo self info := { self with info }
  packResp := packResp
  into := into order
  info_withInfo _ _ := rfl

def idPath (id : Option Str) (path : Str) : Str := id.elim [] (· ++ [idPathSeparator]) ++ path

/-- A frame begins with the id and the path and carries every head of the reply. -/
structure Identifies (id : Option Str) (path : Str) (respHeads : Heads) (frame : ByteArray) :
    Prop where
  begins : ∃ rest, frame = toBytes (idPath id path) ++ rest
  carries (name value : Str) : respHeads[name]? = some value →
    ∃ before after, frame = before ++ (toBytes (headLine (name, value)) ++ after)

/-- A text happens to begin with the id and the path and to contain every head of the reply. -/
structure Spells (id : Option Str) (path : Str) (respHeads : Heads) (text : Str) : Prop where
  begins : idPath id path <+: text
  carries (name value : Str) : respHeads[name]? = some value → headLine (name, value) <:+: text

variable {id : Option Str} {path : Str} {respHeads : Heads} {Rp Req Resp : Type}

theorem identifies_toBytes_iff {text : Str} :
    Identifies id path respHeads (toBytes text) ↔ Spells id path respHeads text := by
  constructor
  · intro identifies
    constructor
    · rcases identifies.begins with ⟨rest, eq⟩
      exact prefix_of_bytes eq.symm
    · intro name value stored
      rcases identifies.carries name value stored with ⟨before, after, eq⟩
      exact infix_of_bytes (List.cons_ne_nil _ _) eq.symm
  · intro spells
    constructor
    · rcases spells.begins with ⟨rest, eq⟩
      exact ⟨toBytes rest, by rw [← eq, toBytes_append]⟩
    · intro name value stored
      rcases spells.carries name value stored with ⟨before, after, eq⟩
      refine ⟨toBytes before, toBytes after, ?_⟩
      rw [← eq, toBytes_append, toBytes_append, ByteArray.append_assoc]

theorem Identifies.append {frame : ByteArray} (identifies : Identifies id path respHeads frame)
    (body : ByteArray) : Identifies id path respHeads (frame ++ body) := by
  constructor
  · rcases identifies.begins with ⟨rest, rfl⟩
    exact ⟨rest ++ body, ByteArray.append_assoc⟩
  · intro name value stored
    rcases identifies.carries name value stored with ⟨before, after, rfl⟩
    exact ⟨before, after ++ body, by simp [ByteArray.append_assoc]⟩

/-- The head of a frame says what is asked of it. -/
theorem spells_headText (order : IterOrder) (info : Router.Meta Req Resp) :
    Spells info.id info.path info.respHeads (headText order info) := by
  constructor
  · rw [headText, List.append_assoc, List.append_assoc]
    exact List.prefix_append _ _
  · intro name value stored
    have entry := (order.perm info.respHeads).mem_iff.mpr
      (Std.ExtTreeMap.mem_toList_iff_getElem?_eq_some.mpr stored)
    have within : headLine (name, value) <:+: (order.entries info.respHeads).flatMap headLine :=
      List.infix_of_mem_flatten (List.mem_map.mpr ⟨_, entry, rfl⟩)
    rw [headText, List.append_assoc _ ('\n' :: headBodySeparator)]
    exact within.trans ⟨_, _, rfl⟩

/-- A protocol writes the head of a reply, and nothing but the text of an error. -/
structure WritesHead (protocol : RoutableProtocol Rp Req Resp) (toFrame : Resp → ByteArray) :
    Prop where
  built (rp : Rp) : (∀ raw, (protocol.info rp).resp ≠ some (.raw raw)) →
    Identifies (protocol.info rp).id (protocol.info rp).path (protocol.info rp).respHeads
      (toFrame (protocol.into rp))
  failed (rp : Rp) (error : DceErr) :
    toFrame (protocol.errInto rp error) = toBytes error.toResponsible

theorem SemiTcpProtocol.writesHead (order : IterOrder) :
    WritesHead (protocol order) (fun frame => frame) := by
  constructor
  · intro self built
    have head := identifies_toBytes_iff.mpr (spells_headText order self.info)
    change Identifies _ _ _ (into order self)
    rw [into]
    cases response : self.info.resp with
    | none => exact head
    | some resp =>
        cases resp with
        | raw raw => exact absurd response (built raw)
        | serialized sd => exact head.append _
  · intro self error
    rfl

theorem SemiWebsocketProtocol.writesHead (M : Type) [Message M] (order : IterOrder) :
    WritesHead (protocol order : RoutableProtocol (SemiWebsocketProtocol M) M M)
      Message.intoData := by
  constructor
  · intro self built
    have head := identifies_toBytes_iff.mpr (spells_headText order self.info)
    change Identifies _ _ _ (Message.intoData (into order self))
    rw [into]
    cases response : self.info.resp with
    | none =>
        cases self.binaryResponse with
        | true =>
            simp only [if_true, Message.intoData_binary]
            exact head
        | false =>
            simp only [Bool.false_eq_true, if_false, Message.intoData_text]
            exact head
    | some resp =>
        cases resp with
        | raw raw => exact absurd response (built raw)
        | serialized sd =>
            cases self.binaryResponse with
            | true =>
                simp only [if_true, Message.intoData_binary]
                exact head.append _
            | false =>
                simp only [Bool.false_eq_true, if_false, Message.intoData_text, toBytes_append]
                exact head.append _
  · intro self error
    exact Message.intoData_text _

/-- The framework builds the reply: there is an error, or a response that is not a raw one. -/
def Built (result : Except DceErr Unit) (info : Router.Meta Req Resp) : Prop :=
  match result with
  | .ok () => ∀ raw, info.resp ≠ some (.raw raw)
  | .error _ => True

/-- The id of a request begins with the code of an error, and its message with the rest of the id
and the path. Without an id it is the path that begins like the error. -/
def Repeats (path : Str) (error : DceError) : Option Str → Prop
  | some id => ∃ rest, id = (toString error.code).toList ++ ": ".toList ++ rest ∧
      rest ++ idPathSeparator :: path <+: error.message
  | none => path <+: (DceErr.openly error).toResponsible

/-- An error repeats the id and the path of the request, and its message every head of the reply. -/
structure Echoes (id : Option Str) (path : Str) (respHeads : Heads) (error : DceError) : Prop where
  names : Repeats path error id
  carries (name value : Str) : respHeads[name]? = some value →
    headLine (name, value) <:+: error.message

/-- The request was handled without an error, or the error that its controller chose echoes the
request and the heads; the one text of all other errors only does for a request without an id, and
without a head. -/
def Kept (info : Router.Meta Req Resp) (result : Except DceErr Unit) (respHeads : Heads) : Prop :=
  match result with
  | .ok () => True
  | .error (.openly error) => Echoes info.id info.path respHeads error
  | .error (.closed _) =>
      info.id = none ∧ info.path <+: "503: Service Unavailable".toList ∧ respHeads = ∅

/-- What begins with a separated word begins with all that stands before the separator. -/
theorem separated_prefix_iff {word code rest text : Str} {separator : Char}
    (absent : separator ∉ code) :
    word ++ separator :: rest <+: code ++ text ↔
      ∃ word', word = code ++ word' ∧ word' ++ separator :: rest <+: text := by
  constructor
  · intro begins
    have both : word ++ [separator] <+: code ++ text :=
      List.IsPrefix.trans ⟨rest, by simp⟩ begins
    rcases List.prefix_or_prefix_of_prefix both (List.prefix_append code text) with
      within | ⟨after, eq⟩
    · exact absurd (within.subset (by simp)) absent
    · rcases List.eq_nil_or_concat after with rfl | ⟨word', last, rfl⟩
      · rw [List.append_nil] at eq
        exact absurd (by simp [eq]) absent
      · rw [List.concat_eq_append, ← List.append_assoc] at eq
        rcases List.append_inj' eq rfl with ⟨rfl, -⟩
        refine ⟨word', rfl, ?_⟩
        rwa [List.append_assoc, List.prefix_append_right_inj] at begins
  · rintro ⟨word', rfl, begins⟩
    rwa [List.append_assoc, List.prefix_append_right_inj]

/-- A line is found behind a text that has no line break. -/
theorem headLine_infix_iff {head : Str × Str} {code text : Str} (unbroken : '\n' ∉ code) :
    headLine head <:+: code ++ text ↔ headLine head <:+: text := by
  constructor
  · rintro ⟨before, after, eq⟩
    have begins : before ++ '\n' :: (head.1 ++ ':' :: head.2) <+: code ++ text :=
      ⟨after, by rw [← eq, headLine]; simp⟩
    rcases (separated_prefix_iff unbroken).mp begins with ⟨before', _, rest, eq'⟩
    exact ⟨before', rest, by rw [← eq', headLine]; simp⟩
  · exact fun within => within.trans (List.suffix_append code text).isInfix

/-- What the client is told of a closed error never names a request by its id. -/
theorem not_spells_closed (id : Str) (error : DceError) :
    ¬Spells (some id) path respHeads (DceErr.closed error).toResponsible := by
  intro spells
  have separated : idPathSeparator ∈ idPath (some id) path := by simp [idPath]
  have absent : idPathSeparator ∉ "503: Service Unavailable".toList := by decide
  exact absent (spells.begins.subset separated)

theorem spells_closed_iff (error : DceError) :
    Spells id path respHeads (DceErr.closed error).toResponsible ↔
      id = none ∧ path <+: "503: Service Unavailable".toList ∧ respHeads = ∅ := by
  constructor
  · intro spells
    cases id with
    | some id => exact absurd spells (not_spells_closed id error)
    | none =>
        refine ⟨rfl, spells.begins, Std.ExtTreeMap.ext_getElem? fun name => ?_⟩
        cases stored : respHeads[name]? with
        | none => simp
        | some value =>
            have unbroken : '\n' ∉ "503: Service Unavailable".toList := by decide
            exact absurd ((spells.carries name value stored).subset List.mem_cons_self) unbroken
  · rintro ⟨rfl, begins, rfl⟩
    exact ⟨begins, by simp⟩

theorem spells_openly_iff (error : DceError) :
    Spells id path respHeads (DceErr.openly error).toResponsible ↔
      Echoes id path respHeads error := by
  have absent {c : Char} (noDigit : c.isDigit = false) (unsigned : c ≠ '-')
      (other : c ∉ ": ".toList) : c ∉ (toString error.code).toList ++ ": ".toList := by
    rw [List.mem_append]
    rintro (mem | mem)
    · exact notMem_toString noDigit unsigned error.code mem
    · exact other mem
  have carries (name value : Str) :
      headLine (name, value) <:+: (DceErr.openly error).toResponsible ↔
        headLine (name, value) <:+: error.message :=
    headLine_infix_iff (absent (by decide) (by decide) (by decide))
  have names : idPath id path <+: (DceErr.openly error).toResponsible ↔
      Repeats path error id := by
    cases id with
    | none => rfl
    | some id =>
        have separated : idPath (some id) path = id ++ idPathSeparator :: path := by
          simp [idPath]
        rw [separated, DceErr.toResponsible]
        exact separated_prefix_iff (absent (by decide) (by decide) (by decide))
  constructor
  · intro spells
    exact ⟨names.mp spells.begins, fun name value stored =>
      (carries name value).mp (spells.carries name value stored)⟩
  · intro echoes
    exact ⟨names.mpr echoes.names, fun name value stored =>
      (carries name value).mpr (echoes.carries name value stored)⟩

theorem WritesHead.identifies_iff {protocol : RoutableProtocol Rp Req Resp}
    {toFrame : Resp → ByteArray} (writesHead : WritesHead protocol toFrame) {rp : Rp}
    {events : Events Req Resp} {located : Except DceErr (Endpoint Req Resp)} {frame : Resp}
    (replied : protocol.handle events located rp = some frame) :
    let routed := routedHandle events located (protocol.info rp)
    Built routed.1 routed.2 →
      (Identifies (protocol.info rp).id (protocol.info rp).path routed.2.respHeads
          (toFrame frame) ↔
        Kept (protocol.info rp) routed.1 routed.2.respHeads) := by
  intro routed built
  have heads : routed.2.heads = (protocol.info rp).heads := routedHandle_heads ..
  have sameId : routed.2.id = (protocol.info rp).id := by rw [Meta.id, Meta.id, heads]
  have samePath : routed.2.path = (protocol.info rp).path := by rw [Meta.path, Meta.path, heads]
  change protocol.handleResult (protocol.withInfo rp routed.2) located.toOption routed.1 = _
    at replied
  simp only [RoutableProtocol.handleResult, Option.ite_none_left_eq_some, Option.some.injEq]
    at replied
  rcases replied with ⟨_, rfl⟩
  cases result : routed.1 with
  | ok value =>
      rw [result] at built
      have identifies := writesHead.built (protocol.withInfo rp routed.2)
      rw [protocol.info_withInfo, sameId, samePath] at identifies
      exact iff_of_true (identifies built) trivial
  | error error =>
      rw [writesHead.failed, identifies_toBytes_iff]
      cases error with
      | openly error => exact spells_openly_iff error
      | closed error => exact spells_closed_iff error

/-- A reply that the framework builds says which request it answers, and carries its heads, exactly
where the request was handled without an error, or its error echoes the request and the heads. -/
theorem reply_identifies_iff (order : IterOrder) (M : Type) [Message M] :
    (∀ (self : SemiTcpProtocol) (events : Events ByteArray ByteArray)
      (located : Except DceErr (Endpoint ByteArray ByteArray)) (frame : ByteArray),
      (SemiTcpProtocol.protocol order).handle events located self = some frame →
      let routed := routedHandle events located self.info
      Built routed.1 routed.2 →
        (Identifies self.info.id self.info.path routed.2.respHeads frame ↔
          Kept self.info routed.1 routed.2.respHeads)) ∧
    ∀ (self : SemiWebsocketProtocol M) (events : Events M M)
      (located : Except DceErr (Endpoint M M)) (frame : M),
      (SemiWebsocketProtocol.protocol order).handle events located self = some frame →
      let routed := routedHandle events located self.info
      Built routed.1 routed.2 →
        (Identifies self.info.id self.info.path routed.2.respHeads (Message.intoData frame) ↔
          Kept self.info routed.1 routed.2.respHeads) := by
  constructor
  · intro self events located frame replied
    exact (SemiTcpProtocol.writesHead order).identifies_iff replied
  · intro self events located frame replied
    exact (SemiWebsocketProtocol.writesHead M order).identifies_iff replied

/-- A controller that sets a head and then fails or returns. -/
def renewing (result : Except DceErr (Option (Response ByteArray))) :
    Handler ByteArray ByteArray (Option (Response ByteArray)) where
  run info := (result, { info with respHeads := info.respHeads.insert "Session-Id".toList ['8'] })
  keeps _ := rfl

def noEvents : Events ByteArray ByteArray := ⟨none, none⟩

def renewal : SemiTcpProtocol where
  info := {
    req := none
    resp := none
    heads := ((∅ : Heads).insert headIdName ['7']).insert headPathName "profile".toList
    respHeads := ∅ }
  bodyIndex := 0

theorem reply_identifies_iff_renewal :
    let located : Except DceErr (Endpoint ByteArray ByteArray) :=
      .ok ⟨renewing (.ok none), false⟩
    let routed := routedHandle noEvents located renewal.info
    let frame := toBytes (headText .sorted routed.2)
    Identifies renewal.info.id renewal.info.path routed.2.respHeads frame ↔
      Kept renewal.info routed.1 routed.2.respHeads := by
  intro located routed frame
  have replies := (reply_identifies_iff .sorted PlainMessage).1
  exact replies renewal noEvents located frame rfl (by rintro _ ⟨⟩)

/-- The reply to a failing controller does not carry the head that was set for it. -/
theorem not_reply_identifies :
    ¬∀ (order : IterOrder) (self : SemiTcpProtocol) (events : Events ByteArray ByteArray)
      (located : Except DceErr (Endpoint ByteArray ByteArray)) (frame : ByteArray),
      (SemiTcpProtocol.protocol order).handle events located self = some frame →
      let routed := routedHandle events located self.info
      Built routed.1 routed.2 →
        Identifies self.info.id self.info.path routed.2.respHeads frame := by
  intro claim
  let error := DceErr.closed0 "No member".toList
  have identifies := claim .sorted renewal noEvents (.ok ⟨renewing (.error error), false⟩)
    (toBytes error.toResponsible) rfl trivial
  exact not_spells_closed ['7'] _ (identifies_toBytes_iff.mp identifies)

end Dce.Protocol
