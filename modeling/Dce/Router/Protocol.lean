import Dce.Lib.Utf8
import Dce.Util.Mixed
import Std.Data.ExtTreeMap.Lemmas

/-!
# Requests and replies

What every protocol keeps of a request, the way from the controller's result to
the reply, and what a protocol has to bring for that.
-/

namespace Dce

namespace DceErr

def closed0 (message : Str) : DceErr := .closed ⟨0, message⟩

def serviceUnavailable : Int := 503
def serviceUnavailableMessage : Str := "Service Unavailable".toList

/-- What the client is told of an error. -/
def toResponsible : DceErr → Str
  | openly error => (toString error.code).toList ++ ": ".toList ++ error.message
  | closed _ => (toString serviceUnavailable).toList ++ ": ".toList ++ serviceUnavailableMessage

end DceErr

namespace Router

def headPathName : Str := "$#path#".toList
def headIdName : Str := "$#id#".toList

abbrev Heads := Std.ExtTreeMap Str Str

/-- The order in which a `HashMap` goes through its entries. -/
structure IterOrder where
  entries : Heads → List (Str × Str)
  perm (heads : Heads) : (entries heads).Perm heads.toList

def IterOrder.sorted : IterOrder where
  entries heads := heads.toList
  perm _ := .refl _

inductive Serialized where
  | string (text : Str)
  | bytes (bytes : ByteArray)

inductive Response (Resp : Type) where
  | serialized (serialized : Serialized)
  | raw (resp : Resp)

structure Meta (Req Resp : Type) where
  req : Option Req
  resp : Option (Response Resp)
  heads : Heads
  respHeads : Heads

variable {Rp Req Resp : Type}

namespace Meta

def new (req : Req) (heads : Heads) : Meta Req Resp where
  req := some req
  resp := none
  heads
  respHeads := ∅

def path (info : Meta Req Resp) : Str := info.heads[headPathName]?.getD []

def id (info : Meta Req Resp) : Option Str := info.heads[headIdName]?

end Meta

/-- What a protocol brings for the router to reply in it. -/
structure RoutableProtocol (Rp Req Resp : Type) where
  info : Rp → Meta Req Resp
  withInfo : Rp → Meta Req Resp → Rp
  packResp : Rp → Serialized → Resp
  into : Rp → Resp
  info_withInfo (rp : Rp) (info' : Meta Req Resp) : info (withInfo rp info') = info'

/-- A controller or an event handler. It sees the request's heads but cannot change them. -/
structure Handler (Req Resp Value : Type) where
  run : Meta Req Resp → Except DceErr Value × Meta Req Resp
  keeps (info : Meta Req Resp) : (run info).2.heads = info.heads

/-- The part of an api that handles a request routed to it. -/
structure Endpoint (Req Resp : Type) where
  controller : Handler Req Resp (Option (Response Resp))
  unresponsive : Bool

/-- The event handlers of a router. -/
structure Events (Req Resp : Type) where
  beforeController : Option (Handler Req Resp Unit)
  afterController : Option (Handler Req Resp Unit)

def Events.call (event : Option (Handler Req Resp Unit)) (info : Meta Req Resp) :
    Except DceErr Unit × Meta Req Resp :=
  match event with
  | some func => func.run info
  | none => (.ok (), info)

def Endpoint.callController (api : Endpoint Req Resp) (events : Events Req Resp)
    (info : Meta Req Resp) : Except DceErr Unit × Meta Req Resp :=
  match Events.call events.beforeController info with
  | (.error error, info) => (.error error, info)
  | (.ok (), info) =>
      match api.controller.run info with
      | (.error error, info) => (.error error, info)
      | (.ok resp, info) => Events.call events.afterController { info with resp }

/-- Handle a request by the api it was located to, or give the error of its location. -/
def routedHandle (events : Events Req Resp) (result : Except DceErr (Endpoint Req Resp))
    (info : Meta Req Resp) : Except DceErr Unit × Meta Req Resp :=
  match result with
  | .ok api => api.callController events info
  | .error error => (.error error, info)

namespace RoutableProtocol

variable (protocol : RoutableProtocol Rp Req Resp)

def errInto (rp : Rp) (error : DceErr) : Resp :=
  let packed := protocol.packResp rp (.string error.toResponsible)
  protocol.into (protocol.withInfo rp { protocol.info rp with resp := some (.raw packed) })

def handleResult (rp : Rp) (api : Option (Endpoint Req Resp)) (result : Except DceErr Unit) :
    Option Resp :=
  let silent := match api with
    | some api => api.unresponsive
    | none => (protocol.info rp).id.isNone
  if silent then none
  else some (match result with
    | .ok () => protocol.into rp
    | .error error => protocol.errInto rp error)

/-- Route a request that was located to an api or not, and reply. -/
def handle (events : Events Req Resp) (located : Except DceErr (Endpoint Req Resp)) (rp : Rp) :
    Option Resp :=
  let (result, info) := routedHandle events located (protocol.info rp)
  protocol.handleResult (protocol.withInfo rp info) located.toOption result

end RoutableProtocol

theorem Events.call_heads (event : Option (Handler Req Resp Unit)) (info : Meta Req Resp) :
    (Events.call event info).2.heads = info.heads := by
  cases event with
  | none => rfl
  | some func => exact func.keeps info

theorem Endpoint.callController_heads (api : Endpoint Req Resp) (events : Events Req Resp)
    (info : Meta Req Resp) : (api.callController events info).2.heads = info.heads := by
  have before := Events.call_heads events.beforeController info
  rw [callController]
  split
  · rename_i error info' called
    rw [called] at before
    exact before
  · rename_i info' called
    rw [called] at before
    have within := api.controller.keeps info'
    split
    · rename_i error info'' ran
      rw [ran] at within
      exact within.trans before
    · rename_i resp info'' ran
      rw [ran] at within
      rw [Events.call_heads]
      exact within.trans before

theorem routedHandle_heads (events : Events Req Resp)
    (located : Except DceErr (Endpoint Req Resp)) (info : Meta Req Resp) :
    (routedHandle events located info).2.heads = info.heads := by
  cases located with
  | error error => rfl
  | ok api => exact api.callController_heads events info

end Router

end Dce
