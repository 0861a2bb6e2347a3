import Dce.Lib.Text
import Dce.Session.Renew

/-!
# An application with sessions

The example of the HTTP server whose pages need a role. Before each controller
the session of the request is opened, its user is asked for the role, and the
session is renewed; some controllers then use the user as if it were there.
-/

namespace Dce.App

open Session Session.SessionM Session.RedisSession

structure Member where
  id : Nat
  name : Str
  roleId : UInt16
  deriving DecidableEq, Repr

instance : UidGetter Member where
  id := Member.id

def members : List Member :=
  [⟨1000, "Drunk".toList, 1⟩, ⟨1001, "Dce".toList, 2⟩, ⟨1002, "Rust".toList, 2⟩]

/-- The controllers. -/
inductive Page where
  | index | login | profile | modify | user
  deriving DecidableEq, Repr

namespace Page

def path : Page → Str
  | index => "".toList
  | login => "login".toList
  | profile | modify => "manage/profile".toList
  | user => "manage/user".toList

def rolesNeeds : Page → List UInt16
  | index | login => []
  | profile | modify => [1, 2]
  | user => [2]

def isPrivate (page : Page) : Bool := !page.rolesNeeds.isEmpty

def isLogin (page : Page) : Bool := "login".toList.isSuffixOf page.path

end Page

/-- What the controllers read from the body of a request. -/
structure Data where
  name : Option Str
  roleId : Option UInt64

/-- A request, after it was located, and whether a connection to the store can be made for it. The
clocks are those of a new session, of a renewal and of a login. -/
structure HttpRequest where
  page : Page
  sid : Option Str
  connects : Bool
  query : Option Str
  data : Except DceErr Data
  newEnv : Env
  renewEnv : Env
  loginEnv : Env

def HttpRequest.isAutoLogin (request : HttpRequest) : Bool :=
  request.query.any fun query => "autologin".toList <:+: query

/-- What a controller packs. -/
inductive Body where
  | welcome
  | loggedIn (member : Member)
  | loginFailed
  | profile (member : Member)
  | modified (member : Member)
  | user (member : Member)
  deriving DecidableEq, Repr

/-- What a controller packs, and the sid that it sets for the response. -/
structure Packed where
  body : Body
  respSid : Option Str

/-- Why a request is not answered by its controller. -/
inductive Failure where
  | told (error : DceErr)
  | session (error : SessionErr)
  deriving DecidableEq, Repr

/-- A response. A sid that was set goes with an error, too. -/
structure Reply where
  result : Except Failure Body
  respSid : Option Str

def unauthorized : DceErr := .openly ⟨401, "Unauthorized".toList⟩
def forbidden : DceErr := .openly ⟨403, "Forbidden".toList⟩
def nameRequired : DceErr := .openly ⟨1000, "Name required".toList⟩
def wrongName : DceErr := .openly ⟨1001, "Wrong name".toList⟩
def nothingToModify : DceErr := .openly ⟨1010, "Must specified something to modify".toList⟩

/-- `unwrap`, which panics without a value. -/
def unwrap {U α : Type} : Option α → SessionM U α
  | some value => pure value
  | none => ofOutcome .panic

/-- Renewals after four minutes. -/
def conf : AutoRenew := { AutoRenew.new with renewIntervalSeconds := 240 }

/-- The lifetime of a session that no sid was sent for. -/
def newTtlMinutes : UInt16 := 60

/-- The lifetime of a session after a login. -/
def defaultTtlMinutes : UInt16 := 60

/-- The session of a request, before it is given its connection. -/
def HttpRequest.opened (request : HttpRequest) : Outcome SessionErr (RedisSession Member) :=
  match request.sid with
  | some sid => newWithId sid
  | none => .ok (RedisSession.new request.newEnv newTtlMinutes)

/-- The session that a request is served with. `redis` unwraps the connection. -/
def HttpRequest.session (request : HttpRequest) : Outcome SessionErr (RedisSession Member) := do
  let session ← request.opened
  if request.connects then return session else .panic

section

variable [Serde Member] (connection : Bool)

/-- Whether the user of the session has one of the roles that the page needs. -/
def valid (page : Page) : SessionM Member (Except DceErr Unit) :=
  if page.isPrivate then do
    let user ← user
    match user with
    | some user =>
        return if page.rolesNeeds.contains user.roleId then .ok () else .error forbidden
    | none => return .error unauthorized
  else
    return .ok ()

/-- True if the session got a new sid. -/
def renewal (request : HttpRequest) : SessionM Member Bool :=
  if request.isAutoLogin then autoLogin connection request.renewEnv
  else if request.page.isLogin then return false
  else conf.tryRenew connection request.renewEnv

/-- The new sid, if there is one, for the response. -/
def beforeController (request : HttpRequest) : SessionM Member (Except DceErr (Option Str)) := do
  let valid ← valid request.page
  match valid with
  | .error error => return .error error
  | .ok _ => do
      let renewed ← renewal connection request
      let session ← self
      return .ok (if renewed then some session.info.sid else none)

def login (request : HttpRequest) : SessionM Member (Except DceErr Packed) :=
  match request.data with
  | .error error => return .error error
  | .ok data =>
      match data.name with
      | none => return .error nameRequired
      | some name =>
          match members.find? fun member => Text.eqIgnoreAsciiCase member.name name with
          | none => return .error wrongName
          | some member => do
              let succeeded ← RedisSession.login connection request.loginEnv member
                defaultTtlMinutes
              let session ← self
              return .ok (if succeeded then ⟨.loggedIn member, some session.info.sid⟩
                else ⟨.loginFailed, none⟩)

def profile : SessionM Member (Except DceErr Packed) := do
  let user ← user
  let member ← unwrap user
  return .ok ⟨.profile member, none⟩

/-- The member with its new name and its new role. -/
def Data.change (data : Data) (member : Member) : Member where
  id := member.id
  name := data.name.getD member.name
  roleId := (data.roleId.map UInt64.toUInt16).getD member.roleId

def modify (request : HttpRequest) : SessionM Member (Except DceErr Packed) :=
  match request.data with
  | .error error => return .error error
  | .ok data =>
      if data.name.isNone && data.roleId.isNone then return .error nothingToModify
      else do
        let user ← user
        let member ← unwrap user
        let _ ← sync (data.change member)
        return .ok ⟨.modified (data.change member), none⟩

def userPage : SessionM Member (Except DceErr Packed) := do
  let user ← user
  let member ← unwrap user
  return .ok ⟨.user member, none⟩

def controller (request : HttpRequest) : SessionM Member (Except DceErr Packed) :=
  match request.page with
  | .index => return .ok ⟨.welcome, none⟩
  | .login => login connection request
  | .profile => profile
  | .modify => modify request
  | .user => userPage

/-- The response to what a controller returned. A sid that it set takes the place of an earlier
one. -/
def replyOf (respSid : Option Str) : Except SessionErr (Except DceErr Packed) → Reply
  | .error error => ⟨.error (.session error), respSid⟩
  | .ok (.error error) => ⟨.error (.told error), respSid⟩
  | .ok (.ok packed) => ⟨.ok packed.body, packed.respSid.or respSid⟩

/-- The controller, if nothing before it fails. -/
def respond (request : HttpRequest) : SessionM Member Reply := do
  let before ← attempt (beforeController connection request)
  match before with
  | .error error => return ⟨.error (.session error), none⟩
  | .ok (.error error) => return ⟨.error (.told error), none⟩
  | .ok (.ok respSid) => do
      let packed ← attempt (controller connection request)
      return replyOf respSid packed

/-- The whole request. -/
def serve (request : HttpRequest) : Prog Cmd Cmd.Reply (Outcome SessionErr Reply) :=
  match request.session with
  | .ok session =>
      (respond connection request ⟨session, none⟩).bind fun final => .ret final.1
  | .err error => .ret (.ok ⟨.error (.session error), none⟩)
  | .panic => .ret .panic

end

namespace Member

def write (member : Member) : Str :=
  "\x7b\"id\":".toList ++ (Nat.toDigits 10 member.id ++ (",\"name\":\"".toList ++ (member.name ++
    ("\",\"role_id\":".toList ++ (Nat.toDigits 10 member.roleId.toNat ++ "\x7d".toList)))))

def read (text : Str) : Option Member :=
  let rest := text.drop 6
  let id := rest.takeWhile Char.isDigit
  let back := ((rest.drop id.length).drop 9).reverse.drop 1
  let roleId := back.takeWhile Char.isDigit
  let member : Member :=
    ⟨Nat.ofDigitChars 10 id 0, ((back.drop roleId.length).drop 12).reverse,
      UInt16.ofNat (Nat.ofDigitChars 10 roleId.reverse 0)⟩
  if member.write = text then some member else none

instance : Serde Member where
  toJson member := some member.write
  fromJson := read

example : (members.map write).map read = members.map some := by decide

end Member

end Dce.App
