import Dce.Session.User

/-!
# Regeneration

What gives a session a new id: `renew` with its hook into the connection, login,
and the renewal that `AutoRenew` decides on by the age of the id. The parameter
`connection` tells whether the crate is built with that feature.
-/

namespace Dce.Session

variable {U : Type}

/-- The intervals of `AutoRenew` and the field that names the successor of a session. -/
structure AutoRenew where
  newSidField : Str
  renewIntervalSeconds : UInt16
  originalJudgmentSeconds : UInt16
  clonedInactiveJudgmentSeconds : UInt16

def defaultNewSidField : Str := "$newid".toList

def AutoRenew.new : AutoRenew where
  newSidField := defaultNewSidField
  renewIntervalSeconds := 600
  originalJudgmentSeconds := 120
  clonedInactiveJudgmentSeconds := 60

/-- Arithmetic of `isize` in a build without overflow checks, which wraps around. -/
def wrapIsize (n : Int) : Int := n.bmod (2 ^ 64)

/-- How long a session with this stamp has been due for a new id; negative if it is not due. -/
def AutoRenew.secondsFromRenew (conf : AutoRenew) (now createStamp : UInt64) : Int :=
  wrapIsize (wrapIsize (wrapIsize now.toNat - wrapIsize createStamp.toNat) -
    conf.renewIntervalSeconds.toNat)

namespace RedisSession

open SessionM

/-- `connect`, which makes the session the root of a connection. -/
def connect (session : RedisSession U) (server : Str) : RedisSession U :=
  { session with connMeta := { session.connMeta with serverUnbound := some (some server) } }

/-- `disconnect`. -/
def unbinding : SessionM U Bool := do
  let session ← self
  Commands.hdel session.key session.connMeta.serverField

/-- The session of a request, by the given sid or that of the root. -/
def cloneForRequest (root : RedisSession U) (rootIndex : Nat) (sid : Option Str) :
    Outcome SessionErr (RedisSession U) := do
  let session ← root.cloneWithId (sid.getD root.info.sid)
  return { session with
    connMeta := { session.connMeta with serverUnbound := none, shadow := some rootIndex } }

/-- Bind the root to its server at the first renewal, and redirect it to the new sid. -/
def updateShadow (newSid : Str) : SessionM U Unit := do
  let root ← getRoot
  match root with
  | none => throw (.text "Not the cloned connection session".toList)
  | some root => do
      let root ← match root.connMeta.serverUnbound with
        | some (some server) => do
            let session ← self
            let _ ← attempt (silentSet session.connMeta.serverField server)
            pure { root with connMeta := { root.connMeta with serverUnbound := some none } }
        | _ => pure root
      let (outcome, info) := root.info.adopt newSid
      setRoot { root with info }
      ofOutcome outcome

variable [UidGetter U] [Serde U]

/-- `RedisSession::renew`. -/
def renew (connection : Bool) (env : Env) (filters : Filters) : SessionM U Bool := do
  let result ← attempt (userRenew env filters)
  let session ← self
  if connection && result.isOk && session.connMeta.serverUnbound.isNone then
    updateShadow session.info.sid
  ofResult result

/-- The fields a login writes: the cached user, if there is one. -/
def loginFilters (session : RedisSession U) : Filters :=
  match session.userMeta.user with
  | some user => (∅ : Filters).insert session.userMeta.userField (Serde.toJson user)
  | none => ∅

/-- Keep a clone of the session, then change its lifetime and its user. -/
def prepareLogin (user : Option U) (ttlMinutes : Option UInt16) (session : RedisSession U) :
    RedisSession U where
  info := session.info.config ttlMinutes
  userMeta :=
    match user with
    | some user => { session.userMeta with user := some user }
    | none => session.userMeta
  connMeta := session.connMeta
  cloned := some session.toCore

def logIn (connection : Bool) (env : Env) (user : Option U) (ttlMinutes : Option UInt16) :
    SessionM U Bool := do
  modify (prepareLogin user ttlMinutes)
  let session ← self
  let result ← attempt (renew connection env (loginFilters session))
  match result with
  -- the new session must be used after a login, so the old one goes
  | .ok _ => clonedDestroy
  | .error error => throw error

def login (connection : Bool) (env : Env) (user : U) (ttlMinutes : UInt16) : SessionM U Bool :=
  logIn connection env (some user) (some ttlMinutes)

def autoLogin (connection : Bool) (env : Env) : SessionM U Bool := logIn connection env none none

end RedisSession

namespace AutoRenew

open SessionM RedisSession

variable [UidGetter U] [Serde U] (conf : AutoRenew) (connection : Bool)

/-- Renew a clone of the session and name it in the old session. -/
def doClone (env : Env) (filters : Filters) : SessionM U Bool := do
  modify fun session => { session with cloned := some session.toCore }
  let result ← attempt (renew connection env filters)
  match result with
  | .ok _ => do
      let _ ← attempt clonedTouch
      let session ← self
      clonedSilentSet conf.newSidField session.info.sid
  | .error error => throw error

omit [UidGetter U] [Serde U] in
/-- Make the named successor the clone, if its sid can be read. -/
def cloneSuccessor (newSid : Str) : SessionM U Unit := do
  let session ← self
  let cloned ← attempt (ofOutcome (session.cloneWithId newSid))
  modify fun session => { session with cloned := cloned.toOption.map (·.toCore) }

omit [UidGetter U] [Serde U] in
/-- Whether the successor was used lately, and later than the old session. -/
def successorIsActive : SessionM U Bool := do
  let newTp ← attempt clonedTtlPassed
  let newTp := newTp.toOption.getD (2 ^ 32 - 1)
  if newTp < conf.clonedInactiveJudgmentSeconds.toNat then
    let oldTp ← attempt ttlPassed
    match oldTp with
    | .ok oldTp => return decide (newTp < oldTp)
    | .error _ => return true
  else
    return false

/-- Give up the old session if its successor is in use, or replace the successor. -/
def replaceOrDestroy (env : Env) (newSid : Str) : SessionM U Bool := do
  cloneSuccessor newSid
  let active ← successorIsActive conf
  if active then
    let _ ← destroy
    let session ← self
    throw (.text ("session \"".toList ++ session.info.sid ++
      "\" was destroied, unable to continue use".toList))
  else
    let _ ← clonedDestroy
    doClone conf connection env ((∅ : Filters).insert conf.newSidField none)

/-- True if the session got a new id, false if it keeps the old one. -/
def tryRenew (env : Env) : SessionM U Bool := do
  let session ← self
  let secondsFromRenew := conf.secondsFromRenew env.now session.info.createStamp
  if secondsFromRenew < 0 then
    let _ ← attempt tryTouch
    return false
  else
    let newSid ← attempt (silentGet conf.newSidField)
    match newSid with
    | .ok newSid =>
        if secondsFromRenew > conf.originalJudgmentSeconds.toNat then
          replaceOrDestroy conf connection env newSid
        else do
          let _ ← attempt tryTouch
          return false
    | .error _ => doClone conf connection env ∅

end AutoRenew

end Dce.Session
