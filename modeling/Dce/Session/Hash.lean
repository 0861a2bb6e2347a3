import Dce.Session.Basic

/-!
# Hash operations

The `Session` trait of `RedisSession`: reading and writing the session's hash,
its expiry, and the copy of a hash to a fresh id.
-/

namespace Dce.Session

variable {U T : Type}

/-- `format!("{}:{}", sid_name, id)`. -/
def genKey (sidName id : Str) : Str := sidName ++ ':' :: id

/-- Changes to the fields a regenerated session starts with: a new value, or removal. -/
abbrev Filters := Std.ExtTreeMap Str (Option Str)

def applyFilter (raw : Dict) (field : Str) : Option Str → Dict
  | some value => raw.insert field value
  | none => raw.erase field

def applyFilters (filters : Filters) (raw : Dict) : Dict := filters.foldl applyFilter raw

/-- The key of the session's hash. -/
def Core.key (core : Core U) : Str := genKey core.info.sidName core.info.sid

namespace RedisSession

open SessionM

def new (env : Env) (ttlMinutes : UInt16) : RedisSession U where
  info := Meta.new env ttlMinutes
  userMeta := UserMeta.new
  connMeta := ConnectionMeta.new
  cloned := none

def newWithId (sid : Str) : Outcome SessionErr (RedisSession U) := do
  let info ← Meta.newWithSid sid
  return { info, userMeta := UserMeta.new, connMeta := ConnectionMeta.new, cloned := none }

def silentSet (field value : Str) : SessionM U Bool := do
  let session ← self
  let _ ← Commands.hset session.key field value
  return true

def silentGet (field : Str) : SessionM U Str := do
  let session ← self
  let value ← Commands.hget session.key field
  match value with
  | some value => pure value
  | none => throw (.redis .nil)

def silentDel (field : Str) : SessionM U Bool := do
  let session ← self
  Commands.hdel session.key field

def touch : SessionM U Bool := do
  let session ← self
  Commands.expire session.key session.info.ttlSeconds

/-- The server refuses to store no fields at all. -/
def load (data : Dict) : SessionM U Bool := do
  let session ← self
  if data.isEmpty then throw (.redis .failed) else Commands.hsetMultiple session.key data

def raw : SessionM U Dict := do
  let session ← self
  Commands.hgetall session.key

/-- `ttl_seconds() - ttl as u32`, which wraps around in a build without overflow checks. -/
def idleSeconds (info : Meta) (ttl : Int) : Option Nat :=
  if 0 < ttl then some (((info.ttlSeconds : Int) - ttl) % 2 ^ 32).toNat else none

/-- How long the key of a core went untouched, by the lifetime in this session's meta data. -/
def ttlPassedOf (key : Str) : SessionM U Nat := do
  let session ← self
  let ttl ← attempt (Commands.ttl key)
  match ttl.toOption.bind (idleSeconds session.info) with
  | some passed => pure passed
  | none => throw (.text "ttl was not initialized yet.".toList)

def ttlPassed : SessionM U Nat := do
  let session ← self
  ttlPassedOf session.key

/-- Touch the key once for each id the object has. -/
def tryTouch : SessionM U Bool := do
  let session ← self
  if session.info.touches = none then
    let touches ← touch
    modify fun session => { session with info := { session.info with touches := some touches } }
  let session ← self
  return session.info.touches == some true

/-- Go on with a touch after a change, or with the result of what changed nothing. -/
def touchIfTrue (operation : SessionM U Bool) : SessionM U Bool := do
  let result ← attempt operation
  match result with
  | .ok true => tryTouch
  | result => ofResult result

/-- `set`, with the value as serde writes it, if serde can write it. -/
def set (field : Str) (json : Option Str) : SessionM U Bool :=
  match json with
  | some value => touchIfTrue (silentSet field value)
  | none => throw .serde

def get (T : Type) [Serde T] (field : Str) : SessionM U T := do
  let value ← attempt (silentGet field)
  match value with
  | .ok json => do
      let _ ← tryTouch
      match (Serde.fromJson json : Option T) with
      | some value => pure value
      | none => throw .serde
  | .error error => throw error

def del (field : Str) : SessionM U Bool := touchIfTrue (silentDel field)

/-- `session::renew`. -/
def sessionRenew (env : Env) (filters : Filters) : SessionM U Bool := do
  let raw ← raw
  let raw := applyFilters filters raw
  modify fun session => { session with info := session.info.regenerate env }
  if raw.isEmpty then
    return true
  else
    let _ ← load raw
    tryTouch

/-- `session::clone_with_id` and the reset of the user by `user::clone_with_id`. -/
def cloneWithId (session : RedisSession U) (id : Str) : Outcome SessionErr (RedisSession U) :=
  let (outcome, info) := session.info.adopt id
  do
    outcome
    return { session with
      info, cloned := none,
      userMeta := { session.userMeta with user := none, tryLoaded := false } }

/-- The key of the clone's hash, by the id name of the session itself. -/
def clonedKey : SessionM U Str := do
  let session ← self
  match session.cloned with
  | some cloned => pure (genKey session.info.sidName cloned.info.sid)
  | none => throw (.text "None cloned cannot get id".toList)

def clonedSilentSet (field value : Str) : SessionM U Bool := do
  let key ← clonedKey
  let _ ← Commands.hset key field value
  return true

def clonedTouch : SessionM U Bool := do
  let session ← self
  let key ← clonedKey
  Commands.expire key session.info.ttlSeconds

def clonedTtlPassed : SessionM U Nat := do
  let key ← clonedKey
  ttlPassedOf key

end RedisSession

end Dce.Session
