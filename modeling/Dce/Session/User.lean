import Dce.Session.Hash

/-!
# User sessions

The `User` trait of `RedisSession`: the cached user of a session object, the
index from a user's id to the sids it is logged in with, and the operations that
go through this index.
-/

namespace Dce.Session

variable {U : Type}

/-- How long a mapping set lives after the last sid was added to it. -/
def mappingTtlSeconds : Nat := 60 * 60 * 24 * 7

/-- `format!("{}:{}", user_prefix, id)`. -/
def genUserKey (userPrefix : Str) (id : Nat) : Str := userPrefix ++ ':' :: Nat.toDigits 10 id

/-- The sids among `sids`, in their order, that pass a check made one by one. -/
def SessionM.filterM (check : Str → SessionM U Bool) : List Str → SessionM U (List Str)
  | [] => pure []
  | sid :: sids => do
      let kept ← check sid
      let rest ← filterM check sids
      return if kept then sid :: rest else rest

/-- Run an operation for each sid in turn. -/
def SessionM.forSids (body : Str → SessionM U Unit) : List Str → SessionM U Unit
  | [] => pure ()
  | sid :: sids => do
      body sid
      forSids body sids

namespace RedisSession

open SessionM

def allSid (uid : Nat) : SessionM U SidSet := do
  let session ← self
  Commands.smembers (genUserKey session.userMeta.keyPrefix uid)

/-- Whether a sid still names a session; one that does not leaves the mapping set. -/
def sidIsLive (userKey sid : Str) : SessionM U Bool := do
  let session ← self
  let found ← Commands.isPresent (genKey session.info.sidName sid)
  if found then
    return true
  else
    let _ ← attempt (Commands.srem userKey sid)
    return false

def filterSids (uid : Nat) (sids : SidSet) : SessionM U (List Str) := do
  let session ← self
  filterM (sidIsLive (genUserKey session.userMeta.keyPrefix uid)) sids.toList

def sids (uid : Nat) : SessionM U (List Str) := do
  let sids ← allSid uid
  filterSids uid sids

/-- Write the user field of the session with this sid. -/
def syncSid (json sid : Str) : SessionM U Unit := do
  let session ← self
  let _ ← Commands.hset (genKey session.info.sidName sid) session.userMeta.userField json

section

variable [UidGetter U]

/-- Take the clone's sid out of the mapping set of the user the clone had cached. -/
def clonedUnmapping : SessionM U Bool := do
  let session ← self
  match session.cloned.bind fun cloned => cloned.userMeta.user.map fun user => (cloned, user) with
  | some (cloned, user) =>
      Commands.srem (genUserKey cloned.userMeta.keyPrefix (UidGetter.id user)) cloned.info.sid
  | none => return false

/-- Always true, because the old session may not be stored. -/
def clonedDestroy : SessionM U Bool := do
  let _ ← clonedUnmapping
  let key ← clonedKey
  let _ ← Commands.del key
  return true

end

variable [UidGetter U] [Serde U]

/-- The cached user, loaded from the hash once for each id. -/
def user : SessionM U (Option U) := do
  let session ← self
  if session.userMeta.tryLoaded then
    return session.userMeta.user
  else
    let json ← attempt (silentGet session.userMeta.userField)
    match json.toOption.bind Serde.fromJson with
    | some user =>
        modify fun session =>
          { session with userMeta := { session.userMeta with user := some user } }
    | none => pure ()
    modify fun session => { session with userMeta := { session.userMeta with tryLoaded := true } }
    let session ← self
    return session.userMeta.user

def uid : SessionM U Nat := do
  let user ← user
  match user with
  | some user => pure (UidGetter.id user)
  | none => throw (.text "Not a logged session cannot take uid".toList)

def userKey : SessionM U Str := do
  let session ← self
  let uid ← uid
  return genUserKey session.userMeta.keyPrefix uid

/-- Add the sid to the mapping set of the cached user. -/
def mapping : SessionM U Bool := do
  let userKey ← userKey
  let session ← self
  let _ ← Commands.sadd userKey session.info.sid
  Commands.expireSet userKey mappingTtlSeconds

/-- Just try, because there is no user where nobody is logged in. -/
def unmapping : SessionM U Bool := do
  let session ← self
  let userKey ← attempt userKey
  match userKey with
  | .ok userKey => Commands.srem userKey session.info.sid
  | .error _ => return false

/-- Write a user into every session its mapping set names. -/
def sync (user : U) : SessionM U Bool :=
  match Serde.toJson user with
  | none => throw .serde
  | some json => do
      let sids ← sids (UidGetter.id user)
      forSids (syncSid json) sids
      return true

def destroy : SessionM U Bool := do
  let _ ← unmapping
  let session ← self
  Commands.del session.key

def logout : SessionM U Bool := do
  let loggedIn ← user
  if loggedIn.isSome then
    let _ ← unmapping
    modify fun session => { session with userMeta := { session.userMeta with user := none } }
    let session ← self
    silentDel session.userMeta.userField
  else
    return false

/-- `user::renew`, where a mapping that fails is ignored. -/
def userRenew (env : Env) (filters : Filters) : SessionM U Bool := do
  let result ← sessionRenew env filters
  modify fun session => { session with userMeta := { session.userMeta with tryLoaded := false } }
  let _ ← attempt mapping
  return result

end RedisSession

end Dce.Session
