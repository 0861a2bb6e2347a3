import Dce.Session.Meta

/-!
# Session objects and their operations

A session object keeps its meta data, its cached user, its place in a connection
and, while it is regenerated, a clone of what it was before. An operation reads
and changes the object, and the root session of its connection when it has one,
while it sends commands to the store.
-/

namespace Dce.Session

/-- The id of a user, as a `u64`. -/
class UidGetter (U : Type) where
  id : U → Nat

/-- `serde_json::to_string` and `serde_json::from_str`. -/
class Serde (T : Type) where
  toJson : T → Option Str
  fromJson : Str → Option T

structure UserMeta (U : Type) where
  keyPrefix : Str
  userField : Str
  tryLoaded : Bool
  user : Option U

def defaultUserPrefix : Str := "dceusmap".toList
def defaultUserField : Str := "$user".toList
def defaultServerField : Str := "$server".toList

def UserMeta.new {U : Type} : UserMeta U where
  keyPrefix := defaultUserPrefix
  userField := defaultUserField
  tryLoaded := false
  user := none

/-- The place of a session in a connection. `shadow` names the root session; `serverUnbound` is
`some (some _)` in a root that is not bound to its server yet, `some none` in a bound one, and
`none` in the session of a request. -/
structure ConnectionMeta where
  serverField : Str
  shadow : Option Nat
  serverUnbound : Option (Option Str)

def ConnectionMeta.new : ConnectionMeta where
  serverField := defaultServerField
  shadow := none
  serverUnbound := none

/-- What `clone` keeps of a session: everything but the driver and its own clone. -/
structure Core (U : Type) where
  info : Meta
  userMeta : UserMeta U
  connMeta : ConnectionMeta

structure RedisSession (U : Type) extends Core U where
  cloned : Option (Core U)

/-- What an operation works on: the session and, if `shadow` can be upgraded, the root. -/
structure Scope (U : Type) where
  session : RedisSession U
  root : Option (RedisSession U)

/-- The operations of a session object over the commands of the store. -/
def SessionM (U α : Type) : Type :=
  Scope U → Prog Cmd Cmd.Reply (Outcome SessionErr α × Scope U)

namespace SessionM

variable {U α β : Type}

protected def bind (first : SessionM U α) (next : α → SessionM U β) :
    SessionM U β := fun scope =>
  (first scope).bind fun (outcome, scope) =>
    match outcome with
    | .ok value => next value scope
    | .err error => .ret (.err error, scope)
    | .panic => .ret (.panic, scope)

instance : Monad (SessionM U) where
  pure value := fun scope => .ret (.ok value, scope)
  bind := SessionM.bind

/-- The result of an operation as a value; a panic is not caught. -/
def attempt (operation : SessionM U α) : SessionM U (Except SessionErr α) := fun scope =>
  (operation scope).bind fun (outcome, scope) =>
    match outcome with
    | .ok value => .ret (.ok (.ok value), scope)
    | .err error => .ret (.ok (.error error), scope)
    | .panic => .ret (.panic, scope)

def ofOutcome (outcome : Outcome SessionErr α) : SessionM U α :=
    fun scope => .ret (outcome, scope)

def throw (error : SessionErr) : SessionM U α := ofOutcome (.err error)

def ofResult : Except SessionErr α → SessionM U α
  | .ok value => pure value
  | .error error => throw error

def self : SessionM U (RedisSession U) := fun scope => .ret (.ok scope.session, scope)

def getRoot : SessionM U (Option (RedisSession U)) := fun scope => .ret (.ok scope.root, scope)

def modify (change : RedisSession U → RedisSession U) : SessionM U Unit := fun scope =>
  .ret (.ok (), { scope with session := change scope.session })

def setRoot (root : RedisSession U) : SessionM U Unit := fun scope =>
  .ret (.ok (), { scope with root := some root })

/-- Send a command; an error of the driver ends the operation. -/
def redis (command : Cmd) : SessionM U command.Value := fun scope =>
  .call command fun reply =>
    match reply with
    | .ok value => .ret (.ok value, scope)
    | .error error => .ret (.err (.redis error), scope)

/-- Run an operation on a store that never fails. -/
def exec (operation : SessionM U α) (scope : Scope U) (store : Redis) :
    Outcome SessionErr α × Scope U × Redis :=
  let final := (operation scope).run Redis.answer store
  (final.1.1, final.1.2, final.2)

@[simp]
theorem exec_pure (value : α) (scope : Scope U) (store : Redis) :
    (pure value : SessionM U α).exec scope store = (.ok value, scope, store) := rfl

@[simp]
theorem exec_bind (first : SessionM U α) (next : α → SessionM U β) (scope : Scope U)
    (store : Redis) :
    (first >>= next).exec scope store =
      match first.exec scope store with
      | (.ok value, scope, store) => (next value).exec scope store
      | (.err error, scope, store) => (.err error, scope, store)
      | (.panic, scope, store) => (.panic, scope, store) := by
  change SessionM.exec (SessionM.bind first next) scope store = _
  simp only [exec, SessionM.bind, Prog.run_bind]
  generalize (first scope).run Redis.answer store = final
  rcases final with ⟨⟨outcome, scope⟩, store⟩
  cases outcome <;> rfl

/-- Go on after an operation whose value is known. -/
theorem exec_bind_of {first : SessionM U α} {next : α → SessionM U β} {scope scope' : Scope U}
    {store store' : Redis} {value : α}
    (done : first.exec scope store = (.ok value, scope', store')) :
    (first >>= next).exec scope store = (next value).exec scope' store' := by
  rw [exec_bind, done]

theorem exec_bind_pure_of {first : SessionM U α} {scope scope' : Scope U} {store store' : Redis}
    {outcome : Outcome SessionErr α} (value : β)
    (done : first.exec scope store = (outcome, scope', store')) :
    (first >>= fun _ => pure value).exec scope store =
      (outcome.bind fun _ => .ok value, scope', store') := by
  rw [exec_bind, done]
  cases outcome <;> rfl

@[simp]
theorem exec_attempt (operation : SessionM U α) (scope : Scope U) (store : Redis) :
    operation.attempt.exec scope store =
      match operation.exec scope store with
      | (.ok value, scope, store) => (.ok (.ok value), scope, store)
      | (.err error, scope, store) => (.ok (.error error), scope, store)
      | (.panic, scope, store) => (.panic, scope, store) := by
  simp only [exec, attempt, Prog.run_bind]
  generalize (operation scope).run Redis.answer store = final
  rcases final with ⟨⟨outcome, scope⟩, store⟩
  cases outcome <;> rfl

theorem exec_attempt_of {operation : SessionM U α} {scope scope' : Scope U} {store store' : Redis}
    {value : α} (done : operation.exec scope store = (.ok value, scope', store')) :
    operation.attempt.exec scope store = (.ok (.ok value), scope', store') := by
  rw [exec_attempt, done]

theorem exec_attempt_bind_of {operation : SessionM U α}
    {next : Except SessionErr α → SessionM U β}
    {scope scope' : Scope U} {store store' : Redis} {outcome : Outcome SessionErr α} :
    operation.exec scope store = (outcome, scope', store') →
    (operation.attempt >>= next).exec scope store =
      match outcome with
      | .ok value => (next (.ok value)).exec scope' store'
      | .err error => (next (.error error)).exec scope' store'
      | .panic => (.panic, scope', store') := by
  intro done
  rw [exec_bind, exec_attempt, done]
  cases outcome <;> rfl

@[simp]
theorem exec_ofOutcome (outcome : Outcome SessionErr α) (scope : Scope U) (store : Redis) :
    (ofOutcome outcome : SessionM U α).exec scope store = (outcome, scope, store) := rfl

@[simp]
theorem exec_throw (error : SessionErr) (scope : Scope U) (store : Redis) :
    (throw error : SessionM U α).exec scope store = (.err error, scope, store) := rfl

@[simp]
theorem exec_self (scope : Scope U) (store : Redis) :
    (self : SessionM U _).exec scope store = (.ok scope.session, scope, store) := rfl

@[simp]
theorem exec_getRoot (scope : Scope U) (store : Redis) :
    (getRoot : SessionM U _).exec scope store = (.ok scope.root, scope, store) := rfl

@[simp]
theorem exec_modify (change : RedisSession U → RedisSession U) (scope : Scope U)
    (store : Redis) :
    (modify change).exec scope store =
      (.ok (), { scope with session := change scope.session }, store) := rfl

@[simp]
theorem exec_setRoot (root : RedisSession U) (scope : Scope U) (store : Redis) :
    (setRoot root).exec scope store = (.ok (), { scope with root := some root }, store) := rfl

end SessionM

namespace Commands

open SessionM

variable {U : Type} (key field value member : Str) (seconds : Nat)

def hset : SessionM U Bool := redis (.hset key field value)

def hget : SessionM U (Option Str) := redis (.hget key field)

def hdel : SessionM U Bool := redis (.hdel key field)

def hsetMultiple (data : Dict) : SessionM U Bool := redis (.hmset key data)

def hgetall : SessionM U Dict := redis (.hgetall key)

def expire : SessionM U Bool := redis (.expire (.session key) seconds)

def expireSet : SessionM U Bool := redis (.expire (.user key) seconds)

def del : SessionM U Bool := redis (.del key)

def ttl : SessionM U Int := redis (.ttl key)

def isPresent : SessionM U Bool := redis (.isPresent key)

def sadd : SessionM U Bool := redis (.sadd key member)

def srem : SessionM U Bool := redis (.srem key member)

def smembers : SessionM U SidSet := redis (.smembers key)

variable (scope : Scope U) (store : Redis)

@[simp]
theorem exec_hset :
    (hset key field value).exec scope store =
      (.ok (!(store.fields key).contains field), scope, store.hset key field value) := rfl

@[simp]
theorem exec_hget :
    (hget key field).exec scope store = (.ok (store.fields key)[field]?, scope, store) := rfl

@[simp]
theorem exec_hdel :
    (hdel key field).exec scope store =
      (.ok ((store.fields key).contains field), scope, store.hdel key field) := rfl

@[simp]
theorem exec_hsetMultiple (data : Dict) :
    (hsetMultiple key data).exec scope store = (.ok true, scope, store.hmset key data) := rfl

@[simp]
theorem exec_hgetall :
    (hgetall key).exec scope store = (.ok (store.fields key), scope, store) := rfl

@[simp]
theorem exec_expire :
    (expire key seconds).exec scope store =
      (.ok (store.hash? key).isSome, scope, store.expire key seconds) := rfl

@[simp]
theorem exec_expireSet :
    (expireSet key seconds).exec scope store =
      (.ok (store.set? key).isSome, scope, store.expireSet key seconds) := rfl

@[simp]
theorem exec_del :
    (del key).exec scope store = (.ok (store.hash? key).isSome, scope, store.del key) := rfl

@[simp]
theorem exec_ttl : (ttl key).exec scope store = (.ok (store.ttl key), scope, store) := rfl

@[simp]
theorem exec_isPresent :
    (isPresent key).exec scope store = (.ok (store.hash? key).isSome, scope, store) := rfl

@[simp]
theorem exec_sadd :
    (sadd key member).exec scope store =
      (.ok (!(store.members key).contains member), scope, store.sadd key member) := rfl

@[simp]
theorem exec_srem :
    (srem key member).exec scope store =
      (.ok ((store.members key).contains member), scope, store.srem key member) := rfl

@[simp]
theorem exec_smembers :
    (smembers key).exec scope store = (.ok (store.members key), scope, store) := rfl

end Commands

end Dce.Session
