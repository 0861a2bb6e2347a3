import Dce.Session.System

/-!
# Effects on a store that never fails

For each operation the outcome, the object and the store it leaves behind when
no command fails. The results about runs argue from these equations only.
-/

namespace Dce.Session

variable {U : Type}

@[simp]
theorem genKey_inj {sidName sid sid' : Str} :
    genKey sidName sid = genKey sidName sid' ↔ sid = sid' := by
  simp [genKey]

theorem applyFilter_getElem? (raw : Dict) (field name : Str) (change : Option Str) :
    (applyFilter raw name change)[field]? = if name = field then change else raw[field]? := by
  cases change <;> simp [applyFilter, Std.ExtTreeMap.getElem?_insert, Std.ExtTreeMap.getElem?_erase]

theorem foldl_applyFilter_of_not_mem {changes : List (Str × Option Str)} {raw : Dict} {field : Str}
    (absent : ∀ change, (field, change) ∉ changes) :
    (changes.foldl (fun raw entry => applyFilter raw entry.1 entry.2) raw)[field]? =
      raw[field]? := by
  induction changes generalizing raw with
  | nil => rfl
  | cons head tail ih =>
      have differs : head.1 ≠ field := fun same => absent head.2 (by simp [← same])
      rw [List.foldl_cons, ih fun change later => absent change (List.mem_cons_of_mem _ later),
        applyFilter_getElem?, if_neg differs]

theorem foldl_applyFilter_of_mem {changes : List (Str × Option Str)} {raw : Dict} {field : Str}
    {change : Option Str} (distinct : changes.Pairwise fun left right => left.1 ≠ right.1)
    (present : (field, change) ∈ changes) :
    (changes.foldl (fun raw entry => applyFilter raw entry.1 entry.2) raw)[field]? = change := by
  induction changes generalizing raw with
  | nil => simp at present
  | cons head tail ih =>
      rw [List.pairwise_cons] at distinct
      rw [List.foldl_cons]
      rcases List.mem_cons.mp present with rfl | later
      · rw [foldl_applyFilter_of_not_mem fun other otherMem => distinct.1 _ otherMem rfl,
          applyFilter_getElem?, if_pos rfl]
      · exact ih distinct.2 later

/-- A filter decides the field it names; the other fields are copied. -/
theorem applyFilters_getElem? (filters : Filters) (raw : Dict) (field : Str) :
    (applyFilters filters raw)[field]? = (filters[field]?).getD raw[field]? := by
  rw [applyFilters, Std.ExtTreeMap.foldl_eq_foldl_toList]
  cases named : filters[field]? with
  | none =>
      apply foldl_applyFilter_of_not_mem
      intro change changeMem
      rw [Std.ExtTreeMap.mem_toList_iff_getElem?_eq_some, named] at changeMem
      cases changeMem
  | some change =>
      apply foldl_applyFilter_of_mem
      · exact Std.ExtTreeMap.distinct_keys_toList.imp (by simp)
      · exact Std.ExtTreeMap.mem_toList_iff_getElem?_eq_some.mpr named

namespace Redis

/-- The store with a sid added to a mapping set. -/
def index (store : Redis) (userKey sid : Str) : Redis :=
  (store.sadd userKey sid).expireSet userKey mappingTtlSeconds

variable (store : Redis) (userKey sid key : Str)

@[simp] theorem hash?_index : (store.index userKey sid).hash? key = store.hash? key := by
  simp [index]

@[simp] theorem fields_index : (store.index userKey sid).fields key = store.fields key := by
  simp [index]

@[simp]
theorem mem_members_index (sid' : Str) :
    sid' ∈ (store.index userKey sid).members key ↔
      (key = userKey ∧ sid' = sid) ∨ sid' ∈ store.members key := by
  simp [index, members_expireSet _ _ _ (show mappingTtlSeconds ≠ 0 by decide)]

end Redis

namespace RedisSession

open SessionM

variable (scope : Scope U) (store : Redis)

@[simp]
theorem exec_silentSet (field value : Str) :
    (silentSet field value).exec scope store =
      (.ok true, scope, store.hset scope.session.key field value) := by
  simp [silentSet]

@[simp]
theorem exec_silentGet (field : Str) :
    (silentGet field).exec scope store =
      match (store.fields scope.session.key)[field]? with
      | some value => (.ok value, scope, store)
      | none => (.err (.redis .nil), scope, store) := by
  cases found : (store.fields scope.session.key)[field]? <;>
    simp [silentGet, found]

@[simp]
theorem exec_silentDel (field : Str) :
    (silentDel field : SessionM U Bool).exec scope store =
      (.ok ((store.fields scope.session.key).contains field), scope,
        store.hdel scope.session.key field) := by
  simp [silentDel]

@[simp]
theorem exec_touch :
    touch.exec scope store =
      (.ok (store.hash? scope.session.key).isSome, scope,
        store.expire scope.session.key scope.session.info.ttlSeconds) := by
  simp [touch]

@[simp]
theorem exec_raw :
    raw.exec scope store = (.ok (store.fields scope.session.key), scope, store) := by
  simp [raw]

theorem exec_load {data : Dict} (nonempty : data ≠ ∅) :
    (load data).exec scope store =
      (.ok true, scope, store.hmset scope.session.key data) := by
  simp [load, nonempty]

/-- The object after its touch: the answer is kept for the life of the id. -/
def afterTouch (session : RedisSession U) (store : Redis) : RedisSession U :=
  match session.info.touches with
  | none => { session with info := { session.info with
      touches := some (store.hash? session.key).isSome } }
  | some _ => session

@[simp]
theorem afterTouch_sid (session : RedisSession U) (store : Redis) :
    (session.afterTouch store).info.sid = session.info.sid := by
  rw [afterTouch]
  split <;> rfl

/-- The store after the touch of an object, which is spent once it was made. -/
def storeAfterTouch (session : RedisSession U) (store : Redis) : Redis :=
  match session.info.touches with
  | none => store.expire session.key session.info.ttlSeconds
  | some _ => store

@[simp]
theorem exec_tryTouch :
    tryTouch.exec scope store =
      (.ok ((scope.session.afterTouch store).info.touches == some true),
        { scope with session := scope.session.afterTouch store },
        scope.session.storeAfterTouch store) := by
  cases spent : scope.session.info.touches <;>
    simp [tryTouch, afterTouch, storeAfterTouch, spent]

@[simp]
theorem exec_set (field value : Str) :
    (set field (some value)).exec scope store =
      (.ok ((scope.session.afterTouch (store.hset scope.session.key field value)).info.touches ==
          some true),
        { scope with
          session := scope.session.afterTouch (store.hset scope.session.key field value) },
        scope.session.storeAfterTouch (store.hset scope.session.key field value)) := by
  simp [set, touchIfTrue]

@[simp]
theorem exec_set_none (field : Str) :
    (set field none).exec scope store = (.err .serde, scope, store) := rfl

theorem exec_get (T : Type) [Serde T] (field : Str) :
    (get T field).exec scope store =
      match (store.fields scope.session.key)[field]? with
      | some json =>
          (match Serde.fromJson json with
            | some value => .ok value
            | none => .err .serde,
            { scope with session := scope.session.afterTouch store },
            scope.session.storeAfterTouch store)
      | none => (.err (.redis .nil), scope, store) := by
  cases found : (store.fields scope.session.key)[field]? with
  | none => simp [get, found]
  | some json => cases parsed : (Serde.fromJson json : Option T) <;> simp [get, found, parsed]

theorem exec_del (field : Str) :
    (del field).exec scope store =
      if (store.fields scope.session.key).contains field then
        (.ok ((scope.session.afterTouch (store.hdel scope.session.key field)).info.touches ==
            some true),
          { scope with session := scope.session.afterTouch (store.hdel scope.session.key field) },
          scope.session.storeAfterTouch (store.hdel scope.session.key field))
      else (.ok false, scope, store.hdel scope.session.key field) := by
  cases present : (store.fields scope.session.key).contains field <;>
    simp [del, touchIfTrue, present, ofResult]

/-- The user a hash holds, if it can be read. -/
def storedUser [Serde U] (core : Core U) (store : Redis) : Option U :=
  (store.fields core.key)[core.userMeta.userField]?.bind Serde.fromJson

section

variable [Serde U]

/-- The user the object acts for: loaded once for each id, and the old one if that fails. -/
def loadedUser (session : RedisSession U) (store : Redis) : Option U :=
  if session.userMeta.tryLoaded then session.userMeta.user
  else (storedUser session.toCore store).or session.userMeta.user

/-- The object once its user was loaded. -/
def afterLoad (session : RedisSession U) (store : Redis) : RedisSession U :=
  { session with
    userMeta := { session.userMeta with user := session.loadedUser store, tryLoaded := true } }

section

variable (session : RedisSession U) (later : Redis)

@[simp] theorem afterLoad_info : (session.afterLoad store).info = session.info := rfl

@[simp] theorem afterLoad_connMeta : (session.afterLoad store).connMeta = session.connMeta := rfl

@[simp] theorem afterLoad_cloned : (session.afterLoad store).cloned = session.cloned := rfl

@[simp] theorem afterLoad_key : (session.afterLoad store).key = session.key := rfl

@[simp] theorem afterLoad_keyPrefix :
    (session.afterLoad store).userMeta.keyPrefix = session.userMeta.keyPrefix := rfl

@[simp] theorem afterLoad_userField :
    (session.afterLoad store).userMeta.userField = session.userMeta.userField := rfl

@[simp] theorem afterLoad_tryLoaded : (session.afterLoad store).userMeta.tryLoaded = true := rfl

/-- A user is loaded once for each id. -/
@[simp]
theorem loadedUser_afterLoad :
    (session.afterLoad store).loadedUser later = session.loadedUser store := rfl

@[simp]
theorem afterLoad_afterLoad :
    (session.afterLoad store).afterLoad later = session.afterLoad store := rfl

end

@[simp]
theorem exec_user :
    user.exec scope store =
      (.ok (scope.session.loadedUser store),
        { scope with session := scope.session.afterLoad store }, store) := by
  rcases scope with
    ⟨⟨⟨info, ⟨keyPrefix, userField, tryLoaded, cached⟩, connMeta⟩, cloned⟩, root⟩
  cases tryLoaded with
  | true => simp [user, loadedUser, afterLoad]
  | false =>
      cases found : (store.fields (genKey info.sidName info.sid))[userField]? with
      | none => simp [user, loadedUser, afterLoad, storedUser, Core.key, found, Except.toOption]
      | some json =>
          cases parsed : (Serde.fromJson json : Option U) <;>
            simp [user, loadedUser, afterLoad, storedUser, Core.key, found, parsed,
              Except.toOption]

variable [UidGetter U]

/-- The mapping set of the user the object acts for. -/
def actingKey (session : RedisSession U) (store : Redis) : Option Str :=
  (session.loadedUser store).map fun user => genUserKey session.userMeta.keyPrefix
    (UidGetter.id user)

@[simp]
theorem exec_userKey :
    userKey.exec scope store =
      (match scope.session.actingKey store with
        | some userKey => .ok userKey
        | none => .err (.text "Not a logged session cannot take uid".toList),
        { scope with session := scope.session.afterLoad store }, store) := by
  cases acting : scope.session.loadedUser store <;> simp [userKey, uid, actingKey, acting]

@[simp]
theorem exec_mapping :
    mapping.exec scope store =
      match scope.session.actingKey store with
      | some userKey =>
          (.ok true, { scope with session := scope.session.afterLoad store },
            store.index userKey scope.session.info.sid)
      | none =>
          (.err (.text "Not a logged session cannot take uid".toList),
            { scope with session := scope.session.afterLoad store }, store) := by
  cases acting : scope.session.actingKey store with
  | none => simp [mapping, acting]
  | some userKey => simp [mapping, acting, Redis.index, afterLoad]

/-- The store with the sid out of the mapping set of the user the object acts for. -/
def unmapped (session : RedisSession U) (store : Redis) : Redis :=
  match session.actingKey store with
  | some userKey => store.srem userKey session.info.sid
  | none => store

@[simp]
theorem fields_unmapped (session : RedisSession U) (key : Str) :
    (session.unmapped store).fields key = store.fields key := by
  rw [unmapped]
  split <;> rfl

@[simp]
theorem exec_unmapping :
    unmapping.exec scope store =
      (.ok ((scope.session.actingKey store).any fun userKey =>
          (store.members userKey).contains scope.session.info.sid),
        { scope with session := scope.session.afterLoad store },
        scope.session.unmapped store) := by
  cases acting : scope.session.actingKey store <;>
    simp [unmapping, unmapped, acting, afterLoad]

@[simp]
theorem exec_destroy :
    destroy.exec scope store =
      (.ok ((scope.session.unmapped store).hash? scope.session.key).isSome,
        { scope with session := scope.session.afterLoad store },
        (scope.session.unmapped store).del scope.session.key) := by
  simp [destroy, afterLoad, Core.key]

/-- The object after a logout. -/
def afterLogout (session : RedisSession U) : RedisSession U :=
  { session with userMeta := { session.userMeta with user := none, tryLoaded := true } }

theorem exec_logout :
    logout.exec scope store =
      match scope.session.loadedUser store with
      | some _ =>
          (.ok ((store.fields scope.session.key).contains scope.session.userMeta.userField),
            { scope with session := scope.session.afterLogout },
            (scope.session.unmapped store).hdel scope.session.key
              scope.session.userMeta.userField)
      | none => (.ok false, { scope with session := scope.session.afterLoad store }, store) := by
  cases acting : scope.session.loadedUser store with
  | none => simp [logout, acting]
  | some user =>
      simp [logout, acting, unmapped, actingKey, afterLogout, Core.key]

end

/-- The fields a regenerated session starts with. -/
def copyOf (session : RedisSession U) (filters : Filters) (store : Redis) : Dict :=
  applyFilters filters (store.fields session.key)

/-- The object with its new id, before it looks for its user again. -/
def regenerated (session : RedisSession U) (env : Env) (filters : Filters) (store : Redis) :
    RedisSession U :=
  { session with
    info := { session.info.regenerate env with
      touches := if (session.copyOf filters store).isEmpty then none else some true }
    userMeta := { session.userMeta with tryLoaded := false } }

/-- The store with the copy at its new key. -/
def copied (session : RedisSession U) (env : Env) (filters : Filters) (store : Redis) : Redis :=
  let key := (session.regenerated env filters store).key
  if (session.copyOf filters store).isEmpty then store
  else (store.hmset key (session.copyOf filters store)).expire key session.info.ttlSeconds

theorem exec_sessionRenew (env : Env) (filters : Filters) :
    (sessionRenew env filters).exec scope store =
      (.ok true,
        { scope with session := { scope.session.regenerated env filters store with
          userMeta := scope.session.userMeta } },
        scope.session.copied env filters store) := by
  by_cases emptied : applyFilters filters (store.fields scope.session.key) = ∅
  · simp [sessionRenew, regenerated, copied, copyOf, emptied, Meta.regenerate]
  · simp only [Core.key] at emptied
    simp [sessionRenew, regenerated, copied, copyOf, emptied, Meta.regenerate, exec_load,
      afterTouch, storeAfterTouch, Redis.isSome_hash?_hmset, Core.key, Meta.ttlSeconds]

variable [Serde U] [UidGetter U]

/-- The store with the sid in the mapping set of the user the object acts for. -/
def mapped (session : RedisSession U) (store : Redis) : Redis :=
  match session.actingKey store with
  | some userKey => store.index userKey session.info.sid
  | none => store

/-- A mapping that fails leaves the store as it is. -/
theorem exec_attempt_mapping :
    ∃ result, (attempt mapping).exec scope store =
      (.ok result, { scope with session := scope.session.afterLoad store },
        scope.session.mapped store) := by
  cases acting : scope.session.actingKey store <;> simp [mapped, acting]

theorem exec_userRenew (env : Env) (filters : Filters) :
    (userRenew env filters).exec scope store =
      let session := scope.session.regenerated env filters store
      let store := scope.session.copied env filters store
      (.ok true, { scope with session := session.afterLoad store }, session.mapped store) := by
  rcases exec_attempt_mapping
    { scope with session := scope.session.regenerated env filters store }
    (scope.session.copied env filters store) with ⟨result, mapping⟩
  rw [userRenew, exec_bind_of (exec_sessionRenew ..), exec_bind_of (exec_modify ..)]
  exact (exec_bind_of mapping).trans (exec_pure ..)

/-- The object with its new id, after the mapping looked for its user. -/
def successor (session : RedisSession U) (env : Env) (filters : Filters) (store : Redis) :
    RedisSession U :=
  (session.regenerated env filters store).afterLoad (session.copied env filters store)

/-- The store after a regeneration that has no connection. -/
def succeeded (session : RedisSession U) (env : Env) (filters : Filters) (store : Redis) : Redis :=
  (session.regenerated env filters store).mapped (session.copied env filters store)

/-- The server the root of a connection still has to be bound to. -/
def unboundServer (root : Option (RedisSession U)) : Option Str :=
  root.bind fun root => root.connMeta.serverUnbound.join

/-- The store with the server of the root written into the session of a request. -/
def bound (session : RedisSession U) (root : Option (RedisSession U)) (store : Redis) : Redis :=
  match unboundServer root with
  | some server => store.hset session.key session.connMeta.serverField server
  | none => store

/-- A root that was redirected to a sid, or could not be. -/
def Redirected (sid : Str) (before after : Option (RedisSession U)) : Prop :=
  after = before ∨ ∃ root serverUnbound, before = some root ∧
    after = some { root with
      info := (root.info.adopt sid).2, connMeta := { root.connMeta with serverUnbound } }

/-- There is a root that takes over the sid. -/
def Redirectable (sid : Str) (root : Option (RedisSession U)) : Prop :=
  ∃ session, root = some session ∧ (session.info.adopt sid).1 = .ok ()

omit [Serde U] [UidGetter U] in
theorem exec_updateShadow (newSid : Str) :
    ∃ outcome root, (updateShadow newSid).exec scope store =
        (outcome, { scope with root }, scope.session.bound scope.root store) ∧
      Redirected newSid scope.root root ∧
        (outcome = .ok () → Redirectable newSid scope.root) := by
  rcases scope with
    ⟨session, _ | ⟨⟨info, userMeta, serverField, shadow, unbound⟩, cloned⟩⟩
  · exact ⟨_, none, rfl, .inl rfl, nofun⟩
  · rcases unbound with _ | _ | server <;>
      exact ⟨_, _, rfl, .inr ⟨_, _, rfl, rfl⟩, fun adopted => ⟨_, rfl, adopted⟩⟩

/-- Whether a regeneration redirects the root of a connection. -/
def redirects (connection : Bool) (session : RedisSession U) : Bool :=
  connection && session.connMeta.serverUnbound.isNone

/-- The store after a regeneration, whether or not it redirects the root of a connection. -/
def renewedStore (redirects : Bool) (session : RedisSession U) (root : Option (RedisSession U))
    (env : Env) (filters : Filters) (store : Redis) : Redis :=
  let succeeded := session.succeeded env filters store
  if redirects then (session.successor env filters store).bound root succeeded else succeeded

theorem exec_renew (connection : Bool) (env : Env) (filters : Filters) :
    ∃ outcome root, (renew connection env filters).exec scope store =
        (outcome, ⟨scope.session.successor env filters store, root⟩,
          scope.session.renewedStore (redirects connection scope.session) scope.root env filters
            store) ∧
      Redirected (scope.session.info.regenerate env).sid scope.root root ∧
      (redirects connection scope.session = false → outcome = .ok true ∧ root = scope.root) ∧
      (redirects connection scope.session = true → ∀ value, outcome = .ok value →
        Redirectable (scope.session.info.regenerate env).sid scope.root) := by
  have renewed := exec_attempt_of (exec_userRenew scope store env filters)
  have hook : (connection && (Except.ok true : Except SessionErr Bool).isOk &&
      scope.session.connMeta.serverUnbound.isNone) = redirects connection scope.session := by
    simp [redirects, Except.isOk, Except.toBool]
  cases redirecting : redirects connection scope.session with
  | false =>
      refine ⟨.ok true, scope.root, ?_, .inl rfl, fun _ => ⟨rfl, rfl⟩, nofun⟩
      rw [renew, exec_bind_of renewed, exec_bind_of (exec_self ..)]
      change SessionM.exec (if (connection && (Except.ok true : Except SessionErr Bool).isOk &&
        scope.session.connMeta.serverUnbound.isNone) = true then _ else _) _ _ = _
      rw [hook, redirecting]
      rfl
  | true =>
      rcases exec_updateShadow ⟨scope.session.successor env filters store, scope.root⟩
        (scope.session.succeeded env filters store) (scope.session.info.regenerate env).sid with
        ⟨outcome, root, updated, redirected, adopted⟩
      refine ⟨outcome.bind fun _ => .ok true, root, ?_, redirected, nofun, fun _ value ok => ?_⟩
      · rw [renew, exec_bind_of renewed, exec_bind_of (exec_self ..)]
        change SessionM.exec (if (connection && (Except.ok true : Except SessionErr Bool).isOk &&
          scope.session.connMeta.serverUnbound.isNone) = true then _ else _) _ _ = _
        rw [hook, redirecting]
        exact exec_bind_pure_of true updated
      · cases outcome with
        | ok => exact adopted rfl
        | err error => cases ok
        | panic => cases ok

/-- The store with the sid of a clone out of the mapping set of the user the clone had cached. -/
def clonedUnmapped (cloned : Core U) (store : Redis) : Redis :=
  match cloned.userMeta.user with
  | some user =>
      store.srem (genUserKey cloned.userMeta.keyPrefix (UidGetter.id user)) cloned.info.sid
  | none => store

omit [Serde U] in
@[simp]
theorem fields_clonedUnmapped (cloned : Core U) (key : Str) :
    (clonedUnmapped cloned store).fields key = store.fields key := by
  rw [clonedUnmapped]
  split <;> rfl

omit [UidGetter U] in
theorem loginFilters_getElem? (session : RedisSession U) {field : Str}
    (other : field ≠ session.userMeta.userField) : (loginFilters session)[field]? = none := by
  rw [loginFilters]
  split
  · simp [other.symm]
  · simp

omit [Serde U] in
theorem exec_clonedDestroy (cloned : Core U) (found : scope.session.cloned = some cloned) :
    clonedDestroy.exec scope store =
      (.ok true, scope,
        (clonedUnmapped cloned store).del (genKey scope.session.info.sidName cloned.info.sid)) := by
  cases acting : cloned.userMeta.user <;>
    simp [clonedDestroy, clonedUnmapping, clonedUnmapped, clonedKey, found, acting]

omit [Serde U] in
theorem exec_clonedDestroy_none (absent : scope.session.cloned = none) :
    clonedDestroy.exec scope store =
      (.err (.text "None cloned cannot get id".toList), scope, store) := by
  simp only [clonedDestroy, clonedUnmapping, clonedKey, exec_bind, exec_self, absent,
    Option.bind_none, exec_pure, exec_throw]

/-- The store after a login whose regeneration went well. -/
def loggedIn (session : RedisSession U) (store : Redis) : Redis :=
  (clonedUnmapped session.toCore store).del session.key

theorem exec_logIn (connection : Bool) (env : Env) (user : Option U)
    (ttlMinutes : Option UInt16) :
    let prepared := prepareLogin user ttlMinutes scope.session
    let renewed := prepared.renewedStore (redirects connection scope.session) scope.root env
      (loginFilters prepared) store
    ∃ outcome root store', (logIn connection env user ttlMinutes).exec scope store =
        (outcome, ⟨prepared.successor env (loginFilters prepared) store, root⟩, store') ∧
      Redirected (prepared.info.regenerate env).sid scope.root root ∧
      (store' = renewed ∨ store' = scope.session.loggedIn renewed) ∧
      (redirects connection scope.session = false →
        outcome = .ok true ∧ root = scope.root ∧ store' = scope.session.loggedIn renewed) ∧
      (redirects connection scope.session = true → ∀ value, outcome = .ok value →
        Redirectable (prepared.info.regenerate env).sid scope.root) := by
  intro prepared renewed
  rcases exec_renew { scope with session := prepared } store connection env
    (loginFilters prepared) with ⟨outcome, root, done, redirected, alone, adopted⟩
  have opening : (logIn connection env user ttlMinutes).exec scope store = _ :=
    (exec_bind_of (exec_modify ..)).trans (exec_bind_of (exec_self ..))
  have continued := opening.trans (exec_attempt_bind_of done)
  cases outcome with
  | ok value =>
      refine ⟨.ok true, root, _, continued.trans ?_, redirected, .inr rfl,
        fun single => ⟨rfl, (alone single).2, rfl⟩,
        fun redirecting _ _ => adopted redirecting value rfl⟩
      refine (exec_clonedDestroy _ renewed scope.session.toCore rfl).trans ?_
      simp [loggedIn, Core.key, prepared, successor, regenerated, Meta.regenerate, prepareLogin]
  | err error =>
      exact ⟨.err error, root, _, continued.trans rfl, redirected, .inl rfl,
        fun single => (by cases (alone single).1), fun _ _ returned => (by cases returned)⟩
  | panic =>
      exact ⟨.panic, root, _, continued.trans rfl, redirected, .inl rfl,
        fun single => (by cases (alone single).1), fun _ _ returned => (by cases returned)⟩

/-- Whether a sid names a stored session. -/
def isLive (session : RedisSession U) (store : Redis) (sid : Str) : Bool :=
  (store.hash? (genKey session.info.sidName sid)).isSome

/-- The store without the sids in a mapping set that name no session. -/
def pruned (session : RedisSession U) (userKey : Str) : List Str → Redis → Redis
  | [], store => store
  | sid :: sids, store =>
      pruned session userKey sids
        (if session.isLive store sid then store else store.srem userKey sid)

/-- The store with a user written into the sessions with these sids. -/
def synced (session : RedisSession U) (json : Str) : List Str → Redis → Redis
  | [], store => store
  | sid :: sids, store =>
      synced session json sids
        (store.hset (genKey session.info.sidName sid) session.userMeta.userField json)

section

variable (session : RedisSession U) (userKey json key : Str) (sids : List Str)

omit [UidGetter U] [Serde U]

@[simp]
theorem hash?_pruned : (session.pruned userKey sids store).hash? key = store.hash? key := by
  induction sids generalizing store with
  | nil => rfl
  | cons sid sids ih =>
      rw [pruned, ih]
      split <;> rfl

@[simp]
theorem fields_pruned : (session.pruned userKey sids store).fields key = store.fields key := by
  rw [Redis.fields, hash?_pruned, Redis.fields]

@[simp]
theorem now_pruned : (session.pruned userKey sids store).now = store.now := by
  induction sids generalizing store with
  | nil => rfl
  | cons sid sids ih =>
      rw [pruned, ih]
      split <;> rfl

theorem mem_members_pruned (sid : Str) :
    sid ∈ (session.pruned userKey sids store).members key ↔
      sid ∈ store.members key ∧
        ¬ (key = userKey ∧ sid ∈ sids ∧ session.isLive store sid = false) := by
  induction sids generalizing store with
  | nil => simp [pruned]
  | cons head sids ih =>
      rw [pruned, ih]
      cases live : session.isLive store head with
      | true =>
          simp only [if_true, List.mem_cons]
          grind
      | false =>
          simp [isLive] at live ⊢
          grind

omit session userKey json key sids store in
theorem insert_insert (data : Dict) (field value : Str) :
    (data.insert field value).insert field value = data.insert field value := by
  apply Std.ExtTreeMap.ext_getElem?
  intro other
  simp only [Std.ExtTreeMap.getElem?_insert]
  split <;> rfl

theorem fields_synced :
    (session.synced json sids store).fields key =
      if ∃ sid ∈ sids, genKey session.info.sidName sid = key then
        (store.fields key).insert session.userMeta.userField json
      else store.fields key := by
  induction sids generalizing store with
  | nil => simp [synced]
  | cons head sids ih =>
      rw [synced, ih, Redis.fields_hset]
      by_cases same : genKey session.info.sidName head = key
      · simp [same, insert_insert]
      · simp [same, Ne.symm same]

theorem exec_filterM (sids : List Str) :
    (filterM (sidIsLive userKey) sids).exec scope store =
      (.ok (sids.filter (scope.session.isLive store)), scope,
        scope.session.pruned userKey sids store) := by
  induction sids generalizing store with
  | nil => rfl
  | cons head sids ih =>
      have checked : (sidIsLive userKey head).exec scope store =
          (.ok (scope.session.isLive store head), scope,
            if scope.session.isLive store head then store else store.srem userKey head) := by
        cases live : scope.session.isLive store head <;>
          simp_all [sidIsLive, isLive]
      rw [filterM, exec_bind_of checked, exec_bind_of (ih _)]
      have unchanged : scope.session.isLive (if scope.session.isLive store head then store
          else store.srem userKey head) = scope.session.isLive store := by
        funext sid
        split <;> rfl
      cases live : scope.session.isLive store head <;> simp_all [pruned]

theorem exec_forSids (sids : List Str) :
    (forSids (syncSid json) sids).exec scope store =
      (.ok (), scope, scope.session.synced json sids store) := by
  induction sids generalizing store with
  | nil => rfl
  | cons head sids ih => simp [forSids, syncSid, synced, ih]

end

theorem exec_sync (user : U) :
    (sync user).exec scope store =
      match Serde.toJson user with
      | none => (.err .serde, scope, store)
      | some json =>
          let userKey := genUserKey scope.session.userMeta.keyPrefix (UidGetter.id user)
          let sids := (store.members userKey).toList
          (.ok true, scope,
            scope.session.synced json (sids.filter (scope.session.isLive store))
              (scope.session.pruned userKey sids store)) := by
  cases written : Serde.toJson user with
  | none => simp [sync, written]
  | some json =>
      have listed : (sids (UidGetter.id user)).exec scope store = _ :=
        (exec_bind_of (exec_bind_of (exec_self ..))).trans
          ((exec_bind_of (exec_self ..)).trans (exec_filterM ..))
      simp only [sync, written]
      rw [exec_bind_of listed, exec_bind_of (exec_forSids ..)]
      rfl

end RedisSession

/-- How long a session with this sid went untouched, by the lifetime of this session. -/
def RedisSession.idleOf (session : RedisSession U) (sid : Str) (store : Redis) : Option Nat :=
  idleSeconds session.info (store.ttl (genKey session.info.sidName sid))

namespace AutoRenew

open SessionM RedisSession

variable (conf : AutoRenew) (connection : Bool) (scope : Scope U) (store : Redis)

/-- The object that keeps a clone of itself while it is regenerated. -/
def cloning (session : RedisSession U) : RedisSession U :=
  { session with cloned := some session.toCore }

/-- The store with the old session touched and its successor named in it. -/
def marked (session : RedisSession U) (newSid : Str) (store : Redis) : Redis :=
  (store.expire session.key session.info.ttlSeconds).hset session.key conf.newSidField newSid

/-- How long the session has been due. -/
def due (session : RedisSession U) (env : Env) : Int :=
  conf.secondsFromRenew env.now session.info.createStamp

/-- Whether a successor was used lately, and later than the old session. -/
def judged (session : RedisSession U) (newSid : Str) (store : Redis) : Bool :=
  let newTp := (session.idleOf newSid store).getD (2 ^ 32 - 1)
  decide (newTp < conf.clonedInactiveJudgmentSeconds.toNat) &&
    (session.idleOf session.info.sid store).all fun oldTp => decide (newTp < oldTp)

section

variable [UidGetter U] [Serde U]

theorem exec_doClone (env : Env) (filters : Filters) :
    let renewed := (cloning scope.session).renewedStore (redirects connection scope.session)
      scope.root env filters store
    ∃ outcome root store', (conf.doClone connection env filters).exec scope store =
        (outcome, ⟨(cloning scope.session).successor env filters store, root⟩, store') ∧
      Redirected (scope.session.info.regenerate env).sid scope.root root ∧
      ((outcome ≠ .ok true ∧ store' = renewed) ∨ (outcome = .ok true ∧
        store' = conf.marked scope.session (scope.session.info.regenerate env).sid renewed ∧
        (redirects connection scope.session = true →
          Redirectable (scope.session.info.regenerate env).sid scope.root))) ∧
      (redirects connection scope.session = false →
        outcome = .ok true ∧ root = scope.root) := by
  intro renewed
  rcases exec_renew { scope with session := cloning scope.session } store connection env filters
    with ⟨outcome, root, done, redirected, alone, adopted⟩
  have opening : (conf.doClone connection env filters).exec scope store = _ :=
    exec_bind_of (exec_modify ..)
  have continued := opening.trans (exec_attempt_bind_of done)
  cases outcome with
  | ok value =>
      refine ⟨.ok true, root, _, continued.trans ?_, redirected,
        .inr ⟨rfl, rfl, fun redirecting => adopted redirecting value rfl⟩,
        fun single => ⟨rfl, (alone single).2⟩⟩
      simp [clonedTouch, clonedSilentSet, clonedKey, marked, successor, cloning, regenerated,
        Meta.regenerate, Core.key, Meta.ttlSeconds, renewed, redirects]
  | err error =>
      refine ⟨.err error, root, _, continued.trans rfl, redirected,
        .inl ⟨by rintro ⟨⟩, rfl⟩, ?_⟩
      intro single
      cases (alone single).1
  | panic =>
      refine ⟨.panic, root, _, continued.trans rfl, redirected,
        .inl ⟨by rintro ⟨⟩, rfl⟩, ?_⟩
      intro single
      cases (alone single).1

variable {conf scope store}

/-- A session that is not due keeps its id. -/
theorem exec_tryRenew_early {env : Env} (early : conf.due scope.session env < 0) :
    (conf.tryRenew connection env).exec scope store =
      (.ok false, { scope with session := scope.session.afterTouch store },
        scope.session.storeAfterTouch store) := by
  simp only [due] at early
  simp [tryRenew, early]

/-- A session that is due for the first time is cloned. -/
theorem exec_tryRenew_unmarked {env : Env} (isDue : 0 ≤ conf.due scope.session env)
    (unmarked : (store.fields scope.session.key)[conf.newSidField]? = none) :
    (conf.tryRenew connection env).exec scope store =
      (conf.doClone connection env ∅).exec scope store := by
  simp only [due] at isDue
  simp [tryRenew, Int.not_lt.mpr isDue, unmarked]

/-- A session that was cloned a moment ago stays in use. -/
theorem exec_tryRenew_recent {env : Env} {newSid : Str} (isDue : 0 ≤ conf.due scope.session env)
    (marker : (store.fields scope.session.key)[conf.newSidField]? = some newSid)
    (recent : conf.due scope.session env ≤ conf.originalJudgmentSeconds.toNat) :
    (conf.tryRenew connection env).exec scope store =
      (.ok false, { scope with session := scope.session.afterTouch store },
        scope.session.storeAfterTouch store) := by
  simp only [due] at isDue recent
  simp [tryRenew, Int.not_lt.mpr isDue, marker, Int.not_lt.mpr recent]

/-- A session that was cloned long ago is judged against its successor. -/
theorem exec_tryRenew_late {env : Env} {newSid : Str} (isDue : 0 ≤ conf.due scope.session env)
    (marker : (store.fields scope.session.key)[conf.newSidField]? = some newSid)
    (late : conf.originalJudgmentSeconds.toNat < conf.due scope.session env) :
    (conf.tryRenew connection env).exec scope store =
      (conf.replaceOrDestroy connection env newSid).exec scope store := by
  simp only [due] at isDue late
  simp [tryRenew, Int.not_lt.mpr isDue, marker, late]

/-- A session whose successor is in use is given up. -/
def destroyed (session : RedisSession U) (store : Redis) : Redis :=
  (session.unmapped store).del session.key

omit [UidGetter U] [Serde U] in
theorem exec_ttlPassedOf (key : Str) :
    (ttlPassedOf key).exec scope store =
      (match idleSeconds scope.session.info (store.ttl key) with
        | some passed => .ok passed
        | none => .err (.text "ttl was not initialized yet.".toList), scope, store) := by
  cases passed : idleSeconds scope.session.info (store.ttl key) <;>
    simp [ttlPassedOf, Except.toOption, passed]

omit [UidGetter U] [Serde U] in
/-- The judgement only reads. -/
theorem exec_successorIsActive {conf : AutoRenew} {scope : Scope U} {cloned : Core U}
    (found : scope.session.cloned = some cloned) (store : Redis) :
    conf.successorIsActive.exec scope store =
      (.ok (conf.judged scope.session cloned.info.sid store), scope, store) := by
  have readNew : ∃ error, clonedTtlPassed.attempt.exec scope store =
      (.ok ((scope.session.idleOf cloned.info.sid store).elim (.error error) .ok),
        scope, store) := by
    refine ⟨.text "ttl was not initialized yet.".toList, ?_⟩
    cases passed : scope.session.idleOf cloned.info.sid store <;>
      simp [clonedTtlPassed, clonedKey, found, exec_ttlPassedOf, idleOf] at passed ⊢ <;>
      simp [passed]
  have readOld : ∃ error, ttlPassed.attempt.exec scope store =
      (.ok ((scope.session.idleOf scope.session.info.sid store).elim (.error error) .ok), scope,
        store) := by
    refine ⟨.text "ttl was not initialized yet.".toList, ?_⟩
    cases passed : scope.session.idleOf scope.session.info.sid store <;>
      simp [ttlPassed, exec_ttlPassedOf, idleOf, Core.key] at passed ⊢ <;>
      simp [passed]
  rcases readNew with ⟨newError, readNew⟩
  rcases readOld with ⟨oldError, readOld⟩
  have read : (((scope.session.idleOf cloned.info.sid store).elim (.error newError) .ok :
      Except SessionErr Nat).toOption) = scope.session.idleOf cloned.info.sid store := by
    cases scope.session.idleOf cloned.info.sid store <;> rfl
  rw [successorIsActive, exec_bind_of readNew]
  simp only [read, judged]
  generalize (scope.session.idleOf cloned.info.sid store).getD (2 ^ 32 - 1) = newTp
  by_cases used : newTp < conf.clonedInactiveJudgmentSeconds.toNat
  · rw [if_pos used, exec_bind_of readOld]
    cases scope.session.idleOf scope.session.info.sid store <;> simp [used]
  · rw [if_neg used]
    simp [used]

omit [UidGetter U] [Serde U] in
theorem exec_successorIsActive_none {conf : AutoRenew} {scope : Scope U}
    (absent : scope.session.cloned = none) (store : Redis) :
    conf.successorIsActive.exec scope store = (.ok false, scope, store) := by
  have small := conf.clonedInactiveJudgmentSeconds.toNat_lt
  have unused : ¬4294967295 < conf.clonedInactiveJudgmentSeconds.toNat := by omega
  simp [successorIsActive, clonedTtlPassed, clonedKey, absent, Except.toOption, unused]

omit [UidGetter U] [Serde U] in
theorem exec_cloneSuccessor (scope : Scope U) (store : Redis) (newSid : Str) :
    (cloneSuccessor newSid).exec scope store =
      match scope.session.cloneWithId newSid with
      | .ok cloned =>
          (.ok (), { scope with session := { scope.session with cloned := cloned.toCore } }, store)
      | .err _ => (.ok (), { scope with session := { scope.session with cloned := none } }, store)
      | .panic => (.panic, scope, store) := by
  rw [cloneSuccessor, exec_bind_of (exec_self ..)]
  refine (exec_attempt_bind_of (exec_ofOutcome ..)).trans ?_
  cases scope.session.cloneWithId newSid <;> rfl

omit [UidGetter U] [Serde U] in
/-- The clone of a named successor has its sid and no user. -/
theorem cloneWithId_eq_ok {session cloned : RedisSession U} {sid : Str}
    (done : session.cloneWithId sid = .ok cloned) :
    cloned.info.sid = sid ∧ cloned.userMeta.user = none := by
  simp only [cloneWithId, Meta.adopt] at done
  cases parsed : Meta.parseSid sid with
  | ok times =>
      simp only [parsed, Outcome.bind_ok, Outcome.pure_eq, Outcome.ok.injEq] at done
      exact ⟨by simp [← done], by simp [← done]⟩
  | err error => simp [parsed] at done
  | panic => simp [parsed] at done

omit [UidGetter U] [Serde U] in
theorem cloneWithId_cases (session : RedisSession U) (sid : Str) :
    (∃ cloned, session.cloneWithId sid = .ok cloned ∧
      ∃ times, Meta.parseSid sid = .ok times) ∨
      (∃ error, session.cloneWithId sid = .err error ∧ Meta.parseSid sid = .err error) ∨
        session.cloneWithId sid = .panic ∧ Meta.parseSid sid = .panic := by
  simp only [cloneWithId, Meta.adopt]
  cases parsed : Meta.parseSid sid with
  | ok times => exact .inl ⟨_, rfl, times, rfl⟩
  | err error => exact .inr (.inl ⟨error, rfl, rfl⟩)
  | panic => exact .inr (.inr ⟨rfl, rfl⟩)

/-- Judged against its successor, the old session is given up, or its successor is replaced, or
the successor's sid cannot be used. -/
theorem exec_replaceOrDestroy (conf : AutoRenew) (scope : Scope U) (store : Redis) (env : Env)
    (newSid : Str) :
    (conf.replaceOrDestroy connection env newSid).exec scope store =
      match scope.session.cloneWithId newSid with
      | .panic => (.panic, scope, store)
      | .err _ =>
          (.err (.text "None cloned cannot get id".toList),
            { scope with session := { scope.session with cloned := none } }, store)
      | .ok cloned =>
          let scope' := { scope with session := { scope.session with cloned := cloned.toCore } }
          if conf.judged scope.session newSid store then
            (.err (.text ("session \"".toList ++ scope.session.info.sid ++
                "\" was destroied, unable to continue use".toList)),
              { scope with session :=
                { scope.session.afterLoad store with cloned := cloned.toCore } },
              destroyed scope.session store)
          else
            (conf.doClone connection env ((∅ : Filters).insert conf.newSidField none)).exec scope'
              (store.del (genKey scope.session.info.sidName newSid)) := by
  have adopted := exec_cloneSuccessor scope store newSid
  cases clone : scope.session.cloneWithId newSid with
  | panic =>
      rw [clone] at adopted
      rw [replaceOrDestroy, exec_bind, adopted]
  | err error =>
      rw [clone] at adopted
      rw [replaceOrDestroy, exec_bind_of adopted, exec_bind_of (exec_successorIsActive_none rfl _)]
      simp only [Bool.false_eq_true, if_false]
      rw [exec_bind, exec_clonedDestroy_none _ _ rfl]
  | ok cloned =>
      rw [clone] at adopted
      rcases cloneWithId_eq_ok clone with ⟨sidEq, anonymous⟩
      have judgement : conf.judged { scope.session with cloned := some cloned.toCore }
          cloned.info.sid store = conf.judged scope.session newSid store := by rw [sidEq]; rfl
      rw [replaceOrDestroy, exec_bind_of adopted, exec_bind_of (exec_successorIsActive rfl _),
        judgement]
      dsimp only
      split
      · rw [exec_bind_of (exec_destroy ..), exec_bind_of (exec_self ..)]
        rfl
      · rw [exec_bind_of (exec_clonedDestroy _ _ cloned.toCore rfl)]
        simp [clonedUnmapped, anonymous, sidEq]

end

end AutoRenew

end Dce.Session
