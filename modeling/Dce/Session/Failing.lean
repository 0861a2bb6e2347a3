import Dce.Session.Effects

/-!
# Operations while commands fail

What an operation returns, which object it leaves and how many commands it sent,
when the commands picked by an oracle fail. The sid of an object is switched
between the read of the old hash and the load of the copy, so that every later
failure leaves the new sid behind.
-/

namespace Dce.Session

variable {U α β : Type}

/-- The oracle once `n` commands were sent. -/
def later (faults : Nat → Bool) (n : Nat) : Nat → Bool := fun position => faults (position + n)

@[simp]
theorem later_apply (faults : Nat → Bool) (n position : Nat) :
    later faults n position = faults (position + n) := rfl

@[simp]
theorem later_later (faults : Nat → Bool) (m n : Nat) :
    later (later faults m) n = later faults (n + m) := by
  funext position
  simp [Nat.add_assoc]

namespace SessionM

/-- Run an operation while the commands picked by the oracle fail. -/
def tryExec (operation : SessionM U α) (scope : Scope U) (store : Redis) (faults : Nat → Bool) :
    Outcome SessionErr α × Scope U × Redis × (Nat → Bool) :=
  let final := (operation scope).run Redis.faultyAnswer (store, faults)
  (final.1.1, final.1.2, final.2.1, final.2.2)

variable (scope : Scope U) (store : Redis) (faults : Nat → Bool)

@[simp]
theorem tryExec_pure (value : α) :
    (pure value : SessionM U α).tryExec scope store faults = (.ok value, scope, store, faults) :=
  rfl

@[simp]
theorem tryExec_bind (first : SessionM U α) (next : α → SessionM U β) :
    (first >>= next).tryExec scope store faults =
      match first.tryExec scope store faults with
      | (.ok value, scope, store, faults) => (next value).tryExec scope store faults
      | (.err error, scope, store, faults) => (.err error, scope, store, faults)
      | (.panic, scope, store, faults) => (.panic, scope, store, faults) := by
  change SessionM.tryExec (SessionM.bind first next) scope store faults = _
  simp only [tryExec, SessionM.bind, Prog.run_bind]
  generalize (first scope).run Redis.faultyAnswer (store, faults) = final
  rcases final with ⟨⟨outcome, scope⟩, store, faults⟩
  cases outcome <;> rfl

/-- Go on after an operation whose value is known. -/
theorem tryExec_bind_of {first : SessionM U α} {next : α → SessionM U β}
    {scope scope' : Scope U}
    {store store' : Redis} {faults faults' : Nat → Bool} {value : α}
    (done : first.tryExec scope store faults = (.ok value, scope', store', faults')) :
    (first >>= next).tryExec scope store faults = (next value).tryExec scope' store' faults' := by
  rw [tryExec_bind, done]

@[simp]
theorem tryExec_attempt (operation : SessionM U α) :
    operation.attempt.tryExec scope store faults =
      match operation.tryExec scope store faults with
      | (.ok value, scope, store, faults) => (.ok (.ok value), scope, store, faults)
      | (.err error, scope, store, faults) => (.ok (.error error), scope, store, faults)
      | (.panic, scope, store, faults) => (.panic, scope, store, faults) := by
  simp only [tryExec, attempt, Prog.run_bind]
  generalize (operation scope).run Redis.faultyAnswer (store, faults) = final
  rcases final with ⟨⟨outcome, scope⟩, store, faults⟩
  cases outcome <;> rfl

theorem tryExec_attempt_of {operation : SessionM U α} {scope scope' : Scope U}
    {store store' : Redis} {faults faults' : Nat → Bool} {value : α}
    (done : operation.tryExec scope store faults = (.ok value, scope', store', faults')) :
    operation.attempt.tryExec scope store faults = (.ok (.ok value), scope', store', faults') := by
  rw [tryExec_attempt, done]

theorem tryExec_attempt_of_err {operation : SessionM U α} {scope scope' : Scope U}
    {store store' : Redis} {faults faults' : Nat → Bool} {error : SessionErr}
    (failed : operation.tryExec scope store faults = (.err error, scope', store', faults')) :
    operation.attempt.tryExec scope store faults =
      (.ok (.error error), scope', store', faults') := by
  rw [tryExec_attempt, failed]

theorem tryExec_attempt_bind_of_panic {operation : SessionM U α}
    {next : Except SessionErr α → SessionM U β} {scope scope' : Scope U} {store store' : Redis}
    {faults faults' : Nat → Bool}
    (panics : operation.tryExec scope store faults = (.panic, scope', store', faults')) :
    (operation.attempt >>= next).tryExec scope store faults =
      (.panic, scope', store', faults') := by
  rw [tryExec_bind, tryExec_attempt, panics]

@[simp]
theorem tryExec_ofOutcome (outcome : Outcome SessionErr α) :
    (ofOutcome outcome : SessionM U α).tryExec scope store faults =
      (outcome, scope, store, faults) := rfl

@[simp]
theorem tryExec_throw (error : SessionErr) :
    (throw error : SessionM U α).tryExec scope store faults = (.err error, scope, store, faults) :=
  rfl

@[simp]
theorem tryExec_self :
    (self : SessionM U _).tryExec scope store faults = (.ok scope.session, scope, store, faults) :=
  rfl

@[simp]
theorem tryExec_getRoot :
    (getRoot : SessionM U _).tryExec scope store faults = (.ok scope.root, scope, store, faults) :=
  rfl

@[simp]
theorem tryExec_modify (change : RedisSession U → RedisSession U) :
    (modify change).tryExec scope store faults =
      (.ok (), { scope with session := change scope.session }, store, faults) := rfl

@[simp]
theorem tryExec_setRoot (root : RedisSession U) :
    (setRoot root).tryExec scope store faults =
      (.ok (), { scope with root := some root }, store, faults) := rfl

theorem tryExec_redis (command : Cmd) :
    (redis command : SessionM U _).tryExec scope store faults =
      if faults 0 then (.err (.redis .failed), scope, store, later faults 1)
      else (.ok (store.value command), scope, store.after command, later faults 1) := by
  cases fault : faults 0 <;> simp [tryExec, redis, Redis.faultyAnswer, fault] <;> rfl

end SessionM

namespace Commands

open SessionM

variable (key field value member : Str) (seconds : Nat) (scope : Scope U) (store : Redis)
  (faults : Nat → Bool)

@[simp]
theorem tryExec_hset :
    (hset key field value).tryExec scope store faults =
      if faults 0 then (.err (.redis .failed), scope, store, later faults 1)
      else (.ok (!(store.fields key).contains field), scope, store.hset key field value,
          later faults 1) :=
  tryExec_redis ..

@[simp]
theorem tryExec_hget :
    (hget key field).tryExec scope store faults =
      if faults 0 then (.err (.redis .failed), scope, store, later faults 1)
      else (.ok (store.fields key)[field]?, scope, store, later faults 1) :=
  tryExec_redis ..

@[simp]
theorem tryExec_hgetall :
    (hgetall key).tryExec scope store faults =
      if faults 0 then (.err (.redis .failed), scope, store, later faults 1)
      else (.ok (store.fields key), scope, store, later faults 1) :=
  tryExec_redis ..

@[simp]
theorem tryExec_expire :
    (expire key seconds).tryExec scope store faults =
      if faults 0 then (.err (.redis .failed), scope, store, later faults 1)
      else (.ok (store.hash? key).isSome, scope, store.expire key seconds, later faults 1) :=
  tryExec_redis ..

@[simp]
theorem tryExec_expireSet :
    (expireSet key seconds).tryExec scope store faults =
      if faults 0 then (.err (.redis .failed), scope, store, later faults 1)
      else (.ok (store.set? key).isSome, scope, store.expireSet key seconds, later faults 1) :=
  tryExec_redis ..

@[simp]
theorem tryExec_del :
    (del key).tryExec scope store faults =
      if faults 0 then (.err (.redis .failed), scope, store, later faults 1)
      else (.ok (store.hash? key).isSome, scope, store.del key, later faults 1) :=
  tryExec_redis ..

@[simp]
theorem tryExec_ttl :
    (ttl key).tryExec scope store faults =
      if faults 0 then (.err (.redis .failed), scope, store, later faults 1)
      else (.ok (store.ttl key), scope, store, later faults 1) :=
  tryExec_redis ..

@[simp]
theorem tryExec_sadd :
    (sadd key member).tryExec scope store faults =
      if faults 0 then (.err (.redis .failed), scope, store, later faults 1)
      else (.ok (!(store.members key).contains member), scope, store.sadd key member,
        later faults 1) :=
  tryExec_redis ..

@[simp]
theorem tryExec_srem :
    (srem key member).tryExec scope store faults =
      if faults 0 then (.err (.redis .failed), scope, store, later faults 1)
      else (.ok ((store.members key).contains member), scope, store.srem key member,
          later faults 1) :=
  tryExec_redis ..

@[simp]
theorem tryExec_hsetMultiple (data : Dict) :
    (hsetMultiple key data).tryExec scope store faults =
      if faults 0 then (.err (.redis .failed), scope, store, later faults 1)
      else (.ok true, scope, store.hmset key data, later faults 1) :=
  tryExec_redis ..

end Commands

namespace RedisSession

open SessionM

section

variable (scope : Scope U) (store : Redis) (faults : Nat → Bool)

/-- The object with its new id, while nothing is loaded under it. -/
def switched (session : RedisSession U) (env : Env) : RedisSession U :=
  { session with info := session.info.regenerate env }

/-- The copy cannot be loaded or touched. -/
def Unloaded (session : RedisSession U) (filters : Filters) (store : Redis)
    (faults : Nat → Bool) : Prop :=
  session.copyOf filters store ≠ ∅ ∧ (faults 1 = true ∨ faults 2 = true)

/-- The number of commands that copy the hash. -/
def copyLength (session : RedisSession U) (filters : Filters) (store : Redis) : Nat :=
  if (session.copyOf filters store).isEmpty then 1 else 3

theorem tryExec_sessionRenew_unread (unread : faults 0 = true) (env : Env) (filters : Filters) :
    (sessionRenew env filters).tryExec scope store faults =
      (.err (.redis .failed), scope, store, later faults 1) := by
  simp [sessionRenew, raw, unread]

theorem tryExec_sessionRenew_unloaded (read : faults 0 = false) {filters : Filters}
    (unloaded : scope.session.Unloaded filters store faults) (env : Env) :
    ∃ store' faults', (sessionRenew env filters).tryExec scope store faults =
      (.err (.redis .failed), { scope with session := scope.session.switched env }, store',
        faults') := by
  rcases unloaded with ⟨nonempty, fault⟩
  rw [copyOf, Core.key] at nonempty
  cases loading : faults 1 with
  | true =>
      refine ⟨store, later faults 2, ?_⟩
      simp [sessionRenew, raw, read, nonempty, load, loading, switched, Core.key]
  | false =>
      have touching : faults 2 = true := by simpa [loading] using fault
      refine ⟨store.hmset (scope.session.switched env).key (scope.session.copyOf filters store),
        later faults 3, ?_⟩
      simp [sessionRenew, raw, read, nonempty, load, loading, switched, Core.key, tryTouch, touch,
        touching, Meta.regenerate, copyOf]

theorem tryExec_sessionRenew_loaded (read : faults 0 = false) {filters : Filters}
    (loaded : ¬scope.session.Unloaded filters store faults) (env : Env) :
    (sessionRenew env filters).tryExec scope store faults =
      (.ok true,
        { scope with session := { scope.session.regenerated env filters store with
          userMeta := scope.session.userMeta } },
        scope.session.copied env filters store,
        later faults (scope.session.copyLength filters store)) := by
  by_cases emptied : scope.session.copyOf filters store = ∅
  · rw [copyLength, emptied]
    rw [copyOf, Core.key] at emptied
    simp [sessionRenew, raw, read, regenerated, copied, copyOf, emptied, Meta.regenerate, Core.key]
  · rw [Unloaded, not_and_or, not_or] at loaded
    rcases loaded.resolve_left (fun nonempty => nonempty emptied) with ⟨loading, touching⟩
    simp only [Bool.not_eq_true] at loading touching
    rw [copyOf, Core.key] at emptied
    simp [sessionRenew, raw, read, regenerated, copied, copyOf, copyLength, emptied, load, loading,
      tryTouch, touch, touching, Meta.regenerate, Redis.isSome_hash?_hmset, Core.key,
      Meta.ttlSeconds]

section

variable [Serde U]

/-- The user that an object acts for, when the command that reads it may fail. -/
def actingUser (session : RedisSession U) (store : Redis) (faults : Nat → Bool) : Option U :=
  if faults 0 then session.userMeta.user else session.loadedUser store

/-- An object once it has looked for its user. -/
def resolved (session : RedisSession U) (store : Redis) (faults : Nat → Bool) : RedisSession U :=
  { session with
    userMeta :=
      { session.userMeta with user := session.actingUser store faults, tryLoaded := true } }

theorem tryExec_user (unloaded : scope.session.userMeta.tryLoaded = false) :
    user.tryExec scope store faults =
      (.ok (scope.session.actingUser store faults),
        { scope with session := scope.session.resolved store faults }, store, later faults 1) := by
  rcases scope with
    ⟨⟨⟨info, ⟨keyPrefix, userField, tryLoaded, cached⟩, connMeta⟩, cloned⟩, root⟩
  cases unloaded
  cases fault : faults 0 with
  | true => simp [user, actingUser, resolved, fault, silentGet, Except.toOption]
  | false =>
      cases found : (store.fields (genKey info.sidName info.sid))[userField]? with
      | none =>
          simp [user, actingUser, resolved, fault, loadedUser, storedUser, silentGet, Core.key,
            found, Except.toOption]
      | some json =>
          cases parsed : (Serde.fromJson json : Option U) <;>
            simp [user, actingUser, resolved, fault, loadedUser, storedUser, silentGet, Core.key,
              found, parsed, Except.toOption]

/-- The number of commands that map an object whose user is not loaded. -/
def mappingLength (session : RedisSession U) (store : Redis) (faults : Nat → Bool) : Nat :=
  if (session.actingUser store faults).isSome then if faults 1 then 2 else 3 else 1

variable [UidGetter U]

theorem tryExec_attempt_mapping (unloaded : scope.session.userMeta.tryLoaded = false) :
    ∃ result store', (attempt mapping).tryExec scope store faults =
        (.ok result, { scope with session := scope.session.resolved store faults }, store',
          later faults (scope.session.mappingLength store faults)) ∧
      ∀ key, store'.fields key = store.fields key := by
  have loading := tryExec_user scope store faults unloaded
  cases acting : scope.session.actingUser store faults with
  | none => simp [mapping, userKey, uid, loading, acting, mappingLength]
  | some user =>
      cases adding : faults 1 with
      | true => simp [mapping, userKey, uid, loading, acting, mappingLength, adding]
      | false =>
          cases expiring : faults 2 <;>
            simp [mapping, userKey, uid, loading, acting, mappingLength, adding, expiring]

theorem tryExec_userRenew_unread (unread : faults 0 = true) (env : Env) (filters : Filters) :
    (userRenew env filters).tryExec scope store faults =
      (.err (.redis .failed), scope, store, later faults 1) := by
  simp [userRenew, tryExec_sessionRenew_unread scope store faults unread]

theorem tryExec_userRenew_unloaded (read : faults 0 = false) {filters : Filters}
    (unloaded : scope.session.Unloaded filters store faults) (env : Env) :
    ∃ store' faults', (userRenew env filters).tryExec scope store faults =
      (.err (.redis .failed), { scope with session := scope.session.switched env }, store',
        faults') := by
  rcases tryExec_sessionRenew_unloaded scope store faults read unloaded env with
    ⟨store', faults', failed⟩
  exact ⟨store', faults', by simp [userRenew, failed]⟩

/-- The number of commands that copy the hash and map the new sid. -/
def copyAndMappingLength (session : RedisSession U) (env : Env) (filters : Filters)
    (store : Redis) (faults : Nat → Bool) : Nat :=
  (session.regenerated env filters store).mappingLength (session.copied env filters store)
    (later faults (session.copyLength filters store)) + session.copyLength filters store

/-- The object with its new id, after the mapping tried to load its user. -/
def succeeding (session : RedisSession U) (env : Env) (filters : Filters) (store : Redis)
    (faults : Nat → Bool) : RedisSession U :=
  (session.regenerated env filters store).resolved (session.copied env filters store)
    (later faults (session.copyLength filters store))

theorem tryExec_userRenew_loaded (read : faults 0 = false) {filters : Filters}
    (loaded : ¬scope.session.Unloaded filters store faults) (env : Env) :
    ∃ store', (userRenew env filters).tryExec scope store faults =
        (.ok true, { scope with session := scope.session.succeeding env filters store faults },
          store', later faults (scope.session.copyAndMappingLength env filters store faults)) ∧
      ∀ key, store'.fields key = (scope.session.copied env filters store).fields key := by
  have copied := tryExec_sessionRenew_loaded scope store faults read loaded env
  rcases tryExec_attempt_mapping
    { scope with session := scope.session.regenerated env filters store }
    (scope.session.copied env filters store)
    (later faults (scope.session.copyLength filters store)) rfl with
      ⟨result, store', mapped, spared⟩
  refine ⟨store', ?_, spared⟩
  rw [userRenew, tryExec_bind_of copied, tryExec_bind_of (tryExec_modify ..)]
  rw [later_later] at mapped
  exact tryExec_bind_of mapped

/-- The root does not take over the new sid. -/
def Refused (connection : Bool) (scope : Scope U) (env : Env) : Prop :=
  redirects connection scope.session = true ∧
    (scope.root = none ∨
      ∃ error, Meta.parseSid (scope.session.info.regenerate env).sid = .err error)

/-- The number of commands that bind the root to its server. -/
def bindingLength (root : Option (RedisSession U)) : Nat :=
  if (unboundServer root).isSome then 1 else 0

omit [Serde U] [UidGetter U] in
theorem tryExec_updateShadow (newSid : Str) :
    ∃ outcome root store', (updateShadow newSid).tryExec scope store faults =
        (outcome, { scope with root }, store', later faults (bindingLength scope.root)) ∧
      ((∃ error, outcome = .err error) ↔
        scope.root = none ∨ ∃ error, Meta.parseSid newSid = .err error) ∧
      ((Meta.parseSid newSid).Returns → outcome.Returns) ∧
      ∀ key field, field ≠ scope.session.connMeta.serverField →
        (store'.fields key)[field]? = (store.fields key)[field]? := by
  rcases scope with
    ⟨session, _ | ⟨⟨info, userMeta, serverField, shadow, unbound⟩, cloned⟩⟩
  · exact ⟨.err (.text "Not the cloned connection session".toList), none, store, rfl, by simp,
      fun _ => by rintro ⟨⟩, fun _ _ _ => rfl⟩
  · have adopts : (∃ error, (info.adopt newSid).1 = .err error) ↔
        ∃ error, Meta.parseSid newSid = .err error := by
      rw [Meta.adopt]
      cases Meta.parseSid newSid <;> simp
    have returns : (Meta.parseSid newSid).Returns → (info.adopt newSid).1.Returns := by
      rw [Meta.adopt]
      cases Meta.parseSid newSid <;> simp [Outcome.Returns]
    rcases unbound with _ | _ | server
    · exact ⟨(info.adopt newSid).1, _, store, rfl, by simpa using adopts, returns,
        fun _ _ _ => rfl⟩
    · exact ⟨(info.adopt newSid).1, _, store, rfl, by simpa using adopts, returns,
        fun _ _ _ => rfl⟩
    · have bound : ∃ store', (updateShadow newSid).tryExec
          ⟨session, some ⟨⟨info, userMeta, ⟨serverField, shadow, some (some server)⟩⟩,
            cloned⟩⟩
            store faults =
          ((info.adopt newSid).1,
            ⟨session,
              some ⟨⟨(info.adopt newSid).2, userMeta, ⟨serverField, shadow, some none⟩⟩,
                cloned⟩⟩,
            store', later faults 1) ∧ ∀ key field, field ≠ session.connMeta.serverField →
              (store'.fields key)[field]? = (store.fields key)[field]? := by
        cases fault : faults 0 with
        | true => exact ⟨store, by simp [updateShadow, silentSet, fault], fun _ _ _ => rfl⟩
        | false =>
            refine ⟨store.hset session.key session.connMeta.serverField server,
              by simp [updateShadow, silentSet, fault], fun key field other => ?_⟩
            rw [Redis.fields_hset]
            split
            · rename_i same
              rw [Std.ExtTreeMap.getElem?_insert, if_neg (by simpa using Ne.symm other), same]
            · rfl
      rcases bound with ⟨store', updated, spared⟩
      exact ⟨(info.adopt newSid).1, _, store', updated, by simpa using adopts, returns, spared⟩

/-- The number of commands of a renewal that succeeds. -/
def renewalLength (connection : Bool) (scope : Scope U) (env : Env) (filters : Filters)
    (store : Redis) (faults : Nat → Bool) : Nat :=
  scope.session.copyAndMappingLength env filters store faults +
    if redirects connection scope.session then bindingLength scope.root else 0

theorem tryExec_renew_unread (unread : faults 0 = true) (connection : Bool) (env : Env)
    (filters : Filters) :
    (renew connection env filters).tryExec scope store faults =
      (.err (.redis .failed), scope, store, later faults 1) := by
  simp [renew, tryExec_userRenew_unread scope store faults unread, Except.isOk, Except.toBool,
    ofResult]

/-- What a renewal that succeeds leaves: the object once its user was looked for, and a store that
differs from the copied one in no field but that of the server. -/
structure Leaves (scope : Scope U) (env : Env) (filters : Filters) (store : Redis)
    (faults : Nat → Bool) (session : RedisSession U) (store' : Redis) : Prop where
  session : session = scope.session.succeeding env filters store faults
  fields : ∀ key field, field ≠ scope.session.connMeta.serverField →
    (store'.fields key)[field]? = ((scope.session.copied env filters store).fields key)[field]?

/-- Once the old hash was read, the object has its new sid. -/
theorem tryExec_renew_read (read : faults 0 = false) (connection : Bool) (env : Env)
    (filters : Filters) :
    ∃ outcome session root store' faults',
      (renew connection env filters).tryExec scope store faults =
        (outcome, ⟨session, root⟩, store', faults') ∧
      outcome.Returns ∧ session.info.sid = (scope.session.info.regenerate env).sid ∧
      session.cloned = scope.session.cloned ∧
      ((∃ error, outcome = .err error) ↔
        scope.session.Unloaded filters store faults ∨ Refused connection scope env) ∧
      ∀ value, outcome = .ok value →
        faults' = later faults (renewalLength connection scope env filters store faults) ∧
          Leaves scope env filters store faults session store' := by
  by_cases unloaded : scope.session.Unloaded filters store faults
  · rcases tryExec_userRenew_unloaded scope store faults read unloaded env with
      ⟨store', faults', failed⟩
    refine ⟨.err (.redis .failed), scope.session.switched env, scope.root, store', faults', ?_,
      by rintro ⟨⟩, rfl, rfl, iff_of_true ⟨_, rfl⟩ (.inl unloaded), by rintro _ ⟨⟩⟩
    simp [renew, failed, Except.isOk, Except.toBool, ofResult]
  · rcases tryExec_userRenew_loaded scope store faults read unloaded env with
      ⟨store', renewed, copied⟩
    generalize known : scope.session.succeeding env filters store faults = session at renewed
    have sid : session.info.sid = (scope.session.info.regenerate env).sid := by rw [← known]; rfl
    have cloned : session.cloned = scope.session.cloned := by rw [← known]; rfl
    have connMeta : session.connMeta = scope.session.connMeta := by rw [← known]; rfl
    have hook : (connection = true ∧ session.connMeta.serverUnbound = none) ↔
        redirects connection scope.session = true := by
      simp [redirects, connMeta]
    cases redirecting : redirects connection scope.session with
    | false =>
        refine ⟨.ok true, session, scope.root, store', _, ?_, by rintro ⟨⟩, sid, cloned, ?_,
          fun _ _ => ⟨rfl, known.symm, fun key _ _ => by rw [copied]⟩⟩
        · simp [renew, renewed, Except.isOk, Except.toBool, ofResult, hook, redirecting,
            renewalLength]
        · simp [unloaded, Refused, redirecting]
    | true =>
        rcases tryExec_updateShadow { scope with session } store'
          (later faults (scope.session.copyAndMappingLength env filters store faults))
          (scope.session.info.regenerate env).sid with
            ⟨outcome, root, store'', updated, failing, returns, spared⟩
        refine ⟨outcome.bind fun _ => .ok true, session, root, store'',
          later faults (renewalLength connection scope env filters store faults), ?_, ?_, sid,
          cloned, ?_, fun _ _ => ⟨rfl, known.symm, fun key field other => ?_⟩⟩
        · simp only [renew, tryExec_bind, tryExec_attempt, renewed, tryExec_self]
          simp only [Except.isOk, Except.toBool, Bool.and_true, Bool.and_eq_true,
            Option.isNone_iff_eq_none, hook, redirecting, if_true, sid, tryExec_bind, updated]
          cases outcome <;> simp [ofResult, renewalLength, redirecting, Outcome.bind, Nat.add_comm]
        · have done := returns (Meta.parseSid_genId_returns env scope.session.info.ttlMinutes)
          cases outcome <;> simp_all [Outcome.bind, Outcome.Returns]
        · have refused : (∃ error, outcome = .err error) ↔ Refused connection scope env := by
            rw [failing, Refused, redirecting]
            simp
          rw [or_iff_right unloaded, ← refused]
          cases outcome <;> simp [Outcome.bind]
        · rw [spared key field (by rwa [connMeta]), copied]

/-- The predecessor cannot be removed, or not from the mapping set of its user. -/
def Undestroyed (cloned : Core U) (faults : Nat → Bool) : Prop :=
  faults 0 = true ∨ cloned.userMeta.user.isSome = true ∧ faults 1 = true

omit [Serde U] in
theorem tryExec_clonedDestroy {cloned : Core U} (found : scope.session.cloned = some cloned) :
    ∃ outcome store' faults',
      clonedDestroy.tryExec scope store faults = (outcome, scope, store', faults') ∧
      ((∃ error, outcome = .err error) ↔ Undestroyed cloned faults) ∧
      ∀ key, key ≠ genKey scope.session.info.sidName cloned.info.sid →
        store'.fields key = store.fields key := by
  rcases scope with ⟨⟨core, cloned'⟩, root⟩
  cases found
  cases acting : cloned.userMeta.user with
  | none =>
      cases first : faults 0 <;>
        simp +contextual [clonedDestroy, clonedUnmapping, clonedKey, Undestroyed, acting, first]
  | some user =>
      cases first : faults 0 with
      | true => simp [clonedDestroy, clonedUnmapping, clonedKey, Undestroyed, acting, first]
      | false =>
          cases second : faults 1 <;>
            simp +contextual [clonedDestroy, clonedUnmapping, clonedKey, Undestroyed, acting, first,
              second]

theorem tryExec_logIn_unread (unread : faults 0 = true) (connection : Bool) (env : Env)
    (user : Option U) (ttlMinutes : Option UInt16) :
    (logIn connection env user ttlMinutes).tryExec scope store faults =
      (.err (.redis .failed),
        { scope with session := prepareLogin user ttlMinutes scope.session }, store,
        later faults 1) := by
  have failed := tryExec_renew_unread
    { scope with session := prepareLogin user ttlMinutes scope.session } store faults unread
    connection env (loginFilters (prepareLogin user ttlMinutes scope.session))
  simp [logIn, failed]

/-- A login fails after the switch of the sid. -/
def LoginFailsLate (connection : Bool) (scope : Scope U) (env : Env) (user : Option U)
    (ttlMinutes : Option UInt16) (store : Redis) (faults : Nat → Bool) : Prop :=
  let prepared := { scope with session := prepareLogin user ttlMinutes scope.session }
  let filters := loginFilters prepared.session
  prepared.session.Unloaded filters store faults ∨ Refused connection prepared env ∨
    Undestroyed scope.session.toCore
      (later faults (renewalLength connection prepared env filters store faults))

theorem tryExec_logIn_read (read : faults 0 = false) (connection : Bool) (env : Env)
    (user : Option U) (ttlMinutes : Option UInt16) :
    ∃ outcome scope' store' faults',
      (logIn connection env user ttlMinutes).tryExec scope store faults =
        (outcome, scope', store', faults') ∧
      scope'.session.info.sid = ((scope.session.info.config ttlMinutes).regenerate env).sid ∧
      ((∃ error, outcome = .err error) ↔
        LoginFailsLate connection scope env user ttlMinutes store faults) := by
  let prepared := { scope with session := prepareLogin user ttlMinutes scope.session }
  rcases tryExec_renew_read prepared store faults read connection env
    (loginFilters prepared.session) with
    ⟨outcome, session, root, store', faults', renewed, returns, sid, cloned, failing, sent⟩
  have start : (logIn connection env user ttlMinutes).tryExec scope store faults = _ :=
    (tryExec_bind_of (tryExec_modify ..)).trans (tryExec_bind_of (tryExec_self ..))
  cases outcome with
  | ok value =>
      have within : ¬(∃ error, (.ok value : Outcome SessionErr Bool) = .err error) := by
        rintro ⟨_, ⟨⟩⟩
      rw [failing, not_or] at within
      rcases tryExec_clonedDestroy ⟨session, root⟩ store' faults' cloned with
        ⟨outcome, store'', faults'', destroyed, undestroyed, _⟩
      rw [(sent value rfl).1] at undestroyed
      refine ⟨outcome, ⟨session, root⟩, store'', faults'', ?_, sid, ?_⟩
      · exact (start.trans (tryExec_bind_of (tryExec_attempt_of renewed))).trans destroyed
      · rw [undestroyed, LoginFailsLate, or_iff_right within.1, or_iff_right within.2]
  | err error =>
      refine ⟨.err error, ⟨session, root⟩, store', faults', ?_, sid, ?_⟩
      · exact start.trans (tryExec_bind_of (tryExec_attempt_of_err renewed))
      · rw [LoginFailsLate, ← or_assoc]
        exact iff_of_true ⟨error, rfl⟩ (.inl (failing.mp ⟨error, rfl⟩))
  | panic => exact absurd rfl returns

end

end

end RedisSession

namespace AutoRenew

open SessionM RedisSession

variable [UidGetter U] [Serde U] (conf : AutoRenew) (scope : Scope U) (store : Redis)
  (faults : Nat → Bool)

theorem tryExec_doClone_unread (unread : faults 0 = true) (connection : Bool) (env : Env)
    (filters : Filters) :
    (conf.doClone connection env filters).tryExec scope store faults =
      (.err (.redis .failed), { scope with session := cloning scope.session }, store,
        later faults 1) := by
  have failed := tryExec_renew_unread { scope with session := cloning scope.session } store faults
    unread connection env filters
  rw [cloning] at failed
  simp [doClone, failed, cloning]

omit [UidGetter U] [Serde U] in
theorem tryExec_marking {cloned : Core U} (found : scope.session.cloned = some cloned) :
    ∃ outcome store' faults',
      (do
        let _ ← attempt clonedTouch
        let session ← self
        clonedSilentSet conf.newSidField session.info.sid).tryExec scope store faults =
        (outcome, scope, store', faults') ∧
      ((∃ error, outcome = .err error) ↔ faults 1 = true) ∧
      ∀ key, key ≠ genKey scope.session.info.sidName cloned.info.sid →
        store'.fields key = store.fields key := by
  rcases scope with ⟨⟨core, cloned'⟩, root⟩
  cases found
  cases touching : faults 0 <;> cases marking : faults 1 <;>
    simp +contextual [clonedTouch, clonedSilentSet, clonedKey, touching, marking]

/-- The cloning of a renewal fails after the switch of the sid; the touch of the old session may
fail, but not the mark in it. -/
def CloneFailsLate (connection : Bool) (scope : Scope U) (env : Env) (filters : Filters)
    (store : Redis) (faults : Nat → Bool) : Prop :=
  scope.session.Unloaded filters store faults ∨ Refused connection scope env ∨
    faults (renewalLength connection scope env filters store faults + 1) = true

theorem tryExec_doClone_read (read : faults 0 = false) (connection : Bool) (env : Env)
    (filters : Filters) :
    ∃ outcome scope' store' faults',
      (conf.doClone connection env filters).tryExec scope store faults =
        (outcome, scope', store', faults') ∧
      scope'.session.info.sid = (scope.session.info.regenerate env).sid ∧
      ((∃ error, outcome = .err error) ↔
        CloneFailsLate connection scope env filters store faults) := by
  let within := { scope with session := cloning scope.session }
  rcases tryExec_renew_read within store faults read connection env filters with
    ⟨outcome, session, root, store', faults', renewed, returns, sid, cloned, failing, sent⟩
  have start : (conf.doClone connection env filters).tryExec scope store faults = _ :=
    tryExec_bind_of (tryExec_modify ..)
  cases outcome with
  | ok value =>
      have done : ¬(∃ error, (.ok value : Outcome SessionErr Bool) = .err error) := by
        rintro ⟨_, ⟨⟩⟩
      rw [failing, not_or] at done
      rcases tryExec_marking conf ⟨session, root⟩ store' faults' cloned with
        ⟨outcome, store'', faults'', marked, unmarked, _⟩
      rw [(sent value rfl).1] at unmarked
      refine ⟨outcome, ⟨session, root⟩, store'', faults'', ?_, sid, ?_⟩
      · exact (start.trans (tryExec_bind_of (tryExec_attempt_of renewed))).trans marked
      · have unloaded : ¬scope.session.Unloaded filters store faults := done.1
        have refused : ¬Refused connection scope env := done.2
        rw [unmarked, CloneFailsLate, or_iff_right unloaded, or_iff_right refused, later_apply,
          Nat.add_comm]
        rfl
  | err error =>
      refine ⟨.err error, ⟨session, root⟩, store', faults', ?_, sid, ?_⟩
      · exact start.trans (tryExec_bind_of (tryExec_attempt_of_err renewed))
      · rw [CloneFailsLate, ← or_assoc]
        exact iff_of_true ⟨error, rfl⟩ (.inl (failing.mp ⟨error, rfl⟩))
  | panic => exact absurd rfl returns

/-- How long the successor went unused, as far as that can be read. -/
def readNewTp (session : RedisSession U) (newSid : Str) (store : Redis) (faults : Nat → Bool) :
    Nat :=
  if faults 0 then 2 ^ 32 - 1 else (session.idleOf newSid store).getD (2 ^ 32 - 1)

/-- The successor was used too lately to be replaced at once. -/
def probes (session : RedisSession U) (newSid : Str) (store : Redis) (faults : Nat → Bool) :
    Bool :=
  decide (readNewTp session newSid store faults < conf.clonedInactiveJudgmentSeconds.toNat)

/-- Whether the successor is taken for active, when the commands that tell may fail. -/
def judges (session : RedisSession U) (newSid : Str) (store : Redis) (faults : Nat → Bool) :
    Bool :=
  conf.probes session newSid store faults && (faults 1 ||
    (session.idleOf session.info.sid store).all fun oldTp =>
      decide (readNewTp session newSid store faults < oldTp))

def judgingLength (session : RedisSession U) (newSid : Str) (store : Redis)
    (faults : Nat → Bool) : Nat :=
  if conf.probes session newSid store faults then 2 else 1

omit [UidGetter U] [Serde U] in
theorem tryExec_ttlPassedOf (key : Str) :
    ∃ error, (ttlPassedOf key).tryExec scope store faults =
      ((if faults 0 then none else idleSeconds scope.session.info (store.ttl key)).elim
        (.err error) .ok, scope, store, later faults 1) := by
  refine ⟨.text "ttl was not initialized yet.".toList, ?_⟩
  cases fault : faults 0 with
  | true => simp [ttlPassedOf, fault, Except.toOption]
  | false =>
      cases passed : idleSeconds scope.session.info (store.ttl key) <;>
        simp [ttlPassedOf, fault, passed, Except.toOption]

omit [UidGetter U] [Serde U] in
theorem tryExec_successorIsActive {cloned : Core U} (found : scope.session.cloned = some cloned) :
    conf.successorIsActive.tryExec scope store faults =
      (.ok (conf.judges scope.session cloned.info.sid store faults), scope, store,
        later faults (conf.judgingLength scope.session cloned.info.sid store faults)) := by
  have readNew : ∃ error, clonedTtlPassed.attempt.tryExec scope store faults =
      (.ok ((if faults 0 then none
          else scope.session.idleOf cloned.info.sid store).elim (.error error) .ok),
        scope, store, later faults 1) := by
    rcases tryExec_ttlPassedOf scope store faults
      (genKey scope.session.info.sidName cloned.info.sid) with ⟨error, passed⟩
    refine ⟨error, ?_⟩
    simp only [clonedTtlPassed, clonedKey, found, tryExec_attempt, tryExec_bind, tryExec_self,
      tryExec_pure, passed]
    cases read : (if faults 0 then none
      else idleSeconds scope.session.info
        (store.ttl (genKey scope.session.info.sidName cloned.info.sid))) <;>
      simp [RedisSession.idleOf, read]
  have readOld : ∃ error, ttlPassed.attempt.tryExec scope store (later faults 1) =
      (.ok ((if faults 1 then none
          else scope.session.idleOf scope.session.info.sid store).elim (.error error) .ok),
        scope, store, later faults 2) := by
    rcases tryExec_ttlPassedOf scope store (later faults 1)
      (genKey scope.session.info.sidName scope.session.info.sid) with ⟨error, passed⟩
    refine ⟨error, ?_⟩
    simp only [ttlPassed, tryExec_attempt, tryExec_bind, tryExec_self, Core.key, passed,
      later_apply, Nat.zero_add, later_later]
    cases read : (if faults 1 then none
      else idleSeconds scope.session.info
        (store.ttl (genKey scope.session.info.sidName scope.session.info.sid))) <;>
      simp [RedisSession.idleOf, read]
  rcases readNew with ⟨newError, readNew⟩
  rcases readOld with ⟨oldError, readOld⟩
  have read : (((if faults 0 then none else scope.session.idleOf cloned.info.sid store).elim
      (.error newError) .ok : Except SessionErr Nat).toOption).getD (2 ^ 32 - 1) =
        readNewTp scope.session cloned.info.sid store faults := by
    rw [readNewTp]
    cases faults 0 <;> cases scope.session.idleOf cloned.info.sid store <;> rfl
  rw [successorIsActive, tryExec_bind_of readNew]
  simp only [read]
  cases probing : conf.probes scope.session cloned.info.sid store faults with
  | false =>
      simp only [probes, decide_eq_false_iff_not] at probing
      rw [if_neg probing]
      simp [judges, judgingLength, probes, probing]
  | true =>
      simp only [probes, decide_eq_true_eq] at probing
      rw [if_pos probing, tryExec_bind_of readOld]
      cases reading : faults 1 <;>
        cases idle : scope.session.idleOf scope.session.info.sid store <;>
        simp [judges, judgingLength, probes, probing, reading, idle]

omit [UidGetter U] [Serde U] in
theorem tryExec_successorIsActive_none (absent : scope.session.cloned = none) :
    conf.successorIsActive.tryExec scope store faults = (.ok false, scope, store, faults) := by
  have small := conf.clonedInactiveJudgmentSeconds.toNat_lt
  have unused : ¬4294967295 < conf.clonedInactiveJudgmentSeconds.toNat := by omega
  simp [successorIsActive, clonedTtlPassed, clonedKey, absent, Except.toOption, unused]

/-- The object after its user was looked for, if it was not loaded before. -/
def sought (session : RedisSession U) (store : Redis) (faults : Nat → Bool) : RedisSession U :=
  if session.userMeta.tryLoaded then session else session.resolved store faults

theorem tryExec_destroy :
    ∃ outcome store' faults', destroy.tryExec scope store faults =
        (outcome, { scope with session := sought scope.session store faults }, store', faults') ∧
      outcome.Returns := by
  have unmapped : ∃ outcome store' faults', unmapping.tryExec scope store faults =
      (outcome, { scope with session := sought scope.session store faults }, store', faults') ∧
      outcome.Returns := by
    cases loaded : scope.session.userMeta.tryLoaded with
    | true =>
        have known : (user : SessionM U _).tryExec scope store faults =
            (.ok scope.session.userMeta.user, scope, store, faults) := by simp [user, loaded]
        cases acting : scope.session.userMeta.user with
        | none =>
            simp [unmapping, userKey, uid, known, acting, sought, loaded, Outcome.Returns]
        | some user =>
            cases removing : faults 0 <;>
              simp [unmapping, userKey, uid, known, acting, sought, loaded, removing,
                Outcome.Returns]
    | false =>
        have looked := tryExec_user scope store faults loaded
        cases acting : scope.session.actingUser store faults with
        | none =>
            simp [unmapping, userKey, uid, looked, acting, sought, loaded, Outcome.Returns]
        | some user =>
            cases removing : faults 1 <;>
              simp [unmapping, userKey, uid, looked, acting, sought, loaded, removing,
                Outcome.Returns]
  rcases unmapped with ⟨outcome, store', faults', unmapped, returns⟩
  cases outcome with
  | ok value =>
      cases removing : faults' 0 <;>
        simp [destroy, unmapped, removing, Outcome.Returns]
  | err error => simp [destroy, unmapped, Outcome.Returns]
  | panic => exact absurd rfl returns

end AutoRenew

end Dce.Session
