import Dce.Session.Outcomes
import Dce.Session.Plain

/-!
# The server of a connection

The root of a connection is bound to its server at the first renewal of one of
its requests, and redirected to the new sid at each of them. From then on the
server is in the hash of the root only as far as every renewed hash had it.
-/

namespace Dce.Session

open SessionM RedisSession AutoRenew

variable {U : Type}

/-- The root after it took over a sid, which binds one that was not bound to its server yet. -/
def RedisSession.takeOver (root : RedisSession U) (newSid : Str) : RedisSession U :=
  { root with
    info := (root.info.adopt newSid).2
    connMeta := { root.connMeta with
      serverUnbound := root.connMeta.serverUnbound.map fun _ => none } }

theorem exec_updateShadow_rooted (scope : Scope U) {root : RedisSession U}
    (rooted : scope.root = some root) (store : Redis) (newSid : Str) :
    (updateShadow newSid).exec scope store =
      ((root.info.adopt newSid).1, { scope with root := some (root.takeOver newSid) },
        scope.session.bound scope.root store) := by
  rcases scope with ⟨session, _⟩
  cases rooted
  rcases root with ⟨⟨info, userMeta, serverField, shadow, _ | _ | server⟩, cloned⟩ <;> rfl

section

variable [UidGetter U] [Serde U] (scope : Scope U) {root : RedisSession U}
  (rooted : scope.root = some root) (requested : scope.session.connMeta.serverUnbound = none)
  (store : Redis) (env : Env)

include rooted requested

/-- A renewal in a connection redirects the root. -/
theorem exec_renew_rooted (filters : Filters)
    (adopts : (root.info.adopt (newSid scope.session env)).1 = .ok ()) :
    (renew true env filters).exec scope store =
      (.ok true, ⟨scope.session.successor env filters store,
        some (root.takeOver (newSid scope.session env))⟩,
        scope.session.renewedStore true scope.root env filters store) := by
  have renewed := exec_attempt_of (exec_userRenew scope store env filters)
  have updated := exec_updateShadow_rooted
    ⟨scope.session.successor env filters store, scope.root⟩ rooted
    (scope.session.succeeded env filters store) (newSid scope.session env)
  have hook : (true && (Except.ok true : Except SessionErr Bool).isOk &&
      scope.session.connMeta.serverUnbound.isNone) = true := by
    simp [requested, Except.isOk, Except.toBool]
  rw [renew, exec_bind_of renewed, exec_bind_of (exec_self ..)]
  change SessionM.exec (if (true && (Except.ok true : Except SessionErr Bool).isOk &&
    scope.session.connMeta.serverUnbound.isNone) = true then _ else _) _ _ = _
  rw [hook]
  refine (exec_bind_pure_of true updated).trans ?_
  rw [adopts]
  rfl

theorem exec_logIn_rooted (user : Option U) (ttlMinutes : Option UInt16) :
    let prepared := prepareLogin user ttlMinutes scope.session
    (root.info.adopt (newSid prepared env)).1 = .ok () →
    (logIn true env user ttlMinutes).exec scope store =
      (.ok true, ⟨prepared.successor env (loginFilters prepared) store,
        some (root.takeOver (newSid prepared env))⟩,
        scope.session.loggedIn
          (prepared.renewedStore true scope.root env (loginFilters prepared) store)) := by
  intro prepared adopts
  have renewed := exec_renew_rooted { scope with session := prepared } rooted requested
    store env (loginFilters prepared) adopts
  have opening : (logIn true env user ttlMinutes).exec scope store = _ :=
    (exec_bind_of (exec_modify ..)).trans (exec_bind_of (exec_self ..))
  refine (opening.trans (exec_attempt_bind_of renewed)).trans ?_
  refine (exec_clonedDestroy _ _ scope.session.toCore rfl).trans ?_
  simp [loggedIn, Core.key, prepared, successor, regenerated, Meta.regenerate, prepareLogin]

theorem exec_doClone_rooted (conf : AutoRenew) (filters : Filters)
    (adopts : (root.info.adopt (newSid scope.session env)).1 = .ok ()) :
    (conf.doClone true env filters).exec scope store =
      (.ok true, ⟨(cloning scope.session).successor env filters store,
        some (root.takeOver (newSid scope.session env))⟩,
        conf.marked scope.session (newSid scope.session env)
          ((cloning scope.session).renewedStore true scope.root env filters store)) := by
  have renewed := exec_renew_rooted { scope with session := cloning scope.session }
    rooted requested store env filters adopts
  have opening : (conf.doClone true env filters).exec scope store = _ :=
    exec_bind_of (exec_modify ..)
  refine (opening.trans (exec_attempt_bind_of renewed)).trans ?_
  simp [clonedTouch, clonedSilentSet, clonedKey, marked, successor, cloning, regenerated, newSid,
    Meta.regenerate, Core.key, Meta.ttlSeconds]

end

section

variable [UidGetter U] [Serde U] {scope : Scope U} {store before : Redis} {env : Env}
  {operation : Operation U} {prepared : RedisSession U} {filters : Filters} {server : Str}

/-- The server that a hash names. -/
def Redis.serverAt (store : Redis) (sid : Str) : Option Str :=
  (store.fields (sessionKey sid))[defaultServerField]?

omit [UidGetter U] in
/-- A copy keeps the server, unless its hash names itself as its successor. -/
theorem Regenerates.copyOf_server
    (how : Regenerates scope store operation prepared env filters before)
    (requested : ∀ env filters, operation ≠ .renew env filters)
    (marking : ∀ env conf, operation = .tryRenew env conf →
      conf.newSidField = defaultNewSidField)
    (names : scope.session.names = defaultNames)
    (bound : store.serverAt scope.session.info.sid = some server)
    (named : store.marker? (sessionKey scope.session.info.sid) ≠ some scope.session.info.sid) :
    (prepared.copyOf filters before)[defaultServerField]? = some server := by
  have userField : scope.session.userMeta.userField = defaultUserField :=
    congrArg (·.2.2.1) names
  have key : scope.session.key = sessionKey scope.session.info.sid := Core.key_of_names names
  have other : defaultServerField ≠ defaultUserField := by decide
  cases how with
  | login =>
      rw [copyOf, applyFilters_getElem?, loginFilters_getElem? _ (userField.symm ▸ other)]
      change (store.fields scope.session.key)[_]? = _
      rwa [key]
  | autoLogin =>
      rw [copyOf, applyFilters_getElem?, loginFilters_getElem? _ (userField.symm ▸ other)]
      change (store.fields scope.session.key)[_]? = _
      rwa [key]
  | renew => exact absurd rfl (requested _ _)
  | clone due unmarked =>
      rw [copyOf, applyFilters_getElem?]
      change (none : Option (Option Str)).getD (store.fields scope.session.key)[_]? = _
      rwa [key]
  | @replace _ conf successor due marker late =>
      have markerField := marking _ _ rfl
      have sidName : scope.session.info.sidName = defaultIdName := congrArg Prod.fst names
      have apart : scope.session.key ≠ genKey scope.session.info.sidName successor := by
        rw [key, sidName]
        intro same
        rw [markerField, key] at marker
        exact named (marker.trans (congrArg some (sessionKey_inj.mp same).symm))
      have kept : ((∅ : Filters).insert conf.newSidField none)[defaultServerField]? = none := by
        rw [markerField]
        decide
      rw [copyOf, applyFilters_getElem?, kept]
      change ((store.del _).fields scope.session.key)[_]? = _
      rw [Redis.fields_del, if_neg apart, key]
      exact bound

/-- The new hash names the server, if the root was not bound before or the copy names it. -/
theorem serverAt_renewedStore {root : RedisSession U} (names : prepared.names = defaultNames)
    (lives : prepared.info.ttlMinutes ≠ 0)
    (unstored : before.fields (sessionKey (newSid prepared env)) = ∅)
    (server_or : root.connMeta.serverUnbound = some (some server) ∨
      root.connMeta.serverUnbound = some none ∧
        (prepared.copyOf filters before)[defaultServerField]? = some server) :
    (prepared.renewedStore true (some root) env filters before).serverAt (newSid prepared env) =
      some server := by
  rw [Redis.serverAt, renewedStore_eq names]
  rcases server_or with unbound | ⟨bound, copied⟩
  · simp [unboundServer, unbound]
  · simp [unboundServer, bound, names, fields_copied_new names filters unstored, newborn, lives,
      copied]

end

/-- The session is given up for its successor. -/
def AutoRenew.GivesUp (conf : AutoRenew) (session : RedisSession U) (env : Env) (store : Redis) :
    Prop :=
  0 ≤ conf.due session env ∧
    ∃ newSid, (store.fields session.key)[conf.newSidField]? = some newSid ∧
      conf.originalJudgmentSeconds.toNat < conf.due session env ∧
      (∃ times, Meta.parseSid newSid = .ok times) ∧ conf.judged session newSid store = true

/-- The generated sid is new and can be taken over, and its session does not expire at once. -/
structure Env.Suits (env : Env) (ttlMinutes : UInt16) (session : RedisSession U) (store : Redis) :
    Prop where
  clock : 2 ^ 28 ≤ env.stamp.toNat
  lives : ttlMinutes ≠ 0
  other : (Meta.genId env ttlMinutes).1 ≠ session.info.sid
  unstored : ¬store.Stored (Meta.genId env ttlMinutes).1

namespace Operation

/-- An operation that the session of a request is used for. -/
def Requested (session : RedisSession U) (store : Redis) : Operation U → Prop
  | login env _ ttlMinutes => env.Suits ttlMinutes session store
  | autoLogin env => env.Suits session.info.ttlMinutes session store
  | tryRenew env conf =>
      env.Suits session.info.ttlMinutes session store ∧ conf.newSidField = defaultNewSidField
  | _ => False

/-- Whether the result tells that the session got a new id. -/
def renewed : Outcome SessionErr Bool → Operation U → Bool
  | .ok _, login .. | .ok _, autoLogin .. => true
  | .ok renewed, tryRenew .. => renewed
  | _, _ => false

end Operation

section

variable [UidGetter U] [Serde U] {scope : Scope U} {store : Redis} {env : Env}

/-- A renewal in a connection, told by what it loads and where it leaves the root. -/
theorem exec_program_rooted (scope : Scope U) {root : RedisSession U} {operation : Operation U}
    (rooted : scope.root = some root) (requested : scope.session.connMeta.serverUnbound = none)
    (names : scope.session.names = defaultNames)
    (request : operation.Requested scope.session store)
    (renews : operation.Renews scope.session store) :
    ∃ prepared env filters before store',
      Regenerates scope store operation prepared env filters before ∧
      env.Suits prepared.info.ttlMinutes scope.session store ∧
      (operation.program true).exec scope store =
        (.ok true, ⟨prepared.successor env filters before,
          some (root.takeOver (newSid prepared env))⟩, store') ∧
      store'.serverAt (newSid prepared env) =
        (prepared.renewedStore true (some root) env filters before).serverAt
          (newSid prepared env) := by
  rcases scope with ⟨session, _⟩
  cases rooted
  have key : session.key = sessionKey session.info.sid := Core.key_of_names names
  have adopts {env : Env} {ttlMinutes : UInt16} {session : RedisSession U}
      (suits : env.Suits ttlMinutes session store) :
      (root.info.adopt (Meta.genId env ttlMinutes).1).1 = .ok () := by
    simp [Meta.adopt, Meta.parseSid_genId suits.clock ttlMinutes]
  have apart (prepared : RedisSession U) {env : Env}
      (suits : env.Suits prepared.info.ttlMinutes session store) :
      sessionKey (newSid prepared env) ≠ session.key := by
    rw [key]
    exact fun same => suits.other (sessionKey_inj.mp same)
  have loggedIn (env : Env) (user : Option U) (ttlMinutes : Option UInt16) (store' : Redis)
      (suits : env.Suits (prepareLogin user ttlMinutes session).info.ttlMinutes session store) :
      (session.loggedIn store').serverAt (newSid (prepareLogin user ttlMinutes session) env) =
        store'.serverAt (newSid (prepareLogin user ttlMinutes session) env) := by
    rw [Redis.serverAt, RedisSession.loggedIn, Redis.fields_del, if_neg (apart _ suits),
      fields_clonedUnmapped, Redis.serverAt]
  cases operation with
  | login env user ttlMinutes =>
      have done := exec_logIn_rooted ⟨session, some root⟩ rfl requested store env (some user)
        (some ttlMinutes) (adopts request)
      exact ⟨_, _, _, _, _, .login, request, done, loggedIn env (some user) (some ttlMinutes) _
        request⟩
  | autoLogin env =>
      have done := exec_logIn_rooted ⟨session, some root⟩ rfl requested store env none none
        (adopts request)
      exact ⟨_, _, _, _, _, .autoLogin, request, done, loggedIn env none none _ request⟩
  | tryRenew env conf =>
      rcases request with ⟨suits, markerField⟩
      rcases AutoRenew.tryRenew_of_renews renews with ⟨cloned, filters, before, how, cloning⟩
      have done :=
        exec_doClone_rooted ⟨{ session with cloned }, some root⟩ rfl requested before env
        conf filters (adopts suits)
      refine ⟨_, _, _, _, _, how, suits, (cloning true).trans done, ?_⟩
      have elsewhere := apart (AutoRenew.cloning session) suits
      change (((Redis.fields _ _)[_]?) : Option Str) = _
      rw [marked, Redis.fields_hset, if_neg elsewhere, Redis.fields_expire,
        if_neg fun same => elsewhere same.1]
      rfl
  | _ => exact request.elim

/-- Without a renewal the root stays, and only a session that is given up loses its hash. -/
theorem exec_tryRenew_kept (scope : Scope U) {conf : AutoRenew}
    (lives : scope.session.info.ttlMinutes ≠ 0)
    (keeps : ¬conf.Renews scope.session env store) :
    ∃ outcome session store', (conf.tryRenew true env).exec scope store =
        (outcome, ⟨session, scope.root⟩, store') ∧
      outcome ≠ .ok true ∧ session.names = scope.session.names ∧
      session.connMeta = scope.session.connMeta ∧
      ∀ key, store'.fields key = store.fields key ∨
        key = scope.session.key ∧ conf.GivesUp scope.session env store := by
  have touched (key : Str) : (scope.session.storeAfterTouch store).fields key = store.fields key :=
    fields_storeAfterTouch lives key
  have same : (scope.session.afterTouch store).names = scope.session.names ∧
      (scope.session.afterTouch store).connMeta = scope.session.connMeta := by
    rw [afterTouch]
    split <;> exact ⟨rfl, rfl⟩
  rcases Int.lt_or_le (conf.due scope.session env) 0 with early | due
  · exact ⟨_, _, _, exec_tryRenew_early true early, by rintro ⟨⟩, same.1, same.2,
      fun key => .inl (touched key)⟩
  · cases marker : (store.fields scope.session.key)[conf.newSidField]? with
    | none =>
        refine absurd ⟨due, fun newSid named => ?_⟩ keeps
        rw [marker] at named
        cases named
    | some newSid =>
        rcases Int.lt_or_le conf.originalJudgmentSeconds.toNat (conf.due scope.session env) with
          late | recent
        · rw [exec_tryRenew_late true due marker late, exec_replaceOrDestroy]
          rcases cloneWithId_cases scope.session newSid with
            ⟨cloned, made, read⟩ | ⟨error, made, _⟩ | ⟨made, _⟩
          · cases judged : conf.judged scope.session newSid store with
            | true =>
                simp only [made, if_true]
                refine ⟨_, _, _, rfl, by rintro ⟨⟩, rfl, rfl, fun key => ?_⟩
                rw [AutoRenew.destroyed, Redis.fields_del]
                split
                · rename_i own
                  exact .inr ⟨own, due, newSid, marker, late, read, judged⟩
                · exact .inl (fields_unmapped ..)
            | false =>
                refine absurd ⟨due, fun newSid' named => ?_⟩ keeps
                cases marker.symm.trans named
                exact ⟨late, read, judged⟩
          · simp only [made]
            exact ⟨_, _, _, rfl, by rintro ⟨⟩, rfl, rfl, fun _ => .inl rfl⟩
          · simp only [made]
            exact ⟨_, _, _, rfl, by rintro ⟨⟩, rfl, rfl, fun _ => .inl rfl⟩
        · exact ⟨_, _, _, exec_tryRenew_recent true due marker recent,
            by rintro ⟨⟩, same.1, same.2,
            fun key => .inl (touched key)⟩

omit [UidGetter U] in
theorem Regenerates.unstored {before : Redis} {operation : Operation U}
    {prepared : RedisSession U} {filters : Filters} {sid : Str}
    (how : Regenerates scope store operation prepared env filters before)
    (unstored : ¬store.Stored sid) : before.fields (sessionKey sid) = ∅ := by
  rw [Redis.Stored, not_not] at unstored
  cases how with
  | replace =>
      rw [Redis.fields_del]
      split
      · rfl
      · exact unstored
  | _ => exact unstored

omit [UidGetter U] in
theorem Regenerates.connMeta {before : Redis} {operation : Operation U}
    {prepared : RedisSession U} {filters : Filters}
    (how : Regenerates scope store operation prepared env filters before) :
    prepared.connMeta = scope.session.connMeta := by
  cases how <;> rfl

omit [UidGetter U] [Serde U] in
theorem Operation.Requested.renewed {session : RedisSession U} {operation : Operation U}
    (request : operation.Requested session store) : operation.renewed (.ok true) = true := by
  cases operation with
  | login | autoLogin | tryRenew => rfl
  | _ => exact request.elim

end

/-- A connection with its root and the session of the request that is handled. `renewed` is a
record kept for the proofs only: whether a request gave its session a new id. -/
structure Connection (U : Type) where
  store : Redis
  root : RedisSession U
  session : Option (RedisSession U)
  renewed : Bool

namespace Connection

/-- A request comes in, by the given sid or that of the root, its session performs an operation,
or time passes. -/
inductive Event (U : Type) where
  | receive (sid : Option Str)
  | perform (operation : Operation U)
  | tick (seconds : Nat)

/-- A connection whose root was just connected, over any store. -/
def Connected (server : Str) (connection : Connection U) : Prop :=
  ∃ session : RedisSession U,
    ((∃ env ttlMinutes, session = RedisSession.new env ttlMinutes) ∨
      ∃ sid, RedisSession.newWithId sid = .ok session) ∧
    connection.root = session.connect server ∧ connection.session = none ∧
    connection.renewed = false

variable [UidGetter U] [Serde U]

def step (connection : Connection U) : Event U → Connection U
  | .receive sid =>
      match connection.root.cloneForRequest 0 sid with
      | .ok session => { connection with session := some session }
      | _ => { connection with session := none }
  | .perform operation =>
      match connection.session with
      | none => connection
      | some session =>
          let final := (operation.program true).exec ⟨session, some connection.root⟩
            connection.store
          { store := final.2.2
            root := final.2.1.root.getD connection.root
            session := some final.2.1.session
            renewed := connection.renewed || operation.renewed final.1 }
  | .tick seconds => { connection with store := connection.store.tick seconds }

/-- The store once the root is disconnected. -/
def disconnected (connection : Connection U) : Redis :=
  (unbinding.exec ⟨connection.root, none⟩ connection.store).2.2

omit [UidGetter U] in
/-- Once a request was renewed, a session is renewed only from a hash that names the server and
not itself as its successor, and the session of the root is not given up. -/
structure Keeps (server : Str) (connection : Connection U) (session : RedisSession U)
    (operation : Operation U) : Prop where
  renews : operation.Renews session connection.store →
    connection.store.serverAt session.info.sid = some server ∧
      connection.store.marker? (sessionKey session.info.sid) ≠ some session.info.sid
  givesUp : ∀ env conf, operation = .tryRenew env conf →
    conf.GivesUp session env connection.store → session.info.sid ≠ connection.root.info.sid

omit [UidGetter U] [Serde U] in
/-- Requests are used for logins and renewals, and nothing expires. -/
def Serves (connection : Connection U) : Event U → Prop
  | .receive _ => True
  | .perform operation => ∀ session, connection.session = some session →
      session.info.ttlMinutes ≠ 0 ∧ operation.Requested session connection.store
  | .tick seconds => ∀ key,
      ((connection.store.tick seconds).hash? key).isSome = (connection.store.hash? key).isSome

omit [UidGetter U] in
/-- The steps that keep the server in the hash of the root. -/
def Follows (server : Str) (connection : Connection U) (event : Event U) : Prop :=
  connection.Serves event ∧ ∀ operation session, event = .perform operation →
    connection.session = some session → connection.renewed = true →
      connection.Keeps server session operation

/-- From the first renewal on the hash of the root names the server, until it is disconnected. -/
def NamesServer (server : Str) (connection : Connection U) : Prop :=
  (connection.renewed = true →
    connection.store.serverAt connection.root.info.sid = some server) ∧
  connection.disconnected.serverAt connection.root.info.sid = none

/-- What the hash of the root says about its server, for each value of `serverUnbound`. -/
structure Bound (server : Str) (connection : Connection U) : Prop where
  names : connection.root.names = defaultNames
  session : ∀ session, connection.session = some session →
    session.names = defaultNames ∧ session.connMeta.serverUnbound = none
  unrenewed : connection.renewed = false →
    connection.root.connMeta.serverUnbound = some (some server)
  renewed : connection.renewed = true → connection.root.connMeta.serverUnbound = some none ∧
    connection.store.serverAt connection.root.info.sid = some server

variable {server : Str} {connection : Connection U}

omit [UidGetter U] [Serde U] in
theorem cloneForRequest_requested {root session : RedisSession U} {index : Nat}
    {sid : Option Str} (made : root.cloneForRequest index sid = .ok session) :
    session.connMeta.serverUnbound = none := by
  rw [cloneForRequest] at made
  cases cloned : root.cloneWithId (sid.getD root.info.sid) with
  | ok clone =>
      rw [cloned] at made
      cases made
      rfl
  | err error =>
      rw [cloned] at made
      cases made
  | panic =>
      rw [cloned] at made
      cases made

omit [UidGetter U] [Serde U] in
theorem bound_of_connected (connected : connection.Connected server) :
    connection.Bound server := by
  rcases connected with ⟨session, made, root, none, unrenewed⟩
  have proper : session.Proper := by
    rcases made with ⟨env, ttlMinutes, rfl⟩ | ⟨sid, made⟩
    · exact new_proper env ttlMinutes
    · exact newWithId_proper made
  refine ⟨?_, ?_, fun _ => ?_, fun renewed => ?_⟩
  · rw [root]
    exact proper.names
  · intro session found
    cases none.symm.trans found
  · rw [root]
    rfl
  · cases unrenewed.symm.trans renewed

/-- The session of a request has the names of the root and no server to bind. -/
theorem bound_receive (bound : connection.Bound server) (sid : Option Str) :
    (connection.step (.receive sid)).Bound server := by
  rw [step]
  split
  · rename_i session made
    refine ⟨bound.names, ?_, bound.unrenewed, bound.renewed⟩
    rintro _ ⟨⟩
    exact ⟨(cloneForRequest_names made).trans bound.names, cloneForRequest_requested made⟩
  · refine ⟨bound.names, ?_, bound.unrenewed, bound.renewed⟩
    rintro _ ⟨⟩

theorem bound_tick (bound : connection.Bound server) {seconds : Nat}
    (lasting : connection.Serves (.tick seconds)) :
    (connection.step (.tick seconds)).Bound server := by
  refine ⟨bound.names, bound.session, bound.unrenewed, fun renewed => ?_⟩
  rcases bound.renewed renewed with ⟨unbound, found⟩
  refine ⟨unbound, ?_⟩
  have kept : (connection.store.tick seconds).fields (sessionKey connection.root.info.sid) =
      connection.store.fields (sessionKey connection.root.info.sid) := by
    have lives := lasting (sessionKey connection.root.info.sid)
    rw [Redis.hash?_tick] at lives
    rw [Redis.fields, Redis.fields, Redis.hash?_tick]
    cases stored : connection.store.hash? (sessionKey connection.root.info.sid) with
    | none => rfl
    | some entry =>
        rw [stored, Option.isSome_some, Option.isSome_filter, Option.any_some] at lives
        rw [Option.filter_some, if_pos lives]
  rw [Redis.serverAt, ← kept] at found
  exact found

theorem bound_perform (bound : connection.Bound server) {operation : Operation U}
    (follows : connection.Follows server (.perform operation)) :
    (connection.step (.perform operation)).Bound server := by
  rw [step]
  cases found : connection.session with
  | none => exact bound
  | some session =>
      rcases follows.1 session found with ⟨lives, request⟩
      have keeps := follows.2 operation session rfl found
      rcases bound.session session found with ⟨names, requested⟩
      by_cases renews : operation.Renews session connection.store
      · rcases exec_program_rooted ⟨session, some connection.root⟩ rfl requested names
          request renews with
          ⟨prepared, env, filters, before, store', how, suits, done, same⟩
        have preparedNames : prepared.names = defaultNames := how.names.trans names
        have rooted : (connection.root.takeOver (newSid prepared env)).info.sid =
            newSid prepared env := by
          simp [takeOver, Meta.adopt, newSid, Meta.regenerate,
            Meta.parseSid_genId suits.clock prepared.info.ttlMinutes]
        have binds : connection.root.connMeta.serverUnbound = some (some server) ∨
            connection.root.connMeta.serverUnbound = some none ∧
              (prepared.copyOf filters before)[defaultServerField]? = some server := by
          cases renewed : connection.renewed with
          | false => exact .inl (bound.unrenewed renewed)
          | true =>
              rcases (keeps renewed).renews renews with ⟨serves, named⟩
              refine .inr ⟨(bound.renewed renewed).1,
                how.copyOf_server ?_ ?_ names serves named⟩
              · rintro env filters rfl
                exact request
              · rintro env conf rfl
                exact request.2
        have served := serverAt_renewedStore preparedNames suits.lives
          (how.unstored suits.unstored) binds
        have takenOver : (connection.root.takeOver (newSid prepared env)).names = defaultNames := by
          have sidName : ∀ sid, (connection.root.info.adopt sid).2.sidName =
              connection.root.info.sidName := by
            intro sid
            rw [Meta.adopt]
            split <;> rfl
          refine Eq.trans ?_ bound.names
          simp [Core.names, takeOver, sidName]
        simp only [done]
        refine ⟨takenOver, ?_, ?_, fun _ => ⟨?_, ?_⟩⟩
        · rintro _ ⟨⟩
          exact ⟨preparedNames, (congrArg _ how.connMeta).trans requested⟩
        · intro unrenewed
          rw [request.renewed, Bool.or_true] at unrenewed
          cases unrenewed
        · rcases binds with unbound | ⟨unbound, _⟩ <;> simp [takeOver, unbound]
        · rw [Option.getD_some, rooted]
          exact same.trans served
      · cases operation with
        | login => exact absurd trivial renews
        | autoLogin => exact absurd trivial renews
        | tryRenew env conf =>
            rcases exec_tryRenew_kept ⟨session, some connection.root⟩ lives renews with
              ⟨outcome, session', store', done, unrenewed, sameNames, sameMeta, kept⟩
            have program : ((Operation.tryRenew env conf).program true).exec
                ⟨session, some connection.root⟩ connection.store = _ := done
            have record : (Operation.tryRenew env conf : Operation U).renewed outcome = false := by
              rcases outcome with (_ | _) | _ | _
              · rfl
              · exact absurd rfl unrenewed
              · rfl
              · rfl
            simp only [program, record, Bool.or_false]
            refine ⟨bound.names, ?_, bound.unrenewed, fun renewed => ?_⟩
            · rintro _ ⟨⟩
              exact ⟨sameNames.trans names, (congrArg _ sameMeta).trans requested⟩
            · rcases bound.renewed renewed with ⟨unbound, serves⟩
              refine ⟨unbound, ?_⟩
              rcases kept (sessionKey connection.root.info.sid) with same | ⟨own, givesUp⟩
              · rw [Redis.serverAt, ← same] at serves
                exact serves
              · refine absurd ?_ ((keeps renewed).givesUp env conf rfl givesUp)
                rw [Core.key_of_names names, sessionKey_inj] at own
                exact own.symm
        | _ => exact request.elim

theorem bound_step (bound : connection.Bound server) {event : Event U}
    (follows : connection.Follows server event) : (connection.step event).Bound server := by
  cases event with
  | receive sid => exact bound_receive bound sid
  | perform operation => exact bound_perform bound follows
  | tick seconds => exact bound_tick bound follows.1

omit [UidGetter U] [Serde U] in
theorem serverAt_disconnected (names : connection.root.names = defaultNames) :
    connection.disconnected.serverAt connection.root.info.sid = none := by
  have key : connection.root.key = sessionKey connection.root.info.sid := Core.key_of_names names
  have serverField : connection.root.connMeta.serverField = defaultServerField :=
    congrArg (·.2.2.2) names
  have done : connection.disconnected = connection.store.hdel connection.root.key
      connection.root.connMeta.serverField := rfl
  rw [done, Redis.serverAt, Redis.fields_hdel, key, if_pos rfl, serverField]
  simp

/-- In every run whose steps meet the condition, the server follows the connection. -/
theorem namesServer_of_reachable
    (reached : Reachable step (Follows server) (Connected server) connection) :
    connection.NamesServer server := by
  have bound : connection.Bound server :=
    reached.invariant (fun _ => bound_of_connected) fun _ _ bound follows =>
      bound_step bound follows
  exact ⟨fun renewed => (bound.renewed renewed).2, serverAt_disconnected bound.names⟩

def office : Str := "10.0.0.1".toList

/-- A session that the client has besides its connection. -/
def asideSid : Str := (Meta.genId (.uniform 2 0x70000000 0x70000000) 60).1

/-- A fresh root over a store that holds the other session. -/
def opened : Connection Account where
  store := Redis.empty.hset (sessionKey asideSid) "cart".toList "3".toList
  root := (RedisSession.new (.uniform 0 0x70000000 0x70000000) 60).connect office
  session := none
  renewed := false

def firstLogin : List (Event Account) :=
  [.receive none, .perform (.login (.uniform 1 0x70000010 0x70000010) ⟨7, 1⟩ 30)]

theorem connected_opened : opened.Connected office :=
  ⟨_, .inl ⟨_, _, rfl⟩, rfl, rfl, rfl⟩

theorem unstored_of_isEmpty {store : Redis} {sid : Str}
    (empty : (store.fields (sessionKey sid)).isEmpty = true) : ¬store.Stored sid := by
  simpa [Redis.Stored] using empty

theorem serves_firstLogin : AdmitsRun step Serves opened firstLogin := by
  refine ⟨trivial, ?_, trivial⟩
  rintro session ⟨⟩
  exact ⟨by decide, ⟨by decide, by decide, by decide, unstored_of_isEmpty (by decide)⟩⟩

/-- The client logs in again with the session that the root has then. -/
def laterLogin : List (Event Account) :=
  [.receive none, .perform (.login (.uniform 3 0x70000020 0x70000020) ⟨7, 1⟩ 30)]

/-- The first login binds the session of the root, and the next one takes the server along. -/
theorem namesServer_of_reachable_login :
    ((firstLogin ++ laterLogin).foldl step opened).NamesServer office := by
  have admitted : AdmitsRun step (Follows office) opened (firstLogin ++ laterLogin) := by
    refine ⟨⟨trivial, ?_⟩, ⟨serves_firstLogin.2.1, ?_⟩, ⟨trivial, ?_⟩,
      ⟨?_, ?_⟩, trivial⟩
    · rintro _ _ ⟨⟩
    · rintro _ _ _ _ ⟨⟩
    · rintro _ _ ⟨⟩
    · rintro session ⟨⟩
      exact ⟨by decide, ⟨by decide, by decide, by decide, unstored_of_isEmpty (by decide)⟩⟩
    · rintro _ session ⟨⟩ ⟨⟩ _
      refine ⟨fun _ => ⟨by decide, by decide⟩, ?_⟩
      rintro _ _ ⟨⟩
  exact namesServer_of_reachable (.run (.start connected_opened) _ admitted)

/-- The second login is that of a session besides the connection. -/
theorem not_namesServer_of_reachable :
    ¬∀ (server : Str) (connection : Connection Account),
      Reachable step Serves (Connected server) connection → connection.NamesServer server := by
  intro claim
  let secondLogin : List (Event Account) :=
    [.receive asideSid, .perform (.login (.uniform 3 0x70000020 0x70000020) ⟨7, 1⟩ 30)]
  have serves : AdmitsRun step Serves (firstLogin.foldl step opened) secondLogin := by
    refine ⟨trivial, ?_, trivial⟩
    rintro session ⟨⟩
    exact ⟨by decide, ⟨by decide, by decide, by decide, unstored_of_isEmpty (by decide)⟩⟩
  have reached := (Reachable.run (.start connected_opened) firstLogin serves_firstLogin).run
    secondLogin serves
  exact absurd ((claim office _ reached).1 (by decide)) (by decide)

end Connection

end Dce.Session
