import Dce.Session.Effects

/-!
# What a step can do

`Effect` lists the objects and the stores that an operation can leave behind when
no command fails. An invariant of the system needs one case for each of its
constructors; how an operation came to an effect no longer matters then.
-/

namespace Dce.Session

open RedisSession

variable {U : Type} [UidGetter U] [Serde U]

/-- An operation gives the session a new id: what the session was prepared to, the environment and
the filters of its regeneration, and the store at that moment. -/
inductive Regenerates (scope : Scope U) (store : Redis) :
    Operation U → RedisSession U → Env → Filters → Redis → Prop
  | login {env : Env} {user : U} {ttlMinutes : UInt16} :
      Regenerates scope store (.login env user ttlMinutes)
        (prepareLogin (some user) (some ttlMinutes) scope.session) env
        (loginFilters (prepareLogin (some user) (some ttlMinutes) scope.session)) store
  | autoLogin {env : Env} :
      Regenerates scope store (.autoLogin env) (prepareLogin none none scope.session) env
        (loginFilters (prepareLogin none none scope.session)) store
  | renew {env : Env} {filters : Filters} :
      Regenerates scope store (.renew env filters) scope.session env filters store
  | clone {env : Env} {conf : AutoRenew} (due : 0 ≤ conf.due scope.session env)
      (unmarked : (store.fields scope.session.key)[conf.newSidField]? = none) :
      Regenerates scope store (.tryRenew env conf) (AutoRenew.cloning scope.session) env ∅ store
  | replace {env : Env} {conf : AutoRenew} {newSid : Str} (due : 0 ≤ conf.due scope.session env)
      (marker : (store.fields scope.session.key)[conf.newSidField]? = some newSid)
      (late : conf.originalJudgmentSeconds.toNat < conf.due scope.session env) :
      Regenerates scope store (.tryRenew env conf) (AutoRenew.cloning scope.session) env
        ((∅ : Filters).insert conf.newSidField none)
        (store.del (genKey scope.session.info.sidName newSid))

/-- What an operation can leave behind when no command fails. -/
inductive Effect (connection : Bool) (scope : Scope U) (store : Redis) :
    Operation U → Scope U → Redis → Prop
  | unchanged {operation : Operation U} (cloned : Option (Core U)) :
      Effect connection scope store operation
        { scope with session := { scope.session with cloned } } store
  | touched {operation : Operation U} :
      Effect connection scope store operation
        { scope with session := scope.session.afterTouch store }
        (scope.session.storeAfterTouch store)
  | loaded {operation : Operation U} :
      Effect connection scope store operation
        { scope with session := scope.session.afterLoad store } store
  | set {field value : Str} :
      Effect connection scope store (.set field (some value))
        { scope with
          session := scope.session.afterTouch (store.hset scope.session.key field value) }
        (scope.session.storeAfterTouch (store.hset scope.session.key field value))
  | del {field : Str} :
      Effect connection scope store (.del field)
        { scope with session := scope.session.afterTouch (store.hdel scope.session.key field) }
        (scope.session.storeAfterTouch (store.hdel scope.session.key field))
  | delAbsent {field : Str} :
      Effect connection scope store (.del field) scope (store.hdel scope.session.key field)
  | regenerated {operation : Operation U} {prepared : RedisSession U} {env : Env}
      {filters : Filters} {before : Redis} {root : Option (RedisSession U)}
      (how : Regenerates scope store operation prepared env filters before)
      (redirected : Redirected (prepared.info.regenerate env).sid scope.root root) :
      Effect connection scope store operation ⟨prepared.successor env filters before, root⟩
        (prepared.renewedStore (redirects connection scope.session) scope.root env filters before)
  | loggedIn {operation : Operation U} {prepared : RedisSession U} {env : Env}
      {filters : Filters} {before : Redis} {root : Option (RedisSession U)}
      (how : Regenerates scope store operation prepared env filters before)
      (redirected : Redirected (prepared.info.regenerate env).sid scope.root root) :
      Effect connection scope store operation ⟨prepared.successor env filters before, root⟩
        (scope.session.loggedIn (prepared.renewedStore (redirects connection scope.session)
          scope.root env filters before))
  | marked {conf : AutoRenew} {prepared : RedisSession U} {env : Env}
      {filters : Filters} {before : Redis} {root : Option (RedisSession U)}
      (how : Regenerates scope store (.tryRenew env conf) prepared env filters before)
      (redirected : Redirected (prepared.info.regenerate env).sid scope.root root)
      (adopted : redirects connection scope.session = true →
        Redirectable (prepared.info.regenerate env).sid scope.root) :
      Effect connection scope store (.tryRenew env conf)
        ⟨prepared.successor env filters before, root⟩
        (conf.marked scope.session (prepared.info.regenerate env).sid
          (prepared.renewedStore (redirects connection scope.session) scope.root env filters
            before))
  | loggedOut {user : U} (loggedIn : scope.session.loadedUser store = some user) :
      Effect connection scope store .logout
        { scope with session := scope.session.afterLogout }
        ((scope.session.unmapped store).hdel scope.session.key scope.session.userMeta.userField)
  | destroyed {operation : Operation U} (cloned : Option (Core U)) :
      Effect connection scope store operation
        { scope with session := { scope.session.afterLoad store with cloned } }
        (AutoRenew.destroyed scope.session store)
  | synced {user : U} {json : Str} (written : Serde.toJson user = some json) :
      Effect connection scope store (.sync user) scope
        (scope.session.synced json
          (((store.members (genUserKey scope.session.userMeta.keyPrefix
            (UidGetter.id user))).toList).filter (scope.session.isLive store))
          (scope.session.pruned (genUserKey scope.session.userMeta.keyPrefix (UidGetter.id user))
            (store.members (genUserKey scope.session.userMeta.keyPrefix
              (UidGetter.id user))).toList store))
  | unbound :
      Effect connection scope store .disconnect scope
        (store.hdel scope.session.key scope.session.connMeta.serverField)

namespace Operation

variable (connection : Bool) (scope : Scope U) (store : Redis)

theorem effect_logIn {operation : Operation U} {env : Env} {user : Option U}
    {ttlMinutes : Option UInt16}
    (how : Regenerates scope store operation (prepareLogin user ttlMinutes scope.session) env
      (loginFilters (prepareLogin user ttlMinutes scope.session)) store) :
    ∃ outcome scope' store', (logIn connection env user ttlMinutes).exec scope store =
      (outcome, scope', store') ∧ Effect connection scope store operation scope' store' := by
  rcases exec_logIn scope store connection env user ttlMinutes with
    ⟨outcome, root, store', done, redirected, rfl | rfl, _⟩
  · exact ⟨outcome, _, _, done, .regenerated how redirected⟩
  · exact ⟨outcome, _, _, done, .loggedIn how redirected⟩

theorem effect_doClone {conf : AutoRenew} {env : Env} {filters : Filters} {before : Redis}
    (cloned : Option (Core U))
    (how : Regenerates scope store (.tryRenew env conf) (AutoRenew.cloning scope.session) env
      filters before) :
    ∃ outcome scope' store', (conf.doClone connection env filters).exec
        { scope with session := { scope.session with cloned } } before =
      (outcome, scope', store') ∧
      Effect connection scope store (.tryRenew env conf) scope' store' := by
  rcases AutoRenew.exec_doClone conf connection
    { scope with session := { scope.session with cloned } } before env filters with
    ⟨outcome, root, store', done, redirected, ⟨_, rfl⟩ | ⟨_, rfl, adopted⟩, _⟩
  · exact ⟨outcome, _, _, done, .regenerated how redirected⟩
  · exact ⟨outcome, _, _, done, .marked how redirected adopted⟩

theorem effect_tryRenew (env : Env) (conf : AutoRenew) :
    ∃ outcome scope' store', (conf.tryRenew connection env).exec scope store =
      (outcome, scope', store') ∧
      Effect connection scope store (.tryRenew env conf) scope' store' := by
  rcases Int.lt_or_le (conf.due scope.session env) 0 with early | due
  · exact ⟨_, _, _, AutoRenew.exec_tryRenew_early connection early, .touched⟩
  · cases marker : (store.fields scope.session.key)[conf.newSidField]? with
    | none =>
        rw [AutoRenew.exec_tryRenew_unmarked connection due marker]
        exact effect_doClone connection scope store scope.session.cloned (.clone due marker)
    | some newSid =>
        rcases Int.lt_or_le conf.originalJudgmentSeconds.toNat (conf.due scope.session env) with
          late | recent
        · rw [AutoRenew.exec_tryRenew_late connection due marker late]
          rw [AutoRenew.exec_replaceOrDestroy]
          cases scope.session.cloneWithId newSid with
          | panic => exact ⟨_, _, _, rfl, .unchanged scope.session.cloned⟩
          | err error => exact ⟨_, _, _, rfl, .unchanged none⟩
          | ok cloned =>
              dsimp only
              split
              · exact ⟨_, _, _, rfl, .destroyed (some cloned.toCore)⟩
              · exact effect_doClone connection scope store cloned.toCore
                  (.replace due marker late)
        · exact ⟨_, _, _, AutoRenew.exec_tryRenew_recent connection due marker recent,
            .touched⟩

/-- Every operation has one of the effects. -/
theorem exec_effect (operation : Operation U) :
    ∃ outcome scope' store', (operation.program connection).exec scope store =
      (outcome, scope', store') ∧ Effect connection scope store operation scope' store' := by
  have same : Effect connection scope store operation scope store :=
    .unchanged scope.session.cloned
  cases operation with
  | set field json =>
      cases json with
      | none => exact ⟨_, _, _, exec_set_none scope store field, same⟩
      | some value => exact ⟨_, _, _, exec_set .., .set⟩
  | get field =>
      simp only [program]
      rw [SessionM.exec_bind, exec_get]
      cases (store.fields scope.session.key)[field]? with
      | none => exact ⟨_, _, _, rfl, same⟩
      | some json => exact ⟨_, _, _, rfl, .touched⟩
  | del field =>
      simp only [program]
      rw [exec_del]
      split
      · exact ⟨_, _, _, rfl, .del⟩
      · exact ⟨_, _, _, rfl, .delAbsent⟩
  | login env user ttlMinutes => exact effect_logIn connection scope store .login
  | autoLogin env => exact effect_logIn connection scope store .autoLogin
  | logout =>
      simp only [program]
      rw [exec_logout]
      cases acting : scope.session.loadedUser store with
      | none => exact ⟨_, _, _, rfl, .loaded⟩
      | some user => exact ⟨_, _, _, rfl, .loggedOut acting⟩
  | renew env filters =>
      rcases exec_renew scope store connection env filters with
        ⟨outcome, root, done, redirected, _, _⟩
      exact ⟨_, _, _, done, .regenerated .renew redirected⟩
  | tryRenew env conf => exact effect_tryRenew connection scope store env conf
  | destroy => exact ⟨_, _, _, exec_destroy .., .destroyed scope.session.cloned⟩
  | sync user =>
      simp only [program]
      rw [exec_sync]
      cases written : Serde.toJson user with
      | none => exact ⟨_, _, _, rfl, same⟩
      | some json => exact ⟨_, _, _, rfl, .synced written⟩
  | disconnect =>
      exact ⟨_, _, _, (SessionM.exec_bind_of (SessionM.exec_self ..)).trans
        (Commands.exec_hdel ..), .unbound⟩

end Operation

/-- The id name, the user prefix and the field names of a session. -/
def Core.names (core : Core U) : Str × Str × Str × Str :=
  (core.info.sidName, core.userMeta.keyPrefix, core.userMeta.userField, core.connMeta.serverField)

/-- The names `new` gives a session. -/
def defaultNames : Str × Str × Str × Str :=
  (defaultIdName, defaultUserPrefix, defaultUserField, defaultServerField)

/-- The key of the session with a sid. -/
def sessionKey (sid : Str) : Str := genKey defaultIdName sid

/-- A session object with the default names, whose sid spells its lifetime. -/
structure Core.Proper (core : Core U) : Prop where
  names : core.names = defaultNames
  ttl : Meta.parseTtl core.info.sid = .ok core.info.ttlMinutes

section

omit [UidGetter U] [Serde U]

variable {core : Core U}

theorem Core.key_of_names (names : core.names = defaultNames) :
    core.key = sessionKey core.info.sid := by
  rw [Core.key, show core.info.sidName = defaultIdName from congrArg Prod.fst names, sessionKey]

theorem Core.Proper.sidName (proper : core.Proper) : core.info.sidName = defaultIdName :=
  congrArg Prod.fst proper.names

theorem Core.Proper.keyPrefix (proper : core.Proper) :
    core.userMeta.keyPrefix = defaultUserPrefix :=
  congrArg (·.2.1) proper.names

theorem Core.Proper.userField (proper : core.Proper) :
    core.userMeta.userField = defaultUserField :=
  congrArg (·.2.2.1) proper.names

theorem Core.Proper.serverField (proper : core.Proper) :
    core.connMeta.serverField = defaultServerField :=
  congrArg (·.2.2.2) proper.names

theorem Core.Proper.key (proper : core.Proper) : core.key = sessionKey core.info.sid :=
  Core.key_of_names proper.names

theorem Meta.parseTtl_of_parseSid {sid : Str} {ttlMinutes : UInt16} {createStamp : UInt64}
    (parsed : Meta.parseSid sid = .ok (ttlMinutes, createStamp)) :
    Meta.parseTtl sid = .ok ttlMinutes := by
  unfold Meta.parseSid at parsed
  split at parsed
  · cases parsed
  · cases ttl : Meta.parseTtl sid <;> cases stamp : Meta.parseStamp sid <;>
      simp [ttl, stamp] at parsed ⊢
    exact parsed.1

/-- Adopting a sid takes over the lifetime it spells, or keeps the old sid. -/
theorem Core.Proper.adopt (proper : core.Proper) (sid : Str) {other : Core U}
    (names : other.names = core.names) (info : other.info = (core.info.adopt sid).2) :
    other.Proper := by
  refine ⟨names.trans proper.names, ?_⟩
  rw [info, Meta.adopt]
  cases parsed : Meta.parseSid sid with
  | ok times => exact Meta.parseTtl_of_parseSid parsed
  | err error => exact proper.ttl
  | panic => exact proper.ttl

theorem new_proper (env : Env) (ttlMinutes : UInt16) :
    (RedisSession.new env ttlMinutes : RedisSession U).Proper :=
  ⟨rfl, Meta.parseTtl_genId env ttlMinutes⟩

theorem newWithId_proper {sid : Str} {session : RedisSession U}
    (made : RedisSession.newWithId sid = .ok session) : session.Proper := by
  cases parsed : Meta.parseSid sid with
  | ok times =>
      simp only [RedisSession.newWithId, Meta.newWithSid, parsed, Outcome.bind_ok, Outcome.pure_eq,
        Outcome.ok.injEq] at made
      subst made
      exact ⟨rfl, Meta.parseTtl_of_parseSid parsed⟩
  | err error => simp [RedisSession.newWithId, Meta.newWithSid, parsed] at made
  | panic => simp [RedisSession.newWithId, Meta.newWithSid, parsed] at made

theorem newWithId_sid {sid : Str} {session : RedisSession U}
    (made : RedisSession.newWithId sid = .ok session) : session.info.sid = sid := by
  cases parsed : Meta.parseSid sid with
  | ok times =>
      simp only [RedisSession.newWithId, Meta.newWithSid, parsed, Outcome.bind_ok, Outcome.pure_eq,
        Outcome.ok.injEq] at made
      simp [← made]
  | err error => simp [RedisSession.newWithId, Meta.newWithSid, parsed] at made
  | panic => simp [RedisSession.newWithId, Meta.newWithSid, parsed] at made

theorem cloneForRequest_proper {root session : RedisSession U} {index : Nat} {sid : Option Str}
    (proper : root.Proper) (made : root.cloneForRequest index sid = .ok session) :
    session.Proper := by
  simp only [RedisSession.cloneForRequest, RedisSession.cloneWithId, Meta.adopt] at made
  cases parsed : Meta.parseSid (sid.getD root.info.sid) with
  | ok times =>
      simp only [parsed, Outcome.bind_ok, Outcome.pure_eq, Outcome.ok.injEq] at made
      subst made
      exact ⟨proper.names, Meta.parseTtl_of_parseSid parsed⟩
  | err error => simp [parsed] at made
  | panic => simp [parsed] at made

theorem cloneForRequest_names {root session : RedisSession U} {index : Nat} {sid : Option Str}
    (made : root.cloneForRequest index sid = .ok session) : session.names = root.names := by
  simp only [RedisSession.cloneForRequest, RedisSession.cloneWithId, Meta.adopt] at made
  cases parsed : Meta.parseSid (sid.getD root.info.sid) with
  | ok times =>
      simp only [parsed, Outcome.bind_ok, Outcome.pure_eq, Outcome.ok.injEq] at made
      subst made
      rfl
  | err error => simp [parsed] at made
  | panic => simp [parsed] at made

theorem RedisSession.Redirected.proper {sid : Str} {before after : Option (RedisSession U)}
    (redirected : Redirected sid before after)
    (proper : ∀ root, before = some root → root.Proper) :
    ∀ root, after = some root → root.Proper := by
  rcases redirected with rfl | ⟨root, unbound, rfl, rfl⟩
  · exact proper
  · rintro _ ⟨⟩
    exact (proper root rfl).adopt sid (by simp [Core.names, Meta.adopt]; split <;> rfl) rfl

theorem afterTouch_proper {session : RedisSession U} (proper : session.Proper) (store : Redis) :
    (session.afterTouch store).Proper := by
  rw [afterTouch]
  split <;> exact ⟨proper.names, proper.ttl⟩

end

omit [UidGetter U] in
theorem Regenerates.names {scope : Scope U} {store before : Redis} {operation : Operation U}
    {prepared : RedisSession U} {env : Env} {filters : Filters}
    (how : Regenerates scope store operation prepared env filters before) :
    prepared.names = scope.session.names := by
  cases how <;> rfl

omit [UidGetter U] in
theorem successor_proper {prepared : RedisSession U} {env : Env} {filters : Filters}
    {before : Redis}
    (names : prepared.names = defaultNames) :
    (prepared.successor env filters before).Proper :=
  ⟨names, Meta.parseTtl_genId env prepared.info.ttlMinutes⟩

/-- An operation leaves a proper object. -/
theorem Effect.proper {connection : Bool} {scope scope' : Scope U} {store store' : Redis}
    {operation : Operation U}
    (effect : Effect connection scope store operation scope' store')
    (proper : scope.session.Proper) : scope'.session.Proper := by
  cases effect with
  | touched | set | del => exact afterTouch_proper proper _
  | regenerated how | loggedIn how | marked how =>
      exact successor_proper (how.names.trans proper.names)
  | _ => exact ⟨proper.names, proper.ttl⟩

theorem Effect.root {connection : Bool} {scope scope' : Scope U} {store store' : Redis}
    {operation : Operation U}
    (effect : Effect connection scope store operation scope' store')
    (proper : ∀ root, scope.root = some root → root.Proper) :
    ∀ root, scope'.root = some root → root.Proper := by
  cases effect with
  | regenerated _ redirected | loggedIn _ redirected | marked _ redirected =>
      exact redirected.proper proper
  | _ => exact proper

namespace System

/-- Every object has a property. -/
def Each (property : RedisSession U → Prop) (system : System U) : Prop :=
  ∀ index session, system.objects index = some session → property session

namespace Each

omit [UidGetter U] [Serde U]

variable {property : RedisSession U → Prop} {system : System U}

/-- There are no objects at the start. -/
theorem start : (System.start : System U).Each property := by
  rintro index session ⟨⟩

theorem update (each : system.Each property) (target : Nat) {object : Option (RedisSession U)}
    (updated : ∀ session, object = some session → property session) :
    { system with objects := Function.update system.objects target object }.Each property := by
  intro index session found
  simp only [Function.update_apply] at found
  split at found
  · exact updated session found
  · exact each index session found

theorem add (each : system.Each property) {session : RedisSession U} (added : property session) :
    (system.add session).Each property :=
  each.update system.next (by rintro _ ⟨⟩; exact added)

theorem root (each : system.Each property) (session : RedisSession U) :
    ∀ root, (system.scope session).root = some root → property root := by
  intro root found
  rcases Option.bind_eq_some_iff.mp found with ⟨index, _, object⟩
  exact each index root object

theorem writeBack (each : system.Each property) {scope : Scope U} (target : Nat)
    (session : property scope.session) (root : ∀ root, scope.root = some root → property root) :
    (system.writeBack target scope).Each property := by
  have written : ∀ object, some scope.session = some object → property object := by
    rintro _ ⟨⟩
    exact session
  cases shadowed : scope.session.connMeta.shadow with
  | none => simpa [System.writeBack, shadowed] using each.update target written
  | some shadow =>
      cases found : scope.root with
      | none => simpa [System.writeBack, shadowed, found] using each.update target written
      | some rootSession =>
          have rooted : ∀ object, some rootSession = some object → property object := by
            rintro _ ⟨⟩
            exact root rootSession found
          simpa [System.writeBack, shadowed, found] using
            (each.update shadow rooted).update target written

end Each

variable {connection : Bool} {system : System U}

/-- A step keeps a property of the objects that new objects have and that operations keep. -/
theorem Each.step {property : RedisSession U → Prop} (each : system.Each property)
    (action : Action U)
    (made : ∀ env ttlMinutes, action = .new env ttlMinutes →
      property (RedisSession.new env ttlMinutes))
    (presented : ∀ sid session, RedisSession.newWithId sid = .ok session → property session)
    (connected : ∀ session server, property session → property (session.connect server))
    (requested : ∀ root index sid session, property root →
      root.cloneForRequest index sid = .ok session → property session)
    (operated : ∀ index operation faults, action = .operate index operation faults →
      (system.operate connection index operation faults).Each property) :
    (system.step connection action).Each property := by
  cases action with
  | new env ttlMinutes => exact each.add (made env ttlMinutes rfl)
  | newWithId sid =>
      simp only [System.step]
      split
      · rename_i session presentedSid
        exact each.add (presented sid session presentedSid)
      · exact each
  | operate index operation faults => exact operated index operation faults rfl
  | connect index server =>
      simp only [System.step]
      split
      · rename_i session found
        exact each.update index (by rintro _ ⟨⟩; exact connected _ server (each _ _ found))
      · exact each
  | cloneForRequest index sid =>
      simp only [System.step]
      split
      · rename_i root found
        split
        · rename_i session cloned
          exact each.add (requested root index sid session (each _ _ found) cloned)
        · exact each
      · exact each
  | drop index => exact each.update index (by rintro _ ⟨⟩)
  | tick seconds => exact each

/-- Only operations and the passage of time change the store. -/
theorem store_step (action : Action U)
    (operated : ∀ index operation faults, action ≠ .operate index operation faults)
    (ticked : ∀ seconds, action ≠ .tick seconds) :
    (system.step connection action).store = system.store ∧
      (system.step connection action).renewals = system.renewals := by
  cases action with
  | operate index operation faults => exact absurd rfl (operated index operation faults)
  | tick seconds => exact absurd rfl (ticked seconds)
  | newWithId | connect => simp only [System.step]; split <;> exact ⟨rfl, rfl⟩
  | cloneForRequest =>
      simp only [System.step]
      split
      · split <;> exact ⟨rfl, rfl⟩
      · exact ⟨rfl, rfl⟩
  | _ => exact ⟨rfl, rfl⟩

end System

/-- Every object is proper, and the store has a property. -/
structure System.Holds (property : Redis → Prop) (system : System U) : Prop where
  proper : system.Each fun session => session.Proper
  store : property system.store

/-- No command fails during the step. -/
def Action.Faultless : Action U → Prop
  | .operate _ _ faults => faults = noFaults
  | _ => True

namespace System

variable {connection : Bool} {system : System U} {property : Redis → Prop}

omit [UidGetter U] [Serde U] in
theorem holds_start (empty : property Redis.empty) : (start : System U).Holds property :=
  ⟨.start, empty⟩

/-- A step keeps a property of the store if every effect and the passage of time do. -/
theorem Holds.step (holds : system.Holds property) (action : Action U)
    (faultless : action.Faultless)
    (effects : ∀ index operation session scope' store',
      action = .operate index operation noFaults →
      system.objects index = some session →
      Effect connection (system.scope session) system.store operation scope' store' →
      property store')
    (time : ∀ seconds, action = .tick seconds → property (system.store.tick seconds)) :
    (system.step connection action).Holds property := by
  have operated (index : Nat) (operation : Operation U)
      (performed : action = .operate index operation noFaults) :
      (system.operate connection index operation noFaults).Holds property := by
    cases found : system.objects index with
    | none => simpa [operate, found] using holds
    | some session =>
        rcases operation.exec_effect connection (system.scope session) system.store with
          ⟨outcome, scope', store', done, effect⟩
        rw [operate_noFaults connection system index operation found]
        simp only [done]
        exact ⟨holds.proper.writeBack index (effect.proper (holds.proper index session found))
          (effect.root (holds.proper.root session)),
          effects index operation session scope' store' performed found effect⟩
  refine ⟨holds.proper.step action (fun env ttlMinutes _ => new_proper env ttlMinutes)
    (fun _ _ => newWithId_proper) ?_ ?_ ?_, ?_⟩
  · exact fun session server proper => ⟨proper.names, proper.ttl⟩
  · exact fun root index sid session => cloneForRequest_proper
  · rintro index operation faults rfl
    cases show faults = noFaults from faultless
    exact (operated index operation rfl).proper
  · cases action with
    | operate index operation faults =>
        cases show faults = noFaults from faultless
        exact (operated index operation rfl).store
    | tick seconds => exact time seconds rfl
    | _ =>
        rw [(store_step _ (by rintro _ _ _ ⟨⟩) (by rintro _ ⟨⟩)).1]
        exact holds.store

end System

end Dce.Session
