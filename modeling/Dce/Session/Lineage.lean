import Dce.Session.Index
import Dce.Session.Secures
import Dce.Session.Stays

/-!
# Who is entitled to a session

A user gets into a session by logging in, and is taken along when the session is
regenerated; the mapping sets lead a synchronized user there too. Each operation
keeps to this with every command it sends, even if other operations send theirs
in between.
-/

namespace Dce.Session

open SessionM RedisSession

variable {U α β : Type}

-- the arithmetic of the clock is not to be evaluated
attribute [local irreducible] AutoRenew.secondsFromRenew

section

variable [UidGetter U] [Serde U]

/-- Who is entitled to a session, and which sids may be listed for a user. -/
structure Entitlement (U : Type) [UidGetter U] [Serde U] where
  entitled : Str → U → Prop
  listed : Nat → Str → Prop
  lists : ∀ sid user, entitled sid user → listed (UidGetter.id user) sid
  rereads : ∀ sid user json user', entitled sid user → Serde.toJson user = some json →
    Serde.fromJson json = some user' → entitled sid user'

variable (rule : Entitlement U)

/-- Sessions hold entitled users, and mapping sets name sids that may be listed. -/
structure Redis.Orderly (store : Redis) : Prop where
  users : ∀ sid (user : U), store.userAt U sid = some user → rule.entitled sid user
  mapped : ∀ uid sid, store.Mapped uid sid → rule.listed uid sid

/-- A session without a root that has the default names and caches an entitled user. -/
structure Scope.Rightful (scope : Scope U) : Prop where
  sidName : scope.session.info.sidName = defaultIdName
  keyPrefix : scope.session.userMeta.keyPrefix = defaultUserPrefix
  userField : scope.session.userMeta.userField = defaultUserField
  user : ∀ user, scope.session.userMeta.user = some user →
    rule.entitled scope.session.info.sid user
  root : scope.root = none

/-- The users of the session take any id along that is generated in these surroundings. -/
structure Scope.Renewable (env : Env) (scope : Scope U) : Prop extends scope.Rightful rule where
  renews : ∀ user ttlMinutes, rule.entitled scope.session.info.sid user →
    rule.entitled (Meta.genId env ttlMinutes).1 user

end

/-- A command that gives no session a user and lists no sid. -/
def Cmd.SparesUsers : Cmd → Prop
  | hset _ field _ => field ≠ defaultUserField
  | hmset .. | sadd .. => False
  | expire (.user _) seconds => seconds ≠ 0
  | _ => True

namespace Redis.Orderly

variable [UidGetter U] [Serde U] {rule : Entitlement U} {store store' : Redis}

theorem mono (orderly : store.Orderly rule)
    (fewer : ∀ sid user, store'.userAt U sid = some user → store.userAt U sid = some user)
    (shorter : ∀ key sid, sid ∈ store'.members key → sid ∈ store.members key) :
    store'.Orderly rule where
  users sid user held := orderly.users sid user (fewer sid user held)
  mapped uid sid mem := orderly.mapped uid sid (shorter _ sid mem)

theorem of_fields (orderly : store.Orderly rule)
    (fewer : ∀ key text, (store'.fields key)[defaultUserField]? = some text →
      (store.fields key)[defaultUserField]? = some text)
    (shorter : ∀ key sid, sid ∈ store'.members key → sid ∈ store.members key) :
    store'.Orderly rule := by
  refine orderly.mono ?_ shorter
  intro sid user held
  rcases Option.bind_eq_some_iff.mp held with ⟨text, there, reads⟩
  exact Option.bind_eq_some_iff.mpr ⟨text, fewer _ text there, reads⟩

/-- Such a command keeps the store orderly. -/
theorem after (orderly : store.Orderly rule) {command : Cmd} (spares : command.SparesUsers) :
    (store.after command).Orderly rule := by
  cases command with
  | hset key field value =>
      refine orderly.of_fields ?_ fun _ _ mem => mem
      intro key' text held
      rw [Redis.after, fields_hset] at held
      split at held
      · rename_i same
        have other : field ≠ defaultUserField := spares
        rw [Std.ExtTreeMap.getElem?_insert, if_neg (by simpa using other)] at held
        rw [same]
        exact held
      · exact held
  | hmset key data => exact spares.elim
  | sadd key member => exact spares.elim
  | expire key seconds =>
      refine orderly.of_fields (fun _ _ held => held_of_after (.expire key seconds) trivial held) ?_
      intro key' sid mem
      cases key with
      | session key => rwa [Redis.after, members_expire] at mem
      | user key => rwa [Redis.after, members_expireSet _ _ _ spares] at mem
  | srem key member =>
      refine orderly.of_fields (fun _ _ held => held_of_after (.srem key member) trivial held) ?_
      intro key' sid mem
      rw [Redis.after, mem_members_srem] at mem
      exact mem.1
  | hdel key field =>
      refine orderly.of_fields ?_ fun _ _ mem => mem
      exact fun _ _ held => held_of_after (.hdel key field) trivial held
  | del key =>
      refine orderly.of_fields ?_ fun _ _ mem => mem
      exact fun _ _ held => held_of_after (.del key) trivial held
  | hget key field => exact orderly
  | hgetall key => exact orderly
  | ttl key => exact orderly
  | isPresent key => exact orderly
  | smembers key => exact orderly

theorem tick (orderly : store.Orderly rule) (seconds : Nat) :
    (store.tick seconds).Orderly rule := by
  refine orderly.of_fields ?_ ?_
  · intro key text held
    rcases shrinks_tick store seconds key with same | gone
    · rwa [same] at held
    · simp [gone] at held
  · intro key sid mem
    rwa [members_tick _ _ (isSome_set?_of_mem mem)] at mem

/-- Fields are written for users that are entitled to the session. -/
theorem write (orderly : store.Orderly rule) {sid : Str} {update : Dict → Dict}
    (held : ∀ text user,
      (update (store.fields (sessionKey sid)))[defaultUserField]? = some text →
      (store.fields (sessionKey sid))[defaultUserField]? = some text ∨
        (Serde.fromJson text = some user → rule.entitled sid user)) :
    (store.write (sessionKey sid) update).Orderly rule where
  users sid' user there := by
    by_cases same : sid' = sid
    · rw [same]
      rw [same, userAt, fields_write, if_pos rfl] at there
      rcases Option.bind_eq_some_iff.mp there with ⟨text, stored, reads⟩
      rcases held text user stored with old | entitled
      · exact orderly.users sid user (Option.bind_eq_some_iff.mpr ⟨text, old, reads⟩)
      · exact entitled reads
    · rw [userAt_write same] at there
      exact orderly.users sid' user there
  mapped uid sid' mem := orderly.mapped uid sid' mem

theorem sadd (orderly : store.Orderly rule) {uid : Nat} {sid : Str}
    (listed : rule.listed uid sid) : (store.sadd (userKeyOf uid) sid).Orderly rule where
  users sid' user there := orderly.users sid' user there
  mapped uid' sid' mem := by
    rw [Mapped, mem_members_sadd] at mem
    rcases mem with ⟨key, rfl⟩ | old
    · rwa [userKeyOf_inj.mp key]
    · exact orderly.mapped uid' sid' old

end Redis.Orderly

section

variable [UidGetter U] [Serde U] {rule : Entitlement U} {scope : Scope U} {pre : Scope U → Prop}

namespace Scope.Rightful

theorem key (rightful : scope.Rightful rule) :
    scope.session.key = sessionKey scope.session.info.sid := by
  rw [Core.key, rightful.sidName, sessionKey]

theorem loaded (rightful : scope.Rightful rule) (tryLoaded : Bool) :
    Scope.Rightful rule { scope with session :=
      { scope.session with userMeta := { scope.session.userMeta with tryLoaded } } } :=
  ⟨rightful.sidName, rightful.keyPrefix, rightful.userField, rightful.user, rightful.root⟩

theorem caching (rightful : scope.Rightful rule) {user : Option U}
    (entitled : ∀ user', user = some user' → rule.entitled scope.session.info.sid user') :
    Scope.Rightful rule { scope with session :=
      { scope.session with userMeta := { scope.session.userMeta with user } } } :=
  ⟨rightful.sidName, rightful.keyPrefix, rightful.userField, entitled, rightful.root⟩

theorem touched (rightful : scope.Rightful rule) (touches : Option Bool) :
    Scope.Rightful rule { scope with session :=
      { scope.session with info := { scope.session.info with touches } } } :=
  ⟨rightful.sidName, rightful.keyPrefix, rightful.userField, rightful.user, rightful.root⟩

theorem withClone (rightful : scope.Rightful rule) (cloned : Option (Core U)) :
    Scope.Rightful rule { scope with session := { scope.session with cloned } } :=
  ⟨rightful.sidName, rightful.keyPrefix, rightful.userField, rightful.user, rightful.root⟩

end Scope.Rightful

/-- An operation that keeps the store orderly and its session rightful. -/
abbrev SessionM.Guards (rule : Entitlement U) (pre : Scope U → Prop)
    (ends : α → Scope U → Prop)
    (operation : SessionM U α) : Prop :=
  operation.Secures (Redis.Orderly rule) True (Scope.Rightful rule) pre ends

/-- An operation that gives nobody a session and leaves the scope as it is, as far as `pre` goes. -/
abbrev SessionM.Tame (rule : Entitlement U) (pre : Scope U → Prop) (operation : SessionM U α) :
    Prop :=
  operation.Abides (Redis.Orderly rule) True pre

theorem Cmd.Mild.sparesUsers {command : Cmd} (mild : command.Mild) : command.SparesUsers := by
  cases command <;> trivial

theorem tame_of_same {operation : SessionM U α}
    (moves : ∀ scope, pre scope → operation.Moves Cmd.SparesUsers Eq False scope) :
    operation.Tame rule pre :=
  secures_of_moves moves (fun _ _ spares orderly => orderly.after spares)
    fun _ _ holds same => same ▸ holds

theorem tame_redis {command : Cmd} (spares : command.SparesUsers) :
    (redis command : SessionM U _).Tame rule pre :=
  tame_of_same fun _ _ => moves_redis spares

theorem guards_of_touched {operation : SessionM U α}
    (moves : ∀ scope, scope.Rightful rule →
      operation.Moves Cmd.SparesUsers Scope.Touched False scope) :
    operation.Guards rule (Scope.Rightful rule) fun _ => Scope.Rightful rule := by
  refine secures_of_moves moves (fun _ _ spares orderly => orderly.after spares) ?_
  rintro scope _ rightful ⟨_, rfl⟩
  exact rightful.touched _

/-- A user that is read from the session is entitled to it. -/
theorem guards_storedUser (scope : Scope U) (rightful : scope.Rightful rule) :
    (silentGet scope.session.userMeta.userField : SessionM U Str).Guards rule
      (Scope.Rightful rule) fun text scope => scope.Rightful rule ∧
        ∀ user, Serde.fromJson text = some user →
          rule.entitled scope.session.info.sid user := by
  refine secures_self fun scope' rightful' => ?_
  let tells (value : Option Str) (scope : Scope U) : Prop := scope.Rightful rule ∧
    ∀ text user, value = some text → Serde.fromJson text = some user →
      rule.entitled scope.session.info.sid user
  have told : (Commands.hget scope'.session.key scope.session.userMeta.userField :
      SessionM U (Option Str)).Guards rule
        (fun scope => scope.Rightful rule ∧ scope.session = scope'.session) tells := by
    apply secures_redis (fun _ holds => holds.1)
    · exact fun _ _ _ orderly => orderly
    · rintro scope'' store ⟨rightful'', same⟩ orderly
      refine ⟨rightful'', fun text user held reads => ?_⟩
      apply orderly.users scope''.session.info.sid user
      rw [Redis.userAt, ← rightful''.key, same, ← rightful.userField]
      exact Option.bind_eq_some_iff.mpr ⟨text, held, reads⟩
  refine secures_bind told fun value => ?_
  cases value with
  | none => exact secures_throw (fun _ holds => holds.1) _
  | some text =>
      refine (secures_pure (fun _ holds => holds.1) text).mono (fun _ holds => holds) ?_
      rintro _ scope'' ⟨⟨rightful'', entitled⟩, rfl⟩
      exact ⟨rightful'', fun user reads => entitled _ user rfl reads⟩

theorem guards_user :
    (user : SessionM U (Option U)).Guards rule (Scope.Rightful rule) fun user scope =>
      scope.Rightful rule ∧ scope.session.userMeta.user = user := by
  have cached : (self >>= fun session => pure session.userMeta.user :
      SessionM U (Option U)).Guards rule (Scope.Rightful rule) fun user scope =>
        scope.Rightful rule ∧ scope.session.userMeta.user = user := by
    refine secures_self fun scope rightful => ?_
    refine (secures_pure (fun _ holds => holds.1) _).mono (fun _ holds => holds) ?_
    rintro user scope' ⟨⟨rightful', same⟩, rfl⟩
    exact ⟨rightful', by rw [same]⟩
  have ending : (modify (fun session =>
      { session with userMeta := { session.userMeta with tryLoaded := true } }) >>= fun _ =>
        self >>= fun session => pure session.userMeta.user :
      SessionM U (Option U)).Guards rule (Scope.Rightful rule) fun user scope =>
        scope.Rightful rule ∧ scope.session.userMeta.user = user := by
    refine secures_bind (secures_modify ?_ fun _ rightful => rightful) fun _ => cached
    exact fun scope rightful => rightful.loaded true
  refine secures_self fun scope rightful => ?_
  split
  · refine (secures_pure (fun _ holds => holds.1) _).mono (fun _ holds => holds) ?_
    rintro user scope' ⟨⟨rightful', same⟩, rfl⟩
    exact ⟨rightful', by rw [same]⟩
  · have loading := secures_attempt (guards_storedUser scope rightful)
    refine secures_bind (loading.mono (fun _ holds => holds.1) fun _ _ ends => ends) fun json => ?_
    split
    · rename_i user found
      rcases Option.bind_eq_some_iff.mp found with ⟨text, read, reads⟩
      refine secures_bind (secures_modify ?_ fun _ rightful => rightful) fun _ => ending
      rintro scope' ⟨rightful', tells⟩
      refine rightful'.caching ?_
      rintro _ ⟨⟩
      cases json with
      | error error => cases read
      | ok text' =>
          cases read
          exact (tells text rfl).2 user reads
    · exact ending.mono (fun _ holds => holds.1) fun _ _ ends => ends

theorem guards_userKey :
    (userKey : SessionM U Str).Guards rule (Scope.Rightful rule) fun userKey scope =>
      scope.Rightful rule ∧
        ∃ uid, userKey = userKeyOf uid ∧ rule.listed uid scope.session.info.sid := by
  have asked : (uid : SessionM U Nat).Guards rule (Scope.Rightful rule) fun uid scope =>
      scope.Rightful rule ∧ rule.listed uid scope.session.info.sid := by
    refine secures_bind guards_user fun user => ?_
    cases user with
    | none => exact secures_throw (fun _ holds => holds.1) _
    | some user =>
        refine (secures_pure (fun _ holds => holds.1) _).mono (fun _ holds => holds) ?_
        rintro uid scope ⟨⟨rightful, cached⟩, rfl⟩
        exact ⟨rightful, rule.lists _ user (rightful.user user cached)⟩
  refine secures_self fun scope rightful => ?_
  refine secures_bind (asked.mono (fun _ holds => holds.1) fun _ _ ends => ends) fun uid => ?_
  refine (secures_pure (fun _ holds => holds.1) _).mono (fun _ holds => holds) ?_
  rintro userKey scope' ⟨⟨rightful', listed⟩, rfl⟩
  exact ⟨rightful', uid, by rw [rightful.keyPrefix, userKeyOf], listed⟩

theorem guards_mapping :
    (mapping : SessionM U Bool).Guards rule (Scope.Rightful rule) fun _ =>
      Scope.Rightful rule := by
  refine secures_bind guards_userKey fun userKey => secures_self fun scope _ => ?_
  have adds : (Commands.sadd userKey scope.session.info.sid : SessionM U Bool).Guards rule
      (fun scope' => (scope'.Rightful rule ∧ ∃ uid, userKey = userKeyOf uid ∧
        rule.listed uid scope'.session.info.sid) ∧ scope'.session = scope.session)
      fun _ => Scope.Rightful rule := by
    apply secures_redis (fun _ holds => holds.1.1)
    · rintro scope' store ⟨⟨_, uid, rfl, listed⟩, same⟩ orderly
      rw [same] at listed
      exact orderly.sadd listed
    · exact fun _ _ holds _ => holds.1.1
  have week : mappingTtlSeconds ≠ 0 := by decide
  exact secures_bind adds fun _ => tame_redis week

theorem guards_unmapping :
    (unmapping : SessionM U Bool).Guards rule (Scope.Rightful rule) fun _ =>
      Scope.Rightful rule := by
  refine abides_self fun scope _ => ?_
  have asked := (secures_attempt guards_userKey).mono
    (fun scope (rightful : scope.Rightful rule) => rightful) fun _ _ ends => ends.1
  refine secures_bind asked fun userKey => ?_
  cases userKey with
  | ok userKey => exact tame_redis trivial
  | error error => exact abides_pure _

/-- The user field that a regenerated session starts with, by its filters, is for an entitled
user. -/
def Filters.Rightful (rule : Entitlement U) (filters : Filters) (scope : Scope U) : Prop :=
  ∀ text user, filters[defaultUserField]? = some (some text) →
    Serde.fromJson text = some user →
    rule.entitled scope.session.info.sid user

/-- The user field of some data is for an entitled user. -/
def Dict.Rightful (rule : Entitlement U) (data : Dict) (scope : Scope U) : Prop :=
  ∀ text user, data[defaultUserField]? = some text → Serde.fromJson text = some user →
    rule.entitled scope.session.info.sid user

theorem Filters.Rightful.apply {filters : Filters} {data : Dict}
    (filtered : filters.Rightful rule scope) (copied : Dict.Rightful rule data scope) :
    Dict.Rightful rule (applyFilters filters data) scope := by
  intro text user held reads
  rw [applyFilters_getElem?] at held
  cases named : filters[defaultUserField]? with
  | none =>
      rw [named] at held
      exact copied text user held reads
  | some change =>
      rw [named] at held
      cases held
      exact filtered text user named reads

variable {env : Env} {filters : Filters} {connection : Bool} {conf : AutoRenew}

theorem guards_load {data : Dict} :
    (load data : SessionM U Bool).Guards rule
      (fun scope => scope.Rightful rule ∧ Dict.Rightful rule data scope)
      fun _ => Scope.Rightful rule := by
  refine secures_self fun scope rightful => ?_
  split
  · exact secures_throw (fun _ holds => holds.1.1) _
  · apply secures_redis (fun _ holds => holds.1.1)
    · rintro scope' store ⟨⟨rightful', copied⟩, same⟩ orderly
      rw [← same, rightful'.key]
      change (store.write (sessionKey scope'.session.info.sid) (· ∪ data)).Orderly rule
      refine orderly.write fun text user held => ?_
      rw [Std.ExtTreeMap.getElem?_union] at held
      cases there : data[defaultUserField]? with
      | none =>
          left
          rwa [there, Option.none_or] at held
      | some text' =>
          right
          rw [there, Option.some_or] at held
          cases held
          exact copied text user there
    · exact fun _ _ holds _ => holds.1.1

theorem guards_sessionRenew :
    (sessionRenew env filters : SessionM U Bool).Guards rule
      (fun scope => scope.Renewable rule env ∧ filters.Rightful rule scope)
      fun _ => Scope.Rightful rule := by
  let copied (data : Dict) (scope : Scope U) : Prop :=
    scope.Renewable rule env ∧ Dict.Rightful rule (applyFilters filters data) scope
  have reading : (raw : SessionM U Dict).Guards rule
      (fun scope => scope.Renewable rule env ∧ filters.Rightful rule scope) copied := by
    refine secures_self fun scope _ => ?_
    refine secures_redis (fun _ holds => holds.1.1.toRightful) (.hgetall scope.session.key)
      (fun _ _ _ orderly => orderly) ?_
    rintro scope' store ⟨⟨renewable, filtered⟩, same⟩ orderly
    refine ⟨renewable, filtered.apply fun text user held reads => ?_⟩
    apply orderly.users scope'.session.info.sid user
    rw [← same, renewable.key] at held
    exact Option.bind_eq_some_iff.mpr ⟨text, held, reads⟩
  have changing (data : Dict) : (modify fun session =>
      { session with info := session.info.regenerate env }).Guards rule (copied data)
        fun _ scope => scope.Rightful rule ∧
          Dict.Rightful rule (applyFilters filters data) scope := by
    refine secures_modify ?_ fun _ holds => holds.1
    rintro scope ⟨renewable, holds⟩
    constructor
    · exact ⟨renewable.sidName, renewable.keyPrefix, renewable.userField,
        fun user cached => renewable.renews user _ (renewable.user user cached), renewable.root⟩
    · exact fun text user held reads => renewable.renews user _ (holds text user held reads)
  refine secures_bind reading fun data => secures_bind (changing data) fun _ => ?_
  split
  · exact (secures_pure (fun _ holds => holds.1) _).mono (fun _ holds => holds)
      fun _ _ ends => ends.1.1
  · exact secures_bind guards_load fun _ => guards_of_touched fun _ _ => moves_tryTouch trivial

theorem guards_userRenew :
    (userRenew env filters : SessionM U Bool).Guards rule
      (fun scope => scope.Renewable rule env ∧ filters.Rightful rule scope)
      fun _ => Scope.Rightful rule := by
  refine secures_bind guards_sessionRenew fun result => ?_
  have mapped := (secures_attempt guards_mapping).mono
    (fun scope (rightful : scope.Rightful rule) => rightful) fun _ _ ends => ends.1
  refine secures_bind (secures_modify ?_ fun _ rightful => rightful) fun _ =>
    secures_bind mapped fun _ => abides_pure _
  exact fun scope rightful => rightful.loaded false

theorem guards_renew :
    (renew connection env filters : SessionM U Bool).Guards rule
      (fun scope => scope.Renewable rule env ∧ filters.Rightful rule scope)
      fun _ => Scope.Rightful rule :=
  secures_renew guards_userRenew (abides_updateShadow fun _ => Scope.Rightful.root)

theorem guards_logIn (user : Option U) (ttlMinutes : Option UInt16) :
    (logIn connection env user ttlMinutes : SessionM U Bool).Guards rule
      (fun scope => scope.Renewable rule env ∧
        ∀ user', user = some user' → rule.entitled scope.session.info.sid user')
      fun _ => Scope.Rightful rule := by
  have preparing : (modify (prepareLogin user ttlMinutes)).Guards rule
      (fun scope => scope.Renewable rule env ∧
        ∀ user', user = some user' → rule.entitled scope.session.info.sid user')
      fun _ scope => scope.Renewable rule env := by
    refine secures_modify ?_ fun _ renewable => renewable.toRightful
    rintro scope ⟨renewable, asks⟩
    have sid : (scope.session.info.config ttlMinutes).sid = scope.session.info.sid :=
      Meta.config_sid _ _
    have sidName : (scope.session.info.config ttlMinutes).sidName = defaultIdName :=
      (Meta.config_sidName _ _).trans renewable.sidName
    cases user with
    | none =>
        refine ⟨⟨sidName, renewable.keyPrefix, renewable.userField, ?_, renewable.root⟩, ?_⟩
        · intro user cached
          rw [prepareLogin, sid]
          exact renewable.user user cached
        · intro user ttlMinutes' entitled
          rw [prepareLogin, sid] at entitled
          exact renewable.renews user ttlMinutes' entitled
    | some user =>
        refine ⟨⟨sidName, renewable.keyPrefix, renewable.userField, ?_, renewable.root⟩, ?_⟩
        · intro user' cached
          rw [prepareLogin, sid]
          exact asks user' cached
        · intro user ttlMinutes' entitled
          rw [prepareLogin, sid] at entitled
          exact renewable.renews user ttlMinutes' entitled
  refine secures_bind preparing fun _ => secures_self fun scope renewable => ?_
  have renewing : (attempt (renew connection env (loginFilters scope.session))).Guards rule
      (fun scope' => scope'.Renewable rule env ∧
        (loginFilters scope.session).Rightful rule scope') fun _ => Scope.Rightful rule :=
    (secures_attempt guards_renew).mono (fun _ holds => holds) fun _ _ ends => ends.1
  refine secures_bind (renewing.mono ?_ fun _ _ ends => ends) fun result => ?_
  · rintro scope' ⟨renewable', same⟩
    refine ⟨renewable', fun text user named reads => ?_⟩
    rw [loginFilters] at named
    cases cached : scope.session.userMeta.user with
    | none => simp [cached] at named
    | some user' =>
        rw [cached] at named
        simp only [Std.ExtTreeMap.getElem?_insert, renewable.userField] at named
        rw [if_pos (by simp)] at named
        rw [← same] at cached
        exact rule.rereads _ user' text user (renewable'.user user' cached)
          (Option.some.inj named) reads
  · cases result with
    | ok value =>
        exact tame_of_same fun _ _ =>
          moves_clonedDestroy (fun _ mild => mild.sparesUsers) fun _ _ => trivial
    | error error => exact abides_throw error

theorem guards_doClone (benign : ∀ scope : Scope U, filters.Rightful rule scope)
    (other : conf.newSidField ≠ defaultUserField) :
    (conf.doClone connection env filters : SessionM U Bool).Guards rule (Scope.Renewable rule env)
      fun _ => Scope.Rightful rule := by
  have renewing : (renew connection env filters).Guards rule (Scope.Renewable rule env)
      fun _ => Scope.Rightful rule :=
    guards_renew.mono (fun scope renewable => ⟨renewable, benign scope⟩) fun _ _ ends => ends
  refine secures_doClone (fun scope renewable => ⟨renewable.withClone _, renewable.renews⟩)
    (fun _ renewable => renewable.toRightful) renewing ?_
  exact tame_of_same fun _ _ => moves_marking (fun _ _ => trivial) fun _ _ => other

theorem guards_destroy :
    (destroy : SessionM U Bool).Guards rule (Scope.Rightful rule) fun _ =>
      Scope.Rightful rule :=
  secures_bind guards_unmapping fun _ => abides_self fun _ _ => tame_redis trivial

theorem guards_tryRenew (other : conf.newSidField ≠ defaultUserField) :
    (conf.tryRenew connection env : SessionM U Bool).Guards rule (Scope.Renewable rule env)
      fun _ => Scope.Rightful rule := by
  have mild (command : Cmd) (mild : command.Mild) := mild.sparesUsers
  have rightful (scope : Scope U) (renewable : scope.Renewable rule env) :
      scope.Rightful rule := renewable.toRightful
  refine secures_tryRenew rightful ?keeping ?asking ?cloning (fun newSid => ?succeeding)
    (fun _ _ renewable => renewable) ?judging ?givingUp ?dropping
  case keeping =>
    exact (guards_of_touched fun _ _ => moves_keepUsing trivial).mono rightful fun _ _ ends => ends
  case asking => exact tame_of_same fun _ _ => moves_silentGet mild _
  case cloning =>
    refine fun filters which => guards_doClone (fun scope text user named => ?_) other
    rcases which with rfl | rfl
    · simp at named
    · rw [Std.ExtTreeMap.getElem?_insert] at named
      split at named
      · cases named
      · simp at named
  case succeeding =>
    refine secures_cloneSuccessor (fun scope cloned renewable => ?_) rightful rightful
      (.inr trivial)
    exact ⟨renewable.withClone _, renewable.renews⟩
  case judging => exact tame_of_same fun _ _ => moves_successorIsActive mild conf
  case givingUp =>
    refine Secures.mono ?_ rightful fun _ _ ends => ends
    exact abides_bind guards_destroy fun _ => abides_self fun _ _ => abides_throw _
  case dropping => exact tame_of_same fun _ _ => moves_clonedDestroy mild fun _ _ => trivial

theorem guards_logout :
    (logout : SessionM U Bool).Guards rule (Scope.Rightful rule) fun _ =>
      Scope.Rightful rule := by
  refine secures_bind (guards_user.mono (fun _ holds => holds) fun _ _ ends => ends.1)
    fun user => ?_
  split
  · refine secures_bind guards_unmapping fun _ => secures_bind (secures_modify ?_
      fun _ rightful => rightful) fun _ => abides_self fun _ _ => tame_of_same fun _ _ =>
      moves_silentDel trivial
    exact fun scope rightful => rightful.caching (by rintro _ ⟨⟩)
  · exact abides_pure _

/-- The sids that a mapping set names may be listed for its user. -/
theorem guards_sids (uid : Nat) :
    (sids uid : SessionM U (List Str)).Guards rule (Scope.Rightful rule) fun sids scope =>
      scope.Rightful rule ∧ ∀ sid ∈ sids, rule.listed uid sid := by
  have live (userKey sid : Str) :
      (sidIsLive userKey sid : SessionM U Bool).Tame rule (Scope.Rightful rule) :=
    tame_of_same fun _ _ => moves_sidIsLive (fun _ mild => mild.sparesUsers) userKey sid
  have filtered (userKey : Str) (sids : List Str) : (filterM (sidIsLive userKey) sids :
      SessionM U (List Str)).Guards rule (Scope.Rightful rule) fun kept scope =>
        scope.Rightful rule ∧ ∀ sid ∈ kept, sid ∈ sids := by
    induction sids with
    | nil =>
        refine (secures_pure (fun _ holds => holds) []).mono (fun _ holds => holds) ?_
        rintro kept scope ⟨rightful, rfl⟩
        exact ⟨rightful, fun sid mem => mem⟩
    | cons sid sids ih =>
        refine secures_bind (live userKey sid) fun present => secures_bind ih fun kept => ?_
        refine (secures_pure (fun _ holds => holds.1) _).mono (fun _ holds => holds) ?_
        rintro all scope ⟨⟨rightful, within⟩, rfl⟩
        refine ⟨rightful, fun sid' mem => ?_⟩
        split at mem
        · rcases List.mem_cons.mp mem with rfl | later
          · exact List.mem_cons_self
          · exact List.mem_cons_of_mem _ (within sid' later)
        · exact List.mem_cons_of_mem _ (within sid' mem)
  let named (members : SidSet) (scope : Scope U) : Prop :=
    scope.Rightful rule ∧ ∀ sid ∈ members, rule.listed uid sid
  have reading : (allSid uid : SessionM U SidSet).Guards rule (Scope.Rightful rule) named := by
    refine secures_self fun scope rightful => ?_
    refine secures_redis (fun _ holds => holds.1)
      (.smembers (genUserKey scope.session.userMeta.keyPrefix uid))
      (fun _ _ _ orderly => orderly) ?_
    rintro scope' store ⟨rightful', _⟩ orderly
    refine ⟨rightful', fun sid mem => orderly.mapped uid sid ?_⟩
    rw [rightful.keyPrefix] at mem
    exact mem
  refine secures_bind reading fun members => secures_self fun scope holds => ?_
  refine (filtered _ members.toList).mono (fun _ holds => holds.1.1) ?_
  rintro sids scope' ⟨rightful', within⟩
  exact ⟨rightful', fun sid mem => holds.2 sid (Std.ExtTreeSet.mem_toList.mp (within sid mem))⟩

/-- A user is synchronized to the sessions that are listed for it. -/
theorem guards_sync (user : U)
    (synced : ∀ sid json user', rule.listed (UidGetter.id user) sid →
      Serde.toJson user = some json → Serde.fromJson json = some user' →
        rule.entitled sid user') :
    (sync user : SessionM U Bool).Guards rule (Scope.Rightful rule) fun _ =>
      Scope.Rightful rule := by
  unfold sync
  cases written : Serde.toJson user with
  | none => exact abides_throw _
  | some json =>
      have writing (sid : Str) (listed : rule.listed (UidGetter.id user) sid) :
          (syncSid json sid : SessionM U Unit).Guards rule (Scope.Rightful rule) fun _ =>
            Scope.Rightful rule := by
        refine secures_self fun scope rightful => ?_
        refine secures_bind (secures_redis (fun _ holds => holds.1) (.hset
          (genKey scope.session.info.sidName sid) scope.session.userMeta.userField json) ?_
          fun _ _ holds _ => holds.1) fun _ => abides_pure ()
        rintro scope' store _ orderly
        rw [rightful.sidName]
        change (store.write (sessionKey sid)
          (·.insert scope.session.userMeta.userField json)).Orderly rule
        refine orderly.write fun text user' held => ?_
        rw [rightful.userField, Std.ExtTreeMap.getElem?_insert, if_pos (by simp)] at held
        cases held
        exact Or.inr fun reads => synced sid json user' listed written reads
      have writings (sids : List Str)
          (listed : ∀ sid ∈ sids, rule.listed (UidGetter.id user) sid) :
          (forSids (syncSid json) sids : SessionM U Unit).Guards rule (Scope.Rightful rule)
            fun _ => Scope.Rightful rule := by
        induction sids with
        | nil => exact abides_pure ()
        | cons sid sids ih =>
            exact secures_bind (writing sid (listed sid List.mem_cons_self)) fun _ =>
              ih fun sid mem => listed sid (List.mem_cons_of_mem _ mem)
      refine secures_bind (guards_sids (UidGetter.id user)) fun sids => ?_
      rintro scope ⟨rightful, listed⟩
      exact secures_bind (writings sids listed) (fun _ => abides_pure true) scope rightful

end

end Dce.Session
