import Dce.Session.Sync

/-!
# A chain of sessions

A client works with one session object, or comes back with the sid that its last
request left, while logins and renewals change the sid. Seen through `get`, the chain of
hashes behind these sids is one plain map.
-/

namespace Dce.Session

open RedisSession

variable {U : Type} [UidGetter U] [Serde U]

/-- The object in the hands of a client, and the store. -/
structure Chain (U : Type) where
  session : RedisSession U
  store : Redis

/-- What a client does: a call, a new request with the sid it has, or nothing for a while. -/
inductive Request (U : Type) where
  | operate (operation : Operation U)
  | represent
  | elapse (seconds : Nat)

/-- The fields that belong to the application. -/
def IsApplication (field : Str) : Prop :=
  field ≠ defaultUserField ∧ field ≠ defaultNewSidField ∧ field ≠ defaultServerField

namespace Chain

/-- A session created by `new`. -/
def start (env : Env) (ttlMinutes : UInt16) (store : Redis) : Chain U :=
  ⟨RedisSession.new env ttlMinutes, store⟩

def step (chain : Chain U) : Request U → Chain U
  | .operate operation =>
      let final := (operation.program false).exec ⟨chain.session, none⟩ chain.store
      ⟨final.2.1.session, final.2.2⟩
  | .represent =>
      match RedisSession.newWithId chain.session.info.sid with
      | .ok session => { chain with session }
      | _ => chain
  | .elapse seconds => { chain with store := chain.store.tick seconds }

/-- A generated sid is not the one in use, and no hash is stored for it. -/
def Unused (chain : Chain U) (prepared : RedisSession U) (env : Env) : Prop :=
  newSid prepared env ≠ chain.session.info.sid ∧
    chain.store.fields (sessionKey (newSid prepared env)) = ∅

/-- The requests of a client while no key expires and every generated sid is fresh. A lifetime of
zero minutes lets a key expire at once. The marker of a renewal is left to `AutoRenew`. -/
def Admits (chain : Chain U) : Request U → Prop
  | .operate (.set field _) => field ≠ defaultNewSidField
  | .operate (.get _) | .operate (.del _) | .operate .logout => True
  | .operate (.login env user ttlMinutes) =>
      ttlMinutes ≠ 0 ∧
        chain.Unused (prepareLogin (some user) (some ttlMinutes) chain.session) env
  | .operate (.autoLogin env) => chain.Unused (prepareLogin none none chain.session) env
  | .operate (.tryRenew env conf) =>
      conf.newSidField = defaultNewSidField ∧
        (0 ≤ conf.due chain.session env → chain.Unused chain.session env)
  | .operate _ => False
  | .represent => True
  | .elapse seconds =>
      (chain.store.tick seconds).fields chain.session.key = chain.store.fields chain.session.key

/-- What a request does to a plain map. -/
def plainStep (plain : Dict) : Request U → Dict
  | .operate (.set field (some json)) => plain.insert field json
  | .operate (.del field) => plain.erase field
  | _ => plain

/-- What `get` finds in a plain map. -/
def plainGet (T : Type) [Serde T] (plain : Dict) (field : Str) : Outcome SessionErr T :=
  match plain[field]? with
  | some json =>
      match Serde.fromJson json with
      | some value => .ok value
      | none => .err .serde
  | none => .err (.redis .nil)

/-- The hash of the session in use holds the plain map, and no marker. -/
structure Simulates (chain : Chain U) (plain : Dict) : Prop where
  proper : chain.session.Proper
  lives : chain.session.info.ttlMinutes ≠ 0
  unmarked : (chain.store.fields (sessionKey chain.session.info.sid))[defaultNewSidField]? = none
  plain : ∀ field, IsApplication field →
    (chain.store.fields (sessionKey chain.session.info.sid))[field]? = plain[field]?

namespace Simulates

variable {chain : Chain U} {plain : Dict}

omit [UidGetter U] [Serde U] in
/-- A change of the object and of the store that keeps the sid and what is stored under it. -/
theorem of_fields (simulates : chain.Simulates plain) {later : Chain U} {plain' : Dict}
    (proper : later.session.Proper) (sid : later.session.info.sid = chain.session.info.sid)
    (unmarked : (later.store.fields
      (sessionKey chain.session.info.sid))[defaultNewSidField]? = none)
    (fields : ∀ field, IsApplication field →
      (later.store.fields (sessionKey chain.session.info.sid))[field]? = plain'[field]?) :
    later.Simulates plain' := by
  have ttl := proper.ttl
  rw [sid, simulates.proper.ttl, Outcome.ok.injEq] at ttl
  refine ⟨proper, ttl ▸ simulates.lives, ?_, ?_⟩
  · rw [sid]
    exact unmarked
  · rw [sid]
    exact fields

omit [UidGetter U] [Serde U] in
theorem fields_afterTouch (simulates : chain.Simulates plain) (store : Redis) (key : Str) :
    (chain.session.storeAfterTouch store).fields key = store.fields key := by
  have lives := simulates.lives
  rw [ne_eq, ← Meta.ttlSeconds_eq_zero] at lives
  rw [storeAfterTouch]
  split
  · rw [Redis.fields_expire, if_neg fun dead => lives dead.2]
  · rfl

omit [UidGetter U] [Serde U] in
/-- A touch that follows a change of the store. -/
theorem touched (simulates : chain.Simulates plain) {store : Redis} {plain' : Dict}
    (unmarked : (store.fields (sessionKey chain.session.info.sid))[defaultNewSidField]? = none)
    (fields : ∀ field, IsApplication field →
      (store.fields (sessionKey chain.session.info.sid))[field]? = plain'[field]?) :
    Simulates ⟨chain.session.afterTouch store, chain.session.storeAfterTouch store⟩ plain' := by
  refine simulates.of_fields (afterTouch_proper simulates.proper store) (afterTouch_sid ..) ?_ ?_
  · rw [simulates.fields_afterTouch]
    exact unmarked
  · intro field application
    rw [simulates.fields_afterTouch]
    exact fields field application

omit [UidGetter U] in
/-- A regeneration whose filters touch no field of the application and no marker. -/
theorem renewed (simulates : chain.Simulates plain) {prepared : RedisSession U} {env : Env}
    {filters : Filters} {later : Redis} (names : prepared.names = chain.session.names)
    (sid : prepared.info.sid = chain.session.info.sid) (lives : prepared.info.ttlMinutes ≠ 0)
    (passes : ∀ field, field ≠ defaultUserField → filters[field]? = none)
    (stored : later.fields (sessionKey (newSid prepared env)) =
      newborn prepared filters chain.store) :
    Simulates ⟨prepared.successor env filters chain.store, later⟩ plain := by
  have standard := names.trans simulates.proper.names
  have sidName : prepared.info.sidName = defaultIdName := congrArg Prod.fst standard
  have copied (field : Str) (other : field ≠ defaultUserField) :
      (later.fields (sessionKey (newSid prepared env)))[field]? =
        (chain.store.fields (sessionKey chain.session.info.sid))[field]? := by
    rw [stored, newborn, if_neg lives, copyOf, applyFilters_getElem?, passes field other, Core.key,
      sidName, sid, Option.getD_none, sessionKey]
  refine ⟨successor_proper standard, lives, ?_, fun field application => ?_⟩
  · exact (copied _ (by decide)).trans simulates.unmarked
  · exact (copied field application.1).trans (simulates.plain field application)

theorem logIn (simulates : chain.Simulates plain) (env : Env) (user : Option U)
    (ttlMinutes : Option UInt16) (lives : ttlMinutes ≠ some 0)
    (unused : chain.Unused (prepareLogin user ttlMinutes chain.session) env) :
    let final := (RedisSession.logIn false env user ttlMinutes).exec ⟨chain.session, none⟩
      chain.store
    Simulates ⟨final.2.1.session, final.2.2⟩ plain := by
  intro final
  let prepared := prepareLogin user ttlMinutes chain.session
  rcases exec_logIn ⟨chain.session, none⟩ chain.store false env user ttlMinutes with
    ⟨outcome, root, store', done, _, _, alone, _⟩
  have discarded := (alone rfl).2.2
  have names : prepared.names = chain.session.names := by
    cases user <;> cases ttlMinutes <;> rfl
  have standard : prepared.names = defaultNames := names.trans simulates.proper.names
  have userField : prepared.userMeta.userField = defaultUserField := congrArg (·.2.2.1) standard
  have keys : sessionKey (newSid prepared env) ≠ sessionKey chain.session.info.sid :=
    fun same => unused.1 (sessionKey_inj.mp same)
  simp only [final, done]
  refine simulates.renewed names (by cases ttlMinutes <;> rfl) ?_ ?_ ?_
  · cases ttlMinutes with
    | none => exact simulates.lives
    | some minutes => exact fun zero => lives (congrArg some zero)
  · intro field other
    exact loginFilters_getElem? prepared (by rwa [userField])
  · rw [discarded, loggedIn, simulates.proper.key, Redis.fields_del, if_neg keys]
    rw [fields_clonedUnmapped]
    exact (fields_succeeded standard _).trans (fields_copied_new standard _ unused.2)

/-- With no marker in the hash, a session that is due is cloned, and its clone is in use then. -/
theorem tryRenew (simulates : chain.Simulates plain) (env : Env) (conf : AutoRenew)
    (newSidField : conf.newSidField = defaultNewSidField)
    (unused : 0 ≤ conf.due chain.session env → chain.Unused chain.session env) :
    let final := (conf.tryRenew false env).exec ⟨chain.session, none⟩ chain.store
    Simulates ⟨final.2.1.session, final.2.2⟩ plain := by
  intro final
  rcases Int.lt_or_le (conf.due chain.session env) 0 with early | due
  · have done : (conf.tryRenew false env).exec ⟨chain.session, none⟩ chain.store = _ :=
      AutoRenew.exec_tryRenew_early false early
    simp only [final, done]
    exact simulates.touched simulates.unmarked simulates.plain
  · have unmarked : (chain.store.fields chain.session.key)[conf.newSidField]? = none := by
      rw [simulates.proper.key, newSidField]
      exact simulates.unmarked
    have keys : sessionKey (newSid (AutoRenew.cloning chain.session) env) ≠
        sessionKey chain.session.info.sid := fun same => (unused due).1 (sessionKey_inj.mp same)
    have names : (AutoRenew.cloning chain.session).names = defaultNames := simulates.proper.names
    rcases AutoRenew.exec_doClone conf false ⟨chain.session, none⟩ chain.store env ∅ with
      ⟨outcome, root, store', done, _, stored, alone⟩
    rcases stored with ⟨failed, _⟩ | ⟨_, stored, _⟩
    · exact absurd (alone rfl).1 failed
    have cloned : (conf.tryRenew false env).exec ⟨chain.session, none⟩ chain.store = _ :=
      AutoRenew.exec_tryRenew_unmarked false due unmarked
    simp only [final, cloned, done]
    refine simulates.renewed rfl rfl simulates.lives (fun field _ => by simp) ?_
    rw [stored, AutoRenew.marked, simulates.proper.key, Redis.fields_hset, if_neg keys,
      Redis.fields_expire, if_neg fun both => keys both.1]
    exact (fields_succeeded names _).trans (fields_copied_new names _ (unused due).2)

end Simulates

/-- Every request keeps the map that the client sees. -/
theorem step_simulates {chain : Chain U} {plain : Dict} (request : Request U)
    (simulates : chain.Simulates plain) (admitted : chain.Admits request) :
    (chain.step request).Simulates (plainStep plain request) := by
  have key := simulates.proper.key
  cases request with
  | operate operation =>
      cases operation with
      | set field json =>
          cases json with
          | none => exact simulates
          | some value =>
              simp only [step, Operation.program, exec_set, plainStep, key]
              refine simulates.touched ?_ fun other application => ?_
              · simpa [Std.ExtTreeMap.getElem?_insert,
                  show field ≠ defaultNewSidField from admitted]
                  using simulates.unmarked
              · by_cases same : field = other <;>
                  simp [Std.ExtTreeMap.getElem?_insert, same, simulates.plain other application]
      | get field =>
          simp only [step, Operation.program, SessionM.exec_bind, exec_get, plainStep]
          cases found : (chain.store.fields chain.session.key)[field]? with
          | none => exact simulates
          | some json =>
              cases (Serde.fromJson json : Option Json) <;>
                exact simulates.touched simulates.unmarked simulates.plain
      | del field =>
          have unmarked : ((chain.store.hdel chain.session.key field).fields
              (sessionKey chain.session.info.sid))[defaultNewSidField]? = none := by
            simp [key, Std.ExtTreeMap.getElem?_erase, simulates.unmarked]
          have erased : ∀ other, IsApplication other →
              ((chain.store.hdel chain.session.key field).fields
                (sessionKey chain.session.info.sid))[other]? = (plain.erase field)[other]? := by
            intro other application
            simp [key, Std.ExtTreeMap.getElem?_erase, simulates.plain other application]
          simp only [step, Operation.program, exec_del, plainStep]
          split
          · exact simulates.touched unmarked erased
          · exact simulates.of_fields simulates.proper rfl unmarked erased
      | login env user ttlMinutes =>
          exact simulates.logIn env (some user) (some ttlMinutes)
            (fun zero => admitted.1 (Option.some.inj zero)) admitted.2
      | autoLogin env => exact simulates.logIn env none none (by rintro ⟨⟩) admitted
      | logout =>
          simp only [step, Operation.program, exec_logout, plainStep]
          cases chain.session.loadedUser chain.store with
          | none =>
              exact simulates.of_fields ⟨simulates.proper.names, simulates.proper.ttl⟩ rfl
                simulates.unmarked simulates.plain
          | some user =>
              have fields (field : Str) (other : field ≠ defaultUserField) :
                  (((chain.session.unmapped chain.store).hdel chain.session.key
                    chain.session.userMeta.userField).fields
                      (sessionKey chain.session.info.sid))[field]? =
                  (chain.store.fields (sessionKey chain.session.info.sid))[field]? := by
                simp [key, simulates.proper.userField, Std.ExtTreeMap.getElem?_erase, other.symm]
              refine simulates.of_fields ⟨simulates.proper.names, simulates.proper.ttl⟩ rfl
                ((fields _ (by decide)).trans simulates.unmarked) fun field application => ?_
              exact (fields field application.1).trans (simulates.plain field application)
      | tryRenew env conf =>
          rcases admitted with ⟨newSidField, unused⟩
          have renewed := simulates.tryRenew env conf newSidField unused
          simp only [step, Operation.program, plainStep]
          exact renewed
      | renew | destroy | sync | disconnect => exact admitted.elim
  | represent =>
      simp only [step, plainStep]
      split
      · rename_i session made
        exact simulates.of_fields (newWithId_proper made) (newWithId_sid made) simulates.unmarked
          simulates.plain
      · exact simulates
  | elapse seconds =>
      have same : (chain.store.tick seconds).fields (sessionKey chain.session.info.sid) =
          chain.store.fields (sessionKey chain.session.info.sid) := by
        rw [← key]
        exact admitted
      refine simulates.of_fields simulates.proper rfl ?_ fun field application => ?_
      · exact (congrArg (·[defaultNewSidField]?) same).trans simulates.unmarked
      · exact (congrArg (·[field]?) same).trans (simulates.plain field application)

omit [UidGetter U] [Serde U] in
theorem start_simulates {env : Env} {ttlMinutes : UInt16} {store : Redis} (lives : ttlMinutes ≠ 0)
    (unused : store.fields (sessionKey (Meta.genId env ttlMinutes).1) = ∅) :
    (start env ttlMinutes store : Chain U).Simulates ∅ := by
  refine ⟨⟨rfl, Meta.parseTtl_genId env ttlMinutes⟩, lives, ?_, fun field _ => ?_⟩ <;>
    simp [start, RedisSession.new, Meta.new, unused]

/-- Whatever the requests were, `get` reads the field from the map they made. -/
theorem get_foldl (T : Type) [Serde T] {env : Env} {ttlMinutes : UInt16} {store : Redis}
    {requests : List (Request U)} {field : Str} (lives : ttlMinutes ≠ 0)
    (unused : store.fields (sessionKey (Meta.genId env ttlMinutes).1) = ∅)
    (admitted : AdmitsRun step Admits (start env ttlMinutes store) requests)
    (application : IsApplication field) :
    let chain := requests.foldl step (start env ttlMinutes store)
    ((RedisSession.get T field).exec ⟨chain.session, none⟩ chain.store).1 =
      plainGet T (requests.foldl plainStep ∅) field := by
  intro chain
  have simulates : chain.Simulates (requests.foldl plainStep ∅) :=
    admitted.simulation (fun _ _ request => step_simulates request) (start_simulates lives unused)
  rw [exec_get, simulates.proper.key, simulates.plain field application, plainGet]
  cases (requests.foldl plainStep ∅)[field]? <;> rfl

/-- A cart that survives a login and two renewals, the second after a new request. -/
theorem get_foldl_cart :
    let requests : List (Request Account) :=
      [.operate (.set "cart".toList (some "3".toList)),
        .operate (.login (.uniform 1 0x70000000 0x70000000) ⟨7, 1⟩ 30),
        .operate (.tryRenew (.uniform 2 0x70001000 0x70001000) AutoRenew.new),
        .represent,
        .operate (.tryRenew (.uniform 3 0x70002000 0x70002000) AutoRenew.new)]
    let chain := requests.foldl step (start (.uniform 0 0x70000000 0x70000000) 60 Redis.empty)
    ((RedisSession.get Json "cart".toList).exec ⟨chain.session, none⟩ chain.store).1 =
      plainGet Json (requests.foldl plainStep ∅) "cart".toList := by
  refine get_foldl Json (by decide) rfl ⟨?set, ⟨?lives, ?login⟩, ⟨rfl, fun _ => ?first⟩,
    trivial, ⟨rfl, fun _ => ?second⟩, trivial⟩ ?application
  case set => exact (by decide : "cart".toList ≠ defaultNewSidField)
  case lives => decide
  case login => exact ⟨by decide, Std.ExtTreeMap.isEmpty_iff.mp (by decide)⟩
  case first => exact ⟨by decide, Std.ExtTreeMap.isEmpty_iff.mp (by decide)⟩
  case second => exact ⟨by decide, Std.ExtTreeMap.isEmpty_iff.mp (by decide)⟩
  case application => exact ⟨by decide, by decide, by decide⟩

end Chain

end Dce.Session
