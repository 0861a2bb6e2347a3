import Dce.Session.Mapping

/-!
# Sync

Which runs keep the index complete, and which keep it sound. `sync` reaches every
session of a user in the former, and touches no other session in the latter.
-/

namespace Dce.Session

open RedisSession

variable {U : Type} [UidGetter U] [Serde U]

namespace Redis

variable {store : Redis} {sid : Str}

/-- A session that is removed leaves nothing to be listed. -/
theorem Complete.dismiss (complete : store.Complete U) (userKey : Str) :
    ((store.del (sessionKey sid)).srem userKey sid).Complete U := by
  have anonymous : (store.del (sessionKey sid)).userAt U sid = none := by simp [userAt]
  exact (complete.shrinks (shrinks_del _ _) (Keeps.refl _)).srem anonymous userKey

end Redis

omit [Serde U] in
theorem clonedUnmapped_cases (cloned : Core U) (store : Redis) :
    clonedUnmapped cloned store = store ∨
      ∃ userKey, clonedUnmapped cloned store = store.srem userKey cloned.info.sid := by
  rw [clonedUnmapped]
  split
  · exact .inr ⟨_, rfl⟩
  · exact .inl rfl

theorem unmapped_cases (session : RedisSession U) (store : Redis) :
    session.unmapped store = store ∨
      ∃ userKey, session.actingKey store = some userKey ∧
        session.unmapped store = store.srem userKey session.info.sid := by
  rw [unmapped]
  split
  · rename_i userKey acting
    exact .inr ⟨userKey, acting, rfl⟩
  · exact .inl rfl

omit [UidGetter U] [Serde U] in
/-- What holds before a sync of some sids and is kept by each of its writes holds after it. -/
theorem synced_induction (property : Redis → Prop) {session : RedisSession U} {json : Str}
    (proper : session.Proper) {sids : List Str} {store : Redis}
    (step : ∀ store sid, sid ∈ sids → property store →
      property (store.hset (sessionKey sid) defaultUserField json))
    (holds : property store) : property (session.synced json sids store) := by
  induction sids generalizing store with
  | nil => exact holds
  | cons sid sids ih =>
      rw [synced, proper.sidName, proper.userField]
      exact ih (fun store sid member => step store sid (List.mem_cons_of_mem _ member))
        (step store sid List.mem_cons_self holds)

omit [UidGetter U] [Serde U] in
theorem isLive_iff_stored {session : RedisSession U} (proper : session.Proper) (store : Redis)
    (sid : Str) : session.isLive store sid = true ↔ store.Stored sid := by
  rw [isLive, proper.sidName, Redis.Stored, ← sessionKey]
  have empty := store.isEmpty_fields_iff (sessionKey sid)
  rw [Std.ExtTreeMap.isEmpty_iff] at empty
  rw [ne_eq, empty, Option.isSome_iff_ne_none]

/-- What a sync of a user leaves. -/
def syncedStore (session : RedisSession U) (uid : Nat) (json : Str) (store : Redis) : Redis :=
  session.synced json (((store.members (userKeyOf uid)).toList).filter (session.isLive store))
    (session.pruned (userKeyOf uid) (store.members (userKeyOf uid)).toList store)

omit [UidGetter U] [Serde U] in
/-- A sync goes through the live sids of its user, which stay in the mapping set. -/
theorem mapped_pruned {session : RedisSession U} {uid : Nat} {store : Redis} {sid : Str}
    (member : sid ∈ ((store.members (userKeyOf uid)).toList).filter (session.isLive store)) :
    (session.pruned (userKeyOf uid) (store.members (userKeyOf uid)).toList store).Mapped uid sid ∧
      store.Mapped uid sid ∧ session.isLive store sid = true := by
  rw [List.mem_filter, Std.ExtTreeSet.mem_toList] at member
  refine ⟨(mem_members_pruned ..).mpr ⟨member.1, ?_⟩, member⟩
  rintro ⟨_, _, dead⟩
  rw [member.2] at dead
  cases dead

theorem complete_synced {session : RedisSession U} (proper : session.Proper) {store : Redis}
    (complete : store.Complete U) {user : U} {json : Str}
    (reads : ∀ read : U, Serde.fromJson json = some read →
      UidGetter.id read = UidGetter.id user) :
    (syncedStore session (UidGetter.id user) json store).Complete U := by
  let sids := ((store.members (userKeyOf (UidGetter.id user))).toList).filter (session.isLive store)
  have pruned : (session.pruned (userKeyOf (UidGetter.id user))
      (store.members (userKeyOf (UidGetter.id user))).toList store).Complete U := by
    intro uid sid loggedIn
    have was : store.LoggedIn U uid sid :=
      (Redis.loggedIn_of_userAt_eq (by simp [Redis.userAt])).mp loggedIn
    refine (mem_members_pruned ..).mpr ⟨complete uid sid was, ?_⟩
    rintro ⟨_, _, dead⟩
    rw [(isLive_iff_stored proper store sid).mpr was.stored] at dead
    cases dead
  refine (synced_induction (fun store => store.Complete U ∧
    ∀ sid ∈ sids, store.Mapped (UidGetter.id user) sid) proper ?_
    ⟨pruned, fun sid member => (mapped_pruned member).1⟩).1
  intro store sid member holds
  refine ⟨holds.1.hset fun _ read readEq => ?_,
    fun other otherMember => holds.2 other otherMember⟩
  rw [reads read readEq]
  exact holds.2 sid member

/-- What an operation may not do if the index is to stay complete. -/
structure MayComplete (scope : Scope U) (store : Redis) (operation : Operation U) : Prop where
  /-- A user that is set by hand has the sid in its mapping set already. -/
  set : ∀ value, operation = .set defaultUserField (some value) → ∀ user : U,
    Serde.fromJson value = some user → store.Mapped (UidGetter.id user) scope.session.info.sid
  /-- A user that is synced reads back with its id. -/
  sync : ∀ user json, operation = .sync user → Serde.toJson user = some json →
    ∀ read : U, Serde.fromJson json = some read → UidGetter.id read = UidGetter.id user
  /-- The marker of a renewal is not the user field. -/
  marker : ∀ env conf, operation = .tryRenew env conf → conf.newSidField ≠ defaultUserField

theorem Effect.complete {connection : Bool} {scope scope' : Scope U} {store store' : Redis}
    {operation : Operation U}
    (effect : Effect connection scope store operation scope' store')
    (proper : scope.session.Proper) (may : MayComplete scope store operation)
    (complete : store.Complete U) : store'.Complete U := by
  have afterTouch {session : RedisSession U} {store : Redis} (complete : store.Complete U) :
      (session.storeAfterTouch store).Complete U :=
    complete.shrinks (Redis.shrinks_storeAfterTouch _ _) fun key sid => by simp
  have renewed {operation : Operation U} {prepared : RedisSession U} {env : Env}
      {filters : Filters} {before : Redis} {redirecting : Bool} {root : Option (RedisSession U)}
      (how : Regenerates scope store operation prepared env filters before) :
      (prepared.renewedStore redirecting root env filters before).Complete U := by
    refine complete_renewedStore (how.names.trans proper.names) ?_
    cases how with
    | replace => exact complete.shrinks (Redis.shrinks_del _ _) (Redis.Keeps.refl _)
    | _ => exact complete
  cases effect with
  | unchanged | loaded => exact complete
  | touched => exact afterTouch complete
  | @set field value =>
      refine afterTouch ?_
      rw [proper.key]
      refine complete.hset ?_
      rintro rfl
      exact may.set value rfl
  | del =>
      refine afterTouch ?_
      rw [proper.key]
      exact complete.hdel
  | delAbsent =>
      rw [proper.key]
      exact complete.hdel
  | regenerated how => exact renewed how
  | loggedIn how =>
      rw [RedisSession.loggedIn, proper.key]
      rcases clonedUnmapped_cases scope.session.toCore _ with same | ⟨userKey, unlisted⟩
      · rw [same]
        exact (renewed how).shrinks (Redis.shrinks_del _ _) (Redis.Keeps.refl _)
      · rw [unlisted]
        exact (renewed how).dismiss userKey
  | @marked conf prepared env filters before root how =>
      rw [AutoRenew.marked, proper.key]
      refine ((renewed how).shrinks (Redis.shrinks_expire _ _ _) fun key sid => by simp).hset ?_
      exact fun named => absurd named (may.marker env conf rfl)
  | loggedOut =>
      rw [proper.key, proper.userField]
      rcases unmapped_cases scope.session store with same | ⟨userKey, _, unlisted⟩
      · rw [same]
        exact complete.hdel
      · rw [unlisted]
        exact complete.hdel.srem (by simp [Redis.userAt_hdel]) userKey
  | destroyed =>
      rw [AutoRenew.destroyed, proper.key]
      rcases unmapped_cases scope.session store with same | ⟨userKey, _, unlisted⟩
      · rw [same]
        exact complete.shrinks (Redis.shrinks_del _ _) (Redis.Keeps.refl _)
      · rw [unlisted]
        exact complete.dismiss userKey
  | @synced user json written =>
      have userKey : genUserKey scope.session.userMeta.keyPrefix (UidGetter.id user) =
          userKeyOf (UidGetter.id user) := by rw [proper.keyPrefix, userKeyOf]
      rw [userKey]
      exact complete_synced proper complete (may.sync user json rfl written)
  | unbound =>
      rw [proper.key]
      exact complete.hdel

/-- What an operation may not do if the index is to stay sound. -/
structure MaySound (connection : Bool) (scope : Scope U) (store : Redis)
    (operation : Operation U) : Prop where
  /-- A write to a listed sid neither revives it nor gives it another user. -/
  set : ∀ field value, operation = .set field (some value) →
    ∀ uid, store.Mapped uid scope.session.info.sid → if field = defaultUserField then
      ∃ user : U, Serde.fromJson value = some user ∧ UidGetter.id user = uid
      else store.Stored scope.session.info.sid
  /-- The user of a listed session is not deleted by hand. -/
  del : operation = .del defaultUserField → store.Stored scope.session.info.sid →
    ∀ uid, ¬store.Mapped uid scope.session.info.sid
  /-- Who logs out acts for the user that the session holds. -/
  logout : operation = .logout →
    ∀ acting held : U, scope.session.loadedUser store = some acting →
    store.userAt U scope.session.info.sid = some held → UidGetter.id acting = UidGetter.id held
  /-- A user that is synced reads back with its id. -/
  sync : ∀ user json, operation = .sync user → Serde.toJson user = some json →
    ∃ read : U, Serde.fromJson json = some read ∧ UidGetter.id read = UidGetter.id user
  /-- A new sid is fresh, and its new hash holds the user it is mapped for. -/
  renew : ∀ prepared env filters before,
    Regenerates scope store operation prepared env filters before →
    newSid prepared env ≠ scope.session.info.sid ∧ store.Fresh (newSid prepared env) ∧
      Agreeing prepared filters (binds (redirects connection scope.session) scope.root) before
  /-- A renewal writes its marker, which is not the user field, into no listed sid without a
  hash. -/
  marker : ∀ env conf, operation = .tryRenew env conf → ∀ prepared filters before,
    Regenerates scope store operation prepared env filters before →
    (redirects connection scope.session = true →
      Redirectable (newSid prepared env) scope.root) →
    conf.newSidField ≠ defaultUserField ∧ ∀ uid, store.Mapped uid scope.session.info.sid →
      before.Stored scope.session.info.sid ∧ scope.session.info.ttlMinutes ≠ 0

theorem sound_synced {session : RedisSession U} (proper : session.Proper) {store : Redis}
    (sound : store.Sound U) {user : U} {json : Str}
    (reads : ∃ read : U, Serde.fromJson json = some read ∧
      UidGetter.id read = UidGetter.id user) :
    (syncedStore session (UidGetter.id user) json store).Sound U := by
  let sids := ((store.members (userKeyOf (UidGetter.id user))).toList).filter (session.isLive store)
  have pruned : (session.pruned (userKeyOf (UidGetter.id user))
      (store.members (userKeyOf (UidGetter.id user))).toList store).Sound U := by
    refine sound.shrinks (fun key => .inl (by simp)) fun key sid member => ?_
    exact ((mem_members_pruned ..).mp member).1
  refine (synced_induction (fun store => store.Sound U ∧
    ∀ sid ∈ sids, store.Mapped (UidGetter.id user) sid ∧ store.Stored sid) proper ?_
    ⟨pruned, fun sid member => ⟨(mapped_pruned member).1, ?_⟩⟩).1
  · intro store sid member holds
    refine ⟨holds.1.hset fun uid mapped => ?_, fun other otherMember => ?_⟩
    · rw [if_pos rfl, holds.1.unique mapped (holds.2 sid member).1 (holds.2 sid member).2]
      exact reads
    · have was := holds.2 other otherMember
      exact ⟨was.1, (Redis.stored_hset other).mpr (.inr was.2)⟩
  · simpa [Redis.Stored] using (isLive_iff_stored proper store sid).mp (mapped_pruned member).2.2

omit [UidGetter U] [Serde U] in
theorem Redis.Fresh.shrinks {store store' : Redis} {sid : Str} (fresh : store.Fresh sid)
    (shrinks : store.Shrinks store') (keeps : store'.Keeps store) : store'.Fresh sid := by
  refine ⟨?_, fun uid mapped => fresh.unmapped uid (keeps _ _ mapped)⟩
  rcases shrinks (sessionKey sid) with same | gone
  · exact same.trans fresh.unstored
  · exact gone

theorem Effect.sound {connection : Bool} {scope scope' : Scope U} {store store' : Redis}
    {operation : Operation U}
    (effect : Effect connection scope store operation scope' store')
    (proper : scope.session.Proper) (may : MaySound connection scope store operation)
    (sound : store.Sound U) : store'.Sound U := by
  have afterTouch {session : RedisSession U} {store : Redis} (sound : store.Sound U) :
      (session.storeAfterTouch store).Sound U :=
    sound.shrinks (Redis.shrinks_storeAfterTouch _ _) fun key sid => by simp
  have shrunk {operation : Operation U} {prepared : RedisSession U} {env : Env}
      {filters : Filters} {before : Redis}
      (how : Regenerates scope store operation prepared env filters before) :
      store.Shrinks before ∧ before.members = store.members := by
    cases how with
    | replace => exact ⟨Redis.shrinks_del _ _, rfl⟩
    | _ => exact ⟨Redis.Shrinks.refl _, rfl⟩
  have renewed {prepared : RedisSession U} {env : Env} {filters : Filters} {before : Redis}
      (how : Regenerates scope store operation prepared env filters before) :
      (prepared.renewedStore (redirects connection scope.session) scope.root env filters
        before).Sound U := by
    rcases may.renew _ _ _ _ how with ⟨_, fresh, agreeing⟩
    rcases shrunk how with ⟨shrinks, members⟩
    have keeps : before.Keeps store := fun key sid => by simp [members]
    exact sound_renewedStore (how.names.trans proper.names) (sound.shrinks shrinks keeps)
      (fresh.shrinks shrinks keeps) agreeing
  cases effect with
  | unchanged | loaded => exact sound
  | touched => exact afterTouch sound
  | @set field value =>
      refine afterTouch ?_
      rw [proper.key]
      exact sound.hset (may.set field value rfl)
  | @del field =>
      refine afterTouch ?_
      rw [proper.key]
      exact sound.hdel fun named => may.del (by rw [named])
  | @delAbsent field =>
      rw [proper.key]
      exact sound.hdel fun named => may.del (by rw [named])
  | regenerated how => exact renewed how
  | loggedIn how =>
      rw [RedisSession.loggedIn, proper.key]
      refine Redis.Sound.shrinks ?_ (Redis.shrinks_del _ _) (Redis.Keeps.refl _)
      rcases clonedUnmapped_cases scope.session.toCore _ with same | ⟨userKey, unlisted⟩
      · rw [same]
        exact renewed how
      · rw [unlisted]
        exact (renewed how).srem userKey
  | @marked conf prepared env filters before root how _ adopted =>
      have names := how.names.trans proper.names
      rcases may.renew _ _ _ _ how with ⟨other, _, _⟩
      rcases may.marker env conf rfl _ _ _ how adopted with ⟨notUser, revives⟩
      rw [AutoRenew.marked, proper.key]
      refine ((renewed how).shrinks (Redis.shrinks_expire _ _ _) fun key sid => by simp).hset ?_
      intro uid mapped
      rw [if_neg notUser]
      have mappedBefore : store.Mapped uid scope.session.info.sid := by
        rw [Redis.Mapped, Redis.members_expire, ← Redis.Mapped,
          mapped_renewedStore_other names other.symm] at mapped
        rwa [Redis.Mapped, (shrunk how).2] at mapped
      rcases revives uid mappedBefore with ⟨stored, lives⟩
      exact stored_expire_renewedStore names other stored lives
  | @loggedOut user loaded =>
      have acting : scope.session.actingKey store = some (userKeyOf (UidGetter.id user)) := by
        rw [actingKey, loaded, Option.map_some, proper.keyPrefix, userKeyOf]
      rw [proper.key, proper.userField, unmapped, acting]
      refine (sound.srem _).hdel fun _ stored uid mapped => ?_
      rw [Redis.Mapped, Redis.mem_members_srem] at mapped
      rcases sound uid _ mapped.1 stored with ⟨held, read, rfl⟩
      exact mapped.2 ⟨by rw [may.logout rfl user held loaded read], rfl⟩
  | destroyed =>
      rw [AutoRenew.destroyed]
      refine Redis.Sound.shrinks ?_ (Redis.shrinks_del _ _) (Redis.Keeps.refl _)
      rcases unmapped_cases scope.session store with same | ⟨userKey, _, unlisted⟩
      · rw [same]
        exact sound
      · rw [unlisted]
        exact sound.srem userKey
  | @synced user json written =>
      have userKey : genUserKey scope.session.userMeta.keyPrefix (UidGetter.id user) =
          userKeyOf (UidGetter.id user) := by rw [proper.keyPrefix, userKeyOf]
      rw [userKey]
      exact sound_synced proper sound (may.sync user json rfl written)
  | unbound =>
      rw [proper.key, proper.serverField]
      exact sound.hdel fun named => absurd named (by decide)

namespace System

/-- A step that keeps the index complete: no mapping set expires under a session that stays. -/
def KeepsComplete (system : System U) : Action U → Prop
  | .operate index operation faults =>
      faults = noFaults ∧ ∀ session, system.objects index = some session →
        MayComplete (system.scope session) system.store operation
  | .tick seconds =>
      ∀ sid (user : U), (system.store.tick seconds).userAt U sid = some user →
        (system.store.set? (userKeyOf (UidGetter.id user))).isSome →
        ((system.store.tick seconds).set? (userKeyOf (UidGetter.id user))).isSome
  | _ => True

/-- A step that keeps the index sound. -/
def KeepsSound (connection : Bool) (system : System U) : Action U → Prop
  | .operate index operation faults =>
      faults = noFaults ∧ ∀ session, system.objects index = some session →
        MaySound connection (system.scope session) system.store operation
  | _ => True

/-- The index is complete, and a sync that went well left the new user in every session that was
logged in with its id. -/
def SyncReaches (system : System U) : Prop :=
  system.store.Complete U ∧
    ∀ index session user outcome scope' store', system.objects index = some session →
      (RedisSession.sync user).exec (system.scope session) system.store =
        (outcome, scope', store') → outcome = .ok true →
      ∀ sid, system.store.LoggedIn U (UidGetter.id user) sid →
        ∃ json, Serde.toJson user = some json ∧
          (store'.fields (sessionKey sid))[defaultUserField]? = some json

/-- The index is sound, and a sync changes only sessions that are logged in with its id. -/
def SyncSpares (system : System U) : Prop :=
  system.store.Sound U ∧
    ∀ index session user outcome scope' store', system.objects index = some session →
      (RedisSession.sync user).exec (system.scope session) system.store =
        (outcome, scope', store') →
      ∀ key, store'.fields key ≠ system.store.fields key →
        ∃ sid, key = sessionKey sid ∧ system.store.LoggedIn U (UidGetter.id user) sid

variable {connection : Bool} {system : System U}

theorem complete_of_reachable
    (reached : Reachable (System.step connection) KeepsComplete Initial system) :
    system.Holds (Redis.Complete U) := by
  refine reached.invariant ?_ ?_
  · rintro _ rfl
    exact holds_start fun uid sid loggedIn => absurd rfl loggedIn.stored
  · intro system action holds admitted
    refine holds.step action ?_ ?_ ?_
    · cases action with
      | operate => exact admitted.1
      | _ => trivial
    · rintro index operation session scope' store' rfl found effect
      exact effect.complete (holds.proper index session found) (admitted.2 session found)
        holds.store
    · rintro seconds rfl uid sid ⟨user, read, rfl⟩
      have shrinks := Redis.shrinks_tick system.store seconds
      have same := (shrinks.stored U (Redis.stored_of_userAt read)).2
      have mapped := holds.store (UidGetter.id user) sid ⟨user, same ▸ read, rfl⟩
      rw [Redis.Mapped, Redis.members_tick _ _
        (admitted sid user read (Redis.isSome_set?_of_mem mapped))]
      exact mapped

theorem sound_of_reachable
    (reached : Reachable (System.step connection) (KeepsSound connection) Initial system) :
    system.Holds (Redis.Sound U) := by
  refine reached.invariant ?_ ?_
  · rintro _ rfl
    exact holds_start fun uid sid mapped stored => absurd rfl stored
  · intro system action holds admitted
    refine holds.step action ?_ ?_ ?_
    · cases action with
      | operate => exact admitted.1
      | _ => trivial
    · rintro index operation session scope' store' rfl found effect
      exact effect.sound (holds.proper index session found) (admitted.2 session found) holds.store
    · rintro seconds rfl
      refine holds.store.shrinks (Redis.shrinks_tick _ _) fun key sid member => ?_
      rwa [Redis.members_tick _ _ (Redis.isSome_set?_of_mem member)] at member

/-- What a sync does, in the terms of this module. -/
theorem exec_sync_eq {session : RedisSession U} (proper : session.Proper) {scope : Scope U}
    (of : scope.session = session) (store : Redis) (user : U) :
    (RedisSession.sync user).exec scope store =
      match Serde.toJson user with
      | none => (.err .serde, scope, store)
      | some json => (.ok true, scope, syncedStore session (UidGetter.id user) json store) := by
  subst of
  rw [exec_sync, proper.keyPrefix]
  rfl

omit [UidGetter U] [Serde U] in
theorem fields_syncedStore {session : RedisSession U} (proper : session.Proper) (uid : Nat)
    (json : Str) (store : Redis) (key : Str) :
    (syncedStore session uid json store).fields key =
      if ∃ sid ∈ ((store.members (userKeyOf uid)).toList).filter (session.isLive store),
          sessionKey sid = key then
        (store.fields key).insert defaultUserField json
      else store.fields key := by
  rw [syncedStore, fields_synced, proper.sidName, proper.userField, fields_pruned]
  rfl

omit [UidGetter U] [Serde U] in
theorem mem_synced {session : RedisSession U} (proper : session.Proper) {uid : Nat}
    {store : Redis} {sid : Str} :
    sid ∈ ((store.members (userKeyOf uid)).toList).filter (session.isLive store) ↔
      store.Mapped uid sid ∧ store.Stored sid := by
  rw [List.mem_filter, Std.ExtTreeSet.mem_toList, isLive_iff_stored proper, Redis.Mapped]

/-- In a run of such steps, `sync` reaches every session of a user. -/
theorem sync_reaches
    (reached : Reachable (System.step connection) KeepsComplete Initial system) :
    SyncReaches system := by
  have holds := complete_of_reachable reached
  refine ⟨holds.store, ?_⟩
  intro index session user outcome scope' store' found done ok sid loggedIn
  have proper := holds.proper index session found
  rw [exec_sync_eq proper rfl] at done
  cases written : Serde.toJson user with
  | none =>
      simp only [written, Prod.mk.injEq] at done
      rw [← done.1] at ok
      cases ok
  | some json =>
      simp only [written, Prod.mk.injEq] at done
      refine ⟨json, rfl, ?_⟩
      have member := (mem_synced proper).mpr ⟨holds.store _ sid loggedIn, loggedIn.stored⟩
      rw [← done.2.2, fields_syncedStore proper, if_pos ⟨sid, member, rfl⟩]
      simp

/-- A session that outlives the mapping set of its user by many days. -/
def outlivingRun : List (Action Account) :=
  [.new (.uniform 0 0x70000000 0x70000000) 60,
    .operate 0 (.login (.uniform 1 0x70000000 0x70000000) ⟨7, 1⟩ 65535) noFaults,
    .tick 604800]

/-- Nothing touches a mapping set after the login that wrote it, whatever the lifetime of the
session. -/
theorem not_sync_reaches :
    ¬∀ system : System Account, Reachable (System.step false) (fun _ action => action.Faultless)
      Initial system → SyncReaches system := by
  intro claim
  have reaches := (claim (after false outlivingRun)
    (reachable_after outlivingRun ⟨trivial, rfl, trivial, trivial⟩)).2
  rcases reaches 0 (((after false outlivingRun).objects 0).get (by decide)) ⟨7, 2⟩ _ _ _
    (Option.some_get _).symm rfl (by decide) (List.replicate 64 '1' ++ "FFFF70000000".toList)
    ⟨⟨7, 1⟩, by decide, rfl⟩ with ⟨json, written, held⟩
  exact absurd (held.trans written.symm) (by decide)

/-- A sync shortly before the mapping set would expire. -/
def reachingRun : List (Action Account) :=
  outlivingRun.take 2 ++ [.tick 604799, .operate 0 (.sync ⟨7, 2⟩) noFaults]

/-- The login is in the only mapping set. -/
theorem userKey_of_set {key : Str}
    (listed : ((after false (outlivingRun.take 2)).store.set? key).isSome) :
    key = userKeyOf 7 := by
  by_contra other
  have absent : (after false (outlivingRun.take 2)).store.sets key = none := by
    change @Function.update Str (fun _ => Option SetEntry) _ _ _ _ key = none
    refine (Function.update_of_ne (fun same => other (same.trans (by decide))) _ _).trans ?_
    change @Function.update Str (fun _ => Option SetEntry) _ _ _ _ key = none
    exact Function.update_of_ne (fun same => other (same.trans (by decide))) _ _
  simp [Redis.set?, absent] at listed

/-- While the mapping set lives, a sync reaches the session. -/
theorem sync_reaches_login : SyncReaches (after false reachingRun) := by
  have login (scope : Scope Account) (store : Redis) : MayComplete scope store
      (.login (.uniform 1 0x70000000 0x70000000) ⟨7, 1⟩ 65535) := by
    refine ⟨fun _ same => ?_, fun _ _ same => ?_, fun _ _ same => ?_⟩ <;> cases same
  have sync (scope : Scope Account) (store : Redis) :
      MayComplete scope store (.sync ⟨7, 2⟩) := by
    refine ⟨fun _ same => ?_, ?_, fun _ _ same => ?_⟩
    · cases same
    · rintro user json ⟨⟩ written read same
      have known :
          (Serde.fromJson (Account.write ⟨7, 2⟩) : Option Account) = some ⟨7, 2⟩ := by
        decide
      cases written
      cases known.symm.trans same
      rfl
    · cases same
  refine sync_reaches (reachable_after reachingRun ⟨trivial, ⟨rfl, fun _ _ => login _ _⟩, ?_,
    ⟨rfl, fun _ _ => sync _ _⟩, trivial⟩)
  intro sid user _ listed
  rw [userKey_of_set listed]
  decide

/-- In a run of such steps, `sync` logs nobody in. -/
theorem sync_spares
    (reached : Reachable (System.step connection) (KeepsSound connection) Initial system) :
    SyncSpares system := by
  have holds := sound_of_reachable reached
  refine ⟨holds.store, ?_⟩
  intro index session user outcome scope' store' found done key changed
  have proper := holds.proper index session found
  rw [exec_sync_eq proper rfl] at done
  cases written : Serde.toJson user with
  | none =>
      simp only [written, Prod.mk.injEq] at done
      rw [← done.2.2] at changed
      exact absurd rfl changed
  | some json =>
      simp only [written, Prod.mk.injEq] at done
      rw [← done.2.2, fields_syncedStore proper] at changed
      split at changed
      · rename_i listed
        rcases listed with ⟨sid, member, rfl⟩
        rcases (mem_synced proper).mp member with ⟨mapped, stored⟩
        exact ⟨sid, rfl, holds.store _ sid mapped stored⟩
      · exact absurd rfl changed

/-- A session is logged out by another request, then renewed by an object that still has the
user. -/
def strayRun : List (Action Account) :=
  [.new (.uniform 0 0x70000000 0x70000000) 60,
    .operate 0 (.login (.uniform 1 0x70000000 0x70000000) ⟨7, 1⟩ 60) noFaults,
    .operate 0 (.set "cart".toList (some "3".toList)) noFaults,
    .newWithId (List.replicate 64 '1' ++ "003C70000000".toList),
    .operate 1 .logout noFaults,
    .operate 0 (.renew (.uniform 2 0x70000000 0x70000000) ∅) noFaults]

/-- A reload that finds no user keeps the old one, which the new sid is then mapped for. -/
theorem not_sync_spares :
    ¬∀ system : System Account, Reachable (System.step false) (fun _ action => action.Faultless)
      Initial system → SyncSpares system := by
  intro claim
  have spares := (claim (after false strayRun)
    (reachable_after strayRun ⟨trivial, rfl, rfl, trivial, rfl, rfl, trivial⟩)).2
  let stray : Str := List.replicate 64 '2' ++ "003C70000000".toList
  rcases spares 0 (((after false strayRun).objects 0).get (by decide)) ⟨7, 1⟩ _ _ _
    (Option.some_get _).symm rfl (sessionKey stray)
    (fun same => absurd (congrArg (·[defaultUserField]?) same) (by decide)) with
    ⟨sid, key, user, read, _⟩
  rw [← sessionKey_inj.mp key] at read
  exact absurd (show (after false strayRun).store.userAt Account stray = none by decide)
    (by simp [read])

/-- A sync after the login of the run above changes that session only. -/
theorem sync_spares_login : SyncSpares (after false (strayRun.take 2)) := by
  refine sync_spares (reachable_after (strayRun.take 2)
    ⟨trivial, ⟨rfl, ?_⟩, trivial⟩)
  rintro session ⟨⟩
  refine ⟨nofun, nofun, nofun, nofun, ?_, nofun⟩
  intro prepared env filters before how
  cases how
  exact ⟨by decide, ⟨rfl, fun uid mapped => nomatch mapped⟩, .inl (by decide)⟩

end System

end Dce.Session
