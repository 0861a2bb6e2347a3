import Dce.Session.Sync

/-!
# The expiry of sessions

A session key is bounded when it expires no later than the lifetime in its sid from
now on. A write into a stored session keeps its expiry, and a touch renews it; a write
that creates a hash leaves it without one until it is touched.
-/

namespace Dce.Session

open RedisSession

variable {U : Type}

namespace Redis

/-- The key belongs to a sid and expires within the lifetime that the sid spells. -/
def BoundedAt (store : Redis) (key : Str) (entry : HashEntry) : Prop :=
  ∃ sid ttlMinutes time, key = sessionKey sid ∧ Meta.parseTtl sid = .ok ttlMinutes ∧
    entry.expireAt = some time ∧ time ≤ store.now + ttlMinutes.toNat * 60

/-- Every session key has an expiry, no further away than the lifetime in its sid. -/
def Bounded (store : Redis) : Prop :=
  ∀ key entry, store.hash? key = some entry → store.BoundedAt key entry

variable {store : Redis} {key field value : Str}

@[simp] theorem now_write (update : Dict → Dict) : (store.write key update).now = store.now := rfl

@[simp]
theorem now_expire (seconds : Nat) : (store.expire key seconds).now = store.now := by
  rw [expire]
  split <;> rfl

@[simp]
theorem now_index (userKey sid : Str) : (store.index userKey sid).now = store.now := by
  rw [index, expireSet]
  split <;> rfl

theorem stored_iff (sid : Str) : store.Stored sid ↔ (store.hash? (sessionKey sid)).isSome := by
  have empty := store.isEmpty_fields_iff (sessionKey sid)
  rw [Std.ExtTreeMap.isEmpty_iff] at empty
  rw [Stored, ne_eq, empty, Option.isSome_iff_ne_none]

namespace Bounded

theorem del (bounded : store.Bounded) : (store.del key).Bounded := by
  intro other entry found
  rw [hash?_del] at found
  split at found
  · cases found
  · exact bounded other entry found

/-- A store with the same clock whose hashes are found where they were, expiring as they did. -/
theorem of_expiry {later : Redis} (bounded : store.Bounded) (now : later.now = store.now)
    (expiry : ∀ key entry, later.hash? key = some entry →
      ∃ before, store.hash? key = some before ∧ before.expireAt = entry.expireAt) :
    later.Bounded := by
  intro key entry found
  rcases expiry key entry found with ⟨before, was, same⟩
  rcases bounded key before was with ⟨sid, ttlMinutes, time, rfl, spelled, expires, early⟩
  exact ⟨sid, ttlMinutes, time, rfl, spelled, same ▸ expires, now ▸ early⟩

/-- A write into a stored session keeps its expiry. -/
theorem write (bounded : store.Bounded) (stored : (store.hash? key).isSome)
    (update : Dict → Dict) :
    (store.write key update).Bounded := by
  refine bounded.of_expiry rfl fun other entry found => ?_
  rw [hash?_write] at found
  split at found
  · rename_i same
    rw [same]
    rcases Option.isSome_iff_exists.mp stored with ⟨before, was⟩
    split at found
    · cases found
    · rw [was, Option.bind_some, Option.some.injEq] at found
      exact ⟨before, was, by rw [← found]⟩
  · exact ⟨entry, found, rfl⟩

/-- Deleting a field creates no hash. -/
theorem hdel (bounded : store.Bounded) : (store.hdel key field).Bounded := by
  cases stored : (store.hash? key).isSome with
  | true => exact bounded.write stored _
  | false =>
      refine bounded.of_expiry rfl fun other entry found => ⟨entry, ?_, rfl⟩
      rw [Option.isSome_eq_false_iff, Option.isNone_iff_eq_none] at stored
      rw [Redis.hdel, hash?_write] at found
      split at found
      · rename_i same
        simp [fields, stored] at found
      · exact found

/-- A touch bounds its key, whatever was there before. -/
theorem expire_of_others {sid : Str} {ttlMinutes : UInt16}
    (spelled : Meta.parseTtl sid = .ok ttlMinutes)
    (others : ∀ key entry, key ≠ sessionKey sid → store.hash? key = some entry →
      store.BoundedAt key entry) :
    (store.expire (sessionKey sid) (ttlMinutes.toNat * 60)).Bounded := by
  intro key entry found
  rw [hash?_expire] at found
  split at found
  · rename_i same
    split at found
    · cases found
    · rcases Option.map_eq_some_iff.mp found with ⟨before, _, rfl⟩
      exact ⟨sid, ttlMinutes, _, same, spelled, rfl, by simp⟩
  · rename_i other
    rw [BoundedAt, now_expire]
    exact others key entry other found

theorem expire (bounded : store.Bounded) {sid : Str} {ttlMinutes : UInt16}
    (spelled : Meta.parseTtl sid = .ok ttlMinutes) :
    (store.expire (sessionKey sid) (ttlMinutes.toNat * 60)).Bounded :=
  expire_of_others spelled fun key entry _ => bounded key entry

theorem write_expire (bounded : store.Bounded) {sid : Str} {ttlMinutes : UInt16}
    (spelled : Meta.parseTtl sid = .ok ttlMinutes) (update : Dict → Dict) :
    ((store.write (sessionKey sid) update).expire (sessionKey sid)
      (ttlMinutes.toNat * 60)).Bounded := by
  refine expire_of_others spelled fun key entry other found => ?_
  rw [hash?_write, if_neg other] at found
  exact bounded key entry found

theorem index (bounded : store.Bounded) (userKey sid : Str) :
    (store.index userKey sid).Bounded :=
  bounded.of_expiry (now_index userKey sid) fun key entry found =>
    ⟨entry, by rwa [hash?_index] at found, rfl⟩

theorem srem (bounded : store.Bounded) (userKey sid : Str) : (store.srem userKey sid).Bounded :=
  bounded.of_expiry rfl fun _ entry found => ⟨entry, found, rfl⟩

theorem tick (bounded : store.Bounded) (seconds : Nat) : (store.tick seconds).Bounded := by
  intro key entry found
  rw [hash?_tick, Option.filter_eq_some_iff] at found
  rcases bounded key entry found.1 with ⟨sid, ttlMinutes, time, rfl, spelled, expires, early⟩
  exact ⟨sid, ttlMinutes, time, rfl, spelled, expires, by simp only [Redis.tick]; omega⟩

theorem unmapped [UidGetter U] [Serde U] (bounded : store.Bounded) (session : RedisSession U) :
    (session.unmapped store).Bounded := by
  rw [RedisSession.unmapped]
  split
  · exact bounded.srem _ _
  · exact bounded

theorem clonedUnmapped [UidGetter U] (bounded : store.Bounded) (cloned : Core U) :
    (clonedUnmapped cloned store).Bounded := by
  rw [RedisSession.clonedUnmapped]
  split
  · exact bounded.srem _ _
  · exact bounded

theorem afterTouch (bounded : store.Bounded) {session : RedisSession U} (proper : session.Proper) :
    (session.storeAfterTouch store).Bounded := by
  rw [storeAfterTouch]
  split
  · rw [proper.key, Meta.ttlSeconds]
    exact bounded.expire proper.ttl
  · exact bounded

/-- A write by an object that has not spent its touch, or into a stored session. -/
theorem write_afterTouch (bounded : store.Bounded) {session : RedisSession U}
    (proper : session.Proper)
    (may : store.Stored session.info.sid ∨ session.info.touches = none) (update : Dict → Dict) :
    (session.storeAfterTouch (store.write (sessionKey session.info.sid) update)).Bounded := by
  rcases may with stored | unspent
  · exact (bounded.write ((stored_iff _).mp stored) update).afterTouch proper
  · simp only [storeAfterTouch, unspent]
    rw [proper.key, Meta.ttlSeconds]
    exact bounded.write_expire proper.ttl update

end Bounded

end Redis

section

variable [UidGetter U] [Serde U] {prepared : RedisSession U} {env : Env} {filters : Filters}
  {store : Redis} {redirecting : Bool} {root : Option (RedisSession U)}
  (names : prepared.names = defaultNames)

include names

theorem hash?_succeeded (key : Str) :
    (prepared.succeeded env filters store).hash? key =
      (prepared.copied env filters store).hash? key := by
  rw [succeeded_eq names]
  split <;> simp

/-- A hash that is stored for the new sid is bounded, unless the binding of a server makes it. -/
theorem bounded_renewedStore (bounded : store.Bounded)
    (stored : binds redirecting root = true →
      prepared.copyOf filters store ≠ ∅ ∧ prepared.info.ttlMinutes ≠ 0) :
    (prepared.renewedStore redirecting root env filters store).Bounded := by
  have copied : (prepared.copied env filters store).Bounded := by
    rcases copied_eq names env filters store with same | stored
    · rwa [same]
    · rw [stored]
      exact bounded.write_expire (Meta.parseTtl_genId env prepared.info.ttlMinutes) _
  have succeeded : (prepared.succeeded env filters store).Bounded := by
    rw [succeeded_eq names]
    split
    · exact copied.index _ _
    · exact copied
  rw [renewedStore_eq names]
  split
  · rename_i server bound
    have binding : binds redirecting root = true := by
      cases redirecting <;> simp_all [binds]
    rcases stored binding with ⟨nonempty, lives⟩
    refine succeeded.write ?_ _
    rw [hash?_succeeded names, RedisSession.copied, key_regenerated names,
      if_neg (by simpa using nonempty), Redis.hash?_expire, if_pos rfl,
      if_neg (by rwa [Meta.ttlSeconds_eq_zero]), Option.isSome_map]
    exact Redis.isSome_hash?_hmset _ _ nonempty
  · exact succeeded

end

variable [UidGetter U] [Serde U]

/-- What an operation may not do if no session is to become immortal. -/
structure MayExpire (connection : Bool) (scope : Scope U) (store : Redis)
    (operation : Operation U) : Prop where
  /-- A write goes into a stored session, or comes from an object that has not touched yet. -/
  set : ∀ field value, operation = .set field (some value) →
    store.Stored scope.session.info.sid ∨ scope.session.info.touches = none
  /-- A server is bound to no session without a hash. -/
  renew : ∀ prepared env filters before,
    Regenerates scope store operation prepared env filters before →
    binds (redirects connection scope.session) scope.root = true →
    prepared.copyOf filters before ≠ ∅ ∧ prepared.info.ttlMinutes ≠ 0
  /-- A renewal writes its marker into a stored session. -/
  marker : ∀ env conf, operation = .tryRenew env conf → ∀ prepared filters before,
    Regenerates scope store operation prepared env filters before →
    (redirects connection scope.session = true →
      Redirectable (newSid prepared env) scope.root) →
    newSid prepared env ≠ scope.session.info.sid ∧ before.Stored scope.session.info.sid ∧
      scope.session.info.ttlMinutes ≠ 0

omit [UidGetter U] [Serde U] in
/-- A sync writes into stored sessions only. -/
theorem bounded_synced {session : RedisSession U} (proper : session.Proper) {store : Redis}
    (bounded : store.Bounded) {sids : List Str} {userKey json : Str} {pruned : List Str} :
    (session.synced json (sids.filter (session.isLive store))
      (session.pruned userKey pruned store)).Bounded := by
  refine (synced_induction (fun store' => store'.Bounded ∧
    ∀ sid ∈ sids.filter (session.isLive store), store'.Stored sid) proper ?_ ⟨?_, ?_⟩).1
  · intro store' sid member holds
    exact ⟨holds.1.write ((Redis.stored_iff sid).mp (holds.2 sid member)) _,
      fun other otherMember => (Redis.stored_hset other).mpr (.inr (holds.2 other otherMember))⟩
  · exact bounded.of_expiry (now_pruned ..) fun key entry found =>
      ⟨entry, by simpa using found, rfl⟩
  · intro sid member
    simpa [Redis.Stored] using
      (isLive_iff_stored proper store sid).mp (List.mem_filter.mp member).2

theorem Effect.bounded {connection : Bool} {scope scope' : Scope U} {store store' : Redis}
    {operation : Operation U}
    (effect : Effect connection scope store operation scope' store')
    (proper : scope.session.Proper) (may : MayExpire connection scope store operation)
    (bounded : store.Bounded) : store'.Bounded := by
  have renewed {prepared : RedisSession U} {env : Env} {filters : Filters} {before : Redis}
      (how : Regenerates scope store operation prepared env filters before) :
      (prepared.renewedStore (redirects connection scope.session) scope.root env filters
        before).Bounded := by
    refine bounded_renewedStore (how.names.trans proper.names) ?_ (may.renew _ _ _ _ how)
    cases how with
    | replace => exact bounded.del
    | _ => exact bounded
  cases effect with
  | unchanged | loaded => exact bounded
  | touched => exact bounded.afterTouch proper
  | @set field value =>
      rw [proper.key]
      exact bounded.write_afterTouch proper (may.set field value rfl) _
  | del => exact bounded.hdel.afterTouch proper
  | delAbsent | unbound => exact bounded.hdel
  | regenerated how => exact renewed how
  | loggedIn how => exact ((renewed how).clonedUnmapped _).del
  | @marked conf prepared env filters before root how _ adopted =>
      rcases may.marker env conf rfl _ _ _ how adopted with ⟨other, stored, lives⟩
      rw [AutoRenew.marked, proper.key]
      exact Redis.Bounded.write ((renewed how).expire proper.ttl) ((Redis.stored_iff _).mp
        (stored_expire_renewedStore (how.names.trans proper.names) other stored lives)) _
  | loggedOut => exact (bounded.unmapped _).hdel
  | destroyed => exact (bounded.unmapped _).del
  | synced => exact bounded_synced proper bounded

namespace System

/-- A step that makes no session immortal. -/
def KeepsBounded (connection : Bool) (system : System U) : Action U → Prop
  | .operate index operation faults =>
      faults = noFaults ∧ ∀ session, system.objects index = some session →
        MayExpire connection (system.scope session) system.store operation
  | _ => True

variable {connection : Bool} {system : System U}

theorem bounded_of_reachable
    (reached : Reachable (System.step connection) (KeepsBounded connection) Initial system) :
    system.Holds Redis.Bounded := by
  refine reached.invariant ?_ ?_
  · rintro _ rfl
    exact holds_start nofun
  · intro system action holds admitted
    refine holds.step action ?_ ?_ ?_
    · cases action with
      | operate => exact admitted.1
      | _ => trivial
    · rintro index operation session scope' store' rfl found effect
      exact effect.bounded (holds.proper index session found) (admitted.2 session found) holds.store
    · rintro seconds rfl
      exact holds.store.tick seconds

/-- In a run of such steps, every session key expires within the lifetime in its sid. -/
theorem sessions_expire
    (reached : Reachable (System.step connection) (KeepsBounded connection) Initial system) :
    system.store.Bounded :=
  (bounded_of_reachable reached).store

/-- A session that is renewed before anything was stored for it. -/
def immortalRun : List (Action Account) :=
  [.new (.uniform 0 0x70000000 0x70000000) 60,
    .operate 0 (.tryRenew (.uniform 1 0x70000000 0x70000000) AutoRenew.new) noFaults,
    .operate 0 (.set "cart".toList (some "3".toList)) noFaults]

/-- A touch that found no key counts as the only one, so that nothing bounds the key made later. -/
theorem not_sessions_expire :
    ¬∀ system : System Account, Reachable (System.step false) (fun _ action => action.Faultless)
      Initial system → system.store.Bounded := by
  intro claim
  have bounded := claim (after false immortalRun)
    (reachable_after immortalRun ⟨trivial, rfl, rfl, trivial⟩)
  let key := sessionKey (List.replicate 64 '0' ++ "003C70000000".toList)
  rcases bounded key (((after false immortalRun).store.hash? key).get (by decide))
    (Option.some_get _).symm with ⟨_, _, time, _, _, expires, _⟩
  exact absurd expires (by
    rw [show (((after false immortalRun).store.hash? key).get (by decide)).expireAt = none
      by decide]
    exact nofun)

/-- A session that is written to before anything else expires. -/
theorem sessions_expire_set :
    (after false [.new (.uniform 0 0x70000000 0x70000000) 60,
      .operate 0 (.set "cart".toList (some "3".toList)) noFaults] :
      System Account).store.Bounded := by
  refine sessions_expire (reachable_after _ ⟨trivial, ⟨rfl, ?_⟩, trivial⟩)
  rintro session ⟨⟩
  refine ⟨fun _ _ _ => .inr rfl, ?_, nofun⟩
  intro prepared env filters before how
  cases how

end System

end Dce.Session
