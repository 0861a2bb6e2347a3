import Dce.Session.Expiry

/-!
# Idle times

A session reckons how long another one went untouched by its own lifetime. That is
right as long as the sessions that markers lead to live as long as those that carry
the markers, and no key outlives the lifetime in its sid.
-/

namespace Dce.Session

open RedisSession

variable {U : Type}

/-- A sid that can be parsed spells this lifetime. -/
def Fits (ttlMinutes : UInt16) (sid : Str) : Prop :=
  ∀ times, Meta.parseSid sid = .ok times → times.1 = ttlMinutes

theorem fits_of_parseTtl {ttlMinutes : UInt16} {sid : Str}
    (spelled : Meta.parseTtl sid = .ok ttlMinutes) : Fits ttlMinutes sid := by
  rintro ⟨ttlMinutes', createStamp⟩ parsed
  have same := (Meta.parseTtl_of_parseSid parsed).symm.trans spelled
  exact Outcome.ok.inj same

namespace Redis

variable {store : Redis} {key field value : Str}

/-- A key that expires does so within the lifetime in its sid. -/
def Within (store : Redis) : Prop :=
  ∀ key entry time, store.hash? key = some entry → entry.expireAt = some time →
    ∃ sid ttlMinutes, key = sessionKey sid ∧ Meta.parseTtl sid = .ok ttlMinutes ∧
      time ≤ store.now + ttlMinutes.toNat * 60

/-- Markers name sessions of the same lifetime. -/
def MarksAlike (store : Redis) : Prop :=
  ∀ sid newSid ttlMinutes, (store.fields (sessionKey sid))[defaultNewSidField]? = some newSid →
    Meta.parseTtl sid = .ok ttlMinutes → Fits ttlMinutes newSid

namespace Within

theorem of_expiry {later : Redis} (within : store.Within) (now : later.now = store.now)
    (expiry : ∀ key entry time, later.hash? key = some entry → entry.expireAt = some time →
      ∃ before, store.hash? key = some before ∧ before.expireAt = some time) :
    later.Within := by
  intro key entry time found expires
  rcases expiry key entry time found expires with ⟨before, was, same⟩
  rw [now]
  exact within key before time was same

theorem del (within : store.Within) : (store.del key).Within := by
  refine within.of_expiry rfl fun other entry time found expires => ?_
  rw [hash?_del] at found
  split at found
  · cases found
  · exact ⟨entry, found, expires⟩

theorem write (within : store.Within) (update : Dict → Dict) :
    (store.write key update).Within := by
  refine within.of_expiry rfl fun other entry time found expires => ?_
  rw [hash?_write] at found
  split at found
  · rename_i same
    split at found
    · cases found
    · cases found
      rw [same]
      exact Option.bind_eq_some_iff.mp expires
  · exact ⟨entry, found, expires⟩

theorem expire (within : store.Within) {sid : Str} {ttlMinutes : UInt16}
    (spelled : Meta.parseTtl sid = .ok ttlMinutes) :
    (store.expire (sessionKey sid) (ttlMinutes.toNat * 60)).Within := by
  intro key entry time found expires
  rw [hash?_expire] at found
  rw [now_expire]
  split at found
  · rename_i same
    split at found
    · cases found
    · rcases Option.map_eq_some_iff.mp found with ⟨before, _, rfl⟩
      cases expires
      exact ⟨sid, ttlMinutes, same, spelled, Nat.le_refl _⟩
  · exact within key entry time found expires

theorem of_hashes {later : Redis} (within : store.Within) (now : later.now = store.now)
    (same : ∀ key, later.hash? key = store.hash? key) : later.Within :=
  within.of_expiry now fun key entry _ found expires => ⟨entry, by rwa [same] at found, expires⟩

theorem tick (within : store.Within) (seconds : Nat) : (store.tick seconds).Within := by
  intro key entry time found expires
  rw [hash?_tick, Option.filter_eq_some_iff] at found
  rcases within key entry time found.1 expires with ⟨sid, ttlMinutes, rfl, spelled, early⟩
  refine ⟨sid, ttlMinutes, rfl, spelled, ?_⟩
  simp only [Redis.tick]
  omega

theorem afterTouch (within : store.Within) {session : RedisSession U} (proper : session.Proper) :
    (session.storeAfterTouch store).Within := by
  rw [storeAfterTouch]
  split
  · rw [proper.key, Meta.ttlSeconds]
    exact within.expire proper.ttl
  · exact within

end Within

namespace MarksAlike

theorem shrinks {later : Redis} (alike : store.MarksAlike) (shrinks : store.Shrinks later) :
    later.MarksAlike := by
  intro sid newSid ttlMinutes marker spelled
  rcases shrinks (sessionKey sid) with same | gone
  · rw [same] at marker
    exact alike sid newSid ttlMinutes marker spelled
  · simp [gone] at marker

theorem write (alike : store.MarksAlike) {sid : Str} {ttlMinutes : UInt16}
    (spelled : Meta.parseTtl sid = .ok ttlMinutes) {update : Dict → Dict}
    (fits : ∀ newSid,
      (update (store.fields (sessionKey sid)))[defaultNewSidField]? = some newSid →
      (store.fields (sessionKey sid))[defaultNewSidField]? = some newSid ∨
        Fits ttlMinutes newSid) :
    (store.write (sessionKey sid) update).MarksAlike := by
  intro sid' newSid ttlMinutes' marker spelled'
  rw [fields_write] at marker
  split at marker
  · rename_i same
    rw [sessionKey_inj.mp same, spelled] at spelled'
    cases spelled'
    exact (fits newSid marker).elim (fun kept => alike sid newSid ttlMinutes kept spelled) id
  · exact alike sid' newSid ttlMinutes' marker spelled'

theorem write_other (alike : store.MarksAlike) {update : Dict → Dict}
    (same : ∀ data : Dict, (update data)[defaultNewSidField]? = data[defaultNewSidField]?) :
    (store.write key update).MarksAlike := by
  intro sid newSid ttlMinutes marker spelled
  rw [fields_write] at marker
  split at marker
  · rename_i here
    rw [same, ← here] at marker
    exact alike sid newSid ttlMinutes marker spelled
  · exact alike sid newSid ttlMinutes marker spelled

theorem hset_other (alike : store.MarksAlike) (other : field ≠ defaultNewSidField) :
    (store.hset key field value).MarksAlike := by
  apply alike.write_other
  intro data
  simp [Std.ExtTreeMap.getElem?_insert, other]

theorem hdel (alike : store.MarksAlike) : (store.hdel key field).MarksAlike := by
  intro sid newSid ttlMinutes marker spelled
  rw [fields_hdel] at marker
  split at marker
  · rename_i here
    rw [Std.ExtTreeMap.getElem?_erase] at marker
    split at marker
    · cases marker
    · rw [← here] at marker
      exact alike sid newSid ttlMinutes marker spelled
  · exact alike sid newSid ttlMinutes marker spelled

end MarksAlike

end Redis

section

variable [UidGetter U] [Serde U] {prepared : RedisSession U} {env : Env} {filters : Filters}
  {store : Redis} {redirecting : Bool} {root : Option (RedisSession U)}
  (names : prepared.names = defaultNames)

include names

theorem within_renewedStore (within : store.Within) :
    (prepared.renewedStore redirecting root env filters store).Within := by
  have copied : (prepared.copied env filters store).Within := by
    rcases copied_eq names env filters store with same | stored
    · rwa [same]
    · rw [stored]
      exact (within.write _).expire (Meta.parseTtl_genId env prepared.info.ttlMinutes)
  have succeeded : (prepared.succeeded env filters store).Within := by
    refine copied.of_hashes ?_ (hash?_succeeded names)
    rw [succeeded_eq names]
    split
    · exact Redis.now_index _ _
    · rfl
  rw [renewedStore_eq names]
  split
  · exact succeeded.write _
  · exact succeeded

theorem marksAlike_renewedStore (alike : store.MarksAlike)
    (fits : prepared.info.ttlMinutes ≠ 0 → ∀ newSid,
      (prepared.copyOf filters store)[defaultNewSidField]? = some newSid →
        Fits prepared.info.ttlMinutes newSid) :
    (prepared.renewedStore redirecting root env filters store).MarksAlike := by
  have copied : (prepared.copied env filters store).MarksAlike := by
    rcases copied_eq names env filters store with same | stored
    · rwa [same]
    · rw [stored]
      by_cases lives : prepared.info.ttlMinutes = 0
      · -- the copy is gone at once
        intro sid newSid ttlMinutes marker spelled
        rw [(Meta.ttlSeconds_eq_zero _).mpr lives, Redis.fields_expire] at marker
        split at marker
        · simp at marker
        · rename_i other
          rw [Redis.fields_write, if_neg fun same => other ⟨same, rfl⟩] at marker
          exact alike sid newSid ttlMinutes marker spelled
      · refine Redis.MarksAlike.shrinks (alike.write
          (Meta.parseTtl_genId env prepared.info.ttlMinutes) fun newSid marker => ?_)
          (Redis.shrinks_expire _ _ _)
        rw [Std.ExtTreeMap.getElem?_union] at marker
        rcases Option.or_eq_some_iff.mp marker with copy | ⟨_, kept⟩
        · exact .inr (fits lives newSid copy)
        · exact .inl kept
  have succeeded : (prepared.succeeded env filters store).MarksAlike :=
    copied.shrinks fun key => .inl (fields_succeeded names key)
  rw [renewedStore_eq names]
  split
  · exact succeeded.hset_other (by decide)
  · exact succeeded

end

variable [UidGetter U] [Serde U]

/-- What an operation may not do if idle times are to be compared by one lifetime. -/
structure MayMeasure (scope : Scope U) (store : Redis) (operation : Operation U) : Prop where
  /-- A marker set by hand names a session of the same lifetime. -/
  set : ∀ value, operation = .set defaultNewSidField (some value) →
    Fits scope.session.info.ttlMinutes value
  /-- A marker is not copied to a session that lives for another time. -/
  renew : ∀ prepared env filters before,
    Regenerates scope store operation prepared env filters before →
    prepared.info.ttlMinutes ≠ 0 → ∀ newSid,
      (prepared.copyOf filters before)[defaultNewSidField]? = some newSid →
        Fits prepared.info.ttlMinutes newSid
  marker : ∀ env conf, operation = .tryRenew env conf → conf.newSidField = defaultNewSidField

/-- The store lets idle times be told. -/
structure Redis.Metered (store : Redis) : Prop where
  within : store.Within
  alike : store.MarksAlike

namespace Redis.Metered

variable {store : Redis} {key : Str}

omit [UidGetter U] [Serde U] in
theorem of_hashes {later : Redis} (metered : store.Metered) (now : later.now = store.now)
    (same : ∀ key, later.hash? key = store.hash? key) : later.Metered := by
  refine ⟨metered.within.of_hashes now same, metered.alike.shrinks fun key => .inl ?_⟩
  rw [Redis.fields, same, Redis.fields]

theorem del (metered : store.Metered) : (store.del key).Metered :=
  ⟨metered.within.del, metered.alike.shrinks (Redis.shrinks_del _ _)⟩

theorem hdel (metered : store.Metered) {field : Str} : (store.hdel key field).Metered :=
  ⟨metered.within.write _, metered.alike.hdel⟩

theorem hset_other (metered : store.Metered) {field value : Str}
    (other : field ≠ defaultNewSidField) : (store.hset key field value).Metered :=
  ⟨metered.within.write _, metered.alike.hset_other other⟩

/-- A field of a session is written, if it is the marker with the sid of an alike session. -/
theorem hset (metered : store.Metered) {sid field value : Str} {ttlMinutes : UInt16}
    (spelled : Meta.parseTtl sid = .ok ttlMinutes)
    (fits : field = defaultNewSidField → Fits ttlMinutes value) :
    (store.hset (sessionKey sid) field value).Metered := by
  refine ⟨metered.within.write _, metered.alike.write spelled fun newSid marker => ?_⟩
  rw [Std.ExtTreeMap.getElem?_insert] at marker
  split at marker
  · rename_i same
    cases marker
    exact .inr (fits (Std.compare_eq_iff_eq.mp same))
  · exact .inl marker

omit [UidGetter U] [Serde U] in
theorem afterTouch (metered : store.Metered) {session : RedisSession U} (proper : session.Proper) :
    (session.storeAfterTouch store).Metered :=
  ⟨metered.within.afterTouch proper, metered.alike.shrinks (Redis.shrinks_storeAfterTouch _ _)⟩

theorem unmapped (metered : store.Metered) (session : RedisSession U) :
    (session.unmapped store).Metered := by
  rcases unmapped_cases session store with same | ⟨userKey, _, same⟩
  · rwa [same]
  · rw [same]
    exact metered.of_hashes rfl fun _ => rfl

omit [Serde U] in
theorem clonedUnmapped (metered : store.Metered) (cloned : Core U) :
    (clonedUnmapped cloned store).Metered := by
  rw [RedisSession.clonedUnmapped]
  split
  · exact metered.of_hashes rfl fun _ => rfl
  · exact metered

theorem tick (metered : store.Metered) (seconds : Nat) : (store.tick seconds).Metered :=
  ⟨metered.within.tick seconds, metered.alike.shrinks (Redis.shrinks_tick _ _)⟩

end Redis.Metered

theorem Effect.metered {connection : Bool} {scope scope' : Scope U} {store store' : Redis}
    {operation : Operation U}
    (effect : Effect connection scope store operation scope' store')
    (proper : scope.session.Proper) (may : MayMeasure scope store operation)
    (metered : store.Metered) : store'.Metered := by
  have renewed {prepared : RedisSession U} {env : Env} {filters : Filters} {before : Redis}
      (how : Regenerates scope store operation prepared env filters before) :
      (prepared.renewedStore (redirects connection scope.session) scope.root env filters
        before).Metered := by
    have names := how.names.trans proper.names
    have before : before.Metered := by
      cases how with
      | replace => exact metered.del
      | _ => exact metered
    exact ⟨within_renewedStore names before.within,
      marksAlike_renewedStore names before.alike (may.renew _ _ _ _ how)⟩
  cases effect with
  | unchanged | loaded => exact metered
  | touched => exact metered.afterTouch proper
  | @set field value =>
      rw [proper.key]
      refine (metered.hset proper.ttl ?_).afterTouch proper
      rintro rfl
      exact may.set value rfl
  | del => exact metered.hdel.afterTouch proper
  | delAbsent | unbound => exact metered.hdel
  | regenerated how => exact renewed how
  | loggedIn how => exact ((renewed how).clonedUnmapped _).del
  | @marked conf prepared env filters before root how _ adopted =>
      have sameTtl : prepared.info.ttlMinutes = scope.session.info.ttlMinutes := by
        cases how <;> rfl
      have touched := (renewed how).within.expire proper.ttl
      rw [AutoRenew.marked, proper.key]
      refine Redis.Metered.hset ⟨touched, (renewed how).alike.shrinks
        (Redis.shrinks_expire _ _ _)⟩ proper.ttl fun _ => ?_
      rw [← sameTtl]
      exact fits_of_parseTtl (Meta.parseTtl_genId env prepared.info.ttlMinutes)
  | loggedOut => exact (metered.unmapped _).hdel
  | destroyed => exact (metered.unmapped _).del
  | synced =>
      refine synced_induction Redis.Metered proper ?_ ?_
      · exact fun store sid _ metered => metered.hset_other (by decide)
      · exact metered.of_hashes (now_pruned ..) fun key => hash?_pruned ..

namespace System

variable {connection : Bool} {system : System U}

end System

end Dce.Session
