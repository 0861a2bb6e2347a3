import Dce.Session.Index

/-!
# Regeneration and the index

How the copy of a hash, the mapping of its sid and the binding of its server act
on complete and on sound stores.
-/

namespace Dce.Session

open RedisSession

variable {U : Type} [UidGetter U] [Serde U]

/-- The sid a regeneration gives. -/
def newSid (session : RedisSession U) (env : Env) : Str := (session.info.regenerate env).sid

/-- Neither a hash nor a mapping set knows the sid. -/
structure Redis.Fresh (store : Redis) (sid : Str) : Prop where
  unstored : store.fields (sessionKey sid) = ∅
  unmapped : ∀ uid, ¬store.Mapped uid sid

/-- The fields that a regeneration stores under its new sid. -/
def newborn (session : RedisSession U) (filters : Filters) (store : Redis) : Dict :=
  if session.info.ttlMinutes = 0 then ∅ else session.copyOf filters store

/-- A regeneration writes the server of a connection into the new session. -/
def binds (redirects : Bool) (root : Option (RedisSession U)) : Bool :=
  redirects && (unboundServer root).isSome

section

omit [UidGetter U] [Serde U]

variable {prepared : RedisSession U} {env : Env} {filters : Filters} {store : Redis}
  (names : prepared.names = defaultNames)

include names

theorem key_regenerated :
    (prepared.regenerated env filters store).key = sessionKey (newSid prepared env) := by
  have sidName : prepared.info.sidName = defaultIdName := congrArg Prod.fst names
  simp [Core.key, regenerated, Meta.regenerate, sessionKey, newSid, sidName]

/-- A regeneration stores its copy under the new sid, unless that has no lifetime. -/
theorem copied_eq (env : Env) (filters : Filters) (store : Redis) :
    prepared.copied env filters store = store ∨
      prepared.copied env filters store =
        (store.write (sessionKey (newSid prepared env))
          (· ∪ prepared.copyOf filters store)).expire
          (sessionKey (newSid prepared env)) prepared.info.ttlSeconds := by
  rw [copied, key_regenerated names]
  by_cases emptied : prepared.copyOf filters store = ∅
  · exact .inl (by simp [emptied])
  · exact .inr (by simp [emptied, Redis.hmset])

theorem fields_copied_other {key : Str} (other : key ≠ sessionKey (newSid prepared env)) :
    (prepared.copied env filters store).fields key = store.fields key := by
  rcases copied_eq names env filters store with same | stored
  · rw [same]
  · simp [stored, other]

theorem fields_copied_new (filters : Filters)
    (unstored : store.fields (sessionKey (newSid prepared env)) = ∅) :
    (prepared.copied env filters store).fields (sessionKey (newSid prepared env)) =
      newborn prepared filters store := by
  rw [copied, key_regenerated names, newborn]
  by_cases emptied : prepared.copyOf filters store = ∅
  · simp [emptied, unstored]
  · simp [emptied, unstored, Meta.ttlSeconds_eq_zero, Redis.empty_union]

@[simp]
theorem members_copied (key : Str) :
    (prepared.copied env filters store).members key = store.members key := by
  rcases copied_eq names env filters store with same | stored
  · rw [same]
  · simp [stored]

end

section

variable {session : RedisSession U} {store : Redis}

theorem mapped_eq (keyPrefix : session.userMeta.keyPrefix = defaultUserPrefix) :
    session.mapped store =
      match session.loadedUser store with
      | some user => store.index (userKeyOf (UidGetter.id user)) session.info.sid
      | none => store := by
  rw [mapped, actingKey, keyPrefix]
  cases session.loadedUser store <;> rfl

variable {prepared : RedisSession U} {env : Env} {filters : Filters} {redirecting : Bool}
  {root : Option (RedisSession U)} (names : prepared.names = defaultNames)

include names

omit [UidGetter U] in
/-- After a regeneration the user comes from the new hash, or else from the cache. -/
theorem loadedUser_regenerated (later : Redis) :
    (prepared.regenerated env filters store).loadedUser later =
      (later.userAt U (newSid prepared env)).or prepared.userMeta.user := by
  have userField : prepared.userMeta.userField = defaultUserField := congrArg (·.2.2.1) names
  have read : storedUser (prepared.regenerated env filters store).toCore later =
      later.userAt U (newSid prepared env) := by
    rw [storedUser, key_regenerated names, Redis.userAt]
    simp [regenerated, userField]
  rw [loadedUser, read]
  rfl

theorem succeeded_eq :
    prepared.succeeded env filters store =
      match ((prepared.copied env filters store).userAt U (newSid prepared env)).or
        prepared.userMeta.user with
      | some user =>
          (prepared.copied env filters store).index (userKeyOf (UidGetter.id user))
            (newSid prepared env)
      | none => prepared.copied env filters store := by
  have keyPrefix : (prepared.regenerated env filters store).userMeta.keyPrefix =
      defaultUserPrefix := congrArg (·.2.1) names
  rw [succeeded, mapped_eq keyPrefix, loadedUser_regenerated names]
  rfl

@[simp]
theorem fields_succeeded (key : Str) :
    (prepared.succeeded env filters store).fields key =
      (prepared.copied env filters store).fields key := by
  rw [succeeded_eq names]
  split <;> simp

theorem renewedStore_eq :
    prepared.renewedStore redirecting root env filters store =
      match if redirecting then unboundServer root else none with
      | some server =>
          (prepared.succeeded env filters store).hset (sessionKey (newSid prepared env))
            defaultServerField server
      | none => prepared.succeeded env filters store := by
  have key : (prepared.successor env filters store).key = sessionKey (newSid prepared env) :=
    key_regenerated names
  have serverField : prepared.connMeta.serverField = defaultServerField :=
    congrArg (·.2.2.2) names
  cases redirecting with
  | false => rfl
  | true =>
      simp only [renewedStore, bound, key, if_true]
      cases unboundServer root <;> simp [successor, regenerated, serverField]

theorem fields_renewedStore_other {key : Str} (other : key ≠ sessionKey (newSid prepared env)) :
    (prepared.renewedStore redirecting root env filters store).fields key = store.fields key := by
  rw [renewedStore_eq names]
  split <;> simp [names, other, fields_copied_other]

theorem mapped_renewedStore_other {uid : Nat} {sid : Str} (other : sid ≠ newSid prepared env) :
    (prepared.renewedStore redirecting root env filters store).Mapped uid sid ↔
      store.Mapped uid sid := by
  have succeeded : sid ∈ (prepared.succeeded env filters store).members (userKeyOf uid) ↔
      store.Mapped uid sid := by
    rw [succeeded_eq names]
    split <;> simp [Redis.Mapped, names, other]
  rw [renewedStore_eq names, Redis.Mapped]
  split <;> simpa using succeeded

/-- A stored session is still stored when its renewal comes to write the marker. -/
theorem stored_expire_renewedStore {session : RedisSession U}
    (other : newSid prepared env ≠ session.info.sid) (stored : store.Stored session.info.sid)
    (lives : session.info.ttlMinutes ≠ 0) :
    ((prepared.renewedStore redirecting root env filters store).expire
      (sessionKey session.info.sid) session.info.ttlSeconds).Stored session.info.sid := by
  have otherKey : sessionKey session.info.sid ≠ sessionKey (newSid prepared env) :=
    fun same => other (sessionKey_inj.mp same).symm
  rw [Redis.Stored, Redis.fields_expire,
    if_neg fun dead => lives ((Meta.ttlSeconds_eq_zero _).mp dead.2),
    fields_renewedStore_other names otherKey]
  exact stored

theorem complete_renewedStore (complete : store.Complete U) :
    (prepared.renewedStore redirecting root env filters store).Complete U := by
  have copiedElsewhere : ∀ uid sid, sid ≠ newSid prepared env →
      (prepared.copied env filters store).LoggedIn U uid sid →
      (prepared.copied env filters store).Mapped uid sid := by
    intro uid sid other loggedIn
    rw [Redis.Mapped, members_copied names]
    refine complete uid sid ((Redis.loggedIn_of_userAt_eq ?_).mp loggedIn)
    rw [Redis.userAt, fields_copied_other names (by rwa [ne_eq, sessionKey_inj]), Redis.userAt]
  have succeeded : (prepared.succeeded env filters store).Complete U := by
    rw [succeeded_eq names]
    cases read : (prepared.copied env filters store).userAt U (newSid prepared env) with
    | some user =>
        refine .index copiedElsewhere ?_
        rintro uid ⟨stored, storedRead, rfl⟩
        rw [read, Option.some.injEq] at storedRead
        rw [storedRead]
    | none =>
        have nobody : ∀ uid, ¬(prepared.copied env filters store).LoggedIn U uid
            (newSid prepared env) := by
          rintro uid ⟨stored, storedRead, _⟩
          simp [read] at storedRead
        cases prepared.userMeta.user with
        | some user => exact .index copiedElsewhere fun uid loggedIn => absurd loggedIn (nobody uid)
        | none =>
            intro uid sid loggedIn
            refine copiedElsewhere uid sid ?_ loggedIn
            rintro rfl
            exact nobody uid loggedIn
  rw [renewedStore_eq names]
  split
  · exact succeeded.hset fun named => absurd named (by decide)
  · exact succeeded

/-- The user that a regeneration maps its new sid to is the one its new hash holds, unless there
is nobody to map or the new hash is not stored. -/
def Agreeing (prepared : RedisSession U) (filters : Filters) (binds : Bool) (store : Redis) :
    Prop :=
  let user : Option U := (newborn prepared filters store)[defaultUserField]?.bind Serde.fromJson
  user.isSome ∨ prepared.userMeta.user = none ∨
    (newborn prepared filters store = ∅ ∧ binds = false)

theorem sound_renewedStore (sound : store.Sound U) (fresh : store.Fresh (newSid prepared env))
    (agreeing : Agreeing prepared filters (binds redirecting root) store) :
    (prepared.renewedStore redirecting root env filters store).Sound U := by
  have newFields := fields_copied_new names filters fresh.unstored
  have copiedUnmapped : ∀ uid, ¬(prepared.copied env filters store).Mapped uid
      (newSid prepared env) := by
    intro uid mapped
    exact fresh.unmapped uid (by rwa [Redis.Mapped, members_copied names] at mapped)
  have copied : (prepared.copied env filters store).Sound U := by
    rcases copied_eq names env filters store with same | stored
    · rwa [same]
    · rw [stored]
      refine (sound.write fresh.unmapped _).shrinks (Redis.shrinks_expire _ _ _) ?_
      intro key sid
      simp
  rw [renewedStore_eq names, succeeded_eq names]
  cases read : (prepared.copied env filters store).userAt U (newSid prepared env) with
  | some user =>
      have indexed : ((prepared.copied env filters store).index (userKeyOf (UidGetter.id user))
          (newSid prepared env)).Sound U :=
        copied.index fun _ => ⟨user, read, rfl⟩
      split
      · refine indexed.hset fun uid _ => ?_
        rw [if_neg (by decide)]
        simpa [Redis.Stored] using Redis.stored_of_userAt read
      · exact indexed
  | none =>
      have unread : ¬(((newborn prepared filters store)[defaultUserField]?.bind
          Serde.fromJson : Option U).isSome = true) := by
        rw [← newFields]
        simpa [Redis.userAt] using read
      cases cached : prepared.userMeta.user with
      | some user =>
          have unstored := (agreeing.resolve_left unread).resolve_left (by simp [cached])
          have indexed : ((prepared.copied env filters store).index (userKeyOf (UidGetter.id user))
              (newSid prepared env)).Sound U :=
            copied.index fun stored => absurd (newFields.trans unstored.1) stored
          have unbound : (if redirecting then unboundServer root else none) = none := by
            have noServer := unstored.2
            rw [binds] at noServer
            cases redirecting <;> simp_all
          simpa [unbound] using indexed
      | none =>
          split
          · exact copied.hset fun uid mapped => absurd mapped (copiedUnmapped uid)
          · exact copied

end

end Dce.Session
