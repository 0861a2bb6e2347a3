import Dce.Session.Steps

/-!
# The index of logged-in sessions

The mapping set of a user lists the sids that are logged in as the user. It is
complete if it lists every such session, which `sync` needs to reach them all, and
sound if it lists no other stored session, which `sync` needs to log nobody in.
What each change of the store does to either property is said once here.
-/

namespace Dce.Session

open RedisSession

variable {U : Type}

/-- The key of the mapping set of a user. -/
def userKeyOf (uid : Nat) : Str := genUserKey defaultUserPrefix uid

theorem userKeyOf_inj {uid uid' : Nat} : userKeyOf uid = userKeyOf uid' ↔ uid = uid' := by
  constructor
  · intro same
    have digits : Nat.toDigits 10 uid = Nat.toDigits 10 uid' := by
      simpa [userKeyOf, genUserKey] using same
    rw [← @Nat.ofDigitChars_ten_toDigits uid, digits, Nat.ofDigitChars_ten_toDigits]
  · exact congrArg userKeyOf

theorem sessionKey_inj {sid sid' : Str} : sessionKey sid = sessionKey sid' ↔ sid = sid' :=
  genKey_inj

namespace Redis

variable {store store' : Redis}

/-- Some hashes are gone, the others are as they were. -/
def Shrinks (store store' : Redis) : Prop :=
  ∀ key, store'.fields key = store.fields key ∨ store'.fields key = ∅

/-- No mapping set lost a member. -/
def Keeps (store store' : Redis) : Prop :=
  ∀ key sid, sid ∈ store.members key → sid ∈ store'.members key

theorem Shrinks.refl (store : Redis) : store.Shrinks store := fun _ => .inl rfl

theorem shrinks_del (store : Redis) (key : Str) : store.Shrinks (store.del key) := by
  intro other
  by_cases same : other = key <;> simp [same]

theorem shrinks_expire (store : Redis) (key : Str) (seconds : Nat) :
    store.Shrinks (store.expire key seconds) := by
  intro other
  by_cases gone : other = key ∧ seconds = 0 <;> simp [gone]

theorem shrinks_storeAfterTouch (session : RedisSession U) (store : Redis) :
    store.Shrinks (session.storeAfterTouch store) := by
  rw [storeAfterTouch]
  split
  · exact shrinks_expire store session.key session.info.ttlSeconds
  · exact Shrinks.refl store

theorem shrinks_tick (store : Redis) (seconds : Nat) : store.Shrinks (store.tick seconds) := by
  intro key
  cases found : store.hash? key with
  | none => exact .inr (by simp [fields, hash?_tick, found])
  | some entry =>
      cases live : alive (store.now + seconds) entry.expireAt <;>
        simp [fields, hash?_tick, found, Option.filter, live]

theorem Keeps.refl (store : Redis) : store.Keeps store := fun _ _ member => member

@[simp]
theorem members_storeAfterTouch (session : RedisSession U) (store : Redis) (key : Str) :
    (session.storeAfterTouch store).members key = store.members key := by
  rw [storeAfterTouch]
  split
  · exact members_expire ..
  · rfl

section

variable [Serde U]

/-- The user a session is logged in as. -/
def userAt (U : Type) [Serde U] (store : Redis) (sid : Str) : Option U :=
  (store.fields (sessionKey sid))[defaultUserField]?.bind Serde.fromJson

/-- A sid is in the mapping set of a user. -/
def Mapped (store : Redis) (uid : Nat) (sid : Str) : Prop := sid ∈ store.members (userKeyOf uid)

/-- Some fields are stored for a sid. -/
def Stored (store : Redis) (sid : Str) : Prop := store.fields (sessionKey sid) ≠ ∅

theorem stored_of_userAt {sid : Str} {user : U} (read : store.userAt U sid = some user) :
    store.Stored sid := by
  intro absent
  simp [userAt, absent] at read

theorem Shrinks.stored (U : Type) [Serde U] (shrinks : store.Shrinks store') {sid : Str}
    (stored : store'.Stored sid) :
    store.Stored sid ∧ store'.userAt U sid = store.userAt U sid := by
  rcases shrinks (sessionKey sid) with same | gone
  · exact ⟨by rwa [Stored, ← same], by rw [userAt, userAt, same]⟩
  · exact absurd gone stored

variable {field value sid : Str}

theorem userAt_hset (sid' : Str) :
    (store.hset (sessionKey sid) field value).userAt U sid' =
      if sid' = sid ∧ field = defaultUserField then Serde.fromJson value
      else store.userAt U sid' := by
  by_cases same : sid' = sid
  · subst same
    by_cases named : field = defaultUserField <;>
      simp [userAt, named, Std.ExtTreeMap.getElem?_insert]
  · simp [userAt, sessionKey_inj, same]

theorem userAt_hdel (sid' : Str) :
    (store.hdel (sessionKey sid) field).userAt U sid' =
      if sid' = sid ∧ field = defaultUserField then none else store.userAt U sid' := by
  by_cases same : sid' = sid
  · subst same
    by_cases named : field = defaultUserField <;>
      simp [userAt, named, Std.ExtTreeMap.getElem?_erase]
  · simp [userAt, sessionKey_inj, same]

theorem userAt_write {update : Dict → Dict} {sid' : Str} (other : sid' ≠ sid) :
    (store.write (sessionKey sid) update).userAt U sid' = store.userAt U sid' := by
  simp [userAt, sessionKey_inj, other]

omit [Serde U] in
theorem stored_hset (sid' : Str) :
    (store.hset (sessionKey sid) field value).Stored sid' ↔ sid' = sid ∨ store.Stored sid' := by
  by_cases same : sid' = sid <;> simp [Stored, sessionKey_inj, same]

omit [Serde U] in
theorem stored_of_stored_hdel {sid' : Str}
    (stored : (store.hdel (sessionKey sid) field).Stored sid') : store.Stored sid' := by
  intro absent
  by_cases same : sid' = sid
  · subst same
    simp [Stored, absent] at stored
  · simp [Stored, sessionKey_inj, same, absent] at stored

end

variable [UidGetter U] [Serde U]

/-- A session holds a user with this id. -/
def LoggedIn (U : Type) [UidGetter U] [Serde U] (store : Redis) (uid : Nat) (sid : Str) : Prop :=
  ∃ user : U, store.userAt U sid = some user ∧ UidGetter.id user = uid

theorem LoggedIn.stored {uid : Nat} {sid : Str} (loggedIn : store.LoggedIn U uid sid) :
    store.Stored sid := by
  rcases loggedIn with ⟨user, read, _⟩
  exact stored_of_userAt read

theorem loggedIn_of_userAt_eq {uid : Nat} {sid : Str}
    (same : store'.userAt U sid = store.userAt U sid) :
    store'.LoggedIn U uid sid ↔ store.LoggedIn U uid sid := by
  rw [LoggedIn, LoggedIn, same]

/-- Every logged-in session is in the mapping set of its user. -/
def Complete (U : Type) [UidGetter U] [Serde U] (store : Redis) : Prop :=
  ∀ uid sid, store.LoggedIn U uid sid → store.Mapped uid sid

namespace Complete

variable {field value sid : Str}

theorem shrinks (complete : store.Complete U) (shrinks : store.Shrinks store')
    (keeps : store.Keeps store') : store'.Complete U := by
  intro uid sid loggedIn
  have same := (shrinks.stored U loggedIn.stored).2
  exact keeps _ _ (complete uid sid ((loggedIn_of_userAt_eq same).mp loggedIn))

theorem hset (complete : store.Complete U)
    (reads : field = defaultUserField → ∀ user : U, Serde.fromJson value = some user →
      store.Mapped (UidGetter.id user) sid) :
    (store.hset (sessionKey sid) field value).Complete U := by
  rintro uid sid' ⟨user, read, rfl⟩
  rw [userAt_hset] at read
  split at read
  · rename_i written
    rw [written.1]
    exact reads written.2 user read
  · exact complete _ _ ⟨user, read, rfl⟩

theorem hdel (complete : store.Complete U) :
    (store.hdel (sessionKey sid) field).Complete U := by
  rintro uid sid' ⟨user, read, rfl⟩
  rw [userAt_hdel] at read
  split at read
  · cases read
  · exact complete _ _ ⟨user, read, rfl⟩

/-- A sid that nobody is logged in with need not be listed. -/
theorem srem (complete : store.Complete U) (anonymous : store.userAt U sid = none)
    (userKey : Str) : (store.srem userKey sid).Complete U := by
  intro uid sid' loggedIn
  have was : store.LoggedIn U uid sid' := loggedIn
  refine (mem_members_srem ..).mpr ⟨complete uid sid' was, ?_⟩
  rintro ⟨_, rfl⟩
  rcases was with ⟨user, read, _⟩
  simp [anonymous] at read

/-- Listing a sid makes up for a new user in its hash. -/
theorem index {uid : Nat} (others : ∀ uid' sid', sid' ≠ sid → store.LoggedIn U uid' sid' →
      store.Mapped uid' sid')
    (own : ∀ uid', store.LoggedIn U uid' sid → uid' = uid) :
    (store.index (userKeyOf uid) sid).Complete U := by
  intro uid' sid' loggedIn
  have was : store.LoggedIn U uid' sid' :=
    (loggedIn_of_userAt_eq (by simp [userAt])).mp loggedIn
  refine (mem_members_index ..).mpr ?_
  by_cases same : sid' = sid
  · subst same
    exact .inl ⟨by rw [own uid' was], rfl⟩
  · exact .inr (others uid' sid' same was)

end Complete

/-- Every stored session in the mapping set of a user is logged in as that user. -/
def Sound (U : Type) [UidGetter U] [Serde U] (store : Redis) : Prop :=
  ∀ uid sid, store.Mapped uid sid → store.Stored sid → store.LoggedIn U uid sid

namespace Sound

variable {field value sid : Str}

theorem shrinks (sound : store.Sound U) (shrinks : store.Shrinks store')
    (keeps : store'.Keeps store) : store'.Sound U := by
  intro uid sid mapped stored
  rcases shrinks.stored U stored with ⟨wasStored, same⟩
  exact (loggedIn_of_userAt_eq same).mpr (sound uid sid (keeps _ _ mapped) wasStored)

/-- A stored session is listed for one user only. -/
theorem unique (sound : store.Sound U) {uid uid' : Nat} (mapped : store.Mapped uid sid)
    (mapped' : store.Mapped uid' sid) (stored : store.Stored sid) : uid = uid' := by
  rcases sound uid sid mapped stored with ⟨user, read, rfl⟩
  rcases sound uid' sid mapped' stored with ⟨user', read', rfl⟩
  rw [read, Option.some.injEq] at read'
  rw [read']

theorem hset (sound : store.Sound U)
    (reads : ∀ uid, store.Mapped uid sid → if field = defaultUserField then
      ∃ user : U, Serde.fromJson value = some user ∧ UidGetter.id user = uid
      else store.Stored sid) :
    (store.hset (sessionKey sid) field value).Sound U := by
  intro uid sid' mapped stored
  rw [stored_hset] at stored
  by_cases written : sid' = sid ∧ field = defaultUserField
  · rw [written.1] at mapped ⊢
    have read := reads uid mapped
    rw [if_pos written.2] at read
    rw [LoggedIn, userAt_hset, if_pos ⟨rfl, written.2⟩]
    exact read
  · have same : (store.hset (sessionKey sid) field value).userAt U sid' =
        store.userAt U sid' := by rw [userAt_hset, if_neg written]
    refine (loggedIn_of_userAt_eq same).mpr (sound uid sid' mapped ?_)
    rcases stored with rfl | stored
    · have wasStored := reads uid mapped
      rwa [if_neg fun named => written ⟨rfl, named⟩] at wasStored
    · exact stored

theorem hdel (sound : store.Sound U)
    (unmapped : field = defaultUserField → store.Stored sid → ∀ uid, ¬store.Mapped uid sid) :
    (store.hdel (sessionKey sid) field).Sound U := by
  intro uid sid' mapped stored
  have wasStored := stored_of_stored_hdel stored
  by_cases erased : sid' = sid ∧ field = defaultUserField
  · rw [erased.1] at wasStored mapped
    exact absurd mapped (unmapped erased.2 wasStored uid)
  · have same : (store.hdel (sessionKey sid) field).userAt U sid' = store.userAt U sid' := by
      rw [userAt_hdel, if_neg erased]
    exact (loggedIn_of_userAt_eq same).mpr (sound uid sid' mapped wasStored)

theorem srem (sound : store.Sound U) (userKey : Str) : (store.srem userKey sid).Sound U :=
  sound.shrinks (Shrinks.refl store) fun _ _ listed => ((mem_members_srem ..).mp listed).1

/-- A hash that no mapping set lists may change in any way. -/
theorem write (sound : store.Sound U) (unmapped : ∀ uid, ¬store.Mapped uid sid)
    (update : Dict → Dict) : (store.write (sessionKey sid) update).Sound U := by
  intro uid sid' mapped stored
  have other : sid' ≠ sid := by
    rintro rfl
    exact unmapped uid mapped
  have wasStored : store.Stored sid' := by
    simpa [Stored, sessionKey_inj, other] using stored
  exact (loggedIn_of_userAt_eq (userAt_write other)).mpr (sound uid sid' mapped wasStored)

theorem index (sound : store.Sound U) {uid : Nat}
    (own : store.Stored sid → store.LoggedIn U uid sid) :
    (store.index (userKeyOf uid) sid).Sound U := by
  intro uid' sid' mapped stored
  have same : (store.index (userKeyOf uid) sid).userAt U sid' = store.userAt U sid' := by
    simp [userAt]
  have wasStored : store.Stored sid' := by simpa [Stored] using stored
  rw [loggedIn_of_userAt_eq same]
  rcases (mem_members_index ..).mp mapped with ⟨keys, rfl⟩ | mapped
  · rw [userKeyOf_inj.mp keys]
    exact own wasStored
  · exact sound uid' sid' mapped wasStored

end Sound

end Redis

end Dce.Session
