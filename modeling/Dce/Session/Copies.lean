import Dce.Session.Faults

/-!
# A copy that survives

A regeneration copies the hash of a session and may then delete it. Whatever
commands fail on the way, one complete copy is left, unless the lifetime of the
session is zero.
-/

namespace Dce.Session

open SessionM RedisSession

variable {U : Type}

/-- The two dictionaries have the same fields, but for those in `except`. -/
def AgreeBut (except : List Str) (dict dict' : Dict) : Prop :=
  ∀ field, field ∉ except → dict'[field]? = dict[field]?

theorem AgreeBut.trans {except : List Str} {dict dict' dict'' : Dict}
    (first : AgreeBut except dict dict') (second : AgreeBut except dict' dict'') :
    AgreeBut except dict dict'' :=
  fun field other => (second field other).trans (first field other)

theorem AgreeBut.refl (except : List Str) (dict : Dict) : AgreeBut except dict dict :=
  fun _ _ => rfl

/-- A command that keeps the hash at a key, but for the fields in `except`. -/
def Cmd.Spares (key : Str) (except : List Str) : Cmd → Prop
  | hset key' field _ | hdel key' field => key' = key → field ∈ except
  | hmset key' _ | del key' => key' ≠ key
  | expire (.session key') seconds => key' = key → seconds ≠ 0
  | _ => True

theorem Cmd.SparesHashes.spares {command : Cmd} (spares : command.SparesHashes) (key : Str)
    (except : List Str) : command.Spares key except := by
  cases command with
  | expire target seconds =>
      cases target with
      | session name => exact spares.elim
      | user name => trivial
  | hset | hdel | hmset | del => exact spares.elim
  | _ => trivial

theorem agreeBut_after {command : Cmd} {key : Str} {except : List Str}
    (spares : command.Spares key except) (store : Redis) :
    AgreeBut except (store.fields key) ((store.after command).fields key) := by
  intro field other
  have apart {changed : Str} (key' : Str) (allowed : key' = key → changed ∈ except)
      (same : key = key') : changed ≠ field := fun eq => other (eq ▸ allowed same.symm)
  cases command with
  | hset key' changed value =>
      simp only [Redis.after, Redis.fields_hset]
      split
      · rename_i same
        rw [Std.ExtTreeMap.getElem?_insert, if_neg (by simpa using apart key' spares same), same]
      · rfl
  | hdel key' changed =>
      simp only [Redis.after, Redis.fields_hdel]
      split
      · rename_i same
        rw [Std.ExtTreeMap.getElem?_erase, if_neg (by simpa using apart key' spares same), same]
      · rfl
  | hmset key' data =>
      have other : key ≠ key' := Ne.symm spares
      simp [Redis.after, other]
  | del key' =>
      have other : key ≠ key' := Ne.symm spares
      simp [Redis.after, other]
  | expire target seconds =>
      cases target with
      | session name =>
          have alive : ¬(key = name ∧ seconds = 0) := fun both => spares both.1.symm both.2
          simp [Redis.after, alive]
      | user name => simp [Redis.after]
  | sadd | srem => simp [Redis.after]
  | _ => rfl

/-- What gives a session a new id. -/
inductive Regeneration (U : Type) where
  | login (env : Env) (user : U) (ttlMinutes : UInt16)
  | autoLogin (env : Env)
  | renew (env : Env) (filters : Filters)
  | doClone (env : Env) (conf : AutoRenew) (filters : Filters)

namespace Regeneration

def program [UidGetter U] [Serde U] (connection : Bool) : Regeneration U → SessionM U Bool
  | login env user ttlMinutes => RedisSession.login connection env user ttlMinutes
  | autoLogin env => RedisSession.autoLogin connection env
  | renew env filters => RedisSession.renew connection env filters
  | doClone env conf filters => conf.doClone connection env filters

def env : Regeneration U → Env
  | login env .. | autoLogin env | renew env _ | doClone env .. => env

/-- The session as it is when the regeneration begins to copy its hash. -/
def prepared (session : RedisSession U) : Regeneration U → RedisSession U
  | login _ user ttlMinutes => prepareLogin (some user) (some ttlMinutes) session
  | autoLogin _ => prepareLogin none none session
  | renew .. => session
  | doClone .. => AutoRenew.cloning session

def filters [Serde U] (session : RedisSession U) : Regeneration U → Filters
  | login env user ttlMinutes => loginFilters ((login env user ttlMinutes).prepared session)
  | autoLogin env => loginFilters ((autoLogin env).prepared session)
  | renew _ filters | doClone _ _ filters => filters

/-- The field of the old session that names the new one. -/
def newSidField : Regeneration U → Str
  | doClone _ conf _ => conf.newSidField
  | _ => defaultNewSidField

/-- The lifetime of the new session is not zero; a `renew` keeps the old session anyway. -/
def Lives (session : RedisSession U) : Regeneration U → Prop
  | renew .. => True
  | regeneration => (regeneration.prepared session).info.ttlMinutes ≠ 0

/-- The key of the new session. -/
def newKey (session : RedisSession U) (regeneration : Regeneration U) : Str :=
  genKey session.info.sidName (newSid (regeneration.prepared session) regeneration.env)

/-- The hash of the session is still there, but for the marker of a renewal. -/
def Intact (session : RedisSession U) (regeneration : Regeneration U) (store store' : Redis) :
    Prop :=
  AgreeBut [regeneration.newSidField] (store.fields session.key) (store'.fields session.key)

/-- A hash holds what the session held, with the filters applied, but for the fields in
`except`. -/
def Loaded [Serde U] (except : List Str) (session : RedisSession U)
    (regeneration : Regeneration U) (store : Redis) (key : Str) (store' : Redis) : Prop :=
  AgreeBut except (applyFilters (regeneration.filters session) (store.fields session.key))
    (store'.fields key)

/-- One complete copy is left, in the old hash or in the one the session has now, and the old hash
is never gone before the new one is complete. -/
def KeepsCopy [UidGetter U] [Serde U] (connection : Bool) (except : List Str) (scope : Scope U)
    (regeneration : Regeneration U) (store : Redis) (faults : Nat → Bool) : Prop :=
  let final := (regeneration.program connection scope).run Redis.faultyAnswer (store, faults)
  (regeneration.Intact scope.session store final.2.1 ∨
      regeneration.Loaded except scope.session store final.1.2.session.key final.2.1) ∧
    ∀ visited ∈ (regeneration.program connection scope).trace Redis.faultyAnswer
      (store, faults),
      regeneration.Intact scope.session store visited.1 ∨
        regeneration.Loaded except scope.session store (regeneration.newKey scope.session) visited.1

/-- The generated sid is not the one in use, and no hash is stored for it. -/
def Unused (session : RedisSession U) (regeneration : Regeneration U) (store : Redis) : Prop :=
  newSid (regeneration.prepared session) regeneration.env ≠ session.info.sid ∧
    store.fields (regeneration.newKey session) = ∅

end Regeneration

theorem Cmd.Completes.spares_other {connection : Bool} {key serverField : Str} {seconds : Nat}
    {command : Cmd} (completes : command.Completes connection key serverField seconds)
    {key' : Str} (other : key ≠ key') (except : List Str) : command.Spares key' except := by
  cases completes with
  | spares spares => exact spares.spares key' except
  | touch => exact fun same => absurd same other
  | bind => exact fun same => absurd same other

theorem Cmd.Completes.spares_own {connection : Bool} {key serverField : Str} {seconds : Nat}
    {command : Cmd} (completes : command.Completes connection key serverField seconds)
    (lives : seconds ≠ 0) :
    command.Spares key (if connection then [serverField] else []) := by
  cases completes with
  | spares spares => exact spares.spares key _
  | touch => exact fun _ => lives
  | bind connected => exact fun _ => by simp [connected]

section

variable {connection : Bool} {scope : Scope U} {env : Env} {filters : Filters} {store : Redis}
  {faults : Nat → Bool}

/-- A regeneration leaves the old hash alone. -/
theorem completing_old (scope : Scope U) (env : Env) (except : List Str)
    (other : (scope.renewed env).session.key ≠ scope.session.key) :
    Completing connection
      (fun store' => AgreeBut except (store.fields scope.session.key)
        (store'.fields scope.session.key))
      (fun store' => AgreeBut except (store.fields scope.session.key)
        (store'.fields scope.session.key))
      scope env filters store faults where
  start := .refl _ _
  weaker _ kept := kept
  emptied _ := .refl _ _
  loaded _ _ _ := by
    rw [Redis.fields_hmset, if_neg (Ne.symm other)]
    exact .refl _ _
  kept command store' completes kept :=
    kept.trans (agreeBut_after (completes.spares_other other except) store')

/-- A regeneration leaves the old hash alone and completes the new one. -/
theorem completing_both (scope : Scope U) (env : Env) (except : List Str)
    (other : (scope.renewed env).session.key ≠ scope.session.key)
    (unused : store.fields (scope.renewed env).session.key = ∅)
    (lives : scope.session.info.ttlMinutes ≠ 0) :
    Completing connection
      (fun store' => AgreeBut except (store.fields scope.session.key)
        (store'.fields scope.session.key))
      (fun store' => AgreeBut except (store.fields scope.session.key)
          (store'.fields scope.session.key) ∧
        AgreeBut (if connection then [scope.session.connMeta.serverField] else [])
          (scope.session.copyOf filters store)
          (store'.fields (scope.renewed env).session.key))
      scope env filters store faults where
  start := .refl _ _
  weaker _ kept := kept.1
  emptied nothing := by
    rw [unused, nothing]
    exact ⟨.refl _ _, .refl _ _⟩
  loaded _ _ _ := by
    rw [Redis.fields_hmset, Redis.fields_hmset, if_neg (Ne.symm other), if_pos rfl, unused,
      Redis.empty_union]
    exact ⟨.refl _ _, .refl _ _⟩
  kept command store' completes kept := by
    rw [ne_eq, ← Meta.ttlSeconds_eq_zero] at lives
    exact ⟨kept.1.trans (agreeBut_after (completes.spares_other other except) store'),
      kept.2.trans (agreeBut_after (completes.spares_own lives) store')⟩

variable [UidGetter U] [Serde U]

/-- The old session is destroyed only where the new one is complete. -/
theorem meets_logIn {user : Option U} {ttlMinutes : Option UInt16} (except : List Str)
    {key newKey : Str} (named : (prepareLogin user ttlMinutes scope.session).key = key)
    (renamed : genKey (prepareLogin user ttlMinutes scope.session).info.sidName
      (newSid (prepareLogin user ttlMinutes scope.session) env) = newKey)
    (other : newKey ≠ key) (unused : store.fields newKey = ∅)
    (lives : (prepareLogin user ttlMinutes scope.session).info.ttlMinutes ≠ 0) :
    let intact := fun store' : Redis => AgreeBut except (store.fields key) (store'.fields key)
    let loaded := fun store' : Redis =>
      AgreeBut (if connection then [scope.session.connMeta.serverField] else [])
        (applyFilters (loginFilters (prepareLogin user ttlMinutes scope.session))
          (store.fields key)) (store'.fields newKey)
    (logIn connection env user ttlMinutes).Meets (fun store' => intact store' ∨ loaded store')
      (fun _ scope' state' => intact state'.1 ∨ scope'.session.key = newKey ∧ loaded state'.1)
      scope (store, faults) := by
  intro intact loaded
  subst named renamed
  let prepared := prepareLogin user ttlMinutes scope.session
  let within : Scope U := { scope with session := prepared }
  have completing : Completing connection intact (fun store' => intact store' ∧ loaded store')
      within env (loginFilters prepared) store faults :=
    completing_both within env except other unused lives
  refine meets_modify (meets_self ?_)
  change SessionM.Meets _ _ (attempt (renew connection env (loginFilters prepared)) >>= _) within _
  refine meets_bind (meets_attempt ((meets_renew completing).mono (fun _ => .inl) ?_))
  intro outcome scope' state' here regenerated
  cases outcome with
  | panic => exact .inl here
  | err error => exact meets_ofOutcome (.inl here) (.inl here)
  | ok value =>
      rcases regenerated with ⟨alike, _, done⟩ | ⟨failed, _⟩
      · have oldKey :
            genKey scope'.session.info.sidName scope.session.info.sid = prepared.key := by
          rw [alike.sidName]
          simp [prepared, Core.key, Scope.renewed, within, Meta.regenerate, prepareLogin]
        have destroys : clonedDestroy.Frames
            (fun command => command.Spares (within.renewed env).session.key
              (if connection then [prepared.connMeta.serverField] else [])) scope' := by
          refine frames_of_same (moves_clonedDestroy (fun _ mild => mild.spares.spares _ _) ?_)
          intro cloned named
          rw [Option.some.inj (named.symm.trans alike.cloned), oldKey]
          exact Ne.symm other
        have kept (command : Cmd) (store' : Redis) (spares : command.Spares
            (within.renewed env).session.key
            (if connection then [prepared.connMeta.serverField] else [])) (done : loaded store') :
            loaded (store'.after command) := done.trans (agreeBut_after spares store')
        refine (destroys.meets kept done).mono (fun _ => .inr) ?_
        exact fun outcome scope'' state'' done alike' => .inr ⟨alike'.key.trans alike.key, done⟩
      · exact absurd rfl (failed value)

/-- The old session gets no more than the name of the new one. -/
theorem meets_doClone {conf : AutoRenew}
    (other : (scope.renewed env).session.key ≠ scope.session.key)
    (lives : scope.session.info.ttlMinutes ≠ 0) :
    (conf.doClone connection env filters).Meets
      (fun store' => AgreeBut [conf.newSidField] (store.fields scope.session.key)
        (store'.fields scope.session.key)) (fun _ _ _ => True) scope (store, faults) := by
  let within : Scope U := { scope with session := AutoRenew.cloning scope.session }
  let intact := fun store' : Redis =>
    AgreeBut [conf.newSidField] (store.fields scope.session.key) (store'.fields scope.session.key)
  have completing : Completing connection intact intact within env filters store faults :=
    completing_old within env _ other
  refine meets_modify (meets_bind (meets_attempt
    ((meets_renew completing).mono (fun _ here => here) ?_)))
  intro outcome scope' state' here regenerated
  cases outcome with
  | panic => trivial
  | err error => exact meets_ofOutcome here trivial
  | ok value =>
      rcases regenerated with ⟨alike, _⟩ | ⟨failed, _⟩
      · have oldKey : genKey scope'.session.info.sidName scope.session.info.sid =
            scope.session.key := by
          rw [alike.sidName]
          rfl
        have ttl : scope'.session.info.ttlSeconds ≠ 0 := by
          rw [alike.ttlSeconds]
          exact fun zero => lives ((Meta.ttlSeconds_eq_zero _).mp zero)
        have named : scope'.session.cloned = some scope.session.toCore := alike.cloned
        refine Meets.mono (Frames.meets ?_ (fun command store' spares kept =>
          kept.trans (agreeBut_after spares store')) here) (fun _ kept => kept)
            fun _ _ _ _ _ => trivial
        exact frames_of_same (moves_marking (fun _ _ _ => ttl)
          fun _ _ _ => List.mem_singleton.mpr rfl)
      · exact absurd rfl (failed value)

end

namespace Regeneration

variable [UidGetter U] [Serde U] {connection : Bool} {scope : Scope U} {store : Redis}
  {faults : Nat → Bool}

/-- Where the old hash may go, the new one has the name that the object was given. -/
theorem meets_program (regeneration : Regeneration U) (lives : regeneration.Lives scope.session)
    (unused : regeneration.Unused scope.session store) :
    let except := if connection then [scope.session.connMeta.serverField] else []
    let newKey := regeneration.newKey scope.session
    let intact := regeneration.Intact scope.session store
    let loaded := regeneration.Loaded except scope.session store newKey
    (regeneration.program connection).Meets (fun store' => intact store' ∨ loaded store')
      (fun _ scope' state' => intact state'.1 ∨ scope'.session.key = newKey ∧ loaded state'.1)
      scope (store, faults) := by
  have other : regeneration.newKey scope.session ≠ scope.session.key :=
    fun same => unused.1 (genKey_inj.mp same)
  cases regeneration with
  | login env user ttlMinutes => exact meets_logIn _ rfl rfl other unused.2 lives
  | autoLogin env => exact meets_logIn _ rfl rfl other unused.2 lives
  | renew env filters =>
      exact (meets_renew (completing_old scope env _ other)).mono (fun _ => .inl)
        fun _ _ _ here _ => .inl here
  | doClone env conf filters =>
      exact (meets_doClone other lives).mono (fun _ => .inl) fun _ _ _ here _ => .inl here

theorem keepsCopy (regeneration : Regeneration U) (lives : regeneration.Lives scope.session)
    (unused : regeneration.Unused scope.session store) :
    regeneration.KeepsCopy connection
      (if connection then [scope.session.connMeta.serverField] else []) scope store faults := by
  rcases regeneration.meets_program lives unused with ⟨throughout, intact | ⟨named, loaded⟩⟩
  · exact ⟨.inl intact, throughout⟩
  · refine ⟨.inr ?_, throughout⟩
    rw [named]
    exact loaded

/-- A session with a cart and the name of a server. -/
def cartSession : RedisSession Account := RedisSession.new (.uniform 0 0x70000000 0x70000000) 60

def cartStore : Redis :=
  (Redis.empty.hset cartSession.key "cart".toList "3".toList).hset cartSession.key
    defaultServerField "gateway".toList

def cartLogin (ttlMinutes : UInt16) : Regeneration Account :=
  .login (.uniform 1 0x70000000 0x70000000) ⟨7, 1⟩ ttlMinutes

theorem cartLogin_unused {ttlMinutes : UInt16} (short : ttlMinutes = 0 ∨ ttlMinutes = 30) :
    (cartLogin ttlMinutes).Unused cartSession cartStore := by
  rcases short with rfl | rfl
  · exact ⟨by decide, Std.ExtTreeMap.isEmpty_iff.mp (by decide)⟩
  · exact ⟨by decide, Std.ExtTreeMap.isEmpty_iff.mp (by decide)⟩

theorem cartLogin_lives : (cartLogin 30).Lives cartSession :=
  show (30 : UInt16) ≠ 0 by decide

/-- A login for zero minutes loses the cart. A login in a connection to another server replaces the
name of the server. -/
theorem not_keepsCopy :
    (¬∀ (regeneration : Regeneration Account) (scope : Scope Account) (store : Redis)
      (faults : Nat → Bool), regeneration.Unused scope.session store →
        regeneration.KeepsCopy false [] scope store faults) ∧
    ¬∀ (regeneration : Regeneration Account) (scope : Scope Account) (store : Redis)
      (faults : Nat → Bool), regeneration.Lives scope.session →
        regeneration.Unused scope.session store →
        regeneration.KeepsCopy true [] scope store faults := by
  constructor
  · intro claim
    rcases claim (cartLogin 0) ⟨cartSession, none⟩ cartStore noFaults
      (cartLogin_unused (.inl rfl)) with ⟨intact | loaded, _⟩
    · exact absurd (intact "cart".toList (by decide)) (by decide)
    · exact absurd (loaded "cart".toList (by decide)) (by decide)
  · intro claim
    let root : RedisSession Account :=
      (RedisSession.new (.uniform 2 0x70000000 0x70000000) 60).connect "other".toList
    rcases claim (cartLogin 30) ⟨cartSession, root⟩ cartStore noFaults cartLogin_lives
      (cartLogin_unused (.inr rfl)) with ⟨intact | loaded, _⟩
    · exact absurd (intact defaultServerField (by decide)) (by decide)
    · exact absurd (loaded defaultServerField (by decide)) (by decide)

/-- A login whose last touch fails. -/
theorem keepsCopy_login :
    (cartLogin 30).KeepsCopy false [] ⟨cartSession, none⟩ cartStore (· == 2) :=
  (cartLogin 30).keepsCopy cartLogin_lives (cartLogin_unused (.inr rfl))

end Regeneration

end Dce.Session
