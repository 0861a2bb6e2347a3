import Dce.Session.Stays
import Dce.Session.Spared

/-!
# The cached user

A session object that got a new id loads its user anew, but keeps the one it had
where the new hash holds none. Its field names decide where it looks, and no
operation changes them, whatever the replies are.
-/

namespace Dce.Session

open SessionM RedisSession

variable {U α β : Type}

-- the arithmetic of the clock is not to be evaluated
attribute [local irreducible] AutoRenew.secondsFromRenew

/-- The session and the root have the default names. -/
structure Scope.Default (scope : Scope U) : Prop where
  session : scope.session.names = defaultNames
  root : ∀ root, scope.root = some root → root.names = defaultNames

theorem indifferent_default : Indifferent (Scope.Default : Scope U → Prop) where
  user _ _ default := ⟨default.session, default.root⟩
  tryLoaded _ _ default := ⟨default.session, default.root⟩
  touches _ _ default := ⟨default.session, default.root⟩

theorem adopt_sidName (info : Meta) (sid : Str) : (info.adopt sid).2.sidName = info.sidName := by
  rw [Meta.adopt]
  split <;> rfl

section

variable {env : Env} {filters : Filters} {connection : Bool}

theorem keepsNames_updateShadow (newSid : Str) :
    (updateShadow newSid : SessionM U Unit).Stays (fun _ => True) Scope.Default := by
  apply stays_updateShadow
  rintro root scope ⟨scope', default', found⟩ default serverUnbound
  refine ⟨default.session, ?_⟩
  rintro _ ⟨⟩
  rw [← default'.root root found]
  simp [Core.names, adopt_sidName]

variable [UidGetter U] [Serde U]

theorem keepsNames_renew (filters : Filters) :
    (RedisSession.renew connection env filters : SessionM U Bool).Stays (fun _ => True)
      Scope.Default :=
  stays_renew indifferent_default (fun _ default => ⟨default.session, default.root⟩)
    keepsNames_updateShadow filters

theorem keepsNames_logIn (user : Option U) (ttlMinutes : Option UInt16) :
    (logIn connection env user ttlMinutes : SessionM U Bool).Stays (fun _ => True)
      Scope.Default := by
  refine stays_bind (stays_modify fun scope default => ⟨?_, default.root⟩) fun _ =>
    stays_self fun scope _ => stays_bind (stays_attempt (keepsNames_renew _)) fun result => ?_
  · rw [← default.session]
    cases user <;> simp [Core.names, prepareLogin]
  · cases result with
    | ok value =>
        exact stays_of_same fun _ _ => moves_clonedDestroy (fun _ _ => trivial) fun _ _ => trivial
    | error error => exact stays_throw _

/-- Whatever the replies are, the names stay the default ones. -/
theorem Operation.keepsNames_program (connection : Bool) (operation : Operation U) :
    (operation.program connection).Stays (fun _ => True) Scope.Default := by
  have clones (scope : Scope U) (default : scope.Default) (cloned : Option (Core U)) :
      Scope.Default { scope with session := { scope.session with cloned } } :=
    ⟨default.session, default.root⟩
  refine operation.stays_program indifferent_default ?_ ?_ ?_ ?_
  · exact fun env user ttlMinutes _ => keepsNames_logIn (some user) (some ttlMinutes)
  · exact fun env _ => keepsNames_logIn none none
  · exact fun env filters _ => keepsNames_renew filters
  · refine fun env conf _ => stays_tryRenew indifferent_default keepsNames_renew
      (fun scope default => clones scope default _) fun newSid => stays_self fun scope _ => ?_
    exact stays_bind (stays_attempt (stays_ofOutcome _)) fun _ =>
      stays_modify fun scope default => clones scope default _

/-- While commands fail, the user of the session is the one that its hash holds. -/
def Scope.ShowsStored (scope : Scope U) (store : Redis) (faults : Nat → Bool) : Prop :=
  (user.tryExec scope store faults).1 = .ok (storedUser scope.session.toCore store)

omit [UidGetter U] in
/-- A loaded user is shown without a command. -/
theorem showsStored_loaded {scope : Scope U} {store : Redis} (faults : Nat → Bool)
    (loaded : scope.session.userMeta.tryLoaded = true) :
    scope.ShowsStored store faults ↔
      scope.session.userMeta.user = storedUser scope.session.toCore store := by
  simp [Scope.ShowsStored, user, loaded]

/-- The user that a regeneration copies into the new hash. -/
def copiedUser (prepared : RedisSession U) (filters : Filters) (before : Redis) : Option U :=
  (newborn prepared filters before)[defaultUserField]?.bind Serde.fromJson

/-- A regeneration whose read of the new hash is refused has cached the user that it copied; any
other has no user cached, or copies one. -/
def Unspoiled (prepared : RedisSession U) (filters : Filters) (before : Redis)
    (faults : Nat → Bool) : Prop :=
  if faults (prepared.copyLength filters before) then
    prepared.userMeta.user = copiedUser prepared filters before
  else prepared.userMeta.user = none ∨ (copiedUser prepared filters before).isSome

namespace Operation

/-- The generated sid is not that of the session, and nothing is stored for it. -/
def SidFresh (session : RedisSession U) (store : Redis) : Operation U → Prop
  | login env _ ttlMinutes =>
      (Meta.genId env ttlMinutes).1 ≠ session.info.sid ∧
        store.fields (sessionKey (Meta.genId env ttlMinutes).1) = ∅
  | autoLogin env | renew env _ | tryRenew env _ =>
      (Meta.genId env session.info.ttlMinutes).1 ≠ session.info.sid ∧
        store.fields (sessionKey (Meta.genId env session.info.ttlMinutes).1) = ∅
  | _ => True

/-- A login copies the hash at once, a renewal after the commands that choose what is copied. -/
def Unspoiled (session : RedisSession U) (store : Redis) (faults : Nat → Bool) :
    Operation U → Prop
  | login _ user ttlMinutes =>
      let prepared := prepareLogin (some user) (some ttlMinutes) session
      Session.Unspoiled prepared (loginFilters prepared) store faults
  | autoLogin _ =>
      let prepared := prepareLogin none none session
      Session.Unspoiled prepared (loginFilters prepared) store faults
  | renew _ filters => Session.Unspoiled session filters store faults
  | tryRenew _ conf =>
      match conf.markerOf session store faults with
      | none => Session.Unspoiled session ∅ store (later faults 1)
      | some newSid =>
          Session.Unspoiled session ((∅ : Filters).insert conf.newSidField none)
            (store.del (genKey session.info.sidName newSid))
            (later faults (conf.judgingLength session newSid store (later faults 1) + 2))
  | _ => True

end Operation

section

variable {scope scope' : Scope U} {store before store' : Redis} {prepared : RedisSession U}
  {env : Env} {filters : Filters} {faults left : Nat → Bool} {connection value : Bool}

/-- What a regeneration that ends well leaves of the session and of its user. -/
structure LeavesUser (prepared : RedisSession U) (env : Env) (filters : Filters) (before : Redis)
    (faults : Nat → Bool) (session : RedisSession U) (store' : Redis) : Prop where
  session : session = prepared.succeeding env filters before faults
  user : (store'.fields (sessionKey (newSid prepared env)))[defaultUserField]? =
    (newborn prepared filters before)[defaultUserField]?

omit [UidGetter U] in
/-- The user comes from the hash that was stored, or else it is the one that was cached. -/
theorem LeavesUser.showsStored_iff
    (leaves : LeavesUser prepared env filters before faults scope.session store')
    (names : prepared.names = defaultNames)
    (unstored : before.fields (sessionKey (newSid prepared env)) = ∅) (asked : Nat → Bool) :
    scope.ShowsStored store' asked ↔ Unspoiled prepared filters before faults := by
  have userField : prepared.userMeta.userField = defaultUserField := congrArg (·.2.2.1) names
  have stored : storedUser scope.session.toCore store' = copiedUser prepared filters before := by
    have key : scope.session.key = sessionKey (newSid prepared env) := by
      rw [leaves.session]
      exact key_regenerated names
    have field : scope.session.userMeta.userField = defaultUserField := by
      rw [leaves.session]
      exact userField
    rw [storedUser, key, field, leaves.user, copiedUser]
  have loading : (prepared.regenerated env filters before).loadedUser
      (prepared.copied env filters before) =
        (copiedUser prepared filters before).or prepared.userMeta.user := by
    rw [loadedUser_regenerated names, Redis.userAt, fields_copied_new names filters unstored,
      copiedUser]
  have cached : scope.session.userMeta.user =
      if faults (prepared.copyLength filters before) then prepared.userMeta.user
      else (copiedUser prepared filters before).or prepared.userMeta.user := by
    rw [leaves.session, ← loading]
    simp [succeeding, resolved, actingUser, regenerated]
  have loaded : scope.session.userMeta.tryLoaded = true := by rw [leaves.session]; rfl
  rw [showsStored_loaded asked loaded, cached, stored, Unspoiled]
  split
  · rfl
  · cases copiedUser prepared filters before <;> simp

theorem leavesUser_renew (scope : Scope U) (names : scope.session.names = defaultNames)
    (unstored : before.fields (sessionKey (newSid scope.session env)) = ∅)
    (done : (RedisSession.renew connection env filters).tryExec scope before faults =
      (.ok value, scope', store', left)) :
    LeavesUser scope.session env filters before faults scope'.session store' := by
  cases read : faults 0 with
  | true =>
      rw [tryExec_renew_unread scope before faults read] at done
      cases done
  | false =>
      rcases tryExec_renew_read scope before faults read connection env filters with
        ⟨outcome, session, root, _, _, renewed, _, _, _, _, leaving⟩
      cases renewed.symm.trans done
      have leaves := (leaving value rfl).2
      have serverField : defaultUserField ≠ scope.session.connMeta.serverField := by
        rw [show scope.session.connMeta.serverField = defaultServerField from
          congrArg (·.2.2.2) names]
        decide
      refine ⟨leaves.session, ?_⟩
      rw [leaves.fields _ _ serverField, fields_copied_new names filters unstored]

theorem leavesUser_logIn (user : Option U) (ttlMinutes : Option UInt16)
    (names : scope.session.names = defaultNames)
    (other : newSid (prepareLogin user ttlMinutes scope.session) env ≠ scope.session.info.sid)
    (unstored : store.fields
      (sessionKey (newSid (prepareLogin user ttlMinutes scope.session) env)) = ∅)
    (done : (logIn connection env user ttlMinutes).tryExec scope store faults =
      (.ok value, scope', store', left)) :
    LeavesUser (prepareLogin user ttlMinutes scope.session) env
      (loginFilters (prepareLogin user ttlMinutes scope.session)) store faults scope'.session
      store' := by
  let prepared := prepareLogin user ttlMinutes scope.session
  have named : prepared.names = defaultNames := by
    rw [← names]
    cases user <;> simp [Core.names, prepared, prepareLogin]
  have start : (logIn connection env user ttlMinutes).tryExec scope store faults = _ :=
    (tryExec_bind_of (tryExec_modify ..)).trans (tryExec_bind_of (tryExec_self ..))
  cases renewed : (RedisSession.renew connection env (loginFilters prepared)).tryExec
      { scope with session := prepared } store faults with
  | mk outcome rest =>
      rcases rest with ⟨within, before, begun⟩
      cases outcome with
      | ok value' =>
          have leaves := leavesUser_renew { scope with session := prepared } named unstored renewed
          have cloned : within.session.cloned = some scope.session.toCore := by
            rw [leaves.session]
            rfl
          rcases tryExec_clonedDestroy within before begun cloned with
            ⟨_, _, _, destroyed, _, spared⟩
          have ended := (start.trans (tryExec_bind_of (tryExec_attempt_of renewed))).symm.trans done
          have sidName : within.session.info.sidName = defaultIdName := by
            rw [leaves.session]
            exact congrArg Prod.fst named
          rw [sidName] at spared
          cases destroyed.symm.trans ended
          refine ⟨leaves.session, ?_⟩
          rw [spared _ fun same => other (sessionKey_inj.mp same), leaves.user]
      | err error =>
          cases (start.trans (tryExec_bind_of (tryExec_attempt_of_err renewed))).symm.trans done
      | panic =>
          cases (start.trans (tryExec_attempt_bind_of_panic renewed)).symm.trans done

theorem leavesUser_doClone {conf : AutoRenew} (cloned : Option (Core U))
    (names : scope.session.names = defaultNames)
    (other : newSid scope.session env ≠ scope.session.info.sid)
    (unstored : before.fields (sessionKey (newSid scope.session env)) = ∅)
    (done : (conf.doClone connection env filters).tryExec
      { scope with session := { scope.session with cloned } } before faults =
        (.ok value, scope', store', left)) :
    LeavesUser (AutoRenew.cloning scope.session) env filters before faults scope'.session
      store' := by
  have start : (conf.doClone connection env filters).tryExec
      { scope with session := { scope.session with cloned } } before faults = _ :=
    tryExec_bind_of (tryExec_modify ..)
  cases renewed : (RedisSession.renew connection env filters).tryExec
      { scope with session := AutoRenew.cloning scope.session } before faults with
  | mk outcome rest =>
      rcases rest with ⟨within, after, begun⟩
      cases outcome with
      | ok value' =>
          have leaves := leavesUser_renew { scope with session := AutoRenew.cloning scope.session }
            names unstored renewed
          have cloned : within.session.cloned = some scope.session.toCore := by
            rw [leaves.session]
            rfl
          rcases AutoRenew.tryExec_marking conf within after begun cloned with
            ⟨_, _, _, marked, _, spared⟩
          have ended := (start.trans (tryExec_bind_of (tryExec_attempt_of renewed))).symm.trans done
          have sidName : within.session.info.sidName = defaultIdName := by
            rw [leaves.session]
            exact congrArg Prod.fst names
          rw [sidName] at spared
          cases marked.symm.trans ended
          refine ⟨leaves.session, ?_⟩
          exact (congrArg (·[defaultUserField]?)
            (spared _ fun same => other (sessionKey_inj.mp same))).trans leaves.user
      | err error =>
          cases (start.trans (tryExec_bind_of (tryExec_attempt_of_err renewed))).symm.trans done
      | panic =>
          cases (start.trans (tryExec_attempt_bind_of_panic renewed)).symm.trans done

/-- The successor that a renewal replaces can be read, was judged not to be in use, and is
removed first. -/
theorem replaces_of_ok {conf : AutoRenew} {named : Str}
    (done : (conf.replaceOrDestroy connection env named).tryExec scope store faults =
      (.ok value, scope', store', left)) :
    ∃ cloned, (conf.doClone connection env ((∅ : Filters).insert conf.newSidField none)).tryExec
      { scope with session := { scope.session with cloned } }
      (store.del (genKey scope.session.info.sidName named))
      (later faults (conf.judgingLength scope.session named store faults + 1)) =
        (.ok value, scope', store', left) := by
  cases made : scope.session.cloneWithId named with
  | ok cloned =>
      rcases AutoRenew.tryExec_replaceOrDestroy conf connection scope store faults env made with
        ⟨destroys, fails, replaces⟩
      cases active : conf.judges scope.session named store faults with
      | true =>
          rcases destroys active with ⟨_, _, _, destroyed⟩
          cases destroyed.symm.trans done
      | false =>
          cases removing : faults (conf.judgingLength scope.session named store faults) with
          | true =>
              rcases fails active removing with ⟨_, failed⟩
              cases failed.symm.trans done
          | false => exact ⟨some cloned.toCore, (replaces active removing).symm.trans done⟩
  | err error =>
      rcases AutoRenew.tryExec_replaceOrDestroy_err conf connection scope store faults env made with
        ⟨_, failed⟩
      cases failed.symm.trans done
  | panic =>
      cases (AutoRenew.tryExec_replaceOrDestroy_panic conf connection scope store faults env
        made).symm.trans done

theorem Operation.showsStored_iff {operation : Operation U}
    (names : scope.session.names = defaultNames) (renewing : operation.Renewing)
    (fresh : operation.SidFresh scope.session store)
    (done : (operation.program connection).tryExec scope store faults =
      (.ok true, scope', store', left)) (asked : Nat → Bool) :
    scope'.ShowsStored store' asked ↔ operation.Unspoiled scope.session store faults := by
  cases operation with
  | login env user ttlMinutes =>
      have leaves := leavesUser_logIn (some user) (some ttlMinutes) names fresh.1 fresh.2 done
      exact leaves.showsStored_iff names fresh.2 asked
  | autoLogin env =>
      have leaves := leavesUser_logIn none none names fresh.1 fresh.2 done
      exact leaves.showsStored_iff names fresh.2 asked
  | renew env filters =>
      exact (leavesUser_renew scope names fresh.2 done).showsStored_iff names fresh.2 asked
  | tryRenew env conf =>
      have touched {faults : Nat → Bool} : (attempt tryTouch >>= fun _ => pure false :
          SessionM U Bool).tryExec scope store faults ≠ (.ok true, scope', store', left) := by
        intro done
        have returned := AutoRenew.tryExec_touching scope store faults
        rw [done] at returned
        cases returned
      change (conf.tryRenew connection env).tryExec scope store faults = _ at done
      rcases Int.lt_or_le (conf.due scope.session env) 0 with early | isDue
      · exact absurd ((AutoRenew.tryExec_tryRenew_early early).symm.trans done) touched
      rw [AutoRenew.tryExec_tryRenew_due isDue] at done
      cases marked : conf.markerOf scope.session store faults with
      | none =>
          simp only [marked] at done
          simp only [Operation.Unspoiled, marked]
          exact (leavesUser_doClone scope.session.cloned names fresh.1 fresh.2
            done).showsStored_iff names fresh.2 asked
      | some named =>
          simp only [marked] at done
          simp only [Operation.Unspoiled, marked]
          split at done
          · rcases replaces_of_ok done with ⟨cloned, renewed⟩
            have unstored : (store.del (genKey scope.session.info.sidName named)).fields
                (sessionKey (newSid scope.session env)) = ∅ := by
              rw [Redis.fields_del]
              split
              · rfl
              · exact fresh.2
            have leaves := leavesUser_doClone cloned names fresh.1 unstored renewed
            rw [later_later] at leaves
            exact leaves.showsStored_iff names unstored asked
          · exact absurd done touched
  | _ => exact renewing.elim

end

namespace System

variable {connection : Bool} {system : System U}

/-- No step changes the names of a session, whichever commands fail. -/
theorem names_of_reachable
    (reached : Reachable (System.step connection) (fun _ _ => True) Initial system) :
    system.Each fun session => session.names = defaultNames := by
  apply reached.invariant
  · rintro _ rfl
    exact .start
  · intro system action each _
    refine each.step action (fun _ _ _ => rfl) ?_ (fun _ _ names => names) ?_ ?_
    · exact fun sid session presented => (newWithId_proper presented).names
    · exact fun root index sid session names made => (cloneForRequest_names made).trans names
    · rintro index operation faults rfl
      cases found : system.objects index with
      | none => simpa [operate, found] using each
      | some session =>
          have kept := Prog.Sends.run (operation.keepsNames_program connection
            (system.scope session) ⟨each index session found, each.root session⟩)
            Redis.faultyAnswer (system.store, faults)
          simp only [operate, found]
          exact each.writeBack index kept.session kept.root

/-- After a session got a new id, the user it shows is the one stored for it just if the user was
not lost on the way; a session that was cloned for an id shows the one that is stored, if it can
read it. -/
theorem showsStored_iff_unspoiled
    (reached : Reachable (System.step connection) (fun _ _ => True) Initial system) {index : Nat}
    {session : RedisSession U} (found : system.objects index = some session)
    (faults asked : Nat → Bool) :
    (∀ operation : Operation U, operation.Renewing → operation.SidFresh session system.store →
      ∀ scope' store' left, (operation.program connection).tryExec (system.scope session)
        system.store faults = (.ok true, scope', store', left) →
        (scope'.ShowsStored store' asked ↔
          operation.Unspoiled session system.store faults)) ∧
      ∀ sid cloned root, session.cloneWithId sid = .ok cloned →
        (Scope.ShowsStored ⟨cloned, root⟩ system.store asked ↔
          (asked 0 = true → storedUser cloned.toCore system.store = none)) := by
  have names := names_of_reachable reached index session found
  constructor
  · intro operation renewing fresh scope' store' left done
    exact operation.showsStored_iff names renewing fresh done asked
  · intro sid cloned root made
    have reset : cloned.userMeta.user = none ∧ cloned.userMeta.tryLoaded = false := by
      simp only [cloneWithId, Meta.adopt] at made
      cases parsed : Meta.parseSid sid with
      | ok times =>
          simp only [parsed, Outcome.bind_ok, Outcome.pure_eq, Outcome.ok.injEq] at made
          rw [← made]
          exact ⟨rfl, rfl⟩
      | err error => simp [parsed] at made
      | panic => simp [parsed] at made
    rw [Scope.ShowsStored, tryExec_user _ _ _ reset.2]
    cases refused : asked 0 with
    | true => simp [actingUser, refused, reset, eq_comm]
    | false => simp [actingUser, refused, loadedUser, reset]

/-- A session that was logged in with. -/
def memberRun : List (Action Account) :=
  [.new (.uniform 0 0x70000000 0x70000000) 60,
    .operate 0 (.login (.uniform 1 0x70000001 0x70000001) ⟨7, 1⟩ 60) noFaults]

/-- Another request of the session logs its user out. -/
def staleRun : List (Action Account) :=
  memberRun ++ [.newWithId (List.replicate 64 '1' ++ "003C70000001".toList),
    .operate 1 .logout noFaults]

def staleRenewal : Operation Account := .renew (.uniform 2 0x70000002 0x70000002) ∅

theorem admits_any (actions : List (Action Account)) (system : System Account) :
    AdmitsRun (System.step false) (fun _ _ => True) system actions := by
  induction actions generalizing system with
  | nil => trivial
  | cons action actions ih => exact ⟨trivial, ih _⟩

theorem fresh_staleRenewal {system : System Account} {session : RedisSession Account}
    (ttl : session.info.ttlMinutes = 60)
    (other : (Meta.genId (.uniform 2 0x70000002 0x70000002) 60).1 ≠ session.info.sid)
    (unstored : (system.store.fields
      (sessionKey (Meta.genId (.uniform 2 0x70000002 0x70000002) 60).1)).isEmpty = true) :
    staleRenewal.SidFresh session system.store := by
  rw [staleRenewal, Operation.SidFresh, ttl]
  exact ⟨other, Std.ExtTreeMap.isEmpty_iff.mp unstored⟩

/-- The renewal after a run, by the first object, while commands fail. -/
def staleFinal (actions : List (Action Account)) (session : RedisSession Account)
    (faults : Nat → Bool) : Outcome SessionErr Bool × Scope Account × Redis × (Nat → Bool) :=
  (staleRenewal.program false).tryExec ((after false actions).scope session)
    (after false actions).store faults

theorem tryExec_staleRenewal {actions : List (Action Account)} {session : RedisSession Account}
    {faults : Nat → Bool} (returned : (staleFinal actions session faults).1 = .ok true) :
    (staleRenewal.program false).tryExec ((after false actions).scope session)
        (after false actions).store faults =
      (.ok true, (staleFinal actions session faults).2.1,
        (staleFinal actions session faults).2.2.1, (staleFinal actions session faults).2.2.2) := by
  rw [← returned]
  rfl

/-- A renewed session without a user shows the one that it had before the logout, although no
command fails. -/
theorem not_showsStored :
    ¬∀ (system : System Account) (index : Nat) (session : RedisSession Account),
      Reachable (System.step false) (fun _ _ => True) Initial system →
      system.objects index = some session → ∀ operation : Operation Account,
      operation.Renewing → operation.SidFresh session system.store → ∀ scope' store' left,
        (operation.program false).tryExec (system.scope session) system.store noFaults =
          (.ok true, scope', store', left) → scope'.ShowsStored store' noFaults := by
  intro claim
  have shows := claim (after false staleRun) 0 (((after false staleRun).objects 0).get (by decide))
    (reachable_after staleRun (admits_any _ _)) (Option.some_get _).symm staleRenewal trivial
    (fresh_staleRenewal (by decide) (by decide) (by decide)) _ _ _
    (tryExec_staleRenewal (by decide))
  rw [showsStored_loaded noFaults (by decide)] at shows
  exact absurd shows (by decide)

/-- The third command after the read of the old hash reads the user of the new one. -/
def unreadUser : Nat → Bool := fun position => position == 3

/-- Without the logout, the renewed session shows the user that it has, although it could not read
it. -/
theorem showsStored_iff_unspoiled_renew :
    (staleFinal memberRun (((after false memberRun).objects 0).get (by decide))
        unreadUser).2.1.ShowsStored
        (staleFinal memberRun (((after false memberRun).objects 0).get (by decide))
          unreadUser).2.2.1 noFaults ↔
      staleRenewal.Unspoiled (((after false memberRun).objects 0).get (by decide))
        (after false memberRun).store unreadUser :=
  (showsStored_iff_unspoiled (reachable_after memberRun (admits_any _ _))
    (Option.some_get (by decide)).symm unreadUser noFaults).1 staleRenewal trivial
    (fresh_staleRenewal (by decide) (by decide) (by decide)) _ _ _
    (tryExec_staleRenewal (by decide))

end System

end

end Dce.Session
