import Dce.Session.Marker

/-!
# The outcomes of a renewal

What `try_renew` returns tells what it did to the session that was presented, to
the successor that was named in it, and to every other hash.
-/

namespace Dce.Session

open SessionM RedisSession

variable {U : Type}

/-- No marker names the session that it is in. -/
def Redis.NamesOthers (store : Redis) : Prop :=
  ∀ sid newSid, store.marker? (sessionKey sid) = some newSid → newSid ≠ sid

/-- The generated sid is not that of the session, is not stored, and is named nowhere. -/
structure Env.Fresh (env : Env) (ttlMinutes : UInt16) (session : RedisSession U) (store : Redis) :
    Prop where
  other : (Meta.genId env ttlMinutes).1 ≠ session.info.sid
  unstored : ¬store.Stored (Meta.genId env ttlMinutes).1
  unnamed : ∀ sid, store.marker? (sessionKey sid) ≠ some (Meta.genId env ttlMinutes).1

/-- The application writes no marker, and generated sids are fresh. -/
def Operation.Untampering (session : RedisSession U) (store : Redis) : Operation U → Prop
  | set field _ => field ≠ defaultNewSidField
  | login env _ ttlMinutes => env.Fresh ttlMinutes session store
  | autoLogin env => env.Fresh session.info.ttlMinutes session store
  | renew env filters =>
      (∀ value, filters[defaultNewSidField]? ≠ some (some value)) ∧
        env.Fresh session.info.ttlMinutes session store
  | tryRenew env conf =>
      conf.newSidField = defaultNewSidField ∧ env.Fresh session.info.ttlMinutes session store
  | _ => True

section

theorem namesOthers_after {command : Cmd} {store : Redis} (unmarking : command.Unmarking)
    (others : store.NamesOthers) : (store.after command).NamesOthers :=
  fun sid newSid found => others sid newSid (noNewMarker_after unmarking store _ _ found)

/-- The marker that is copied to a fresh sid is not that sid. -/
theorem namesOthers_loadedCopy {prepared : RedisSession U} {env : Env} {filters : Filters}
    {store : Redis} (others : store.NamesOthers) (names : prepared.names = defaultNames)
    (fresh : ∀ marker, (prepared.copyOf filters store)[defaultNewSidField]? = some marker →
      marker ≠ newSid prepared env) :
    (prepared.loadedCopy env filters store).NamesOthers := by
  have key : genKey prepared.info.sidName (newSid prepared env) =
      sessionKey (newSid prepared env) := by
    rw [show prepared.info.sidName = defaultIdName from congrArg Prod.fst names, sessionKey]
  intro sid marker found
  rw [loadedCopy, key, Redis.marker?, Redis.fields_hmset] at found
  split at found
  · rename_i same
    rw [sessionKey_inj] at same
    subst same
    rw [Std.ExtTreeMap.getElem?_union] at found
    cases copied : (prepared.copyOf filters store)[defaultNewSidField]? with
    | none =>
        rw [copied, Option.none_or] at found
        exact others _ marker found
    | some marker' =>
        rw [copied, Option.some_or, Option.some.injEq] at found
        exact found ▸ fresh marker' copied
  · exact others sid marker found

theorem Operation.Untampering.admits [Serde U] {operation : Operation U} {session : RedisSession U}
    {store : Redis} {faults : Nat → Bool} (untampering : operation.Untampering session store)
    (names : session.names = defaultNames) (others : store.NamesOthers) :
    operation.Admits Redis.NamesOthers session store faults := by
  have ownKey : session.key = sessionKey session.info.sid := Core.key_of_names names
  have loggedIn {env : Env} {user : Option U} {ttlMinutes : Option UInt16}
      (fresh : env.Fresh (prepareLogin user ttlMinutes session).info.ttlMinutes session store) :
      ((prepareLogin user ttlMinutes session).loadedCopy env
        (loginFilters (prepareLogin user ttlMinutes session)) store).NamesOthers := by
    have kept : (prepareLogin user ttlMinutes session).names = defaultNames := by
      cases user <;> cases ttlMinutes <;> exact names
    have userField : (prepareLogin user ttlMinutes session).userMeta.userField = defaultUserField :=
      congrArg (·.2.2.1) kept
    refine namesOthers_loadedCopy others kept fun marker copied same => ?_
    have other : defaultNewSidField ≠
        (prepareLogin user ttlMinutes session).userMeta.userField := by
      rw [userField]
      decide
    have key : (prepareLogin user ttlMinutes session).key = session.key := by
      simp [Core.key, prepareLogin]
    rw [copyOf, applyFilters_getElem?, loginFilters_getElem? _ other, key, ownKey, same] at copied
    exact fresh.unnamed _ copied
  have regenerated {env : Env} {filters : Filters}
      (fresh : env.Fresh session.info.ttlMinutes session store)
      (unnamed : ∀ value, filters[defaultNewSidField]? ≠ some (some value)) :
      (session.loadedCopy env filters store).NamesOthers := by
    refine namesOthers_loadedCopy others names fun marker copied same => ?_
    rw [copyOf, applyFilters_getElem?, ownKey, same] at copied
    cases filtered : filters[defaultNewSidField]? with
    | none =>
        rw [filtered] at copied
        exact fresh.unnamed _ copied
    | some change =>
        cases change with
        | none =>
            rw [filtered] at copied
            cases copied
        | some value => exact unnamed value filtered
  cases operation with
  | set field json => exact untampering
  | login | autoLogin => exact fun _ _ => loggedIn untampering
  | renew env filters => exact fun _ _ => regenerated untampering.2 untampering.1
  | tryRenew env conf =>
      exact ⟨untampering.1, fun _ _ _ _ => regenerated untampering.2 (by simp)⟩
  | _ => trivial

end

namespace System

variable [UidGetter U] [Serde U] {connection : Bool} {system : System U}

/-- Every object has the default names, and no marker names its own session. -/
structure Outward (system : System U) : Prop where
  names : system.Each fun session => session.names = defaultNames
  markers : system.store.NamesOthers

/-- A step of an application that leaves the markers to `AutoRenew`. -/
def Untampering (system : System U) : Action U → Prop
  | .operate index operation _ => ∀ session, system.objects index = some session →
      operation.Untampering session system.store
  | _ => True

theorem Outward.operate (outward : system.Outward) {index : Nat} {operation : Operation U}
    {faults : Nat → Bool} (untampering : system.Untampering (.operate index operation faults)) :
    (system.operate connection index operation faults).Outward := by
  cases found : system.objects index with
  | none => simpa [System.operate, found] using outward
  | some session =>
      have names := outward.names index session found
      have untampered := untampering session found
      have meets : (operation.program connection).Meets _ _ (system.scope session)
          (system.store, faults) :=
        operation.meets_good names (fun _ _ => namesOthers_after) outward.markers
          (untampered.admits names outward.markers)
      have ends := meets.run
      simp only [System.operate, found]
      generalize (operation.program connection (system.scope session)).run Redis.faultyAnswer
        (system.store, faults) = final at ends ⊢
      rcases ends with ⟨named, here⟩
      refine ⟨outward.names.writeBack index (named.session.trans names) ?_, ?_⟩
      · intro root rooted
        have same := named.root
        rw [rooted] at same
        rcases Option.map_eq_some_iff.mp same.symm with ⟨root', rooted', names'⟩
        exact names'.symm.trans (outward.names.root session root' rooted')
      · rcases here with others | ⟨env, conf, rfl, _, _, before, others, marked⟩
        · exact others
        · have fresh : newSid session env ≠ session.info.sid :=
            untampered.2.other
          have key : (system.scope session).session.key = sessionKey session.info.sid :=
            Core.key_of_names names
          intro sid marker named
          rw [marked, key] at named
          rcases marker?_hset (.refl before) _ _ _ _ named with before' | ⟨own, rfl⟩
          · exact others sid marker before'
          · rw [sessionKey_inj.mp own]
            exact fresh

theorem Outward.step (outward : system.Outward) (action : Action U)
    (untampering : system.Untampering action) : (system.step connection action).Outward := by
  refine ⟨outward.names.step action (fun _ _ _ => rfl) ?_ (fun _ _ names => names) ?_ ?_, ?_⟩
  · exact fun sid session presented => (newWithId_proper presented).names
  · exact fun root index sid session names made => (cloneForRequest_names made).trans names
  · rintro index operation faults rfl
    exact (outward.operate untampering).names
  · cases action with
    | operate index operation faults => exact (outward.operate untampering).markers
    | tick seconds =>
        intro sid newSid marker
        refine outward.markers sid newSid ?_
        rcases Redis.shrinks_tick system.store seconds (sessionKey sid) with same | gone
        · rwa [Redis.marker?, System.step, same] at marker
        · simp [Redis.marker?, System.step, gone] at marker
    | _ =>
        rw [(store_step _ (by rintro _ _ _ ⟨⟩) (by rintro _ ⟨⟩)).1]
        exact outward.markers

theorem outward_of_reachable
    (reached : Reachable (System.step connection) Untampering Initial system) : system.Outward := by
  apply reached.invariant
  · rintro _ rfl
    exact ⟨.start, by rintro _ _ ⟨⟩⟩
  · exact fun _ action outward => outward.step action

end System

/-- The session was renewed: its copy has the new sid, and it is still stored and names the copy
instead of a successor that it named before. -/
structure Renewed (sid newSid : Str) (store store' : Redis) : Prop where
  fresh : newSid ≠ sid ∧ ¬store.Stored newSid
  copied : store'.fields (sessionKey newSid) =
    (store.fields (sessionKey sid)).erase defaultNewSidField
  marked : store'.fields (sessionKey sid) =
    (store.fields (sessionKey sid)).insert defaultNewSidField newSid
  stored : store'.Stored sid
  replaced : ∀ successor, store.marker? (sessionKey sid) = some successor →
    ¬store'.Stored successor

/-- The session was given up for the successor it names. -/
def GivenUp (sid : Str) (store store' : Redis) : Prop :=
  ¬store'.Stored sid ∧ ∃ successor, store.marker? (sessionKey sid) = some successor ∧
    store.Stored successor ∧ store'.Stored successor

/-- The session names a successor whose sid cannot be used, and nothing was changed. -/
def Unreadable (sid : Str) (store store' : Redis) : Prop :=
  store' = store ∧ ∃ successor, store.marker? (sessionKey sid) = some successor ∧
    ∀ times, Meta.parseSid successor ≠ .ok times

/-- What the outcome of a renewal tells about the sid of the object and about the store. -/
def RenewalEnds (sid : Str) (store : Redis) (outcome : Outcome SessionErr Bool) (sid' : Str)
    (store' : Redis) : Prop :=
  match outcome with
  | .ok false => sid' = sid ∧ ∀ key, store'.fields key = store.fields key
  | .ok true => Renewed sid sid' store store'
  | .err _ => GivenUp sid store store' ∨ Unreadable sid store store'
  | .panic => Unreadable sid store store'

section

variable {scope : Scope U} {env : Env} {store : Redis} {conf : AutoRenew}

-- the arithmetic of the clock is not to be evaluated
attribute [local irreducible] AutoRenew.secondsFromRenew

theorem fields_storeAfterTouch {session : RedisSession U} (lives : session.info.ttlMinutes ≠ 0)
    (key : Str) : (session.storeAfterTouch store).fields key = store.fields key := by
  rw [ne_eq, ← Meta.ttlSeconds_eq_zero] at lives
  rw [storeAfterTouch]
  split <;> simp [lives]

variable [UidGetter U] [Serde U]

/-- A clone of the session is stored, and its sid is written into the session. -/
theorem renewed_doClone {filters : Filters} {before : Redis}
    (names : scope.session.names = defaultNames) (lives : scope.session.info.ttlMinutes ≠ 0)
    (fresh : env.Fresh scope.session.info.ttlMinutes scope.session store)
    (newSidField : conf.newSidField = defaultNewSidField)
    (kept : before.fields (sessionKey scope.session.info.sid) =
      store.fields (sessionKey scope.session.info.sid))
    (unstored : before.fields (sessionKey (newSid scope.session env)) = ∅)
    (erased : applyFilters filters (store.fields (sessionKey scope.session.info.sid)) =
      (store.fields (sessionKey scope.session.info.sid)).erase defaultNewSidField)
    (replaced : ∀ successor,
      store.marker? (sessionKey scope.session.info.sid) = some successor →
      successor ≠ scope.session.info.sid ∧ before.fields (sessionKey successor) = ∅) :
    let final := (conf.doClone false env filters).exec scope before
    RenewalEnds scope.session.info.sid store final.1 final.2.1.session.info.sid final.2.2 := by
  intro final
  let prepared := AutoRenew.cloning scope.session
  let renewed := prepared.renewedStore false scope.root env filters before
  rcases AutoRenew.exec_doClone conf false scope before env filters with
    ⟨outcome, root, store', done, _, ends, alone⟩
  rcases ends with ⟨failed, _⟩ | ⟨succeeded, marks, _⟩
  · exact absurd (alone rfl).1 failed
  have key : scope.session.key = sessionKey scope.session.info.sid := Core.key_of_names names
  have renewedNames : prepared.names = defaultNames := names
  rcases fresh with ⟨otherSid, unused, unnamed⟩
  have other : sessionKey scope.session.info.sid ≠ sessionKey (newSid scope.session env) :=
    fun same => otherSid (sessionKey_inj.mp same).symm
  have copied : renewed.fields (sessionKey (newSid scope.session env)) =
      (store.fields (sessionKey scope.session.info.sid)).erase defaultNewSidField := by
    have newborn : renewed.fields (sessionKey (newSid scope.session env)) =
        if scope.session.info.ttlMinutes = 0 then ∅
        else applyFilters filters (before.fields scope.session.key) :=
      (fields_succeeded renewedNames _).trans (fields_copied_new renewedNames filters unstored)
    rw [newborn, if_neg lives, key, kept, erased]
  have alive : ¬scope.session.info.ttlSeconds = 0 := by rwa [Meta.ttlSeconds_eq_zero]
  have markedFields (key' : Str) : store'.fields key' =
      if key' = sessionKey scope.session.info.sid then
        (renewed.fields key').insert defaultNewSidField (newSid scope.session env)
      else renewed.fields key' := by
    rw [marks, AutoRenew.marked, Redis.fields_hset, Redis.fields_expire, Redis.fields_expire, key,
      newSidField]
    simp only [alive, and_false, if_false]
    split
    · rename_i same
      rw [same]
      rfl
    · rfl
  have elsewhere {key' : Str} (apart : key' ≠ sessionKey (newSid scope.session env)) :
      renewed.fields key' = before.fields key' := fields_renewedStore_other renewedNames apart
  have marked : store'.fields (sessionKey scope.session.info.sid) =
      (store.fields (sessionKey scope.session.info.sid)).insert defaultNewSidField
        (newSid scope.session env) := by
    rw [markedFields, if_pos rfl, elsewhere other, kept]
  simp only [final, done, succeeded]
  refine Renewed.mk ⟨otherSid, unused⟩ ?_ marked ?_ fun successor named => ?_
  · exact (markedFields _).trans ((if_neg (Ne.symm other)).trans copied)
  · rw [Redis.Stored, marked]
    exact fun empty => by simpa using congrArg (·[defaultNewSidField]?) empty
  · rcases replaced successor named with ⟨apart, dropped⟩
    have notNew : successor ≠ newSid scope.session env := by
      rintro rfl
      exact unnamed _ named
    rw [Redis.Stored, not_not, markedFields, if_neg (by rwa [sessionKey_inj]),
      elsewhere (by rwa [ne_eq, sessionKey_inj]), dropped]

omit [UidGetter U] [Serde U] in
/-- A session whose idle time is known is stored. -/
theorem stored_of_judged {session : RedisSession U} {newSid : Str}
    (names : session.names = defaultNames) (judged : conf.judged session newSid store = true) :
    store.Stored newSid := by
  have small := conf.clonedInactiveJudgmentSeconds.toNat_lt
  have sidName : session.info.sidName = defaultIdName := congrArg Prod.fst names
  rw [AutoRenew.judged, Bool.and_eq_true, decide_eq_true_eq] at judged
  cases idle : session.idleOf newSid store with
  | none =>
      rw [idle, Option.getD_none] at judged
      omega
  | some passed =>
      rw [idleOf, idleSeconds, sidName] at idle
      split at idle
      · rename_i positive
        intro missing
        have absent : store.hash? (sessionKey newSid) = none := by
          rw [← Redis.isEmpty_fields_iff, missing, Std.ExtTreeMap.isEmpty_empty]
        rw [← sessionKey] at positive
        simp [Redis.ttl, absent] at positive
      · cases idle

/-- Without a marker there is nothing to drop from the copy. -/
theorem applyFilters_unmarked {data : Dict} {field : Str} (unmarked : data[field]? = none) :
    applyFilters ∅ data = data.erase field := by
  apply Std.ExtTreeMap.ext_getElem?
  intro other
  rw [applyFilters_getElem?, Std.ExtTreeMap.getElem?_erase]
  split
  · rename_i same
    rw [Std.LawfulEqCmp.eq_of_compare same] at unmarked
    simpa using unmarked
  · simp

theorem applyFilters_dropping (data : Dict) (field : Str) :
    applyFilters ((∅ : Filters).insert field none) data = data.erase field := by
  apply Std.ExtTreeMap.ext_getElem?
  intro other
  rw [applyFilters_getElem?, Std.ExtTreeMap.getElem?_erase, Std.ExtTreeMap.getElem?_insert]
  split <;> simp

theorem renewalEnds (names : scope.session.names = defaultNames)
    (lives : scope.session.info.ttlMinutes ≠ 0)
    (fresh : env.Fresh scope.session.info.ttlMinutes scope.session store)
    (newSidField : conf.newSidField = defaultNewSidField)
    (others : store.NamesOthers) :
    let final := (conf.tryRenew false env).exec scope store
    RenewalEnds scope.session.info.sid store final.1 final.2.1.session.info.sid final.2.2 := by
  intro final
  have key : scope.session.key = sessionKey scope.session.info.sid := Core.key_of_names names
  have sidName : scope.session.info.sidName = defaultIdName := congrArg Prod.fst names
  have unstored : store.fields (sessionKey (newSid scope.session env)) = ∅ :=
    not_not.mp fresh.unstored
  have touched : RenewalEnds scope.session.info.sid store (.ok false)
      (scope.session.afterTouch store).info.sid (scope.session.storeAfterTouch store) :=
    ⟨afterTouch_sid _ _, fields_storeAfterTouch lives⟩
  rcases Int.lt_or_le (conf.due scope.session env) 0 with early | due
  · simp only [final, AutoRenew.exec_tryRenew_early false early]
    exact touched
  · cases marker : (store.fields scope.session.key)[conf.newSidField]? with
    | none =>
        simp only [final, AutoRenew.exec_tryRenew_unmarked false due marker]
        rw [key, newSidField] at marker
        refine renewed_doClone names lives fresh newSidField rfl unstored
          (applyFilters_unmarked marker) fun successor named => ?_
        cases named.symm.trans marker
    | some successor =>
        rcases Int.lt_or_le conf.originalJudgmentSeconds.toNat (conf.due scope.session env) with
          late | recent
        · simp only [final, AutoRenew.exec_tryRenew_late false due marker late,
            AutoRenew.exec_replaceOrDestroy]
          rw [key, newSidField] at marker
          have apart := others _ _ marker
          rcases AutoRenew.cloneWithId_cases scope.session successor with
            ⟨cloned, made, _⟩ | ⟨error, made, unread⟩ | ⟨made, unread⟩
          · simp only [made]
            split
            · rename_i judged
              refine .inl ⟨?_, successor, marker, stored_of_judged names judged, ?_⟩
              · simp [Redis.Stored, AutoRenew.destroyed, key]
              · have kept := stored_of_judged names judged
                have otherKey : sessionKey successor ≠ sessionKey scope.session.info.sid :=
                  fun same => apart (sessionKey_inj.mp same)
                simpa [Redis.Stored, AutoRenew.destroyed, key, otherKey] using kept
            · have dropped : ∀ successor', store.marker? (sessionKey scope.session.info.sid) =
                  some successor' → successor' ≠ scope.session.info.sid ∧
                  (store.del (genKey scope.session.info.sidName successor)).fields
                    (sessionKey successor') = ∅ := by
                intro successor' named
                cases named.symm.trans marker
                refine ⟨apart, ?_⟩
                rw [sidName, ← sessionKey, Redis.fields_del, if_pos rfl]
              let within : Scope U :=
                { scope with session := { scope.session with cloned := cloned.toCore } }
              have kept : (store.del (genKey scope.session.info.sidName successor)).fields
                  (sessionKey scope.session.info.sid) =
                    store.fields (sessionKey scope.session.info.sid) := by
                rw [sidName, ← sessionKey, Redis.fields_del, if_neg]
                exact fun same => apart (sessionKey_inj.mp same).symm
              have unused : (store.del (genKey scope.session.info.sidName successor)).fields
                  (sessionKey (newSid scope.session env)) = ∅ := by
                rw [Redis.fields_del, unstored, ite_self]
              have sameNames : within.session.names = defaultNames := names
              exact renewed_doClone sameNames lives fresh newSidField kept unused
                (newSidField ▸ applyFilters_dropping _ _) dropped
          · simp only [made]
            refine .inr ⟨rfl, successor, marker, fun times => ?_⟩
            rw [unread]
            rintro ⟨⟩
          · simp only [made]
            refine ⟨rfl, successor, marker, fun times => ?_⟩
            rw [unread]
            rintro ⟨⟩
        · simp only [final, AutoRenew.exec_tryRenew_recent false due marker recent]
          exact touched

omit [UidGetter U] [Serde U] in
/-- Of a session and the successor it names, one is left. -/
theorem RenewalEnds.remains {sid sid' : Str} {store' : Redis} {outcome : Outcome SessionErr Bool}
    (ends : RenewalEnds sid store outcome sid' store') (stored : store.Stored sid) :
    store'.Stored sid ∨ ∃ successor, store.marker? (sessionKey sid) = some successor ∧
      store'.Stored successor := by
  cases outcome with
  | ok renewed =>
      cases renewed with
      | true => exact .inl ends.stored
      | false => exact .inl (by rwa [Redis.Stored, ends.2])
  | err error =>
      rcases ends with ⟨_, successor, named, _, left⟩ | ⟨rfl, _⟩
      · exact .inr ⟨successor, named, left⟩
      · exact .inl stored
  | panic => exact .inl (ends.1 ▸ stored)

end

namespace System

variable [UidGetter U] [Serde U] {system : System U}

section

attribute [local irreducible] AutoRenew.secondsFromRenew

/-- In every reachable state, the outcome of a renewal tells what became of the session that was
presented and of the successor it names, one of which is left. -/
theorem renewal_outcomes (reached : Reachable (System.step false) Untampering Initial system)
    {index : Nat} {session : RedisSession U} (found : system.objects index = some session)
    (stored : system.store.Stored session.info.sid) (lives : session.info.ttlMinutes ≠ 0)
    {env : Env} (fresh : env.Fresh session.info.ttlMinutes session system.store) {conf : AutoRenew}
    (newSidField : conf.newSidField = defaultNewSidField) :
    let final := (conf.tryRenew false env).exec (system.scope session) system.store
    RenewalEnds session.info.sid system.store final.1 final.2.1.session.info.sid final.2.2 ∧
      (final.2.2.Stored session.info.sid ∨ ∃ successor,
        system.store.marker? (sessionKey session.info.sid) = some successor ∧
          final.2.2.Stored successor) := by
  intro final
  have outward := outward_of_reachable reached
  have names : (system.scope session).session.names = defaultNames :=
    outward.names index session found
  have ends : RenewalEnds session.info.sid system.store final.1 final.2.1.session.info.sid
      final.2.2 := renewalEnds names lives fresh newSidField outward.markers
  exact ⟨ends, ends.remains stored⟩

end

omit [UidGetter U] [Serde U] in
/-- Where every marker is on record, so is a sid that is named. -/
theorem Clean.fresh (clean : system.Clean) {env : Env} {ttlMinutes : UInt16}
    {session : RedisSession U} (other : (Meta.genId env ttlMinutes).1 ≠ session.info.sid)
    (empty : (system.store.fields (sessionKey (Meta.genId env ttlMinutes).1)).isEmpty = true)
    (unrecorded : ∀ renewal ∈ system.renewals, renewal.2 ≠ (Meta.genId env ttlMinutes).1) :
    env.Fresh ttlMinutes session system.store where
  other
  unstored stored := stored (Std.ExtTreeMap.isEmpty_iff.mp empty)
  unnamed sid named := unrecorded _ (clean.markers sid _ named) rfl

/-- The sid of a session from the first minute of the epoch, written with leading zeros. -/
def ancientSid : Str := List.replicate 64 '0' ++ "003C00000010".toList

/-- A session from the epoch that is renewed before the clock is set. -/
def ancientRun : List (Action Account) :=
  [.newWithId ancientSid, .operate 0 (.set "cart".toList (some "3".toList)) noFaults,
    .operate 0 (.tryRenew (.uniform 1 0x1000 0x1000) AutoRenew.new) noFaults,
    .newWithId ancientSid]

theorem fresh_ancientRun (session : RedisSession Account)
    (found : (after false (ancientRun.take 2)).objects 0 = some session) :
    (Env.uniform 1 0x1000 0x1000).Fresh session.info.ttlMinutes session
      (after false (ancientRun.take 2)).store := by
  have clean : (after false (ancientRun.take 2)).Clean := by
    refine clean_of_reachable (reachable_after _ ⟨trivial, ?_, trivial⟩)
    rintro session ⟨⟩
    exact (by decide : "cart".toList ≠ defaultNewSidField)
  cases found
  exact clean.fresh (by decide) (by decide) (by rintro _ ⟨⟩)

theorem untampering_ancientRun :
    AdmitsRun (System.step false) Untampering start ancientRun := by
  refine ⟨trivial, ?_, fun session found => ⟨rfl, fresh_ancientRun session found⟩,
    trivial, trivial⟩
  rintro session ⟨⟩
  exact (by decide : "cart".toList ≠ defaultNewSidField)

/-- The first renewal of the session. -/
theorem renewal_outcomes_first :
    let system := after false (ancientRun.take 2)
    ∀ session, system.objects 0 = some session →
      let final := (AutoRenew.new.tryRenew false (.uniform 1 0x1000 0x1000)).exec
        (system.scope session) system.store
      RenewalEnds session.info.sid system.store final.1 final.2.1.session.info.sid final.2.2 ∧
        (final.2.2.Stored session.info.sid ∨ ∃ successor,
          system.store.marker? (sessionKey session.info.sid) = some successor ∧
            final.2.2.Stored successor) := by
  intro system session found
  have admitted := untampering_ancientRun
  have reached : Reachable (System.step false) Untampering Initial system :=
    reachable_after _ ⟨admitted.1, admitted.2.1, trivial⟩
  have fresh := fresh_ancientRun session found
  have stored : system.store.Stored session.info.sid ∧ session.info.ttlMinutes ≠ 0 := by
    cases found
    refine ⟨fun empty => ?_, by decide⟩
    have filled : (system.store.fields (sessionKey ancientSid)).isEmpty = false := by decide
    rw [show system.store.fields (sessionKey ancientSid) = ∅ from empty] at filled
    cases filled
  exact renewal_outcomes reached found stored.1 stored.2 fresh rfl

/-- The sid of the first renewal is too short to be used, and the second one fails. -/
theorem not_renewal_outcomes :
    ¬∀ (system : System Account) (index : Nat) (session : RedisSession Account) (env : Env)
      (conf : AutoRenew), Reachable (System.step false) Untampering Initial system →
      system.objects index = some session → system.store.Stored session.info.sid →
      session.info.ttlMinutes ≠ 0 → env.Fresh session.info.ttlMinutes session system.store →
      conf.newSidField = defaultNewSidField →
      let final := (conf.tryRenew false env).exec (system.scope session) system.store
      ∀ error, final.1 = .err error → ¬final.2.2.Stored session.info.sid := by
  intro claim
  let system : System Account := after false ancientRun
  have reached : Reachable (System.step false) Untampering Initial system :=
    reachable_after _ untampering_ancientRun
  have clean : system.Clean := by
    refine clean_of_reachable (reachable_after _ ⟨trivial, ?_, ?_, trivial, trivial⟩)
    · rintro session ⟨⟩
      exact (by decide : "cart".toList ≠ defaultNewSidField)
    · rintro session ⟨⟩
      exact ⟨rfl, by rintro _ ⟨⟩⟩
  let second : SessionM Account Bool :=
    AutoRenew.new.tryRenew false (.uniform 2 0x2000 0x2000)
  have concrete (session : RedisSession Account) (found : system.objects 1 = some session) :
      session.info.sid = ancientSid ∧ session.info.ttlMinutes = 60 ∧
        (system.store.fields (sessionKey ancientSid)).isEmpty = false ∧
        (second.exec (system.scope session) system.store).1 =
          .err (.text "None cloned cannot get id".toList) ∧
        ((second.exec (system.scope session) system.store).2.2.fields
          (sessionKey ancientSid)).isEmpty = false := by
    cases found
    exact ⟨rfl, by decide, by decide, by decide, by decide⟩
  have nonempty {data : Dict} (filled : data.isEmpty = false) : data ≠ ∅ := by
    rintro rfl
    simp at filled
  rcases (⟨_, rfl⟩ : ∃ session, system.objects 1 = some session) with ⟨session, found⟩
  rcases concrete session found with ⟨sid, ttlMinutes, stored, failed, left⟩
  have fresh :
      (Env.uniform 2 0x2000 0x2000).Fresh session.info.ttlMinutes session system.store := by
    rw [ttlMinutes]
    exact clean.fresh (by rw [sid]; decide) (by decide) (by decide)
  rw [← sid] at stored left
  exact claim system 1 session _ AutoRenew.new reached found (nonempty stored)
    (by rw [ttlMinutes]; decide) fresh rfl _ failed (nonempty left)

end System

end Dce.Session
