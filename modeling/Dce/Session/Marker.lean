import Dce.Session.Faults

/-!
# The markers of renewals

`try_renew` names the successor of a session in the session's own hash. A marker
that comes from anywhere else would let a later request judge, or destroy, the
wrong session. Commands may fail here.
-/

namespace Dce.Session

open SessionM RedisSession

variable {U : Type}

/-- The marker in the hash at a key. -/
def Redis.marker? (store : Redis) (key : Str) : Option Str :=
  (store.fields key)[defaultNewSidField]?

/-- Every marker of the second store is in the first. -/
def Redis.NoNewMarker (store store' : Redis) : Prop :=
  ∀ key newSid, store'.marker? key = some newSid → store.marker? key = some newSid

theorem Redis.NoNewMarker.refl (store : Redis) : store.NoNewMarker store := fun _ _ found => found

theorem Redis.NoNewMarker.trans {store store' store'' : Redis} (first : store.NoNewMarker store')
    (second : store'.NoNewMarker store'') : store.NoNewMarker store'' :=
  fun key newSid found => first key newSid (second key newSid found)

/-- A command that writes no marker. -/
def Cmd.Unmarking : Cmd → Prop
  | hset _ field _ => field ≠ defaultNewSidField
  | hmset _ data => data[defaultNewSidField]? = none
  | _ => True

theorem Cmd.SparesHashes.unmarking {command : Cmd} (spares : command.SparesHashes) :
    command.Unmarking := by
  cases command with
  | hset | hmset => exact spares.elim
  | _ => trivial

theorem noNewMarker_after {command : Cmd} (unmarking : command.Unmarking) (store : Redis) :
    store.NoNewMarker (store.after command) := by
  intro key newSid found
  simp only [Redis.marker?] at found ⊢
  cases command with
  | hset key' field value =>
      have other : field ≠ defaultNewSidField := unmarking
      simp only [Redis.after, Redis.fields_hset] at found
      split at found
      · rename_i same
        rwa [Std.ExtTreeMap.getElem?_insert, if_neg (by simpa using other), ← same] at found
      · exact found
  | hdel key' field =>
      simp only [Redis.after, Redis.fields_hdel] at found
      split at found
      · rename_i same
        rw [Std.ExtTreeMap.getElem?_erase, ← same] at found
        split at found
        · cases found
        · exact found
      · exact found
  | hmset key' data =>
      simp only [Redis.after, Redis.fields_hmset] at found
      split at found
      · rename_i same
        rwa [Std.ExtTreeMap.getElem?_union, show data[defaultNewSidField]? = none from unmarking,
          Option.none_or, ← same] at found
      · exact found
  | del key' =>
      simp only [Redis.after, Redis.fields_del] at found
      split at found
      · simp at found
      · exact found
  | expire target seconds =>
      cases target with
      | session name =>
          simp only [Redis.after, Redis.fields_expire] at found
          split at found
          · simp at found
          · exact found
      | user name => simpa [Redis.after] using found
  | sadd | srem => simpa [Redis.after] using found
  | _ => exact found

theorem Cmd.Mild.unmarking {command : Cmd} (mild : command.Mild) : command.Unmarking :=
  mild.spares.unmarking

/-- The names of the session and of the root stay. -/
structure Scope.Named (scope scope' : Scope U) : Prop where
  session : scope'.session.names = scope.session.names
  root : scope'.root.map (·.names) = scope.root.map (·.names)

theorem Scope.Alike.named {scope scope' : Scope U} (alike : scope.Alike scope') :
    scope.Named scope' := ⟨alike.names, alike.root⟩

theorem Scope.Named.trans {scope scope' scope'' : Scope U} (first : scope.Named scope')
    (second : scope'.Named scope'') : scope.Named scope'' :=
  ⟨second.session.trans first.session, second.root.trans first.root⟩

theorem Regenerated.named {complete : Redis → Prop} {env : Env} {scope scope' : Scope U}
    {outcome : Outcome SessionErr Bool} {state' : Redis × (Nat → Bool)}
    (regenerated : Regenerated complete env scope outcome scope' state') : scope.Named scope' := by
  rcases regenerated with ⟨alike, _⟩ | ⟨_, alike | alike⟩
  · exact ⟨alike.names, alike.root⟩
  · exact alike.named
  · exact ⟨alike.names, alike.root⟩

/-- The store once a regeneration has loaded its copy. -/
def RedisSession.loadedCopy (prepared : RedisSession U) (env : Env) (filters : Filters)
    (store : Redis) : Redis :=
  store.hmset (genKey prepared.info.sidName (newSid prepared env)) (prepared.copyOf filters store)

/-- A property of stores, or what is left of it once the operation has named the successor, which
the operation then answers for. -/
def MarksAtMost (good : Redis → Prop) (key successor : Str) (outcome : Outcome SessionErr Bool)
    (scope' : Scope U) (store' : Redis) : Prop :=
  good store' ∨
    (outcome = .ok true ∧ scope'.session.info.sid = successor ∧
      ∃ before, good before ∧ store' = before.hset key defaultNewSidField successor)

theorem Scope.Alike.newSid {scope scope' : Scope U} (alike : scope.Alike scope') (env : Env) :
    newSid scope'.session env = newSid scope.session env := by
  simp only [Session.newSid, Meta.regenerate, alike.ttl]

theorem marker?_hset {base store : Redis} (unmarked : base.NoNewMarker store)
    (key successor : Str) :
    ∀ key' newSid, (store.hset key defaultNewSidField successor).marker? key' = some newSid →
      base.marker? key' = some newSid ∨ (key' = key ∧ newSid = successor) := by
  intro key' newSid found
  rw [Redis.marker?, Redis.fields_hset] at found
  split at found
  · rename_i same
    simp only [Std.ExtTreeMap.getElem?_insert_self, Option.some.injEq] at found
    exact .inr ⟨same, found.symm⟩
  · exact .inl (unmarked key' newSid found)

section

variable {scope : Scope U} {env : Env} {filters : Filters} {store : Redis}
  {faults : Nat → Bool} {connection : Bool} {good : Redis → Prop}
  (kept : ∀ command store, command.Unmarking → good store → good (store.after command))

include kept

/-- A copy that is good leaves a good store, whatever is sent after it. -/
theorem completing_good (start : good store)
    (serverField : scope.session.connMeta.serverField ≠ defaultNewSidField)
    (copied : faults 0 = false → faults 1 = false →
      good (scope.session.loadedCopy env filters store)) :
    Completing connection good good scope env filters store faults where
  start := start
  weaker _ here := here
  emptied _ := start
  loaded read written _ := copied read written
  kept command store' completes here := by
    refine kept command store' ?_ here
    cases completes with
    | spares spares => exact spares.unmarking
    | touch => trivial
    | bind => exact serverField

variable [UidGetter U] [Serde U]

theorem meets_logIn_good {user : Option U} {ttlMinutes : Option UInt16} (start : good store)
    (serverField : scope.session.connMeta.serverField ≠ defaultNewSidField)
    (copied : faults 0 = false → faults 1 = false → good
      ((prepareLogin user ttlMinutes scope.session).loadedCopy env
        (loginFilters (prepareLogin user ttlMinutes scope.session)) store)) :
    (logIn connection env user ttlMinutes).Meets good
      (fun _ scope' _ => scope.Named scope') scope (store, faults) := by
  let prepared := prepareLogin user ttlMinutes scope.session
  let within : Scope U := { scope with session := prepared }
  have named : scope.Named within := ⟨by cases user <;> cases ttlMinutes <;> rfl, rfl⟩
  have completing : Completing connection good good within env
      (loginFilters prepared) store faults := completing_good kept start serverField copied
  refine meets_modify (meets_self ?_)
  change SessionM.Meets _ _ (attempt (renew connection env (loginFilters prepared)) >>= _) within _
  refine meets_bind (meets_attempt ((meets_renew completing).mono (fun _ here => here) ?_))
  intro outcome scope' state' here regenerated
  have renamed : scope.Named scope' := named.trans regenerated.named
  cases outcome with
  | panic => exact renamed
  | err error => exact meets_ofOutcome here renamed
  | ok value =>
      rcases regenerated with ⟨alike, done⟩ | ⟨failed, _⟩
      · have destroys : clonedDestroy.Frames Cmd.Unmarking scope' :=
          frames_of_same (moves_clonedDestroy (fun _ mild => mild.unmarking) fun _ _ => trivial)
        refine (destroys.meets kept done).mono (fun _ here => here) ?_
        exact fun outcome scope'' state'' _ alike' => renamed.trans alike'.named
      · exact absurd rfl (failed value)

theorem meets_doClone_marks {conf : AutoRenew} (start : good store)
    (serverField : scope.session.connMeta.serverField ≠ defaultNewSidField)
    (newSidField : conf.newSidField = defaultNewSidField)
    (copied : faults 0 = false → faults 1 = false →
      good (scope.session.loadedCopy env filters store)) :
    (conf.doClone connection env filters).Meets (fun _ => True)
      (fun outcome scope' state' => scope.Named scope' ∧
        MarksAtMost good scope.session.key (newSid scope.session env) outcome scope' state'.1)
      scope (store, faults) := by
  let within : Scope U := { scope with session := AutoRenew.cloning scope.session }
  have completing : Completing connection good good within env filters
      store faults := completing_good kept start serverField copied
  refine meets_modify ?_
  change SessionM.Meets _ _ (attempt (renew connection env filters) >>= _) within _
  refine meets_bind (meets_attempt ((meets_renew completing).mono (fun _ _ => trivial) ?_))
  intro outcome scope' state' here regenerated
  have named : scope.Named scope' := ⟨regenerated.named.session, regenerated.named.root⟩
  cases outcome with
  | panic => exact ⟨named, .inl here⟩
  | err error => exact meets_ofOutcome trivial ⟨named, .inl here⟩
  | ok value =>
      rcases regenerated with ⟨alike, done⟩ | ⟨failed, _⟩
      · have touches : clonedTouch.Frames Cmd.Unmarking scope' :=
          frames_of_same (moves_clonedTouch fun _ _ => trivial)
        have attempts : clonedTouch.attempt.Frames Cmd.Unmarking scope' := moves_attempt touches
        refine meets_bind ((attempts.meets kept done).mono (fun _ _ => trivial) ?_)
        intro outcome scope'' state'' here' alike'
        have renamed : scope.Named scope'' := named.trans alike'.named
        cases outcome with
        | panic => exact ⟨renamed, .inl here'⟩
        | err error => exact ⟨renamed, .inl here'⟩
        | ok touched =>
            have key : genKey scope''.session.info.sidName scope.session.info.sid =
                scope.session.key := by
              rw [alike'.sidName, alike.sidName]
              rfl
            refine meets_self
              (meets_of_ret (clonedKey_eq scope'' (alike'.cloned.trans alike.cloned))
              (meets_bind (meets_redis (.hset _ _ _) trivial (fun _ => ⟨renamed, .inl here'⟩)
                fun _ => ⟨trivial, meets_ofOutcome trivial
                  ⟨renamed, .inr ⟨rfl, alike'.sid.trans alike.sid, state''.1,
                    here', ?_⟩⟩⟩)))
            rw [key, newSidField, alike'.sid, alike.sid]
            rfl
      · exact absurd rfl (failed value)

omit [UidGetter U] [Serde U] in
/-- An operation that writes no marker. -/
theorem meets_unmarked {α : Type} {operation : SessionM U α} {state : Redis × (Nat → Bool)}
    (frames : operation.Frames Cmd.Unmarking scope) (start : good state.1) :
    operation.Meets (fun _ => True)
      (fun _ scope' state' => scope.Alike scope' ∧ good state'.1) scope state :=
  (frames.meets kept start).mono (fun _ _ => trivial) fun _ _ _ here alike => ⟨alike, here⟩

omit kept [UidGetter U] [Serde U] in
theorem cloneSuccessor_cases (scope : Scope U) (newSid : Str) :
    (∃ cloned, AutoRenew.cloneSuccessor newSid scope =
      .ret (.ok (), { scope with session := { scope.session with cloned } })) ∨
    AutoRenew.cloneSuccessor newSid scope = .ret (.panic, scope) := by
  rw [cloneSuccessor_eq]
  cases scope.session.cloneWithId newSid with
  | ok cloned => exact .inl ⟨_, rfl⟩
  | err error => exact .inl ⟨none, rfl⟩
  | panic => exact .inr rfl

/-- The successor named in the old session is dropped, or the old session is. -/
theorem meets_replaceOrDestroy {conf : AutoRenew} {successor : Str} (start : good store)
    (serverField : scope.session.connMeta.serverField ≠ defaultNewSidField)
    (newSidField : conf.newSidField = defaultNewSidField) :
    (conf.replaceOrDestroy connection env successor).Meets (fun _ => True)
      (fun outcome scope' state' => scope.Named scope' ∧
        MarksAtMost good scope.session.key (newSid scope.session env) outcome scope' state'.1)
      scope (store, faults) := by
  unfold AutoRenew.replaceOrDestroy
  rcases cloneSuccessor_cases scope successor with ⟨cloned, known⟩ | known
  · let within : Scope U := { scope with session := { scope.session with cloned } }
    have judges : conf.successorIsActive.Frames Cmd.Unmarking within :=
      frames_of_same (moves_successorIsActive (fun _ mild => mild.unmarking) conf)
    refine meets_of_ret known (meets_bind ((meets_unmarked kept judges start).mono
      (fun _ here => here) ?_))
    rintro outcome scope' state' - ⟨alike, here⟩
    have named : scope.Named scope' := ⟨alike.names, alike.root⟩
    cases outcome with
    | panic => exact ⟨named, .inl here⟩
    | err error => exact ⟨named, .inl here⟩
    | ok active =>
        cases active with
        | true =>
            have destroys : (do
                let _ ← destroy
                let session ← self
                throw (.text ("session \"".toList ++ session.info.sid ++
                  "\" was destroied, unable to continue use".toList)) :
                SessionM U Bool).Frames Cmd.Unmarking scope' :=
              frames_of_cached (moves_giveUp (fun _ mild => mild.unmarking) trivial)
            refine (meets_unmarked kept destroys here).mono (fun _ here => here) ?_
            exact fun _ _ _ _ both => ⟨named.trans both.1.named, .inl both.2⟩
        | false =>
            have drops : clonedDestroy.Frames Cmd.Unmarking scope' :=
              frames_of_same (moves_clonedDestroy (fun _ mild => mild.unmarking) fun _ _ => trivial)
            refine meets_bind ((meets_unmarked kept drops here).mono (fun _ here => here) ?_)
            rintro outcome scope'' ⟨store'', faults''⟩ - ⟨alike', here'⟩
            have renamed : scope.Named scope'' := named.trans alike'.named
            cases outcome with
            | panic => exact ⟨renamed, .inl here'⟩
            | err error => exact ⟨renamed, .inl here'⟩
            | ok _ =>
                -- the copy has no marker, because the filters drop it
                have dropped :
                    (scope''.session.copyOf ((∅ : Filters).insert conf.newSidField none)
                    store'')[defaultNewSidField]? = none := by
                  simp [copyOf, applyFilters_getElem?, newSidField]
                have copied (_ : faults'' 0 = false) (_ : faults'' 1 = false) :=
                  kept (.hmset (scope''.renewed env).session.key _) store'' dropped here'
                have serverField' :
                    scope''.session.connMeta.serverField ≠ defaultNewSidField := by
                  rwa [show scope''.session.connMeta.serverField = _ from
                    congrArg (·.2.2.2) renamed.session]
                refine (meets_doClone_marks kept here' serverField' newSidField copied).mono
                  (fun _ here => here) ?_
                rintro outcome scope₃ state₃ - ⟨named₃, marks⟩
                refine ⟨renamed.trans named₃, ?_⟩
                rwa [alike'.key, alike.key, alike'.newSid, alike.newSid] at marks
  · rw [SessionM.Meets, SessionM.bind_of_panic known]
    exact Prog.meets_ret.mpr ⟨trivial, ⟨rfl, rfl⟩, .inl start⟩

theorem meets_tryRenew {conf : AutoRenew} (start : good store)
    (serverField : scope.session.connMeta.serverField ≠ defaultNewSidField)
    (newSidField : conf.newSidField = defaultNewSidField)
    (unread : 0 ≤ conf.due scope.session env → faults 0 = true → faults 1 = false →
      faults 2 = false → good (scope.session.loadedCopy env ∅ store)) :
    (conf.tryRenew connection env).Meets (fun _ => True)
      (fun outcome scope' state' => scope.Named scope' ∧
        MarksAtMost good scope.session.key (newSid scope.session env) outcome scope' state'.1)
      scope (store, faults) := by
  have touches : (attempt tryTouch >>= fun _ => pure false : SessionM U Bool).Frames
      Cmd.Unmarking scope := frames_of_touched (moves_keepUsing trivial)
  have touched (faults : Nat → Bool) : (attempt tryTouch >>= fun _ => pure false).Meets
      (fun _ => True) (fun outcome scope' state' => scope.Named scope' ∧
        MarksAtMost good scope.session.key (newSid scope.session env) outcome scope' state'.1)
      scope (store, faults) :=
    (meets_unmarked kept touches start).mono (fun _ here => here)
      fun _ _ _ _ both => ⟨both.1.named, .inl both.2⟩
  refine meets_self ?_
  dsimp only
  split
  · exact touched faults
  · rename_i due
    refine meets_bind (meets_attempt (meets_self (meets_bind (meets_redis (.hget _ _) trivial
      (fun failed => ?unread) fun read => ⟨trivial, ?read⟩))))
    case unread =>
      -- the marker is not read, and the copy takes along what there is
      exact meets_doClone_marks kept start serverField newSidField
        (unread (Int.not_lt.mp due) failed)
    case read =>
      simp only [Redis.value]
      cases marker : (store.fields scope.session.key)[conf.newSidField]? with
      | none =>
          refine meets_ofOutcome trivial ?_
          have unmarked : (scope.session.copyOf ∅ store)[defaultNewSidField]? = none := by
            rw [newSidField] at marker
            simpa [copyOf, applyFilters_getElem?] using marker
          exact meets_doClone_marks kept start serverField newSidField fun _ _ =>
            kept (.hmset (scope.renewed env).session.key _) store unmarked start
      | some newSid =>
          refine meets_ofOutcome trivial ?_
          dsimp only
          split
          · exact meets_replaceOrDestroy kept start serverField newSidField
          · exact touched _

end

variable [UidGetter U] [Serde U] {connection : Bool}

namespace Operation

/-- Whatever the operation copies, or writes into a hash, keeps a property of stores. A regeneration
copies if neither its read nor its load fails, and `try_renew` takes a marker that it cannot read
for none. -/
def Admits (good : Redis → Prop) (session : RedisSession U) (store : Redis)
    (faults : Nat → Bool) :
    Operation U → Prop
  | set field _ => field ≠ defaultNewSidField
  | login env user ttlMinutes =>
      let prepared := prepareLogin (some user) (some ttlMinutes) session
      faults 0 = false → faults 1 = false →
        good (prepared.loadedCopy env (loginFilters prepared) store)
  | autoLogin env =>
      let prepared := prepareLogin none none session
      faults 0 = false → faults 1 = false →
        good (prepared.loadedCopy env (loginFilters prepared) store)
  | renew env filters =>
      faults 0 = false → faults 1 = false → good (session.loadedCopy env filters store)
  | tryRenew env conf =>
      conf.newSidField = defaultNewSidField ∧
        (0 ≤ conf.due session env → faults 0 = true → faults 1 = false →
          faults 2 = false →
          good (session.loadedCopy env ∅ store))
  | _ => True

/-- The operation keeps a property of stores, but for the marker of a renewal that it reports. -/
theorem meets_good (operation : Operation U) {scope : Scope U} {store : Redis}
    {faults : Nat → Bool} {good : Redis → Prop} (names : scope.session.names = defaultNames)
    (kept : ∀ command store, command.Unmarking → good store → good (store.after command))
    (start : good store) (admits : operation.Admits good scope.session store faults) :
    (operation.program connection).Meets (fun _ => True)
      (fun outcome scope' state' => scope.Named scope' ∧
        (good state'.1 ∨ ∃ env conf, operation = .tryRenew env conf ∧ outcome = .ok true ∧
          scope'.session.info.sid = newSid scope.session env ∧ ∃ before, good before ∧
            state'.1 = before.hset scope.session.key defaultNewSidField
              (newSid scope.session env)))
      scope (store, faults) := by
  have serverField : scope.session.connMeta.serverField ≠ defaultNewSidField := by
    rw [show scope.session.connMeta.serverField = defaultServerField from
      congrArg (·.2.2.2) names]
    decide
  have userField : scope.session.userMeta.userField = defaultUserField := congrArg (·.2.2.1) names
  let ends (outcome : Outcome SessionErr Bool) (scope' : Scope U)
      (state' : Redis × (Nat → Bool)) :=
    scope.Named scope' ∧ (good state'.1 ∨ ∃ env conf, operation = .tryRenew env conf ∧
      outcome = .ok true ∧ scope'.session.info.sid = newSid scope.session env ∧ ∃ before,
        good before ∧ state'.1 = before.hset scope.session.key defaultNewSidField
          (newSid scope.session env))
  have framed {body : SessionM U Bool} (frames : body.Frames Cmd.Unmarking scope) :
      body.Meets (fun _ => True) ends scope (store, faults) :=
    (meets_unmarked kept frames start).mono (fun _ here => here)
      fun _ _ _ _ both => ⟨both.1.named, .inl both.2⟩
  have loggedIn {env : Env} {user : Option U} {ttlMinutes : Option UInt16}
      (copied : faults 0 = false → faults 1 = false → good
        ((prepareLogin user ttlMinutes scope.session).loadedCopy env
          (loginFilters (prepareLogin user ttlMinutes scope.session)) store)) :
      (logIn connection env user ttlMinutes).Meets (fun _ => True) ends scope (store, faults) :=
    (meets_logIn_good kept start serverField copied).mono (fun _ _ => trivial)
      fun _ _ _ here named => ⟨named, .inl here⟩
  cases operation with
  | set field json =>
      cases json with
      | none => exact framed (moves_throw _)
      | some value =>
          exact framed (frames_of_touched (moves_touchIfTrue (moves_silentSet admits) trivial))
  | get field =>
      refine framed (moves_bind (frames_of_touched ?_) fun _ _ _ => moves_pure _)
      exact moves_get (fun _ mild => mild.unmarking) Json field trivial
  | del field =>
      exact framed (frames_of_touched (moves_touchIfTrue (moves_silentDel trivial) trivial))
  | login env user ttlMinutes => exact loggedIn admits
  | autoLogin env => exact loggedIn admits
  | logout =>
      exact framed (frames_of_recached (moves_logout (fun _ mild => mild.unmarking) trivial))
  | renew env filters =>
      have completing : Completing connection good good scope env filters store faults :=
        completing_good kept start serverField admits
      exact (meets_renew completing).mono (fun _ _ => trivial)
        fun _ _ _ here regenerated => ⟨regenerated.named, .inl here⟩
  | tryRenew env conf =>
      refine (meets_tryRenew kept start serverField admits.1 admits.2).mono (fun _ here => here) ?_
      rintro outcome scope' state' - ⟨named, here | marked⟩
      · exact ⟨named, .inl here⟩
      · exact ⟨named, .inr ⟨env, conf, rfl, marked⟩⟩
  | destroy =>
      exact framed (frames_of_cached (moves_destroy (fun _ mild => mild.unmarking) trivial))
  | sync user =>
      have written (sid json : Str) : Cmd.Unmarking (.hset (genKey scope.session.info.sidName sid)
          scope.session.userMeta.userField json) := by
        rw [userField]
        exact show defaultUserField ≠ defaultNewSidField by decide
      exact framed (frames_of_same (moves_sync (fun _ mild => mild.unmarking) user written))
  | disconnect => exact framed (moves_self (moves_redis trivial))

/-- The operation makes no session carry the marker of another. A regeneration copies the hash if
neither its read nor its load fails, and `try_renew` takes a marker that it cannot read for none. -/
def KeepsClean (session : RedisSession U) (store : Redis) (faults : Nat → Bool) :
    Operation U → Prop
  | set field _ => field ≠ defaultNewSidField
  | login .. | autoLogin .. =>
      faults 0 = false → faults 1 = false → store.marker? session.key = none
  | renew _ filters =>
      faults 0 = false → faults 1 = false →
        (session.copyOf filters store)[defaultNewSidField]? = none
  | tryRenew env conf =>
      conf.newSidField = defaultNewSidField ∧
        (0 ≤ conf.due session env → faults 0 = true → faults 1 = false →
          faults 2 = false →
          store.marker? session.key = none)
  | _ => True

/-- A new marker is that of a renewal on record. -/
def Marks (operation : Operation U) (scope : Scope U) (store : Redis)
    (outcome : Outcome SessionErr Bool) (scope' : Scope U) (store' : Redis) : Prop :=
  scope.Named scope' ∧ ∀ key newSid, store'.marker? key = some newSid →
    store.marker? key = some newSid ∨ (key = scope.session.key ∧
      (scope.session.info.sid, newSid) ∈
        operation.record scope.session.info.sid scope'.session.info.sid outcome)

omit [UidGetter U] in
/-- What is copied is clean. -/
theorem KeepsClean.admits {operation : Operation U} {session : RedisSession U} {store : Redis}
    {faults : Nat → Bool} (names : session.names = defaultNames)
    (clean : operation.KeepsClean session store faults) :
    operation.Admits store.NoNewMarker session store faults := by
  have copied {prepared : RedisSession U} {env : Env} {filters : Filters}
      (unmarked : (prepared.copyOf filters store)[defaultNewSidField]? = none) :
      store.NoNewMarker (prepared.loadedCopy env filters store) :=
    noNewMarker_after (show Cmd.Unmarking (.hmset _ _) from unmarked) store
  have loggedIn {user : Option U} {ttlMinutes : Option UInt16}
      (unmarked : store.marker? session.key = none) :
      ((prepareLogin user ttlMinutes session).copyOf
        (loginFilters (prepareLogin user ttlMinutes session)) store)[defaultNewSidField]? =
          none := by
    have userField : session.userMeta.userField = defaultUserField := congrArg (·.2.2.1) names
    have other : defaultNewSidField ≠
        (prepareLogin user ttlMinutes session).userMeta.userField := by
      rw [show (prepareLogin user ttlMinutes session).userMeta.userField = defaultUserField by
        cases user <;> exact userField]
      decide
    have key : (prepareLogin user ttlMinutes session).key = session.key := by
      simp [Core.key, prepareLogin]
    rw [copyOf, applyFilters_getElem?, loginFilters_getElem? _ other, key]
    exact unmarked
  cases operation with
  | set field json => exact clean
  | login | autoLogin => exact fun read loaded => copied (loggedIn (clean read loaded))
  | renew env filters => exact fun read loaded => copied (clean read loaded)
  | tryRenew env conf =>
      refine ⟨clean.1, fun due failed read loaded => copied ?_⟩
      simpa [copyOf, applyFilters_getElem?, Redis.marker?] using clean.2 due failed read loaded
  | _ => trivial

theorem meets_marks (operation : Operation U) {scope : Scope U} {store : Redis}
    {faults : Nat → Bool} (names : scope.session.names = defaultNames)
    (clean : operation.KeepsClean scope.session store faults) :
    (operation.program connection).Meets (fun _ => True)
      (fun outcome scope' state' => operation.Marks scope store outcome scope' state'.1)
      scope (store, faults) := by
  have kept (command : Cmd) (store' : Redis) (unmarking : command.Unmarking)
      (unmarked : store.NoNewMarker store') : store.NoNewMarker (store'.after command) :=
    unmarked.trans (noNewMarker_after unmarking store')
  refine (operation.meets_good names kept (.refl store) (clean.admits names)).mono
    (fun _ here => here) ?_
  rintro outcome scope' state' -
    ⟨named, unmarked | ⟨env, conf, rfl, done, renewed, before, unmarked, marked⟩⟩
  · exact ⟨named, fun key newSid found => .inl (unmarked key newSid found)⟩
  · refine ⟨named, fun key newSid found => ?_⟩
    rw [marked] at found
    refine (marker?_hset unmarked _ _ key newSid found).imp_right ?_
    rintro ⟨rfl, rfl⟩
    simp [record, done, renewed]

end Operation

namespace System

/-- Every object has the default names, and every marker is that of a renewal on record. -/
structure Clean (system : System U) : Prop where
  names : system.Each fun session => session.names = defaultNames
  markers : ∀ sid newSid, system.store.marker? (sessionKey sid) = some newSid →
    (sid, newSid) ∈ system.renewals

/-- A step that makes no session carry the marker of another. -/
def KeepsClean (system : System U) : Action U → Prop
  | .operate index operation faults => ∀ session, system.objects index = some session →
      operation.KeepsClean session system.store faults
  | _ => True

/-- An operation that gives its object a new sid leaves no marker there, if there was none
before. -/
def StartsClean (connection : Bool) (system : System U) : Action U → Prop
  | .operate index operation faults => ∀ session session', system.objects index = some session →
      let later := system.operate connection index operation faults
      later.objects index = some session' → session'.info.sid ≠ session.info.sid →
      system.store.marker? (sessionKey session'.info.sid) = none →
      later.store.marker? (sessionKey session'.info.sid) = none
  | _ => True

variable {system : System U}

/-- What is left behind by an admitted operation of an object. -/
theorem Clean.marks (connection : Bool) (clean : system.Clean) {index : Nat}
    {operation : Operation U}
    {faults : Nat → Bool} (admitted : system.KeepsClean (.operate index operation faults))
    {session : RedisSession U} (found : system.objects index = some session) :
    let final := (operation.program connection (system.scope session)).run Redis.faultyAnswer
      (system.store, faults)
    operation.Marks (system.scope session) system.store final.1.1 final.1.2 final.2.1 := by
  have meets :
      (operation.program connection).Meets _ _ (system.scope session) (system.store, faults) :=
    operation.meets_marks (clean.names index session found) (admitted session found)
  exact meets.run

theorem Clean.operate (clean : system.Clean) {index : Nat} {operation : Operation U}
    {faults : Nat → Bool} (admitted : system.KeepsClean (.operate index operation faults)) :
    (system.operate connection index operation faults).Clean := by
  cases found : system.objects index with
  | none => simpa [System.operate, found] using clean
  | some session =>
      have marked := clean.marks connection admitted found
      have names := clean.names index session found
      have roots := clean.names.root session
      simp only [System.operate, found]
      generalize (operation.program connection (system.scope session)).run Redis.faultyAnswer
        (system.store, faults) = final at marked ⊢
      rcases marked with ⟨named, marks⟩
      refine ⟨clean.names.writeBack index (named.session.trans names) ?_,
        fun sid newSid marker => ?_⟩
      · intro root rooted
        have same := named.root
        rw [rooted] at same
        rcases Option.map_eq_some_iff.mp same.symm with ⟨root', rooted', names'⟩
        exact names'.symm.trans (roots root' rooted')
      · have key : (system.scope session).session.key = sessionKey session.info.sid :=
          Core.key_of_names names
        refine List.mem_append.mpr ((marks _ newSid marker).symm.imp ?_ (clean.markers sid newSid))
        rintro ⟨named, recorded⟩
        rw [key, sessionKey_inj] at named
        exact named ▸ recorded

theorem Clean.step (clean : system.Clean) (action : Action U)
    (admitted : system.KeepsClean action) :
    (system.step connection action).Clean := by
  refine ⟨clean.names.step action (fun _ _ _ => rfl) ?_ (fun _ _ names => names) ?_ ?_, ?_⟩
  · exact fun sid session presented => (newWithId_proper presented).names
  · exact fun root index sid session names made => (cloneForRequest_names made).trans names
  · rintro index operation faults rfl
    exact (clean.operate admitted).names
  · cases action with
    | operate index operation faults => exact (clean.operate admitted).markers
    | tick seconds =>
        intro sid newSid marker
        refine clean.markers sid newSid ?_
        rcases Redis.shrinks_tick system.store seconds (sessionKey sid) with same | gone
        · rwa [Redis.marker?, System.step, same] at marker
        · simp [Redis.marker?, System.step, gone] at marker
    | _ =>
        rw [(store_step _ (by rintro _ _ _ ⟨⟩) (by rintro _ ⟨⟩)).1,
          (store_step _ (by rintro _ _ _ ⟨⟩) (by rintro _ ⟨⟩)).2]
        exact clean.markers

omit [UidGetter U] [Serde U] in
/-- The initial state has neither objects nor keys. -/
theorem clean_start : (start : System U).Clean :=
  ⟨.start, by rintro _ _ ⟨⟩⟩

theorem clean_of_reachable
    (reached : Reachable (System.step connection) KeepsClean Initial system) : system.Clean := by
  refine reached.invariant ?_ fun _ action clean => clean.step action
  rintro _ rfl
  exact clean_start

theorem Clean.startsClean (clean : system.Clean) (action : Action U)
    (admitted : system.KeepsClean action) : system.StartsClean connection action := by
  cases action with
  | operate index operation faults =>
      intro session session' found later _ changed unmarked
      have marked := clean.marks connection admitted found
      have key : (system.scope session).session.key = sessionKey session.info.sid :=
        Core.key_of_names (clean.names index session found)
      simp only [later, System.operate, found]
      generalize (operation.program connection (system.scope session)).run Redis.faultyAnswer
        (system.store, faults) = final at marked ⊢
      rw [Option.eq_none_iff_forall_ne_some]
      intro newSid marker
      rcases marked.2 _ newSid marker with before | ⟨own, _⟩
      · rw [unmarked] at before
        cases before
      · rw [key, sessionKey_inj] at own
        exact changed own
  | _ => trivial

/-- In a run of such steps, a marker names the successor that a renewal of that session created, and
a session starts without one. -/
theorem markers_recorded
    (reached : Reachable (System.step connection) KeepsClean Initial system) :
    (∀ sid newSid, system.store.marker? (sessionKey sid) = some newSid →
      (sid, newSid) ∈ system.renewals) ∧
    ∀ action, system.KeepsClean action → system.StartsClean connection action := by
  have clean := clean_of_reachable reached
  exact ⟨clean.markers, clean.startsClean⟩

/-- A session that is renewed, and that another request then logs in with its old sid. -/
def inheritedRun : List (Action Account) :=
  [.new (.uniform 0 0x70000000 0x70000000) 60,
    .operate 0 (.set "cart".toList (some "3".toList)) noFaults,
    .operate 0 (.tryRenew (.uniform 1 0x70001000 0x70001000) AutoRenew.new) noFaults,
    .newWithId (List.replicate 64 '0' ++ "003C70000000".toList),
    .operate 1 (.login (.uniform 2 0x70001000 0x70001000) ⟨7, 1⟩ 30) noFaults]

/-- A login copies the marker of the session, so that the new session seems to have a successor. -/
theorem not_markers_recorded :
    ¬∀ system : System Account, Reachable (System.step false) (fun _ action => action.Faultless)
      Initial system → ∀ sid newSid, system.store.marker? (sessionKey sid) = some newSid →
        (sid, newSid) ∈ system.renewals := by
  intro claim
  have recorded := claim (after false inheritedRun)
    (reachable_after inheritedRun ⟨trivial, rfl, rfl, trivial, rfl, trivial⟩)
  let loggedIn := List.replicate 64 '2' ++ "001E70001000".toList
  let successor := List.replicate 64 '1' ++ "003C70001000".toList
  have inherited : (after false inheritedRun).store.marker? (sessionKey loggedIn) =
      some successor := by decide
  exact absurd (recorded loggedIn successor inherited) (by decide)

/-- A session that is renewed once. -/
theorem markers_recorded_renewal :
    let system := after false (inheritedRun.take 3)
    (∀ sid newSid, system.store.marker? (sessionKey sid) = some newSid →
      (sid, newSid) ∈ system.renewals) ∧
    ∀ action, system.KeepsClean action → system.StartsClean false action := by
  refine markers_recorded (reachable_after _ ⟨trivial, ?_, ?_, trivial⟩)
  · rintro session ⟨⟩
    exact (by decide : "cart".toList ≠ defaultNewSidField)
  · rintro session ⟨⟩
    exact ⟨rfl, by rintro _ ⟨⟩⟩

end System

end Dce.Session
