import Dce.Session.Index
import Dce.Session.Secures
import Dce.Session.Stays

/-!
# Markers that can be read

A session that was renewed names its successor, and the name is cut into pieces
when it is read. The operations of sessions without a connection write only names
that can be cut, so none of them panics, whatever else is sent in between and
whichever commands fail.
-/

namespace Dce.Session

open SessionM RedisSession

variable {U α β : Type}

-- the arithmetic of the clock is not to be evaluated
attribute [local irreducible] AutoRenew.secondsFromRenew

/-- The successor that some data names, if it names one, can be read. -/
def Dict.Marked (data : Dict) : Prop :=
  ∀ text, data[defaultNewSidField]? = some text → (Meta.parseSid text).Returns

def Redis.Marked (store : Redis) : Prop := ∀ key, Dict.Marked (store.fields key)

/-- The successor that a copy would name by its filters can be read. -/
def Filters.Marked (filters : Filters) : Prop :=
  ∀ text, filters[defaultNewSidField]? = some (some text) → (Meta.parseSid text).Returns

/-- A command that names no successor that cannot be read. -/
def Cmd.SparesMarkers : Cmd → Prop
  | hset _ field value => field = defaultNewSidField → (Meta.parseSid value).Returns
  | hmset _ data => Dict.Marked data
  | _ => True

theorem userField_ne : defaultUserField ≠ defaultNewSidField := by decide

theorem Filters.Marked.apply {filters : Filters} {data : Dict} (filtered : filters.Marked)
    (copied : Dict.Marked data) : Dict.Marked (applyFilters filters data) := by
  intro text held
  rw [applyFilters_getElem?] at held
  cases named : filters[defaultNewSidField]? with
  | none =>
      rw [named] at held
      exact copied text held
  | some change =>
      rw [named] at held
      cases held
      exact filtered text named

namespace Redis.Marked

variable {store store' : Redis}

theorem empty : Redis.empty.Marked := by
  intro key text held
  simp [Redis.fields, Redis.hash?, Redis.empty] at held

theorem of_fields (marked : store.Marked)
    (fewer : ∀ key text, (store'.fields key)[defaultNewSidField]? = some text →
      (store.fields key)[defaultNewSidField]? = some text) : store'.Marked :=
  fun key text held => marked key text (fewer key text held)

theorem after (marked : store.Marked) {command : Cmd} (spares : command.SparesMarkers) :
    (store.after command).Marked := by
  cases command with
  | hset key field value =>
      intro key' text held
      rw [Redis.after, fields_hset] at held
      split at held
      · rename_i same
        rw [Std.ExtTreeMap.getElem?_insert] at held
        split at held
        · rename_i marker
          cases held
          exact spares (Std.LawfulEqCmp.eq_of_compare marker)
        · exact marked key text held
      · exact marked key' text held
  | hmset key data =>
      intro key' text held
      rw [Redis.after, fields_hmset] at held
      split at held
      · rw [Std.ExtTreeMap.getElem?_union] at held
        cases named : data[defaultNewSidField]? with
        | none =>
            rw [named, Option.none_or] at held
            exact marked key text held
        | some text' =>
            rw [named, Option.some_or] at held
            cases held
            exact spares text named
      · exact marked key' text held
  | hdel key field =>
      exact marked.of_fields fun _ _ held => held_of_after (.hdel key field) trivial held
  | expire key seconds =>
      exact marked.of_fields fun _ _ held => held_of_after (.expire key seconds) trivial held
  | del key =>
      exact marked.of_fields fun _ _ held => held_of_after (.del key) trivial held
  | srem key member => exact marked
  | sadd key member => exact marked
  | hget key field => exact marked
  | hgetall key => exact marked
  | ttl key => exact marked
  | isPresent key => exact marked
  | smembers key => exact marked

theorem tick (marked : store.Marked) (seconds : Nat) : (store.tick seconds).Marked := by
  refine marked.of_fields fun key text held => ?_
  rcases shrinks_tick store seconds key with same | gone
  · rwa [same] at held
  · simp [gone] at held

end Redis.Marked

/-- A session without a root that has the default user field and a sid that can be read. It has a
user if it acts for one. -/
structure Scope.Ready (acting : Prop) (scope : Scope U) : Prop where
  sid : (Meta.parseSid scope.session.info.sid).Returns
  userField : scope.session.userMeta.userField = defaultUserField
  root : scope.root = none
  user : acting → scope.session.userMeta.user.isSome

theorem Scope.Ready.calm {acting : Prop} {scope : Scope U} (ready : scope.Ready acting) :
    scope.Ready False :=
  ⟨ready.sid, ready.userField, ready.root, False.elim⟩

theorem Scope.Ready.touched {acting : Prop} {scope scope' : Scope U} (ready : scope.Ready acting)
    (touched : scope.Touched scope') : scope'.Ready acting := by
  rcases touched with ⟨_, rfl⟩
  exact ⟨ready.sid, ready.userField, ready.root, ready.user⟩

theorem Scope.Ready.cached {acting : Prop} {scope scope' : Scope U} (ready : scope.Ready acting)
    (cached : scope.Cached scope') : scope'.Ready acting := by
  rcases cached with ⟨⟨_, _, rfl⟩, user⟩
  exact ⟨ready.sid, ready.userField, ready.root, fun acts => user (ready.user acts)⟩

/-- An operation that names no successor that cannot be read, and does not panic. -/
abbrev SessionM.Serves (acting : Prop) (pre : Scope U → Prop) (ends : α → Scope U → Prop)
    (operation : SessionM U α) : Prop :=
  operation.Secures Redis.Marked False (Scope.Ready acting) pre ends

/-- One that needs no more than a session that is ready. -/
abbrev SessionM.Steady (acting : Prop) (operation : SessionM U α) : Prop :=
  operation.Abides Redis.Marked False (Scope.Ready acting)

variable {acting : Prop}

theorem Cmd.SparesHashes.sparesMarkers {command : Cmd} (spares : command.SparesHashes) :
    command.SparesMarkers := by
  cases command <;> trivial

theorem Cmd.Mild.sparesMarkers {command : Cmd} (mild : command.Mild) : command.SparesMarkers :=
  mild.spares.sparesMarkers

theorem steady_of_moves {rel : Scope U → Scope U → Prop} {operation : SessionM U α}
    (moves : ∀ scope, scope.Ready acting → operation.Moves Cmd.SparesMarkers rel False scope)
    (leaves : ∀ scope scope', scope.Ready acting → rel scope scope' → scope'.Ready acting) :
    operation.Steady acting :=
  secures_of_moves moves (fun _ _ spares marked => marked.after spares) leaves

theorem steady_of_same {operation : SessionM U α}
    (moves : ∀ scope, scope.Ready acting → operation.Moves Cmd.SparesMarkers Eq False scope) :
    operation.Steady acting :=
  steady_of_moves moves fun _ _ ready same => same ▸ ready

theorem steady_tryTouch : (tryTouch : SessionM U Bool).Steady acting :=
  steady_of_moves (fun _ _ => moves_tryTouch trivial) fun _ _ => Scope.Ready.touched

/-- The successor that a session names can be read. -/
theorem serves_marker :
    (silentGet defaultNewSidField : SessionM U Str).Serves acting (Scope.Ready acting)
      fun text scope => scope.Ready acting ∧ (Meta.parseSid text).Returns := by
  refine secures_self fun scope _ => ?_
  let tells (value : Option Str) (scope : Scope U) : Prop :=
    scope.Ready acting ∧ ∀ text, value = some text → (Meta.parseSid text).Returns
  have told : (Commands.hget scope.session.key defaultNewSidField :
      SessionM U (Option Str)).Serves acting
        (fun scope' => scope'.Ready acting ∧ scope'.session = scope.session) tells := by
    apply secures_redis (fun _ holds => holds.1)
    · exact fun _ _ _ marked => marked
    · exact fun scope' store holds marked => ⟨holds.1, fun text held => marked _ text held⟩
  refine secures_bind told fun value => ?_
  cases value with
  | none => exact secures_throw (fun _ holds => holds.1) _
  | some text =>
      refine (secures_pure (fun _ holds => holds.1) text).mono (fun _ holds => holds) ?_
      rintro _ scope' ⟨⟨ready, reads⟩, rfl⟩
      exact ⟨ready, reads _ rfl⟩

variable [UidGetter U]

theorem steady_clonedDestroy : (clonedDestroy : SessionM U Bool).Steady acting :=
  steady_of_same fun _ _ =>
    moves_clonedDestroy (fun _ mild => mild.sparesMarkers) fun _ _ => trivial

variable [Serde U]

omit [UidGetter U] in
/-- The cached user is returned, and does not get lost. -/
theorem serves_user :
    (user : SessionM U (Option U)).Serves acting (Scope.Ready acting) fun user scope =>
      scope.Ready acting ∧ scope.session.userMeta.user = user := by
  have cached : (self >>= fun session => pure session.userMeta.user :
      SessionM U (Option U)).Serves acting (Scope.Ready acting) fun user scope =>
        scope.Ready acting ∧ scope.session.userMeta.user = user := by
    refine secures_self fun scope _ => ?_
    refine (secures_pure (fun _ holds => holds.1) _).mono (fun _ holds => holds) ?_
    rintro user scope' ⟨⟨ready, same⟩, rfl⟩
    exact ⟨ready, by rw [same]⟩
  have loaded : (modify fun session =>
      { session with userMeta := { session.userMeta with tryLoaded := true } } :
      SessionM U Unit).Steady acting :=
    abides_modify fun scope ready => ⟨ready.sid, ready.userField, ready.root, ready.user⟩
  refine secures_self fun scope _ => ?_
  split
  · refine (secures_pure (fun _ holds => holds.1) _).mono (fun _ holds => holds) ?_
    rintro user scope' ⟨⟨ready, same⟩, rfl⟩
    exact ⟨ready, by rw [same]⟩
  · have asks : (silentGet scope.session.userMeta.userField : SessionM U Str).Steady acting :=
      steady_of_same fun _ _ => moves_silentGet (fun _ mild => mild.sparesMarkers) _
    have loading := (abides_attempt asks).mono
      (fun (scope' : Scope U) (holds : scope'.Ready acting ∧ scope'.session = scope.session) =>
        holds.1) fun _ _ ends => ends
    refine secures_bind loading fun json => ?_
    split
    · refine secures_bind (abides_modify ?_) fun _ => secures_bind loaded fun _ => cached
      exact fun scope' ready => ⟨ready.sid, ready.userField, ready.root, fun _ => rfl⟩
    · exact secures_bind loaded fun _ => cached

theorem steady_sync (user : U) : (sync user : SessionM U Bool).Steady acting := by
  refine steady_of_same fun scope ready => moves_sync (fun _ mild => mild.sparesMarkers) user ?_
  intro sid json marker
  rw [ready.userField] at marker
  exact absurd marker userField_ne

variable {env : Env} {filters : Filters} {connection : Bool} {conf : AutoRenew}

omit [UidGetter U] [Serde U] in
theorem steady_sessionRenew (filtered : filters.Marked) :
    (sessionRenew env filters : SessionM U Bool).Steady acting := by
  have reading : (raw : SessionM U Dict).Serves acting (Scope.Ready acting) fun data scope =>
      scope.Ready acting ∧ Dict.Marked data := by
    refine secures_self fun scope _ => ?_
    refine secures_redis (fun _ holds => holds.1) (.hgetall scope.session.key)
      (fun _ _ _ marked => marked) ?_
    exact fun scope' store holds marked => ⟨holds.1, marked _⟩
  have changing : (modify fun session =>
      { session with info := session.info.regenerate env } : SessionM U Unit).Steady acting :=
    abides_modify fun scope ready =>
      ⟨Meta.parseSid_genId_returns _ _, ready.userField, ready.root, ready.user⟩
  refine secures_bind reading fun data => ?_
  by_cases marked : Dict.Marked data
  · have copying : (load (applyFilters filters data) : SessionM U Bool).Steady acting := by
      refine abides_self fun _ _ => ?_
      split
      · exact abides_throw _
      · exact steady_of_same fun _ _ => moves_redis (filtered.apply marked)
    refine Secures.mono ?_ (fun _ holds => holds.1) fun _ _ ends => ends
    refine abides_bind changing fun _ => ?_
    split
    · exact abides_pure _
    · exact abides_bind copying fun _ => steady_tryTouch
  · exact fun scope holds => absurd holds.2 marked

theorem steady_renew (filtered : filters.Marked) :
    (renew connection env filters : SessionM U Bool).Steady acting := by
  have maps : (mapping : SessionM U Bool).Steady acting :=
    steady_of_moves (fun _ _ => moves_mapping fun _ spares _ => spares.sparesMarkers)
      fun _ _ => Scope.Ready.cached
  refine secures_renew ?_ (abides_updateShadow fun _ => Scope.Ready.root)
  refine abides_bind (steady_sessionRenew filtered) fun _ => abides_bind (abides_modify ?_) ?_
  · exact fun scope ready => ⟨ready.sid, ready.userField, ready.root, ready.user⟩
  · exact fun _ => abides_bind (abides_attempt maps) fun _ => abides_pure _

theorem steady_logIn (user : Option U) (ttlMinutes : Option UInt16) :
    (logIn connection env user ttlMinutes : SessionM U Bool).Steady acting := by
  refine abides_bind (abides_modify ?_) fun _ => abides_self fun scope ready => ?_
  · intro scope ready
    have sid : (Meta.parseSid (scope.session.info.config ttlMinutes).sid).Returns := by
      rw [Meta.config_sid]
      exact ready.sid
    cases user with
    | none => exact ⟨sid, ready.userField, ready.root, ready.user⟩
    | some user => exact ⟨sid, ready.userField, ready.root, fun _ => rfl⟩
  · have filtered : Filters.Marked (loginFilters scope.session) := by
      intro text named
      rw [loginFilters_getElem? _ (by rw [ready.userField]; exact userField_ne.symm)] at named
      cases named
    refine abides_bind (abides_attempt (steady_renew filtered)) fun result => ?_
    cases result with
    | ok value => exact steady_clonedDestroy
    | error error => exact abides_throw error

theorem steady_doClone (filtered : filters.Marked) :
    (conf.doClone connection env filters : SessionM U Bool).Steady acting := by
  refine secures_doClone (fun scope ready => ?_) (fun _ ready => ready) (steady_renew filtered) ?_
  · exact ⟨ready.sid, ready.userField, ready.root, ready.user⟩
  · refine steady_of_same fun scope ready => ?_
    exact moves_marking (fun _ _ => trivial) fun _ _ _ => ready.sid

theorem steady_tryRenew (default : conf.newSidField = defaultNewSidField) :
    (conf.tryRenew connection env : SessionM U Bool).Steady acting := by
  have mild (command : Cmd) (mild : command.Mild) := mild.sparesMarkers
  refine secures_tryRenew (fun _ ready => ready) ?keeping (default ▸ serves_marker) ?cloning
    ?succeeding (fun _ _ marked => marked.1) ?judging ?givingUp ?dropping
  case keeping =>
    exact steady_of_moves (fun _ _ => moves_keepUsing trivial) fun _ _ => Scope.Ready.touched
  case cloning =>
    refine fun filters which => steady_doClone fun text named => ?_
    rcases which with rfl | rfl
    · simp at named
    · simp [default] at named
  case succeeding =>
    intro newSid scope marked
    refine secures_cloneSuccessor (fun scope cloned ready => ?_) (fun _ ready => ready)
      (fun _ ready => ready) (.inl marked.2) scope marked.1
    exact ⟨ready.sid, ready.userField, ready.root, ready.user⟩
  case judging => exact steady_of_same fun _ _ => moves_successorIsActive mild conf
  case givingUp =>
    exact steady_of_moves (fun _ _ => moves_giveUp mild trivial) fun _ _ => Scope.Ready.cached
  case dropping => exact steady_clonedDestroy

end Dce.Session
