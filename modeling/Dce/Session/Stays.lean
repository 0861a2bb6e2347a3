import Dce.Session.Mapping
import Dce.Session.Moves

/-!
# What operations keep

An operation reads the store, caches what it read and touches its key. A property
of its scope that cares for none of this is kept, whatever the replies are.
-/

namespace Dce.Session

open SessionM RedisSession

variable {U α β : Type}

-- the arithmetic of the clock is not to be evaluated
attribute [local irreducible] AutoRenew.secondsFromRenew

namespace SessionM

/-- From a scope in `property`, whatever the replies are, the operation sends only commands in
`allowed` and stays in `property`. -/
def Stays (allowed : Cmd → Prop) (property : Scope U → Prop)
    (operation : SessionM U α) : Prop :=
  ∀ scope, property scope → (operation scope).Sends allowed fun final => property final.2

variable {allowed : Cmd → Prop} {property : Scope U → Prop}

theorem stays_ofOutcome (outcome : Outcome SessionErr α) :
    (ofOutcome outcome).Stays allowed property := fun _ holds => holds

theorem stays_pure (value : α) : (pure value : SessionM U α).Stays allowed property :=
  fun _ holds => holds

theorem stays_throw (error : SessionErr) : (throw error : SessionM U α).Stays allowed property :=
  fun _ holds => holds

theorem stays_ofResult (result : Except SessionErr α) :
    (ofResult result : SessionM U α).Stays allowed property := by
  intro scope holds
  cases result <;> exact holds

theorem stays_redis {command : Cmd} (admitted : allowed command) :
    (redis command : SessionM U _).Stays allowed property := by
  intro scope holds
  refine ⟨admitted, fun reply => ?_⟩
  cases reply <;> exact holds

theorem stays_modify {change : RedisSession U → RedisSession U}
    (kept : ∀ scope, property scope → property { scope with session := change scope.session }) :
    (modify change).Stays allowed property := kept

theorem stays_bind {first : SessionM U α} {next : α → SessionM U β}
    (stays : first.Stays allowed property)
    (later : ∀ value, (next value).Stays allowed property) :
    (first >>= next).Stays allowed property := by
  intro scope holds
  apply Prog.Sends.bind
  apply Prog.Sends.mono (stays scope holds) (fun _ sent => sent)
  rintro ⟨outcome, scope'⟩ holds'
  cases outcome with
  | ok value => exact later value scope' holds'
  | err error => exact holds'
  | panic => exact holds'

theorem stays_attempt {operation : SessionM U α} (stays : operation.Stays allowed property) :
    operation.attempt.Stays allowed property := by
  intro scope holds
  apply Prog.Sends.bind
  apply Prog.Sends.mono (stays scope holds) (fun _ sent => sent)
  rintro ⟨outcome, scope'⟩ holds'
  cases outcome <;> exact holds'

theorem stays_self {next : RedisSession U → SessionM U β}
    (later : ∀ scope, property scope → (next scope.session).Stays allowed property) :
    (self >>= next).Stays allowed property :=
  fun scope holds => later scope holds scope holds

theorem stays_getRoot {next : Option (RedisSession U) → SessionM U β}
    (later : ∀ scope, property scope → (next scope.root).Stays allowed property) :
    (getRoot >>= next).Stays allowed property :=
  fun scope holds => later scope holds scope holds

end SessionM

/-- A property of scopes that neither the cached user nor a touch matters to. -/
structure Indifferent (property : Scope U → Prop) : Prop where
  user : ∀ scope user, property scope → property { scope with session :=
    { scope.session with userMeta := { scope.session.userMeta with user := user } } }
  tryLoaded : ∀ scope tryLoaded, property scope → property { scope with session :=
    { scope.session with userMeta := { scope.session.userMeta with tryLoaded := tryLoaded } } }
  touches : ∀ scope touches, property scope → property { scope with session :=
    { scope.session with info := { scope.session.info with touches := touches } } }

theorem Indifferent.recached {property : Scope U → Prop} (indifferent : Indifferent property)
    {scope scope' : Scope U} (holds : property scope) (recached : scope.Recached scope') :
    property scope' := by
  rcases recached with ⟨user, tryLoaded, rfl⟩
  exact indifferent.tryLoaded _ tryLoaded (indifferent.user scope user holds)

theorem Indifferent.touched {property : Scope U → Prop} (indifferent : Indifferent property)
    {scope scope' : Scope U} (holds : property scope) (touched : scope.Touched scope') :
    property scope' := by
  rcases touched with ⟨touches, rfl⟩
  exact indifferent.touches scope touches holds

namespace SessionM

variable {allowed : Cmd → Prop} {property : Scope U → Prop} {operation : SessionM U α}

/-- A property stays where it is kept along the moves of the operation. -/
theorem stays_of_moves {rel : Scope U → Scope U → Prop} {panics : Prop}
    (moves : ∀ scope, property scope → operation.Moves allowed rel panics scope)
    (kept : ∀ scope scope', property scope → rel scope scope' → property scope') :
    operation.Stays allowed property :=
  fun scope holds => Prog.Sends.mono (moves scope holds) (fun _ sent => sent) fun final both =>
    kept scope final.2 holds both.2

theorem stays_of_same
    (moves : ∀ scope, property scope → operation.Moves allowed Eq False scope) :
    operation.Stays allowed property :=
  stays_of_moves moves fun _ _ holds same => same ▸ holds

theorem stays_of_recached (indifferent : Indifferent property)
    (moves : ∀ scope, property scope → operation.Moves allowed Scope.Recached False scope) :
    operation.Stays allowed property :=
  stays_of_moves moves fun _ _ => indifferent.recached

theorem stays_of_cached (indifferent : Indifferent property)
    (moves : ∀ scope, property scope → operation.Moves allowed Scope.Cached False scope) :
    operation.Stays allowed property :=
  stays_of_moves moves fun _ _ holds cached => indifferent.recached holds cached.recached

theorem stays_of_touched (indifferent : Indifferent property)
    (moves : ∀ scope, property scope → operation.Moves allowed Scope.Touched False scope) :
    operation.Stays allowed property :=
  stays_of_moves moves fun _ _ => indifferent.touched

end SessionM

section

variable {property : Scope U → Prop} {env : Env} {connection : Bool}

/-- The root takes over the sid, whatever it is bound to. -/
theorem stays_updateShadow (newSid : Str)
    (redirecting : ∀ root scope, (∃ scope, property scope ∧ scope.root = some root) →
      property scope → ∀ serverUnbound, property { scope with root := some { root with
        info := (root.info.adopt newSid).2
        connMeta := { root.connMeta with serverUnbound } } }) :
    (updateShadow newSid).Stays (fun _ => True) property := by
  apply stays_getRoot
  intro scope holds
  cases found : scope.root with
  | none => exact stays_throw _
  | some root =>
      have taken (scope' : Scope U) := redirecting root scope' ⟨scope, holds, found⟩
      rcases root with ⟨⟨info, userMeta, serverField, shadow, serverUnbound⟩, cloned⟩
      rcases serverUnbound with _ | _ | server
      · exact fun scope' holds' => taken scope' holds' none
      · exact fun scope' holds' => taken scope' holds' (some none)
      · refine stays_self fun scope _ => ?_
        apply stays_bind (stays_attempt (stays_of_same fun _ _ => moves_silentSet trivial))
        exact fun _ scope' holds' => taken scope' holds' (some none)

variable [UidGetter U] [Serde U] (indifferent : Indifferent property)

include indifferent

theorem stays_renew
    (regenerating : ∀ scope, property scope → property { scope with session :=
      { scope.session with info := scope.session.info.regenerate env } })
    (redirecting : ∀ newSid, (updateShadow newSid).Stays (fun _ => True) property)
    (filters : Filters) :
    (RedisSession.renew connection env filters).Stays (fun _ => True) property := by
  have copies : (sessionRenew env filters).Stays (fun _ => True) property := by
    refine stays_bind (stays_self fun _ _ => stays_redis trivial) fun raw => ?_
    refine stays_bind (stays_modify regenerating) fun _ => ?_
    split
    · exact stays_pure _
    · refine stays_bind (stays_self fun _ _ => ?_) fun _ =>
        stays_of_touched indifferent fun _ _ => moves_tryTouch trivial
      split
      · exact stays_throw _
      · exact stays_redis trivial
  have maps : mapping.Stays (fun _ => True) property :=
    stays_of_cached indifferent fun _ _ => moves_mapping fun _ _ _ => trivial
  have renews : (userRenew env filters).Stays (fun _ => True) property :=
    stays_bind copies fun _ =>
      stays_bind (stays_modify fun scope holds => indifferent.tryLoaded scope false holds)
        fun _ => stays_bind (stays_attempt maps) fun _ => stays_pure _
  refine stays_bind (stays_attempt renews) fun result => stays_self fun scope _ => ?_
  split
  · exact stays_bind (redirecting _) fun _ => stays_ofResult _
  · exact stays_ofResult _

variable {conf : AutoRenew}
  (renewing : ∀ filters,
    (RedisSession.renew connection env filters).Stays (fun _ => True) property)
  (cloning : ∀ scope, property scope → property { scope with session :=
    { scope.session with cloned := some scope.session.toCore } })

include renewing cloning

omit indifferent in
theorem stays_doClone (filters : Filters) :
    (conf.doClone connection env filters).Stays (fun _ => True) property := by
  refine stays_bind (stays_modify cloning) fun _ =>
    stays_bind (stays_attempt (renewing filters)) fun result => ?_
  cases result with
  | error error => exact stays_throw _
  | ok value =>
      exact stays_of_same fun _ _ => moves_marking (fun _ _ => trivial) fun _ _ => trivial

theorem stays_tryRenew
    (succeeding : ∀ newSid, (AutoRenew.cloneSuccessor newSid).Stays (fun _ => True) property) :
    (conf.tryRenew connection env).Stays (fun _ => True) property := by
  have keeps : (do
      let _ ← attempt tryTouch
      return false).Stays (fun _ => True) property :=
    stays_of_touched indifferent fun _ _ => moves_keepUsing trivial
  have clones (filters : Filters) :
      (conf.doClone connection env filters).Stays (fun _ => True) property :=
    stays_doClone renewing cloning filters
  have replaces (newSid : Str) :
      (conf.replaceOrDestroy connection env newSid).Stays (fun _ => True) property := by
    refine stays_bind (succeeding newSid) fun _ =>
      stays_bind (stays_of_same fun _ _ => moves_successorIsActive (fun _ _ => trivial) conf)
        fun active => ?_
    split
    · exact stays_of_cached indifferent fun _ _ => moves_giveUp (fun _ _ => trivial) trivial
    · exact stays_bind (stays_of_same fun _ _ =>
        moves_clonedDestroy (fun _ _ => trivial) fun _ _ => trivial) fun _ => clones _
  unfold AutoRenew.tryRenew
  apply stays_self
  intro scope _
  dsimp only
  split
  · exact keeps
  · refine stays_bind (stays_attempt (stays_of_same fun _ _ =>
      moves_silentGet (fun _ _ => trivial) _)) fun newSid => ?_
    cases newSid with
    | error error => exact clones ∅
    | ok newSid =>
        dsimp only
        split
        · exact replaces newSid
        · exact keeps

end

/-- Whatever is sent, an operation stays in a property that neither touches nor cached users matter
to, if the regenerations among the operations do. -/
theorem Operation.stays_program [UidGetter U] [Serde U] {property : Scope U → Prop}
    {connection : Bool} (indifferent : Indifferent property) (operation : Operation U)
    (login : ∀ env user ttlMinutes, operation = .login env user ttlMinutes →
      (RedisSession.login connection env user ttlMinutes).Stays (fun _ => True) property)
    (autoLogin : ∀ env, operation = .autoLogin env →
      (RedisSession.autoLogin connection env).Stays (fun _ => True) property)
    (renew : ∀ env filters, operation = .renew env filters →
      (RedisSession.renew connection env filters).Stays (fun _ => True) property)
    (tryRenew : ∀ env (conf : AutoRenew), operation = .tryRenew env conf →
      (conf.tryRenew connection env).Stays (fun _ => True) property) :
    (operation.program connection).Stays (fun _ => True) property := by
  have every (command : Cmd) (_ : command.Mild) : (fun _ : Cmd => True) command := trivial
  cases operation with
  | set field json =>
      cases json with
      | none => exact stays_throw _
      | some value =>
          exact stays_of_touched indifferent fun _ _ =>
            moves_touchIfTrue (moves_silentSet trivial) trivial
  | get field =>
      refine stays_bind (stays_of_touched indifferent fun _ _ => ?_) fun _ => stays_pure _
      exact moves_get every Json field trivial
  | del field =>
      exact stays_of_touched indifferent fun _ _ =>
        moves_touchIfTrue (moves_silentDel trivial) trivial
  | login env user ttlMinutes => exact login env user ttlMinutes rfl
  | autoLogin env => exact autoLogin env rfl
  | logout => exact stays_of_recached indifferent fun _ _ => moves_logout every trivial
  | renew env filters => exact renew env filters rfl
  | tryRenew env conf => exact tryRenew env conf rfl
  | destroy => exact stays_of_cached indifferent fun _ _ => moves_destroy every trivial
  | sync user => exact stays_of_same fun _ _ => moves_sync every user fun _ _ => trivial
  | disconnect => exact stays_self fun _ _ => stays_redis trivial

end Dce.Session
