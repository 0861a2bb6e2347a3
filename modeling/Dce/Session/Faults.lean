import Dce.Session.Stays

/-!
# Operations whose commands fail

What the operations send, and what they leave behind in a store on which any
command may fail: a failed command changes nothing, and its error either ends
the operation or is dropped by it.
-/

namespace Dce.Session

open SessionM RedisSession

variable {U α β : Type}

/-- Two scopes that differ at most in cached users, touches and the place of the root. -/
structure Scope.Alike (scope scope' : Scope U) : Prop where
  names : scope'.session.names = scope.session.names
  sid : scope'.session.info.sid = scope.session.info.sid
  ttl : scope'.session.info.ttlMinutes = scope.session.info.ttlMinutes
  cloned : scope'.session.cloned = scope.session.cloned
  root : scope'.root.map (·.names) = scope.root.map (·.names)

namespace Scope.Alike

theorem of_session {scope : Scope U} {session : RedisSession U}
    (names : session.names = scope.session.names)
    (sid : session.info.sid = scope.session.info.sid)
    (ttl : session.info.ttlMinutes = scope.session.info.ttlMinutes)
    (cloned : session.cloned = scope.session.cloned) : scope.Alike { scope with session } :=
  ⟨names, sid, ttl, cloned, rfl⟩

theorem refl (scope : Scope U) : scope.Alike scope := of_session rfl rfl rfl rfl

theorem trans {scope scope' scope'' : Scope U} (first : scope.Alike scope')
    (second : scope'.Alike scope'') : scope.Alike scope'' :=
  ⟨second.names.trans first.names, second.sid.trans first.sid, second.ttl.trans first.ttl,
    second.cloned.trans first.cloned, second.root.trans first.root⟩

theorem sidName {scope scope' : Scope U} (alike : scope.Alike scope') :
    scope'.session.info.sidName = scope.session.info.sidName := congrArg Prod.fst alike.names

theorem key {scope scope' : Scope U} (alike : scope.Alike scope') :
    scope'.session.key = scope.session.key := by
  rw [Core.key, Core.key, alike.sidName, alike.sid]

theorem ttlSeconds {scope scope' : Scope U} (alike : scope.Alike scope') :
    scope'.session.info.ttlSeconds = scope.session.info.ttlSeconds := by
  rw [Meta.ttlSeconds, Meta.ttlSeconds, alike.ttl]

end Scope.Alike

namespace SessionM

theorem bind_of_ret {first : SessionM U α} {next : α → SessionM U β} {scope scope' : Scope U}
    {value : α} (known : first scope = .ret (.ok value, scope')) :
    (first >>= next) scope = next value scope' := by
  change SessionM.bind first next scope = next value scope'
  rw [SessionM.bind, known]
  rfl

theorem bind_of_panic {first : SessionM U α} {next : α → SessionM U β} {scope scope' : Scope U}
    (known : first scope = .ret (.panic, scope')) :
    (first >>= next) scope = .ret (.panic, scope') := by
  change SessionM.bind first next scope = _
  rw [SessionM.bind, known]
  rfl

end SessionM

instance : IsPreorder (Scope U) Scope.Alike where
  refl := Scope.Alike.refl
  trans _ _ _ := Scope.Alike.trans

theorem Scope.Touched.alike {scope scope' : Scope U} (touched : scope.Touched scope') :
    scope.Alike scope' := by
  rcases touched with ⟨touches, rfl⟩
  exact .of_session rfl rfl rfl rfl

theorem Scope.Recached.alike {scope scope' : Scope U} (recached : scope.Recached scope') :
    scope.Alike scope' := by
  rcases recached with ⟨user, tryLoaded, rfl⟩
  exact .of_session rfl rfl rfl rfl

namespace SessionM

/-- Whatever the replies are, the operation sends only commands in `allowed` and leaves a scope
like the one it began with. -/
abbrev Frames (allowed : Cmd → Prop) (operation : SessionM U α) (scope : Scope U) : Prop :=
  operation.Moves allowed Scope.Alike True scope

variable {allowed : Cmd → Prop} {scope : Scope U} {operation : SessionM U α}

theorem frames_of_same (moves : operation.Moves allowed Eq False scope) :
    operation.Frames allowed scope :=
  moves.mono (fun _ sent => sent) (fun _ same => same ▸ .refl scope) False.elim

theorem frames_of_touched (moves : operation.Moves allowed Scope.Touched False scope) :
    operation.Frames allowed scope :=
  moves.mono (fun _ sent => sent) (fun _ touched => touched.alike) False.elim

theorem frames_of_recached (moves : operation.Moves allowed Scope.Recached False scope) :
    operation.Frames allowed scope :=
  moves.mono (fun _ sent => sent) (fun _ recached => recached.alike) False.elim

theorem frames_of_cached (moves : operation.Moves allowed Scope.Cached False scope) :
    operation.Frames allowed scope :=
  moves.mono (fun _ sent => sent) (fun _ cached => cached.recached.alike) False.elim

/-- Go on after an operation that sends nothing and whose value is known. -/
theorem frames_of_ret {first : SessionM U α} {next : α → SessionM U β} {value : α}
    (known : first scope = .ret (.ok value, scope)) (later : (next value).Frames allowed scope) :
    (first >>= next).Frames allowed scope := by
  rwa [Frames, Moves, bind_of_ret known]

end SessionM

/-- The clone's key is known. -/
theorem clonedKey_eq (scope : Scope U) {cloned : Core U}
    (named : scope.session.cloned = some cloned) :
    clonedKey scope = .ret (.ok (genKey scope.session.info.sidName cloned.info.sid), scope) := by
  rcases scope with ⟨session, root⟩
  rcases session with ⟨⟩
  cases named
  rfl

namespace SessionM

/-- While the commands picked by the oracle fail, the operation passes only through stores in
`invariant` and ends in `post`. -/
def Meets (invariant : Redis → Prop)
    (post : Outcome SessionErr α → Scope U → Redis × (Nat → Bool) → Prop)
    (operation : SessionM U α) (scope : Scope U) (state : Redis × (Nat → Bool)) : Prop :=
  (operation scope).Meets Redis.faultyAnswer (fun state => invariant state.1)
    (fun final state => post final.1 final.2 state) state

variable {invariant : Redis → Prop} {scope : Scope U} {state : Redis × (Nat → Bool)}

theorem Meets.run {post : Outcome SessionErr α → Scope U → Redis × (Nat → Bool) → Prop}
    {operation : SessionM U α} (meets : operation.Meets invariant post scope state) :
    let final := (operation scope).run Redis.faultyAnswer state
    post final.1.1 final.1.2 final.2 := meets.2

theorem meets_ofOutcome
    {post : Outcome SessionErr α → Scope U → Redis × (Nat → Bool) → Prop}
    {outcome : Outcome SessionErr α} (here : invariant state.1) (ends : post outcome scope state) :
    (ofOutcome outcome).Meets invariant post scope state :=
  Prog.meets_ret.mpr ⟨here, ends⟩

theorem Meets.mono
    {post post' : Outcome SessionErr α → Scope U → Redis × (Nat → Bool) → Prop}
    {invariant' : Redis → Prop} {operation : SessionM U α}
    (meets : operation.Meets invariant post scope state)
    (weaker : ∀ store, invariant store → invariant' store)
    (ends : ∀ outcome scope' state', invariant state'.1 → post outcome scope' state' →
      post' outcome scope' state') : operation.Meets invariant' post' scope state :=
  Prog.Meets.mono (Prog.Meets.last meets) (fun state => weaker state.1)
    fun final state' both => ends final.1 final.2 state' both.1 both.2

theorem meets_bind {post : Outcome SessionErr β → Scope U → Redis × (Nat → Bool) → Prop}
    {first : SessionM U α} {next : α → SessionM U β}
    (meets : first.Meets invariant (fun outcome scope' state' =>
      match outcome with
      | .ok value => (next value).Meets invariant post scope' state'
      | .err error => post (.err error) scope' state'
      | .panic => post .panic scope' state') scope state) :
    (first >>= next).Meets invariant post scope state := by
  refine Prog.Meets.bind (Prog.Meets.mono (Prog.Meets.last meets) (fun _ here => here) ?_)
  rintro ⟨outcome, scope'⟩ state' ⟨here, ends⟩
  cases outcome with
  | ok value => exact ends
  | err error => exact Prog.meets_ret.mpr ⟨here, ends⟩
  | panic => exact Prog.meets_ret.mpr ⟨here, ends⟩

theorem meets_attempt
    {post : Outcome SessionErr (Except SessionErr α) → Scope U →
      Redis × (Nat → Bool) → Prop}
    {operation : SessionM U α}
    (meets : operation.Meets invariant (fun outcome scope' state' =>
      match outcome with
      | .ok value => post (.ok (.ok value)) scope' state'
      | .err error => post (.ok (.error error)) scope' state'
      | .panic => post .panic scope' state') scope state) :
    operation.attempt.Meets invariant post scope state := by
  refine Prog.Meets.bind (Prog.Meets.mono (Prog.Meets.last meets) (fun _ here => here) ?_)
  rintro ⟨outcome, scope'⟩ state' ⟨here, ends⟩
  cases outcome <;> exact Prog.meets_ret.mpr ⟨here, ends⟩

theorem meets_redis (command : Cmd)
    {post : Outcome SessionErr command.Value → Scope U → Redis × (Nat → Bool) → Prop}
    (here : invariant state.1)
    (fails : state.2 0 = true →
      post (.err (.redis .failed)) scope (state.1, fun n => state.2 (n + 1)))
    (done : state.2 0 = false → invariant (state.1.after command) ∧
      post (.ok (state.1.value command)) scope (state.1.after command, fun n => state.2 (n + 1))) :
    (redis command).Meets invariant post scope state := by
  refine Prog.meets_call.mpr ⟨here, ?_⟩
  cases failed : state.2 0 with
  | true =>
      simp only [Redis.faultyAnswer, failed, if_true]
      exact Prog.meets_ret.mpr ⟨here, fails failed⟩
  | false =>
      simp only [Redis.faultyAnswer, failed, Bool.false_eq_true, if_false]
      exact Prog.meets_ret.mpr (done failed)

theorem meets_self {post : Outcome SessionErr β → Scope U → Redis × (Nat → Bool) → Prop}
    {next : RedisSession U → SessionM U β}
    (meets : (next scope.session).Meets invariant post scope state) :
    (self >>= next).Meets invariant post scope state := meets

theorem meets_modify {post : Outcome SessionErr β → Scope U → Redis × (Nat → Bool) → Prop}
    {change : RedisSession U → RedisSession U} {next : Unit → SessionM U β}
    (meets : (next ()).Meets invariant post { scope with session := change scope.session } state) :
    (modify change >>= next).Meets invariant post scope state := meets

theorem meets_of_ret {post : Outcome SessionErr β → Scope U → Redis × (Nat → Bool) → Prop}
    {first : SessionM U α} {next : α → SessionM U β} {value : α}
    {scope' : Scope U} (known : first scope = .ret (.ok value, scope'))
    (meets : (next value).Meets invariant post scope' state) :
    (first >>= next).Meets invariant post scope state := by
  rwa [Meets, bind_of_ret known]

/-- An invariant that the commands of an operation keep. -/
theorem Frames.meets {allowed : Cmd → Prop} {operation : SessionM U α}
    (frames : operation.Frames allowed scope)
    (kept : ∀ command store, allowed command → invariant store →
      invariant (store.after command))
    (start : invariant state.1) :
    operation.Meets invariant (fun _ scope' _ => scope.Alike scope') scope state := by
  refine Prog.Meets.mono (Prog.Sends.meets frames ?_ start) (fun _ here => here)
    fun _ _ both => both.1.2
  intro command state admitted here
  simp only [Redis.faultyAnswer]
  split
  · exact here
  · exact kept command state.1 admitted here

end SessionM

/-- The scope after the session got its new id. -/
def Scope.renewed (scope : Scope U) (env : Env) : Scope U :=
  { scope with session := { scope.session with info := scope.session.info.regenerate env } }

/-- A regeneration got through, and left a store in `complete`, or it failed. -/
def Regenerated (complete : Redis → Prop) (env : Env) (scope : Scope U)
    (outcome : Outcome SessionErr α) (scope' : Scope U)
    (state' : Redis × (Nat → Bool)) : Prop :=
  ((scope.renewed env).Alike scope' ∧ complete state'.1) ∨
    ((∀ value, outcome ≠ .ok value) ∧
      (scope.Alike scope' ∨ (scope.renewed env).Alike scope'))

/-- What a regeneration sends after the copy is loaded. -/
inductive Cmd.Completes (connection : Bool) (key serverField : Str) (seconds : Nat) : Cmd → Prop
  | spares {command : Cmd} (spares : command.SparesHashes) :
      Completes connection key serverField seconds command
  | touch : Completes connection key serverField seconds (.expire (.session key) seconds)
  | bind (connected : connection = true) (server : Str) :
      Completes connection key serverField seconds (.hset key serverField server)

/-- A copy that is loaded without a fault makes the store complete, and what is sent after that
keeps it complete. The first two commands of a regeneration read the old hash and load the copy. -/
structure Completing (connection : Bool) (invariant complete : Redis → Prop) (scope : Scope U)
    (env : Env) (filters : Filters) (store : Redis) (faults : Nat → Bool) : Prop where
  start : invariant store
  weaker : ∀ store', complete store' → invariant store'
  emptied : scope.session.copyOf filters store = ∅ → complete store
  loaded : faults 0 = false → faults 1 = false → scope.session.copyOf filters store ≠ ∅ →
    complete (store.hmset (scope.renewed env).session.key (scope.session.copyOf filters store))
  kept : ∀ command store', Cmd.Completes connection (scope.renewed env).session.key
    scope.session.connMeta.serverField scope.session.info.ttlSeconds command →
    complete store' → complete (store'.after command)

section

variable {invariant complete : Redis → Prop} {scope : Scope U} {env : Env} {filters : Filters}
  {store : Redis} {faults : Nat → Bool} {connection : Bool}

theorem meets_sessionRenew
    (completing : Completing connection invariant complete scope env filters store faults) :
    (sessionRenew env filters).Meets invariant (Regenerated complete env scope) scope
      (store, faults) := by
  refine meets_bind (meets_self (meets_redis (.hgetall _) completing.start (fun _ => ?unread)
    fun read => ⟨completing.start, ?_⟩))
  case unread => exact .inr ⟨by rintro _ ⟨⟩, .inl (.refl scope)⟩
  refine meets_modify ?_
  change SessionM.Meets _ _ (if (scope.session.copyOf filters store).isEmpty then pure true else
    load (scope.session.copyOf filters store) >>= fun _ => tryTouch) (scope.renewed env)
    (store, fun n => faults (n + 1))
  by_cases nothing : scope.session.copyOf filters store = ∅
  · rw [if_pos (Std.ExtTreeMap.isEmpty_iff.mpr nothing)]
    exact meets_ofOutcome completing.start (.inl ⟨.refl _, completing.emptied nothing⟩)
  · have something : ¬(scope.session.copyOf filters store).isEmpty = true :=
      fun none => nothing (Std.ExtTreeMap.isEmpty_iff.mp none)
    rw [if_neg something]
    refine meets_bind (meets_self ?_)
    rw [if_neg something]
    refine meets_redis (.hmset _ _) completing.start (fun _ => ?unloaded) fun written => ?_
    case unloaded => exact .inr ⟨by rintro _ ⟨⟩, .inr (.refl _)⟩
    have copied := completing.loaded read written nothing
    refine ⟨completing.weaker _ copied, ?_⟩
    refine ((frames_of_touched (moves_tryTouch .touch)).meets completing.kept copied).mono
      completing.weaker ?_
    intro outcome scope' state' complete alike
    exact .inl ⟨alike, complete⟩

theorem meets_userRenew [UidGetter U] [Serde U]
    (completing : Completing connection invariant complete scope env filters store faults) :
    (userRenew env filters).Meets invariant (Regenerated complete env scope) scope
      (store, faults) := by
  refine meets_bind ((meets_sessionRenew completing).mono (fun _ here => here) ?_)
  intro outcome scope' state' here regenerated
  cases outcome with
  | err error => exact regenerated
  | panic => exact regenerated
  | ok value =>
      rcases regenerated with ⟨alike, done⟩ | ⟨failed, _⟩
      · have mapping : (do
            modify fun session => { session with
              userMeta := { session.userMeta with tryLoaded := false } }
            let _ ← attempt mapping
            return value : SessionM U Bool).Frames Cmd.SparesHashes scope' :=
          moves_bind (moves_modify (.of_session rfl rfl rfl rfl)) fun _ _ _ =>
            moves_bind (moves_attempt (frames_of_cached (moves_mapping fun _ spares _ => spares)))
              fun _ _ _ => moves_pure _
        have kept (command : Cmd) (store' : Redis) (spares : command.SparesHashes) :=
          completing.kept command store' (.spares spares)
        refine (mapping.meets kept done).mono completing.weaker ?_
        intro outcome scope'' state'' complete alike'
        exact .inl ⟨alike.trans alike', complete⟩
      · exact absurd rfl (failed value)

/-- The root takes over the new sid, or keeps its own. -/
theorem frames_updateShadow {allowed : Cmd → Prop} (scope : Scope U) (newSid : Str)
    (bind : ∀ server,
      allowed (.hset scope.session.key scope.session.connMeta.serverField server)) :
    (updateShadow newSid).Frames allowed scope := by
  refine moves_getRoot ?_
  cases found : scope.root with
  | none => exact moves_throw _
  | some root =>
      -- the root is written back with the names it had
      have ending {scope' : Scope U} {root' : RedisSession U} (alike : scope.Alike scope')
          (names : root'.names = root.names) :
          (setRoot { root' with info := (root'.info.adopt newSid).2 } >>= fun _ =>
            ofOutcome (root'.info.adopt newSid).1).Frames allowed scope' := by
        refine ⟨fun _ => trivial, Scope.Alike.mk rfl rfl rfl rfl ?_⟩
        rw [alike.root, found]
        simp only [Option.map_some, ← names]
        simp [Core.names, Meta.adopt]
        split <;> rfl
      rcases root with ⟨⟨info, userMeta, serverField, shadow, serverUnbound⟩, cloned⟩
      rcases serverUnbound with _ | _ | server
      · exact ending (.refl scope) rfl
      · exact ending (.refl scope) rfl
      · refine moves_self (moves_bind (moves_attempt ?_) fun _ scope' alike => ?_)
        · exact frames_of_same (moves_silentSet (bind server))
        · exact frames_of_ret rfl (ending alike rfl)

variable [UidGetter U] [Serde U]

theorem meets_renew
    (completing : Completing connection invariant complete scope env filters store faults) :
    (renew connection env filters).Meets invariant (Regenerated complete env scope) scope
      (store, faults) := by
  refine meets_bind (meets_attempt ((meets_userRenew completing).mono (fun _ here => here) ?_))
  intro outcome scope' state' here regenerated
  cases outcome with
  | panic => exact regenerated
  | err error =>
      refine meets_self ?_
      rw [if_neg (by simp [Except.isOk, Except.toBool])]
      exact meets_ofOutcome here regenerated
  | ok value =>
      rcases regenerated with ⟨alike, done⟩ | ⟨failed, _⟩
      · have binds (connected : connection = true) (server : Str) :
            Cmd.Completes connection (scope.renewed env).session.key
              scope.session.connMeta.serverField scope.session.info.ttlSeconds
              (.hset scope'.session.key scope'.session.connMeta.serverField server) := by
          rw [alike.key, show scope'.session.connMeta.serverField = _ from
            congrArg (·.2.2.2) alike.names]
          exact .bind connected server
        have ending : (if connection && (Except.ok value : Except SessionErr Bool).isOk &&
            scope'.session.connMeta.serverUnbound.isNone then
              updateShadow scope'.session.info.sid >>= fun _ => ofResult (.ok value)
            else ofResult (.ok value) : SessionM U Bool).Frames
              (Cmd.Completes connection (scope.renewed env).session.key
                scope.session.connMeta.serverField scope.session.info.ttlSeconds) scope' := by
          split
          · rename_i redirects
            have connected : connection = true := by
              cases connection
              · exact absurd redirects (by simp)
              · rfl
            exact moves_bind (frames_updateShadow _ _ (binds connected)) fun _ _ _ =>
              moves_ofResult _
          · exact moves_ofResult _
        refine meets_self ((ending.meets completing.kept done).mono completing.weaker ?_)
        intro outcome scope'' state'' complete alike'
        exact .inl ⟨alike.trans alike', complete⟩
      · exact absurd rfl (failed value)

end

end Dce.Session
