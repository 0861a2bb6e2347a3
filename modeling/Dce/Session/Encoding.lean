import Dce.Session.Stays
import Dce.Session.Steps

/-!
# Sids that encode their sessions

A later request knows a session by its sid alone. What the sid spells is what the
objects keep beside it, whichever operation gave them their sid, lifetime and
stamp last, and whatever the server replied meanwhile.
-/

namespace Dce.Session

open SessionM RedisSession

variable {U α β : Type}

-- the arithmetic of the clock is not to be evaluated
attribute [local irreducible] AutoRenew.secondsFromRenew

/-- The sid spells the lifetime and the stamp of the session. -/
def Core.Encodes (core : Core U) : Prop :=
  Meta.parseSid core.info.sid = .ok (core.info.ttlMinutes, core.info.createStamp)

structure RedisSession.Encodes (session : RedisSession U) : Prop where
  core : session.toCore.Encodes
  cloned : ∀ cloned, session.cloned = some cloned → cloned.Encodes

/-- All but the session itself, whose sid is about to change. -/
structure Scope.Pending (scope : Scope U) : Prop where
  cloned : ∀ cloned, scope.session.cloned = some cloned → cloned.Encodes
  root : ∀ root, scope.root = some root → root.Encodes

structure Scope.Encodes (scope : Scope U) : Prop where
  session : scope.session.Encodes
  root : ∀ root, scope.root = some root → root.Encodes

theorem Scope.Encodes.pending {scope : Scope U} (encodes : scope.Encodes) : scope.Pending :=
  ⟨encodes.session.cloned, encodes.root⟩

theorem indifferent_encodes : Indifferent (Scope.Encodes : Scope U → Prop) where
  user _ _ encodes := ⟨⟨encodes.session.core, encodes.session.cloned⟩, encodes.root⟩
  tryLoaded _ _ encodes := ⟨⟨encodes.session.core, encodes.session.cloned⟩, encodes.root⟩
  touches _ _ encodes := ⟨⟨encodes.session.core, encodes.session.cloned⟩, encodes.root⟩

/-- A sid is adopted with what it spells, or not at all. -/
theorem Core.Encodes.adopt {core : Core U} (encodes : core.Encodes) (sid : Str)
    (userMeta : UserMeta U) (connMeta : ConnectionMeta) :
    Core.Encodes ⟨(core.info.adopt sid).2, userMeta, connMeta⟩ := by
  rw [Core.Encodes, Meta.adopt]
  cases parsed : Meta.parseSid sid with
  | ok times => exact parsed
  | err error => exact encodes
  | panic => exact encodes

theorem encodes_regenerate {scope : Scope U} (pending : scope.Pending) {env : Env}
    (clock : 2 ^ 28 ≤ env.stamp.toNat) :
    Scope.Encodes { scope with
      session := { scope.session with info := scope.session.info.regenerate env } } :=
  ⟨⟨Meta.parseSid_genId clock scope.session.info.ttlMinutes, pending.cloned⟩, pending.root⟩

/-- Whatever the replies are, the operation keeps the encoding. -/
abbrev SessionM.KeepsEncoding (operation : SessionM U α) : Prop :=
  operation.Stays (fun _ => True) Scope.Encodes

/-- The scope encodes its sids, or the operation failed before it changed anything. -/
def Settles (scope : Scope U) (final : Outcome SessionErr α × Scope U) : Prop :=
  final.2.Encodes ∨ ∃ error, final = (.err error, scope)

theorem settles_bind {first : SessionM U α} {next : α → SessionM U β} {scope : Scope U}
    (settles : (first scope).Sends (fun _ => True) (Settles scope))
    (later : ∀ value, (next value).KeepsEncoding) :
    ((first >>= next) scope).Sends (fun _ => True) (Settles scope) := by
  apply Prog.Sends.bind
  apply Prog.Sends.mono settles (fun _ sent => sent)
  rintro ⟨outcome, scope'⟩ (encodes | ⟨error, failed⟩)
  · cases outcome with
    | ok value =>
        apply Prog.Sends.mono (later value scope' encodes) (fun _ sent => sent)
        exact fun _ encodes' => .inl encodes'
    | err error => exact .inl encodes
    | panic => exact .inl encodes
  · cases failed
    exact .inr ⟨error, rfl⟩

/-- Go on after an operation whose errors are caught: one that changed nothing is passed on. -/
theorem settles_attempt_bind {first : SessionM U α} {next : Except SessionErr α → SessionM U β}
    {scope : Scope U} (settles : (first scope).Sends (fun _ => True) (Settles scope))
    (later : ∀ value, (next (.ok value)).KeepsEncoding)
    (failed : ∀ error scope, next (.error error) scope = .ret (.err error, scope)) :
    ((attempt first >>= next) scope).Sends (fun _ => True) (Settles scope) := by
  apply Prog.Sends.bind
  apply Prog.Sends.bind
  apply Prog.Sends.mono settles (fun _ sent => sent)
  rintro ⟨outcome, scope'⟩ settled
  cases outcome with
  | ok value =>
      rcases settled with encodes | ⟨error, same⟩
      · apply Prog.Sends.mono (later value scope' encodes) (fun _ sent => sent)
        exact fun _ encodes' => .inl encodes'
      · cases same
  | err error =>
      change (next (.error error) scope').Sends _ _
      rw [failed]
      rcases settled with encodes | ⟨error, same⟩
      · exact .inl encodes
      · cases same
        exact .inr ⟨error, rfl⟩
  | panic =>
      rcases settled with encodes | ⟨error, same⟩
      · exact .inl encodes
      · cases same

section

variable {env : Env} {filters : Filters} {connection : Bool} {scope : Scope U}

theorem settles_sessionRenew (pending : scope.Pending) (clock : 2 ^ 28 ≤ env.stamp.toNat) :
    (sessionRenew env filters scope).Sends (fun _ => True) (Settles scope) := by
  refine ⟨trivial, fun reply => ?_⟩
  cases reply with
  | error error => exact .inr ⟨_, rfl⟩
  | ok raw =>
      have ending : (if (applyFilters filters raw).isEmpty then pure true
          else load (applyFilters filters raw) >>= fun _ => tryTouch :
            SessionM U Bool).KeepsEncoding := by
        split
        · exact stays_pure _
        · refine stays_bind (stays_self fun _ _ => ?_) fun _ =>
            stays_of_touched indifferent_encodes fun _ _ => moves_tryTouch trivial
          split
          · exact stays_throw _
          · exact stays_redis trivial
      exact Prog.Sends.mono (ending _ (encodes_regenerate pending clock)) (fun _ sent => sent)
        fun _ encodes => .inl encodes

theorem encodes_updateShadow (newSid : Str) :
    (updateShadow newSid : SessionM U Unit).KeepsEncoding := by
  apply stays_updateShadow
  rintro root scope ⟨scope', encodes', found⟩ encodes serverUnbound
  refine ⟨encodes.session, ?_⟩
  rintro _ ⟨⟩
  have rooted := encodes'.root root found
  exact ⟨rooted.core.adopt newSid _ _, rooted.cloned⟩

variable [UidGetter U] [Serde U]

theorem settles_userRenew (pending : scope.Pending) (clock : 2 ^ 28 ≤ env.stamp.toNat) :
    (userRenew env filters scope).Sends (fun _ => True) (Settles scope) := by
  apply settles_bind (settles_sessionRenew pending clock)
  intro value
  refine stays_bind (stays_modify fun scope encodes => ?_) fun _ => ?_
  · exact indifferent_encodes.tryLoaded scope false encodes
  · have maps : (mapping : SessionM U Bool).KeepsEncoding :=
      stays_of_cached indifferent_encodes fun _ _ => moves_mapping fun _ _ _ => trivial
    exact stays_bind (stays_attempt maps) fun _ => stays_pure _

theorem settles_renew (pending : scope.Pending) (clock : 2 ^ 28 ≤ env.stamp.toNat) :
    (RedisSession.renew connection env filters scope).Sends (fun _ => True) (Settles scope) := by
  apply settles_attempt_bind (settles_userRenew pending clock)
  · intro value
    refine stays_self fun scope _ => ?_
    split
    · exact stays_bind (encodes_updateShadow _) fun _ => stays_ofResult _
    · exact stays_ofResult _
  · intro error scope
    change (if connection && (Except.error error : Except SessionErr Bool).isOk &&
      scope.session.connMeta.serverUnbound.isNone then _ else _ : SessionM U Bool) scope = _
    rw [if_neg (by simp [Except.isOk, Except.toBool])]
    rfl

theorem encodes_renew (clock : 2 ^ 28 ≤ env.stamp.toNat) (filters : Filters) :
    (RedisSession.renew connection env filters : SessionM U Bool).KeepsEncoding :=
  stays_renew indifferent_encodes (fun _ encodes => encodes_regenerate encodes.pending clock)
    encodes_updateShadow filters

/-- Until its regeneration, a session that logs in has a lifetime that its sid does not spell. -/
theorem settles_logIn (encodes : scope.Encodes) (clock : 2 ^ 28 ≤ env.stamp.toNat)
    (user : Option U) (ttlMinutes : Option UInt16) :
    (logIn connection env user ttlMinutes scope).Sends (fun _ => True) fun final =>
      final.2.Encodes ∨ ∃ error, final =
        (.err error, { scope with session := prepareLogin user ttlMinutes scope.session }) := by
  have pending : Scope.Pending { scope with
      session := prepareLogin user ttlMinutes scope.session } := by
    refine ⟨?_, encodes.root⟩
    rintro _ ⟨⟩
    exact encodes.session.core
  apply settles_attempt_bind (settles_renew pending clock)
  · exact fun value => stays_of_same fun _ _ =>
      moves_clonedDestroy (fun _ _ => trivial) fun _ _ => trivial
  · exact fun error scope => rfl

theorem encodes_autoLogin (clock : 2 ^ 28 ≤ env.stamp.toNat) :
    (autoLogin connection env : SessionM U Bool).KeepsEncoding := by
  intro scope encodes
  apply Prog.Sends.mono (settles_logIn encodes clock none none) (fun _ sent => sent)
  rintro final (encodes' | ⟨error, rfl⟩)
  · exact encodes'
  · refine ⟨⟨encodes.session.core, ?_⟩, encodes.root⟩
    rintro _ ⟨⟩
    exact encodes.session.core

end

section

variable [UidGetter U] [Serde U] {conf : AutoRenew} {connection : Bool} {env : Env}

omit [UidGetter U] [Serde U] in
/-- A clone has adopted its sid with what it spells. -/
theorem cloneWithId_encodes {session cloned : RedisSession U} {sid : Str}
    (made : session.cloneWithId sid = .ok cloned) : cloned.Encodes := by
  simp only [cloneWithId, Meta.adopt] at made
  cases parsed : Meta.parseSid sid with
  | ok times =>
      simp only [parsed, Outcome.bind_ok, Outcome.pure_eq, Outcome.ok.injEq] at made
      subst made
      exact ⟨parsed, by rintro _ ⟨⟩⟩
  | err error => simp [parsed] at made
  | panic => simp [parsed] at made

omit [UidGetter U] [Serde U] in
theorem encodes_cloneSuccessor (newSid : Str) :
    (AutoRenew.cloneSuccessor newSid : SessionM U Unit).KeepsEncoding := by
  intro scope encodes
  have adopted (cloned : Option (Core U))
      (spelled : ∀ core, cloned = some core → core.Encodes) :
      Scope.Encodes { scope with session := { scope.session with cloned } } :=
    ⟨⟨encodes.session.core, spelled⟩, encodes.root⟩
  rw [cloneSuccessor_eq]
  cases made : scope.session.cloneWithId newSid with
  | ok cloned =>
      refine adopted _ ?_
      rintro _ ⟨⟩
      exact (cloneWithId_encodes made).core
  | err error => exact adopted none (by rintro _ ⟨⟩)
  | panic => exact encodes

theorem encodes_tryRenew (clock : 2 ^ 28 ≤ env.stamp.toNat) :
    (conf.tryRenew connection env : SessionM U Bool).KeepsEncoding := by
  refine stays_tryRenew indifferent_encodes (encodes_renew clock) (fun scope encodes => ?_)
    encodes_cloneSuccessor
  refine ⟨⟨encodes.session.core, ?_⟩, encodes.root⟩
  rintro _ ⟨⟩
  exact encodes.session.core

end

/-- What an application asks for: a step of the system, or a clone or a redirection that it makes
itself. -/
inductive Call (U : Type) where
  | step (action : Action U)
  | cloneWithId (index : Nat) (sid : Str)
  | updateShadow (index : Nat) (newSid : Str) (faults : Nat → Bool)

section

variable [UidGetter U] [Serde U]

/-- The surroundings in which an operation may generate an id. -/
def Operation.env? : Operation U → Option Env
  | login env _ _ | autoLogin env | renew env _ | tryRenew env _ => some env
  | _ => none

/-- The operation changes the lifetime before anything else. -/
def Operation.IsLogin : Operation U → Prop
  | login .. => True
  | _ => False

namespace System

/-- One call of the application. -/
def call (connection : Bool) (system : System U) : Call U → System U
  | .step action => system.step connection action
  | .cloneWithId index sid =>
      match system.objects index with
      | some session =>
          match session.cloneWithId sid with
          | .ok cloned => system.add cloned
          | _ => system
      | none => system
  | .updateShadow index newSid faults =>
      match system.objects index with
      | some session =>
          let final := (updateShadow newSid (system.scope session)).run Redis.faultyAnswer
            (system.store, faults)
          { (system.writeBack index final.1.2) with store := final.2.1 }
      | none => system

/-- The clock is not before 1978, and a login succeeds; the other operations may also fail. -/
def Succeeds (connection : Bool) (system : System U) : Call U → Prop
  | .step (.new env _) => 2 ^ 28 ≤ env.stamp.toNat
  | .step (.operate index operation faults) =>
      (∀ env, operation.env? = some env → 2 ^ 28 ≤ env.stamp.toNat) ∧
      (operation.IsLogin → ∀ session, system.objects index = some session →
        ∃ value, ((operation.program connection (system.scope session)).run Redis.faultyAnswer
          (system.store, faults)).1.1 = .ok value)
  | _ => True

end System

variable {connection : Bool} {system : System U}

theorem Operation.encodes_program (operation : Operation U) {scope : Scope U}
    (encodes : scope.Encodes)
    (clock : ∀ env, operation.env? = some env → 2 ^ 28 ≤ env.stamp.toNat) :
    (operation.program connection scope).Sends (fun _ => True) fun final =>
      (operation.IsLogin → ∃ value, final.1 = .ok value) → final.2.Encodes := by
  by_cases logsIn : ∃ env user ttlMinutes, operation = .login env user ttlMinutes
  · rcases logsIn with ⟨env, user, ttlMinutes, rfl⟩
    apply Prog.Sends.mono (settles_logIn encodes (clock env rfl) (some user) (some ttlMinutes))
      (fun _ sent => sent)
    rintro final (encodes' | ⟨error, rfl⟩) succeeded
    · exact encodes'
    · rcases succeeded trivial with ⟨value, done⟩
      cases done
  · have stays : (operation.program connection).KeepsEncoding := by
      refine operation.stays_program indifferent_encodes ?_ ?_ ?_ ?_
      · exact fun env user ttlMinutes same => absurd ⟨env, user, ttlMinutes, same⟩ logsIn
      · rintro env rfl
        exact encodes_autoLogin (clock env rfl)
      · rintro env filters rfl
        exact encodes_renew (clock env rfl) filters
      · rintro env conf rfl
        exact encodes_tryRenew (clock env rfl)
    exact Prog.Sends.mono (stays scope encodes) (fun _ sent => sent) fun _ encodes' _ => encodes'

namespace System

omit [UidGetter U] [Serde U] in
theorem Each.encodes (each : system.Each RedisSession.Encodes) {index : Nat}
    {session : RedisSession U} (found : system.objects index = some session) :
    (system.scope session).Encodes :=
  ⟨each index session found, each.root session⟩

theorem encodes_operate (each : system.Each RedisSession.Encodes) {index : Nat}
    {operation : Operation U} {faults : Nat → Bool}
    (succeeds : system.Succeeds connection (.step (.operate index operation faults))) :
    (system.operate connection index operation faults).Each RedisSession.Encodes := by
  cases found : system.objects index with
  | none => simpa [operate, found] using each
  | some session =>
      have kept := Prog.Sends.run (operation.encodes_program (each.encodes found) succeeds.1)
        Redis.faultyAnswer (system.store, faults) fun isLogin => succeeds.2 isLogin _ found
      simp only [operate, found]
      exact each.writeBack index kept.session kept.root

theorem encodes_step (each : system.Each RedisSession.Encodes) {action : Action U}
    (succeeds : system.Succeeds connection (.step action)) :
    (system.step connection action).Each RedisSession.Encodes := by
  refine each.step action ?_ ?_ (fun session server encodes =>
    ⟨encodes.core, encodes.cloned⟩) ?_ ?_
  · rintro env ttlMinutes rfl
    exact ⟨Meta.parseSid_genId succeeds ttlMinutes, by rintro _ ⟨⟩⟩
  · intro sid session made
    cases parsed : Meta.parseSid sid with
    | ok times =>
        simp only [RedisSession.newWithId, Meta.newWithSid, parsed, Outcome.bind_ok,
          Outcome.pure_eq, Outcome.ok.injEq] at made
        subst made
        exact ⟨parsed, by rintro _ ⟨⟩⟩
    | err error => simp [RedisSession.newWithId, Meta.newWithSid, parsed] at made
    | panic => simp [RedisSession.newWithId, Meta.newWithSid, parsed] at made
  · intro root index sid session encodes made
    cases cloned : root.cloneWithId (sid.getD root.info.sid) with
    | ok clone =>
        simp only [cloneForRequest, cloned, Outcome.bind_ok, Outcome.pure_eq,
          Outcome.ok.injEq] at made
        subst made
        exact ⟨(cloneWithId_encodes cloned).core, (cloneWithId_encodes cloned).cloned⟩
    | err error => simp [cloneForRequest, cloned] at made
    | panic => simp [cloneForRequest, cloned] at made
  · rintro index operation faults rfl
    exact encodes_operate each succeeds

theorem encodes_call (each : system.Each RedisSession.Encodes) {call : Call U}
    (succeeds : system.Succeeds connection call) :
    (system.call connection call).Each RedisSession.Encodes := by
  cases call with
  | step action => exact encodes_step each succeeds
  | cloneWithId index sid =>
      simp only [System.call]
      split
      · split
        · rename_i made
          exact each.add (cloneWithId_encodes made)
        · exact each
      · exact each
  | updateShadow index newSid faults =>
      simp only [System.call]
      split
      · rename_i session found
        have kept := Prog.Sends.run (encodes_updateShadow newSid _ (each.encodes found))
          Redis.faultyAnswer (system.store, faults)
        exact each.writeBack index kept.session kept.root
      · exact each

/-- A session rebuilt from the sid of another has the other's lifetime and age. -/
def Rebuilds (core : Core U) : Prop :=
  ∃ rebuilt : RedisSession U, newWithId core.info.sid = .ok rebuilt ∧
    rebuilt.info.sid = core.info.sid ∧ rebuilt.info.ttlSeconds = core.info.ttlSeconds ∧
    ∀ (conf : AutoRenew) env, conf.due rebuilt env =
      conf.secondsFromRenew env.now core.info.createStamp

omit [UidGetter U] [Serde U] in
theorem rebuilds_of_encodes {core : Core U} (encodes : core.Encodes) : Rebuilds core := by
  have parsed : Meta.parseSid core.info.sid = _ := encodes
  let info : Meta :=
    ⟨defaultIdName, core.info.ttlMinutes, core.info.createStamp, core.info.sid, none⟩
  refine ⟨⟨⟨info, UserMeta.new, ConnectionMeta.new⟩, none⟩, ?_, rfl, rfl,
    fun _ _ => rfl⟩
  rw [newWithId, Meta.newWithSid, parsed]
  rfl

/-- Every session object and every clone has a sid that spells its lifetime and its stamp, and that
a later request can rebuild it from. -/
theorem sids_encode (reached : Reachable (System.call connection) (Succeeds connection) Initial
    system) {index : Nat} {session : RedisSession U}
    (found : system.objects index = some session) {core : Core U}
    (held : core = session.toCore ∨ session.cloned = some core) :
    Meta.parseSid core.info.sid = .ok (core.info.ttlMinutes, core.info.createStamp) ∧
      Rebuilds core := by
  have each : system.Each RedisSession.Encodes := by
    apply reached.invariant
    · rintro _ rfl
      exact .start
    · exact fun _ _ each succeeds => encodes_call each succeeds
  have encodes : core.Encodes := by
    rcases held with rfl | cloned
    · exact (each index session found).core
    · exact (each index session found).cloned core cloned
  exact ⟨encodes, rebuilds_of_encodes encodes⟩

/-- A connection whose first request logs in for half an hour. -/
def encodedRun : List (Call Account) :=
  [.step (.new (.uniform 0 0x70000000 0x70000000) 60),
    .step (.connect 0 "10.0.0.1".toList),
    .step (.cloneForRequest 0 none),
    .step (.operate 1 (.login (.uniform 1 0x70000010 0x70000010) ⟨7, 1⟩ 30) noFaults)]

/-- The root takes over what the login of the request changed. -/
theorem sids_encode_login :
    let system := encodedRun.foldl (System.call true) start
    ∃ root, system.objects 0 = some root ∧ root.info.ttlMinutes = 30 ∧
      Meta.parseSid root.info.sid = .ok (root.info.ttlMinutes, root.info.createStamp) ∧
        Rebuilds root.toCore := by
  intro system
  have created : 2 ^ 28 ≤ (0x70000000 : UInt64).toNat := by decide
  have loggedIn : 2 ^ 28 ≤ (0x70000010 : UInt64).toNat := by decide
  have admitted : AdmitsRun (System.call true) (Succeeds true) start encodedRun := by
    refine ⟨created, trivial, trivial, ⟨?_, fun _ session found => ?_⟩, trivial⟩
    · rintro env ⟨⟩
      exact loggedIn
    · cases found
      exact ⟨true, by decide⟩
  have lives : ∃ root, system.objects 0 = some root ∧ root.info.ttlMinutes = 30 :=
    ⟨_, rfl, by decide⟩
  rcases lives with ⟨root, found, halfHour⟩
  exact ⟨root, found, halfHour,
    sids_encode (.run (.start initial_start) encodedRun admitted) found (.inl rfl)⟩

end System

end

end Dce.Session
