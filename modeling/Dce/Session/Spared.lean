import Dce.Session.Failing
import Dce.Session.System

/-!
# Sessions after a failure

When a login or a renewal that returns an error leaves its object as it was, and
when it does not. The sid is switched before the copy is loaded, and a login
sets the lifetime and the user before anything is read.
-/

namespace Dce.Session

open SessionM RedisSession AutoRenew

variable {U : Type}

/-- An object with the same id and the same user. -/
structure RedisSession.Same (before after : RedisSession U) : Prop where
  sid : after.info.sid = before.info.sid
  ttlMinutes : after.info.ttlMinutes = before.info.ttlMinutes
  createStamp : after.info.createStamp = before.info.createStamp
  user : after.userMeta.user = before.userMeta.user

namespace Operation

/-- The operations that may give a session a new id. -/
def Renewing : Operation U → Prop
  | login .. | autoLogin .. | renew .. | tryRenew .. => True
  | _ => False

/-- The id that would be generated is not the one the session has. -/
def Fresh (session : RedisSession U) : Operation U → Prop
  | login env _ ttlMinutes => (Meta.genId env ttlMinutes).1 ≠ session.info.sid
  | autoLogin env | renew env _ | tryRenew env _ =>
      (Meta.genId env session.info.ttlMinutes).1 ≠ session.info.sid
  | _ => True

variable [UidGetter U] [Serde U] (connection : Bool) (scope : Scope U) (store : Redis)
  (faults : Nat → Bool)

/-- An error leaves the object as it was. -/
def Spares (operation : Operation U) : Prop :=
  let final := (operation.program connection).tryExec scope store faults
  (∃ error, final.1 = .err error) → scope.session.Same final.2.1.session

end Operation

/-- The successor that the old session names, if it can be read. -/
def AutoRenew.markerOf (conf : AutoRenew) (session : RedisSession U) (store : Redis)
    (faults : Nat → Bool) : Option Str :=
  if faults 0 then none else (store.fields session.key)[conf.newSidField]?

section

variable [UidGetter U] [Serde U] (conf : AutoRenew) (connection : Bool) (scope : Scope U)
  (env : Env) (store : Redis) (faults : Nat → Bool)

/-- The old hash cannot be read, or nothing fails after the switch of the sid. -/
def RenewSpares (filters : Filters) : Prop :=
  faults 0 = true ∨
    ¬(scope.session.Unloaded filters store faults ∨ Refused connection scope env)

/-- If the old hash cannot be read, the lifetime and the user are the ones that the object had;
else nothing fails after the switch of the sid. -/
def LoginSpares (user : U) (ttlMinutes : UInt16) : Prop :=
  if faults 0 then
    ttlMinutes = scope.session.info.ttlMinutes ∧ some user = scope.session.userMeta.user
  else ¬LoginFailsLate connection scope env (some user) (some ttlMinutes) store faults

def AutoLoginSpares : Prop :=
  faults 0 = true ∨ ¬LoginFailsLate connection scope env none none store faults

def CloneSpares (filters : Filters) : Prop :=
  faults 0 = true ∨ ¬CloneFailsLate connection scope env filters store faults

/-- A successor that is active costs the old session, which may load its user before. Otherwise
the successor is removed and replaced. -/
def ReplaceSpares (newSid : Str) : Prop :=
  match scope.session.cloneWithId newSid with
  | .ok _ =>
      let sent := conf.judgingLength scope.session newSid store faults
      if conf.judges scope.session newSid store faults then
        scope.session.userMeta.tryLoaded = true ∨
          scope.session.actingUser store (later faults sent) = scope.session.userMeta.user
      else
        faults sent = true ∨
          CloneSpares connection scope env (store.del (genKey scope.session.info.sidName newSid))
            (later faults (sent + 1)) ((∅ : Filters).insert conf.newSidField none)
  | _ => True

def TryRenewSpares : Prop :=
  if conf.due scope.session env < 0 then True
  else match conf.markerOf scope.session store faults with
    | some newSid =>
        if conf.due scope.session env > conf.originalJudgmentSeconds.toNat then
          ReplaceSpares conf connection scope env store (later faults 1) newSid
        else True
    | none => CloneSpares connection scope env store (later faults 1) ∅

end

variable [UidGetter U] [Serde U]

/-- The exact condition, for each operation. -/
def Operation.SparesWhen (connection : Bool) (scope : Scope U) (store : Redis)
    (faults : Nat → Bool) : Operation U → Prop
  | login env user ttlMinutes => LoginSpares connection scope env store faults user ttlMinutes
  | autoLogin env => AutoLoginSpares connection scope env store faults
  | renew env filters => RenewSpares connection scope env store faults filters
  | tryRenew env conf => TryRenewSpares conf connection scope env store faults
  | _ => True

variable {connection : Bool} {scope : Scope U} {store : Redis} {faults : Nat → Bool} {env : Env}

omit [UidGetter U] [Serde U] in
theorem same_refl (session : RedisSession U) : session.Same session := ⟨rfl, rfl, rfl, rfl⟩

omit [UidGetter U] [Serde U] in
theorem not_same_of_sid {before after : RedisSession U} {sid : Str}
    (switched : after.info.sid = sid)
    (fresh : sid ≠ before.info.sid) : ¬before.Same after :=
  fun same => fresh (switched.symm.trans same.sid)

theorem spares_renew_iff {filters : Filters}
    (fresh : (Meta.genId env scope.session.info.ttlMinutes).1 ≠ scope.session.info.sid) :
    (Operation.renew env filters).Spares connection scope store faults ↔
      RenewSpares connection scope env store faults filters := by
  change (let final := (RedisSession.renew connection env filters).tryExec scope store faults
    (∃ error, final.1 = .err error) → scope.session.Same final.2.1.session) ↔ _
  cases read : faults 0 with
  | true =>
      rw [tryExec_renew_unread scope store faults read]
      exact iff_of_true (fun _ => same_refl _) (.inl read)
  | false =>
      rcases tryExec_renew_read scope store faults read connection env filters with
        ⟨outcome, session, root, store', faults', renewed, _, sid, _, failing, _⟩
      have changed := not_same_of_sid sid fresh
      simp only [renewed, failing, RenewSpares, read, Bool.false_eq_true, false_or]
      exact ⟨fun spares failed => changed (spares failed),
        fun spared failed => absurd failed spared⟩

omit [UidGetter U] [Serde U] in
/-- After the switch of the sid every error leaves a changed object. -/
theorem spares_iff_of_switched {program : SessionM U Bool} {late : Prop} {sid : Str}
    (fresh : sid ≠ scope.session.info.sid)
    (spec : ∃ outcome scope' store' faults',
      program.tryExec scope store faults = (outcome, scope', store', faults') ∧
        scope'.session.info.sid = sid ∧ ((∃ error, outcome = .err error) ↔ late)) :
    ((∃ error, (program.tryExec scope store faults).1 = .err error) →
      scope.session.Same (program.tryExec scope store faults).2.1.session) ↔ ¬late := by
  rcases spec with ⟨outcome, scope', store', faults', done, switched, failing⟩
  have changed := not_same_of_sid switched fresh
  rw [done]
  constructor
  · intro spares fails
    exact changed (spares (failing.mpr fails))
  · intro spared failed
    exact absurd (failing.mp failed) spared

theorem spares_login_iff {user : U} {ttlMinutes : UInt16}
    (fresh : (Meta.genId env ttlMinutes).1 ≠ scope.session.info.sid) :
    (Operation.login env user ttlMinutes).Spares connection scope store faults ↔
      LoginSpares connection scope env store faults user ttlMinutes := by
  change ((∃ error, ((logIn connection env (some user) (some ttlMinutes)).tryExec scope store
    faults).1 = .err error) → _) ↔ _
  cases read : faults 0 with
  | true =>
      simp only [LoginSpares, read, if_true]
      change (_ → scope.session.Same
        ((logIn connection env (some user) (some ttlMinutes)).tryExec scope store
          faults).2.1.session) ↔ _
      rw [tryExec_logIn_unread scope store faults read]
      constructor
      · intro spares
        have same := spares ⟨_, rfl⟩
        exact ⟨same.ttlMinutes, same.user⟩
      · rintro ⟨ttl, cached⟩ -
        exact ⟨rfl, ttl, rfl, cached⟩
  | false =>
      simp only [LoginSpares, read, Bool.false_eq_true, if_false]
      exact spares_iff_of_switched fresh
        (tryExec_logIn_read scope store faults read connection env (some user) (some ttlMinutes))

theorem spares_autoLogin_iff
    (fresh : (Meta.genId env scope.session.info.ttlMinutes).1 ≠ scope.session.info.sid) :
    (Operation.autoLogin env).Spares connection scope store faults ↔
      AutoLoginSpares connection scope env store faults := by
  change ((∃ error, ((logIn connection env none none).tryExec scope store faults).1 =
      .err error) →
    scope.session.Same
      ((logIn connection env none none).tryExec scope store faults).2.1.session) ↔ _
  cases read : faults 0 with
  | true =>
      rw [tryExec_logIn_unread scope store faults read]
      exact iff_of_true (fun _ => ⟨rfl, rfl, rfl, rfl⟩) (.inl read)
  | false =>
      simp only [AutoLoginSpares, read, Bool.false_eq_true, false_or]
      exact spares_iff_of_switched fresh
        (tryExec_logIn_read scope store faults read connection env none none)

namespace AutoRenew

variable {conf : AutoRenew}

theorem spares_doClone_iff {filters : Filters}
    (fresh : (Meta.genId env scope.session.info.ttlMinutes).1 ≠ scope.session.info.sid) :
    ((∃ error, ((conf.doClone connection env filters).tryExec scope store faults).1 =
      .err error) →
      scope.session.Same
        ((conf.doClone connection env filters).tryExec scope store faults).2.1.session) ↔
      CloneSpares connection scope env store faults filters := by
  cases read : faults 0 with
  | true =>
      rw [tryExec_doClone_unread conf scope store faults read]
      exact iff_of_true (fun _ => ⟨rfl, rfl, rfl, rfl⟩) (.inl read)
  | false =>
      simp only [CloneSpares, read, Bool.false_eq_true, false_or]
      exact spares_iff_of_switched fresh
        (tryExec_doClone_read conf scope store faults read connection env filters)

/-- The object with the successor as its clone. -/
def facing (session : RedisSession U) (cloned : Option (Core U)) : RedisSession U :=
  { session with cloned }

theorem tryExec_replaceOrDestroy (conf : AutoRenew) (connection : Bool) (scope : Scope U)
    (store : Redis) (faults : Nat → Bool) (env : Env) {newSid : Str} {cloned : RedisSession U}
    (made : scope.session.cloneWithId newSid = .ok cloned) :
    let within := { scope with session := facing scope.session (some cloned.toCore) }
    let sent := conf.judgingLength scope.session newSid store faults
    (conf.judges scope.session newSid store faults = true →
      ∃ error store' faults', (conf.replaceOrDestroy connection env newSid).tryExec scope store
        faults = (.err error,
          { within with session := sought within.session store (later faults sent) }, store',
          faults')) ∧
    (conf.judges scope.session newSid store faults = false → faults sent = true →
      ∃ error, (conf.replaceOrDestroy connection env newSid).tryExec scope store faults =
        (.err error, within, store, later faults (sent + 1))) ∧
    (conf.judges scope.session newSid store faults = false → faults sent = false →
      (conf.replaceOrDestroy connection env newSid).tryExec scope store faults =
        (conf.doClone connection env ((∅ : Filters).insert conf.newSidField none)).tryExec within
          (store.del (genKey scope.session.info.sidName newSid)) (later faults (sent + 1))) := by
  intro within sent
  rcases cloneWithId_eq_ok made with ⟨sid, user⟩
  have adopted : (cloneSuccessor newSid).tryExec scope store faults =
      (.ok (), within, store, faults) := by
    simp [cloneSuccessor, made, Except.toOption, within, facing]
  have judged : conf.successorIsActive.tryExec within store faults =
      (.ok (conf.judges scope.session newSid store faults), within, store, later faults sent) := by
    have judged := tryExec_successorIsActive conf within store faults rfl
    rwa [sid] at judged
  have start : (conf.replaceOrDestroy connection env newSid).tryExec scope store faults = _ :=
    (tryExec_bind_of adopted).trans (tryExec_bind_of judged)
  refine ⟨fun active => ?_, fun inactive fault => ?_, fun inactive fault => ?_⟩
  · rcases tryExec_destroy within store (later faults sent) with
      ⟨outcome, store', faults', destroyed, returns⟩
    rw [start, active]
    cases outcome with
    | ok value => simp [destroyed]
    | err error => simp [destroyed]
    | panic => exact absurd rfl returns
  · rw [start, inactive]
    simp [clonedDestroy, clonedUnmapping, clonedKey, within, facing, user, fault, Nat.add_comm]
  · rw [start, inactive]
    simp [clonedDestroy, clonedUnmapping, clonedKey, within, facing, user, sid, fault,
      Nat.add_comm]

/-- A sid that cannot be used leaves no clone to remove. -/
theorem tryExec_replaceOrDestroy_err (conf : AutoRenew) (connection : Bool) (scope : Scope U)
    (store : Redis) (faults : Nat → Bool) (env : Env) {newSid : Str} {error : SessionErr}
    (failed : scope.session.cloneWithId newSid = .err error) :
    ∃ error, (conf.replaceOrDestroy connection env newSid).tryExec scope store faults =
      (.err error, { scope with session := facing scope.session none }, store, faults) := by
  have adopted : (cloneSuccessor newSid).tryExec scope store faults =
      (.ok (), { scope with session := facing scope.session none }, store, faults) := by
    simp [cloneSuccessor, failed, Except.toOption, facing]
  have judged := tryExec_successorIsActive_none conf
    { scope with session := facing scope.session none } store faults rfl
  rw [replaceOrDestroy, tryExec_bind_of adopted, tryExec_bind_of judged]
  simp [clonedDestroy, clonedUnmapping, clonedKey, facing]

theorem tryExec_replaceOrDestroy_panic (conf : AutoRenew) (connection : Bool) (scope : Scope U)
    (store : Redis) (faults : Nat → Bool) (env : Env) {newSid : Str}
    (panics : scope.session.cloneWithId newSid = .panic) :
    (conf.replaceOrDestroy connection env newSid).tryExec scope store faults =
      (.panic, scope, store, faults) := by
  have adopted : (cloneSuccessor newSid).tryExec scope store faults =
      (.panic, scope, store, faults) := by
    simp [cloneSuccessor, panics]
  rw [replaceOrDestroy, tryExec_bind, adopted]

theorem spares_replaceOrDestroy_iff {newSid : Str}
    (fresh : (Meta.genId env scope.session.info.ttlMinutes).1 ≠ scope.session.info.sid) :
    ((∃ error, ((conf.replaceOrDestroy connection env newSid).tryExec scope store faults).1 =
        .err error) →
      scope.session.Same
        ((conf.replaceOrDestroy connection env newSid).tryExec scope store faults).2.1.session) ↔
      ReplaceSpares conf connection scope env store faults newSid := by
  cases made : scope.session.cloneWithId newSid with
  | ok cloned =>
      rcases tryExec_replaceOrDestroy conf connection scope store faults env made with
        ⟨destroys, fails, replaces⟩
      simp only [ReplaceSpares, made]
      cases active : conf.judges scope.session newSid store faults with
      | true =>
          rcases destroys active with ⟨error, store', faults', destroyed⟩
          rw [destroyed, if_pos rfl]
          constructor
          · intro spares
            have same := (spares ⟨error, rfl⟩).user
            cases loaded : scope.session.userMeta.tryLoaded with
            | true => exact .inl rfl
            | false =>
                have loaded' : (facing scope.session (some cloned.toCore)).userMeta.tryLoaded =
                  false := loaded
                simp only [sought, loaded', Bool.false_eq_true, if_false] at same
                exact .inr same
          · rintro kept -
            simp only [sought]
            split
            · exact ⟨rfl, rfl, rfl, rfl⟩
            · rename_i unloaded
              exact ⟨rfl, rfl, rfl, kept.resolve_left unloaded⟩
      | false =>
          simp only [Bool.false_eq_true, if_false]
          cases fault : faults (conf.judgingLength scope.session newSid store faults) with
          | true =>
              rcases fails active fault with ⟨error, failed⟩
              rw [failed]
              exact iff_of_true (fun _ => ⟨rfl, rfl, rfl, rfl⟩) (.inl rfl)
          | false =>
              rw [replaces active fault]
              simp only [Bool.false_eq_true, false_or]
              exact spares_doClone_iff fresh
  | err error =>
      have failed := tryExec_replaceOrDestroy_err conf connection scope store faults env made
      rcases failed with ⟨error, failed⟩
      rw [failed]
      exact iff_of_true (fun _ => ⟨rfl, rfl, rfl, rfl⟩) (by simp [ReplaceSpares, made])
  | panic =>
      have panics := tryExec_replaceOrDestroy_panic conf connection scope store faults env made
      rw [panics]
      refine iff_of_true ?_ (by simp [ReplaceSpares, made])
      rintro ⟨_, ⟨⟩⟩

omit [UidGetter U] [Serde U] in
/-- A session that is not renewed is touched, and what comes of that is not looked at. -/
theorem tryExec_touching (scope : Scope U) (store : Redis) (faults : Nat → Bool) :
    ((attempt tryTouch >>= fun _ => pure false : SessionM U Bool).tryExec scope store
      faults).1 = .ok false := by
  cases touched : scope.session.info.touches <;> cases fault : faults 0 <;>
    simp [tryTouch, touch, touched, fault]

section

attribute [local irreducible] AutoRenew.secondsFromRenew

omit [UidGetter U] [Serde U] in
theorem tryExec_silentGet (conf : AutoRenew) (scope : Scope U) (store : Redis)
    (faults : Nat → Bool) :
    ∃ error, (attempt (silentGet conf.newSidField) : SessionM U _).tryExec scope store faults =
      (.ok ((conf.markerOf scope.session store faults).elim (.error error) .ok), scope, store,
        later faults 1) := by
  cases fault : faults 0 with
  | true => exact ⟨.redis .failed, by simp [silentGet, markerOf, fault]⟩
  | false =>
      refine ⟨.redis .nil, ?_⟩
      cases marked : (store.fields scope.session.key)[conf.newSidField]? <;>
        simp [silentGet, markerOf, fault, marked]

theorem tryExec_tryRenew_early (early : conf.due scope.session env < 0) :
    (conf.tryRenew connection env).tryExec scope store faults =
      (attempt tryTouch >>= fun _ => pure false : SessionM U Bool).tryExec scope store faults := by
  rw [due] at early
  rw [tryRenew, tryExec_bind_of (tryExec_self scope store faults)]
  simp only [early, if_true]

theorem tryExec_tryRenew_due (isDue : 0 ≤ conf.due scope.session env) :
    (conf.tryRenew connection env).tryExec scope store faults =
      match conf.markerOf scope.session store faults with
      | some newSid =>
          if conf.due scope.session env > conf.originalJudgmentSeconds.toNat then
            (conf.replaceOrDestroy connection env newSid).tryExec scope store (later faults 1)
          else
            (attempt tryTouch >>= fun _ => pure false : SessionM U Bool).tryExec scope store
              (later faults 1)
      | none => (conf.doClone connection env ∅).tryExec scope store (later faults 1) := by
  rcases tryExec_silentGet conf scope store faults with ⟨error, got⟩
  rw [due] at isDue ⊢
  rw [tryRenew, tryExec_bind_of (tryExec_self scope store faults)]
  simp only [Int.not_lt.mpr isDue, if_false]
  rw [tryExec_bind_of got]
  cases conf.markerOf scope.session store faults with
  | none => rfl
  | some newSid =>
      simp only [Option.elim_some]
      split <;> rfl

theorem spares_tryRenew_iff
    (fresh : (Meta.genId env scope.session.info.ttlMinutes).1 ≠ scope.session.info.sid) :
    (Operation.tryRenew env conf).Spares connection scope store faults ↔
      TryRenewSpares conf connection scope env store faults := by
  change ((∃ error, ((conf.tryRenew connection env).tryExec scope store faults).1 =
      .err error) →
    scope.session.Same
      ((conf.tryRenew connection env).tryExec scope store faults).2.1.session) ↔ _
  rcases Int.lt_or_le (conf.due scope.session env) 0 with early | isDue
  · rw [tryExec_tryRenew_early early, tryExec_touching, TryRenewSpares, if_pos early]
    refine iff_of_true ?_ trivial
    rintro ⟨_, ⟨⟩⟩
  · rw [TryRenewSpares, if_neg (Int.not_lt.mpr isDue), tryExec_tryRenew_due isDue]
    cases marked : conf.markerOf scope.session store faults with
    | none =>
        exact spares_doClone_iff fresh
    | some newSid =>
        by_cases late : conf.due scope.session env > conf.originalJudgmentSeconds.toNat
        · simp only [late, if_true]
          exact spares_replaceOrDestroy_iff fresh
        · simp only [late, if_false, tryExec_touching]
          refine iff_of_true ?_ trivial
          rintro ⟨_, ⟨⟩⟩

end

end AutoRenew

/-- An error of a login or a renewal leaves the object as it was exactly under the condition of the
operation. -/
theorem spares_iff (operation : Operation U) (renewing : operation.Renewing)
    (fresh : operation.Fresh scope.session) :
    operation.Spares connection scope store faults ↔
      operation.SparesWhen connection scope store faults := by
  cases operation with
  | login env user ttlMinutes => exact spares_login_iff fresh
  | autoLogin env => exact spares_autoLogin_iff fresh
  | renew env filters => exact spares_renew_iff fresh
  | tryRenew env conf => exact AutoRenew.spares_tryRenew_iff fresh
  | _ => exact renewing.elim

/-- A request whose session lasts an hour. -/
def hourScope : Scope Account where
  session := RedisSession.new (.uniform 0 0x70000000 0x70000000) 60
  root := none

/-- A renewal whose first command fails leaves no trace. -/
theorem spares_iff_renew :
    (Operation.renew (.uniform 1 0x70000010 0x70000010) ∅).Spares false hourScope Redis.empty
      fun position => position == 0 :=
  (spares_iff (.renew (.uniform 1 0x70000010 0x70000010) ∅) trivial (by
    change _ ≠ _
    decide)).mpr (.inl rfl)

/-- A login whose first command fails has logged the object in. -/
theorem not_spares :
    ¬∀ (operation : Operation Account) (connection : Bool) (scope : Scope Account)
      (store : Redis)
      (faults : Nat → Bool), operation.Renewing →
        operation.Spares connection scope store faults := by
  intro claim
  have fails : ∃ error, (((Operation.login (.uniform 1 0x70000010 0x70000010) ⟨7, 1⟩
      30).program false).tryExec hourScope Redis.empty fun _ => true).1 = .err error :=
    ⟨.redis .failed, by decide⟩
  have same := claim (.login (.uniform 1 0x70000010 0x70000010) ⟨7, 1⟩ 30) false hourScope
    Redis.empty (fun _ => true) trivial fails
  exact absurd same.user (by decide)

end Dce.Session
