import Dce.Session.Renew
import Mathlib.Order.Defs.Unbundled

/-!
# What operations send and leave

The operations that ask the store, cache what it holds and touch a key are walked
through once: which commands each of them sends, and what it leaves of its scope,
whatever the replies are. None of them panics.
-/

namespace Dce.Session

open SessionM RedisSession

variable {U α β : Type}

/-- A command that leaves every hash as it is. -/
def Cmd.SparesHashes : Cmd → Prop
  | hset .. | hdel .. | hmset .. | del .. | expire (.session _) _ => False
  | _ => True

/-- The command that reads a whole hash. -/
def Cmd.ReadsAll : Cmd → Prop
  | hgetall _ => True
  | _ => False

/-- A command that asks for less than a whole hash, or takes a sid out of a set. -/
def Cmd.Mild : Cmd → Prop
  | hget .. | ttl .. | isPresent .. | smembers .. | srem .. => True
  | _ => False

theorem Cmd.Mild.spares {command : Cmd} (mild : command.Mild) : command.SparesHashes := by
  cases command <;> trivial

theorem Cmd.Mild.not_readsAll {command : Cmd} (mild : command.Mild) : ¬command.ReadsAll := by
  intro reads
  cases command <;> trivial

/-- The session was touched, or not. -/
def Scope.Touched (scope scope' : Scope U) : Prop :=
  ∃ touches, scope' = { scope with session :=
    { scope.session with info := { scope.session.info with touches } } }

/-- The session caches another user, or none. -/
def Scope.Recached (scope scope' : Scope U) : Prop :=
  ∃ user tryLoaded, scope' = { scope with session :=
    { scope.session with userMeta := { scope.session.userMeta with user, tryLoaded } } }

/-- The session still caches a user if it did. -/
structure Scope.Cached (scope scope' : Scope U) : Prop where
  recached : scope.Recached scope'
  user : scope.session.userMeta.user.isSome → scope'.session.userMeta.user.isSome

instance : IsPreorder (Scope U) Scope.Touched where
  refl _ := ⟨_, rfl⟩
  trans := by
    rintro _ _ _ ⟨_, rfl⟩ ⟨touches, rfl⟩
    exact ⟨touches, rfl⟩

instance : IsPreorder (Scope U) Scope.Recached where
  refl _ := ⟨_, _, rfl⟩
  trans := by
    rintro _ _ _ ⟨_, _, rfl⟩ ⟨user, tryLoaded, rfl⟩
    exact ⟨user, tryLoaded, rfl⟩

instance : IsPreorder (Scope U) Scope.Cached where
  refl scope := ⟨refl_of _ scope, id⟩
  trans _ _ _ first second :=
    ⟨trans_of _ first.recached second.recached, second.user ∘ first.user⟩

namespace SessionM

/-- Whatever the replies are, the operation sends only commands in `allowed` and ends in a scope
that `rel` relates to the one it began with. It does not panic unless that is allowed. -/
def Moves (allowed : Cmd → Prop) (rel : Scope U → Scope U → Prop) (panics : Prop)
    (operation : SessionM U α) (scope : Scope U) : Prop :=
  (operation scope).Sends allowed fun final =>
    (final.1 = .panic → panics) ∧ rel scope final.2

variable {allowed : Cmd → Prop} {rel : Scope U → Scope U → Prop} {panics : Prop}
  {scope : Scope U}

theorem Moves.mono {allowed' : Cmd → Prop} {rel' : Scope U → Scope U → Prop} {panics' : Prop}
    {operation : SessionM U α} (moves : operation.Moves allowed rel panics scope)
    (weaker : ∀ command, allowed command → allowed' command)
    (coarser : ∀ scope', rel scope scope' → rel' scope scope')
    (panicking : panics → panics') :
    operation.Moves allowed' rel' panics' scope :=
  Prog.Sends.mono moves weaker fun final both =>
    ⟨fun panic => panicking (both.1 panic), coarser final.2 both.2⟩

theorem Moves.of_same [IsPreorder (Scope U) rel] {operation : SessionM U α}
    (moves : operation.Moves allowed Eq panics scope) :
    operation.Moves allowed rel panics scope :=
  moves.mono (fun _ sent => sent) (fun _ same => same ▸ refl_of rel scope) id

theorem moves_redis [IsPreorder (Scope U) rel] {command : Cmd} (admitted : allowed command) :
    (redis command : SessionM U _).Moves allowed rel panics scope := by
  refine ⟨admitted, fun reply => ?_⟩
  cases reply <;> exact ⟨by rintro ⟨⟩, refl_of rel scope⟩

theorem moves_pure [IsPreorder (Scope U) rel] (value : α) :
    (pure value : SessionM U α).Moves allowed rel panics scope :=
  ⟨by rintro ⟨⟩, refl_of rel scope⟩

theorem moves_throw [IsPreorder (Scope U) rel] (error : SessionErr) :
    (throw error : SessionM U α).Moves allowed rel panics scope :=
  ⟨by rintro ⟨⟩, refl_of rel scope⟩

theorem moves_ofResult [IsPreorder (Scope U) rel] (result : Except SessionErr α) :
    (ofResult result : SessionM U α).Moves allowed rel panics scope := by
  cases result with
  | ok value => exact moves_pure value
  | error error => exact moves_throw error

theorem moves_modify {change : RedisSession U → RedisSession U}
    (changed : rel scope { scope with session := change scope.session }) :
    (modify change).Moves allowed rel panics scope :=
  ⟨by rintro ⟨⟩, changed⟩

theorem moves_bind [IsPreorder (Scope U) rel] {first : SessionM U α} {next : α → SessionM U β}
    (moves : first.Moves allowed rel panics scope)
    (later : ∀ value scope', rel scope scope' → (next value).Moves allowed rel panics scope') :
    (first >>= next).Moves allowed rel panics scope := by
  apply Prog.Sends.bind
  apply Prog.Sends.mono moves (fun _ sent => sent)
  rintro ⟨outcome, scope'⟩ ⟨panicked, moved⟩
  cases outcome with
  | ok value =>
      refine Prog.Sends.mono (later value scope' moved) (fun _ sent => sent) ?_
      exact fun final both => ⟨both.1, trans_of rel moved both.2⟩
  | err error => exact ⟨by rintro ⟨⟩, moved⟩
  | panic => exact ⟨fun _ => panicked rfl, moved⟩

theorem moves_attempt {operation : SessionM U α}
    (moves : operation.Moves allowed rel panics scope) :
    operation.attempt.Moves allowed rel panics scope := by
  apply Prog.Sends.bind
  apply Prog.Sends.mono moves (fun _ sent => sent)
  rintro ⟨outcome, scope'⟩ ⟨panicked, moved⟩
  cases outcome with
  | ok value => exact ⟨by rintro ⟨⟩, moved⟩
  | err error => exact ⟨by rintro ⟨⟩, moved⟩
  | panic => exact ⟨fun _ => panicked rfl, moved⟩

theorem moves_self {next : RedisSession U → SessionM U β}
    (later : (next scope.session).Moves allowed rel panics scope) :
    (self >>= next).Moves allowed rel panics scope := later

theorem moves_getRoot {next : Option (RedisSession U) → SessionM U β}
    (later : (next scope.root).Moves allowed rel panics scope) :
    (getRoot >>= next).Moves allowed rel panics scope := later

end SessionM

/-- Nothing is sent to make the successor the clone. -/
theorem cloneSuccessor_eq (scope : Scope U) (newSid : Str) :
    AutoRenew.cloneSuccessor newSid scope =
      match scope.session.cloneWithId newSid with
      | .ok cloned =>
          .ret (.ok (), { scope with session := { scope.session with cloned := cloned.toCore } })
      | .err _ => .ret (.ok (), { scope with session := { scope.session with cloned := none } })
      | .panic => .ret (.panic, scope) := by
  have attempted : AutoRenew.cloneSuccessor newSid scope =
      (attempt (ofOutcome (scope.session.cloneWithId newSid)) >>= fun cloned =>
        modify fun session => { session with cloned := cloned.toOption.map (·.toCore) }) scope :=
    rfl
  rw [attempted]
  cases scope.session.cloneWithId newSid <;> rfl

section

variable {allowed : Cmd → Prop} {scope : Scope U}

theorem moves_silentSet {field value : Str}
    (write : allowed (.hset scope.session.key field value)) :
    (silentSet field value).Moves allowed Eq False scope :=
  moves_self (moves_bind (moves_redis write) fun _ _ _ => moves_pure _)

theorem moves_silentDel {field : Str} (remove : allowed (.hdel scope.session.key field)) :
    (silentDel field).Moves allowed Eq False scope :=
  moves_self (moves_redis remove)

theorem moves_clonedKey : clonedKey.Moves allowed Eq False scope := by
  refine moves_self ?_
  split
  · exact moves_pure _
  · exact moves_throw _

/-- Go on with the key of the clone, if there is one. -/
theorem moves_clonedKey_bind {next : Str → SessionM U β}
    (later : ∀ cloned, scope.session.cloned = some cloned →
      (next (genKey scope.session.info.sidName cloned.info.sid)).Moves allowed Eq False scope) :
    (clonedKey >>= next).Moves allowed Eq False scope := by
  rcases scope with ⟨⟨core, _ | cloned⟩, root⟩
  · exact ⟨by rintro ⟨⟩, rfl⟩
  · exact later cloned rfl

theorem moves_clonedTouch (touch : ∀ cloned, scope.session.cloned = some cloned →
      allowed (.expire (.session (genKey scope.session.info.sidName cloned.info.sid))
        scope.session.info.ttlSeconds)) :
    clonedTouch.Moves allowed Eq False scope :=
  moves_self (moves_clonedKey_bind fun cloned named => moves_redis (touch cloned named))

theorem moves_clonedSilentSet {field value : Str}
    (write : ∀ cloned, scope.session.cloned = some cloned →
      allowed (.hset (genKey scope.session.info.sidName cloned.info.sid) field value)) :
    (clonedSilentSet field value).Moves allowed Eq False scope :=
  moves_clonedKey_bind fun cloned named =>
    moves_bind (moves_redis (write cloned named)) fun _ _ _ => moves_pure _

/-- How the old session learns of its successor. -/
theorem moves_marking {conf : AutoRenew}
    (touch : ∀ cloned, scope.session.cloned = some cloned →
      allowed (.expire (.session (genKey scope.session.info.sidName cloned.info.sid))
        scope.session.info.ttlSeconds))
    (mark : ∀ cloned, scope.session.cloned = some cloned →
      allowed (.hset (genKey scope.session.info.sidName cloned.info.sid) conf.newSidField
        scope.session.info.sid)) :
    (do
      let _ ← attempt clonedTouch
      let session ← self
      clonedSilentSet conf.newSidField session.info.sid).Moves allowed Eq False scope := by
  refine moves_bind (moves_attempt (moves_clonedTouch touch)) ?_
  rintro _ _ rfl
  exact moves_self (moves_clonedSilentSet mark)

theorem moves_tryTouch
    (touch : allowed (.expire (.session scope.session.key) scope.session.info.ttlSeconds)) :
    tryTouch.Moves allowed Scope.Touched False scope := by
  refine moves_self ?_
  split
  · refine moves_bind (moves_self (moves_redis touch)) fun _ _ _ => ?_
    exact moves_bind (moves_modify ⟨_, rfl⟩) fun _ _ _ => moves_self (moves_pure _)
  · exact moves_self (moves_pure _)

/-- How a session is kept in use. -/
theorem moves_keepUsing
    (touch : allowed (.expire (.session scope.session.key) scope.session.info.ttlSeconds)) :
    (do
      let _ ← attempt tryTouch
      return false).Moves allowed Scope.Touched False scope :=
  moves_bind (moves_attempt (moves_tryTouch touch)) fun _ _ _ => moves_pure _

theorem moves_touchIfTrue {operation : SessionM U Bool}
    (moves : operation.Moves allowed Eq False scope)
    (touch : allowed (.expire (.session scope.session.key) scope.session.info.ttlSeconds)) :
    (touchIfTrue operation).Moves allowed Scope.Touched False scope := by
  refine moves_bind (moves_attempt moves.of_same) fun result scope' touched => ?_
  rcases touched with ⟨_, rfl⟩
  split
  · exact moves_tryTouch touch
  · exact moves_ofResult _

variable (mild : ∀ command : Cmd, command.Mild → allowed command)

include mild

theorem moves_silentGet (field : Str) : (silentGet field).Moves allowed Eq False scope := by
  refine moves_self (moves_bind (moves_redis (mild _ trivial)) fun value _ _ => ?_)
  cases value with
  | none => exact moves_throw _
  | some value => exact moves_pure _

theorem moves_get (T : Type) [Serde T] (field : Str)
    (touch : allowed (.expire (.session scope.session.key) scope.session.info.ttlSeconds)) :
    (RedisSession.get T field).Moves allowed Scope.Touched False scope := by
  refine moves_bind (moves_attempt (moves_silentGet mild field).of_same)
    fun value scope' touched => ?_
  rcases touched with ⟨_, rfl⟩
  split
  · refine moves_bind (moves_tryTouch touch) fun _ _ _ => ?_
    split
    · exact moves_pure _
    · exact moves_throw _
  · exact moves_throw _

theorem moves_ttlPassedOf (key : Str) : (ttlPassedOf key).Moves allowed Eq False scope := by
  refine moves_self (moves_bind (moves_attempt (moves_redis (mild _ trivial))) fun ttl _ _ => ?_)
  split
  · exact moves_pure _
  · exact moves_throw _

theorem moves_successorIsActive (conf : AutoRenew) :
    conf.successorIsActive.Moves allowed Eq False scope := by
  have newer : clonedTtlPassed.Moves allowed Eq False scope :=
    moves_bind moves_clonedKey fun _ _ _ => moves_ttlPassedOf mild _
  refine moves_bind (moves_attempt newer) fun newTp scope' _ => ?_
  dsimp only
  split
  · have older : ttlPassed.Moves allowed Eq False scope' := moves_self (moves_ttlPassedOf mild _)
    refine moves_bind (moves_attempt older) fun oldTp _ _ => ?_
    split <;> exact moves_pure _
  · exact moves_pure _

theorem moves_sidIsLive (userKey sid : Str) :
    (sidIsLive userKey sid).Moves allowed Eq False scope := by
  refine moves_self (moves_bind (moves_redis (mild _ trivial)) fun found _ _ => ?_)
  split
  · exact moves_pure _
  · exact moves_bind (moves_attempt (moves_redis (mild _ trivial))) fun _ _ _ => moves_pure _

theorem moves_filterM (userKey : Str) (sids : List Str) :
    (filterM (sidIsLive userKey) sids).Moves allowed Eq False scope := by
  induction sids with
  | nil => exact moves_pure _
  | cons sid sids ih =>
      refine moves_bind (moves_sidIsLive mild userKey sid) ?_
      rintro _ _ rfl
      exact moves_bind ih fun _ _ _ => moves_pure _

theorem moves_sids (uid : Nat) : (sids uid).Moves allowed Eq False scope :=
  moves_bind (moves_self (moves_redis (mild _ trivial))) fun _ _ _ =>
    moves_self (moves_filterM mild _ _)

theorem moves_sync [UidGetter U] [Serde U] (user : U)
    (write : ∀ sid json, allowed (.hset (genKey scope.session.info.sidName sid)
      scope.session.userMeta.userField json)) :
    (sync user).Moves allowed Eq False scope := by
  unfold sync
  cases Serde.toJson user with
  | none => exact moves_throw _
  | some json =>
      have written (sids : List Str) :
          (forSids (syncSid json) sids).Moves allowed Eq False scope := by
        induction sids with
        | nil => exact moves_pure _
        | cons sid sids ih =>
            refine moves_bind (moves_self (moves_bind (moves_redis (write sid json)) ?_)) ?_
            · exact fun _ _ _ => moves_pure _
            · rintro _ _ rfl
              exact ih
      refine moves_bind (moves_sids mild _) ?_
      rintro sids _ rfl
      exact moves_bind (written sids) fun _ _ _ => moves_pure _

section

variable [UidGetter U]

theorem moves_clonedUnmapping : clonedUnmapping.Moves allowed Eq False scope := by
  refine moves_self ?_
  split
  · exact moves_redis (mild _ trivial)
  · exact moves_pure _

/-- The command that removes the clone's hash is the last one, and the only one on a hash. -/
theorem moves_clonedDestroy (del : ∀ cloned, scope.session.cloned = some cloned →
      allowed (.del (genKey scope.session.info.sidName cloned.info.sid))) :
    clonedDestroy.Moves allowed Eq False scope := by
  refine moves_bind (moves_clonedUnmapping mild) ?_
  rintro _ _ rfl
  exact moves_clonedKey_bind fun cloned named =>
    moves_bind (moves_redis (del cloned named)) fun _ _ _ => moves_pure _

end

theorem moves_user [Serde U] : user.Moves allowed Scope.Cached False scope := by
  refine moves_self ?_
  split
  · exact moves_pure _
  · have ending {scope : Scope U} : (do
        modify fun session =>
          { session with userMeta := { session.userMeta with tryLoaded := true } }
        let session ← self
        return session.userMeta.user : SessionM U (Option U)).Moves allowed Scope.Cached False
          scope :=
      moves_bind (moves_modify ⟨⟨_, _, rfl⟩, id⟩) fun _ _ _ => moves_self (moves_pure _)
    refine moves_bind (moves_attempt (moves_silentGet mild _).of_same) fun json _ _ => ?_
    split
    · exact moves_bind (moves_modify ⟨⟨_, _, rfl⟩, fun _ => rfl⟩) fun _ _ _ => ending
    · exact ending

variable [UidGetter U] [Serde U]

theorem moves_userKey : userKey.Moves allowed Scope.Cached False scope := by
  refine moves_self (moves_bind (moves_bind (moves_user mild) fun user _ _ => ?_) fun _ _ _ =>
    moves_pure _)
  split
  · exact moves_pure _
  · exact moves_throw _

theorem moves_unmapping : unmapping.Moves allowed Scope.Cached False scope := by
  refine moves_self (moves_bind (moves_attempt (moves_userKey mild)) fun userKey _ _ => ?_)
  split
  · exact moves_redis (mild _ trivial)
  · exact moves_pure _

theorem moves_destroy (del : allowed (.del scope.session.key)) :
    destroy.Moves allowed Scope.Cached False scope := by
  refine moves_bind (moves_unmapping mild) ?_
  rintro _ _ ⟨⟨_, _, rfl⟩, _⟩
  exact moves_self (moves_redis del)

theorem moves_logout
    (remove : allowed (.hdel scope.session.key scope.session.userMeta.userField)) :
    logout.Moves allowed Scope.Recached False scope := by
  have recached {α : Type} {operation : SessionM U α} {scope : Scope U}
      (moves : operation.Moves allowed Scope.Cached False scope) :
      operation.Moves allowed Scope.Recached False scope :=
    moves.mono (fun _ sent => sent) (fun _ cached => cached.recached) id
  refine moves_bind (recached (moves_user mild)) ?_
  rintro loggedIn _ ⟨_, _, rfl⟩
  split
  · refine moves_bind (recached (moves_unmapping mild)) ?_
    rintro _ _ ⟨_, _, rfl⟩
    refine moves_bind (moves_modify ⟨none, _, rfl⟩) ?_
    rintro _ _ ⟨_, _, rfl⟩
    refine moves_self (Moves.of_same (moves_silentDel ?_))
    exact remove
  · exact moves_pure _

/-- How a session is given up for its successor. -/
theorem moves_giveUp (del : allowed (.del scope.session.key)) :
    (do
      let _ ← destroy
      let session ← self
      throw (.text ("session \"".toList ++ session.info.sid ++
        "\" was destroied, unable to continue use".toList)) : SessionM U Bool).Moves allowed
      Scope.Cached False scope :=
  moves_bind (moves_destroy mild del) fun _ _ _ => moves_self (moves_throw _)

omit mild in
theorem moves_mapping
    (spares : ∀ command : Cmd, command.SparesHashes → ¬command.ReadsAll → allowed command) :
    mapping.Moves allowed Scope.Cached False scope := by
  have mild (command : Cmd) (mild : command.Mild) := spares command mild.spares mild.not_readsAll
  exact moves_bind (moves_userKey mild) fun _ _ _ => moves_self (moves_bind
    (moves_redis (spares _ trivial not_false)) fun _ _ _ =>
      moves_redis (spares _ trivial not_false))

end

end Dce.Session
