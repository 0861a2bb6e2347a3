import Dce.Lib.Keeps
import Dce.Session.Moves

/-!
# Operations that rely on an invariant

What the rules of composition are for the operations of a session object that
keep an invariant of the store with each of their commands. Other operations may
send theirs in between, as long as they keep it too.
-/

namespace Dce.Session

variable {U α β : Type}

-- the arithmetic of the clock is not to be evaluated
attribute [local irreducible] AutoRenew.secondsFromRenew

namespace SessionM

section

variable (invariant : Redis → Prop) (panics : Prop) (kept : Scope U → Prop)

/-- From a scope in `pre`, the operation keeps the invariant of the store with each command and
ends in a scope in `kept`, and in `ends` if it returns a value, although the store may change
within the invariant between its commands. It does not panic unless that is allowed. -/
def Secures (pre : Scope U → Prop) (ends : α → Scope U → Prop)
    (operation : SessionM U α) : Prop :=
  ∀ scope, pre scope →
    (operation scope).Keeps Redis.faultyAnswer (fun state => invariant state.1)
    fun final => kept final.2 ∧ (final.1 = .panic → panics) ∧
      ∀ value, final.1 = .ok value → ends value final.2

end

variable {invariant : Redis → Prop} {panics : Prop} {kept : Scope U → Prop}
  {pre : Scope U → Prop}

theorem Secures.mono {pre' : Scope U → Prop} {ends ends' : α → Scope U → Prop}
    {operation : SessionM U α} (secures : operation.Secures invariant panics kept pre ends)
    (stronger : ∀ scope, pre' scope → pre scope)
    (weaker : ∀ value scope, ends value scope → ends' value scope) :
    operation.Secures invariant panics kept pre' ends' := by
  intro scope holds
  refine Prog.Keeps.mono (secures scope (stronger scope holds)) ?_
  rintro ⟨outcome, scope'⟩ ⟨keeps, ends, returns⟩
  exact ⟨keeps, ends, fun value same => weaker value scope' (returns value same)⟩

/-- Less can be asked of the scope that an operation ends in anyway. -/
theorem Secures.keeping {kept' : Scope U → Prop} {ends : α → Scope U → Prop}
    {operation : SessionM U α} (secures : operation.Secures invariant panics kept pre ends)
    (weaker : ∀ scope, kept scope → kept' scope) :
    operation.Secures invariant panics kept' pre ends := by
  intro scope holds
  refine Prog.Keeps.mono (secures scope holds) ?_
  rintro ⟨outcome, scope'⟩ ⟨keeps, ends, returns⟩
  exact ⟨weaker scope' keeps, ends, returns⟩

theorem secures_bind {mid : α → Scope U → Prop} {ends : β → Scope U → Prop}
    {first : SessionM U α} {next : α → SessionM U β}
    (secures : first.Secures invariant panics kept pre mid)
    (later : ∀ value, (next value).Secures invariant panics kept (mid value) ends) :
    (first >>= next).Secures invariant panics kept pre ends := by
  intro scope holds
  apply Prog.Keeps.bind
  refine Prog.Keeps.mono (secures scope holds) ?_
  rintro ⟨outcome, scope'⟩ ⟨keeps, ends, returns⟩
  cases outcome with
  | ok value => exact later value scope' (returns value rfl)
  | err error => exact ⟨keeps, by rintro ⟨⟩, by rintro _ ⟨⟩⟩
  | panic => exact ⟨keeps, fun _ => ends rfl, by rintro _ ⟨⟩⟩

theorem secures_attempt {ends : α → Scope U → Prop} {operation : SessionM U α}
    (secures : operation.Secures invariant panics kept pre ends) :
    operation.attempt.Secures invariant panics kept pre fun result scope =>
      kept scope ∧ ∀ value, result = .ok value → ends value scope := by
  intro scope holds
  apply Prog.Keeps.bind
  refine Prog.Keeps.mono (secures scope holds) ?_
  rintro ⟨outcome, scope'⟩ ⟨keeps, ends, returns⟩
  cases outcome with
  | ok value =>
      refine ⟨keeps, by rintro ⟨⟩, ?_⟩
      rintro _ ⟨⟩
      refine ⟨keeps, ?_⟩
      rintro _ ⟨⟩
      exact returns value rfl
  | err error =>
      refine ⟨keeps, by rintro ⟨⟩, ?_⟩
      rintro _ ⟨⟩
      exact ⟨keeps, by rintro _ ⟨⟩⟩
  | panic => exact ⟨keeps, fun _ => ends rfl, by rintro _ ⟨⟩⟩

theorem secures_self {ends : α → Scope U → Prop} {next : RedisSession U → SessionM U α}
    (later : ∀ scope, pre scope → (next scope.session).Secures invariant panics kept
      (fun scope' => pre scope' ∧ scope'.session = scope.session) ends) :
    (self >>= next).Secures invariant panics kept pre ends :=
  fun scope holds => later scope holds scope ⟨holds, rfl⟩

/-- What an operation sends and leaves is all it takes, where no reply matters. -/
theorem secures_of_moves {allowed : Cmd → Prop} {rel : Scope U → Scope U → Prop}
    {operation : SessionM U α}
    (moves : ∀ scope, pre scope → operation.Moves allowed rel False scope)
    (keeps : ∀ command store, allowed command → invariant store →
      invariant (store.after command))
    (leaves : ∀ scope scope', pre scope → rel scope scope' → kept scope') :
    operation.Secures invariant panics kept pre fun _ => kept := by
  intro scope holds
  refine Prog.Keeps.mono (Prog.Sends.keeps (moves scope holds) ?_) ?_
  · intro command state admitted stored
    simp only [Redis.faultyAnswer]
    split
    · exact stored
    · exact keeps command state.1 admitted stored
  · rintro ⟨outcome, scope'⟩ ⟨panicked, moved⟩
    have left := leaves scope scope' holds moved
    exact ⟨left, fun panic => absurd (panicked panic) not_false, fun _ _ => left⟩

section

variable (proper : ∀ scope, pre scope → kept scope)

include proper

theorem secures_pure (value : α) :
    (pure value : SessionM U α).Secures invariant panics kept pre fun value' scope =>
      pre scope ∧ value' = value := by
  intro scope holds
  refine ⟨proper scope holds, by rintro ⟨⟩, ?_⟩
  rintro _ ⟨⟩
  exact ⟨holds, rfl⟩

theorem secures_ofResult (result : Except SessionErr α) :
    (ofResult result : SessionM U α).Secures invariant panics kept pre
    fun _ scope => pre scope := by
  intro scope holds
  cases result with
  | ok value =>
      refine ⟨proper scope holds, by rintro ⟨⟩, ?_⟩
      rintro _ ⟨⟩
      exact holds
  | error error => exact ⟨proper scope holds, by rintro ⟨⟩, by rintro _ ⟨⟩⟩

theorem secures_throw {ends : α → Scope U → Prop} (error : SessionErr) :
    (throw error : SessionM U α).Secures invariant panics kept pre ends :=
  fun scope holds => ⟨proper scope holds, by rintro ⟨⟩, by rintro _ ⟨⟩⟩

/-- A command, with what its reply tells. -/
theorem secures_redis (command : Cmd) {ends : command.Value → Scope U → Prop}
    (keeps : ∀ scope store, pre scope → invariant store → invariant (store.after command))
    (tells : ∀ scope store, pre scope → invariant store → ends (store.value command) scope) :
    (redis command : SessionM U _).Secures invariant panics kept pre ends := by
  rintro scope holds ⟨store, faults⟩ stored
  simp only [Redis.faultyAnswer]
  split
  · exact ⟨stored, proper scope holds, by rintro ⟨⟩, by rintro _ ⟨⟩⟩
  · refine ⟨keeps scope store holds stored, proper scope holds, by rintro ⟨⟩, ?_⟩
    rintro _ ⟨⟩
    exact tells scope store holds stored

omit proper in
theorem secures_modify {ends : Unit → Scope U → Prop}
    {change : RedisSession U → RedisSession U}
    (changes : ∀ scope, pre scope → ends () { scope with session := change scope.session })
    (keeps : ∀ scope, ends () scope → kept scope) :
    (modify change).Secures invariant panics kept pre ends := by
  intro scope holds
  refine ⟨keeps _ (changes scope holds), by rintro ⟨⟩, ?_⟩
  rintro _ ⟨⟩
  exact changes scope holds

end

section

variable (invariant : Redis → Prop) (panics : Prop) (property : Scope U → Prop)

/-- The operation keeps a property of its scope, however it ends. -/
abbrev Abides (operation : SessionM U α) : Prop :=
  operation.Secures invariant panics property property fun _ => property

end

variable {property : Scope U → Prop}

theorem abides_pure (value : α) : (pure value : SessionM U α).Abides invariant panics property :=
  (secures_pure (fun _ holds => holds) value).mono (fun _ holds => holds) fun _ _ ends => ends.1

theorem abides_throw (error : SessionErr) :
    (throw error : SessionM U α).Abides invariant panics property :=
  secures_throw (fun _ holds => holds) error

theorem abides_ofResult (result : Except SessionErr α) :
    (ofResult result : SessionM U α).Abides invariant panics property :=
  secures_ofResult (fun _ holds => holds) result

theorem abides_bind {first : SessionM U α} {next : α → SessionM U β}
    (abides : first.Abides invariant panics property)
    (later : ∀ value, (next value).Abides invariant panics property) :
    (first >>= next).Abides invariant panics property :=
  secures_bind abides later

theorem abides_self {next : RedisSession U → SessionM U α}
    (later : ∀ scope, property scope →
      (next scope.session).Abides invariant panics property) :
    (self >>= next).Abides invariant panics property :=
  secures_self fun scope holds => (later scope holds).mono (fun _ both => both.1)
    fun _ _ ends => ends

theorem abides_attempt {operation : SessionM U α}
    (abides : operation.Abides invariant panics property) :
    operation.attempt.Abides invariant panics property :=
  (secures_attempt abides).mono (fun _ holds => holds) fun _ _ ends => ends.1

theorem abides_modify {change : RedisSession U → RedisSession U}
    (changes : ∀ scope, property scope →
      property { scope with session := change scope.session }) :
    (modify change).Abides invariant panics property :=
  secures_modify changes fun _ holds => holds

end SessionM

open SessionM RedisSession

section

variable {invariant : Redis → Prop} {panics : Prop} {kept pre mid : Scope U → Prop}
  {property : Scope U → Prop}

theorem abides_updateShadow (rootless : ∀ scope, property scope → scope.root = none)
    (newSid : Str) : (updateShadow newSid).Abides invariant panics property := by
  rintro ⟨session, root⟩ holds
  have none : root = none := rootless _ holds
  subst none
  exact abides_throw _ _ holds

theorem secures_cloneSuccessor {newSid : Str}
    (placing : ∀ scope cloned, pre scope →
      mid { scope with session := { scope.session with cloned } })
    (proper : ∀ scope, pre scope → kept scope) (within : ∀ scope, mid scope → kept scope)
    (reads : (Meta.parseSid newSid).Returns ∨ panics) :
    (AutoRenew.cloneSuccessor newSid).Secures invariant panics kept pre fun _ => mid := by
  intro scope holds
  have placed (cloned : Option (Core U)) := placing scope cloned holds
  rw [cloneSuccessor_eq, cloneWithId, Meta.adopt]
  cases parsed : Meta.parseSid newSid with
  | ok times =>
      refine ⟨within _ (placed _), by rintro ⟨⟩, ?_⟩
      rintro _ ⟨⟩
      exact placed _
  | err error =>
      refine ⟨within _ (placed _), by rintro ⟨⟩, ?_⟩
      rintro _ ⟨⟩
      exact placed _
  | panic =>
      refine ⟨proper scope holds, fun _ => ?_, by rintro _ ⟨⟩⟩
      exact reads.resolve_left fun returns => returns parsed

variable [UidGetter U] [Serde U] {conf : AutoRenew} {connection : Bool} {env : Env}
  {filters : Filters}

theorem secures_renew
    (renewing : (userRenew env filters).Secures invariant panics kept pre fun _ => kept)
    (redirecting : ∀ newSid, (updateShadow newSid).Abides invariant panics kept) :
    (renew connection env filters).Secures invariant panics kept pre fun _ => kept := by
  have renewed := (secures_attempt renewing).mono (fun _ holds => holds) fun _ _ ends => ends.1
  refine secures_bind renewed fun result => abides_self fun scope _ => ?_
  split
  · exact abides_bind (redirecting _) fun _ => abides_ofResult _
  · exact abides_ofResult _

theorem secures_doClone
    (cloning : ∀ scope, pre scope → mid { scope with session :=
      { scope.session with cloned := some scope.session.toCore } })
    (within : ∀ scope, mid scope → kept scope)
    (renewing : (renew connection env filters).Secures invariant panics kept mid fun _ => kept)
    (marking : (do
      let _ ← attempt clonedTouch
      let session ← self
      clonedSilentSet conf.newSidField session.info.sid).Abides invariant panics kept) :
    (conf.doClone connection env filters).Secures invariant panics kept pre fun _ => kept := by
  have clones : (modify fun session => { session with cloned := some session.toCore }).Secures
      invariant panics kept pre fun _ => mid := secures_modify cloning fun scope => within scope
  refine secures_bind clones fun _ => secures_bind (secures_attempt renewing) fun result => ?_
  cases result with
  | error error => exact (abides_throw error).mono (fun _ holds => holds.1) fun _ _ ends => ends
  | ok value => exact marking.mono (fun _ holds => holds.1) fun _ _ ends => ends

/-- A renewal keeps what each of its parts keeps. The marker that it reads is `named`. -/
theorem secures_tryRenew {named : Str → Scope U → Prop}
    (proper : ∀ scope, pre scope → kept scope)
    (keeping : (do
      let _ ← attempt tryTouch
      return false).Secures invariant panics kept pre fun _ => kept)
    (asking : (silentGet conf.newSidField).Secures invariant panics pre pre named)
    (cloning : ∀ filters, filters = ∅ ∨
        filters = Std.ExtTreeMap.insert ∅ conf.newSidField none →
      (conf.doClone connection env filters).Secures invariant panics kept pre fun _ => kept)
    (succeeding : ∀ newSid, (AutoRenew.cloneSuccessor newSid).Secures invariant panics kept
      (named newSid) fun _ => pre)
    (reading : ∀ newSid scope, named newSid scope → pre scope)
    (judging : conf.successorIsActive.Abides invariant panics pre)
    (givingUp : (do
      let _ ← destroy
      let session ← self
      throw (.text ("session \"".toList ++ session.info.sid ++
        "\" was destroied, unable to continue use".toList)) : SessionM U Bool).Secures invariant
      panics kept pre fun _ => kept)
    (dropping : clonedDestroy.Abides invariant panics pre) :
    (conf.tryRenew connection env).Secures invariant panics kept pre fun _ => kept := by
  refine secures_self fun scope _ => ?_
  dsimp only
  split
  · exact keeping.mono (fun _ holds => holds.1) fun _ _ ends => ends
  · refine secures_bind (((secures_attempt asking).keeping proper).mono (fun _ holds => holds.1)
      fun _ _ ends => ends) fun newSid => ?_
    cases newSid with
    | error error =>
        exact (cloning ∅ (.inl rfl)).mono (fun _ holds => holds.1) fun _ _ ends => ends
    | ok newSid =>
        have known (scope : Scope U) (holds : pre scope ∧ ∀ value,
            (Except.ok newSid : Except SessionErr Str) = .ok value → named value scope) :
            named newSid scope := holds.2 newSid rfl
        dsimp only
        split
        · refine (secures_bind (succeeding newSid) fun _ => ?_).mono known fun _ _ ends => ends
          refine secures_bind (judging.keeping proper) fun active => ?_
          split
          · exact givingUp
          · exact secures_bind (dropping.keeping proper) fun _ => cloning _ (.inr rfl)
        · exact keeping.mono (fun scope holds => reading newSid scope (known scope holds))
            fun _ _ ends => ends

end

def Cmd.WritesNoField : Cmd → Prop
  | hset .. | hmset .. => False
  | _ => True

/-- What is found after such a command was there before it. -/
theorem Redis.held_of_after {store : Redis} {key field text : Str} (command : Cmd)
    (silent : command.WritesNoField)
    (held : ((store.after command).fields key)[field]? = some text) :
    (store.fields key)[field]? = some text := by
  have gone {lost : Prop} [Decidable lost] {fields : Dict}
      (held : (if lost then ∅ else fields)[field]? = some text) : fields[field]? = some text := by
    split at held
    · simp at held
    · exact held
  cases command with
  | hset key' field' value => exact silent.elim
  | hmset key' data => exact silent.elim
  | hdel key' field' =>
      rw [Redis.after, fields_hdel] at held
      split at held
      · rename_i same
        rw [Std.ExtTreeMap.getElem?_erase, Option.ite_none_left_eq_some] at held
        rw [same]
        exact held.2
      · exact held
  | expire key' seconds =>
      cases key' with
      | session key' =>
          rw [Redis.after, fields_expire] at held
          exact gone held
      | user key' =>
          rwa [Redis.after, fields_expireSet] at held
  | del key' =>
      rw [Redis.after, fields_del] at held
      exact gone held
  | srem key' member => exact held
  | sadd key' member => exact held
  | hget key' field' => exact held
  | hgetall key' => exact held
  | ttl key' => exact held
  | isPresent key' => exact held
  | smembers key' => exact held

end Dce.Session
