import Dce.Session.Among

/-!
# The successor of a session

The sessions that renewals create are the ones the old session names, as long as
a call that has read all its fields is alone with them until it has named its
copy. This is the part of one call.
-/

namespace Dce.Session

open SessionM RedisSession

variable {U : Type}

/-- A hash that is there now and was not at the start, other than that of the old session. -/
def Redis.Created (start : Redis) (oldKey : Str) (store : Redis) (key : Str) : Prop :=
  key ≠ oldKey ∧ start.fields key = ∅ ∧ store.fields key ≠ ∅

namespace AutoRenew

/-- The old session names the session with this key. -/
def Names (conf : AutoRenew) (sidName sid : Str) (store : Redis) (key : Str) : Prop :=
  ∃ newSid, (store.fields (genKey sidName sid))[conf.newSidField]? = some newSid ∧
    key = genKey sidName newSid

/-- The old session names every session that was created, and none of these names another. -/
def OneSuccessor (conf : AutoRenew) (sidName sid : Str) (start store : Redis) : Prop :=
  ∀ key, start.Created (genKey sidName sid) store key →
    conf.Names sidName sid store key ∧ (store.fields key)[conf.newSidField]? = none

/-- At most the session with this key was created, and it names no other. -/
def CreatesOnly (conf : AutoRenew) (oldKey : Str) (start : Redis) (newKey : Str) (store : Redis) :
    Prop :=
  ∀ key, start.Created oldKey store key →
    key = newKey ∧ (store.fields key)[conf.newSidField]? = none

/-- What a call of `try_renew` begins with, for the session with this sid: the session lasts, and
the root of its connection can be redirected. -/
structure Presents (conf : AutoRenew) (connection : Bool) (sidName sid : Str) (scope : Scope U)
    (env : Env) : Prop where
  sidName : scope.session.info.sidName = sidName
  sid : scope.session.info.sid = sid
  lasts : scope.session.info.ttlMinutes ≠ 0
  serverField : scope.session.connMeta.serverField ≠ conf.newSidField
  redirects : redirects connection scope.session = true →
    Redirectable (newSid scope.session env) scope.root

end AutoRenew

/-- What a call sends that has read the old session: its copy goes to the new key, without the
name of a successor. -/
inductive Cmd.Fills (newSidField newKey : Str) : Cmd → Prop
  | wanes {command : Cmd} (wanes : command.Wanes) : Fills newSidField newKey command
  | load {data : Dict} (unmarked : data[newSidField]? = none) :
      Fills newSidField newKey (.hmset newKey data)
  | bind {field : Str} (value : Str) (other : field ≠ newSidField) :
      Fills newSidField newKey (.hset newKey field value)

section

variable {start store store' : Redis} {oldKey newKey key : Str} {conf : AutoRenew}

theorem Redis.Created.before (created : start.Created oldKey store' key)
    (wanes : store.Wanes store') :
    start.Created oldKey store key ∧ store'.fields key = store.fields key := by
  rcases created with ⟨other, absent, present⟩
  have same := (wanes key).resolve_left present
  rw [same] at present
  exact ⟨⟨other, absent, present⟩, same⟩

theorem AutoRenew.CreatesOnly.wanes (only : conf.CreatesOnly oldKey start newKey store)
    (wanes : store.Wanes store') : conf.CreatesOnly oldKey start newKey store' := by
  intro key created
  rcases created.before wanes with ⟨before, same⟩
  rw [same]
  exact only key before

theorem AutoRenew.CreatesOnly.write (only : conf.CreatesOnly oldKey start newKey store)
    {update : Dict → Dict} (unmarked : ∀ dict : Dict, dict[conf.newSidField]? = none →
      (update dict)[conf.newSidField]? = none) :
    conf.CreatesOnly oldKey start newKey (store.write newKey update) := by
  intro key created
  by_cases same : key = newKey
  · subst same
    refine ⟨rfl, ?_⟩
    rw [Redis.fields_write, if_pos rfl]
    apply unmarked
    by_cases empty : store.fields key = ∅
    · rw [empty]
      exact Std.ExtTreeMap.getElem?_empty
    · exact (only key ⟨created.1, created.2.1, empty⟩).2
  · have kept : (store.write newKey update).fields key = store.fields key := by
      rw [Redis.fields_write, if_neg same]
    rw [kept]
    refine only key ⟨created.1, created.2.1, ?_⟩
    rw [← kept]
    exact created.2.2

theorem createsOnly_after {command : Cmd} (fills : command.Fills conf.newSidField newKey)
    (only : conf.CreatesOnly oldKey start newKey store) :
    conf.CreatesOnly oldKey start newKey (store.after command) := by
  cases fills with
  | wanes wanes => exact only.wanes (wanes_after wanes store)
  | @load data unmarked =>
      change conf.CreatesOnly oldKey start newKey (store.write newKey (· ∪ data))
      refine only.write fun dict absent => ?_
      rw [Std.ExtTreeMap.getElem?_union, unmarked, absent]
      rfl
  | @bind field value other =>
      change conf.CreatesOnly oldKey start newKey (store.write newKey (·.insert field value))
      refine only.write fun dict absent => ?_
      rw [Std.ExtTreeMap.getElem?_insert, if_neg (by simpa using other), absent]

/-- A session that is named at once is a successor. -/
theorem oneSuccessor_hset {sidName sid newSid : Str}
    (only : conf.CreatesOnly (genKey sidName sid) start (genKey sidName newSid) store) :
    conf.OneSuccessor sidName sid start
      (store.hset (genKey sidName sid) conf.newSidField newSid) := by
  intro key created
  have kept : (store.hset (genKey sidName sid) conf.newSidField newSid).fields key =
      store.fields key := by
    rw [Redis.fields_hset, if_neg created.1]
  have before : start.Created (genKey sidName sid) store key := by
    refine ⟨created.1, created.2.1, ?_⟩
    rw [← kept]
    exact created.2.2
  rcases only key before with ⟨named, unmarked⟩
  rw [kept]
  refine ⟨⟨newSid, ?_, named⟩, unmarked⟩
  simp

end

section

variable {conf : AutoRenew} {start store : Redis} {oldKey newKey : Str} {scope : Scope U}
  {env : Env} {filters : Filters}

/-- An operation that only fills the copy. -/
theorem stands_filling {α : Type} {operation : SessionM U α} {property : Scope U → Prop}
    (stays : operation.Stays (Cmd.Fills conf.newSidField newKey) property)
    (holds : property scope) (only : conf.CreatesOnly oldKey start newKey store) :
    operation.Stands Redis.Wanes (fun _ scope' store' =>
      property scope' ∧ conf.CreatesOnly oldKey start newKey store') scope store :=
  stays.stands (fun _ _ fills only => createsOnly_after fills only)
    (fun _ _ only wanes => only.wanes wanes) holds only

theorem stands_load {data : Dict} (nonempty : ¬data.isEmpty = true)
    (unmarked : data[conf.newSidField]? = none)
    (only : conf.CreatesOnly oldKey start scope.session.key store) :
    (load data).Stands Redis.Wanes (fun outcome scope' store' => outcome = .ok true ∧
      scope' = scope ∧ conf.CreatesOnly oldKey start scope.session.key store') scope store := by
  refine stands_self ?_
  rw [if_neg nonempty]
  refine stands_redis (.hmset _ _) fun store' wanes => ⟨rfl, rfl, ?_⟩
  exact createsOnly_after (.load unmarked) (only.wanes wanes)

theorem stands_tryTouch (untouched : scope.session.info.touches = none)
    (lasts : scope.session.info.ttlMinutes ≠ 0)
    (only : conf.CreatesOnly oldKey start newKey store) :
    tryTouch.Stands Redis.Wanes (fun outcome scope' store' => (∃ value, outcome = .ok value) ∧
      scope.Kept scope' ∧ conf.CreatesOnly oldKey start newKey store') scope store := by
  refine stands_self ?_
  rw [if_pos untouched]
  refine stands_bind (stands_self (stands_redis (.expire _ _) fun store' wanes => ?_))
  refine stands_modify (stands_self ⟨⟨_, rfl⟩, ⟨rfl, rfl, rfl, rfl, rfl, rfl⟩, ?_⟩)
  have touch : (Cmd.expire (.session scope.session.key) scope.session.info.ttlSeconds).Wanes :=
    fun zero => lasts ((Meta.ttlSeconds_eq_zero _).mp zero)
  exact createsOnly_after (.wanes touch) (only.wanes wanes)

theorem stands_sessionRenew (lasts : scope.session.info.ttlMinutes ≠ 0)
    (clear : ∀ key, ¬start.Created oldKey store key)
    (unmarked : ∀ store', store.Wanes store' →
      (scope.session.copyOf filters store')[conf.newSidField]? = none) :
    (sessionRenew env filters).Stands Redis.Wanes (fun outcome scope' store' =>
      (∃ value, outcome = .ok value) ∧ (scope.renewed env).Kept scope' ∧
        conf.CreatesOnly oldKey start (scope.renewed env).session.key store') scope store := by
  refine stands_bind (stands_self (stands_redis (.hgetall _) fun store' wanes => ?_))
  have only : conf.CreatesOnly oldKey start (scope.renewed env).session.key store' :=
    fun key created => absurd (created.before wanes).1 (clear key)
  refine stands_modify ?_
  split
  · exact ⟨⟨true, rfl⟩, .refl _, only⟩
  · rename_i nonempty
    refine stands_bind ((stands_load nonempty (unmarked store' wanes) only).mono ?_)
    rintro _ scope'' store'' ⟨rfl, rfl, only'⟩
    exact stands_tryTouch rfl lasts only'

theorem stands_updateShadow {sid : Str} (redirectable : Redirectable sid scope.root)
    (serverField : scope.session.connMeta.serverField ≠ conf.newSidField)
    (only : conf.CreatesOnly oldKey start scope.session.key store) :
    (updateShadow sid).Stands Redis.Wanes (fun outcome scope' store' => outcome = .ok () ∧
      scope'.session = scope.session ∧
        conf.CreatesOnly oldKey start scope.session.key store') scope store := by
  rcases scope with ⟨session, root⟩
  rcases redirectable with ⟨root, rfl, adopted⟩
  rcases root with ⟨⟨info, userMeta, rootField, shadow, unbound⟩, cloned⟩
  rcases unbound with _ | _ | server
  · exact ⟨adopted, rfl, only⟩
  · exact ⟨adopted, rfl, only⟩
  · -- the root names its server in the copy first
    intro store' wanes
    exact ⟨adopted, rfl, createsOnly_after (.bind server serverField) (only.wanes wanes)⟩

variable [UidGetter U] [Serde U]

theorem stands_userRenew (lasts : scope.session.info.ttlMinutes ≠ 0)
    (clear : ∀ key, ¬start.Created oldKey store key)
    (unmarked : ∀ store', store.Wanes store' →
      (scope.session.copyOf filters store')[conf.newSidField]? = none) :
    (userRenew env filters).Stands Redis.Wanes (fun outcome scope' store' =>
      (∃ value, outcome = .ok value) ∧ (scope.renewed env).Kept scope' ∧
        conf.CreatesOnly oldKey start (scope.renewed env).session.key store') scope store := by
  refine stands_bind ((stands_sessionRenew lasts clear unmarked).mono ?_)
  rintro _ scope' store' ⟨⟨value, rfl⟩, kept, only⟩
  have unloaded := (Scope.Kept.indifferent (scope.renewed env)).tryLoaded scope' false kept
  have maps : (mapping : SessionM U Bool).Stays
      (Cmd.Fills conf.newSidField (scope.renewed env).session.key) ((scope.renewed env).Kept ·) :=
    stays_of_cached (Scope.Kept.indifferent _) fun _ _ =>
      moves_mapping fun _ spares _ => .wanes spares.wanes
  have calm : (mapping : SessionM U Bool).Calm :=
    calm_of_moves fun _ => moves_mapping fun _ _ _ => trivial
  refine stands_modify (stands_bind (stands_attempt (((stands_filling maps unloaded only).returns
    calm).mono ?_)))
  rintro outcome scope'' store'' ⟨returns, kept', only'⟩
  cases outcome with
  | ok _ => exact ⟨⟨value, rfl⟩, kept', only'⟩
  | err _ => exact ⟨⟨value, rfl⟩, kept', only'⟩
  | panic => exact absurd rfl returns

variable {connection : Bool}

theorem stands_renew {sidName sid : Str} (presents : conf.Presents connection sidName sid scope env)
    (clear : ∀ key, ¬start.Created oldKey store key)
    (unmarked : ∀ store', store.Wanes store' →
      (scope.session.copyOf filters store')[conf.newSidField]? = none) :
    (renew connection env filters).Stands Redis.Wanes (fun outcome scope' store' =>
      (∃ value, outcome = .ok value) ∧
        (scope.renewed env).Kept { scope' with root := scope.root } ∧
        conf.CreatesOnly oldKey start (scope.renewed env).session.key store') scope store := by
  refine stands_bind (stands_attempt ((stands_userRenew presents.lasts clear unmarked).mono ?_))
  rintro _ scope' store' ⟨⟨value, rfl⟩, kept, only⟩
  refine stands_self ?_
  split
  · rename_i hook
    have redirecting : redirects connection scope.session = true := by
      simp only [Bool.and_eq_true, kept.connMeta] at hook
      simp only [redirects, Bool.and_eq_true]
      exact ⟨hook.1.1, hook.2⟩
    have redirectable : Redirectable scope'.session.info.sid scope'.root := by
      rw [kept.sid, kept.root]
      exact presents.redirects redirecting
    have serverField : scope'.session.connMeta.serverField ≠ conf.newSidField := by
      rw [kept.connMeta]
      exact presents.serverField
    rw [← kept.key] at only
    refine stands_bind ((stands_updateShadow redirectable serverField only).mono ?_)
    rintro _ scope'' store'' ⟨rfl, same, only'⟩
    refine ⟨⟨value, rfl⟩, ?_, kept.key ▸ only'⟩
    rw [same]
    exact ⟨kept.sidName, kept.sid, kept.ttl, kept.connMeta, kept.cloned, rfl⟩
  · exact ⟨⟨value, rfl⟩,
      ⟨kept.sidName, kept.sid, kept.ttl, kept.connMeta, kept.cloned, rfl⟩, only⟩

/-- A call that copies the session while nothing it created is there names its copy. -/
theorem stands_doClone {sidName sid : Str}
    (presents : conf.Presents connection sidName sid scope env)
    (clear : ∀ key, ¬start.Created (genKey sidName sid) store key)
    (unmarked : ∀ store', store.Wanes store' →
      (scope.session.copyOf filters store')[conf.newSidField]? = none) :
    (conf.doClone connection env filters).Stands Redis.Wanes
      (fun _ _ store' => conf.OneSuccessor sidName sid start store') scope store := by
  let cloning : Scope U := { scope with session := AutoRenew.cloning scope.session }
  have ready : conf.Presents connection sidName sid cloning env :=
    ⟨presents.sidName, presents.sid, presents.lasts, presents.serverField, presents.redirects⟩
  have renews : (renew connection env filters).Stands Redis.Wanes _ cloning store :=
    stands_renew ready clear unmarked
  refine stands_modify (stands_bind (stands_attempt (renews.mono ?_)))
  rintro _ scope' store' ⟨⟨value, rfl⟩, kept, only⟩
  have named : scope'.session.cloned = some scope.session.toCore := kept.cloned
  have oldKey : genKey scope'.session.info.sidName scope.session.info.sid = genKey sidName sid := by
    rw [show scope'.session.info.sidName = _ from kept.sidName, presents.sid]
    exact congrArg (genKey · sid) presents.sidName
  have newKey : (cloning.renewed env).session.key =
      genKey sidName scope'.session.info.sid := by
    rw [show scope'.session.info.sid = _ from kept.sid]
    exact congrArg (genKey · _) presents.sidName
  rw [newKey] at only
  have touch :
      (Cmd.expire (.session (genKey sidName sid)) scope'.session.info.ttlSeconds).Wanes := by
    intro zero
    rw [Meta.ttlSeconds_eq_zero, show scope'.session.info.ttlMinutes = _ from kept.ttl] at zero
    exact presents.lasts zero
  refine stands_bind (stands_attempt (stands_self (stands_of_ret (clonedKey_eq scope' named)
    (stands_redis (.expire _ _) fun store₁ wanes => ?_))))
  refine stands_self (stands_of_ret (clonedKey_eq scope' named)
    (stands_bind (stands_redis (.hset _ _ _) fun store₂ wanes' => ?_)))
  rw [oldKey] at wanes' ⊢
  exact oneSuccessor_hset
    ((createsOnly_after (.wanes touch) (only.wanes wanes)).wanes wanes')

end

namespace AutoRenew.Presents

variable {conf : AutoRenew} {connection : Bool} {sidName sid : Str} {scope scope' : Scope U}
  {env : Env}

/-- The clone does not matter. -/
theorem cloning (presents : conf.Presents connection sidName sid scope env)
    (cloned : Option (Core U)) : conf.Presents connection sidName sid
      { scope with session := { scope.session with cloned } } env :=
  ⟨presents.sidName, presents.sid, presents.lasts, presents.serverField, presents.redirects⟩

theorem kept (presents : conf.Presents connection sidName sid scope env)
    (kept : scope.Kept scope') : conf.Presents connection sidName sid scope' env where
  sidName := kept.sidName.trans presents.sidName
  sid := kept.sid.trans presents.sid
  lasts := by
    rw [kept.ttl]
    exact presents.lasts
  serverField := by
    rw [kept.connMeta]
    exact presents.serverField
  redirects redirecting := by
    have same : newSid scope'.session env = newSid scope.session env := by
      simp only [newSid, Meta.regenerate, kept.ttl]
    rw [RedisSession.redirects, kept.connMeta] at redirecting
    rw [same, kept.root]
    exact presents.redirects redirecting

theorem key (presents : conf.Presents connection sidName sid scope env) :
    scope.session.key = genKey sidName sid := by
  rw [Core.key, presents.sidName, presents.sid]

end AutoRenew.Presents

/-- The clone gets the sid that the old session names. -/
theorem cloneSuccessor_named (scope : Scope U) (newSid : Str) :
    (∃ cloned, (∀ core, cloned = some core → core.info.sid = newSid) ∧
      AutoRenew.cloneSuccessor newSid scope =
        .ret (.ok (), { scope with session := { scope.session with cloned } })) ∨
    AutoRenew.cloneSuccessor newSid scope = .ret (.panic, scope) := by
  rw [cloneSuccessor_eq, cloneWithId, Meta.adopt]
  cases Meta.parseSid newSid with
  | ok spelled =>
      refine Or.inl ⟨_, ?_, rfl⟩
      rintro core ⟨⟩
      rfl
  | err error =>
      refine Or.inl ⟨none, ?_, rfl⟩
      rintro core ⟨⟩
  | panic => exact Or.inr rfl

section

variable [UidGetter U] [Serde U] {conf : AutoRenew} {connection : Bool} {sidName sid : Str}
  {start store : Redis} {scope : Scope U} {env : Env}

omit [UidGetter U] [Serde U] in
/-- Where only one session can have been created, waiting creates no other. -/
theorem stands_waiting {α : Type} {rely : Redis → Redis → Prop} {operation : SessionM U α}
    {property : Scope U → Prop} {oldKey newKey : Str}
    (wanes : ∀ store store', rely store store' → store.Wanes store')
    (stays : operation.Stays Cmd.Waits property) (holds : property scope)
    (only : ∀ key, start.Created oldKey store key → key = newKey) :
    operation.Stands rely (fun _ scope' store' => property scope' ∧
      ∀ key, start.Created oldKey store' key → key = newKey) scope store := by
  refine stays.stands ?kept ?stable holds only
  case kept =>
    intro command store waits here key created
    exact here key (created.before (wanes_after waits.1 store)).1
  case stable =>
    intro store store' here moved key created
    exact here key (created.before (wanes store store' moved)).1

omit [Serde U] in
/-- Where only the clone can have been created, nothing is left of it. -/
theorem stands_clonedDestroy {rely : Redis → Redis → Prop} {newSid : Str} {within : Scope U}
    (wanes : ∀ store store', rely store store' → store.Wanes store')
    (named : ∀ core, within.session.cloned = some core → core.info.sid = newSid)
    (kept : within.Kept scope) (sameName : within.session.info.sidName = sidName)
    (only : ∀ key, start.Created (genKey sidName sid) store key → key = genKey sidName newSid) :
    (clonedDestroy : SessionM U Bool).Stands rely (fun outcome scope' store' =>
      ∀ value, outcome = .ok value → within.Kept scope' ∧
        ∀ key, ¬start.Created (genKey sidName sid) store' key) scope store := by
  have unmaps : (clonedUnmapping : SessionM U Bool).Stays Cmd.Waits (within.Kept ·) :=
    stays_of_same fun _ _ => moves_clonedUnmapping fun _ mild => mild.waits
  refine stands_bind ((stands_waiting wanes unmaps kept only).mono ?_)
  rintro outcome scope' store' ⟨kept', only'⟩
  cases outcome with
  | err error => rintro _ ⟨⟩
  | panic => rintro _ ⟨⟩
  | ok unmapped =>
      rcases scope' with ⟨⟨core, _ | cloned⟩, root⟩
      · rintro _ ⟨⟩
      · refine stands_of_ret (clonedKey_eq _ rfl) (stands_bind
          (stands_redis (.del _) fun store'' moved => ?_))
        rintro value -
        refine ⟨kept', fun key created => ?_⟩
        have delKey : genKey core.info.sidName cloned.info.sid = genKey sidName newSid := by
          rw [named cloned kept'.cloned.symm, ← sameName]
          exact congrArg (genKey · newSid) kept'.sidName
        have here :
            start.Created (genKey sidName sid) (store''.del (genKey sidName newSid)) key := by
          rw [← delKey]
          exact created
        have wanes' : store''.Wanes (store''.after (.del (genKey sidName newSid))) :=
          wanes_after (show (Cmd.del _).Wanes from trivial) store''
        have before := (here.before wanes').1
        rcases here with ⟨_, _, present⟩
        rw [only' key (before.before (wanes _ _ moved)).1] at present
        apply present
        simp

theorem until_doClone (conf : AutoRenew) (connection : Bool) (scope : Scope U) (env : Env)
    (filters : Filters) :
    (conf.doClone connection env filters).Until Cmd.ReadsAll Cmd.Waits scope := .stop trivial

theorem until_replaceOrDestroy (conf : AutoRenew) (connection : Bool) (scope : Scope U) (env : Env)
    (newSid : Str) :
    (conf.replaceOrDestroy connection env newSid).Until Cmd.ReadsAll Cmd.Waits scope := by
  have indifferent : Indifferent fun _ : Scope U => True :=
    ⟨fun _ _ _ => trivial, fun _ _ _ => trivial, fun _ _ _ => trivial⟩
  have judges : conf.successorIsActive.Stays Cmd.Waits (fun _ : Scope U => True) :=
    stays_of_same fun _ _ => moves_successorIsActive (fun _ mild => mild.waits) conf
  have destroys : clonedDestroy.Stays Cmd.Waits (fun _ : Scope U => True) :=
    stays_of_same fun _ _ =>
      moves_clonedDestroy (fun _ mild => mild.waits) fun _ _ => ⟨trivial, not_false⟩
  unfold AutoRenew.replaceOrDestroy
  rcases cloneSuccessor_cases scope newSid with ⟨cloned, known⟩ | known
  · refine until_of_ret known (until_bind judges trivial fun active scope' holds => ?_)
    cases active with
    | true =>
        refine until_of_stays (stays_of_cached indifferent fun _ _ => ?_) holds
        exact moves_giveUp (fun _ mild => mild.waits) ⟨trivial, not_false⟩
    | false =>
        exact until_bind destroys holds fun _ scope'' _ =>
          until_doClone conf connection scope'' env _
  · exact until_of_panic known

/-- A call replaces the session it found named, which may be the only one that was created. -/
theorem nears_replaceOrDestroy {newSid : Str}
    (presents : conf.Presents connection sidName sid scope env)
    (named : ∀ key, start.Created (genKey sidName sid) store key →
      key = genKey sidName newSid) :
    (conf.replaceOrDestroy connection env newSid).Nears Redis.Wanes Cmd.ReadsAll
      (conf.OneSuccessor sidName sid start)
      (fun _ _ store' => conf.OneSuccessor sidName sid start store') scope store := by
  unfold AutoRenew.replaceOrDestroy
  rcases cloneSuccessor_named scope newSid with ⟨cloned, sameSid, known⟩ | known
  · let within : Scope U := { scope with session := { scope.session with cloned } }
    have judges : conf.successorIsActive.Stays Cmd.Waits (within.Kept ·) :=
      stays_of_same fun _ _ => moves_successorIsActive (fun _ mild => mild.waits) conf
    have destroys : clonedDestroy.Stays Cmd.Waits (within.Kept ·) :=
      stays_of_same fun _ _ =>
        moves_clonedDestroy (fun _ mild => mild.waits) fun _ _ => ⟨trivial, not_false⟩
    refine nears_of_ret known (nears_bind (judges.mono fun _ waits => waits.2)
      (Scope.Kept.refl within) ((stands_waiting (fun _ _ moved => moved.1) judges
        (Scope.Kept.refl within) named).mono ?_))
    rintro _ scope' store' ⟨alike, here⟩ active rfl
    cases active with
    | true =>
        refine nears_of_stays (stays_of_cached (Scope.Kept.indifferent within) fun _ _ => ?_) alike
        exact moves_giveUp (fun _ mild => mild.not_readsAll) not_false
    | false =>
        refine nears_bind (destroys.mono fun _ waits => waits.2) alike
          ((stands_clonedDestroy (fun _ _ moved => moved.1) sameSid alike presents.sidName
            here).mono ?_)
        rintro _ scope'' store'' gone value rfl
        rcases gone value rfl with ⟨alike', clear⟩
        refine nears_of_stands (stands_doClone ((presents.cloning cloned).kept alike') clear ?_)
        intro store₃ _
        simp [copyOf, applyFilters_getElem?]
  · exact nears_of_panic known

omit [UidGetter U] [Serde U] in
theorem waits_keepUsing (lasts : scope.session.info.ttlMinutes ≠ 0) :
    (attempt tryTouch >>= fun _ => pure false : SessionM U Bool).Stays Cmd.Waits
      (scope.Kept ·) := by
  refine stays_of_touched (Scope.Kept.indifferent scope) fun scope' kept =>
    moves_keepUsing ⟨?_, not_false⟩
  intro zero
  rw [Meta.ttlSeconds_eq_zero, kept.ttl] at zero
  exact lasts zero

/-- Before a call reads all the fields of the session, it only lets hashes go. -/
theorem until_tryRenew (conf : AutoRenew) (connection : Bool) (env : Env)
    (lasts : scope.session.info.ttlMinutes ≠ 0) :
    (conf.tryRenew connection env).Until Cmd.ReadsAll Cmd.Waits scope := by
  have keeps := waits_keepUsing lasts
  unfold AutoRenew.tryRenew
  refine until_self ?_
  dsimp only
  split
  · exact until_of_stays keeps (.refl scope)
  · refine until_silentGet ⟨trivial, not_false⟩ fun result => ?_
    cases result with
    | error error => exact until_doClone conf connection scope env ∅
    | ok newSid =>
        dsimp only
        split
        · exact until_replaceOrDestroy conf connection scope env newSid
        · exact until_of_stays keeps (.refl scope)

/-- A call that begins while the old session names all that was created leaves it so, if others only
let hashes go. -/
theorem nears_tryRenew (presents : conf.Presents connection sidName sid scope env) :
    (conf.tryRenew connection env).Nears Redis.Wanes Cmd.ReadsAll
      (conf.OneSuccessor sidName sid start)
      (fun _ _ store' => conf.OneSuccessor sidName sid start store') scope store := by
  have keeps := (waits_keepUsing presents.lasts).mono fun _ waits => waits.2
  unfold AutoRenew.tryRenew
  refine nears_self ?_
  dsimp only
  split
  · exact nears_of_stays keeps (.refl scope)
  · refine nears_silentGet not_false (fun store' calm absent => ?_)
      fun store' newSid calm present => ?_
    · refine nears_of_stands (stands_doClone presents ?clear ?unmarked)
      case clear =>
        intro key created
        rcases (calm key created).1 with ⟨newSid, named, _⟩
        rw [← presents.key, absent] at named
        cases named
      case unmarked =>
        intro store'' wanes
        have copy : (scope.session.copyOf ∅ store'')[conf.newSidField]? =
            (store''.fields scope.session.key)[conf.newSidField]? := by
          simp [copyOf, applyFilters_getElem?]
        rw [copy]
        rcases wanes scope.session.key with gone | same
        · rw [gone]
          exact Std.ExtTreeMap.getElem?_empty
        · rw [same]
          exact absent
    · dsimp only
      split
      · refine nears_replaceOrDestroy presents fun key created => ?_
        rcases (calm key created).1 with ⟨_, named, same⟩
        rw [← presents.key, present] at named
        cases named
        exact same
      · exact nears_of_stays keeps (.refl scope)

end

end Dce.Session
