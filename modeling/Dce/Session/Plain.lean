import Dce.Session.Steps

/-!
# Sessions outside a connection

A session that no connection knows should behave as if the crate were built
without that feature. Every regeneration, however, looks for the root of a
connection, and fails there after the new session is stored.
-/

namespace Dce.Session

open SessionM RedisSession

variable {U : Type}

/-- The session is neither the root of a connection nor made for one of its requests. -/
structure Scope.Plain (scope : Scope U) : Prop where
  serverUnbound : scope.session.connMeta.serverUnbound = none
  root : scope.root = none

/-- The session gets a new id. -/
def AutoRenew.Renews (conf : AutoRenew) (session : RedisSession U) (env : Env) (store : Redis) :
    Prop :=
  0 ≤ conf.due session env ∧
    ∀ newSid, (store.fields session.key)[conf.newSidField]? = some newSid →
      conf.originalJudgmentSeconds.toNat < conf.due session env ∧
        (∃ times, Meta.parseSid newSid = .ok times) ∧ conf.judged session newSid store = false

/-- The operation gives the session a new id. -/
def Operation.Renews (session : RedisSession U) (store : Redis) : Operation U → Prop
  | login .. | autoLogin .. | renew .. => True
  | tryRenew env conf => conf.Renews session env store
  | _ => False

theorem plain_new (env : Env) (ttlMinutes : UInt16) :
    Scope.Plain (⟨RedisSession.new env ttlMinutes, none⟩ : Scope U) := ⟨rfl, rfl⟩

variable [UidGetter U] [Serde U]

/-- Built with the feature or without it, the operation gives the same result, store and id. -/
def Operation.Agrees (operation : Operation U) (scope : Scope U) (store : Redis) : Prop :=
  let connected := (operation.program true).exec scope store
  let unconnected := (operation.program false).exec scope store
  connected.1 = unconnected.1 ∧ connected.2.2 = unconnected.2.2 ∧
    connected.2.1.session.info.sid = unconnected.2.1.session.info.sid

theorem Operation.agrees_of_eq {operation : Operation U} {scope : Scope U} {store : Redis}
    (same : (operation.program true).exec scope store =
      (operation.program false).exec scope store) : operation.Agrees scope store := by
  rw [Agrees, same]
  exact ⟨rfl, rfl, rfl⟩

/-- Unless the session gets a new id, the feature is never asked for. -/
theorem AutoRenew.tryRenew_of_not_renews {conf : AutoRenew} {scope : Scope U} {env : Env}
    {store : Redis} (keeps : ¬conf.Renews scope.session env store) (connection : Bool) :
    (conf.tryRenew connection env).exec scope store =
      (conf.tryRenew false env).exec scope store := by
  rcases Int.lt_or_le (conf.due scope.session env) 0 with early | due
  · rw [exec_tryRenew_early connection early, exec_tryRenew_early false early]
  · cases marker : (store.fields scope.session.key)[conf.newSidField]? with
    | none =>
        refine absurd ⟨due, fun newSid named => ?_⟩ keeps
        rw [marker] at named
        cases named
    | some newSid =>
        rcases Int.lt_or_le conf.originalJudgmentSeconds.toNat (conf.due scope.session env) with
          late | recent
        · rw [exec_tryRenew_late connection due marker late,
            exec_tryRenew_late false due marker late, exec_replaceOrDestroy,
            exec_replaceOrDestroy]
          rcases cloneWithId_cases scope.session newSid with
            ⟨cloned, made, read⟩ | ⟨error, made, _⟩ | ⟨made, _⟩
          · cases judged : conf.judged scope.session newSid store with
            | true => simp only [made, if_true]
            | false =>
                refine absurd ⟨due, fun newSid' named => ?_⟩ keeps
                cases marker.symm.trans named
                exact ⟨late, read, judged⟩
          · simp [made]
          · simp [made]
        · rw [exec_tryRenew_recent connection due marker recent,
            exec_tryRenew_recent false due marker recent]

/-- A renewal runs the clone of the session, with or without a successor to replace. -/
theorem AutoRenew.tryRenew_of_renews {conf : AutoRenew} {scope : Scope U} {env : Env}
    {store : Redis} (renews : conf.Renews scope.session env store) :
    ∃ (cloned : Option (Core U)) (filters : Filters) (before : Redis),
      Regenerates scope store (.tryRenew env conf) (cloning scope.session) env filters before ∧
      ∀ connection, (conf.tryRenew connection env).exec scope store =
        (conf.doClone connection env filters).exec
          { scope with session := { scope.session with cloned } } before := by
  rcases renews with ⟨due, replaces⟩
  cases marker : (store.fields scope.session.key)[conf.newSidField]? with
  | none => exact ⟨scope.session.cloned, ∅, store, .clone due marker, fun connection =>
      exec_tryRenew_unmarked connection due marker⟩
  | some newSid =>
      rcases replaces newSid marker with ⟨late, ⟨times, read⟩, judged⟩
      rcases cloneWithId_cases scope.session newSid with
        ⟨cloned, made, _⟩ | ⟨error, _, unread⟩ | ⟨_, unread⟩
      · refine ⟨cloned.toCore, (∅ : Filters).insert conf.newSidField none,
          store.del (genKey scope.session.info.sidName newSid), .replace due marker late,
          fun connection => ?_⟩
        rw [exec_tryRenew_late connection due marker late, exec_replaceOrDestroy]
        simp only [made, judged, Bool.false_eq_true, if_false]
      · cases read.symm.trans unread
      · cases read.symm.trans unread

namespace Scope.Plain

variable {scope : Scope U} {store : Redis}

omit [UidGetter U] [Serde U] in
theorem redirects (plain : scope.Plain) (connection : Bool) :
    RedisSession.redirects connection scope.session = connection := by
  simp [RedisSession.redirects, plain.serverUnbound]

omit [UidGetter U] [Serde U] in
/-- There is no root that could take over a sid. -/
theorem not_redirectable (plain : scope.Plain) (sid : Str) : ¬Redirectable sid scope.root := by
  rintro ⟨root, found, _⟩
  rw [plain.root] at found
  cases found

theorem not_agrees_logIn (plain : scope.Plain) (store : Redis) (env : Env) (user : Option U)
    (ttlMinutes : Option UInt16) :
    ((logIn false env user ttlMinutes).exec scope store).1 = .ok true ∧
      ∀ value, ((logIn true env user ttlMinutes).exec scope store).1 ≠ .ok value := by
  rcases exec_logIn scope store false env user ttlMinutes with
    ⟨_, _, _, unconnected, _, _, alone, _⟩
  rcases exec_logIn scope store true env user ttlMinutes with
    ⟨_, _, _, connected, _, _, _, adopted⟩
  rw [unconnected, connected]
  refine ⟨(alone (plain.redirects false)).1, fun value done => ?_⟩
  exact plain.not_redirectable _ (adopted (plain.redirects true) value done)

theorem not_agrees_doClone (plain : scope.Plain) (conf : AutoRenew) (env : Env)
    (filters : Filters) :
    ((conf.doClone false env filters).exec scope store).1 = .ok true ∧
      ((conf.doClone true env filters).exec scope store).1 ≠ .ok true := by
  rcases AutoRenew.exec_doClone conf false scope store env filters with
    ⟨_, _, _, unconnected, _, _, alone⟩
  rcases AutoRenew.exec_doClone conf true scope store env filters with
    ⟨_, _, _, connected, _, marks, _⟩
  rw [unconnected, connected]
  refine ⟨(alone (plain.redirects false)).1, fun done => ?_⟩
  rcases marks with ⟨failed, _⟩ | ⟨_, _, adopted⟩
  · exact failed done
  · exact plain.not_redirectable _ (adopted (plain.redirects true))

/-- A regeneration succeeds without the feature and fails with it. -/
theorem not_agrees (plain : scope.Plain) {operation : Operation U}
    (renews : operation.Renews scope.session store) :
    ((operation.program false).exec scope store).1 = .ok true ∧
      ((operation.program true).exec scope store).1 ≠ .ok true := by
  cases operation with
  | login env user ttlMinutes =>
      have logIn := plain.not_agrees_logIn store env (some user) (some ttlMinutes)
      exact ⟨logIn.1, logIn.2 true⟩
  | autoLogin env =>
      have logIn := plain.not_agrees_logIn store env none none
      exact ⟨logIn.1, logIn.2 true⟩
  | renew env filters =>
      rcases exec_renew scope store false env filters with ⟨_, _, unconnected, _, alone, _⟩
      rcases exec_renew scope store true env filters with ⟨_, _, connected, _, _, adopted⟩
      change ((renew false env filters).exec scope store).1 = _ ∧
        ((renew true env filters).exec scope store).1 ≠ _
      rw [unconnected, connected]
      refine ⟨(alone (plain.redirects false)).1, fun done => ?_⟩
      exact plain.not_redirectable _ (adopted (plain.redirects true) true done)
  | tryRenew env conf =>
      rcases AutoRenew.tryRenew_of_renews renews with ⟨cloned, filters, before, _, renewed⟩
      have within : Scope.Plain { scope with session := { scope.session with cloned } } :=
        ⟨plain.serverUnbound, plain.root⟩
      change ((conf.tryRenew false env).exec scope store).1 = _ ∧
        ((conf.tryRenew true env).exec scope store).1 ≠ _
      rw [renewed false, renewed true]
      exact within.not_agrees_doClone conf env filters
  | _ => exact renews.elim

/-- A session outside a connection is treated alike by both builds exactly where it keeps its id. -/
theorem agrees_iff (plain : scope.Plain) (operation : Operation U) :
    operation.Agrees scope store ↔ ¬operation.Renews scope.session store := by
  constructor
  · intro agrees renews
    rcases plain.not_agrees renews with ⟨succeeds, fails⟩
    exact fails (agrees.1.trans succeeds)
  · intro keeps
    apply Operation.agrees_of_eq
    cases operation with
    | login | autoLogin | renew => exact absurd trivial keeps
    | tryRenew env conf => exact AutoRenew.tryRenew_of_not_renews keeps true
    | _ => rfl

end Scope.Plain

/-- A fresh session that is not due yet. -/
theorem agrees_iff_new :
    let session : RedisSession Account := RedisSession.new (.uniform 0 0x70000000 0x70000000) 60
    let operation : Operation Account := .tryRenew (.uniform 1 0x70000100 0x70000100) AutoRenew.new
    operation.Agrees ⟨session, none⟩ Redis.empty ↔
      ¬operation.Renews session Redis.empty := by
  intro session operation
  exact (plain_new _ 60).agrees_iff operation

/-- With the feature, the first renewal of a fresh session fails. -/
theorem not_agrees_new :
    ¬∀ (scope : Scope Account) (store : Redis) (operation : Operation Account), scope.Plain →
      operation.Agrees scope store := by
  intro claim
  have agrees :=
    claim ⟨RedisSession.new (.uniform 0 0x70000000 0x70000000) 60, none⟩ Redis.empty
    (.renew (.uniform 1 0x70000100 0x70000100) ∅) (plain_new _ 60)
  exact absurd agrees.1 (by decide)

end Dce.Session
