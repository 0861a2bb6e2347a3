import Dce.Lib.Runs
import Dce.Session.Encoding
import Dce.Session.Lineage

/-!
# Sessions in a crowd

Any number of session objects work on one store. They send their commands in any
order, some of which fail, and an object may be dropped in the middle of what it
does. A session still belongs to nobody but the users that asked to log in on it,
or on one that it was regenerated from; a login that fails is no less asked for.
-/

namespace Dce.Session

open SessionM RedisSession

variable {U : Type}

-- the arithmetic of the clock is not to be evaluated
attribute [local irreducible] AutoRenew.secondsFromRenew

/-- What an object is asked for: an operation, or its user. -/
inductive Demand (U : Type) where
  | operate (operation : Operation U)
  | user

/-- An object between two requests, or in the middle of one. -/
inductive Client (U : Type) where
  | idle (session : RedisSession U)
  | busy (rest : Prog Cmd Cmd.Reply (Outcome SessionErr Bool × Scope U))

/-- The store and the objects. What was asked for is kept for the proofs only: the logins by sid,
the surroundings in which a sid may have got a successor, and the users to be synchronized. -/
structure Crowd (U : Type) where
  store : Redis
  clients : Nat → Option (Client U)
  asked : List (Str × U)
  taken : List (Str × Env)
  synced : List U

/-- What happens next. -/
inductive Move (U : Type) where
  | new (index : Nat) (env : Env) (ttlMinutes : UInt16)
  | newWithId (index : Nat) (sid : Str)
  | call (index : Nat) (demand : Demand U)
  | send (index : Nat) (fails : Bool)
  | drop (index : Nat)
  | pass (seconds : Nat)

namespace Demand

/-- The logins that a demand to a session asks for. -/
def asked (sid : Str) : Demand U → List (Str × U)
  | operate (.login _ account _) => [(sid, account)]
  | _ => []

/-- The surroundings in which a demand may give the session another sid. -/
def taken (sid : Str) : Demand U → List (Str × Env)
  | operate operation => (operation.env?.map fun env => (sid, env)).toList
  | user => []

def synced : Demand U → List U
  | operate (.sync account) => [account]
  | _ => []

/-- The demand does not write the field of the user by hand. -/
def SparesUser : Demand U → Prop
  | operate (.set field _) => field ≠ defaultUserField
  | operate (.renew _ filters) => ∀ text, filters[defaultUserField]? ≠ some (some text)
  | operate (.tryRenew _ conf) => conf.newSidField ≠ defaultUserField
  | _ => True

variable [UidGetter U] [Serde U]

/-- The demand as a program of the object; the user that it reads stays in the object. -/
def program (connection : Bool) : Demand U → SessionM U Bool
  | operate operation => operation.program connection
  | user => do
      let _ ← RedisSession.user
      return true

end Demand

def Move.SparesUser : Move U → Prop
  | call _ demand => demand.SparesUser
  | _ => True

namespace Crowd

def start : Crowd U where
  store := Redis.empty
  clients _ := none
  asked := []
  taken := []
  synced := []

def put (crowd : Crowd U) (index : Nat) (client : Option (Client U)) : Crowd U :=
  { crowd with clients := Function.update crowd.clients index client }

/-- An object sends its next command, or takes back what it worked on. -/
def send (crowd : Crowd U) (index : Nat) (fails : Bool) : Crowd U :=
  match crowd.clients index with
  | some (.busy (.call command rest)) =>
      let (reply, state) := Redis.faultyAnswer command (crowd.store, fun _ => fails)
      { crowd with store := state.1 }.put index (some (.busy (rest reply)))
  | some (.busy (.ret final)) => crowd.put index (some (.idle final.2.session))
  | _ => crowd

variable [UidGetter U] [Serde U]

/-- An object that does nothing else is asked for something. -/
def call (connection : Bool) (crowd : Crowd U) (index : Nat) (demand : Demand U) : Crowd U :=
  match crowd.clients index with
  | some (.idle session) =>
      let sid := session.info.sid
      { crowd with
        asked := demand.asked sid ++ crowd.asked
        taken := demand.taken sid ++ crowd.taken
        synced := demand.synced ++ crowd.synced
      }.put index (some (.busy (demand.program connection ⟨session, none⟩)))
  | _ => crowd

def step (connection : Bool) (crowd : Crowd U) : Move U → Crowd U
  | .new index env ttlMinutes => crowd.put index (some (.idle (RedisSession.new env ttlMinutes)))
  | .newWithId index sid =>
      match RedisSession.newWithId sid with
      | .ok session => crowd.put index (some (.idle session))
      | _ => crowd
  | .call index demand => crowd.call connection index demand
  | .send index fails => crowd.send index fails
  | .drop index => crowd.put index none
  | .pass seconds => { crowd with store := crowd.store.tick seconds }

/-- What was asked for is what users are entitled to. -/
structure Honored (rule : Entitlement U) (crowd : Crowd U) : Prop where
  asked : ∀ sid user, (sid, user) ∈ crowd.asked → rule.entitled sid user
  taken : ∀ sid env user ttlMinutes, (sid, env) ∈ crowd.taken → rule.entitled sid user →
    rule.entitled (Meta.genId env ttlMinutes).1 user
  synced : ∀ user ∈ crowd.synced, ∀ sid json user', rule.listed (UidGetter.id user) sid →
    Serde.toJson user = some json → Serde.fromJson json = some user' → rule.entitled sid user'

/-- An object caches entitled users only, or will when it is done. -/
def Client.Rightful (rule : Entitlement U) : Client U → Prop
  | .idle session => Scope.Rightful rule ⟨session, none⟩
  | .busy rest => rest.Keeps Redis.faultyAnswer (fun state => state.1.Orderly rule)
      fun final => final.2.Rightful rule

structure Safe (rule : Entitlement U) (crowd : Crowd U) : Prop where
  orderly : crowd.store.Orderly rule
  rightful : ∀ index client, crowd.clients index = some client → Client.Rightful rule client

variable {rule : Entitlement U} {crowd : Crowd U} {connection : Bool}

/-- What a demand asks for is honored. -/
theorem keeps_program {scope : Scope U} (rightful : scope.Rightful rule) {demand : Demand U}
    (spares : demand.SparesUser)
    (asked : ∀ sid user, (sid, user) ∈ demand.asked scope.session.info.sid →
      rule.entitled sid user)
    (taken : ∀ env user ttlMinutes,
      (scope.session.info.sid, env) ∈ demand.taken scope.session.info.sid →
      rule.entitled scope.session.info.sid user →
        rule.entitled (Meta.genId env ttlMinutes).1 user)
    (synced : ∀ user ∈ demand.synced, ∀ sid json user',
      rule.listed (UidGetter.id user) sid →
      Serde.toJson user = some json → Serde.fromJson json = some user' →
        rule.entitled sid user') :
    (demand.program connection scope).Keeps Redis.faultyAnswer
      (fun state => state.1.Orderly rule) fun final => final.2.Rightful rule := by
  have ended {body : SessionM U Bool} {pre : Scope U → Prop}
      (guards : body.Guards rule pre fun _ => Scope.Rightful rule) (holds : pre scope) :
      (body scope).Keeps Redis.faultyAnswer (fun state => state.1.Orderly rule)
        fun final => final.2.Rightful rule :=
    Prog.Keeps.mono (guards scope holds) fun _ ends => ends.1
  have renewable {env : Env}
      (mem : (scope.session.info.sid, env) ∈ demand.taken scope.session.info.sid) :
      scope.Renewable rule env :=
    ⟨rightful, fun user ttlMinutes => taken env user ttlMinutes mem⟩
  cases demand with
  | user => exact ended (secures_bind guards_user fun _ =>
      (secures_pure (fun _ holds => holds.1) true).mono (fun _ holds => holds)
        fun _ _ ends => ends.1.1) rightful
  | operate operation =>
      cases operation with
      | set field json =>
          cases json with
          | none => exact ended (abides_throw _) rightful
          | some value =>
              refine ended (guards_of_touched fun _ _ => ?_) rightful
              exact moves_touchIfTrue (moves_silentSet spares) trivial
      | get field =>
          refine ended (abides_bind (guards_of_touched fun _ _ => ?_) fun _ => abides_pure _)
            rightful
          exact moves_get (fun _ mild => mild.sparesUsers) Json field trivial
      | del field =>
          refine ended (guards_of_touched fun _ _ => ?_) rightful
          exact moves_touchIfTrue (moves_silentDel trivial) trivial
      | login env user ttlMinutes =>
          refine ended (guards_logIn (some user) (some ttlMinutes))
            ⟨renewable List.mem_cons_self, ?_⟩
          rintro _ ⟨⟩
          exact asked _ user List.mem_cons_self
      | autoLogin env =>
          exact ended (guards_logIn none none)
            ⟨renewable List.mem_cons_self, by rintro _ ⟨⟩⟩
      | logout => exact ended guards_logout rightful
      | renew env filters =>
          refine ended guards_renew ⟨renewable List.mem_cons_self, ?_⟩
          exact fun text user named => absurd named (spares text)
      | tryRenew env conf =>
          exact ended (guards_tryRenew spares) (renewable List.mem_cons_self)
      | destroy => exact ended guards_destroy rightful
      | sync user => exact ended (guards_sync user (synced user List.mem_cons_self)) rightful
      | disconnect => exact ended (abides_self fun _ _ => tame_redis trivial) rightful

theorem Safe.put (safe : crowd.Safe rule) {index : Nat} {client : Option (Client U)}
    (rightful : ∀ client', client = some client' → Client.Rightful rule client') :
    (crowd.put index client).Safe rule where
  orderly := safe.orderly
  rightful other client' there := by
    change Function.update crowd.clients index client other = some client' at there
    rw [Function.update_apply] at there
    split at there
    · exact rightful client' there
    · exact safe.rightful other client' there

theorem Safe.send (safe : crowd.Safe rule) (index : Nat) (fails : Bool) :
    (crowd.send index fails).Safe rule := by
  rw [Crowd.send]
  split
  · rename_i command rest there
    have keeps := safe.rightful index _ there (crowd.store, fun _ => fails) safe.orderly
    have answered : Safe rule { crowd with
        store := (Redis.faultyAnswer command (crowd.store, fun _ => fails)).2.1 } :=
      ⟨keeps.1, safe.rightful⟩
    refine answered.put ?_
    rintro _ ⟨⟩
    exact keeps.2
  · rename_i final there
    refine safe.put ?_
    rintro _ ⟨⟩
    have rightful : final.2.Rightful rule := safe.rightful index _ there
    exact ⟨rightful.sidName, rightful.keyPrefix, rightful.userField, rightful.user, rfl⟩
  · exact safe

theorem Safe.call (safe : crowd.Safe rule) {index : Nat} {demand : Demand U}
    (spares : demand.SparesUser) (honored : (crowd.call connection index demand).Honored rule) :
    (crowd.call connection index demand).Safe rule := by
  rw [Crowd.call] at honored ⊢
  split at honored
  · rename_i session there
    have noted : Safe rule { crowd with
        asked := demand.asked session.info.sid ++ crowd.asked
        taken := demand.taken session.info.sid ++ crowd.taken
        synced := demand.synced ++ crowd.synced } := ⟨safe.orderly, safe.rightful⟩
    refine noted.put ?_
    rintro _ ⟨⟩
    refine keeps_program (safe.rightful index _ there) spares ?_ ?_ ?_
    · exact fun sid user mem => honored.asked sid user (List.mem_append_left _ mem)
    · exact fun env user ttlMinutes mem =>
        honored.taken _ env user ttlMinutes (List.mem_append_left _ mem)
    · exact fun user mem => honored.synced user (List.mem_append_left _ mem)
  · exact safe

/-- One step. -/
theorem Safe.step (safe : crowd.Safe rule) {move : Move U} (spares : move.SparesUser)
    (honored : (crowd.step connection move).Honored rule) :
    (crowd.step connection move).Safe rule := by
  cases move with
  | new index env ttlMinutes =>
      refine safe.put ?_
      rintro _ ⟨⟩
      exact ⟨rfl, rfl, rfl, by rintro _ ⟨⟩, rfl⟩
  | newWithId index sid =>
      rw [Crowd.step]
      split
      · rename_i session made
        refine safe.put ?_
        rintro _ ⟨⟩
        rcases Outcome.bind_eq_ok.mp made with ⟨info, parsed, rest⟩
        rcases Outcome.bind_eq_ok.mp parsed with ⟨times, _, made'⟩
        cases made'
        cases rest
        exact ⟨rfl, rfl, rfl, by rintro _ ⟨⟩, rfl⟩
      · exact safe
  | call index demand => exact safe.call spares honored
  | send index fails => exact safe.send index fails
  | drop index => exact safe.put (by rintro _ ⟨⟩)
  | pass seconds => exact ⟨safe.orderly.tick seconds, safe.rightful⟩

theorem Honored.mono {later : Crowd U} (honored : later.Honored rule)
    (asked : crowd.asked ⊆ later.asked) (taken : crowd.taken ⊆ later.taken)
    (synced : crowd.synced ⊆ later.synced) : crowd.Honored rule where
  asked sid user mem := honored.asked sid user (asked mem)
  taken sid env user ttlMinutes mem := honored.taken sid env user ttlMinutes (taken mem)
  synced user mem := honored.synced user (synced mem)

theorem Honored.before {move : Move U} (honored : (crowd.step connection move).Honored rule) :
    crowd.Honored rule := by
  cases move with
  | new index env ttlMinutes => exact ⟨honored.asked, honored.taken, honored.synced⟩
  | newWithId index sid =>
      rw [Crowd.step] at honored
      split at honored
      · exact ⟨honored.asked, honored.taken, honored.synced⟩
      · exact honored
  | call index demand =>
      rw [Crowd.step, Crowd.call] at honored
      split at honored
      · exact honored.mono (List.subset_append_right _ _) (List.subset_append_right _ _)
          (List.subset_append_right _ _)
      · exact honored
  | send index fails =>
      rw [Crowd.step, Crowd.send] at honored
      split at honored
      · exact ⟨honored.asked, honored.taken, honored.synced⟩
      · exact ⟨honored.asked, honored.taken, honored.synced⟩
      · exact honored
  | drop index => exact ⟨honored.asked, honored.taken, honored.synced⟩
  | pass seconds => exact ⟨honored.asked, honored.taken, honored.synced⟩

end Crowd

end Dce.Session
