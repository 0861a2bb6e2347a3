import Dce.Lib.Runs
import Dce.Session.Renew

/-!
# Runs of the session system

Any number of session objects share one store. A step is one complete operation
of one object, the creation of an object, or the passage of time; the commands
that fail during an operation are part of the step's label.
-/

namespace Dce.Session

/-- Text that is stored and read back as it is. -/
structure Json where
  text : Str

instance : Serde Json where
  toJson json := some json.text
  fromJson text := some ⟨text⟩

/-- A user with a role, written like a tuple struct. -/
structure Account where
  id : Nat
  role : Nat
  deriving DecidableEq, Repr

namespace Account

def write (account : Account) : Str :=
  '[' :: Nat.toDigits 10 account.id ++ ',' :: Nat.toDigits 10 account.role ++ [']']

def read (text : Str) : Option Account :=
  let id := (text.drop 1).takeWhile Char.isDigit
  let role := (((text.drop 1).dropWhile Char.isDigit).drop 1).takeWhile Char.isDigit
  let account : Account := ⟨Nat.ofDigitChars 10 id 0, Nat.ofDigitChars 10 role 0⟩
  if account.write = text then some account else none

instance : UidGetter Account where
  id := Account.id

instance : Serde Account where
  toJson account := some account.write
  fromJson := read

end Account

instance neZeroSixteen : NeZero 16 := ⟨by decide⟩

/-- Surroundings whose digest is one digit over and over. -/
def Env.uniform (digit : Fin 16) (stamp now : UInt64) : Env where
  now
  stamp
  digest := {
    digits := List.replicate 64 (Text.hexDigit digit)
    length_eq := List.length_replicate
    isHex := by
      have hexDigits : ∀ digit : Fin 16, Text.hexDigit digit ∈ "0123456789ABCDEF".toList := by
        decide
      intro c mem
      rw [List.eq_of_mem_replicate mem]
      exact hexDigits digit
  }

variable {U : Type}

/-- The store and the live session objects. `renewals` is a record kept for the proofs only: the
old and the new sid of every `try_renew` that returned true. -/
structure System (U : Type) where
  store : Redis
  objects : Nat → Option (RedisSession U)
  next : Nat
  renewals : List (Str × Str)

/-- What an object is asked to do. -/
inductive Operation (U : Type) where
  | set (field : Str) (json : Option Str)
  | get (field : Str)
  | del (field : Str)
  | login (env : Env) (user : U) (ttlMinutes : UInt16)
  | autoLogin (env : Env)
  | logout
  | renew (env : Env) (filters : Filters)
  | tryRenew (env : Env) (conf : AutoRenew)
  | destroy
  | sync (user : U)
  | disconnect

/-- The steps of the system. -/
inductive Action (U : Type) where
  | new (env : Env) (ttlMinutes : UInt16)
  | newWithId (sid : Str)
  | operate (index : Nat) (operation : Operation U) (faults : Nat → Bool)
  | connect (index : Nat) (server : Str)
  | cloneForRequest (index : Nat) (sid : Option Str)
  | drop (index : Nat)
  | tick (seconds : Nat)

/-- No command fails. -/
def noFaults : Nat → Bool := fun _ => false

namespace Operation

open RedisSession

variable [UidGetter U] [Serde U]

/-- The operation as a program of the object; what a `get` reads is dropped. -/
def program (connection : Bool) : Operation U → SessionM U Bool
  | set field json => RedisSession.set field json
  | get field => do
      let _ ← RedisSession.get Json field
      return true
  | del field => RedisSession.del field
  | login env user ttlMinutes => RedisSession.login connection env user ttlMinutes
  | autoLogin env => RedisSession.autoLogin connection env
  | logout => RedisSession.logout
  | renew env filters => RedisSession.renew connection env filters
  | tryRenew env conf => conf.tryRenew connection env
  | destroy => RedisSession.destroy
  | sync user => RedisSession.sync user
  | disconnect => unbinding

/-- What the record of renewals gains: `try_renew` tells its success by `Ok(true)`. -/
def record (before after : Str) (outcome : Outcome SessionErr Bool) :
    Operation U → List (Str × Str)
  | tryRenew .. => if outcome = .ok true then [(before, after)] else []
  | _ => []

end Operation

namespace System

/-- The system before its first step. -/
def start : System U where
  store := Redis.empty
  objects _ := none
  next := 0
  renewals := []

/-- Add an object. -/
def add (system : System U) (session : RedisSession U) : System U :=
  { system with
    objects := Function.update system.objects system.next (some session)
    next := system.next + 1 }

/-- The object and the root it can upgrade its `shadow` to. -/
def scope (system : System U) (session : RedisSession U) : Scope U where
  session
  root := session.connMeta.shadow.bind system.objects

/-- Write an object and its root back. -/
def writeBack (system : System U) (index : Nat) (scope : Scope U) : System U :=
  let objects :=
    match scope.session.connMeta.shadow, scope.root with
    | some shadow, some root => Function.update system.objects shadow (some root)
    | _, _ => system.objects
  { system with objects := Function.update objects index (some scope.session) }

variable [UidGetter U] [Serde U]

/-- Let an object perform an operation while the commands picked by `faults` fail. -/
def operate (connection : Bool) (system : System U) (index : Nat) (operation : Operation U)
    (faults : Nat → Bool) : System U :=
  match system.objects index with
  | none => system
  | some session =>
      let final := (operation.program connection (system.scope session)).run Redis.faultyAnswer
        (system.store, faults)
      let scope := final.1.2
      { (system.writeBack index scope) with
        store := final.2.1
        renewals :=
          operation.record session.info.sid scope.session.info.sid final.1.1 ++ system.renewals }

/-- One step of the system. -/
def step (connection : Bool) (system : System U) : Action U → System U
  | .new env ttlMinutes => system.add (RedisSession.new env ttlMinutes)
  | .newWithId sid =>
      match RedisSession.newWithId sid with
      | .ok session => system.add session
      | _ => system
  | .operate index operation faults => system.operate connection index operation faults
  | .connect index server =>
      match system.objects index with
      | some session =>
          { system with
            objects := Function.update system.objects index (some (session.connect server)) }
      | none => system
  | .cloneForRequest index sid =>
      match system.objects index with
      | some root =>
          match root.cloneForRequest index sid with
          | .ok session => system.add session
          | _ => system
      | none => system
  | .drop index => { system with objects := Function.update system.objects index none }
  | .tick seconds => { system with store := system.store.tick seconds }

end System

namespace SessionM

variable {α : Type}

theorem run_noFaults (program : Prog Cmd Cmd.Reply α) (store : Redis) :
    program.run Redis.faultyAnswer (store, noFaults) =
      ((program.run Redis.answer store).1, (program.run Redis.answer store).2, noFaults) := by
  induction program generalizing store with
  | ret value => rfl
  | call command rest ih => exact ih _ _

end SessionM

namespace System

variable [UidGetter U] [Serde U]

/-- The only initial state. -/
def Initial (system : System U) : Prop := system = start

omit [UidGetter U] [Serde U] in
@[simp]
theorem initial_start : (start : System U).Initial := rfl

/-- The state after a run from the start. -/
def after (connection : Bool) (actions : List (Action U)) : System U :=
  actions.foldl (step connection) start

theorem reachable_after {connection : Bool} {admits : System U → Action U → Prop}
    (actions : List (Action U))
    (admitted : AdmitsRun (step connection) admits start actions) :
    Reachable (step connection) admits Initial (after connection actions) :=
  Reachable.run (.start initial_start) actions admitted

/-- An operation during which no command fails. -/
theorem operate_noFaults (connection : Bool) (system : System U) (index : Nat)
    (operation : Operation U) {session : RedisSession U}
    (found : system.objects index = some session) :
    system.operate connection index operation noFaults =
      let final := (operation.program connection).exec (system.scope session) system.store
      { (system.writeBack index final.2.1) with
        store := final.2.2
        renewals :=
          operation.record session.info.sid final.2.1.session.info.sid final.1 ++
            system.renewals } := by
  simp only [operate, found, SessionM.run_noFaults, SessionM.exec]

end System

end Dce.Session
