import Dce.Lib.Prog
import Dce.Lib.Text
import Std.Data.ExtTreeMap.Lemmas
import Std.Data.ExtTreeSet.Lemmas

/-!
# The Redis store

The commands the session crate sends and what they do to the store. Session
hashes and user mapping sets live in two families of keys; the names of the two
families differ in their prefix, so a command on one never meets a value of the
other. A hash without fields and a set without members do not exist, and neither
does a key whose expiry has passed.
-/

namespace Dce.Session

/-- The fields of a hash. -/
abbrev Dict := Std.ExtTreeMap Str Str

/-- A set of sids. -/
abbrev SidSet := Std.ExtTreeSet Str

/-- A hash with the time its key expires at, if any. -/
structure HashEntry where
  fields : Dict
  expireAt : Option Nat

/-- A set with the time its key expires at, if any. -/
structure SetEntry where
  members : SidSet
  expireAt : Option Nat

/-- Whether a key with this expiry is still there at the time `now`. -/
def alive (now : Nat) : Option Nat → Bool
  | none => true
  | some time => decide (now < time)

/-- The store, with the clock of the server in seconds. -/
structure Redis where
  now : Nat
  hashes : Str → Option HashEntry
  sets : Str → Option SetEntry

/-- A key with the family it belongs to. -/
inductive Key where
  | session (name : Str)
  | user (name : Str)

/-- The commands sent by the session crate. -/
inductive Cmd where
  | hset (key field value : Str)
  | hget (key field : Str)
  | hdel (key field : Str)
  | hmset (key : Str) (data : Dict)
  | hgetall (key : Str)
  | expire (key : Key) (seconds : Nat)
  | del (key : Str)
  | ttl (key : Str)
  | isPresent (key : Str)
  | sadd (key member : Str)
  | srem (key member : Str)
  | smembers (key : Str)

/-- What the driver turns the reply of a command into. -/
abbrev Cmd.Value : Cmd → Type
  | hget .. => Option Str
  | hgetall .. => Dict
  | ttl .. => Int
  | smembers .. => SidSet
  | _ => Bool

/-- Why a command gives no value. -/
inductive RedisErr where
  | failed
  | nil
  deriving DecidableEq, Repr

/-- The reply to a command. -/
abbrev Cmd.Reply (command : Cmd) : Type := Except RedisErr command.Value

namespace HashEntry

/-- The hash, if it exists at the time `now`. -/
def check (entry : HashEntry) (now : Nat) : Option HashEntry :=
  if entry.fields.isEmpty || !alive now entry.expireAt then none else some entry

end HashEntry

namespace SetEntry

/-- The set, if it exists at the time `now`. -/
def check (entry : SetEntry) (now : Nat) : Option SetEntry :=
  if entry.members.isEmpty || !alive now entry.expireAt then none else some entry

end SetEntry

namespace Redis

/-- The store without keys. -/
def empty : Redis where
  now := 0
  hashes _ := none
  sets _ := none

/-- The hash at a key, if the key exists. -/
def hash? (store : Redis) (key : Str) : Option HashEntry :=
  (store.hashes key).bind (·.check store.now)

/-- The set at a key, if the key exists. -/
def set? (store : Redis) (key : Str) : Option SetEntry :=
  (store.sets key).bind (·.check store.now)

/-- The fields at a key, none if the key does not exist. -/
def fields (store : Redis) (key : Str) : Dict := ((store.hash? key).map (·.fields)).getD ∅

/-- The members of the set at a key, none if the key does not exist. -/
def members (store : Redis) (key : Str) : SidSet := ((store.set? key).map (·.members)).getD ∅

def setHash (store : Redis) (key : Str) (entry : HashEntry) : Redis :=
  { store with hashes := Function.update store.hashes key (some entry) }

def setSet (store : Redis) (key : Str) (entry : SetEntry) : Redis :=
  { store with sets := Function.update store.sets key (some entry) }

/-- Write fields into a hash, which keeps its expiry; a new hash has none. -/
def write (store : Redis) (key : Str) (update : Dict → Dict) : Redis :=
  store.setHash key
    { fields := update (store.fields key), expireAt := (store.hash? key).bind (·.expireAt) }

/-- Change the members of a set, which keeps its expiry; a new set has none. -/
def writeSet (store : Redis) (key : Str) (update : SidSet → SidSet) : Redis :=
  store.setSet key
    { members := update (store.members key), expireAt := (store.set? key).bind (·.expireAt) }

def hset (store : Redis) (key field value : Str) : Redis := store.write key (·.insert field value)

def hdel (store : Redis) (key field : Str) : Redis := store.write key (·.erase field)

def hmset (store : Redis) (key : Str) (data : Dict) : Redis :=
  store.write key (· ∪ data)

def del (store : Redis) (key : Str) : Redis :=
  { store with hashes := Function.update store.hashes key none }

/-- `EXPIRE` counts from now on, so that zero seconds remove the key at once. -/
def expire (store : Redis) (key : Str) (seconds : Nat) : Redis :=
  match store.hash? key with
  | none => store
  | some entry => store.setHash key { entry with expireAt := some (store.now + seconds) }

def expireSet (store : Redis) (key : Str) (seconds : Nat) : Redis :=
  match store.set? key with
  | none => store
  | some entry => store.setSet key { entry with expireAt := some (store.now + seconds) }

def sadd (store : Redis) (key member : Str) : Redis := store.writeSet key (·.insert member)

def srem (store : Redis) (key member : Str) : Redis := store.writeSet key (·.erase member)

/-- The reply of `TTL`: `-2` without the key, `-1` without an expiry. -/
def ttl (store : Redis) (key : Str) : Int :=
  match store.hash? key with
  | none => -2
  | some entry =>
      match entry.expireAt with
      | none => -1
      | some time => time - store.now

/-- Let time pass. -/
def tick (store : Redis) (seconds : Nat) : Redis := { store with now := store.now + seconds }

/-- The value a command yields. -/
def value (store : Redis) : (command : Cmd) → command.Value
  | .hset key field _ => !(store.fields key).contains field
  | .hget key field => (store.fields key)[field]?
  | .hdel key field => (store.fields key).contains field
  | .hmset .. => true
  | .hgetall key => store.fields key
  | .expire (.session key) _ => (store.hash? key).isSome
  | .expire (.user key) _ => (store.set? key).isSome
  | .del key => (store.hash? key).isSome
  | .ttl key => store.ttl key
  | .isPresent key => (store.hash? key).isSome
  | .sadd key member => !(store.members key).contains member
  | .srem key member => (store.members key).contains member
  | .smembers key => store.members key

/-- The store after a command. -/
def after (store : Redis) : Cmd → Redis
  | .hset key field value => store.hset key field value
  | .hdel key field => store.hdel key field
  | .hmset key data => store.hmset key data
  | .expire (.session key) seconds => store.expire key seconds
  | .expire (.user key) seconds => store.expireSet key seconds
  | .del key => store.del key
  | .sadd key member => store.sadd key member
  | .srem key member => store.srem key member
  | .hget .. | .hgetall .. | .ttl .. | .isPresent .. | .smembers .. => store

/-- A store on which no command fails. -/
def answer (command : Cmd) (store : Redis) : command.Reply × Redis :=
  (.ok (store.value command), store.after command)

/-- A store on which the commands fail that the oracle picks: such a command has no effect. -/
def faultyAnswer (command : Cmd) (state : Redis × (Nat → Bool)) :
    command.Reply × (Redis × (Nat → Bool)) :=
  let later := fun n => state.2 (n + 1)
  if state.2 0 then (.error .failed, state.1, later)
  else (.ok (state.1.value command), state.1.after command, later)

variable (store : Redis) (key key' field value : Str)

theorem fields_eq_of_hash? {store : Redis} {key : Str} {entry : HashEntry}
    (found : store.hash? key = some entry) : store.fields key = entry.fields := by
  simp [fields, found]

theorem hash?_check {store : Redis} {key : Str} {entry : HashEntry}
    (found : store.hash? key = some entry) :
    entry.fields.isEmpty = false ∧ alive store.now entry.expireAt = true := by
  simp only [hash?, HashEntry.check, Option.bind_eq_some_iff, Option.ite_none_left_eq_some,
    Bool.or_eq_true, Bool.not_eq_true', not_or, Bool.not_eq_false, Option.some.injEq] at found
  rcases found with ⟨stored, _, ⟨nonempty, live⟩, rfl⟩
  exact ⟨by simpa using nonempty, live⟩

theorem isEmpty_fields_iff : (store.fields key).isEmpty = true ↔ store.hash? key = none := by
  cases found : store.hash? key with
  | none => simp [fields, found]
  | some entry => simp [fields_eq_of_hash? found, (hash?_check found).1]

theorem hash?_setHash (entry : HashEntry) :
    (store.setHash key entry).hash? key' =
      if key' = key then entry.check store.now else store.hash? key' := by
  by_cases same : key' = key <;> simp [hash?, setHash, same]

theorem hash?_write (update : Dict → Dict) :
    (store.write key update).hash? key' =
      if key' = key then
        if (update (store.fields key)).isEmpty then none
        else some ⟨update (store.fields key), (store.hash? key).bind (·.expireAt)⟩
      else store.hash? key' := by
  have live : alive store.now ((store.hash? key).bind (·.expireAt)) = true := by
    cases found : store.hash? key with
    | none => rfl
    | some entry => exact (hash?_check found).2
  rw [write, hash?_setHash]
  simp [HashEntry.check, live]

@[simp]
theorem fields_write (update : Dict → Dict) :
    (store.write key update).fields key' =
      if key' = key then update (store.fields key) else store.fields key' := by
  by_cases same : key' = key
  · rw [fields, hash?_write, if_pos same, if_pos same]
    cases noneLeft : (update (store.fields key)).isEmpty with
    | true => simp [Std.ExtTreeMap.isEmpty_iff.mp noneLeft]
    | false => simp
  · simp [fields, hash?_write, same]

@[simp]
theorem hash?_del :
    (store.del key).hash? key' = if key' = key then none else store.hash? key' := by
  by_cases same : key' = key <;> simp [hash?, del, same]

@[simp]
theorem fields_del :
    (store.del key).fields key' = if key' = key then ∅ else store.fields key' := by
  by_cases same : key' = key <;> simp [fields, same]

theorem hash?_expire (seconds : Nat) :
    (store.expire key seconds).hash? key' =
      if key' = key then
        if seconds = 0 then none
        else (store.hash? key).map fun entry =>
          { entry with expireAt := some (store.now + seconds) }
      else store.hash? key' := by
  cases found : store.hash? key with
  | none => by_cases same : key' = key <;> simp [expire, found, same]
  | some entry =>
      have nonempty := (hash?_check found).1
      by_cases same : key' = key <;> by_cases zero : seconds = 0 <;>
        simp [expire, found, hash?_setHash, HashEntry.check, alive, same, zero, nonempty,
          Nat.pos_of_ne_zero]

@[simp]
theorem fields_expire (seconds : Nat) :
    (store.expire key seconds).fields key' =
      if key' = key ∧ seconds = 0 then ∅ else store.fields key' := by
  by_cases same : key' = key <;> by_cases zero : seconds = 0 <;>
    cases found : store.hash? key <;> simp [fields, hash?_expire, same, zero, found]

theorem set?_check {store : Redis} {key : Str} {entry : SetEntry}
    (found : store.set? key = some entry) :
    entry.members.isEmpty = false ∧ alive store.now entry.expireAt = true := by
  simp only [set?, SetEntry.check, Option.bind_eq_some_iff, Option.ite_none_left_eq_some,
    Bool.or_eq_true, Bool.not_eq_true', not_or, Bool.not_eq_false, Option.some.injEq] at found
  rcases found with ⟨stored, _, ⟨nonempty, live⟩, rfl⟩
  exact ⟨by simpa using nonempty, live⟩

theorem set?_setSet (entry : SetEntry) :
    (store.setSet key entry).set? key' =
      if key' = key then entry.check store.now else store.set? key' := by
  by_cases same : key' = key <;> simp [set?, setSet, same]

theorem set?_writeSet (update : SidSet → SidSet) :
    (store.writeSet key update).set? key' =
      if key' = key then
        if (update (store.members key)).isEmpty then none
        else some ⟨update (store.members key), (store.set? key).bind (·.expireAt)⟩
      else store.set? key' := by
  have live : alive store.now ((store.set? key).bind (·.expireAt)) = true := by
    cases found : store.set? key with
    | none => rfl
    | some entry => exact (set?_check found).2
  rw [writeSet, set?_setSet]
  simp [SetEntry.check, live]

@[simp]
theorem members_writeSet (update : SidSet → SidSet) :
    (store.writeSet key update).members key' =
      if key' = key then update (store.members key) else store.members key' := by
  by_cases same : key' = key
  · rw [members, set?_writeSet, if_pos same, if_pos same]
    cases noneLeft : (update (store.members key)).isEmpty with
    | true => simp [Std.ExtTreeSet.isEmpty_iff.mp noneLeft]
    | false => simp
  · simp [members, set?_writeSet, same]

@[simp]
theorem members_expireSet {seconds : Nat} (positive : seconds ≠ 0) :
    (store.expireSet key seconds).members key' = store.members key' := by
  cases found : store.set? key with
  | none => simp [expireSet, found]
  | some entry =>
      have nonempty := (set?_check found).1
      by_cases same : key' = key <;>
        simp [expireSet, members, found, set?_setSet, SetEntry.check, alive, same, nonempty,
          Nat.pos_of_ne_zero positive]

/-- Writing to one family of keys leaves the other family as it is. -/
@[simp] theorem members_write (update : Dict → Dict) :
    (store.write key update).members key' = store.members key' := rfl

@[simp] theorem members_del : (store.del key).members key' = store.members key' := rfl

@[simp]
theorem members_expire (seconds : Nat) :
    (store.expire key seconds).members key' = store.members key' := by
  rw [expire]
  split <;> rfl

@[simp] theorem hash?_writeSet (update : SidSet → SidSet) :
    (store.writeSet key update).hash? key' = store.hash? key' := rfl

@[simp]
theorem hash?_expireSet (seconds : Nat) :
    (store.expireSet key seconds).hash? key' = store.hash? key' := by
  rw [expireSet]
  split <;> rfl

@[simp] theorem fields_writeSet (update : SidSet → SidSet) :
    (store.writeSet key update).fields key' = store.fields key' := rfl

@[simp]
theorem fields_expireSet (seconds : Nat) :
    (store.expireSet key seconds).fields key' = store.fields key' := by
  rw [fields, hash?_expireSet, fields]

variable (member member' : Str)

@[simp]
theorem fields_hset :
    (store.hset key field value).fields key' =
      if key' = key then (store.fields key).insert field value else store.fields key' :=
  fields_write ..

@[simp]
theorem fields_hdel :
    (store.hdel key field).fields key' =
      if key' = key then (store.fields key).erase field else store.fields key' :=
  fields_write ..

theorem empty_union (data : Dict) : (∅ : Dict) ∪ data = data := by
  apply Std.ExtTreeMap.ext_getElem?
  intro field
  simp [Std.ExtTreeMap.getElem?_union]

@[simp]
theorem fields_hmset (data : Dict) :
    (store.hmset key data).fields key' =
      if key' = key then store.fields key ∪ data else store.fields key' :=
  fields_write ..

/-- A hash that was written to exists, if it has a field. -/
theorem isSome_hash?_hmset {data : Dict} (nonempty : data ≠ ∅) :
    ((store.hmset key data).hash? key).isSome = true := by
  simp [hmset, hash?_write, nonempty]

@[simp] theorem members_hset :
    (store.hset key field value).members key' = store.members key' := rfl

@[simp] theorem members_hdel :
    (store.hdel key field).members key' = store.members key' := rfl

@[simp] theorem members_hmset (data : Dict) :
    (store.hmset key data).members key' = store.members key' := rfl

@[simp] theorem hash?_sadd : (store.sadd key member).hash? key' = store.hash? key' := rfl

@[simp] theorem hash?_srem : (store.srem key member).hash? key' = store.hash? key' := rfl

@[simp] theorem fields_sadd : (store.sadd key member).fields key' = store.fields key' := rfl

@[simp] theorem fields_srem : (store.srem key member).fields key' = store.fields key' := rfl

@[simp]
theorem isSome_set?_sadd : ((store.sadd key member).set? key).isSome = true := by
  simp [sadd, set?_writeSet]

@[simp]
theorem mem_members_sadd :
    member' ∈ (store.sadd key member).members key' ↔
      (key' = key ∧ member' = member) ∨ member' ∈ store.members key' := by
  by_cases same : key' = key <;> simp [sadd, same, @eq_comm _ member]

@[simp]
theorem mem_members_srem :
    member' ∈ (store.srem key member).members key' ↔
      member' ∈ store.members key' ∧ ¬ (key' = key ∧ member' = member) := by
  by_cases same : key' = key
  · simp [srem, same, @eq_comm _ member, and_comm]
  · simp [srem, same]

theorem alive_of_alive_add {now seconds : Nat} {expiry : Option Nat}
    (live : alive (now + seconds) expiry = true) : alive now expiry = true := by
  cases expiry with
  | none => rfl
  | some time =>
      simp only [alive, decide_eq_true_eq] at live ⊢
      omega

theorem check_add (entry : HashEntry) (now seconds : Nat) :
    entry.check (now + seconds) =
      (entry.check now).filter fun entry => alive (now + seconds) entry.expireAt := by
  rw [HashEntry.check, HashEntry.check]
  cases entry.fields.isEmpty with
  | true => rfl
  | false =>
      cases later : alive (now + seconds) entry.expireAt with
      | true => simp [alive_of_alive_add later, Option.filter, later]
      | false => cases alive now entry.expireAt <;> simp [Option.filter, later]

theorem hash?_tick (seconds : Nat) :
    (store.tick seconds).hash? key =
      (store.hash? key).filter fun entry => alive (store.now + seconds) entry.expireAt := by
  cases stored : store.hashes key with
  | none => simp [hash?, tick, stored]
  | some entry => simp [hash?, tick, stored, check_add]

/-- A mapping set that is still there has the members it had. -/
theorem members_tick {seconds : Nat} (remains : ((store.tick seconds).set? key).isSome) :
    (store.tick seconds).members key = store.members key := by
  cases stored : store.sets key with
  | none => simp [set?, tick, stored] at remains
  | some entry =>
      have present :
          ¬entry.members = ∅ ∧ alive (store.now + seconds) entry.expireAt = true := by
        simpa [set?, tick, stored, SetEntry.check] using remains
      simp [members, set?, tick, stored, SetEntry.check, present, alive_of_alive_add present.2]

theorem isSome_set?_of_mem {store : Redis} {key member : Str} (mem : member ∈ store.members key) :
    (store.set? key).isSome := by
  cases found : store.set? key with
  | none => simp [members, found] at mem
  | some entry => rfl

end Redis

end Dce.Session
