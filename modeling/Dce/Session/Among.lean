import Dce.Lib.Rely
import Dce.Session.Marker

/-!
# A renewal among others

What a `try_renew` does while other calls send their commands in between. Until
one of them reads all the fields of the session, they only let hashes go; `Wanes`
is what a call has to withstand from them.
-/

namespace Dce.Session

open SessionM RedisSession

variable {U α β : Type}

namespace SessionM

/-- Whatever moves along `rely` come between the commands, the operation ends in `post`. -/
def Stands (rely : Redis → Redis → Prop)
    (post : Outcome SessionErr α → Scope U → Redis → Prop)
    (operation : SessionM U α) (scope : Scope U) (store : Redis) : Prop :=
  (operation scope).Withstands Redis.answer rely (fun final => post final.1 final.2) store

variable {rely : Redis → Redis → Prop} {scope : Scope U} {store : Redis}

theorem Stands.mono {post post' : Outcome SessionErr α → Scope U → Redis → Prop}
    {operation : SessionM U α} (stands : operation.Stands rely post scope store)
    (ends : ∀ outcome scope' store', post outcome scope' store' → post' outcome scope' store') :
    operation.Stands rely post' scope store :=
  Prog.Withstands.mono stands (fun _ _ moved => moved) fun final => ends final.1 final.2

theorem stands_bind {post : Outcome SessionErr β → Scope U → Redis → Prop}
    {first : SessionM U α} {next : α → SessionM U β}
    (stands : first.Stands rely (fun outcome scope' store' =>
      match outcome with
      | .ok value => (next value).Stands rely post scope' store'
      | .err error => post (.err error) scope' store'
      | .panic => post .panic scope' store') scope store) :
    (first >>= next).Stands rely post scope store := by
  apply Prog.Withstands.bind
  apply Prog.Withstands.mono stands (fun _ _ moved => moved)
  rintro ⟨outcome, scope'⟩ store' ends
  cases outcome <;> exact ends

theorem stands_attempt
    {post : Outcome SessionErr (Except SessionErr α) → Scope U → Redis → Prop}
    {operation : SessionM U α}
    (stands : operation.Stands rely (fun outcome scope' store' =>
      match outcome with
      | .ok value => post (.ok (.ok value)) scope' store'
      | .err error => post (.ok (.error error)) scope' store'
      | .panic => post .panic scope' store') scope store) :
    operation.attempt.Stands rely post scope store := by
  apply Prog.Withstands.bind
  apply Prog.Withstands.mono stands (fun _ _ moved => moved)
  rintro ⟨outcome, scope'⟩ store' ends
  cases outcome <;> exact ends

theorem stands_self {post : Outcome SessionErr β → Scope U → Redis → Prop}
    {next : RedisSession U → SessionM U β}
    (stands : (next scope.session).Stands rely post scope store) :
    (self >>= next).Stands rely post scope store := stands

theorem stands_modify {post : Outcome SessionErr β → Scope U → Redis → Prop}
    {change : RedisSession U → RedisSession U} {next : Unit → SessionM U β}
    (stands : (next ()).Stands rely post { scope with session := change scope.session } store) :
    (modify change >>= next).Stands rely post scope store := stands

theorem stands_of_ret {post : Outcome SessionErr β → Scope U → Redis → Prop}
    {first : SessionM U α} {next : α → SessionM U β} {value : α}
    {scope' : Scope U} (known : first scope = .ret (.ok value, scope'))
    (stands : (next value).Stands rely post scope' store) :
    (first >>= next).Stands rely post scope store := by
  rwa [Stands, bind_of_ret known]

theorem stands_redis (command : Cmd)
    {post : Outcome SessionErr command.Value → Scope U → Redis → Prop}
    (done : ∀ store', rely store store' →
      post (.ok (store'.value command)) scope (store'.after command)) :
    (redis command).Stands rely post scope store := done

/-- An invariant of the commands of an operation and of the moves between them. -/
theorem Stays.stands {allowed : Cmd → Prop} {property : Scope U → Prop}
    {invariant : Redis → Prop}
    {operation : SessionM U α} (stays : operation.Stays allowed property)
    (kept : ∀ command store, allowed command → invariant store →
      invariant (store.after command))
    (stable : ∀ store store', invariant store → rely store store' → invariant store')
    (holds : property scope) (start : invariant store) :
    operation.Stands rely (fun _ scope' store' => property scope' ∧ invariant store')
      scope store :=
  Prog.Withstands.of_sends (stays scope holds) kept stable start

/-- Whatever the replies are, the operation does not panic. -/
def Calm (operation : SessionM U α) : Prop :=
  ∀ scope, (operation scope).Sends (fun _ => True) fun final => final.1 ≠ .panic

theorem calm_of_moves {rel : Scope U → Scope U → Prop} {operation : SessionM U α}
    (moves : ∀ scope, operation.Moves (fun _ => True) rel False scope) : operation.Calm :=
  fun scope => Prog.Sends.mono (moves scope) (fun _ sent => sent) fun _ both => both.1

theorem Stands.returns {post : Outcome SessionErr α → Scope U → Redis → Prop}
    {operation : SessionM U α} (stands : operation.Stands rely post scope store)
    (calm : operation.Calm) : operation.Stands rely (fun outcome scope' store' =>
      outcome ≠ .panic ∧ post outcome scope' store') scope store :=
  Prog.Withstands.returns stands (calm scope)

end SessionM

/-- What no touch and no cached user changes in a scope. -/
structure Scope.Kept (scope scope' : Scope U) : Prop where
  sidName : scope'.session.info.sidName = scope.session.info.sidName
  sid : scope'.session.info.sid = scope.session.info.sid
  ttl : scope'.session.info.ttlMinutes = scope.session.info.ttlMinutes
  connMeta : scope'.session.connMeta = scope.session.connMeta
  cloned : scope'.session.cloned = scope.session.cloned
  root : scope'.root = scope.root

theorem Scope.Kept.refl (scope : Scope U) : scope.Kept scope := ⟨rfl, rfl, rfl, rfl, rfl, rfl⟩

theorem Scope.Kept.key {scope scope' : Scope U} (kept : scope.Kept scope') :
    scope'.session.key = scope.session.key := by
  rw [Core.key, Core.key, kept.sidName, kept.sid]

theorem Scope.Kept.indifferent (scope : Scope U) : Indifferent (scope.Kept ·) where
  user _ _ kept := ⟨kept.sidName, kept.sid, kept.ttl, kept.connMeta, kept.cloned, kept.root⟩
  tryLoaded _ _ kept :=
    ⟨kept.sidName, kept.sid, kept.ttl, kept.connMeta, kept.cloned, kept.root⟩
  touches _ _ kept := ⟨kept.sidName, kept.sid, kept.ttl, kept.connMeta, kept.cloned, kept.root⟩

theorem SessionM.Stays.mono {allowed allowed' : Cmd → Prop} {property : Scope U → Prop}
    {operation : SessionM U α} (stays : operation.Stays allowed property)
    (weaker : ∀ command, allowed command → allowed' command) :
    operation.Stays allowed' property :=
  fun scope holds => Prog.Sends.mono (stays scope holds) weaker fun _ kept => kept

namespace SessionM

/-- Whatever the replies are, the operation sends only commands in `allowed` before one in
`stop`. -/
def Until (stop allowed : Cmd → Prop) (operation : SessionM U α) (scope : Scope U) : Prop :=
  (operation scope).SendsUntil stop allowed

/-- From a command in `stop` on, if that was sent in a store in `calm`, the operation stands what
comes between its commands. -/
def Nears (rely : Redis → Redis → Prop) (stop : Cmd → Prop) (calm : Redis → Prop)
    (post : Outcome SessionErr α → Scope U → Redis → Prop) (operation : SessionM U α)
    (scope : Scope U) (store : Redis) : Prop :=
  (operation scope).Approaches Redis.answer rely stop calm (fun final => post final.1 final.2) store

variable {stop allowed : Cmd → Prop} {property : Scope U → Prop} {scope : Scope U}

theorem until_self {next : RedisSession U → SessionM U β}
    (later : (next scope.session).Until stop allowed scope) :
    (self >>= next).Until stop allowed scope := later

theorem until_of_stays {operation : SessionM U α} (stays : operation.Stays allowed property)
    (holds : property scope) : operation.Until stop allowed scope := .of_sends (stays scope holds)

theorem until_of_ret {first : SessionM U α} {next : α → SessionM U β} {value : α}
    {scope' : Scope U} (known : first scope = .ret (.ok value, scope'))
    (later : (next value).Until stop allowed scope') :
    (first >>= next).Until stop allowed scope := by
  rwa [Until, bind_of_ret known]

theorem until_of_panic {first : SessionM U α} {next : α → SessionM U β}
    (known : first scope = .ret (.panic, scope)) : (first >>= next).Until stop allowed scope := by
  rw [Until, bind_of_panic known]
  exact .ret _

theorem until_bind {first : SessionM U α} {next : α → SessionM U β}
    (stays : first.Stays allowed property) (holds : property scope)
    (later : ∀ value scope', property scope' → (next value).Until stop allowed scope') :
    (first >>= next).Until stop allowed scope := by
  apply Prog.SendsUntil.bind (stays scope holds)
  rintro ⟨outcome, scope'⟩ holds'
  cases outcome with
  | ok value => exact later value scope' holds'
  | err error => exact .ret _
  | panic => exact .ret _

/-- The command that is sent first is allowed. -/
theorem until_silentGet {field : Str} {next : Except SessionErr Str → SessionM U β}
    (admitted : allowed (.hget scope.session.key field))
    (later : ∀ result, (next result).Until stop allowed scope) :
    ((silentGet field).attempt >>= next).Until stop allowed scope := by
  refine .send admitted fun reply => ?_
  rcases reply with error | _ | value
  · exact later (.error (.redis error))
  · exact later (.error (.redis .nil))
  · exact later (.ok value)

variable {rely : Redis → Redis → Prop} {calm : Redis → Prop} {store : Redis}

theorem nears_self {post : Outcome SessionErr β → Scope U → Redis → Prop}
    {next : RedisSession U → SessionM U β}
    (later : (next scope.session).Nears rely stop calm post scope store) :
    (self >>= next).Nears rely stop calm post scope store := later

theorem nears_of_stays {post : Outcome SessionErr α → Scope U → Redis → Prop}
    {operation : SessionM U α} (stays : operation.Stays (fun command => ¬stop command) property)
    (holds : property scope) : operation.Nears rely stop calm post scope store :=
  .of_sends (stays scope holds)

theorem nears_of_stands {post : Outcome SessionErr α → Scope U → Redis → Prop}
    {operation : SessionM U α} (stands : operation.Stands rely post scope store) :
    operation.Nears rely stop calm post scope store := .of_withstands stands

theorem nears_of_ret {post : Outcome SessionErr β → Scope U → Redis → Prop}
    {first : SessionM U α} {next : α → SessionM U β} {value : α}
    {scope' : Scope U} (known : first scope = .ret (.ok value, scope'))
    (later : (next value).Nears rely stop calm post scope' store) :
    (first >>= next).Nears rely stop calm post scope store := by
  rwa [Nears, bind_of_ret known]

theorem nears_of_panic {post : Outcome SessionErr β → Scope U → Redis → Prop}
    {first : SessionM U α} {next : α → SessionM U β}
    (known : first scope = .ret (.panic, scope)) :
    (first >>= next).Nears rely stop calm post scope store := by
  rw [Nears, bind_of_panic known]
  exact .ret _ _

theorem nears_bind {post : Outcome SessionErr β → Scope U → Redis → Prop}
    {first : SessionM U α} {next : α → SessionM U β}
    (stays : first.Stays (fun command => ¬stop command) property) (holds : property scope)
    (stands : first.Stands (fun store store' => rely store store' ∧ calm store')
      (fun outcome scope' store' => ∀ value, outcome = .ok value →
        (next value).Nears rely stop calm post scope' store') scope store) :
    (first >>= next).Nears rely stop calm post scope store := by
  apply Prog.Approaches.bind (stays scope holds)
  apply Prog.Withstands.mono stands (fun _ _ moved => moved)
  rintro ⟨outcome, scope'⟩ store' ends
  cases outcome with
  | ok value => exact ends value rfl
  | err error => exact .ret _ _
  | panic => exact .ret _ _

/-- What is read first is read in a store in `calm`. -/
theorem nears_silentGet {post : Outcome SessionErr β → Scope U → Redis → Prop} {field : Str}
    {next : Except SessionErr Str → SessionM U β}
    (passes : ¬stop (.hget scope.session.key field))
    (absent : ∀ store', calm store' → (store'.fields scope.session.key)[field]? = none →
      (next (.error (.redis .nil))).Nears rely stop calm post scope store')
    (present : ∀ store' value, calm store' →
      (store'.fields scope.session.key)[field]? = some value →
      (next (.ok value)).Nears rely stop calm post scope store') :
    ((silentGet field).attempt >>= next).Nears rely stop calm post scope store := by
  refine .call (fun _ _ _ stops => absurd stops passes) fun store' _ here _ => ?_
  have reply : (Redis.answer (.hget scope.session.key field) store').1 =
      .ok (store'.fields scope.session.key)[field]? := rfl
  rw [reply]
  cases found : (store'.fields scope.session.key)[field]? with
  | none => exact absent store' here found
  | some value => exact present store' value here found

end SessionM

/-- Every hash is as it was, or gone. -/
def Redis.Wanes (store store' : Redis) : Prop :=
  ∀ key, store'.fields key = ∅ ∨ store'.fields key = store.fields key

theorem Redis.Wanes.refl (store : Redis) : store.Wanes store := fun _ => Or.inr rfl

theorem Redis.Wanes.trans (first second third : Redis) (one : first.Wanes second)
    (two : second.Wanes third) : first.Wanes third := by
  intro key
  rcases two key with gone | same
  · exact Or.inl gone
  · rcases one key with gone | same'
    · exact Or.inl (same.trans gone)
    · exact Or.inr (same.trans same')

/-- A command that changes no hash but by removing it. -/
def Cmd.Wanes : Cmd → Prop
  | hset .. | hdel .. | hmset .. => False
  | expire (.session _) seconds => seconds ≠ 0
  | _ => True

theorem Cmd.SparesHashes.wanes {command : Cmd} (spares : command.SparesHashes) :
    command.Wanes := by
  cases command with
  | hset | hdel | hmset => exact spares.elim
  | expire target seconds =>
      cases target with
      | session name => exact spares.elim
      | user name => trivial
  | _ => trivial

theorem Cmd.ReadsAll.wanes {command : Cmd} (reads : command.ReadsAll) : command.Wanes := by
  cases command with
  | hgetall => trivial
  | _ => exact reads.elim

/-- A command that leaves the hashes and does not read a whole one. -/
def Cmd.Waits (command : Cmd) : Prop := command.Wanes ∧ ¬command.ReadsAll

theorem Cmd.Mild.waits {command : Cmd} (mild : command.Mild) : command.Waits :=
  ⟨mild.spares.wanes, mild.not_readsAll⟩

theorem wanes_after {command : Cmd} (wanes : command.Wanes) (store : Redis) :
    store.Wanes (store.after command) := by
  intro key
  cases command with
  | hset | hdel | hmset => exact wanes.elim
  | expire target seconds =>
      cases target with
      | session name =>
          have lasts : seconds ≠ 0 := wanes
          simp [Redis.after, lasts]
      | user name => simp [Redis.after]
  | del name =>
      by_cases same : key = name
      · simp [Redis.after, same]
      · simp [Redis.after, same]
  | _ => exact Or.inr (by simp [Redis.after])

/-- Only `DEL` removes a hash. -/
theorem fields_after {command : Cmd} (wanes : command.Wanes) {key : Str}
    (other : command ≠ .del key) (store : Redis) :
    (store.after command).fields key = store.fields key := by
  cases command with
  | hset | hdel | hmset => exact wanes.elim
  | expire target seconds =>
      cases target with
      | session name =>
          have lasts : seconds ≠ 0 := wanes
          simp [Redis.after, lasts]
      | user name => simp [Redis.after]
  | del name =>
      have apart : key ≠ name := fun same => other (by rw [same])
      simp [Redis.after, apart]
  | _ => simp [Redis.after]

end Dce.Session
