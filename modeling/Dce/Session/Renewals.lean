import Dce.Lib.Runs
import Dce.Session.Successor

/-!
# Renewals of one session

Any number of requests that present the same sid call `try_renew`, and send their
commands in any order. A call that has read all the fields of the session must
not meet another one that has, or may.
-/

namespace Dce.Session

open SessionM

variable {U ι : Type}

/-- A call on its way: what it has sent, and what it is still to do. -/
structure Renewal (U : Type) where
  sent : List Cmd
  rest : Prog Cmd Cmd.Reply (Outcome SessionErr Bool × Scope U)

/-- The store with the calls that work on it. -/
structure Renewals (U ι : Type) where
  store : Redis
  calls : ι → Renewal U

/-- What happens next: a call sends a command, or seconds pass. -/
inductive Turn (ι : Type) where
  | send (call : ι)
  | pass (seconds : Nat)

/-- The object that a request makes of the sid, and what its call reads from its surroundings. -/
structure Visit (U : Type) where
  scope : Scope U
  env : Env

namespace Renewal

def Began (call : Renewal U) : Prop := call.sent ≠ []

def Done (call : Renewal U) : Prop := ∃ final, call.rest = .ret final

instance (call : Renewal U) : Decidable call.Done :=
  match next : call.rest with
  | .ret final => isTrue ⟨final, next⟩
  | .call _ _ => isFalse fun ⟨_, done⟩ => by rw [next] at done; cases done

/-- The next command removes a hash. -/
def deletes (call : Renewal U) : Bool :=
  match call.rest with
  | .call (.del _) _ => true
  | _ => false

/-- The call has read all the fields of a session and is not done. -/
def Copying (call : Renewal U) : Prop :=
    (∃ command ∈ call.sent, command.ReadsAll) ∧ ¬call.Done

/-- The call may still read all the fields of a session. -/
def MayCopy (call : Renewal U) : Prop :=
  call.Began ∧ ¬call.rest.Sends (fun command => ¬command.ReadsAll) fun _ => True

/-- The call at its next command, and the store after that. -/
def step (call : Renewal U) (store : Redis) : Renewal U × Redis :=
  match call.rest with
  | .ret _ => (call, store)
  | .call command rest =>
      let (reply, store) := Redis.answer command store
      ({ sent := call.sent ++ [command], rest := rest reply }, store)

end Renewal

namespace Renewals

def Done (state : Renewals U ι) : Prop := ∀ request, (state.calls request).Done

/-- While one call copies, no other copies or may. -/
def Apart (state : Renewals U ι) : Prop :=
  ∀ request other, request ≠ other → (state.calls request).Copying →
    ¬(state.calls other).Copying ∧ ¬(state.calls other).MayCopy

/-- No hash goes when the seconds pass. -/
def Lasting (state : Renewals U ι) (seconds : Nat) : Prop :=
  ∀ key, (state.store.tick seconds).fields key = state.store.fields key

variable [DecidableEq ι]

def step (state : Renewals U ι) : Turn ι → Renewals U ι
  | .send request =>
      let (call, store) := (state.calls request).step state.store
      { store, calls := Function.update state.calls request call }
  | .pass seconds => { state with store := state.store.tick seconds }

end Renewals

namespace AutoRenew

variable [UidGetter U] [Serde U] (conf : AutoRenew) (connection : Bool)

def program (request : Visit U) : Prog Cmd Cmd.Reply (Outcome SessionErr Bool × Scope U) :=
  conf.tryRenew connection request.env request.scope

/-- Every request is about to call `try_renew`. -/
def calling (requests : ι → Visit U) (store : Redis) : Renewals U ι where
  store
  calls request := { sent := [], rest := conf.program connection (requests request) }

/-- The call does not give up the session while that names one which was created. -/
def LosesNone (sidName sid : Str) (start store : Redis) (call : Renewal U) : Prop :=
  ∀ rest, call.rest = .call (.del (genKey sidName sid)) rest →
    ∀ key, start.Created (genKey sidName sid) store key → ¬conf.Names sidName sid store key

variable [DecidableEq ι]

/-- Calls that copy stay apart, none gives up the session for a copy of theirs, and no hash
expires. -/
def KeepsApart (sidName sid : Str) (start : Redis) (state : Renewals U ι)
    (turn : Turn ι) : Prop :=
  match turn with
  | .send request => (state.step (.send request)).Apart ∧
      conf.LosesNone sidName sid start state.store (state.calls request)
  | .pass seconds => state.Lasting seconds

end AutoRenew

section

variable {conf : AutoRenew} {sidName sid : Str} {start store store' : Redis} {call : Renewal U}
  {program : Prog Cmd Cmd.Reply (Outcome SessionErr Bool × Scope U)}

/-- A program that may have to read all the fields, and names its copy then. -/
abbrev AutoRenew.Nears (conf : AutoRenew) (sidName sid : Str) (start : Redis)
    (rest : Prog Cmd Cmd.Reply (Outcome SessionErr Bool × Scope U)) (store : Redis) : Prop :=
  rest.Approaches Redis.answer Redis.Wanes Cmd.ReadsAll (conf.OneSuccessor sidName sid start)
    (fun _ => conf.OneSuccessor sidName sid start) store

/-- A program that has read all the fields, and names its copy at the end. -/
abbrev AutoRenew.Stands (conf : AutoRenew) (sidName sid : Str) (start : Redis)
    (rest : Prog Cmd Cmd.Reply (Outcome SessionErr Bool × Scope U)) (store : Redis) : Prop :=
  rest.Withstands Redis.answer Redis.Wanes (fun _ => conf.OneSuccessor sidName sid start) store

/-- A call while none copies. -/
inductive Renewal.Free (conf : AutoRenew) (sidName sid : Str) (start store : Redis)
    (program : Prog Cmd Cmd.Reply (Outcome SessionErr Bool × Scope U)) (call : Renewal U) :
    Prop where
  | waiting (sent : call.sent = []) (rest : call.rest = program)
  | began (began : call.Began) (unread : ∀ command ∈ call.sent, ¬command.ReadsAll)
      (waits : call.rest.SendsUntil Cmd.ReadsAll Cmd.Waits)
      (nears : conf.Nears sidName sid start call.rest store)
  | done (done : call.Done)

/-- A call while another one copies. -/
inductive Renewal.Idle (program : Prog Cmd Cmd.Reply (Outcome SessionErr Bool × Scope U))
    (call : Renewal U) : Prop where
  | waiting (sent : call.sent = []) (rest : call.rest = program)
  | began (began : call.Began) (unread : ∀ command ∈ call.sent, ¬command.ReadsAll)
      (waits : call.rest.Sends Cmd.Waits fun _ => True)
  | done (done : call.Done)

namespace Renewal

theorem silent_of_not_mayCopy (began : call.Began) (not : ¬call.MayCopy) :
    call.rest.Sends (fun command => ¬command.ReadsAll) fun _ => True := by
  by_contra reads
  exact not ⟨began, reads⟩

/-- A call that may not copy leaves the hashes to the one that does. -/
theorem Free.idle (free : call.Free conf sidName sid start store program) (not : ¬call.MayCopy) :
    call.Idle program := by
  cases free with
  | waiting sent rest => exact .waiting sent rest
  | done done => exact .done done
  | began began unread waits nears =>
      have silent := silent_of_not_mayCopy began not
      exact .began began unread (Prog.Sends.mono (waits.sends silent) (fun _ both => both.1)
        fun _ _ => trivial)

theorem Idle.free (idle : call.Idle program) (conf : AutoRenew) (sidName sid : Str)
    (start store : Redis) : call.Free conf sidName sid start store program := by
  cases idle with
  | waiting sent rest => exact .waiting sent rest
  | done done => exact .done done
  | began began unread waits =>
      exact .began began unread (.of_sends waits) (.of_sends
        (Prog.Sends.mono waits (fun _ waits => waits.2) fun _ _ => trivial))

theorem Free.moved (free : call.Free conf sidName sid start store program)
    (wanes : store.Wanes store') : call.Free conf sidName sid start store' program := by
  cases free with
  | waiting sent rest => exact .waiting sent rest
  | done done => exact .done done
  | began began unread waits nears =>
      exact .began began unread waits (nears.moved Redis.Wanes.trans wanes)

/-- What is left of a program that waits is left of a call that is not done. -/
theorem Free.rest (free : call.Free conf sidName sid start store program)
    (waits : program.SendsUntil Cmd.ReadsAll Cmd.Waits)
    (nears : conf.Nears sidName sid start program store) (left : ¬call.Done) :
    (∀ command ∈ call.sent, ¬command.ReadsAll) ∧
      call.rest.SendsUntil Cmd.ReadsAll Cmd.Waits ∧
        conf.Nears sidName sid start call.rest store := by
  cases free with
  | waiting sent rest =>
      rw [sent, rest]
      exact ⟨by simp, waits, nears⟩
  | began _ unread waits nears => exact ⟨unread, waits, nears⟩
  | done done => exact absurd done left

end Renewal

theorem AutoRenew.Stands.one_of_done (stands : conf.Stands sidName sid start call.rest store)
    (done : call.Done) : conf.OneSuccessor sidName sid start store := by
  rcases done with ⟨final, rest⟩
  rw [AutoRenew.Stands, rest] at stands
  exact stands

theorem unread_append {sent : List Cmd} {command : Cmd}
    (unread : ∀ command ∈ sent, ¬command.ReadsAll) (now : ¬command.ReadsAll) :
    ∀ command' ∈ sent ++ [command], ¬command'.ReadsAll := by
  intro command' mem
  rcases List.mem_append.mp mem with earlier | last
  · exact unread command' earlier
  · rw [List.mem_singleton.mp last]
    exact now

theorem AutoRenew.OneSuccessor.wanes (one : conf.OneSuccessor sidName sid start store)
    (wanes : store.Wanes store')
    (named : store'.fields (genKey sidName sid) = store.fields (genKey sidName sid)) :
    conf.OneSuccessor sidName sid start store' := by
  intro key created
  rcases created.before wanes with ⟨before, same⟩
  rw [same]
  rcases one key before with ⟨⟨newSid, marker, rfl⟩, unmarked⟩
  exact ⟨⟨newSid, by rw [named, marker], rfl⟩, unmarked⟩

/-- A command that leaves the hashes leaves the names, unless it removes them with nothing
created. -/
theorem oneSuccessor_after {command : Cmd} (waits : command.Wanes)
    (one : conf.OneSuccessor sidName sid start store)
    (loses : command = .del (genKey sidName sid) →
      ∀ key, start.Created (genKey sidName sid) store key →
        ¬conf.Names sidName sid store key) :
    conf.OneSuccessor sidName sid start (store.after command) := by
  by_cases del : command = .del (genKey sidName sid)
  · intro key created
    have before := (created.before (wanes_after waits store)).1
    exact absurd (one key before).1 (loses del key before)
  · exact one.wanes (wanes_after waits store) (fields_after waits del store)

end

section

variable {conf : AutoRenew} {sidName sid : Str} {start : Redis} {state : Renewals U ι}
  {programs : ι → Prog Cmd Cmd.Reply (Outcome SessionErr Bool × Scope U)}

/-- The calls wait with the old session naming all that was created, or one copies alone. -/
inductive Renewals.Orderly (conf : AutoRenew) (sidName sid : Str) (start : Redis)
    (programs : ι → Prog Cmd Cmd.Reply (Outcome SessionErr Bool × Scope U))
    (state : Renewals U ι) :
    Prop where
  | calm (one : conf.OneSuccessor sidName sid start state.store)
      (free : ∀ request, (state.calls request).Free conf sidName sid start state.store
        (programs request))
  | copying (owner : ι) (copying : (state.calls owner).Copying)
      (stands : conf.Stands sidName sid start (state.calls owner).rest state.store)
      (idle : ∀ request, request ≠ owner → (state.calls request).Idle (programs request))

variable [DecidableEq ι]

namespace Renewals

theorem step_done {request : ι} (done : (state.calls request).Done) :
    state.step (.send request) = state := by
  rcases done with ⟨final, rest⟩
  simp only [step, Renewal.step, rest, Function.update_eq_self]

section

variable {request : ι} {command : Cmd}
  {rest : command.Reply → Prog Cmd Cmd.Reply (Outcome SessionErr Bool × Scope U)}
  (next : (state.calls request).rest = .call command rest)

include next

omit [DecidableEq ι] in
theorem not_done : ¬(state.calls request).Done := by
  rintro ⟨final, done⟩
  rw [next] at done
  cases done

theorem store_send : (state.step (.send request)).store = state.store.after command := by
  simp only [step, Renewal.step, next, Redis.answer]

theorem calls_send : (state.step (.send request)).calls request =
    { sent := (state.calls request).sent ++ [command]
      rest := rest (.ok (state.store.value command)) } := by
  simp only [step, Renewal.step, next, Redis.answer, Function.update_self]

omit next in
theorem calls_send_other {other : ι} (different : other ≠ request) :
    (state.step (.send request)).calls other = state.calls other := by
  simp only [step, Function.update_of_ne different]

variable (waits : ∀ request, (programs request).SendsUntil Cmd.ReadsAll Cmd.Waits)
  (apart : (state.step (.send request)).Apart)

include waits apart

theorem orderly_send_calm
    (nears : ∀ request store, conf.Nears sidName sid start (programs request) store)
    (loses : conf.LosesNone sidName sid start state.store (state.calls request))
    (one : conf.OneSuccessor sidName sid start state.store)
    (free : ∀ request, (state.calls request).Free conf sidName sid start state.store
      (programs request)) :
    (state.step (.send request)).Orderly conf sidName sid start programs := by
  rcases (free request).rest (waits request) (nears request state.store) (not_done next) with
    ⟨unread, waits', nears'⟩
  rw [next] at waits' nears'
  -- the others stay as they are, in a store with fewer hashes
  have others (wanes : state.store.Wanes (state.store.after command)) (own :
        ((state.step (.send request)).calls request).Free conf sidName sid start
          (state.store.after command) (programs request)) (other : ι) :
      ((state.step (.send request)).calls other).Free conf sidName sid start
        (state.step (.send request)).store (programs other) := by
    rw [store_send next]
    by_cases same : other = request
    · rw [same]
      exact own
    · rw [calls_send_other same]
      exact (free other).moved wanes
  by_cases reads : command.ReadsAll
  · have stands : conf.Stands sidName sid start ((state.step (.send request)).calls request).rest
        (state.step (.send request)).store := by
      rw [calls_send next, store_send next]
      exact nears'.stops (Redis.Wanes.refl _) one reads
    by_cases done : ((state.step (.send request)).calls request).Done
    · exact .calm (stands.one_of_done done) (others (wanes_after reads.wanes _) (.done done))
    · have copying : ((state.step (.send request)).calls request).Copying := by
        refine ⟨⟨command, ?_, reads⟩, done⟩
        rw [calls_send next]
        exact List.mem_append_right _ List.mem_cons_self
      refine .copying request copying stands fun other different => ?_
      have quiet := (apart request other different.symm copying).2
      rw [calls_send_other different] at quiet ⊢
      exact (free other).idle quiet
  · rcases waits'.next reads with ⟨waiting, later⟩
    refine .calm ?_ (others (wanes_after waiting.1 _) ?_)
    · rw [store_send next]
      refine oneSuccessor_after waiting.1 one fun del => ?_
      subst del
      exact loses rest next
    · rw [calls_send next]
      exact .began (by simp [Renewal.Began]) (unread_append unread reads) (later _)
        (nears'.sends (Redis.Wanes.refl _) one reads)

omit waits apart in
theorem orderly_send_owner (copying : (state.calls request).Copying)
    (stands : conf.Stands sidName sid start (state.calls request).rest state.store)
    (idle : ∀ other, other ≠ request → (state.calls other).Idle (programs other)) :
    (state.step (.send request)).Orderly conf sidName sid start programs := by
  rw [next] at stands
  have here : conf.Stands sidName sid start ((state.step (.send request)).calls request).rest
      (state.step (.send request)).store := by
    rw [calls_send next, store_send next]
    exact stands state.store (Redis.Wanes.refl _)
  by_cases done : ((state.step (.send request)).calls request).Done
  · refine .calm (here.one_of_done done) fun other => ?_
    by_cases same : other = request
    · rw [same]
      exact .done done
    · rw [calls_send_other same]
      exact (idle other same).free ..
  · rcases copying with ⟨⟨read, sent, reads⟩, _⟩
    refine .copying request ⟨⟨read, ?_, reads⟩, done⟩ here fun other different => ?_
    · rw [calls_send next]
      exact List.mem_append_left _ sent
    · rw [calls_send_other different]
      exact idle other different

theorem orderly_send_other {owner : ι} (different : request ≠ owner)
    (copying : (state.calls owner).Copying)
    (stands : conf.Stands sidName sid start (state.calls owner).rest state.store)
    (idle : ∀ request, request ≠ owner → (state.calls request).Idle (programs request)) :
    (state.step (.send request)).Orderly conf sidName sid start programs := by
  have still : ((state.step (.send request)).calls owner).Copying := by
    rw [calls_send_other (Ne.symm different)]
    exact copying
  rcases apart owner request (Ne.symm different) still with ⟨alone, quiet⟩
  have after : command.Wanes ∧ ((state.step (.send request)).calls request).Idle
      (programs request) := by
    have began : ((state.step (.send request)).calls request).Began := by
      rw [calls_send next]
      simp [Renewal.Began]
    cases idle request different with
    | done done => exact absurd done (not_done next)
    | began _ unread sends =>
        rw [next] at sends
        refine ⟨sends.1.1, .began began ?_ ?_⟩
        · rw [calls_send next]
          exact unread_append unread sends.1.2
        · rw [calls_send next]
          exact sends.2 _
    | waiting sent rest' =>
        have first := waits request
        rw [← rest', next] at first
        by_cases reads : command.ReadsAll
        · refine ⟨reads.wanes, .done ?_⟩
          by_contra left
          refine alone ⟨⟨command, ?_, reads⟩, left⟩
          rw [calls_send next]
          exact List.mem_append_right _ List.mem_cons_self
        · rcases first.next reads with ⟨waiting, later⟩
          refine ⟨waiting.1, .began began ?_ ?_⟩
          · rw [calls_send next, sent]
            exact unread_append (by simp) reads
          · have silent := Renewal.silent_of_not_mayCopy began quiet
            rw [calls_send next] at silent ⊢
            exact Prog.Sends.mono ((later _).sends silent) (fun _ both => both.1)
              fun _ _ => trivial
  rcases after with ⟨wanes, idle'⟩
  refine .copying owner still ?_ fun other different' => ?_
  · rw [calls_send_other (Ne.symm different), store_send next]
    cases left : (state.calls owner).rest with
    | ret final => exact absurd ⟨final, left⟩ copying.2
    | call command' rest' =>
        rw [left] at stands
        exact stands.moved Redis.Wanes.trans (wanes_after wanes _)
  · by_cases same : other = request
    · rw [same]
      exact idle'
    · rw [calls_send_other same]
      exact idle other different'

end

/-- What is kept by each step of a run in which the calls stay apart. -/
theorem orderly_step (waits : ∀ request, (programs request).SendsUntil Cmd.ReadsAll Cmd.Waits)
    (nears : ∀ request store, conf.Nears sidName sid start (programs request) store)
    {turn : Turn ι} (orderly : state.Orderly conf sidName sid start programs)
    (apart : conf.KeepsApart sidName sid start state turn) :
    (state.step turn).Orderly conf sidName sid start programs := by
  cases turn with
  | send request =>
      rcases apart with ⟨apart, loses⟩
      cases next : (state.calls request).rest with
      | ret final =>
          rw [step_done ⟨final, next⟩]
          exact orderly
      | call command rest =>
          cases orderly with
          | calm one free => exact orderly_send_calm next waits apart nears loses one free
          | copying owner copying stands idle =>
              by_cases own : request = owner
              · subst own
                exact orderly_send_owner next copying stands idle
              · exact orderly_send_other next waits apart own copying stands idle
  | pass seconds =>
      have wanes : state.store.Wanes (state.store.tick seconds) := fun key => Or.inr (apart key)
      cases orderly with
      | calm one free =>
          exact .calm (one.wanes wanes (apart _)) fun request => (free request).moved wanes
      | copying owner copying stands idle =>
          refine .copying owner copying ?_ idle
          cases left : (state.calls owner).rest with
          | ret final => exact absurd ⟨final, left⟩ copying.2
          | call command rest =>
              rw [left] at stands
              change conf.Stands sidName sid start (state.calls owner).rest _
              rw [left]
              exact stands.moved Redis.Wanes.trans wanes

end Renewals

end

namespace AutoRenew

variable [UidGetter U] [Serde U] [DecidableEq ι] {conf : AutoRenew} {connection : Bool}
  {sidName sid : Str} {requests : ι → Visit U} {store : Redis}

omit [DecidableEq ι] in
theorem waits_program {request : Visit U}
    (presents : conf.Presents connection sidName sid request.scope request.env) :
    (conf.program connection request).SendsUntil Cmd.ReadsAll Cmd.Waits := by
  exact until_tryRenew conf connection request.env presents.lasts

omit [DecidableEq ι] in
theorem nears_program {start : Redis} {request : Visit U}
    (presents : conf.Presents connection sidName sid request.scope request.env) (store : Redis) :
    conf.Nears sidName sid start (conf.program connection request) store := by
  exact nears_tryRenew presents

/-- Once all calls are done, the old session names what they created. -/
def RenewsOnce (conf : AutoRenew) (connection : Bool) (sidName sid : Str)
    (requests : ι → Visit U) (store : Redis) (turns : List (Turn ι)) : Prop :=
  let final := turns.foldl Renewals.step (conf.calling connection requests store)
  final.Done → conf.OneSuccessor sidName sid store final.store

/-- While a call copies, no other may copy, and the old session is not given up for a copy. -/
theorem renewsOnce_of_keepsApart
    (presents : ∀ request, conf.Presents connection sidName sid (requests request).scope
      (requests request).env)
    {turns : List (Turn ι)}
    (apart : AdmitsRun Renewals.step (conf.KeepsApart sidName sid store)
      (conf.calling connection requests store) turns) :
    conf.RenewsOnce connection sidName sid requests store turns := by
  have begins : (conf.calling connection requests store).Orderly conf sidName sid store
      fun request => conf.program connection (requests request) := by
    refine .calm ?_ fun request => .waiting rfl rfl
    rintro key ⟨_, absent, present⟩
    exact absurd absent present
  intro done
  let final := turns.foldl Renewals.step (conf.calling connection requests store)
  have reached : Reachable Renewals.step (conf.KeepsApart sidName sid store)
      (Eq (conf.calling connection requests store)) final :=
    (Reachable.start rfl).run turns apart
  have ends : final.Orderly conf sidName sid store
      fun request => conf.program connection (requests request) := by
    refine reached.invariant ?_ fun state turn orderly apart => ?_
    · rintro _ rfl
      exact begins
    · exact Renewals.orderly_step (fun request => waits_program (presents request))
        (fun request store' => nears_program (presents request) store') orderly apart
  cases ends with
  | calm one free => exact one
  | copying owner copying => exact absurd (done owner) copying.2

end AutoRenew

/-- The call whose turn it is removes no hash, and the others have not begun or are done. -/
def Renewals.Alone (state : Renewals U ι) : Turn ι → Prop
  | .send request => (state.calls request).deletes = false ∧
      ∀ other, other = request ∨ (state.calls other).sent.isEmpty = true ∨
        (state.calls other).Done
  | .pass _ => False

instance [Fintype ι] [DecidableEq ι] (state : Renewals U ι) :
    ∀ turn, Decidable (state.Alone turn)
  | .send _ => inferInstanceAs (Decidable (_ ∧ _))
  | .pass _ => inferInstanceAs (Decidable False)

/-- Calls that come one after the other stay apart. -/
theorem Renewals.Alone.keepsApart [DecidableEq ι] {conf : AutoRenew} {sidName sid : Str}
    {start : Redis} {state : Renewals U ι} {turn : Turn ι} (alone : state.Alone turn) :
    conf.KeepsApart sidName sid start state turn := by
  cases turn with
  | pass seconds => exact alone.elim
  | send request =>
      rcases alone with ⟨leaves, alone⟩
      have apart (other : ι) (different : other ≠ request) :
          ¬((state.step (.send request)).calls other).Copying ∧
            ¬((state.step (.send request)).calls other).MayCopy := by
        rw [calls_send_other different]
        rcases (alone other).resolve_left different with unsent | done
        · rw [List.isEmpty_iff] at unsent
          refine ⟨?_, fun may => may.1 unsent⟩
          rintro ⟨⟨read, sent, _⟩, _⟩
          rw [unsent] at sent
          cases sent
        · refine ⟨fun copying => copying.2 done, fun may => may.2 ?_⟩
          rcases done with ⟨final, rest⟩
          rw [rest]
          trivial
      constructor
      · intro copier other different copying
        by_cases own : copier = request
        · exact apart other (own ▸ different.symm)
        · exact absurd copying (apart copier own).1
      · intro rest del
        simp [Renewal.deletes, del] at leaves

namespace AutoRenew

/-- A session of a visitor with a cart. -/
def visitSession : RedisSession Account := RedisSession.new (.uniform 0 0x70000000 0x70000000) 60

def visitStore : Redis := Redis.empty.hset visitSession.key "cart".toList "3".toList

/-- Two requests with the sid of the session, ten minutes after it was generated. -/
def visitRequests (request : Fin 2) : Visit Account where
  scope := ⟨visitSession, none⟩
  env := .uniform (if request = 0 then 1 else 2) 0x70000258 0x70000258

theorem visitRequests_presents (request : Fin 2) :
    AutoRenew.new.Presents false defaultIdName visitSession.info.sid (visitRequests request).scope
      (visitRequests request).env where
  sidName := rfl
  sid := rfl
  lasts := show (60 : UInt16) ≠ 0 by decide
  serverField := show defaultServerField ≠ defaultNewSidField by decide
  redirects redirecting := by cases redirecting

/-- The second request finds no successor named, and copies the session only after the first one has
named its copy. -/
def overlapping : List (Turn (Fin 2)) :=
  .send 1 :: (List.replicate 7 (.send 0) ++ List.replicate 6 (.send 1))

/-- The first copy is left, but the old session names the second. -/
theorem not_renewsOnce :
    ¬∀ (requests : Fin 2 → Visit Account) (store : Redis) (turns : List (Turn (Fin 2))),
      (∀ request, AutoRenew.new.Presents false defaultIdName visitSession.info.sid
        (requests request).scope (requests request).env) →
      AutoRenew.new.RenewsOnce false defaultIdName visitSession.info.sid requests store turns := by
  intro claim
  have one := claim visitRequests visitStore overlapping visitRequests_presents
  have done : ∀ request, ((overlapping.foldl Renewals.step
      (AutoRenew.new.calling false visitRequests visitStore)).calls request).Done := by
    decide +kernel
  have copied : ((overlapping.foldl Renewals.step
      (AutoRenew.new.calling false visitRequests visitStore)).store.fields
        (genKey defaultIdName (Meta.genId (visitRequests 0).env 60).1))["cart".toList]? =
      some "3".toList := by decide +kernel
  have marker : ((overlapping.foldl Renewals.step
      (AutoRenew.new.calling false visitRequests visitStore)).store.fields
        (genKey defaultIdName visitSession.info.sid))[defaultNewSidField]? =
      some (Meta.genId (visitRequests 1).env 60).1 := by decide +kernel
  rw [RenewsOnce] at one
  generalize overlapping.foldl Renewals.step
    (AutoRenew.new.calling false visitRequests visitStore) = final at one done copied marker
  have created : visitStore.Created (genKey defaultIdName visitSession.info.sid) final.store
      (genKey defaultIdName (Meta.genId (visitRequests 0).env 60).1) := by
    refine ⟨by decide, Std.ExtTreeMap.isEmpty_iff.mp (by decide), fun gone => ?_⟩
    rw [gone, Std.ExtTreeMap.getElem?_empty] at copied
    cases copied
  rcases (one done _ created).1 with ⟨newSid, named, same⟩
  have renamed := marker.symm.trans named
  rw [genKey_inj, ← Option.some.inj renamed] at same
  exact absurd same (by decide)

theorem renewsOnce_of_keepsApart_visit :
    AutoRenew.new.RenewsOnce false defaultIdName visitSession.info.sid visitRequests visitStore
      (List.replicate 7 (.send 0) ++ List.replicate 2 (.send 1)) := by
  have alone : AdmitsRun Renewals.step Renewals.Alone
      (AutoRenew.new.calling false visitRequests visitStore)
      (List.replicate 7 (.send 0) ++ List.replicate 2 (.send 1)) := by decide +kernel
  exact renewsOnce_of_keepsApart visitRequests_presents
    (alone.mono fun _ _ alone => alone.keepsApart)

end AutoRenew

end Dce.Session
