import Dce.App.Access
import Dce.Lib.Pool

/-!
# Requests that are served at the same time

The application serves any number of requests on one store. They send their
commands in any order, some of which fail, connections are closed in the middle
of a request, and time passes.
-/

namespace Dce.App

open Session

/-- A request, and how it ended. -/
abbrev Served := HttpRequest × Outcome SessionErr Reply

/-- The store, with what decides which commands fail, and the requests that are served. -/
abbrev Application := Pool Cmd Cmd.Reply Served (Redis × (Nat → Bool))

/-- What happens next. -/
inductive Event where
  | receive (index : Nat) (request : HttpRequest)
  | send (index : Nat)
  | drop (index : Nat)
  | pass (seconds : Nat)

section

variable [Serde Member] (connection : Bool)

def answer (request : HttpRequest) : Prog Cmd Cmd.Reply Served :=
  (serve connection request).bind fun outcome => .ret (request, outcome)

def Event.move (application : Application) :
    Event → Pool.Move Cmd Cmd.Reply Served (Redis × (Nat → Bool))
  | receive index request => .start index (answer connection request)
  | send index => .send index
  | drop index => .drop index
  | pass seconds => .change (application.state.1.tick seconds, application.state.2)

def step (application : Application) (event : Event) : Application :=
  application.step Redis.faultyAnswer (event.move connection application)

/-- Nothing is served yet. -/
def start (store : Redis) (faults : Nat → Bool) : Application where
  state := (store, faults)
  running _ := none
  returned := []

/-- The sid that is received is that of a header value. -/
def Event.Readable : Event → Prop
  | receive _ request => request.Readable
  | _ => True

variable {connection} {application : Application}

/-- A request panics just if there is no connection for it, in whatever order the commands of all
requests are sent and whichever fail, if the store names no successor that cannot be read to begin
with. -/
theorem panics_iff_of_reachable
    (reached : Reachable (step connection) (fun _ event => event.Readable)
      (fun application => ∃ store faults, store.Marked ∧ application = start store faults)
      application) :
    ∀ served ∈ application.returned, served.2 = .panic ↔ served.1.Unconnected := by
  have safe : application.Safe Redis.faultyAnswer (fun state => state.1.Marked)
      fun served => served.2 = .panic ↔ served.1.Unconnected := by
    refine reached.invariant ?_ ?_
    · rintro _ ⟨store, faults, marked, rfl⟩
      refine ⟨⟨?_, ?_⟩, marked⟩
      · rintro _ _ ⟨⟩
      · rintro _ ⟨⟩
    · intro application event safe readable
      refine safe.step ?_
      cases event with
      | receive index request =>
          exact Prog.Keeps.bind (Prog.Keeps.mono (keeps_serve readable) fun _ panics => panics)
      | send index => trivial
      | drop index => trivial
      | pass seconds => exact fun marked => marked.tick seconds
  exact safe.returned

end

/-- A request without a body for a page. -/
def visit (page : Page) (sid : Str) (digit : Fin 16) : HttpRequest where
  page
  sid := some sid
  connects := true
  query := none
  data := .ok ⟨none, none⟩
  newEnv := .uniform digit 0x70000000 0x70000000
  renewEnv := .uniform digit 0x70000000 0x70000000
  loginEnv := .uniform digit 0x70000000 0x70000000

def loginAs (name : Str) (sid : Str) (digit : Fin 16) : HttpRequest :=
  { visit .login sid digit with data := .ok ⟨some name, none⟩ }

/-- The sid that a request with this digit generates. -/
def sidOf (digit : Fin 16) : Str := (Meta.genId (.uniform digit 0x70000000 0x70000000) 60).1

/-- A login and a visit that is admitted before the login ends, and one without a connection. -/
def jointRequests : List Event :=
  [.receive 0 (visit .profile (sidOf 1) 2), .receive 1 (loginAs "dce".toList (sidOf 0) 1),
    .receive 2 { visit .index (sidOf 0) 2 with connects := false }, .send 2,
    .send 1, .send 1, .send 1, .send 0, .send 1, .send 1, .send 0, .send 1, .send 0, .send 1,
    .send 1, .send 0, .send 0, .pass 60, .send 1]

theorem panics_iff_of_jointRequests :
    let application := jointRequests.foldl (step false) (start Redis.empty fun _ => false)
    application.returned.length = 3 ∧
      ∀ served ∈ application.returned, served.2 = .panic ↔ served.1.Unconnected := by
  have initial : Reachable (step false) (fun _ event => event.Readable)
      (fun application => ∃ store faults, store.Marked ∧ application = start store faults)
      (start Redis.empty fun _ => false) := .start ⟨_, _, .empty, rfl⟩
  have readable (digit : Fin 16) (oneByte : (sidOf digit).all (fun c => c.utf8Size == 1) = true) :
      ∀ c ∈ sidOf digit, c.utf8Size = 1 := by
    simpa only [List.all_eq_true, beq_iff_eq] using oneByte
  have reached := initial.run jointRequests (by
    refine ⟨?_, ?_, ?_, ?_⟩
    · rintro _ ⟨⟩
      exact readable 1 (by decide +kernel)
    · rintro _ ⟨⟩
      exact readable 0 (by decide +kernel)
    · rintro _ ⟨⟩
      exact readable 0 (by decide +kernel)
    · repeat' constructor)
  exact ⟨by decide +kernel, panics_iff_of_reachable reached⟩

section

variable [Serde Member] {connection : Bool} {application : Application}

/-- A request that its controller is not reached for: it is refused, unless it has no session. -/
def TurnedAway (request : HttpRequest) (outcome : Outcome SessionErr Reply) : Prop :=
  match request.session with
  | .ok _ => Refused outcome
  | .err error => outcome = .ok ⟨.error (.session error), none⟩
  | .panic => outcome = .panic

/-- A private page is refused to a session as long as the store holds no user for it with a role
that the page needs, whatever else is served at the same time. -/
theorem refused_of_reachable {page : Page} {sid : Str} (needs : page.isPrivate = true)
    (reached : Reachable (step connection)
      (fun application _ => ¬Admitted page sid application.state.1)
      (fun application => ∃ store faults, application = start store faults) application) :
    ∀ served ∈ application.returned, served.1.page = page → served.1.sid = some sid →
      TurnedAway served.1 served.2 := by
  let hidden (served : Served) : Prop := served.1.page = page → served.1.sid = some sid →
    TurnedAway served.1 served.2
  have assuming (request : HttpRequest) : (answer connection request).Assumes Redis.faultyAnswer
      (fun state => ¬Admitted page sid state.1) hidden := by
    by_cases concerned : request.page = page ∧ request.sid = some sid
    · rcases concerned with ⟨rfl, given⟩
      rw [answer]
      cases opened : request.session with
      | ok session =>
          have own : session.info.sid = sid := by
            have made := (session_eq_ok.mp opened).1
            rw [HttpRequest.opened, given] at made
            exact newWithId_sid made
          rw [← own]
          refine Prog.Keeps.assumes (Prog.Keeps.bind
            (Prog.Keeps.mono (keeps_unadmitted opened needs) ?_))
          intro outcome refused _ _
          rw [TurnedAway, opened]
          exact refused
      | err error =>
          rw [serve, opened]
          intro _ _
          rw [TurnedAway, opened]
      | panic =>
          rw [serve, opened]
          intro _ _
          rw [TurnedAway, opened]
    · exact Prog.Assumes.of_forall (fun _ same given => absurd ⟨same, given⟩ concerned) _
  have holds : application.Holds (Prog.Assumes Redis.faultyAnswer
      (fun state => ¬Admitted page sid state.1) hidden) hidden := by
    refine reached.invariant ?_ ?_
    · rintro _ ⟨store, faults, rfl⟩
      constructor
      · rintro _ _ ⟨⟩
      · rintro _ ⟨⟩
    · intro application event holds unadmitted
      refine holds.within ⟨unadmitted, ?_⟩
      intro index program started
      cases event with
      | receive index' request =>
          cases started
          exact assuming request
      | send index => cases started
      | drop index => cases started
      | pass seconds => cases started
  exact holds.returned

end

/-- A member of the first role, who asks for the page of the second. -/
def refusedRequests : List Event :=
  [.receive 0 (loginAs "drunk".toList (sidOf 0) 1)] ++ List.replicate 7 (.send 0) ++
    [.receive 1 (visit .user (sidOf 1) 2), .send 1, .send 0, .send 1, .send 0]

theorem refused_of_refusedRequests :
    let application := refusedRequests.foldl (step false) (start Redis.empty fun _ => false)
    (∃ served ∈ application.returned, served.1.page = .user ∧
      served.1.sid = some (sidOf 1)) ∧
      ∀ served ∈ application.returned, served.1.page = .user →
        served.1.sid = some (sidOf 1) →
        TurnedAway served.1 served.2 := by
  have initial : Reachable (step false)
      (fun application _ => ¬Admitted .user (sidOf 1) application.state.1)
      (fun application => ∃ store faults, application = start store faults)
      (start Redis.empty fun _ => false) := .start ⟨_, _, rfl⟩
  exact ⟨by decide +kernel,
    refused_of_reachable rfl (initial.run refusedRequests (by decide +kernel))⟩

end Dce.App
