import Dce.App.Session
import Dce.Session.Codec
import Dce.Session.Markers

/-!
# Access to the pages

A private page is refused as long as the session holds no user with one of the
roles, and a controller never misses the user that was asked for the role before,
although the session is renewed in between and commands fail.
-/

namespace Dce.App

open Session Session.SessionM Session.RedisSession

-- the arithmetic of the clock is not to be evaluated
attribute [local irreducible] AutoRenew.secondsFromRenew

theorem len_of_oneByte {text : Str} (oneByte : ∀ c ∈ text, c.utf8Size = 1) :
    Text.len text = text.length := by
  induction text with
  | nil => rfl
  | cons c text ih =>
      have later := ih fun c mem => oneByte c (List.mem_cons_of_mem _ mem)
      simp [Text.len, oneByte c] at later ⊢
      omega

theorem parseSid_returns_of_oneByte {sid : Str} (oneByte : ∀ c ∈ sid, c.utf8Size = 1) :
    (Meta.parseSid sid).Returns := by
  rw [Meta.parseSid_returns_iff]
  by_cases short : Text.len sid < Meta.minSidLen
  · exact Or.inl short
  · right
    have long : 76 ≤ sid.length := by
      rw [len_of_oneByte oneByte, Meta.minSidLen] at short
      omega
    refine ⟨sid.take 64, (sid.drop 64).take 4, sid.drop 68, ?_, ?_, ?_⟩
    · rw [List.append_assoc, show 68 = 64 + 4 from rfl, ← List.drop_drop, List.take_append_drop,
        List.take_append_drop]
    · rw [len_of_oneByte fun c mem => oneByte c (List.mem_of_mem_take mem), List.length_take]
      omega
    · rw [len_of_oneByte fun c mem =>
        oneByte c (List.mem_of_mem_drop (List.mem_of_mem_take mem))]
      rw [List.length_take, List.length_drop]
      omega

variable [Serde Member] {α β : Type} {connection : Bool} {request : HttpRequest}

/-- A session that was opened for a request. -/
structure Opened (session : RedisSession Member) : Prop where
  key : session.key = sessionKey session.info.sid
  userField : session.userMeta.userField = defaultUserField
  tryLoaded : session.userMeta.tryLoaded = false
  user : session.userMeta.user = none

omit [Serde Member] in
theorem session_eq_ok {session : RedisSession Member} :
    request.session = .ok session ↔ request.opened = .ok session ∧ request.connects = true := by
  rw [HttpRequest.session]
  cases request.opened <;> cases request.connects <;> simp

omit [Serde Member] in
theorem opened_of_session {session : RedisSession Member} (opened : request.session = .ok session) :
    Opened session := by
  replace opened := (session_eq_ok.mp opened).1
  rw [HttpRequest.opened] at opened
  split at opened
  · rcases Outcome.bind_eq_ok.mp opened with ⟨info, parsed, rest⟩
    rcases Outcome.bind_eq_ok.mp parsed with ⟨times, _, made⟩
    cases made
    cases rest
    exact ⟨rfl, rfl, rfl, rfl⟩
  · cases opened
    exact ⟨rfl, rfl, rfl, rfl⟩

/-- The store holds a user with a role that the page needs, in the session with this sid. -/
def Admitted (page : Page) (sid : Str) (store : Redis) : Prop :=
  ∃ member : Member, store.userAt Member sid = some member ∧ member.roleId ∈ page.rolesNeeds

instance Admitted.decidable {page : Page} {sid : Str} {store : Redis} :
    Decidable (Admitted page sid store) :=
  decidable_of_iff (∃ member ∈ store.userAt Member sid, member.roleId ∈ page.rolesNeeds) (by
    simp [Admitted])

/-- What a visitor is refused with. -/
def refusals : List DceErr := [unauthorized, forbidden]

/-- A response that refuses, and tells no sid. -/
def Refused (outcome : Outcome SessionErr Reply) : Prop :=
  ∃ error ∈ refusals, outcome = .ok ⟨.error (.told error), none⟩

/-- The user that an opened session reads is the one that the store holds. -/
theorem keeps_user {session : RedisSession Member} (opened : Opened session)
    (invariant : Redis → Prop) (told : Member → Prop)
    (tells : ∀ store member, invariant store →
      store.userAt Member session.info.sid = some member → told member) :
    ((user : SessionM Member _) ⟨session, none⟩).Keeps Redis.faultyAnswer
      (fun state => invariant state.1)
      fun final => ∃ user, final.1 = .ok user ∧ ∀ member,
        user = some member → told member := by
  rcases session with
    ⟨⟨info, ⟨keyPrefix, userField, tryLoaded, cached⟩, connMeta⟩, cloned⟩
  rcases opened with ⟨key, rfl, rfl, rfl⟩
  let scope : Scope Member :=
    ⟨⟨⟨info, ⟨keyPrefix, defaultUserField, false, none⟩, connMeta⟩, cloned⟩, none⟩
  have loading : (attempt (silentGet defaultUserField) scope).Keeps Redis.faultyAnswer
      (fun state => invariant state.1) fun final => ∃ json, final = (.ok json, scope) ∧
        ∀ member, json.toOption.bind Serde.fromJson = some member → told member := by
    rintro ⟨store, faults⟩ holds
    simp only [Redis.faultyAnswer]
    split
    · exact ⟨holds, _, rfl, by rintro _ ⟨⟩⟩
    · refine ⟨holds, ?_⟩
      dsimp only [Redis.value]
      generalize held : (store.fields (Core.key _))[defaultUserField]? = value
      cases value with
      | none => exact ⟨_, rfl, by rintro _ ⟨⟩⟩
      | some text =>
          refine ⟨_, rfl, fun member reads => tells store member holds ?_⟩
          rw [Redis.userAt, ← key]
          exact Option.bind_eq_some_iff.mpr ⟨text, held, reads⟩
  refine Prog.Keeps.bind ?_
  dsimp only [self, Prog.Keeps]
  rw [if_neg (by simp)]
  refine Prog.Keeps.bind (Prog.Keeps.mono loading ?_)
  rintro _ ⟨json, rfl, reads⟩
  dsimp only
  cases read : (json.toOption.bind Serde.fromJson : Option Member) with
  | none => exact ⟨none, rfl, by rintro _ ⟨⟩⟩
  | some member =>
      refine ⟨some member, rfl, ?_⟩
      rintro _ ⟨⟩
      exact reads member read

theorem keeps_valid {session : RedisSession Member} (opened : Opened session)
    {page : Page} (needs : page.isPrivate = true) :
    (valid page ⟨session, none⟩).Keeps Redis.faultyAnswer
      (fun state => ¬Admitted page session.info.sid state.1) fun final =>
        ∃ error ∈ refusals, final.1 = .ok (.error error) := by
  rw [valid, if_pos needs]
  have unneeded := keeps_user opened (fun store => ¬Admitted page session.info.sid store)
    (fun member => member.roleId ∉ page.rolesNeeds)
    fun store member unadmitted held role => unadmitted ⟨member, held, role⟩
  refine Prog.Keeps.bind (Prog.Keeps.mono unneeded ?_)
  rintro ⟨_, scope⟩ ⟨user, rfl, told⟩
  cases user with
  | none => exact ⟨unauthorized, by simp [refusals], rfl⟩
  | some member =>
      have missing : page.rolesNeeds.contains member.roleId = false := by
        simpa using told member rfl
      refine ⟨forbidden, by simp [refusals], ?_⟩
      change Outcome.ok (if page.rolesNeeds.contains member.roleId then Except.ok ()
        else .error forbidden) = _
      rw [missing]
      rfl

/-- A private page is refused as long as the session of the request holds no user with a role that
the page needs, whatever else happens to the store. -/
theorem keeps_unadmitted {session : RedisSession Member} (opened : request.session = .ok session)
    (needs : request.page.isPrivate = true) :
    (serve connection request).Keeps Redis.faultyAnswer
      (fun state => ¬Admitted request.page session.info.sid state.1) Refused := by
  rw [serve, opened]
  -- the response, what comes before the controller as an attempt, and the check in it
  refine Prog.Keeps.bind (Prog.Keeps.bind (Prog.Keeps.bind (Prog.Keeps.bind ?_)))
  refine Prog.Keeps.mono (keeps_valid (opened_of_session opened) needs) ?_
  rintro ⟨_, scope⟩ ⟨error, refuses, rfl⟩
  exact ⟨error, refuses, rfl⟩

/-- The sid of a request, as a header value has it, and the session that it opens. -/
def HttpRequest.Readable (request : HttpRequest) : Prop :=
  ∀ sid, request.sid = some sid → ∀ c ∈ sid, c.utf8Size = 1

omit [Serde Member] in
/-- Opening the session does not panic. -/
theorem opened_returns (readable : request.Readable) : request.opened.Returns := by
  rw [HttpRequest.opened]
  split
  · rename_i sid given
    have returns := parseSid_returns_of_oneByte (readable sid given)
    rw [newWithId, Meta.newWithSid]
    cases parsed : Meta.parseSid sid with
    | ok times => rintro ⟨⟩
    | err error => rintro ⟨⟩
    | panic => exact absurd parsed returns
  · rintro ⟨⟩

/-- The sid of the request can be used, but there is no connection for its session. -/
def HttpRequest.Unconnected (request : HttpRequest) : Prop :=
  (∃ session, request.opened = .ok session) ∧ request.connects = false

omit [Serde Member] in
theorem session_eq_panic (readable : request.Readable) :
    request.session = .panic ↔ request.Unconnected := by
  have returns := opened_returns readable
  rw [HttpRequest.session, HttpRequest.Unconnected]
  cases opened : request.opened with
  | ok session => cases request.connects <;> simp
  | err error => simp
  | panic => exact absurd opened returns

omit [Serde Member] in
theorem ready_of_session {session : RedisSession Member} (opened : request.session = .ok session) :
    Scope.Ready False ⟨session, none⟩ := by
  replace opened := (session_eq_ok.mp opened).1
  rw [HttpRequest.opened] at opened
  split at opened
  · rename_i sid given
    rcases Outcome.bind_eq_ok.mp opened with ⟨info, parsed, rest⟩
    rcases Outcome.bind_eq_ok.mp parsed with ⟨times, parsed', made⟩
    cases made
    cases rest
    refine ⟨?_, rfl, rfl, False.elim⟩
    rw [parsed']
    rintro ⟨⟩
  · cases opened
    exact ⟨Meta.parseSid_genId_returns _ _, rfl, rfl, False.elim⟩

theorem serves_valid (page : Page) :
    (valid page).Serves False (Scope.Ready False) fun result scope =>
      scope.Ready False ∧ (result = .ok () → scope.Ready (page.isPrivate = true)) := by
  rw [valid]
  split
  · refine secures_bind serves_user fun user => ?_
    cases user with
    | none =>
        refine (secures_pure (fun _ holds => holds.1) _).mono (fun _ holds => holds) ?_
        rintro _ scope ⟨⟨ready, _⟩, rfl⟩
        exact ⟨ready, by rintro ⟨⟩⟩
    | some user =>
        refine (secures_pure (fun _ holds => holds.1) _).mono (fun _ holds => holds) ?_
        rintro _ scope ⟨⟨ready, cached⟩, rfl⟩
        exact ⟨ready, fun _ =>
          ⟨ready.sid, ready.userField, ready.root, fun _ => by rw [cached]; rfl⟩⟩
  · rename_i unneeded
    refine (secures_pure (fun _ holds => holds) _).mono (fun _ holds => holds) ?_
    rintro _ scope ⟨ready, rfl⟩
    exact ⟨ready, fun _ =>
      ⟨ready.sid, ready.userField, ready.root, fun needs => absurd needs unneeded⟩⟩

theorem steady_renewal (acting : Prop) : (renewal connection request).Steady acting := by
  rw [renewal]
  split
  · exact steady_logIn none none
  · split
    · exact abides_pure false
    · have default : conf.newSidField = defaultNewSidField := rfl
      exact steady_tryRenew default

/-- The user that a controller unwraps is there. -/
theorem serves_unwrapped {acting : Prop} (acts : acting) {next : Member → SessionM Member β}
    (later : ∀ member, (next member).Steady acting) :
    (do
      let user ← user
      let member ← unwrap user
      next member).Steady acting := by
  refine secures_bind serves_user fun user => ?_
  cases user with
  | some member =>
      exact (abides_bind (abides_pure member) later).mono (fun _ holds => holds.1)
        fun _ _ ends => ends
  | none =>
      intro scope holds
      have there := holds.1.user acts
      rw [holds.2] at there
      cases there

/-- A controller does not miss the user that was asked for its role before. -/
theorem steady_controller :
    (controller connection request).Steady (request.page.isPrivate = true) := by
  rw [controller]
  split
  · exact abides_pure _
  · rw [login]
    split
    · exact abides_pure _
    · split
      · exact abides_pure _
      · split
        · exact abides_pure _
        · exact abides_bind (steady_logIn _ _) fun _ => abides_self fun _ _ => abides_pure _
  · rename_i page
    exact serves_unwrapped (by rw [page]; rfl) fun _ => abides_pure _
  · rename_i page
    rw [modify]
    split
    · exact abides_pure _
    · split
      · exact abides_pure _
      · refine serves_unwrapped (by rw [page]; rfl) fun _ => ?_
        exact abides_bind (steady_sync _) fun _ => abides_pure _
  · rename_i page
    exact serves_unwrapped (by rw [page]; rfl) fun _ => abides_pure _

theorem serves_beforeController :
    (beforeController connection request).Serves False (Scope.Ready False) fun result scope =>
      scope.Ready False ∧
        ∀ respSid, result = .ok respSid → scope.Ready (request.page.isPrivate = true) := by
  refine secures_bind (serves_valid request.page) fun result => ?_
  cases result with
  | error error =>
      refine (secures_pure (fun _ holds => holds.1) _).mono (fun _ holds => holds) ?_
      rintro _ scope ⟨⟨ready, _⟩, rfl⟩
      exact ⟨ready, by rintro _ ⟨⟩⟩
  | ok passed =>
      have renewing : (do
          let renewed ← renewal connection request
          let session ← self
          return .ok (if renewed then some session.info.sid else none) :
          SessionM Member (Except DceErr (Option Str))).Steady (request.page.isPrivate = true) :=
        abides_bind (steady_renewal _) fun _ => abides_self fun _ _ => abides_pure _
      refine Secures.mono (renewing.keeping fun _ => Scope.Ready.calm) ?_ ?_
      · exact fun scope holds => holds.2 rfl
      · exact fun _ scope ready => ⟨ready.calm, fun _ _ => ready⟩

theorem steady_respond : (respond connection request).Steady False := by
  have told (reply : Reply) {pre : Scope Member → Prop}
      (ready : ∀ scope, pre scope → scope.Ready False) :
      (pure reply : SessionM Member Reply).Serves False pre fun _ scope => scope.Ready False :=
    (secures_pure ready reply).mono (fun _ holds => holds) fun _ scope ends => ready scope ends.1
  refine secures_bind (secures_attempt serves_beforeController) fun result => ?_
  rcases result with error | error | respSid
  · exact told _ fun _ holds => holds.1
  · exact told _ fun _ holds => holds.1
  · have controlling : (do
        let packed ← attempt (controller connection request)
        return replyOf respSid packed :
        SessionM Member Reply).Steady (request.page.isPrivate = true) :=
      abides_bind (abides_attempt steady_controller) fun _ => abides_pure _
    refine Secures.mono (controlling.keeping fun _ => Scope.Ready.calm) ?_ ?_
    · exact fun scope holds => (holds.2 _ rfl).2 _ rfl
    · exact fun _ scope ready => ready.calm

/-- A request whose sid can be read panics only for want of a connection, if all markers in the
store can be read, and leaves them so. -/
theorem keeps_serve (readable : request.Readable) :
    (serve connection request).Keeps Redis.faultyAnswer (fun state => state.1.Marked)
      fun outcome => outcome = .panic ↔ request.Unconnected := by
  have unconnected := session_eq_panic readable
  rw [serve]
  split
  · rename_i session opened
    rw [opened] at unconnected
    refine Prog.Keeps.bind (Prog.Keeps.mono (steady_respond _ (ready_of_session opened)) ?_)
    rintro ⟨outcome, scope⟩ ⟨_, returns, _⟩
    refine iff_of_false returns ?_
    rw [← unconnected]
    rintro ⟨⟩
  · rename_i opened
    rw [opened] at unconnected
    rw [← unconnected]
    exact iff_of_false (by rintro ⟨⟩) (by rintro ⟨⟩)
  · rename_i panics
    exact iff_of_true rfl (unconnected.mp panics)

end Dce.App
