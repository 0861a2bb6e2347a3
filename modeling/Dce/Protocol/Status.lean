import Dce.Protocol.Hyper
import Std.Data.String.ToInt

/-!
# The status of an http reply

What the client is told of an error is written in the body by one function and
into the status line by another. The body of a closed error speaks of the code
503, and the status is left as it is; the status of any other error goes through
a cast to sixteen bits.
-/

namespace Dce

namespace DceErr

def value : DceErr → DceError
  | openly error => error
  | closed error => error

def isOpenly : DceErr → Bool
  | openly _ => true
  | closed _ => false

end DceErr

namespace Router

def headSidName : Str := "Session-Id".toList

end Router

namespace Protocol

open Router Text

/-- The status codes of the http library. -/
class StatusCode (S : Type) where
  asU16 : S → UInt16
  fromU16 : UInt16 → Option S
  ok : S
  serviceUnavailable : S
  asU16_fromU16 (code : UInt16) :
    (fromU16 code).map asU16 = if 100 ≤ code ∧ code < 1000 then some code else none
  asU16_ok : asU16 ok = 200
  asU16_serviceUnavailable : asU16 serviceUnavailable = 503

/-- The header values that the http library makes of a text. -/
class HeaderOfText (V : Type) where
  fromStr : Str → Option V

structure HttpResponse (S V : Type) where
  status : S
  headers : List (Str × V)
  body : ByteArray

/-- The cast of a signed code to sixteen bits. -/
def asU16 (code : Int) : UInt16 := .ofNat (code % 2 ^ 16).toNat

variable {S V : Type} [StatusCode S]

namespace HttpResponse

def new (body : ByteArray) : HttpResponse S V where
  status := StatusCode.ok
  headers := []
  body

/-- Set a header in the place of those of the same name. -/
def insert (resp : HttpResponse S V) (name : Str) (value : V) : HttpResponse S V where
  status := resp.status
  headers := resp.headers.filter (·.1 ≠ name) ++ [(name, value)]
  body := resp.body

end HttpResponse

namespace HyperHttpProtocol

def packResp : Serialized → HttpResponse S V
  | .string text => .new (toBytes text)
  | .bytes bytes => .new bytes

variable [HeaderOfText V]

def into (self : HyperHttpProtocol V (HttpResponse S V)) : Outcome DceErr (HttpResponse S V) :=
  let resp := match self.info.resp with
    | none => .new ByteArray.empty
    | some (.serialized serialized) => packResp serialized
    | some (.raw raw) => raw
  match self.info.respHeads[headSidName]? with
  | none => .ok resp
  | some respSid =>
      match HeaderOfText.fromStr respSid with
      | some value => .ok (resp.insert sessionHeader value)
      | none => .panic

def errInto (self : HyperHttpProtocol V (HttpResponse S V)) (error : DceErr) :
    Outcome DceErr (HttpResponse S V) :=
  let packed := packResp (.string error.toResponsible)
  into { self with info := { self.info with resp := some (.raw packed) } }

def handleResult (self : HyperHttpProtocol V (HttpResponse S V)) (result : Except DceErr Unit) :
    Outcome DceErr (Option (HttpResponse S V)) :=
  match result with
  | .ok () => do return some (← self.into)
  | .error error => do
      let code := error.value.code
      let resp ← self.errInto error
      if error.isOpenly && code < 600 then
        let status := (StatusCode.fromU16 (asU16 code)).getD StatusCode.serviceUnavailable
        return some { resp with status }
      else
        return some resp

end HyperHttpProtocol

namespace HttpResponse

/-- The body begins with a number, as an error is told of. -/
def Prints (resp : HttpResponse S V) (number : Int) : Prop :=
  ∃ message, resp.body = toBytes ((toString number).toList ++ ": ".toList ++ message)

def code (resp : HttpResponse S V) : Int := (StatusCode.asU16 resp.status).toNat

/-- The status is the number that the body begins with, if that is a status at all, and 503 for
the other numbers below 600. It is no success for a number that is none. -/
structure Agrees (resp : HttpResponse S V) (number : Int) : Prop where
  valid : 100 ≤ number → number ≤ 599 → resp.code = number
  invalid : number < 600 → ¬(100 ≤ number ∧ number ≤ 599) → resp.code = 503
  honest : number < 600 → 200 ≤ resp.code → resp.code < 300 → resp.code = number

end HttpResponse

namespace HyperHttpProtocol

variable [HeaderOfText V]

/-- The reply to an error has a status that agrees with its body. -/
def AnswersAlike (self : HyperHttpProtocol V (HttpResponse S V)) (error : DceErr) : Prop :=
  ∃ resp, self.handleResult (.error error) = .ok (some resp) ∧
    (∃ number, resp.Prints number) ∧ ∀ number, resp.Prints number → resp.Agrees number

/-- The session of the reply can be put into a header. -/
def CarriesSid (self : HyperHttpProtocol V (HttpResponse S V)) : Prop :=
  ∀ respSid, self.info.respHeads[headSidName]? = some respSid →
    (HeaderOfText.fromStr respSid : Option V).isSome

end HyperHttpProtocol

/-- The error is for the client, and its code is not negative, or is cast to a number that is no
status or to 503. -/
def CastsWell (error : DceErr) : Prop :=
  error.isOpenly = true ∧
    (0 ≤ error.value.code ∨ error.value.code % 2 ^ 16 < 100 ∨
      1000 ≤ error.value.code % 2 ^ 16 ∨
      error.value.code % 2 ^ 16 = 503)

open HyperHttpProtocol HttpResponse

/-- The number that the client is told. -/
def printed (error : DceErr) : Int :=
  if error.isOpenly then error.value.code else DceErr.serviceUnavailable

theorem colon_notMem_toString (number : Int) : ':' ∉ (toString number).toList :=
  Text.notMem_toString (by decide) (by decide) number

theorem eq_of_append_colon {left right leftRest rightRest : Str} (leftFree : ':' ∉ left)
    (rightFree : ':' ∉ right) (same : left ++ ':' :: leftRest = right ++ ':' :: rightRest) :
    left = right := by
  induction left generalizing right with
  | nil =>
      cases right with
      | nil => rfl
      | cons c right =>
          cases same
          exact absurd List.mem_cons_self rightFree
  | cons c left ih =>
      cases right with
      | nil =>
          cases same
          exact absurd List.mem_cons_self leftFree
      | cons d right =>
          rcases List.cons.inj same with ⟨rfl, behind⟩
          rw [ih (fun mem => leftFree (List.mem_cons_of_mem _ mem))
            (fun mem => rightFree (List.mem_cons_of_mem _ mem)) behind]

theorem toResponsible_eq (error : DceErr) :
    ∃ message, error.toResponsible =
      (toString (printed error)).toList ++ ": ".toList ++ message :=
  match error with
  | .openly error => ⟨error.message, rfl⟩
  | .closed _ => ⟨DceErr.serviceUnavailableMessage, rfl⟩

omit [StatusCode S] in
theorem prints_iff {resp : HttpResponse S V} {error : DceErr}
    (body : resp.body = toBytes error.toResponsible) (number : Int) :
    resp.Prints number ↔ number = printed error := by
  rcases toResponsible_eq error with ⟨message, told⟩
  constructor
  · rintro ⟨other, same⟩
    have texts := congrArg fromUtf8 (same.symm.trans body)
    rw [fromUtf8_toBytes, fromUtf8_toBytes, told] at texts
    have texts := Option.some.inj texts
    simp only [List.append_assoc] at texts
    have numbers := eq_of_append_colon (colon_notMem_toString _) (colon_notMem_toString _) texts
    exact Int.repr_injective (String.toList_inj.mp numbers)
  · rintro rfl
    exact ⟨message, by rw [body, told]⟩

theorem toNat_asU16 (code : Int) : ((asU16 code).toNat : Int) = code % 2 ^ 16 := by
  have range : (code % 2 ^ 16).toNat < 2 ^ 16 := by omega
  rw [asU16, UInt16.toNat_ofNat', Nat.mod_eq_of_lt range]
  omega

/-- The status that a code is cast to. -/
def castStatus (code : Int) : Int :=
  if 100 ≤ code % 2 ^ 16 ∧ code % 2 ^ 16 < 1000 then code % 2 ^ 16 else 503

/-- The status line of the reply to an error. -/
def statusOf : DceErr → Int
  | .openly error => if error.code < 600 then castStatus error.code else 200
  | .closed _ => 200

theorem asU16_getD (code : Int) :
    ((StatusCode.asU16 ((StatusCode.fromU16 (asU16 code)).getD
        (StatusCode.serviceUnavailable : S))).toNat : Int) = castStatus code := by
  have law := StatusCode.asU16_fromU16 (S := S) (asU16 code)
  have range : (100 ≤ asU16 code ∧ asU16 code < 1000) ↔
      100 ≤ code % 2 ^ 16 ∧ code % 2 ^ 16 < 1000 := by
    have cast := toNat_asU16 code
    rw [UInt16.le_iff_toNat_le, UInt16.lt_iff_toNat_lt]
    change 100 ≤ (asU16 code).toNat ∧ (asU16 code).toNat < 1000 ↔ _
    omega
  rw [castStatus]
  cases made : (StatusCode.fromU16 (asU16 code) : Option S) with
  | none =>
      rw [made] at law
      have outside : ¬(100 ≤ code % 2 ^ 16 ∧ code % 2 ^ 16 < 1000) := by
        intro within
        rw [if_pos (range.mpr within)] at law
        cases law
      rw [if_neg outside, Option.getD_none, StatusCode.asU16_serviceUnavailable]
      rfl
  | some status =>
      rw [made] at law
      have within : 100 ≤ code % 2 ^ 16 ∧ code % 2 ^ 16 < 1000 := by
        by_contra outside
        rw [if_neg fun both => outside (range.mp both)] at law
        cases law
      rw [if_pos (range.mpr within), Option.map_some] at law
      rw [if_pos within, Option.getD_some, Option.some.inj law, toNat_asU16]

theorem not_agrees_closed {resp : HttpResponse S V} {error : DceError}
    (code : resp.code = statusOf (.closed error)) : ¬resp.Agrees (printed (.closed error)) := by
  intro agrees
  have number : printed (.closed error) = 503 := rfl
  have same := agrees.valid (by omega) (by omega)
  rw [code, number] at same
  cases same

/-- The status of an error for the client agrees with its code if that is cast well. -/
theorem agrees_openly_iff {resp : HttpResponse S V} {error : DceError}
    (code : resp.code = statusOf (.openly error)) :
    resp.Agrees (printed (.openly error)) ↔ CastsWell (.openly error) := by
  have number : printed (.openly error) = error.code := rfl
  have casts : CastsWell (.openly error) ↔ 0 ≤ error.code ∨ error.code % 2 ^ 16 < 100 ∨
      1000 ≤ error.code % 2 ^ 16 ∨ error.code % 2 ^ 16 = 503 := by
    simp [CastsWell, DceErr.isOpenly, DceErr.value]
  rw [casts, number]
  constructor
  · intro agrees
    by_contra bad
    have wrong := agrees.invalid (by omega) (by omega)
    rw [code, statusOf, if_pos (by omega), castStatus, if_pos (by omega)] at wrong
    omega
  · intro well
    have below (small : error.code < 600) : resp.code = castStatus error.code := by
      rw [code, statusOf, if_pos small]
    constructor
    · intro lower upper
      rw [below (by omega), castStatus, if_pos (by omega)]
      omega
    · intro small invalid
      rw [below small, castStatus]
      split
      · omega
      · rfl
    · intro small lower upper
      have cast := below small
      rw [castStatus] at cast
      split at cast
      · omega
      · omega

/-- The status agrees with what is printed exactly for the codes that are cast well. -/
theorem statusOf_agrees_iff {resp : HttpResponse S V} {error : DceErr}
    (code : resp.code = statusOf error) :
    resp.Agrees (printed error) ↔ CastsWell error := by
  cases error with
  | closed error => exact iff_of_false (not_agrees_closed code) fun well => by cases well.1
  | openly error => exact agrees_openly_iff code

variable [HeaderOfText V]

/-- The reply to an error, before its status is set. -/
theorem errInto_eq_ok_iff (self : HyperHttpProtocol V (HttpResponse S V)) (error : DceErr) :
    (∃ resp, self.errInto error = .ok resp) ↔ self.CarriesSid := by
  rw [errInto, into, CarriesSid]
  cases self.info.respHeads[headSidName]? with
  | none => simp
  | some respSid =>
      cases made : (HeaderOfText.fromStr respSid : Option V) with
      | none => simp [made]
      | some value => simp [made]

theorem errInto_spec {self : HyperHttpProtocol V (HttpResponse S V)} {error : DceErr}
    {resp : HttpResponse S V} (packed : self.errInto error = .ok resp) :
    resp.body = toBytes error.toResponsible ∧ resp.status = StatusCode.ok := by
  rw [errInto, into] at packed
  dsimp only at packed
  split at packed
  · cases packed
    exact ⟨rfl, rfl⟩
  · split at packed
    · cases packed
      exact ⟨rfl, rfl⟩
    · cases packed

theorem handleResult_error {self : HyperHttpProtocol V (HttpResponse S V)} {error : DceErr}
    {resp : HttpResponse S V}
    (replied : self.handleResult (.error error) = .ok (some resp)) :
    resp.body = toBytes error.toResponsible ∧ resp.code = statusOf error := by
  rcases Outcome.bind_eq_ok.mp replied with ⟨packed, made, set⟩
  rcases errInto_spec made with ⟨body, status⟩
  have success : packed.code = 200 := by
    rw [code, status, StatusCode.asU16_ok]
    rfl
  cases error with
  | closed error =>
      cases set
      exact ⟨body, success⟩
  | openly error =>
      by_cases below : error.code < 600
      · have guard : ((DceErr.openly error).isOpenly &&
            decide ((DceErr.openly error).value.code < 600)) = true := decide_eq_true below
        rw [if_pos guard] at set
        cases set
        rw [statusOf, if_pos below]
        exact ⟨body, asU16_getD error.code⟩
      · have guard : ¬((DceErr.openly error).isOpenly &&
            decide ((DceErr.openly error).value.code < 600)) = true := by
          intro both
          exact below (of_decide_eq_true both)
        rw [if_neg guard] at set
        cases set
        rw [statusOf, if_neg below]
        exact ⟨body, success⟩

theorem handleResult_returns_iff (self : HyperHttpProtocol V (HttpResponse S V))
    (error : DceErr) :
    (∃ resp, self.handleResult (.error error) = .ok (some resp)) ↔ self.CarriesSid := by
  rw [← errInto_eq_ok_iff self error]
  constructor
  · rintro ⟨resp, replied⟩
    rcases Outcome.bind_eq_ok.mp replied with ⟨packed, made, _⟩
    exact ⟨packed, made⟩
  · rintro ⟨packed, made⟩
    simp only [handleResult, made, Outcome.bind_ok]
    split
    · exact ⟨_, rfl⟩
    · exact ⟨_, rfl⟩

/-- The status of the reply to an error agrees with its body exactly if the error is for the client
and its code is cast well, where the session of the reply can be sent. -/
theorem answersAlike_iff (self : HyperHttpProtocol V (HttpResponse S V)) (error : DceErr) :
    self.AnswersAlike error ↔ self.CarriesSid ∧ CastsWell error := by
  rw [← handleResult_returns_iff self error]
  constructor
  · rintro ⟨resp, replied, _, agrees⟩
    rcases handleResult_error replied with ⟨body, code⟩
    have printed := agrees _ ((prints_iff body _).mpr rfl)
    exact ⟨⟨resp, replied⟩, (statusOf_agrees_iff code).mp printed⟩
  · rintro ⟨⟨resp, replied⟩, well⟩
    rcases handleResult_error replied with ⟨body, code⟩
    refine ⟨resp, replied, ⟨_, (prints_iff body _).mpr rfl⟩, ?_⟩
    intro number prints
    rw [(prints_iff body number).mp prints]
    exact (statusOf_agrees_iff code).mpr well

/-- The codes that are a status. -/
structure CheckedCode where
  code : UInt16
  checked : 100 ≤ code ∧ code < 1000

instance checkedCode : StatusCode CheckedCode where
  asU16 := CheckedCode.code
  fromU16 code := if checked : 100 ≤ code ∧ code < 1000 then some ⟨code, checked⟩ else none
  ok := ⟨200, by decide⟩
  serviceUnavailable := ⟨503, by decide⟩
  asU16_fromU16 code := by split <;> simp [*]
  asU16_ok := rfl
  asU16_serviceUnavailable := rfl

instance headerOfAscii : HeaderOfText HeaderBytes where
  fromStr text :=
    let octets := (toBytes text).toList
    if admissible : octets.all (fun octet => 32 ≤ octet && octet != 127 || octet == 9) then
      some ⟨octets, admissible⟩
    else none

/-- A reply without a session. -/
def sidless : HyperHttpProtocol HeaderBytes (HttpResponse CheckedCode HeaderBytes) where
  info := { req := none, resp := none, heads := ∅, respHeads := ∅ }

/-- A closed error is told of as 503 with a status of success, and a negative code can be cast to
one. -/
theorem not_answersAlike :
    ¬sidless.AnswersAlike (.closed ⟨0, "Lost".toList⟩) ∧
      ¬sidless.AnswersAlike (.openly ⟨-65336, "Lost".toList⟩) := by
  constructor
  · rintro ⟨resp, replied, _, agrees⟩
    rcases handleResult_error replied with ⟨body, code⟩
    exact not_agrees_closed code (agrees _ ((prints_iff body _).mpr rfl))
  · rintro ⟨resp, replied, _, agrees⟩
    rcases handleResult_error replied with ⟨body, code⟩
    have well := (statusOf_agrees_iff code).mp (agrees _ ((prints_iff body _).mpr rfl))
    have cast : ¬CastsWell (.openly ⟨-65336, "Lost".toList⟩) := by
      rintro ⟨_, positive | small | large | same⟩
      · exact absurd positive (by decide)
      · exact absurd small (by decide)
      · exact absurd large (by decide)
      · exact absurd same (by decide)
    exact cast well

end Protocol

end Dce
