import Dce.Session.Store
import Dce.Util.Mixed

/-!
# Session meta data

A session id spells the lifetime of the session and the time it was created at
behind a random digest. `Meta` keeps both beside the id.
-/

namespace Dce.Session

def defaultIdName : Str := "dcesid".toList

/-- What a `DceErr::closed0` of the session crate wraps: a text of the crate itself, or an error
of the driver, of integer parsing or of serde, whose texts are theirs. -/
inductive SessionErr where
  | text (message : Str)
  | redis (error : RedisErr)
  | parseInt
  | serde
  deriving DecidableEq, Repr

/-- A SHA-256 digest in hexadecimal digits. -/
structure Digest where
  digits : Str
  length_eq : digits.length = 64
  isHex : ∀ c ∈ digits, c ∈ "0123456789ABCDEF".toList

/-- What a call reads from its surroundings: the clock at its start, and the clock and the random
digest when it generates an id. -/
structure Env where
  now : UInt64
  stamp : UInt64
  digest : Digest

structure Meta where
  sidName : Str
  ttlMinutes : UInt16
  createStamp : UInt64
  sid : Str
  touches : Option Bool
  deriving DecidableEq

namespace Meta

def ttlSeconds (info : Meta) : Nat := info.ttlMinutes.toNat * 60

theorem ttlSeconds_eq_zero (info : Meta) : info.ttlSeconds = 0 ↔ info.ttlMinutes = 0 := by
  rw [ttlSeconds, Nat.mul_eq_zero, ← UInt16.toNat_inj]
  simp

/-- `config(None, ttl_minutes)`. -/
def config (info : Meta) (ttlMinutes : Option UInt16) : Meta :=
  match ttlMinutes with
  | some ttlMinutes => { info with ttlMinutes }
  | none => info

@[simp]
theorem config_sidName (info : Meta) (ttlMinutes : Option UInt16) :
    (info.config ttlMinutes).sidName = info.sidName := by
  cases ttlMinutes <;> rfl

@[simp]
theorem config_sid (info : Meta) (ttlMinutes : Option UInt16) :
    (info.config ttlMinutes).sid = info.sid := by
  cases ttlMinutes <;> rfl

def minSidLen : Nat := 76

/-- The lifetime that a sid spells. -/
def parseTtl (sid : Str) : Outcome SessionErr UInt16 := do
  let digits ← Outcome.ofSlice (Text.slice sid 64 68)
  match Text.fromStrRadix16 (2 ^ 16) digits with
  | some ttlMinutes => .ok (UInt16.ofNat ttlMinutes)
  | none => .err .parseInt

/-- The time of creation that a sid spells. -/
def parseStamp (sid : Str) : Outcome SessionErr UInt64 := do
  let digits ← Outcome.ofSlice (Text.sliceFrom sid 68)
  match Text.fromStrRadix16 (2 ^ 64) digits with
  | some createStamp => .ok (UInt64.ofNat createStamp)
  | none => .err .parseInt

def parseSid (sid : Str) : Outcome SessionErr (UInt16 × UInt64) :=
  if Text.len sid < minSidLen then
    .err (.text ("invalid sid \"".toList ++ sid ++ "\", less then 76 chars".toList))
  else do
    let ttlMinutes ← parseTtl sid
    let createStamp ← parseStamp sid
    return (ttlMinutes, createStamp)

def genId (env : Env) (ttlMinutes : UInt16) : Str × UInt64 :=
  (env.digest.digits ++ Text.hexPadded 4 ttlMinutes.toNat ++ Text.hex env.stamp.toNat, env.stamp)

/-- `renew(None)`. -/
def regenerate (info : Meta) (env : Env) : Meta :=
  let (sid, createStamp) := genId env info.ttlMinutes
  { info with touches := none, sid, createStamp }

/-- `renew(Some(sid))`, which forgets the touch before it can fail. -/
def adopt (info : Meta) (sid : Str) : Outcome SessionErr Unit × Meta :=
  match parseSid sid with
  | .ok (ttlMinutes, createStamp) =>
      (.ok (), { info with touches := none, ttlMinutes, createStamp, sid })
  | .err error => (.err error, { info with touches := none })
  | .panic => (.panic, { info with touches := none })

theorem genId_oneByte (env : Env) (ttlMinutes : UInt16) :
    ∀ c ∈ env.digest.digits ++ Text.hexPadded 4 ttlMinutes.toNat, c.utf8Size = 1 := by
  intro c mem
  rcases List.mem_append.mp mem with digest | ttl
  · have hexDigits : ("0123456789ABCDEF".toList.all fun c => c.utf8Size == 1) = true := by decide
    exact eq_of_beq (List.all_eq_true.mp hexDigits c (env.digest.isHex c digest))
  · rcases Text.mem_hexPadded ttl with ⟨digit, _, rfl⟩
    exact Text.utf8Size_hexDigit digit

/-- A generated id spells its lifetime. -/
theorem parseTtl_genId (env : Env) (ttlMinutes : UInt16) :
    parseTtl (genId env ttlMinutes).1 = .ok ttlMinutes := by
  have middle := Text.slice_append (genId_oneByte env ttlMinutes) (Text.hex env.stamp.toNat)
  rw [env.digest.length_eq, Text.length_hexPadded, show 64 + 4 = 68 from rfl] at middle
  have read : Text.fromStrRadix16 (2 ^ 16) (Text.hexPadded 4 ttlMinutes.toNat) =
      some ttlMinutes.toNat :=
    Text.fromStrRadix16_hexPadded (by decide) ttlMinutes.toNat_lt ttlMinutes.toNat_lt
  simp only [parseTtl, genId, middle, Outcome.ofSlice, Outcome.bind_ok, read, UInt16.ofNat_toNat]

/-- A generated id spells the time it was generated at. -/
theorem parseStamp_genId (env : Env) (ttlMinutes : UInt16) :
    parseStamp (genId env ttlMinutes).1 = .ok env.stamp := by
  have rest := Text.sliceFrom_append (genId_oneByte env ttlMinutes) (Text.hex env.stamp.toNat)
  rw [List.length_append, env.digest.length_eq, Text.length_hexPadded,
    show 64 + 4 = 68 from rfl] at rest
  have read : Text.fromStrRadix16 (2 ^ 64) (Text.hex env.stamp.toNat) = some env.stamp.toNat :=
    Text.fromStrRadix16_hex env.stamp.toNat_lt env.stamp.toNat_lt
  simp only [parseStamp, genId, rest, Outcome.ofSlice, Outcome.bind_ok, read, UInt64.ofNat_toNat]

/-- From 1978 on, a generated id is as long as a sid has to be. -/
theorem parseSid_genId {env : Env} (clock : 2 ^ 28 ≤ env.stamp.toNat) (ttlMinutes : UInt16) :
    parseSid (genId env ttlMinutes).1 = .ok (ttlMinutes, env.stamp) := by
  have digits : 7 < (Text.hex env.stamp.toNat).length := Text.lt_length_hex env.stamp.toNat_lt clock
  have long := Text.length_le_len (genId env ttlMinutes).1
  simp only [genId, List.length_append, env.digest.length_eq, Text.length_hexPadded] at long
  have accepted : ¬Text.len (genId env ttlMinutes).1 < minSidLen := by
    simp only [genId, minSidLen]
    omega
  rw [parseSid, if_neg accepted, parseTtl_genId, parseStamp_genId]
  rfl

theorem parseSid_genId_returns (env : Env) (ttlMinutes : UInt16) :
    (parseSid (genId env ttlMinutes).1).Returns := by
  rw [parseSid, parseTtl_genId, parseStamp_genId]
  split <;> rintro ⟨⟩

def new (env : Env) (ttlMinutes : UInt16) : Meta :=
  let (sid, createStamp) := genId env ttlMinutes
  { sidName := defaultIdName, ttlMinutes, createStamp, sid, touches := none }

def newWithSid (sid : Str) : Outcome SessionErr Meta := do
  let (ttlMinutes, createStamp) ← parseSid sid
  return { sidName := defaultIdName, ttlMinutes, createStamp, sid, touches := none }

end Meta

end Dce.Session
