import Dce.Lib.Split
import Dce.Session.Renew

/-!
# The texts of sids

A generated sid is read back as it was written. A text from elsewhere is refused
unless it spells a lifetime and a stamp, but its bytes are counted before its
characters are cut.
-/

namespace Dce.Session

variable {U : Type}

namespace Digest

/-- How a digest of 32 bytes is printed. -/
def print (bytes : Vector UInt8 32) : Str :=
  bytes.toList.flatMap fun byte => Text.hexPadded 2 byte.toNat

theorem length_flatMap_hexPadded (bytes : List UInt8) :
    (bytes.flatMap fun byte => Text.hexPadded 2 byte.toNat).length = 2 * bytes.length := by
  induction bytes with
  | nil => rfl
  | cons byte bytes ih =>
      simp only [List.flatMap_cons, List.length_append, Text.length_hexPadded, List.length_cons, ih]
      omega

def ofBytes (bytes : Vector UInt8 32) : Digest where
  digits := print bytes
  length_eq := by
    rw [print, length_flatMap_hexPadded, Vector.length_toList]
  isHex := by
    intro c mem
    rcases List.mem_flatMap.mp mem with ⟨byte, _, within⟩
    rcases Text.mem_hexPadded within with ⟨digit, small, rfl⟩
    rw [Text.hexDigit, List.getD_eq_getElem _ _ (show digit < 16 from small)]
    exact List.getElem_mem _

theorem print_inj {left right : Vector UInt8 32} (same : print left = print right) :
    left = right := by
  have bytes {left right : List UInt8}
      (same : (left.flatMap fun byte => Text.hexPadded 2 byte.toNat) =
        right.flatMap fun byte => Text.hexPadded 2 byte.toNat) : left = right := by
    induction left generalizing right with
    | nil =>
        have lengths := congrArg List.length same
        rw [length_flatMap_hexPadded, length_flatMap_hexPadded] at lengths
        exact (List.eq_nil_of_length_eq_zero (by simpa using lengths.symm)).symm
    | cons byte left ih =>
        cases right with
        | nil =>
            have lengths := congrArg List.length same
            rw [length_flatMap_hexPadded, length_flatMap_hexPadded] at lengths
            simp at lengths
        | cons other right =>
            rw [List.flatMap_cons, List.flatMap_cons] at same
            rcases List.append_inj same (by simp) with ⟨first, rest⟩
            have numbers := congrArg Text.hexNumber first
            have small (byte : UInt8) : byte.toNat % 16 ^ 2 = byte.toNat :=
              Nat.mod_eq_of_lt byte.toNat_lt
            rw [Text.hexNumber_hexPadded, Text.hexNumber_hexPadded, small, small] at numbers
            rw [ih rest, UInt8.toNat_inj.mp (Option.some.inj numbers)]
  exact Vector.toList_inj.mp (bytes same)

end Digest

namespace Meta

/-- The sid that is generated from a digest at a time. -/
def sidOf (digest : Vector UInt8 32) (ttlMinutes : UInt16) (time : UInt64) : Str :=
  (genId ⟨time, time, .ofBytes digest⟩ ttlMinutes).1

/-- A generated sid is read back, and no other digest, lifetime and time give the same one. -/
theorem parseSid_sidOf (digest : Vector UInt8 32) (ttlMinutes : UInt16) (time : UInt64)
    (clock : 2 ^ 28 ≤ time.toNat) :
    parseSid (sidOf digest ttlMinutes time) = .ok (ttlMinutes, time) ∧
      ∀ (digest' : Vector UInt8 32) (ttlMinutes' : UInt16) (time' : UInt64),
        2 ^ 28 ≤ time'.toNat →
          sidOf digest ttlMinutes time = sidOf digest' ttlMinutes' time' →
        digest = digest' ∧ ttlMinutes = ttlMinutes' ∧ time = time' := by
  have read {digest : Vector UInt8 32} {ttlMinutes : UInt16} {time : UInt64}
      (clock : 2 ^ 28 ≤ time.toNat) :
      parseSid (sidOf digest ttlMinutes time) = .ok (ttlMinutes, time) :=
    parseSid_genId clock ttlMinutes
  refine ⟨read clock, ?_⟩
  intro digest' ttlMinutes' time' clock' same
  have parsed : parseSid (sidOf digest' ttlMinutes' time') = .ok (ttlMinutes', time') := read clock'
  rw [← same, read clock] at parsed
  cases parsed
  refine ⟨?_, rfl, rfl⟩
  simp only [sidOf, genId, List.append_assoc] at same
  have lengths : (Digest.ofBytes digest).digits.length =
      (Digest.ofBytes digest').digits.length := by
    rw [Digest.length_eq, Digest.length_eq]
  exact Digest.print_inj (List.append_inj same lengths).1

/-- A sid of the year 2024. -/
theorem parseSid_sidOf_zeros :
    let digest := Vector.replicate 32 (0 : UInt8)
    parseSid (sidOf digest 60 0x65920080) = .ok (60, 0x65920080) ∧
      ∀ (digest' : Vector UInt8 32) (ttlMinutes' : UInt16) (time' : UInt64),
        2 ^ 28 ≤ time'.toNat → sidOf digest 60 0x65920080 = sidOf digest' ttlMinutes' time' →
        digest = digest' ∧ 60 = ttlMinutes' ∧ 0x65920080 = time' :=
  parseSid_sidOf _ 60 0x65920080 (by decide)

/-- A text is too short for a sid, or its first 64 bytes are whole characters and so are the four
behind them. -/
def Aligned (sid : Str) : Prop :=
  Text.len sid < minSidLen ∨
    ∃ digest ttl rest, sid = digest ++ ttl ++ rest ∧ Text.len digest = 64 ∧ Text.len ttl = 4

theorem slice_isSome_iff {sid : Str} :
    (Text.slice sid 64 68).isSome ↔
      ∃ digest ttl rest, sid = digest ++ ttl ++ rest ∧ Text.len digest = 64 ∧
        Text.len ttl = 4 := by
  constructor
  · intro there
    rcases Option.isSome_iff_exists.mp there with ⟨ttl, sliced⟩
    rw [Text.slice, if_pos (by decide)] at sliced
    simp only [Option.bind_eq_bind, Option.bind_eq_some_iff, Option.pure_def,
      Option.some.injEq] at sliced
    rcases sliced with ⟨⟨front, rest⟩, whole, ⟨digest, middle⟩, inner, rfl⟩
    rcases Text.eq_of_cut whole with ⟨rfl, frontLen⟩
    rcases Text.eq_of_cut inner with ⟨rfl, digestLen⟩
    rw [Text.len_append] at frontLen
    exact ⟨digest, middle, rest, rfl, digestLen, by omega⟩
  · rintro ⟨digest, ttl, rest, rfl, digestLen, ttlLen⟩
    have whole := Text.cut_len (digest ++ ttl) rest
    rw [Text.len_append, digestLen, ttlLen] at whole
    have inner := Text.cut_len digest ttl
    rw [digestLen] at inner
    rw [Text.slice, if_pos (by decide)]
    simp only [whole, inner, Option.bind_eq_bind, Option.bind_some, Option.pure_def,
      Option.isSome_some]

theorem parseTtl_returns_iff {sid : Str} :
    (parseTtl sid).Returns ↔ (Text.slice sid 64 68).isSome := by
  rw [parseTtl]
  cases Text.slice sid 64 68 with
  | none => simp [Outcome.ofSlice, Outcome.Returns]
  | some digits =>
      simp only [Outcome.ofSlice, Outcome.bind_ok, Option.isSome_some, iff_true]
      split
      · rintro ⟨⟩
      · rintro ⟨⟩

/-- Where the bytes of the lifetime are whole characters, the stamp starts with one. -/
theorem parseStamp_returns {sid : Str} (aligned : (Text.slice sid 64 68).isSome) :
    (parseStamp sid).Returns := by
  rcases slice_isSome_iff.mp aligned with ⟨digest, ttl, rest, rfl, digestLen, ttlLen⟩
  have whole := Text.cut_len (digest ++ ttl) rest
  rw [Text.len_append, digestLen, ttlLen] at whole
  simp only [parseStamp, Text.sliceFrom, whole, Option.map_some, Outcome.ofSlice, Outcome.bind_ok]
  split
  · rintro ⟨⟩
  · rintro ⟨⟩

theorem parseSid_returns_iff {sid : Str} : (parseSid sid).Returns ↔ Aligned sid := by
  rw [parseSid, Aligned]
  by_cases short : Text.len sid < minSidLen
  · rw [if_pos short]
    simp [short, Outcome.Returns]
  · rw [if_neg short, ← slice_isSome_iff, ← parseTtl_returns_iff]
    simp only [short, false_or]
    constructor
    · rintro returns panics
      rw [panics] at returns
      exact returns rfl
    · intro returns
      have stamp := parseStamp_returns (parseTtl_returns_iff.mp returns)
      cases ttl : parseTtl sid with
      | ok ttlMinutes =>
          rw [Outcome.bind_ok]
          cases read : parseStamp sid with
          | ok createStamp => rintro ⟨⟩
          | err error => rintro ⟨⟩
          | panic => exact absurd read stamp
      | err error => rintro ⟨⟩
      | panic => exact absurd ttl returns

end Meta

/-- Reading a text as a sid returns exactly if it is aligned, whichever object it is read for. -/
theorem sid_returns_iff (sid : Str) :
    ((Meta.parseSid sid).Returns ↔ Meta.Aligned sid) ∧
      ((RedisSession.newWithId sid : Outcome SessionErr (RedisSession U)).Returns ↔
        Meta.Aligned sid) ∧
      (∀ session : RedisSession U, (session.cloneWithId sid).Returns ↔ Meta.Aligned sid) ∧
      ∀ (root : RedisSession U) (rootIndex : Nat),
        (RedisSession.cloneForRequest root rootIndex (some sid)).Returns ↔ Meta.Aligned sid := by
  have clones (session : RedisSession U) :
      (session.cloneWithId sid).Returns ↔ Meta.Aligned sid := by
    rw [← Meta.parseSid_returns_iff, RedisSession.cloneWithId, Meta.adopt]
    cases Meta.parseSid sid <;> simp [Outcome.Returns]
  refine ⟨Meta.parseSid_returns_iff, ?_, clones, ?_⟩
  · rw [← Meta.parseSid_returns_iff, RedisSession.newWithId, Meta.newWithSid]
    cases Meta.parseSid sid <;> simp [Outcome.Returns]
  · intro root rootIndex
    rw [← clones root, RedisSession.cloneForRequest, Option.getD_some]
    cases root.cloneWithId sid <;> simp [Outcome.Returns]

/-- A character of two bytes lies across the end of the digest. -/
theorem not_sid_returns : ¬ ∀ sid : Str, (Meta.parseSid sid).Returns := by
  intro returns
  have straddling := returns (List.replicate 63 'A' ++ 'é' :: List.replicate 11 'A')
  revert straddling
  decide

end Dce.Session
