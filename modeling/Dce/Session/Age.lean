import Dce.Session.Renew

/-!
# The age of a session

`try_renew` tells the age of a session by the stamp in its sid, which is any number
of 64 bits that a client cares to spell.
-/

namespace Dce.Session

/-- What an `isize` can be. -/
def FitsIsize (n : Int) : Prop := -2 ^ 63 ≤ n ∧ n < 2 ^ 63

theorem wrapIsize_of_fits {n : Int} (fits : FitsIsize n) : wrapIsize n = n := by
  rcases fits with ⟨lower, upper⟩
  exact Int.bmod_eq_of_le (by omega) (by omega)

/-- A number from `2 ^ 63` on is cast to a negative one. -/
theorem wrapIsize_of_large {n : Nat} (large : 2 ^ 63 ≤ n) (small : n < 2 ^ 64) :
    wrapIsize n = n - 2 ^ 64 := by
  have shifted : wrapIsize n = wrapIsize (n - 2 ^ 64) := by
    rw [wrapIsize, wrapIsize]
    exact (Int.sub_bmod_right n (2 ^ 64)).symm
  rw [shifted]
  apply wrapIsize_of_fits
  constructor
  · omega
  · omega

namespace AutoRenew

/-- The arithmetic of a session's age overflows nowhere and gives the difference, so that a session
from the future is not due. -/
structure Exact (conf : AutoRenew) (now createStamp : UInt64) : Prop where
  age : FitsIsize (wrapIsize now.toNat - wrapIsize createStamp.toNat)
  overdue : FitsIsize (wrapIsize now.toNat - wrapIsize createStamp.toNat -
    conf.renewIntervalSeconds.toNat)
  difference : conf.secondsFromRenew now createStamp =
    now.toNat - createStamp.toNat - conf.renewIntervalSeconds.toNat
  future : now < createStamp → conf.secondsFromRenew now createStamp < 0

/-- The age of the session with a sid is exact, if the sid can be parsed. -/
def ExactFor (conf : AutoRenew) (now : UInt64) (sid : Str) : Prop :=
  ∀ ttlMinutes createStamp, Meta.parseSid sid = .ok (ttlMinutes, createStamp) →
    conf.Exact now createStamp

variable {conf : AutoRenew} {now createStamp : UInt64}

theorem secondsFromRenew_of_fits
    (age : FitsIsize (wrapIsize now.toNat - wrapIsize createStamp.toNat))
    (overdue : FitsIsize (wrapIsize now.toNat - wrapIsize createStamp.toNat -
      conf.renewIntervalSeconds.toNat)) :
    conf.secondsFromRenew now createStamp =
      wrapIsize now.toNat - wrapIsize createStamp.toNat - conf.renewIntervalSeconds.toNat := by
  rw [secondsFromRenew, wrapIsize_of_fits age, wrapIsize_of_fits overdue]

theorem exact_iff (conf : AutoRenew) (createStamp : UInt64) (clock : now.toNat < 2 ^ 63) :
    conf.Exact now createStamp ↔ createStamp.toNat < 2 ^ 63 ∧
      createStamp.toNat + conf.renewIntervalSeconds.toNat ≤ now.toNat + 2 ^ 63 := by
  have stampBound := createStamp.toNat_lt
  have today : wrapIsize now.toNat = now.toNat := by
    apply wrapIsize_of_fits
    constructor
    · omega
    · omega
  constructor
  · intro exact
    have stamp : createStamp.toNat < 2 ^ 63 := by
      by_contra large
      have cast := wrapIsize_of_large (Nat.le_of_not_lt large) stampBound
      have difference := exact.difference
      rw [secondsFromRenew_of_fits exact.age exact.overdue, today, cast] at difference
      omega
    have cast : wrapIsize createStamp.toNat = createStamp.toNat := by
      apply wrapIsize_of_fits
      constructor
      · omega
      · omega
    have overdue := exact.overdue.1
    rw [today, cast] at overdue
    exact ⟨stamp, by omega⟩
  · rintro ⟨stamp, near⟩
    have cast : wrapIsize createStamp.toNat = createStamp.toNat := by
      apply wrapIsize_of_fits
      constructor
      · omega
      · omega
    have age : FitsIsize (wrapIsize now.toNat - wrapIsize createStamp.toNat) := by
      rw [today, cast]
      constructor
      · omega
      · omega
    have overdue : FitsIsize (wrapIsize now.toNat - wrapIsize createStamp.toNat -
        conf.renewIntervalSeconds.toNat) := by
      rw [today, cast]
      constructor
      · omega
      · omega
    have difference := secondsFromRenew_of_fits age overdue
    rw [today, cast] at difference
    refine ⟨age, overdue, difference, fun later => ?_⟩
    have later := UInt64.lt_iff_toNat_lt.mp later
    rw [difference]
    omega

/-- The age of a session is exact just for stamps below `2 ^ 63` that are not too far ahead of the
clock for the interval to be taken off. -/
theorem exactFor_iff (conf : AutoRenew) (sid : Str) (clock : now.toNat < 2 ^ 63) :
    conf.ExactFor now sid ↔
      ∀ ttlMinutes createStamp, Meta.parseSid sid = .ok (ttlMinutes, createStamp) →
        createStamp.toNat < 2 ^ 63 ∧
          createStamp.toNat + conf.renewIntervalSeconds.toNat ≤ now.toNat + 2 ^ 63 := by
  constructor
  · intro exact ttlMinutes createStamp parsed
    exact (exact_iff conf createStamp clock).mp (exact ttlMinutes createStamp parsed)
  · intro near ttlMinutes createStamp parsed
    exact (exact_iff conf createStamp clock).mpr (near ttlMinutes createStamp parsed)

/-- A sid of 2029. -/
theorem exactFor_iff_recent :
    let sid := List.replicate 64 '0' ++ "003C70000000".toList
    AutoRenew.new.ExactFor 0x70000100 sid ↔
      ∀ ttlMinutes createStamp, Meta.parseSid sid = .ok (ttlMinutes, createStamp) →
        createStamp.toNat < 2 ^ 63 ∧ createStamp.toNat +
          AutoRenew.new.renewIntervalSeconds.toNat ≤ (0x70000100 : UInt64).toNat + 2 ^ 63 :=
  exactFor_iff AutoRenew.new _ (by decide)

/-- A sid from the furthest future seems due for renewal. -/
theorem not_exactFor : ¬∀ (conf : AutoRenew) (now : UInt64) (sid : Str), now.toNat < 2 ^ 63 →
    conf.ExactFor now sid := by
  intro claim
  have exact := claim AutoRenew.new 0x70000000
    (List.replicate 64 '0' ++ "003CFFFFFFFFFFFFFFFF".toList) (by decide) 60 0xFFFFFFFFFFFFFFFF
    (by decide)
  exact absurd (exact.future (by decide)) (by decide)

end AutoRenew

end Dce.Session
