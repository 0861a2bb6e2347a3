import Dce.Router.Statics

/-!
# Keys without variables

The walk for a key finds its entry if the parts of the key lead through the
registered paths to one of them, past those that are left out. They lead nowhere
if the last part is left out, and astray where another path stands in the way.
-/

namespace Dce.Routing

open Text ATree

variable {Rp : Type}

/-- Parts that lead from the root to a path, without one that is left out. -/
inductive Goes (registered : List (Api Rp)) : List Str → List Str → Prop where
  | start : Goes registered [] []
  | on {parts before after : List Str} {part : Str} (goes : Goes registered parts before)
      (next : Next registered before part after) (kept : ¬LeftOut registered after) :
      Goes registered (parts ++ [part]) after

variable {registered : List (Api Rp)} {tree : ApiTree Rp} {router : Router Rp}
  {before passed after parts front : List Str} {part key suffix last : Str} {place number : Nat}

/-- What is left out adds nothing to the kept parts. -/
theorem keptParts_of_leftOut (ready : Router.Ready registered router)
    (leftOut : ∀ front, front ≠ [] → front <+: passed →
      LeftOut registered (before ++ front)) :
    router.keptParts (before ++ passed) = router.keptParts before := by
  induction passed using List.reverseRecOn with
  | nil => rw [List.append_nil]
  | append_singleton passed last ih =>
      have shorter : ∀ front, front ≠ [] → front <+: passed →
          LeftOut registered (before ++ front) := fun front filled isPrefix =>
        leftOut front filled (isPrefix.trans (List.prefix_append _ _))
      have here := leftOut _ (by simp) List.prefix_rfl
      rw [← List.append_assoc] at here ⊢
      have free : ∀ part ∈ before ++ passed ++ [last], pathPartSeparator ∉ part := by
        rcases here with ⟨api, mem, own, _⟩
        exact Begins.free ⟨api, mem, by rw [own]⟩
      rw [Router.keptParts_append, (ready.contains_iff free (by simp)).mpr here, if_pos rfl,
        List.append_nil, ih shorter]

/-- A step adds its part to the kept ones, unless it leads to a path that is left out. -/
theorem Next.keptParts (ready : Router.Ready registered router)
    (next : Next registered before part after) :
    (LeftOut registered after → router.keptParts after = router.keptParts before) ∧
      (¬LeftOut registered after →
        router.keptParts after = router.keptParts before ++ [part]) := by
  have contains := ready.contains_iff next.begins.free next.ne_nil
  have whole : ∃ passed, after = before ++ passed ++ [part] ∧
      router.keptParts (before ++ passed) = router.keptParts before := by
    cases next with
    | below _ => exact ⟨[], by simp, by simp⟩
    | behind _ behind _ => exact ⟨_, rfl, keptParts_of_leftOut ready behind.leftOut⟩
  rcases whole with ⟨passed, rfl, same⟩
  rw [Router.keptParts_append, same]
  constructor
  · intro leftOut
    rw [contains.mpr leftOut, if_pos rfl, List.append_nil]
  · intro kept
    rw [if_neg (mt contains.mp kept)]

/-- Where nothing was left out on the way, the kept parts are those that were taken. -/
theorem Goes.keptParts (ready : Router.Ready registered router)
    (goes : Goes registered parts before) : router.keptParts before = parts := by
  induction goes with
  | start => rfl
  | on goes next kept ih => rw [(next.keptParts ready).2 kept, ih]

namespace Built

end Built

namespace Built

end Built

namespace Router

end Router

end Dce.Routing
