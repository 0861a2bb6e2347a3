import Dce.Router.Landing

/-!
# Requests that suit a path

A walk compares the parts of a request with those of the registered path where it
ends up: a static part is there as it is, or it is left out, and a variable takes
one part, none or all that are left.
-/

namespace Dce.Routing

open Text ATree

variable {Rp : Type}

/-- All parts between a beginning of a path and what follows are left out. -/
def Passes (registered : List (Api Rp)) (before passed : List Str) : Prop :=
  ∀ front, front ≠ [] → front <+: passed → LeftOut registered (before ++ front)

/-- Parts of a request that suit the beginning of a path. -/
inductive SuitsBefore (registered : List (Api Rp)) : List Str → List Str → Prop where
  | start : SuitsBefore registered [] []
  | static {before passed parts : List Str} {part : Str}
      (suits : SuitsBefore registered before parts) (passes : Passes registered before passed) :
      SuitsBefore registered (before ++ passed ++ [part]) (parts ++ [part])
  | middle {before passed parts : List Str} {key part : Str}
      (suits : SuitsBefore registered before parts) (passes : Passes registered before passed)
      (var : VarType.ofKey key ≠ .notVar) :
      SuitsBefore registered (before ++ passed ++ [key]) (parts ++ [part])

/-- A variable at the end of a path takes the parts that are left. -/
def VarType.takes : VarType → List Str → Prop
  | .required _, rest => rest.length = 1
  | .optional _, rest => rest.length ≤ 1
  | .emptableVector _, _ => True
  | .vector _, rest => rest ≠ []
  | .notVar, _ => False

/-- The parts of a request suit a whole path. -/
inductive Suits (registered : List (Api Rp)) (boundary : Char) (parts : List Str) :
    List Str → Prop where
  | complete {path : List Str} (suits : SuitsBefore registered path parts) :
      Suits registered boundary parts path
  | cut {before passed front : List Str} {part rest : Str}
      (suits : SuitsBefore registered before front) (passes : Passes registered before passed)
      (split : parts = front ++ [part ++ boundary :: rest]) :
      Suits registered boundary parts (before ++ passed ++ [part])
  | var {before passed front rest : List Str} {key : Str}
      (suits : SuitsBefore registered before front) (passes : Passes registered before passed)
      (split : parts = front ++ rest) (takes : (VarType.ofKey key).takes rest) :
      Suits registered boundary parts (before ++ passed ++ [key])

variable {registered : List (Api Rp)} {router : Router Rp} {tree : ApiTree Rp}
  {before path parts : List Str} {part : Str} {place number : Nat}

theorem Next.passes (next : Next registered before part path) :
    ∃ passed, path = before ++ passed ++ [part] ∧ Passes registered before passed := by
  cases next with
  | below begins =>
      refine ⟨[], by simp, ?_⟩
      intro front filled isPrefix
      exact absurd (List.prefix_nil.mp isPrefix) filled
  | behind _ behind _ => exact ⟨_, rfl, behind.leftOut⟩

theorem Suits.ne_nil {boundary : Char} (filled : parts ≠ [])
    (suits : Suits registered boundary parts path) : path ≠ [] := by
  cases suits with
  | complete suits =>
      cases suits with
      | start => exact absurd rfl filled
      | static _ _ => simp
      | middle _ _ _ => simp
  | cut _ _ _ => simp
  | var _ _ _ _ => simp

/-- The parts that were used up suit the path of a branch that waits on the stack. -/
def Waits (registered : List (Api Rp)) (router : Router Rp) (tree : ApiTree Rp)
    (parts : List Str) (item : Nat × Nat) : Prop :=
  ∃ path, tree.getByPath path = some item.1 ∧
    (item.2 ≤ parts.length ∧ SuitsBefore registered path (parts.take item.2) ∨
      item.2 = parts.length ∧ Suits registered router.suffixBoundary parts path ∧
        ∃ branch, router.branch? item.1 = some branch ∧ branch.apis ≠ [])

namespace Built

end Built

end Dce.Routing
