import Dce.Router.Branch

/-!
# The tree of apis

The first pass puts a branch for each registered path into the tree and fills
the gaps between them with bare branches. The second pass tells each branch
about the variables and the omitted parts below it.
-/

namespace Dce.Routing

open Text

variable {Rp : Type}

abbrev ApiTree (Rp : Type) := ATree (ApiBranch Rp) Str

/-- The order in which a `HashSet` of paths is gone through. -/
structure PathOrder where
  paths : List Str → List Str
  nodup (pushed : List Str) : (paths pushed).Nodup
  mem_paths (pushed : List Str) (path : Str) : path ∈ paths pushed ↔ path ∈ pushed

def PathOrder.pushed : PathOrder where
  paths := List.dedup
  nodup := List.nodup_dedup
  mem_paths _ _ := List.mem_dedup

/-- The branches by the parts of their paths, in the order of a `BTreeMap`. -/
abbrev Fills (Rp : Type) := Std.ExtTreeMap (List Str) (ApiBranch Rp)

/-- Fill the missing ancestors of a path, the first ones of its parts, with bare branches. -/
def fillGaps (tree : ApiTree Rp) (parts : List Str) (fills : Fills Rp) : Fills Rp :=
  (List.range (parts.length - 1)).foldl (fun fills i =>
    let path := parts.take (i + 1)
    if (tree.getByPath path).isNone && !fills.contains path then
      fills.insert path (ApiBranch.ofPath (join pathPartSeparator path) [])
    else fills) fills

/-- A branch with the missing ancestors of its path. -/
def fillBranch (tree : ApiTree Rp) (branch : ApiBranch Rp) (fills : Fills Rp) : Fills Rp :=
  let parts := branch.path.splitOn pathPartSeparator
  (fillGaps tree parts fills).insert parts branch

/-- Put the branches without a parent into the tree, after what their paths lack. -/
def fillRemains (tree : ApiTree Rp) (remains : List (ApiBranch Rp)) : ApiTree Rp :=
  let fills := remains.foldr (fillBranch tree) ∅
  fills.toList.foldl (fun tree (parts, branch) => tree.setByPath parts branch) tree

/-- The nearest ancestor that is not left out of requests, and whether one on the way is. -/
def climb (tree : ApiTree Rp) : Nat → Nat → Bool → Option (Nat × Bool)
  | 0, _, _ => none
  | fuel + 1, current, passed =>
      match tree.parent current with
      | none => none
      | some parent =>
          if (tree.element? parent).any (·.isOmission) then climb tree fuel parent true
          else some (parent, passed)

/-- What a branch leaves at its nearest ancestor. -/
def ApiBranch.adopt (place : Nat) (branch : ApiBranch Rp) (passed : Bool)
    (ancestor : ApiBranch Rp) : Outcome DceErr (ApiBranch Rp) := do
  let ancestor ← match ancestor.varType with
    | .required _ => .ok { ancestor with isMidVar := true }
    | .notVar => .ok ancestor
    | _ => .panic
  -- a variable is pushed whether or not an omitted part was passed
  if branch.varType ≠ .notVar then
    return { ancestor with varChildren := ancestor.varChildren ++ [place] }
  else if passed then
    return { ancestor with
      omittedPassedChildren := ancestor.omittedPassedChildren.insert branch.key place }
  else
    return ancestor

/-- The callback of the second pass. -/
def fillProperties (place : Nat) (tree : ApiTree Rp) : Outcome DceErr (ApiTree Rp) :=
  match tree.element? place, climb tree tree.nodes.length place false with
  | some branch, some (parent, passed) =>
      match tree.element? parent with
      | some ancestor => do
          let ancestor ← branch.adopt place passed ancestor
          return tree.write parent fun _ => ancestor
      | none => .ok tree
  | _, _ => .ok tree

/-- `build_tree`, for the apis in the buffer. -/
def buildTree (order : PathOrder) (buffer : List (Api Rp)) (tree : ApiTree Rp) :
    Outcome DceErr (ApiTree Rp) := do
  let groups := (order.paths (buffer.map (·.path))).map fun path =>
    (path, buffer.filter (·.path == path))
  let branches ← groups.mapM fun (path, apis) => ApiBranch.new path apis
  (tree.build branches fillRemains).traversal fillProperties

end Dce.Routing
