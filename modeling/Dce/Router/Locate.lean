import Dce.Router.Registration

/-!
# Locating an api

A request path is looked up in the mapping. One that is not there is walked down
the tree: a stack holds the branches to go on from, each with the number of the
part that comes next.
-/

namespace Dce.Routing

open Text

variable {Rp : Type}

inductive PathParam where
  | required (value : Str)
  | option (value : Option Str)
  | vector (values : List Str)
  deriving DecidableEq, Repr

abbrev PathArgs := Std.ExtTreeMap Str PathParam

/-- What a walk carries on besides its stack. -/
structure Found where
  suffix : Str
  args : PathArgs

/-- What a walk does at a branch: it ends there, or goes on from these branches first. -/
inductive Visit where
  | target (branch : Nat) (found : Found)
  | further (items : List (Nat × Nat)) (found : Found)

def codeNotFound : Int := 404

/-- `api_match`, for a request of a path. -/
def apiMatch (path : Str) (rp : Rp) (apis : List (Api Rp)) : Outcome DceErr (Api Rp) :=
  match apis.find? (·.methodMatch rp) with
  | some api => .ok api
  | none =>
      .err (.openly ⟨codeNotFound,
        "Path \"".toList ++ path ++ "\" cannot match any Api by Method".toList⟩)

namespace Router

variable (router : Router Rp)

def branch? (place : Nat) : Option (ApiBranch Rp) := router.apisTree.element? place

/-- The child with a key, or the one below omitted parts. -/
def child? (place : Nat) (key : Str) : Option Nat :=
  (router.apisTree.get place key).or
    ((router.branch? place).bind fun branch => branch.omittedPassedChildren[key]?)

/-- The suffixes of the apis of a branch, each api's in its own order. -/
def suffixesOf (place : Nat) : List Suffix :=
  ((router.branch? place).map fun branch =>
    branch.apis.flatMap fun api => api.suffixes.toList).getD []

/-- Look for a child whose key stands before a boundary of the part, and for its suffix after it.
The first child that is there decides. -/
def findCut (place : Nat) (part : Str) : List Str → Outcome DceErr (Option (Nat × Str))
  | [] => .ok none
  | previous :: cuts =>
      match router.child? place previous with
      | none => findCut place part cuts
      | some child =>
          match router.suffixesOf child with
          | [] => .ok none
          | suffixes => do
              let rest ← .ofSlice (sliceFrom part (len previous + 1))
              return (suffixes.find? (·.text = rest)).map fun suffix => (child, suffix.text)

def findConsiderSuffix (part : Str) (isLastPart : Bool) (place : Nat) :
    Outcome DceErr (Option (Nat × Str)) :=
  match router.child? place part with
  | some child => .ok (some (child, []))
  | none =>
      if isLastPart then router.findCut place part (cuts router.suffixBoundary part) else .ok none

/-- Cut the suffix of a variable branch off the last part, if it has one. -/
def extractSuffix (place : Nat) (parts : List Str) (suffix : Str) :
    Outcome DceErr (List Str × Str) :=
  match parts.getLast? with
  | none => .ok (parts, suffix)
  | some last =>
      let suffixes := (Std.ExtTreeSet.ofList (router.suffixesOf place)).toList
      match suffixes.find? fun suffix => (router.suffixBoundary :: suffix.text).isSuffixOf last with
      | none => .ok (parts, suffix)
      | some found => do
          let kept ← .ofSlice (slice last 0 (len last - len found.text - 1))
          return (parts.dropLast ++ [kept], found.text)

/-- Bind a variable at the end of a path, unless it cannot stand there. -/
def bindVar (parts : List Str) (number : Nat) (place : Nat) (varType : VarType) (found : Found) :
    Outcome DceErr (Option Found) :=
  let isLastPart := number == parts.length - 1
  let isOverflowed := decide (parts.length ≤ number)
  let extract (name : Str) (param : List Str → PathParam) : Outcome DceErr (Option Found) := do
    let (parts, suffix) ← router.extractSuffix place parts found.suffix
    return some ⟨suffix, found.args.insert name (param parts)⟩
  match varType with
  | .optional name =>
      if isOverflowed then .ok (some { found with args := found.args.insert name (.option none) })
      else if isLastPart then extract name fun parts => .option (parts[number]?)
      else .ok none
  | .required name =>
      if isLastPart then extract name fun parts => .required (parts[number]?.getD [])
      else .ok none
  | .emptableVector name =>
      if isOverflowed then .ok (some { found with args := found.args.insert name (.vector []) })
      else extract name fun parts => .vector (parts.drop number)
  | .vector name =>
      if isOverflowed then .ok none else extract name fun parts => .vector (parts.drop number)
  | .notVar => .ok none

/-- Go through the variables of a branch. Those in the middle of paths wait on the stack. -/
def tryVars (parts : List Str) (number : Nat) :
    List Nat → List (Nat × Nat) → Found → Outcome DceErr Visit
  | [], items, found => .ok (.further items found)
  | place :: places, items, found =>
      match router.branch? place with
      | none => tryVars parts number places items found
      | some branch =>
          if branch.isMidVar then
            match branch.varType with
            | .required name =>
                match parts[number]? with
                | some part =>
                    tryVars parts number places (items ++ [(place, number + 1)])
                      { found with args := found.args.insert name (.required part) }
                | none => .panic
            | _ => tryVars parts number places items found
          else do
            match ← router.bindVar parts number place branch.varType found with
            | some found => return .target place found
            | none => tryVars parts number places items found

/-- What the walk does at the branch on top of its stack. -/
def visit (parts : List Str) (place number : Nat) (found : Found) : Outcome DceErr Visit :=
  match router.branch? place with
  | none => .ok (.further [] found)
  | some branch =>
      let isOverflowed := decide (parts.length ≤ number)
      if isOverflowed && !branch.apis.isEmpty then .ok (.target place found)
      else do
        let matched ← match parts[number]? with
          | none => .ok none
          | some part => router.findConsiderSuffix part (number == parts.length - 1) place
        match matched with
        | some (child, suffix) => return .further [(child, number + 1)] { found with suffix }
        | none => router.tryVars parts number branch.varChildren [] found

/-- The walk, for at most so many branches. -/
def walk (parts : List Str) : Nat → List (Nat × Nat) → Found →
    Outcome DceErr (Option (Nat × Found))
  | 0, _, _ => .ok none
  | _ + 1, [], _ => .ok none
  | fuel + 1, (place, number) :: items, found => do
      match ← router.visit parts place number found with
      | .target branch found => return some (branch, found)
      | .further next found => walk parts fuel (next ++ items) found

def matchVarPath (path : Str) : Outcome DceErr (Option (Str × PathArgs × Str)) := do
  let parts := path.splitOn router.pathPartSeparator
  let target ← router.walk parts router.apisTree.nodes.length [(0, 0)] ⟨[], ∅⟩
  return target.bind fun (place, found) =>
    (router.branch? place).map fun branch => (branch.path, found.args, found.suffix)

/-- What a request is located to. The suffix is left open by a direct match. -/
structure Location (Rp : Type) where
  api : Api Rp
  pathArgs : PathArgs
  suffix : Option Str

def notRouted (path : Str) : DceErr :=
  .openly ⟨codeNotFound,
    "path \"".toList ++ path ++ "\" route failed, could not matched by Router".toList⟩

/-- Look a path up. The parameters and the suffix of the path before it stay where there are no new
ones. -/
def locateOnce (apiFinder : List (Api Rp) → Outcome DceErr (Api Rp)) (path : Str)
    (pathArgs : PathArgs) (suffix : Option Str) : Outcome DceErr (Location Rp) :=
  match router.apisMapping[path]? with
  | some apis => do
      let api ← apiFinder apis
      return ⟨api, pathArgs, suffix⟩
  | none => do
      match ← router.matchVarPath path with
      | none => .err (notRouted path)
      | some (tmpPath, pathArgs, tmpSuffix) =>
          match router.apisMapping[suffixPath (router.omittedPath tmpPath) tmpSuffix]? with
          | none => .err (notRouted path)
          | some apis => do
              let api ← apiFinder apis
              return ⟨api, pathArgs, some tmpSuffix⟩

/-- Follow at most so many redirects. -/
def locateFrom (apiFinder : List (Api Rp) → Outcome DceErr (Api Rp)) :
    Nat → Str → PathArgs → Option Str → Option (Outcome DceErr (Location Rp))
  | 0, _, _, _ => none
  | fuel + 1, path, pathArgs, suffix =>
      match router.locateOnce apiFinder path pathArgs suffix with
      | .ok found =>
          if found.api.redirect.isEmpty then some (.ok found)
          else locateFrom apiFinder fuel found.api.redirect found.pathArgs found.suffix
      | .err error => some (.err error)
      | .panic => some .panic

/-- `locate`, unless it follows more redirects than that. -/
def locate (apiFinder : List (Api Rp) → Outcome DceErr (Api Rp)) (fuel : Nat) (path : Str) :
    Option (Outcome DceErr (Location Rp)) :=
  router.locateFrom apiFinder fuel path ∅ none

end Router

end Dce.Routing
