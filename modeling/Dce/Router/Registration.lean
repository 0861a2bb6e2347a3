import Dce.Router.Tree

/-!
# Registration

Apis are pushed into a buffer. Closing the router builds the tree of their paths
and then empties the buffer, group by group, into the mapping of suffixed paths.
-/

namespace Dce.Routing

open Text

variable {Rp : Type}

structure Router (Rp : Type) where
  pathPartSeparator : Char
  suffixBoundary : Char
  apiBuffer : List (Api Rp)
  rawOmittedPaths : Std.ExtTreeSet Str
  idApiMapping : Std.ExtTreeMap Str (Api Rp)
  apisMapping : Std.ExtTreeMap Str (List (Api Rp))
  apisTree : ApiTree Rp

def suffixPath (path suffix : Str) : Str :=
  path ++ if suffix.isEmpty then [] else suffixBoundary :: suffix

namespace Router

def new : Router Rp where
  pathPartSeparator := Routing.pathPartSeparator
  suffixBoundary := Routing.suffixBoundary
  apiBuffer := []
  rawOmittedPaths := ∅
  idApiMapping := ∅
  apisMapping := ∅
  apisTree := ATree.new (ApiBranch.ofPath [] [])

def setSeparator (router : Router Rp) (pathPartSeparator suffixBoundary : Char) : Router Rp :=
  { router with pathPartSeparator, suffixBoundary }

def push (router : Router Rp) (api : Api Rp) : Router Rp :=
  { router with
    rawOmittedPaths :=
      if api.omission then router.rawOmittedPaths.insert api.path else router.rawOmittedPaths
    idApiMapping :=
      if api.id.isEmpty then router.idApiMapping else router.idApiMapping.insert api.id api
    apiBuffer := router.apiBuffer ++ [api] }

/-- A path without the parts that end a path in `rawOmittedPaths`. -/
def omittedPath (router : Router Rp) (path : Str) : Str :=
  let parts := path.splitOn Routing.pathPartSeparator
  let kept := parts.zipIdx.filter fun (_, i) =>
    !router.rawOmittedPaths.contains (join Routing.pathPartSeparator (parts.take (i + 1)))
  join Routing.pathPartSeparator (kept.map (·.1))

/-- Take the apis out of a buffer, from its end, whose omitted path is the given one but for the
case of letters. What was taken stands in front of `apis` in its order. -/
def takeSiblings (router : Router Rp) (path : Str) :
    List (Api Rp) → Suffixes → List (Api Rp) → List (Api Rp) × Suffixes × List (Api Rp)
  | [], suffixes, apis => ([], suffixes, apis)
  | api :: buffer, suffixes, apis =>
      let (kept, suffixes, apis) := takeSiblings router path buffer suffixes apis
      if eqIgnoreAsciiCase path (router.omittedPath api.path) then
        (kept, suffixes ∪ api.suffixes, api :: apis)
      else (api :: kept, suffixes, apis)

/-- Enter a group of apis under the path of its last one with each of their suffixes. -/
def enter (path : Str) (apis : List (Api Rp)) (mapping : Std.ExtTreeMap Str (List (Api Rp)))
    (suffix : Suffix) : Std.ExtTreeMap Str (List (Api Rp)) :=
  mapping.insert (suffixPath path suffix.text) (apis.filter (·.suffixes.contains suffix))

/-- Empty a buffer into the mapping. -/
def closeFrom (router : Router Rp) : Nat → List (Api Rp) →
    Std.ExtTreeMap Str (List (Api Rp)) → Std.ExtTreeMap Str (List (Api Rp))
  | 0, _, mapping => mapping
  | fuel + 1, buffer, mapping =>
      match buffer.getLast? with
      | none => mapping
      | some api =>
          let path := router.omittedPath api.path
          let (buffer, suffixes, apis) :=
            takeSiblings router path buffer.dropLast api.suffixes [api]
          closeFrom router fuel buffer (suffixes.toList.foldl (enter path apis) mapping)

def closing (order : PathOrder) (router : Router Rp) : Outcome DceErr (Router Rp) := do
  let apisTree ← buildTree order router.apiBuffer router.apisTree
  return { router with
    apisTree
    apisMapping := closeFrom router router.apiBuffer.length router.apiBuffer router.apisMapping
    apiBuffer := [] }

def ready (order : PathOrder) (router : Router Rp) : Outcome DceErr (Router Rp) :=
  router.closing order

end Router

end Dce.Routing
