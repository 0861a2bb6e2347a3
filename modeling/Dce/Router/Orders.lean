import Dce.Router.Bindings
import Dce.Util.TreeTwins

/-!
# The order of paths

The paths of the apis are gone through in the order of a `HashSet`, which may be
another one in each run of the program. The nodes of the tree then lie at other
places, and every request is still located to the same api.
-/

namespace Dce.Routing

open Text ATree

variable {Rp : Type} {registered : List (Api Rp)}

/-- Branches of two trees that differ in the places which they refer to only. -/
structure ApiBranch.Matches (twins : Nat → Nat → Prop) (left right : ApiBranch Rp) : Prop where
  path : left.path = right.path
  varType : left.varType = right.varType
  isMidVar : left.isMidVar = right.isMidVar
  isOmission : left.isOmission = right.isOmission
  apis : left.apis = right.apis
  varChildren : List.Forall₂ twins left.varChildren right.varChildren
  omittedPassedChildren (key : Str) : Option.Rel twins left.omittedPassedChildren[key]?
    right.omittedPassedChildren[key]?

variable {left right final final' : ApiTree Rp} {place place' node node' : Nat}

theorem ApiBranch.Fresh.matches {branch : ApiBranch Rp} (fresh : branch.Fresh)
    (twins : Nat → Nat → Prop) : branch.Matches twins branch where
  path := rfl
  varType := rfl
  isMidVar := rfl
  isOmission := rfl
  apis := rfl
  varChildren := by
    rw [fresh.varChildren]
    exact .nil
  omittedPassedChildren key := by
    rw [fresh.omittedPassedChildren]
    simp only [Std.ExtTreeMap.getElem?_empty]
    exact .none

/-- Climbing from twins leads to twins. -/
theorem climb_twins (paired : Paired left right) (twins : Twins left right place place')
    (fuel : Nat) (passed : Bool) :
    Option.Rel (fun heir heir' => Twins left right heir.1 heir'.1 ∧ heir.2 = heir'.2)
      (climb left fuel place passed) (climb right fuel place' passed) := by
  induction fuel generalizing place place' passed with
  | zero => exact .none
  | succ fuel ih =>
      have up := twins.parent paired
      rw [climb, climb]
      revert up
      generalize left.parent place = parent
      generalize right.parent place' = parent'
      intro up
      cases up with
      | none => exact .none
      | some above =>
          dsimp only
          rw [above.element? paired]
          split
          · exact ih above true
          · exact .some ⟨above, rfl⟩

theorem heirOf_twins (paired : Paired left right) (twins : Twins left right node node') :
    Option.Rel (fun heir heir' => Twins left right heir.1 heir'.1 ∧ heir.2 = heir'.2)
      (heirOf left node) (heirOf right node') := by
  rw [heirOf, heirOf, paired.length_eq]
  exact climb_twins paired twins _ false

theorem adopted_matches {twins : Nat → Nat → Prop} {ancestor ancestor' : ApiBranch Rp}
    (alike : ancestor.Matches twins ancestor') (one : twins node node') (branch : ApiBranch Rp)
    (passed : Bool) :
    (branch.adopted node passed ancestor).Matches twins
      (branch.adopted node' passed ancestor') where
  path := alike.path
  varType := alike.varType
  isMidVar := by
    rw [ApiBranch.adopted, ApiBranch.adopted, alike.varType, alike.isMidVar]
  isOmission := alike.isOmission
  apis := alike.apis
  varChildren := by
    simp only [ApiBranch.adopted]
    split
    · exact List.rel_append alike.varChildren (.cons one .nil)
    · exact alike.varChildren
  omittedPassedChildren key := by
    simp only [ApiBranch.adopted]
    split
    · rw [Std.ExtTreeMap.getElem?_insert, Std.ExtTreeMap.getElem?_insert]
      split
      · exact .some one
      · exact alike.omittedPassedChildren key
    · exact alike.omittedPassedChildren key

theorem inherit_matches (paired : Paired left right) (here : Twins left right place place')
    (twins : Twins left right node node') {ancestor ancestor' : ApiBranch Rp}
    (alike : ancestor.Matches (Twins left right) ancestor') :
    (inherit left place ancestor node).Matches (Twins left right)
      (inherit right place' ancestor' node') := by
  have heirs := heirOf_twins paired twins
  rw [inherit, inherit, twins.element? paired]
  revert heirs
  generalize heirOf left node = heir
  generalize heirOf right node' = heir'
  intro heirs
  cases right.element? node' with
  | none => exact alike
  | some branch =>
      cases heirs with
      | none => exact alike
      | @some heir heir' related =>
          rcases heir with ⟨parent, passed⟩
          rcases heir' with ⟨parent', passed'⟩
          rcases related with ⟨above, same⟩
          cases same
          dsimp only
          by_cases own : parent = place
          · rw [if_pos own, if_pos ((above.eq_iff paired here).mp own)]
            exact adopted_matches alike twins branch passed
          · rw [if_neg own, if_neg fun own' => own ((above.eq_iff paired here).mpr own')]
            exact alike

theorem foldl_inherit_matches (paired : Paired left right) (here : Twins left right place place')
    {nodes nodes' : List Nat} (twins : List.Forall₂ (Twins left right) nodes nodes')
    {branch branch' : ApiBranch Rp} (alike : branch.Matches (Twins left right) branch') :
    (nodes.foldl (inherit left place) branch).Matches (Twins left right)
      (nodes'.foldl (inherit right place') branch') := by
  induction twins generalizing branch branch' with
  | nil => exact alike
  | cons one rest ih =>
      rw [List.foldl_cons, List.foldl_cons]
      exact ih (inherit_matches paired here one alike)

/-- The second pass leaves matching branches at twins. -/
theorem element?_matches (paired : Paired left right)
    (fresh : ∀ place branch, right.element? place = some branch → branch.Fresh)
    (halfway : Halfway left (left.visits left.nodes.length [0]) final)
    (halfway' : Halfway right (right.visits right.nodes.length [0]) final')
    (twins : Twins left right place place') :
    Option.Rel (ApiBranch.Matches (Twins left right)) (final.element? place)
      (final'.element? place') := by
  have visits := paired.visits left.nodes.length (.cons (Twins.root left right) .nil)
  rw [halfway.holds, halfway'.holds, twins.element? paired, ← paired.length_eq]
  cases held : right.element? place' with
  | none => exact .none
  | some branch =>
      exact .some (foldl_inherit_matches paired twins visits ((fresh place' branch held).matches _))

/-- The heir of a node is a variable behind which nothing may stand, or that of its twin is too. -/
theorem ambiguous_twins (paired : Paired left right) (twins : Twins left right node node') :
    Ambiguous left node ↔ Ambiguous right node' := by
  have half {left right : ApiTree Rp} {node node' : Nat} (paired : Paired left right)
      (twins : Twins left right node node') (ambiguous : Ambiguous left node) :
      Ambiguous right node' := by
    rcases ambiguous with ⟨parent, passed, ancestor, heir, held, ends⟩
    have heirs := heirOf_twins paired twins
    rw [heir] at heirs
    revert heirs
    generalize other : heirOf right node' = heir'
    intro heirs
    cases heirs with
    | @some _ heir' related =>
        rcases heir' with ⟨parent', passed'⟩
        refine ⟨parent', passed', ancestor, other, ?_, ends⟩
        rw [← related.1.element? paired]
        exact held
  exact ⟨half paired twins, half paired.symm twins.symm⟩

/-- Nodes that wait with as many parts used up. -/
def TwinItems (left right : ApiTree Rp) (item item' : Nat × Nat) : Prop :=
  Twins left right item.1 item'.1 ∧ item.2 = item'.2

/-- What is found at twins. -/
def TwinFinds {α : Type} (left right : ApiTree Rp) (found found' : Nat × α) : Prop :=
  Twins left right found.1 found'.1 ∧ found.2 = found'.2

/-- Visits that lead to twins. -/
inductive TwinVisits (left right : ApiTree Rp) : Visit → Visit → Prop where
  | target {ending ending' : Nat} (twins : Twins left right ending ending') (found : Found) :
      TwinVisits left right (.target ending found) (.target ending' found)
  | further {items items' : List (Nat × Nat)} (found : Found)
      (twins : List.Forall₂ (TwinItems left right) items items') :
      TwinVisits left right (.further items found) (.further items' found)

namespace Router

/-- Routers whose trees hold matching branches at twins, and that are the same else. -/
structure Twin (left right : ApiTree Rp) (router router' : Router Rp) : Prop where
  paired : Paired left right
  links : SameLinks left router.apisTree
  links' : SameLinks right router'.apisTree
  branch? {place place' : Nat} (twins : Twins left right place place') :
    Option.Rel (ApiBranch.Matches (Twins left right)) (router.branch? place)
      (router'.branch? place')
  separator : router.pathPartSeparator = router'.pathPartSeparator
  boundary : router.suffixBoundary = router'.suffixBoundary
  mapping : router.apisMapping = router'.apisMapping
  omitted : router.rawOmittedPaths = router'.rawOmittedPaths

variable {router router' : Router Rp} {parts : List Str} {number : Nat} {found : Found}

namespace Twin

theorem size (twin : Twin left right router router') :
    router.apisTree.nodes.length = router'.apisTree.nodes.length := by
  rw [twin.links.length, twin.links'.length, twin.paired.length_eq]

theorem child? (twin : Twin left right router router') (twins : Twins left right place place')
    (key : Str) :
    Option.Rel (Twins left right) (router.child? place key) (router'.child? place' key) := by
  have static := twins.get twin.paired key
  have get : router.apisTree.get place key = left.get place key := by
    rw [ATree.get, ATree.get, twin.links.children]
  have get' : router'.apisTree.get place' key = right.get place' key := by
    rw [ATree.get, ATree.get, twin.links'.children]
  rw [Router.child?, Router.child?, get, get']
  revert static
  generalize left.get place key = child
  generalize right.get place' key = child'
  intro static
  cases static with
  | some below => exact .some below
  | none =>
      have branches := twin.branch? twins
      revert branches
      generalize router.branch? place = branch
      generalize router'.branch? place' = branch'
      intro branches
      cases branches with
      | none => exact .none
      | some matching => exact matching.omittedPassedChildren key

theorem suffixesOf (twin : Twin left right router router')
    (twins : Twins left right place place') :
    router.suffixesOf place = router'.suffixesOf place' := by
  have branches := twin.branch? twins
  rw [Router.suffixesOf, Router.suffixesOf]
  revert branches
  generalize router.branch? place = branch
  generalize router'.branch? place' = branch'
  intro branches
  cases branches with
  | none => rfl
  | some matching => rw [Option.map_some, Option.map_some, matching.apis]

theorem findCut (twin : Twin left right router router') (twins : Twins left right place place')
    (part : Str) (fronts : List Str) :
    Outcome.Agree (Option.Rel (TwinFinds left right)) (router.findCut place part fronts)
      (router'.findCut place' part fronts) := by
  induction fronts with
  | nil => exact .ok .none
  | cons front fronts ih =>
      have children := twin.child? twins front
      rw [Router.findCut, Router.findCut]
      revert children
      generalize router.child? place front = child
      generalize router'.child? place' front = child'
      intro children
      cases children with
      | none => exact ih
      | some below =>
          dsimp only
          rw [twin.suffixesOf below]
          split
          · exact .ok .none
          · refine Outcome.Agree.bind (.of_eq (fun _ => rfl) _) ?_
            rintro rest _ rfl
            refine .ok ?_
            generalize List.find? _ _ = suffix
            cases suffix with
            | none => exact .none
            | some suffix => exact .some ⟨below, rfl⟩

theorem findConsiderSuffix (twin : Twin left right router router')
    (twins : Twins left right place place') (part : Str) (isLastPart : Bool) :
    Outcome.Agree (Option.Rel (TwinFinds left right))
      (router.findConsiderSuffix part isLastPart place)
      (router'.findConsiderSuffix part isLastPart place') := by
  have children := twin.child? twins part
  rw [Router.findConsiderSuffix, Router.findConsiderSuffix, twin.boundary]
  revert children
  generalize router.child? place part = child
  generalize router'.child? place' part = child'
  intro children
  cases children with
  | some below => exact .ok (.some ⟨below, rfl⟩)
  | none =>
      dsimp only
      split
      · exact twin.findCut twins part _
      · exact .ok .none

theorem bindVar (twin : Twin left right router router')
    (twins : Twins left right place place') (varType : VarType) :
    router.bindVar parts number place varType found =
      router'.bindVar parts number place' varType found := by
  have extract (suffix : Str) : router.extractSuffix place parts suffix =
      router'.extractSuffix place' parts suffix := by
    rw [Router.extractSuffix, Router.extractSuffix, twin.suffixesOf twins, twin.boundary]
  unfold Router.bindVar
  rw [extract]

theorem tryVars (twin : Twin left right router router') {places places' : List Nat}
    (twins : List.Forall₂ (Twins left right) places places') {items items' : List (Nat × Nat)}
    (waiting : List.Forall₂ (TwinItems left right) items items') :
    Outcome.Agree (TwinVisits left right) (router.tryVars parts number places items found)
      (router'.tryVars parts number places' items' found) := by
  induction twins generalizing items items' found with
  | nil => exact .ok (.further found waiting)
  | @cons place place' places places' one rest ih =>
      have branches := twin.branch? one
      rw [Router.tryVars, Router.tryVars]
      revert branches
      generalize router.branch? place = branch
      generalize router'.branch? place' = branch'
      intro branches
      cases branches with
      | none => exact ih waiting
      | some matching =>
          dsimp only
          rw [matching.isMidVar, matching.varType, twin.bindVar one]
          split
          · split
            · split
              · exact ih (List.rel_append waiting (.cons ⟨one, rfl⟩ .nil))
              · exact .panic
            · exact ih waiting
          · refine Outcome.Agree.bind (.of_eq (fun _ => rfl) _) ?_
            rintro bound _ rfl
            cases bound with
            | none => exact ih waiting
            | some found' => exact .ok (.target one found')

theorem visit (twin : Twin left right router router') (twins : Twins left right place place') :
    Outcome.Agree (TwinVisits left right) (router.visit parts place number found)
      (router'.visit parts place' number found) := by
  have branches := twin.branch? twins
  rw [Router.visit, Router.visit]
  revert branches
  generalize router.branch? place = branch
  generalize router'.branch? place' = branch'
  intro branches
  cases branches with
  | none => exact .ok (.further found .nil)
  | some matching =>
      dsimp only
      rw [matching.apis]
      split
      · exact .ok (.target twins found)
      · cases parts[number]? with
        | none =>
            rw [Outcome.bind_ok, Outcome.bind_ok]
            exact twin.tryVars matching.varChildren .nil
        | some part =>
            refine (twin.findConsiderSuffix twins part _).bind ?_
            intro match₁ match₂ related
            cases related with
            | none => exact twin.tryVars matching.varChildren .nil
            | @some found₁ found₂ same =>
                rcases found₁ with ⟨child, suffix⟩
                rcases found₂ with ⟨child', suffix'⟩
                rcases same with ⟨below, cut⟩
                cases cut
                exact .ok (.further _ (.cons ⟨below, rfl⟩ .nil))

theorem walk (twin : Twin left right router router') (fuel : Nat) {items items' : List (Nat × Nat)}
    (twins : List.Forall₂ (TwinItems left right) items items') :
    Outcome.Agree (Option.Rel (TwinFinds left right)) (router.walk parts fuel items found)
      (router'.walk parts fuel items' found) := by
  induction fuel generalizing items items' found with
  | zero => exact .ok .none
  | succ fuel ih =>
      cases twins with
      | nil => exact .ok .none
      | @cons item item' _ _ one rest =>
          rcases item with ⟨place, number⟩
          rcases item' with ⟨place', number'⟩
          rcases one with ⟨here, same⟩
          cases same
          rw [Router.walk, Router.walk]
          refine (twin.visit here).bind ?_
          intro visit visit' related
          cases related with
          | target ends found' => exact .ok (.some ⟨ends, rfl⟩)
          | further found' next => exact ih (List.rel_append next rest)

/-- Twin routers find the same for each path. -/
theorem matchVarPath_eq (twin : Twin left right router router') (path : Str) :
    router.matchVarPath path = router'.matchVarPath path := by
  rw [matchVarPath, matchVarPath, twin.separator, twin.size]
  apply Outcome.Agree.eq
  refine (twin.walk _ (.cons ⟨Twins.root left right, rfl⟩ .nil)).bind ?_
  intro target target' related
  refine .ok ?_
  cases related with
  | none => rfl
  | @some target target' same =>
      rcases target with ⟨place, found⟩
      rcases target' with ⟨place', found'⟩
      rcases same with ⟨here, finds⟩
      cases finds
      have branches := twin.branch? here
      simp only [Option.bind_some]
      revert branches
      generalize router.branch? place = branch
      generalize router'.branch? place' = branch'
      intro branches
      cases branches with
      | none => rfl
      | some matching => rw [Option.map_some, Option.map_some, matching.path]

variable {apiFinder : List (Api Rp) → Outcome DceErr (Api Rp)}

theorem locateOnce_eq (twin : Twin left right router router') (path : Str) (pathArgs : PathArgs)
    (suffix : Option Str) :
    router.locateOnce apiFinder path pathArgs suffix =
      router'.locateOnce apiFinder path pathArgs suffix := by
  have omittedPath (path : Str) : router.omittedPath path = router'.omittedPath path := by
    rw [Router.omittedPath, Router.omittedPath, twin.omitted]
  simp only [locateOnce, twin.mapping, twin.matchVarPath_eq, omittedPath]

/-- Twin routers locate each request to the same api. -/
theorem locate_eq (twin : Twin left right router router') (fuel : Nat) (path : Str) :
    router.locate apiFinder fuel path = router'.locate apiFinder fuel path := by
  have rounds (pathArgs : PathArgs) (suffix : Option Str) :
      router.locateFrom apiFinder fuel path pathArgs suffix =
        router'.locateFrom apiFinder fuel path pathArgs suffix := by
    induction fuel generalizing path pathArgs suffix with
    | zero => rfl
    | succ fuel ih =>
        rw [locateFrom, locateFrom, twin.locateOnce_eq]
        split
        · split
          · rfl
          · exact ih _ _ _
        · rfl
        · rfl
  exact rounds ∅ none

end Twin

end Router

/-- The branches of all groups are made, or one of them panics. -/
theorem mapM_new_cases (groups : List (Str × List (Api Rp))) :
    (∀ group ∈ groups, ApiBranch.new group.1 group.2 ≠ .panic) ∧
        (∃ branches, groups.mapM (fun group => ApiBranch.new group.1 group.2) = .ok branches) ∨
      (∃ group ∈ groups, ApiBranch.new group.1 group.2 = .panic) ∧
        groups.mapM (fun group => ApiBranch.new group.1 group.2) = .panic := by
  induction groups with
  | nil =>
      left
      exact ⟨fun group mem => (List.not_mem_nil mem).elim, [], rfl⟩
  | cons group groups ih =>
      rw [List.mapM_cons]
      by_cases refused : ApiBranch.new group.1 group.2 = .panic
      · right
        refine ⟨⟨group, List.mem_cons_self, refused⟩, ?_⟩
        rw [refused]
        rfl
      · have made : ApiBranch.new group.1 group.2 = .ok (ApiBranch.ofPath group.1 group.2) := by
          rw [ApiBranch.new] at refused ⊢
          split
          · rename_i both
            exact absurd (if_pos both) refused
          · rfl
        rw [made, Outcome.bind_ok]
        rcases ih with ⟨clear, branches, returns⟩ | ⟨⟨other, mem, panics⟩, all⟩
        · left
          refine ⟨?_, ApiBranch.ofPath group.1 group.2 :: branches, ?_⟩
          · intro other mem
            rcases List.mem_cons.mp mem with rfl | behind
            · exact refused
            · exact clear other behind
          · rw [returns]
            rfl
        · right
          refine ⟨⟨other, List.mem_cons_of_mem _ mem, panics⟩, ?_⟩
          rw [all]
          rfl

/-- The first pass panics whatever the order is, or in none. -/
theorem firstPass_agree (order order' : PathOrder) (trimmed : Trimmed registered) :
    Outcome.Agree (fun left right => Paired left right ∧
        (left.Linked ∧ right.Linked) ∧
        ∀ place branch, right.element? place = some branch → branch.Fresh)
      (firstPass order registered (Router.new : Router Rp).apisTree)
      (firstPass order' registered (Router.new : Router Rp).apisTree) := by
  let groups (order : PathOrder) : List (Str × List (Api Rp)) :=
    (order.paths (registered.map (·.path))).map fun path =>
      (path, registered.filter (·.path == path))
  have members (group : Str × List (Api Rp)) :
      group ∈ groups order ↔ group ∈ groups order' := by
    simp only [groups, List.mem_map, order.mem_paths, order'.mem_paths]
  have pass (order : PathOrder) : firstPass order registered (Router.new : Router Rp).apisTree =
      ((groups order).mapM fun group => ApiBranch.new group.1 group.2) >>= fun branches =>
        .ok ((Router.new : Router Rp).apisTree.build branches fillRemains) := rfl
  rcases mapM_new_cases (groups order) with
    ⟨clear, branches, returns⟩ | ⟨⟨group, mem, refused⟩, all⟩
  · rcases mapM_new_cases (groups order') with
      ⟨_, branches', returns'⟩ | ⟨⟨group, mem, refused⟩, _⟩
    · have passed := pass order
      have passed' := pass order'
      rw [returns, Outcome.bind_ok] at passed
      rw [returns', Outcome.bind_ok] at passed'
      have left := prefixTree_firstPass order trimmed passed
      have right := prefixTree_firstPass order' trimmed passed'
      rw [passed, passed']
      exact .ok ⟨⟨left.sound, right.sound, left.content_eq right⟩,
        ⟨(of_firstPass passed).1, (of_firstPass passed').1⟩, (of_firstPass passed').2⟩
    · exact absurd refused (clear group ((members group).mpr mem))
  · rcases mapM_new_cases (groups order') with ⟨clear, _⟩ | ⟨_, all'⟩
    · exact absurd refused (clear group ((members group).mp mem))
    · rw [pass, pass, all, all']
      exact .panic

/-- The second pass panics in both of two paired trees, or in none. -/
theorem traversal_agree (paired : Paired left right) (linked : left.Linked)
    (linked' : right.Linked) :
    Outcome.Agree (fun final final' =>
        Halfway left (left.visits left.nodes.length [0]) final ∧
          Halfway right (right.visits right.nodes.length [0]) final')
      (left.traversal fillProperties) (right.traversal fillProperties) := by
  have visits := paired.visits left.nodes.length (.cons (Twins.root left right) .nil)
  have valid {tree : ApiTree Rp} (linked : tree.Linked) :
      ∀ node ∈ tree.visits tree.nodes.length [0], (tree.element? node).isSome := by
    intro node mem
    exact element?_isSome_iff.mpr (linked.lt_of_above ((linked.visits.2 node).mp mem))
  have clear : (∀ node ∈ left.visits left.nodes.length [0], ¬Ambiguous left node) ↔
      ∀ node ∈ right.visits right.nodes.length [0], ¬Ambiguous right node := by
    rw [← paired.length_eq]
    revert visits
    generalize left.visits left.nodes.length [0] = nodes
    generalize right.visits left.nodes.length [0] = nodes'
    intro visits
    induction visits with
    | nil => simp
    | cons twins _ ih =>
        rw [List.forall_mem_cons, List.forall_mem_cons, ih, ambiguous_twins paired twins]
  rcases (Halfway.refl left).foldlM _ (valid linked) with ⟨returns, panics⟩
  rcases (Halfway.refl right).foldlM _ (valid linked') with ⟨returns', panics'⟩
  rw [traversal_eq, traversal_eq]
  by_cases none : ∀ node ∈ left.visits left.nodes.length [0], ¬Ambiguous left node
  · rcases returns none with ⟨final, called, halfway⟩
    rcases returns' (clear.mp none) with ⟨final', called', halfway'⟩
    rw [called, called']
    exact .ok ⟨halfway, halfway'⟩
  · rw [panics (by simpa using none), panics' (by simpa using (not_congr clear).mp none)]
    exact .panic

theorem buildTree_agree (order order' : PathOrder) (trimmed : Trimmed registered) :
    Outcome.Agree (fun final final' => ∃ left right, Paired left right ∧
        SameLinks left final ∧ SameLinks right final' ∧
        ∀ place place', Twins left right place place' →
          Option.Rel (ApiBranch.Matches (Twins left right)) (final.element? place)
            (final'.element? place'))
      (buildTree order registered (Router.new : Router Rp).apisTree)
      (buildTree order' registered (Router.new : Router Rp).apisTree) := by
  rw [buildTree_eq, buildTree_eq]
  refine (firstPass_agree order order' trimmed).bind ?_
  rintro left right ⟨paired, ⟨linked, linked'⟩, fresh⟩
  have second := traversal_agree paired linked linked'
  revert second
  generalize left.traversal fillProperties = final
  generalize right.traversal fillProperties = final'
  intro second
  cases second with
  | ok halves =>
      exact .ok ⟨left, right, paired, halves.1.same, halves.2.same,
        fun _ _ => element?_matches paired fresh halves.1 halves.2⟩
  | err error => exact .err error
  | panic => exact .panic

/-- The pushed paths from the last one on. -/
def PathOrder.reversed : PathOrder where
  paths pushed := pushed.dedup.reverse
  nodup pushed := List.nodup_reverse.mpr (List.nodup_dedup pushed)
  mem_paths pushed path := by rw [List.mem_reverse, List.mem_dedup]

namespace Router

/-- In whatever order the paths are gone through, a router gets ready or panics, and the ready ones
locate every request alike. -/
theorem ready_agree (order order' : PathOrder) (partSeparator boundary : Char)
    (trimmed : Trimmed registered) :
    Outcome.Agree (fun router router' : Router Rp =>
        ∀ apiFinder fuel path,
          router.locate apiFinder fuel path = router'.locate apiFinder fuel path)
      ((registered.foldl push (new.setSeparator partSeparator boundary)).ready order)
      ((registered.foldl push (new.setSeparator partSeparator boundary)).ready order') := by
  let pushed : Router Rp := registered.foldl push (new.setSeparator partSeparator boundary)
  have buffer : pushed.apiBuffer = registered := (push_fields registered _).1
  have start : pushed.apisTree = (new : Router Rp).apisTree :=
    foldl_push apisTree (fun _ _ => rfl) registered _
  rw [ready, ready, closing, closing, buffer, start]
  refine (buildTree_agree order order' trimmed).bind ?_
  rintro final final' ⟨left, right, paired, links, links', alike⟩
  refine .ok fun apiFinder fuel path => ?_
  let router (tree : ApiTree Rp) : Router Rp :=
    { pushed with
      apisTree := tree
      apisMapping := closeFrom pushed registered.length registered pushed.apisMapping
      apiBuffer := [] }
  have twin : Twin left right (router final) (router final') := {
    paired
    links
    links'
    branch? := fun twins => alike _ _ twins
    separator := rfl
    boundary := rfl
    mapping := rfl
    omitted := rfl }
  exact twin.locate_eq fuel path

/-- Two variables below a part that is not registered, in both orders. -/
theorem ready_agree_detail :
    let registered : List (Api Unit) :=
      [Api.new none "home/{id}/detail".toList [] false [],
        Api.new none "home/{id}/price".toList [] false [],
        Api.new none "home/about".toList [] true []]
    ∃ router router', (registered.foldl push new).ready .pushed = .ok router ∧
      (registered.foldl push new).ready .reversed = .ok router' ∧
      ∀ apiFinder fuel path,
        router.locate apiFinder fuel path = router'.locate apiFinder fuel path := by
  intro registered
  have trimmed : Trimmed registered := by
    rw [Trimmed]
    decide
  have agree := ready_agree .pushed .reversed Routing.pathPartSeparator Routing.suffixBoundary
    trimmed
  have returns : ((registered.foldl push new).ready .pushed).isOk = true := by decide
  rcases Outcome.isOk_iff.mp returns with ⟨router, ready⟩
  have same : (new : Router Unit).setSeparator Routing.pathPartSeparator Routing.suffixBoundary =
      new := rfl
  rw [same, ready] at agree
  generalize other : (registered.foldl push new).ready .reversed = ready' at agree
  cases agree with
  | @ok _ router' alike => exact ⟨router, router', ready, rfl, alike⟩

end Router

end Dce.Routing
