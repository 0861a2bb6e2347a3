import Dce.Router.SecondPass
import Dce.Router.Walks

/-!
# A walk ends

The branches that a visit puts on the stack lie below the visited one and apart
from each other. So no branch is visited twice, and a walk makes at most as many
visits as there are nodes in the tree.
-/

namespace Dce.Routing.Router

open Text ATree WorkList

variable {Rp : Type} (router : Router Rp) (parts : List Str)

/-- The stack of a walk after so many visits, as long as it goes on. -/
def walkedTo : Nat → List (Nat × Nat) → Found → Option (List (Nat × Nat) × Found)
  | 0, items, found => some (items, found)
  | _ + 1, [], _ => none
  | count + 1, (place, number) :: items, found =>
      match router.visit parts place number found with
      | .ok (.further next found) => walkedTo count (next ++ items) found
      | _ => none

/-- The tree of the router is what the two passes make of some apis. -/
structure Planted (tree : ApiTree Rp) : Prop where
  linked : tree.Linked
  fresh : ∀ place branch, tree.element? place = some branch → branch.Fresh
  informed : Informed tree router.apisTree

variable {router parts} {place number : Nat} {found : Found}

theorem planted_of_buildTree {order : PathOrder} {registered : List (Api Rp)}
    (built : buildTree order registered (Router.new : Router Rp).apisTree = .ok router.apisTree) :
    ∃ tree, router.Planted tree := by
  rw [buildTree_eq] at built
  rcases Outcome.bind_eq_ok.mp built with ⟨tree, passed, called⟩
  rcases of_firstPass passed with ⟨linked, fresh⟩
  exact ⟨tree, linked, fresh, informed_of_traversal linked fresh called⟩

namespace Planted

variable {tree : ApiTree Rp}

/-- Different variables of a branch lie apart. -/
theorem apart (planted : router.Planted tree) {left right : Nat} (leftVar : IsVar tree left)
    (rightVar : IsVar tree right) (atLeft : Nearest tree place left)
    (atRight : Nearest tree place right) (distinct : left ≠ right) :
    WorkList.Apart tree.Child left right := by
  have kept {node : Nat} (isVar : IsVar tree node) : Kept tree node := by
    rcases isVar with ⟨branch, held, var⟩
    exact ⟨branch, held, (planted.fresh node branch held).kept var⟩
  refine ⟨distinct, ?_, ?_⟩
  · intro above
    exact atRight.nearest left atLeft.above above (kept leftVar)
  · intro below
    exact atLeft.nearest right atRight.above below (kept rightVar)

theorem varChildren (planted : router.Planted tree) {branch : ApiBranch Rp}
    (held : router.branch? place = some branch) :
    (∀ child ∈ branch.varChildren, Above tree.Child place child) ∧
      branch.varChildren.Pairwise (WorkList.Apart tree.Child) := by
  have only := planted.informed.only place branch held
  refine ⟨fun child mem => (only child mem).2.2.above, ?_⟩
  have distinct : branch.varChildren.Nodup := by
    rw [List.nodup_iff_count_le_one]
    intro child
    by_cases mem : child ∈ branch.varChildren
    · rcases only child mem with ⟨reached, var, nearest⟩
      rcases planted.informed.once child place reached var nearest with ⟨branch', there, once⟩
      cases held.symm.trans there
      exact once.le
    · rw [List.count_eq_zero_of_not_mem mem]
      exact Nat.zero_le 1
  refine distinct.imp_of_mem ?_
  intro left right memLeft memRight apart
  rcases only left memLeft with ⟨_, leftVar, atLeft⟩
  rcases only right memRight with ⟨_, rightVar, atRight⟩
  exact planted.apart leftVar rightVar atLeft atRight apart

theorem child (planted : router.Planted tree) {key : Str} {child : Nat}
    (below : router.child? place key = some child) : Above tree.Child place child := by
  rw [child?, Option.or_eq_some_iff] at below
  rcases below with static | ⟨_, jumped⟩
  · refine .single ?_
    rw [← planted.informed.same.child]
    exact ⟨key, static⟩
  · rcases Option.bind_eq_some_iff.mp jumped with ⟨branch, held, found⟩
    exact (planted.informed.jumps place branch key child held found).above

end Planted

theorem child_of_findCut {part suffix : Str} {fronts : List Str} {child : Nat}
    (cut : router.findCut place part fronts = .ok (some (child, suffix))) :
    ∃ key, router.child? place key = some child := by
  induction fronts with
  | nil => cases cut
  | cons front fronts ih =>
      rw [findCut] at cut
      split at cut
      · exact ih cut
      · rename_i child' below
        split at cut
        · cases cut
        · rcases Outcome.bind_eq_ok.mp cut with ⟨rest, _, suffixed⟩
          rcases Option.map_eq_some_iff.mp (Outcome.ok.inj suffixed) with ⟨suffix, _, same⟩
          cases same
          exact ⟨front, below⟩

theorem child_of_findConsiderSuffix {part suffix : Str} {isLastPart : Bool} {child : Nat}
    (matched : router.findConsiderSuffix part isLastPart place = .ok (some (child, suffix))) :
    ∃ key, router.child? place key = some child := by
  rw [findConsiderSuffix] at matched
  split at matched
  · rename_i child' below
    cases matched
    exact ⟨part, below⟩
  · split at matched
    · exact child_of_findCut matched
    · cases matched

/-- The variables that wait on the stack are some of those that are tried, in their order. -/
theorem sublist_of_tryVars {places : List Nat} {items next : List (Nat × Nat)} {found' : Found}
    (tried : router.tryVars parts number places items found = .ok (.further next found')) :
    ∃ later, next = items ++ later ∧ (later.map Prod.fst).Sublist places := by
  induction places generalizing items found with
  | nil =>
      cases tried
      exact ⟨[], by simp, List.Sublist.refl _⟩
  | cons place places ih =>
      have passes {items : List (Nat × Nat)} {found : Found}
          (tried : router.tryVars parts number places items found = .ok (.further next found')) :
          ∃ later, next = items ++ later ∧ (later.map Prod.fst).Sublist (place :: places) := by
        rcases ih tried with ⟨later, same, sublist⟩
        exact ⟨later, same, sublist.cons _⟩
      rw [tryVars] at tried
      split at tried
      · exact passes tried
      · split at tried
        · split at tried
          · split at tried
            · rcases ih tried with ⟨later, same, sublist⟩
              refine ⟨(place, number + 1) :: later, ?_, sublist.cons_cons place⟩
              rw [same, List.append_assoc]
              rfl
            · cases tried
          · exact passes tried
        · rcases Outcome.bind_eq_ok.mp tried with ⟨bound, _, rest⟩
          cases bound with
          | none => exact passes rest
          | some found => cases rest

theorem Planted.visited {tree : ApiTree Rp} (planted : router.Planted tree)
    {next : List (Nat × Nat)} {found' : Found}
    (visited : Visited router parts place number found (.further next found')) :
    (∀ later ∈ next.map Prod.fst, Above tree.Child place later) ∧
      (next.map Prod.fst).Pairwise (WorkList.Apart tree.Child) := by
  generalize further : Visit.further next found' = visit at visited
  cases visited with
  | lost absent =>
      cases further
      exact ⟨by simp, List.Pairwise.nil⟩
  | complete held overflowed filled => cases further
  | static held present matched =>
      cases further
      rcases child_of_findConsiderSuffix matched with ⟨key, below⟩
      refine ⟨?_, List.pairwise_singleton _ _⟩
      intro later mem
      rw [List.mem_singleton.mp mem]
      exact planted.child below
  | vars held unfinished unmatched tried =>
      rw [← further] at tried
      rcases sublist_of_tryVars tried with ⟨later, same, sublist⟩
      rw [List.nil_append] at same
      rcases planted.varChildren held with ⟨below, apart⟩
      rw [same]
      exact ⟨fun child mem => below child (sublist.subset mem), apart.sublist sublist⟩

/-- After so many visits as many branches were taken, each of them once. -/
theorem Planted.fair {tree : ApiTree Rp} (planted : router.Planted tree) (count : Nat)
    {taken : List Nat} {items items' : List (Nat × Nat)} {found' : Found}
    (fair : Fair tree.Child taken (items.map Prod.fst))
    (known : ∀ old ∈ taken, old < tree.nodes.length)
    (within : ∀ waiting ∈ items.map Prod.fst, waiting < tree.nodes.length)
    (walked : router.walkedTo parts count items found = some (items', found')) :
    ∃ taken', taken'.length = taken.length + count ∧
      Fair tree.Child taken' (items'.map Prod.fst) ∧
      (∀ old ∈ taken', old < tree.nodes.length) ∧
      ∀ waiting ∈ items'.map Prod.fst, waiting < tree.nodes.length := by
  induction count generalizing taken items found with
  | zero =>
      cases walked
      exact ⟨taken, rfl, fair, known, within⟩
  | succ count ih =>
      cases items with
      | nil => cases walked
      | cons item items =>
          rcases item with ⟨place, number⟩
          rw [walkedTo] at walked
          split at walked
          · rename_i next found'' visited
            rcases planted.visited (visited_of_visit visited) with ⟨below, apart⟩
            have fair := fair.step planted.linked.forest below apart
            rw [← List.map_append] at fair
            have known : ∀ old ∈ place :: taken, old < tree.nodes.length := by
              intro old mem
              rcases List.mem_cons.mp mem with rfl | earlier
              · exact within old List.mem_cons_self
              · exact known old earlier
            have within : ∀ waiting ∈ (next ++ items).map Prod.fst,
                waiting < tree.nodes.length := by
              intro waiting mem
              rw [List.map_append, List.mem_append] at mem
              rcases mem with new | before
              · exact planted.linked.lt_of_above (below waiting new)
              · exact within waiting (List.mem_cons_of_mem _ before)
            rcases ih fair known within walked with ⟨taken', length, rest⟩
            refine ⟨taken', ?_, rest⟩
            rw [length, List.length_cons]
            omega
          · cases walked

/-- More visits than a walk makes change nothing. -/
theorem walk_add (fuel more : Nat) {items : List (Nat × Nat)}
    (ended : ∀ items' found', router.walkedTo parts fuel items found = some (items', found') →
      items' = []) :
    router.walk parts (fuel + more) items found = router.walk parts fuel items found := by
  induction fuel generalizing items found with
  | zero =>
      rw [ended items found rfl]
      cases more with
      | zero => rfl
      | succ more => rfl
  | succ fuel ih =>
      rw [Nat.add_right_comm]
      cases items with
      | nil => rfl
      | cons item items =>
          rcases item with ⟨place, number⟩
          rw [walk, walk]
          cases visited : router.visit parts place number found with
          | err error => rfl
          | panic => rfl
          | ok visit =>
              rw [Outcome.bind_ok, Outcome.bind_ok]
              cases visit with
              | target branch found' => rfl
              | further next found' =>
                  apply ih
                  intro items' found'' walked
                  apply ended items' found''
                  rw [walkedTo, visited]
                  exact walked

/-- A walk makes at most one visit for each node of the tree. -/
theorem Planted.bounded {tree : ApiTree Rp} (planted : router.Planted tree) {count : Nat}
    {items : List (Nat × Nat)} {found' : Found}
    (walked : router.walkedTo parts count [(0, 0)] found = some (items, found')) :
    count ≤ router.apisTree.nodes.length ∧
      (count = router.apisTree.nodes.length → items = []) := by
  have size : router.apisTree.nodes.length = tree.nodes.length := planted.informed.same.length
  have within : ∀ waiting ∈ [(0, 0)].map Prod.fst, waiting < tree.nodes.length := by
    intro waiting mem
    rw [List.mem_singleton.mp mem]
    exact planted.linked.inhabited
  rcases planted.fair count (.single 0) (by simp) within walked
    with ⟨taken, length, fair, known, waits⟩
  rw [List.length_nil, Nat.zero_add] at length
  have inRange : ∀ old ∈ taken, old ∈ List.range tree.nodes.length := by
    intro old mem
    exact List.mem_range.mpr (known old mem)
  constructor
  · have short := fair.length_le inRange
    rw [List.length_range] at short
    omega
  · intro all
    have nothing := fair.stack_eq_nil inRange
      (fun waiting mem => List.mem_range.mpr (waits waiting mem))
      (by rw [List.length_range]; omega)
    exact List.map_eq_nil_iff.mp nothing

theorem Planted.walk_eq {tree : ApiTree Rp} (planted : router.Planted tree) {fuel : Nat}
    (enough : router.apisTree.nodes.length ≤ fuel) :
    router.walk parts fuel [(0, 0)] found =
      router.walk parts router.apisTree.nodes.length [(0, 0)] found := by
  rcases Nat.exists_eq_add_of_le enough with ⟨more, rfl⟩
  apply walk_add
  intro items found' walked
  exact (planted.bounded walked).2 rfl

/-- A walk ends after at most one visit for each node of the tree, and further visits would change
nothing. -/
theorem walk_ends {order : PathOrder} {registered : List (Api Rp)}
    (built : buildTree order registered (Router.new : Router Rp).apisTree = .ok router.apisTree)
    (path : Str) :
    let parts := path.splitOn router.pathPartSeparator
    let size := router.apisTree.nodes.length
    (∀ count items found,
      router.walkedTo parts count [(0, 0)] ⟨[], ∅⟩ = some (items, found) →
      count ≤ size ∧ (count = size → items = [])) ∧
    ∀ fuel, size ≤ fuel →
      router.walk parts fuel [(0, 0)] ⟨[], ∅⟩ =
        router.walk parts size [(0, 0)] ⟨[], ∅⟩ := by
  intro parts size
  rcases planted_of_buildTree built with ⟨tree, planted⟩
  constructor
  · intro count items found walked
    exact planted.bounded walked
  · intro fuel enough
    exact planted.walk_eq enough

/-- One api, and a request that stops in front of its variable. -/
theorem walk_ends_fruit :
    let registered : List (Api Unit) := [Api.new none "fruit/{name}/price".toList [] false []]
    let parts := "fruit".toList.splitOn '/'
    ∃ router : Router Unit,
      buildTree .pushed registered (Router.new : Router Unit).apisTree = .ok router.apisTree ∧
      ∀ fuel, router.apisTree.nodes.length ≤ fuel →
        router.walk parts fuel [(0, 0)] ⟨[], ∅⟩ =
          router.walk parts router.apisTree.nodes.length [(0, 0)] ⟨[], ∅⟩ := by
  intro registered parts
  have returns :
      (buildTree .pushed registered (Router.new : Router Unit).apisTree).isOk = true := by
    decide
  rcases Outcome.isOk_iff.mp returns with ⟨tree, built⟩
  let router : Router Unit := { Router.new with apisTree := tree }
  have planted : buildTree .pushed registered (Router.new : Router Unit).apisTree =
      .ok router.apisTree := built
  exact ⟨router, planted, (walk_ends planted "fruit".toList).2⟩

end Dce.Routing.Router
