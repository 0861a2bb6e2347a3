import Dce.Router.Prefixes
import Dce.Util.TreeLinks

/-!
# The second pass

A branch is told of the variables below it by those themselves: each of them
climbs to the nearest branch above it that is not left out of requests. Since
the traversal calls on every node once, nothing is told twice.
-/

namespace Dce.Routing

open ATree WorkList Relation

variable {Rp : Type}

/-- A variable that can stand for no part or for many of them, so that nothing may follow it. -/
def VarType.endsPath : VarType → Bool
  | .optional _ | .emptableVector _ | .vector _ => true
  | .required _ | .notVar => false

/-- A branch as it is put into the tree. -/
structure ApiBranch.Fresh (branch : ApiBranch Rp) : Prop where
  varChildren : branch.varChildren = []
  isMidVar : branch.isMidVar = false
  omittedPassedChildren : branch.omittedPassedChildren = ∅
  kept : branch.varType ≠ .notVar → branch.isOmission = false

section Purpose

variable (tree : ApiTree Rp)

/-- A node of the tree, the root among them. -/
def Reached (place : Nat) : Prop := ReflTransGen tree.Child 0 place

def Kept (place : Nat) : Prop :=
  ∃ branch, tree.element? place = some branch ∧ branch.isOmission = false

def IsVar (place : Nat) : Prop :=
  ∃ branch, tree.element? place = some branch ∧ branch.varType ≠ .notVar

/-- The nearest ancestor that is not an omission. -/
structure Nearest (ancestor node : Nat) : Prop where
  above : Above tree.Child ancestor node
  kept : Kept tree ancestor
  nearest : ∀ between, Above tree.Child ancestor between → Above tree.Child between node →
    ¬Kept tree between

/-- No optional or vector variable has children. -/
def NothingBehind : Prop :=
  ∀ place branch, Reached tree place → tree.element? place = some branch →
    branch.varType.endsPath = true → ∀ child, ¬tree.Child place child

/-- A tree with its elements as the second pass is to leave them. -/
structure Informed (final : ApiTree Rp) : Prop where
  same : SameLinks tree final
  found : Kept tree 0 → ∀ node, Above tree.Child 0 node →
    ∃ ancestor, Nearest tree ancestor node
  once : ∀ node ancestor, Reached tree node → IsVar tree node → Nearest tree ancestor node →
    ∃ branch, final.element? ancestor = some branch ∧ branch.varChildren.count node = 1
  only : ∀ place branch, final.element? place = some branch → ∀ node ∈ branch.varChildren,
    Reached tree node ∧ IsVar tree node ∧ Nearest tree place node
  jumps : ∀ (place : Nat) (branch : ApiBranch Rp) (key : Str) (child : Nat),
    final.element? place = some branch →
    branch.omittedPassedChildren[key]? = some child → Nearest tree place child
  mid : ∀ place branch, Reached tree place → final.element? place = some branch →
    (branch.isMidVar = true ↔
      (∃ name, branch.varType = .required name) ∧ ∃ child, tree.Child place child)

end Purpose

variable {tree changed : ApiTree Rp} {place node ancestor : Nat} {branch : ApiBranch Rp}

theorem kept_of_element (held : tree.element? place = some branch) :
    Kept tree place ↔ branch.isOmission = false := by
  rw [Kept, held]
  simp

/-- One step up: the parent is the nearest one, or it is an omission and does not count. -/
theorem nearest_iff_of_kept (linked : tree.Linked) {parent : Nat} (child : tree.Child parent node)
    (kept : Kept tree parent) : Nearest tree ancestor node ↔ ancestor = parent := by
  constructor
  · intro nearest
    have leads := linked.forest.above_parent child nearest.above
    rcases reflTransGen_iff_eq_or_transGen.mp leads with same | above
    · exact same.symm
    · exact absurd kept (nearest.nearest parent above (.single child))
  · rintro rfl
    refine ⟨.single child, kept, ?_⟩
    intro between above below
    exact (linked.forest.antisymm (linked.forest.above_parent child below) above).elim

theorem nearest_iff_of_omitted (linked : tree.Linked) {parent : Nat}
    (child : tree.Child parent node) (omitted : ¬Kept tree parent) :
    Nearest tree ancestor node ↔ Nearest tree ancestor parent := by
  constructor
  · intro nearest
    have leads := linked.forest.above_parent child nearest.above
    rcases reflTransGen_iff_eq_or_transGen.mp leads with same | above
    · rw [same] at omitted
      exact absurd nearest.kept omitted
    · refine ⟨above, nearest.kept, ?_⟩
      intro between below further
      exact nearest.nearest between below (further.tail child)
  · intro nearest
    refine ⟨nearest.above.tail child, nearest.kept, ?_⟩
    intro between below further
    have leads := linked.forest.above_parent child further
    rcases reflTransGen_iff_eq_or_transGen.mp leads with same | above
    · rw [← same]
      exact omitted
    · exact nearest.nearest between below above

/-- Climbing leads to the nearest ancestor that is not an omission. -/
theorem climb_iff (linked : tree.Linked) {fuel : Nat} (reached : Reached tree node)
    (small : node < fuel) (passed : Bool) :
    (∃ flag, climb tree fuel node passed = some (ancestor, flag)) ↔
      Nearest tree ancestor node := by
  induction fuel generalizing node passed with
  | zero => omega
  | succ fuel ih =>
      rcases ReflTransGen.cases_tail_iff .. |>.mp reached with root | ⟨parent, above, child⟩
      · have bare : climb tree (fuel + 1) node passed = none := by
          rw [climb, root, linked.rooted]
        rw [bare]
        refine iff_of_false (by simp) ?_
        intro nearest
        rcases TransGen.tail'_iff.mp nearest.above with ⟨parent, _, last⟩
        have later := linked.later last
        omega
      · have earlier := linked.later child
        have valid := earlier.trans (linked.within child)
        rcases Option.isSome_iff_exists.mp (element?_isSome_iff.mpr valid) with ⟨branch, held⟩
        rw [climb, linked.parent child]
        simp only [held, Option.any_some]
        cases omitted : branch.isOmission with
        | false =>
            have kept := (kept_of_element held).mpr omitted
            rw [nearest_iff_of_kept linked child kept]
            simp [eq_comm]
        | true =>
            have notKept : ¬Kept tree parent := by
              rw [kept_of_element held, omitted]
              exact Bool.noConfusion
            rw [nearest_iff_of_omitted linked child notKept, ← ih above (by omega) true]
            simp

/-- Where the elements are omissions alike and the links are the same, climbing is the same. -/
theorem climb_congr (same : SameLinks tree changed)
    (alike : ∀ place, (changed.element? place).any (·.isOmission) =
      (tree.element? place).any (·.isOmission))
    (fuel current : Nat) (passed : Bool) :
    climb changed fuel current passed = climb tree fuel current passed := by
  induction fuel generalizing current passed with
  | zero => rfl
  | succ fuel ih =>
      rw [climb, climb, same.parent]
      cases tree.parent current with
      | none => rfl
      | some parent =>
          dsimp only
          rw [alike, ih]

/-- What a branch leaves at an ancestor that may have branches below it. -/
def ApiBranch.adopted (place : Nat) (branch : ApiBranch Rp) (passed : Bool)
    (ancestor : ApiBranch Rp) : ApiBranch Rp :=
  { ancestor with
    isMidVar := match ancestor.varType with
      | .required _ => true
      | _ => ancestor.isMidVar
    varChildren :=
      if branch.varType ≠ .notVar then ancestor.varChildren ++ [place] else ancestor.varChildren
    omittedPassedChildren :=
      if branch.varType = .notVar ∧ passed = true then
        ancestor.omittedPassedChildren.insert branch.key place
      else ancestor.omittedPassedChildren }

theorem adopt_eq (place : Nat) (branch : ApiBranch Rp) (passed : Bool) (ancestor : ApiBranch Rp) :
    branch.adopt place passed ancestor =
      if ancestor.varType.endsPath then .panic
      else .ok (branch.adopted place passed ancestor) := by
  rcases ancestor with ⟨path, varType, isMidVar, isOmission, apis, varChildren, omitted⟩
  rw [ApiBranch.adopt, ApiBranch.adopted]
  by_cases notVar : branch.varType = .notVar
  · cases varType with
    | required name => cases passed <;> simp [notVar, VarType.endsPath]
    | notVar => cases passed <;> simp [notVar, VarType.endsPath]
    | optional name => rfl
    | emptableVector name => rfl
    | vector name => rfl
  · cases varType with
    | required name => simp [notVar, VarType.endsPath]
    | notVar => simp [notVar, VarType.endsPath]
    | optional name => rfl
    | emptableVector name => rfl
    | vector name => rfl

/-- What the second pass does not change of a branch. -/
structure ApiBranch.Alike (left right : ApiBranch Rp) : Prop where
  path : left.path = right.path
  varType : left.varType = right.varType
  isOmission : left.isOmission = right.isOmission
  apis : left.apis = right.apis

theorem adopted_alike (place : Nat) (branch : ApiBranch Rp) (passed : Bool)
    (ancestor : ApiBranch Rp) : (branch.adopted place passed ancestor).Alike ancestor :=
  ⟨rfl, rfl, rfl, rfl⟩

theorem adopted_congr {left right : ApiBranch Rp} (alike : left.Alike right) (place : Nat)
    (passed : Bool) (ancestor : ApiBranch Rp) :
    left.adopted place passed ancestor = right.adopted place passed ancestor := by
  rw [ApiBranch.adopted, ApiBranch.adopted, ApiBranch.key, ApiBranch.key, alike.path,
    alike.varType]

/-- The nearest ancestor of a node that is not an omission, by climbing. -/
def heirOf (tree : ApiTree Rp) (node : Nat) : Option (Nat × Bool) :=
  climb tree tree.nodes.length node false

/-- What a node leaves at this place. -/
def inherit (tree : ApiTree Rp) (place : Nat) (ancestor : ApiBranch Rp) (node : Nat) :
    ApiBranch Rp :=
  match tree.element? node, heirOf tree node with
  | some branch, some (parent, passed) =>
      if parent = place then branch.adopted node passed ancestor else ancestor
  | _, _ => ancestor

/-- The tree after calls on some nodes. -/
structure Halfway (tree : ApiTree Rp) (done : List Nat) (changed : ApiTree Rp) : Prop where
  same : SameLinks tree changed
  holds : ∀ place, changed.element? place =
    (tree.element? place).map fun branch => done.foldl (inherit tree place) branch

theorem inherit_alike (tree : ApiTree Rp) (place : Nat) (ancestor : ApiBranch Rp) (node : Nat) :
    (inherit tree place ancestor node).Alike ancestor := by
  rw [inherit]
  split
  · split
    · exact adopted_alike ..
    · exact ⟨rfl, rfl, rfl, rfl⟩
  · exact ⟨rfl, rfl, rfl, rfl⟩

theorem foldl_inherit_alike (tree : ApiTree Rp) (place : Nat) (done : List Nat)
    (branch : ApiBranch Rp) : (done.foldl (inherit tree place) branch).Alike branch := by
  induction done generalizing branch with
  | nil => exact ⟨rfl, rfl, rfl, rfl⟩
  | cons node done ih =>
      have first := inherit_alike tree place branch node
      have rest := ih (inherit tree place branch node)
      exact ⟨rest.path.trans first.path, rest.varType.trans first.varType,
        rest.isOmission.trans first.isOmission, rest.apis.trans first.apis⟩

theorem Halfway.refl (tree : ApiTree Rp) : Halfway tree [] tree where
  same := .refl tree
  holds place := by simp

theorem Halfway.heirOf {done : List Nat} (halfway : Halfway tree done changed) (node : Nat) :
    heirOf changed node = heirOf tree node := by
  rw [Routing.heirOf, Routing.heirOf, halfway.same.length]
  refine climb_congr halfway.same ?_ _ _ _
  intro place
  rw [halfway.holds]
  cases tree.element? place with
  | none => rfl
  | some branch =>
      rw [Option.map_some, Option.any_some, Option.any_some,
        (foldl_inherit_alike tree place done branch).isOmission]

/-- The heir of a node is a variable behind which nothing may stand. -/
def Ambiguous (tree : ApiTree Rp) (node : Nat) : Prop :=
  ∃ parent passed branch, heirOf tree node = some (parent, passed) ∧
    tree.element? parent = some branch ∧ branch.varType.endsPath = true

/-- One call: it panics behind an optional or vector variable, and else the node leaves what it has
to at its heir. -/
theorem Halfway.step {done : List Nat} (halfway : Halfway tree done changed)
    (valid : (tree.element? node).isSome) :
    Ambiguous tree node ∧ fillProperties node changed = .panic ∨
      ¬Ambiguous tree node ∧ ∃ after, fillProperties node changed = .ok after ∧
        Halfway tree (done ++ [node]) after := by
  rcases Option.isSome_iff_exists.mp valid with ⟨branch, held⟩
  have branchAlike := foldl_inherit_alike tree node done branch
  have found := halfway.holds node
  rw [held, Option.map_some] at found
  have climbs : climb changed changed.nodes.length node false = Routing.heirOf tree node :=
    halfway.heirOf node
  have untouched (apart : ∀ place, (tree.element? place).isSome → ∀ ancestor,
      inherit tree place ancestor node = ancestor) : Halfway tree (done ++ [node]) changed := by
    refine ⟨halfway.same, ?_⟩
    intro place
    rw [halfway.holds]
    cases there : tree.element? place with
    | none => rfl
    | some ancestor => simp [List.foldl_append, apart place (by simp [there])]
  rw [fillProperties, found, climbs]
  cases heir : Routing.heirOf tree node with
  | none =>
      right
      refine ⟨?_, changed, rfl, untouched ?_⟩
      · rintro ⟨parent, passed, ancestor, same, _⟩
        rw [heir] at same
        cases same
      · intro place _ ancestor
        rw [inherit, held, heir]
  | some pair =>
      rcases pair with ⟨parent, passed⟩
      dsimp only
      rw [halfway.holds]
      cases above : tree.element? parent with
      | none =>
          right
          refine ⟨?_, changed, rfl, untouched ?_⟩
          · rintro ⟨parent', passed', ancestor, same, there, _⟩
            rw [heir] at same
            cases same
            rw [above] at there
            cases there
          · intro place valid ancestor
            rw [inherit, held, heir]
            dsimp only
            rw [if_neg]
            rintro rfl
            rw [above] at valid
            cases valid
      | some ancestor =>
          rw [Option.map_some]
          dsimp only
          rw [adopt_eq, (foldl_inherit_alike tree parent done ancestor).varType]
          split
          · rename_i ends
            left
            exact ⟨⟨parent, passed, ancestor, heir, above, ends⟩, rfl⟩
          · rename_i goesOn
            right
            refine ⟨?_, _, rfl, halfway.same.trans (.write ..), ?_⟩
            · rintro ⟨parent', passed', ancestor', same, there, ends⟩
              rw [heir] at same
              cases same
              rw [above] at there
              cases there
              exact goesOn ends
            · intro place
              rw [element?_write, halfway.holds]
              by_cases here : parent = place
              · subst here
                rw [if_pos rfl, above]
                simp only [Option.map_some, List.foldl_append, List.foldl_cons, List.foldl_nil]
                rw [inherit, held, heir]
                simp only [if_true, adopted_congr branchAlike]
              · rw [if_neg here]
                cases tree.element? place with
                | none => rfl
                | some other =>
                    simp only [Option.map_some, List.foldl_append, List.foldl_cons, List.foldl_nil]
                    rw [inherit, held, heir]
                    simp only [if_neg here]

/-- The calls on a list of nodes. -/
theorem Halfway.foldlM (places : List Nat) {done : List Nat} (halfway : Halfway tree done changed)
    (valid : ∀ place ∈ places, (tree.element? place).isSome) :
    ((∀ place ∈ places, ¬Ambiguous tree place) →
      ∃ after, places.foldlM (fun tree place => fillProperties place tree) changed = .ok after ∧
        Halfway tree (done ++ places) after) ∧
    ((∃ place ∈ places, Ambiguous tree place) →
      places.foldlM (fun tree place => fillProperties place tree) changed = .panic) := by
  induction places generalizing done changed with
  | nil =>
      refine ⟨fun _ => ⟨changed, rfl, ?_⟩, ?_⟩
      · rw [List.append_nil]
        exact halfway
      · rintro ⟨place, mem, _⟩
        cases mem
  | cons place places ih =>
      rw [List.foldlM_cons]
      rcases halfway.step (valid place List.mem_cons_self)
        with ⟨ambiguous, panics⟩ | ⟨clear, after, called, further⟩
      · rw [panics]
        refine ⟨?_, fun _ => rfl⟩
        intro all
        exact absurd ambiguous (all place List.mem_cons_self)
      · rw [called, Outcome.bind_ok]
        rcases ih further (fun later mem => valid later (List.mem_cons_of_mem _ mem))
          with ⟨returns, panics⟩
        constructor
        · intro all
          rw [List.append_cons]
          exact returns fun later mem => all later (List.mem_cons_of_mem _ mem)
        · rintro ⟨later, mem, ambiguous⟩
          rcases List.mem_cons.mp mem with rfl | behind
          · exact absurd ambiguous clear
          · exact panics ⟨later, behind, ambiguous⟩

/-- The node leaves something at this place. -/
def leavesAt (tree : ApiTree Rp) (place node : Nat) : Bool :=
  (heirOf tree node).any (·.1 == place)

theorem inherit_eq (held : tree.element? node = some branch) (place : Nat)
    (ancestor : ApiBranch Rp) :
    inherit tree place ancestor node =
      if leavesAt tree place node then
        branch.adopted node ((heirOf tree node).any (·.2)) ancestor
      else ancestor := by
  rw [inherit, held, leavesAt]
  cases heirOf tree node with
  | none => rfl
  | some heir => simp

theorem varChildren_foldl (done : List Nat) (valid : ∀ node ∈ done, (tree.element? node).isSome)
    (place : Nat) (branch : ApiBranch Rp) :
    (done.foldl (inherit tree place) branch).varChildren =
      branch.varChildren ++ done.filter fun node =>
        leavesAt tree place node && (tree.element? node).any (·.varType ≠ .notVar) := by
  induction done generalizing branch with
  | nil => simp
  | cons node done ih =>
      rcases Option.isSome_iff_exists.mp (valid node List.mem_cons_self) with ⟨other, held⟩
      rw [List.foldl_cons, ih fun later mem => valid later (List.mem_cons_of_mem _ mem),
        inherit_eq held, List.filter_cons]
      cases leavesAt tree place node with
      | false => simp
      | true =>
          by_cases notVar : other.varType = .notVar
          · simp [held, notVar, ApiBranch.adopted]
          · simp [held, notVar, ApiBranch.adopted]

theorem isMidVar_foldl (done : List Nat) (valid : ∀ node ∈ done, (tree.element? node).isSome)
    (place : Nat) (branch : ApiBranch Rp) :
    (done.foldl (inherit tree place) branch).isMidVar = true ↔ branch.isMidVar = true ∨
      (∃ name, branch.varType = .required name) ∧
        ∃ node ∈ done, leavesAt tree place node := by
  induction done generalizing branch with
  | nil => simp
  | cons node done ih =>
      rcases Option.isSome_iff_exists.mp (valid node List.mem_cons_self) with ⟨other, held⟩
      have alike := inherit_alike tree place branch node
      rw [List.foldl_cons, ih fun later mem => valid later (List.mem_cons_of_mem _ mem),
        alike.varType, inherit_eq held]
      cases leaves : leavesAt tree place node with
      | false => simp [leaves]
      | true =>
          cases var : branch.varType with
          | required name => simp [leaves, var, ApiBranch.adopted]
          | optional name => simp [var, ApiBranch.adopted]
          | emptableVector name => simp [var, ApiBranch.adopted]
          | vector name => simp [var, ApiBranch.adopted]
          | notVar => simp [var, ApiBranch.adopted]

/-- The node tells this place that it is reached by the key, past omissions. -/
def jumpsTo (tree : ApiTree Rp) (place : Nat) (key : Str) (node : Nat) : Bool :=
  (heirOf tree node).any (fun heir => heir.1 == place && heir.2) &&
    (tree.element? node).any fun branch => decide (branch.varType = .notVar ∧ branch.key = key)

theorem getElem?_inherit (tree : ApiTree Rp) (place : Nat) (ancestor : ApiBranch Rp) (node : Nat)
    (key : Str) : (inherit tree place ancestor node).omittedPassedChildren[key]? =
      if jumpsTo tree place key node then some node
      else ancestor.omittedPassedChildren[key]? := by
  rw [inherit, jumpsTo]
  cases tree.element? node with
  | none => simp
  | some branch =>
      cases heirOf tree node with
      | none => simp
      | some heir =>
          rcases heir with ⟨parent, passed⟩
          by_cases here : parent = place
          · by_cases told : branch.varType = .notVar ∧ passed = true
            · simp only [if_pos here, ApiBranch.adopted, if_pos told,
                Std.ExtTreeMap.getElem?_insert, Std.compare_eq_iff_eq]
              simp [here, told.1, told.2]
            · simp only [if_pos here, ApiBranch.adopted, if_neg told]
              rw [if_neg]
              simp only [Option.any_some, Bool.and_eq_true, decide_eq_true_eq]
              exact fun both => told ⟨both.2.1, both.1.2⟩
          · simp [here]

/-- The last node that is reached by a key is the one that is found. -/
theorem getElem?_foldl_inherit (done : List Nat) (place : Nat) (branch : ApiBranch Rp)
    (key : Str) : (done.foldl (inherit tree place) branch).omittedPassedChildren[key]? =
      ((done.filter (jumpsTo tree place key)).getLast?).or
        branch.omittedPassedChildren[key]? := by
  induction done generalizing branch with
  | nil => rfl
  | cons node done ih =>
      rw [List.foldl_cons, ih, getElem?_inherit, List.filter_cons]
      cases jumpsTo tree place key node with
      | false => rfl
      | true =>
          simp only [if_true, List.getLast?_cons]
          cases (done.filter (jumpsTo tree place key)).getLast? <;> rfl

/-- What is reached past omissions is one of the nodes that leave something here. -/
theorem omittedPassedChildren_foldl (done : List Nat) (place : Nat) (branch : ApiBranch Rp)
    {key : Str} {child : Nat}
    (found : (done.foldl (inherit tree place) branch).omittedPassedChildren[key]? = some child) :
    branch.omittedPassedChildren[key]? = some child ∨
      child ∈ done ∧ leavesAt tree place child = true ∧
        ∃ other, tree.element? child = some other ∧ other.varType = .notVar ∧
          other.key = key := by
  rw [getElem?_foldl_inherit, Option.or_eq_some_iff] at found
  rcases found with jumped | ⟨_, old⟩
  · right
    rcases List.mem_filter.mp (List.mem_of_getLast? jumped) with ⟨mem, jumps⟩
    rw [jumpsTo, Bool.and_eq_true, Option.any_eq_true, Option.any_eq_true] at jumps
    rcases jumps with ⟨⟨heir, climbed, here⟩, other, held, static⟩
    refine ⟨mem, ?_, other, held, of_decide_eq_true static⟩
    rw [leavesAt, climbed, Option.any_some]
    exact (Bool.and_eq_true_iff.mp here).1
  · exact Or.inl old

theorem sameLinks_fillProperties (place : Nat) (before after : ApiTree Rp)
    (called : fillProperties place before = .ok after) : SameLinks before after := by
  rw [fillProperties] at called
  split at called
  · split at called
    · rcases Outcome.bind_eq_ok.mp called with ⟨ancestor, _, written⟩
      cases written
      exact .write ..
    · cases called
      exact .refl _
  · cases called
    exact .refl _

theorem traversal_eq (tree : ApiTree Rp) : tree.traversal fillProperties =
    (tree.visits tree.nodes.length [0]).foldlM (fun tree place => fillProperties place tree) tree :=
  traverseFrom_eq sameLinks_fillProperties tree.nodes.length [0] tree

theorem leavesAt_iff (linked : tree.Linked) (reached : Reached tree node) :
    leavesAt tree place node = true ↔ Nearest tree place node := by
  rw [← climb_iff linked reached (linked.lt_of_reach reached) false, leavesAt, heirOf]
  cases climb tree tree.nodes.length node false with
  | none => simp
  | some heir =>
      rcases heir with ⟨parent, passed⟩
      simp

theorem Nearest.reached (linked : tree.Linked) (nearest : Nearest tree ancestor node)
    (reached : Reached tree node) : Reached tree ancestor := by
  rcases linked.forest.comparable reached nearest.above.to_reflTransGen with down | up
  · exact down
  · rcases ReflTransGen.cases_tail_iff .. |>.mp up with root | ⟨parent, _, child⟩
    · rw [← root]
      exact .refl
    · exact absurd (linked.later child) (Nat.not_lt_zero _)

/-- Below a root that is not left out of requests there is always such an ancestor. -/
theorem exists_nearest (linked : tree.Linked) (root : Kept tree 0)
    (above : Above tree.Child 0 node) : ∃ ancestor, Nearest tree ancestor node := by
  induction above with
  | single child => exact ⟨0, (nearest_iff_of_kept linked child root).mpr rfl⟩
  | @tail parent node _ child ih =>
      by_cases kept : Kept tree parent
      · exact ⟨parent, (nearest_iff_of_kept linked child kept).mpr rfl⟩
      · rcases ih with ⟨ancestor, nearest⟩
        exact ⟨ancestor, (nearest_iff_of_omitted linked child kept).mpr nearest⟩

/-- A variable is the nearest ancestor of its children. -/
theorem nearest_of_var (linked : tree.Linked)
    (fresh : ∀ place branch, tree.element? place = some branch → branch.Fresh)
    (held : tree.element? place = some branch) (var : branch.varType ≠ .notVar)
    (child : tree.Child place node) : Nearest tree place node := by
  have kept := (kept_of_element held).mpr ((fresh place branch held).kept var)
  exact (nearest_iff_of_kept linked child kept).mpr rfl

/-- The pass panics for some node exactly if there is something behind an optional or vector
variable. -/
theorem nothingBehind_iff (linked : tree.Linked)
    (fresh : ∀ place branch, tree.element? place = some branch → branch.Fresh) :
    NothingBehind tree ↔
      ∀ node ∈ tree.visits tree.nodes.length [0], ¬Ambiguous tree node := by
  constructor
  · rintro nothing node mem ⟨parent, passed, branch, heir, held, ends⟩
    have reached : Reached tree node := ((linked.visits.2 node).mp mem).to_reflTransGen
    have nearest : Nearest tree parent node :=
      (leavesAt_iff linked reached).mp (by simp [leavesAt, heir])
    rcases TransGen.head'_iff.mp nearest.above with ⟨child, first, _⟩
    exact nothing parent branch (nearest.reached linked reached) held ends child first
  · intro clear place branch reached held ends child below
    have mem := (linked.visits.2 child).mpr (TransGen.tail'_iff.mpr ⟨place, reached, below⟩)
    apply clear child mem
    have var : branch.varType ≠ .notVar := by
      intro notVar
      rw [notVar] at ends
      cases ends
    have nearest := nearest_of_var linked fresh held var below
    have reachedChild : Reached tree child := reached.tail below
    rcases (climb_iff linked reachedChild (linked.lt_of_reach reachedChild) false).mpr nearest
      with ⟨passed, heir⟩
    exact ⟨place, passed, branch, heir, held, ends⟩

/-- The tree after the calls on all nodes is informed. -/
theorem Halfway.informed (linked : tree.Linked)
    (fresh : ∀ place branch, tree.element? place = some branch → branch.Fresh)
    (halfway : Halfway tree (tree.visits tree.nodes.length [0]) changed) :
    Informed tree changed := by
  rcases linked.visits with ⟨distinct, visited⟩
  have reached {node : Nat} (mem : node ∈ tree.visits tree.nodes.length [0]) :
      Reached tree node := ((visited node).mp mem).to_reflTransGen
  have valid : ∀ node ∈ tree.visits tree.nodes.length [0], (tree.element? node).isSome := by
    intro node mem
    exact element?_isSome_iff.mpr (linked.lt_of_above ((visited node).mp mem))
  have whole {place : Nat} {branch : ApiBranch Rp} (held : changed.element? place = some branch) :
      ∃ before, tree.element? place = some before ∧ before.Fresh ∧
        branch = (tree.visits tree.nodes.length [0]).foldl (inherit tree place) before := by
    rw [halfway.holds] at held
    rcases Option.map_eq_some_iff.mp held with ⟨before, there, rfl⟩
    exact ⟨before, there, fresh place before there, rfl⟩
  have isVar (node : Nat) :
      (tree.element? node).any (·.varType ≠ .notVar) = true ↔ IsVar tree node := by
    rw [IsVar]
    cases tree.element? node with
    | none => simp
    | some branch => simp
  refine ⟨halfway.same, fun root node => exists_nearest linked root, ?once, ?only, ?jumps,
    ?mid⟩
  case once =>
    intro node ancestor reachedNode var nearest
    have valid' := linked.lt_of_reach (nearest.reached linked reachedNode)
    rw [← halfway.same.length] at valid'
    rcases Option.isSome_iff_exists.mp (element?_isSome_iff.mpr valid') with ⟨branch, held⟩
    rcases whole held with ⟨before, there, freshBefore, rfl⟩
    refine ⟨_, held, ?_⟩
    rw [varChildren_foldl _ valid, freshBefore.varChildren, List.nil_append]
    apply List.count_eq_one_of_mem (distinct.filter _)
    rw [List.mem_filter, Bool.and_eq_true, leavesAt_iff linked reachedNode, isVar]
    refine ⟨(visited node).mpr ?_, nearest, var⟩
    exact nearest.above.trans_right (nearest.reached linked reachedNode)
  case only =>
    intro place branch held node mem
    rcases whole held with ⟨before, there, freshBefore, rfl⟩
    rw [varChildren_foldl _ valid, freshBefore.varChildren, List.nil_append, List.mem_filter,
      Bool.and_eq_true, isVar] at mem
    rcases mem with ⟨visits, leaves, var⟩
    exact ⟨reached visits, var, (leavesAt_iff linked (reached visits)).mp leaves⟩
  case jumps =>
    intro place branch key child held found
    rcases whole held with ⟨before, there, freshBefore, rfl⟩
    rcases omittedPassedChildren_foldl _ place before found with old | ⟨mem, leaves, _⟩
    · rw [freshBefore.omittedPassedChildren] at old
      simp at old
    · exact (leavesAt_iff linked (reached mem)).mp leaves
  case mid =>
    intro place branch reachedPlace held
    rcases whole held with ⟨before, there, freshBefore, rfl⟩
    rw [isMidVar_foldl _ valid, freshBefore.isMidVar,
      (foldl_inherit_alike tree place _ before).varType]
    simp only [Bool.false_eq_true, false_or]
    refine and_congr_right ?_
    rintro ⟨name, required⟩
    constructor
    · rintro ⟨node, mem, leaves⟩
      have nearest := (leavesAt_iff linked (reached mem)).mp leaves
      rcases TransGen.head'_iff.mp nearest.above with ⟨child, first, _⟩
      exact ⟨child, first⟩
    · rintro ⟨child, below⟩
      have nearest := nearest_of_var linked fresh there (by simp [required]) below
      refine ⟨child,
        (visited child).mpr (TransGen.tail'_iff.mpr ⟨place, reachedPlace, below⟩), ?_⟩
      exact (leavesAt_iff linked (reachedPlace.tail below)).mpr nearest

theorem fresh_ofPath (path : Str) {apis : List (Api Rp)}
    (kept : (ApiBranch.ofPath path apis).varType ≠ .notVar →
      (ApiBranch.ofPath path apis).isOmission = false) : (ApiBranch.ofPath path apis).Fresh :=
  ⟨rfl, rfl, rfl, kept⟩

theorem fresh_bare (path : Str) : (ApiBranch.ofPath path [] : ApiBranch Rp).Fresh :=
  fresh_ofPath path fun _ => rfl

theorem fresh_of_new {path : Str} {apis : List (Api Rp)}
    (made : ApiBranch.new path apis = .ok branch) : branch.Fresh := by
  have same := branchOf_of_new made
  rw [ApiBranch.new] at made
  split at made
  · cases made
  · rename_i allowed
    rw [same]
    apply fresh_ofPath
    intro var
    simpa using fun omitted => allowed ⟨var, omitted⟩

section Growing

variable {Holds : ApiBranch Rp → Prop} (bare : ∀ path, Holds (ApiBranch.ofPath path []))

include bare

theorem holds_fillBranch {fills : Fills Rp} (branchHolds : Holds branch)
    (holds : ∀ (parts : List Str) (branch : ApiBranch Rp), fills[parts]? = some branch →
      Holds branch) {parts : List Str}
    {filled : ApiBranch Rp} (held : (fillBranch tree branch fills)[parts]? = some filled) :
    Holds filled := by
  rw [fillBranch, Std.ExtTreeMap.getElem?_insert] at held
  split at held
  · cases held
    exact branchHolds
  · rw [getElem?_fillGaps] at held
    split at held
    · cases old : fills[parts]? with
      | none =>
          rw [old] at held
          cases held
          exact bare _
      | some branch =>
          rw [old] at held
          cases held
          exact holds parts _ old
    · exact holds parts filled held

theorem holds_fills (tree : ApiTree Rp) {remains : List (ApiBranch Rp)}
    (holds : ∀ branch ∈ remains, Holds branch) {parts : List Str} {filled : ApiBranch Rp}
    (held : (remains.foldr (fillBranch tree) ∅)[parts]? = some filled) : Holds filled := by
  induction remains generalizing parts filled with
  | nil => simp at held
  | cons branch remains ih =>
      refine holds_fillBranch bare (holds branch List.mem_cons_self) ?_ held
      intro parts other earlier
      exact ih (fun later mem => holds later (List.mem_cons_of_mem _ mem)) earlier

theorem grown_fillRemains (linked : tree.Linked) {remains : List (ApiBranch Rp)}
    (holds : ∀ branch ∈ remains, Holds branch) :
    Grown Holds tree (fillRemains tree remains) := by
  have grown (entries : List (List Str × ApiBranch Rp)) {tree : ApiTree Rp} (linked : tree.Linked)
      (holds : ∀ entry ∈ entries, Holds entry.2) : Grown Holds tree
        (entries.foldl (fun tree entry => tree.setByPath entry.1 entry.2) tree) := by
    induction entries generalizing tree with
    | nil => exact .refl
    | cons entry entries ih =>
        have first := Grown.setByPath linked entry.1 (holds entry List.mem_cons_self)
        exact first.trans (ih (first.linked linked) fun later mem =>
          holds later (List.mem_cons_of_mem _ mem))
  apply grown _ linked
  intro entry mem
  exact holds_fills bare tree holds (Std.ExtTreeMap.mem_toList_iff_getElem?_eq_some.mp mem)

/-- The first pass only adds bare branches and those of registered paths. -/
theorem grown_firstPass {order : PathOrder} {registered : List (Api Rp)} {final : ApiTree Rp}
    (linked : tree.Linked)
    (made : ∀ path branch,
      ApiBranch.new path (registered.filter (·.path == path)) = .ok branch →
      Holds branch)
    (passed : firstPass order registered tree = .ok final) : Grown Holds tree final := by
  rw [firstPass] at passed
  rcases Outcome.bind_eq_ok.mp passed with ⟨branches, results, built⟩
  have holds : ∀ branch ∈ branches, Holds branch := by
    intro branch mem
    rcases Outcome.of_mem_results results mem with ⟨group, there, one⟩
    rcases List.mem_map.mp there with ⟨path, _, rfl⟩
    exact made path branch one
  have within : ∀ waiting ∈ [0], waiting < tree.nodes.length := by
    intro waiting mem
    rw [List.mem_singleton.mp mem]
    exact linked.inhabited
  rcases Grown.buildFrom (branches.length + 1) holds within with ⟨grown, rest⟩
  cases built
  exact grown.trans (grown_fillRemains bare (grown.linked linked) rest)

end Growing

/-- The trees that the first pass makes of the root alone. -/
theorem of_firstPass {order : PathOrder} {registered : List (Api Rp)}
    (passed : firstPass order registered (Router.new : Router Rp).apisTree = .ok tree) :
    tree.Linked ∧ ∀ place branch, tree.element? place = some branch → branch.Fresh := by
  have root : (Router.new : Router Rp).apisTree.Linked := Linked.new _
  have grown := grown_firstPass fresh_bare root (fun _ _ => fresh_of_new) passed
  refine ⟨grown.linked root, ?_⟩
  intro place branch
  apply grown.holds
  intro place element held
  cases place with
  | zero =>
      cases held
      exact fresh_bare []
  | succ place => cases held

/-- The calls on all nodes. -/
theorem traversal_cases (linked : tree.Linked)
    (fresh : ∀ place branch, tree.element? place = some branch → branch.Fresh) :
    NothingBehind tree ∧
        (∃ final, tree.traversal fillProperties = .ok final ∧ Informed tree final) ∨
      ¬NothingBehind tree ∧ tree.traversal fillProperties = .panic := by
  have valid : ∀ node ∈ tree.visits tree.nodes.length [0], (tree.element? node).isSome := by
    intro node mem
    exact element?_isSome_iff.mpr (linked.lt_of_above ((linked.visits.2 node).mp mem))
  rcases (Halfway.refl tree).foldlM _ valid with ⟨returns, panics⟩
  rw [traversal_eq, nothingBehind_iff linked fresh]
  by_cases clear : ∀ node ∈ tree.visits tree.nodes.length [0], ¬Ambiguous tree node
  · rcases returns clear with ⟨final, called, halfway⟩
    exact Or.inl ⟨clear, final, called, halfway.informed linked fresh⟩
  · right
    refine ⟨clear, panics ?_⟩
    simpa using clear

/-- A tree that the traversal returns has nothing behind its optional and vector variables. -/
theorem informed_of_traversal {final : ApiTree Rp} (linked : tree.Linked)
    (fresh : ∀ place branch, tree.element? place = some branch → branch.Fresh)
    (called : tree.traversal fillProperties = .ok final) : Informed tree final := by
  rcases traversal_cases linked fresh with ⟨_, final', returns, informed⟩ | ⟨_, panics⟩
  · rw [called] at returns
    cases returns
    exact informed
  · rw [called] at panics
    cases panics

/-- The elements that the second pass leaves. -/
theorem halfway_of_traversal {final : ApiTree Rp} (linked : tree.Linked)
    (called : tree.traversal fillProperties = .ok final) :
    Halfway tree (tree.visits tree.nodes.length [0]) final := by
  have valid : ∀ node ∈ tree.visits tree.nodes.length [0], (tree.element? node).isSome := by
    intro node mem
    exact element?_isSome_iff.mpr (linked.lt_of_above ((linked.visits.2 node).mp mem))
  rcases (Halfway.refl tree).foldlM _ valid with ⟨returns, panics⟩
  rw [traversal_eq] at called
  by_cases clear : ∀ node ∈ tree.visits tree.nodes.length [0], ¬Ambiguous tree node
  · rcases returns clear with ⟨final', called', halfway⟩
    cases called.symm.trans called'
    exact halfway
  · rw [panics (by simpa using clear)] at called
    cases called

theorem Halfway.alike {done : List Nat} (halfway : Halfway tree done changed)
    (held : changed.element? place = some branch) :
    ∃ before, tree.element? place = some before ∧ branch.Alike before := by
  rw [halfway.holds] at held
  rcases Option.map_eq_some_iff.mp held with ⟨before, there, rfl⟩
  exact ⟨before, there, foldl_inherit_alike tree place _ before⟩

/-- What is reached past omissions is static and has the key. -/
theorem Halfway.jumped {done : List Nat} (halfway : Halfway tree done changed)
    (fresh : ∀ place branch, tree.element? place = some branch → branch.Fresh)
    (held : changed.element? place = some branch) {key : Str} {child : Nat}
    (found : branch.omittedPassedChildren[key]? = some child) :
    ∃ other, tree.element? child = some other ∧ other.varType = .notVar ∧
      other.key = key := by
  rw [halfway.holds] at held
  rcases Option.map_eq_some_iff.mp held with ⟨before, there, rfl⟩
  rcases omittedPassedChildren_foldl done place before found with old | ⟨_, _, static⟩
  · rw [(fresh place before there).omittedPassedChildren] at old
    simp at old
  · exact static

/-- The second pass tells each branch of the variables below it, and of nothing else, unless there
is something behind an optional or vector variable. -/
theorem secondPass_exact (linked : tree.Linked)
    (fresh : ∀ place branch, tree.element? place = some branch → branch.Fresh) :
    (NothingBehind tree →
      ∃ final, tree.traversal fillProperties = .ok final ∧ Informed tree final) ∧
    (¬NothingBehind tree → tree.traversal fillProperties = .panic) := by
  rcases traversal_cases linked fresh with ⟨nothing, returns⟩ | ⟨behind, panics⟩
  · exact ⟨fun _ => returns, fun behind => absurd nothing behind⟩
  · exact ⟨fun nothing => absurd nothing behind, fun _ => panics⟩

/-- A variable in the middle of a path, and one at the end below an omission. -/
theorem secondPass_exact_fruit :
    let registered : List (Api Unit) :=
      [Api.new none "fruit/{name}/price".toList [] false [],
        Api.new none "shop".toList [] true [], Api.new none "shop/{item?}".toList [] false []]
    ∃ tree final, firstPass .pushed registered (Router.new : Router Unit).apisTree = .ok tree ∧
      tree.traversal fillProperties = .ok final ∧ Informed tree final := by
  intro registered
  have returns :
      (buildTree .pushed registered (Router.new : Router Unit).apisTree).isOk = true := by
    decide
  rcases Outcome.isOk_iff.mp returns with ⟨final, built⟩
  rw [buildTree_eq] at built
  rcases Outcome.bind_eq_ok.mp built with ⟨tree, passed, called⟩
  rcases of_firstPass passed with ⟨linked, fresh⟩
  rcases secondPass_exact linked fresh with ⟨informs, panics⟩
  have nothing : NothingBehind tree := by
    by_contra behind
    rw [panics behind] at called
    cases called
  rcases informs nothing with ⟨final, called, informed⟩
  exact ⟨tree, final, passed, called, informed⟩

end Dce.Routing
