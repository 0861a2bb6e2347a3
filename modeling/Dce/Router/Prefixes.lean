import Dce.Router.Registration
import Dce.Util.TreePaths

/-!
# The tree of prefixes

After the first pass there is a node for each registered path and for each
beginning of one, whatever the order in which the paths were gone through. The
elements whose parents are there are placed by a work list, and the others are
filled in together with what they lack.
-/

namespace Dce.Routing

open Text ATree

variable {Rp : Type}

def partsOf (path : Str) : List Str := path.splitOn pathPartSeparator

/-- `build_tree` up to the end of its first step. -/
def firstPass (order : PathOrder) (buffer : List (Api Rp)) (tree : ApiTree Rp) :
    Outcome DceErr (ApiTree Rp) := do
  let groups := (order.paths (buffer.map (·.path))).map fun path =>
    (path, buffer.filter (·.path == path))
  let branches ← groups.mapM fun (path, apis) => ApiBranch.new path apis
  return tree.build branches fillRemains

theorem buildTree_eq (order : PathOrder) (buffer : List (Api Rp)) (tree : ApiTree Rp) :
    buildTree order buffer tree =
      firstPass order buffer tree >>= fun tree => tree.traversal fillProperties := by
  simp only [buildTree, firstPass, bind_assoc, Outcome.pure_eq, Outcome.bind_ok]

/-- The branch of a path, with its apis in the order in which they were pushed. -/
def branchOf (registered : List (Api Rp)) (path : Str) : ApiBranch Rp :=
  ApiBranch.ofPath path (registered.filter (·.path == path))

/-- The nodes of a tree stand for the registered paths and their beginnings, and refer to those one
part shorter. -/
structure PrefixTree (tree : ApiTree Rp) (registered : List (Api Rp)) : Prop where
  sound : tree.Sound
  root : tree.content [] = some (ApiBranch.ofPath [] [])
  entered : ∀ api ∈ registered,
    tree.content (partsOf api.path) = some (branchOf registered api.path)
  bare : ∀ api ∈ registered, ∀ parts, parts ≠ [] → parts <+: partsOf api.path →
    (∀ other ∈ registered, partsOf other.path ≠ parts) →
    tree.content parts = some (ApiBranch.ofPath (join pathPartSeparator parts) [])
  only : ∀ parts, parts ≠ [] → (tree.getByPath parts).isSome →
    ∃ api ∈ registered, parts <+: partsOf api.path

/-- No part of a registered path has white space around it. -/
def Trimmed (registered : List (Api Rp)) : Prop :=
  ∀ api ∈ registered, ∀ part ∈ partsOf api.path, trim part = part

variable {registered : List (Api Rp)} {tree : ApiTree Rp} {path : Str}

theorem partsOf_inj {left right : Str} (same : partsOf left = partsOf right) : left = right :=
  splitOn_inj same

theorem partsOf_ne_nil (path : Str) : partsOf path ≠ [] := List.splitOn_ne_nil _ _

@[simp]
theorem join_partsOf (path : Str) : join pathPartSeparator (partsOf path) = path :=
  join_splitOn _ _

theorem key_branchOf (trimmed : ∀ part ∈ partsOf path, trim part = part) :
    (partsOf path).getLast? = some (branchOf registered path).key := by
  have last := getLast?_splitOn pathPartSeparator path
  have mem := List.mem_of_getLast? last
  rw [partsOf, last]
  exact congrArg some (trimmed _ mem).symm

theorem partsOf_below (trimmed : ∀ part ∈ partsOf path, trim part = part) {before after : Str}
    (found : rsplitOnce pathPartSeparator path = some (before, after)) :
    partsOf path = partsOf before ++ [(branchOf registered path).key] := by
  have last : _ = some (branchOf registered path).key := key_branchOf trimmed
  have parts : partsOf path = partsOf before ++ [after] := splitOn_of_rsplitOnce found
  rw [parts, List.getLast?_append_of_ne_nil _ (by simp)] at last
  simpa [parts] using last

theorem partsOf_top (trimmed : ∀ part ∈ partsOf path, trim part = part)
    (found : rsplitOnce pathPartSeparator path = none) :
    partsOf path = [(branchOf registered path).key] := by
  have last : _ = some (branchOf registered path).key := key_branchOf trimmed
  have parts : partsOf path = [path] := splitOn_of_rsplitOnce_eq_none found
  rw [parts] at last
  simpa [parts] using last

/-- A tree in the making, with the paths that wait to be placed in it. -/
structure Building (registered : List (Api Rp)) (waiting : List Str) (tree : ApiTree Rp) :
    Prop where
  sound : tree.Sound
  root : tree.content [] = some (ApiBranch.ofPath [] [])
  placed {parts : List Str} {branch : ApiBranch Rp} (below : parts ≠ [])
    (held : tree.content parts = some branch) :
    ∃ api ∈ registered, partsOf api.path = parts ∧ branch = branchOf registered api.path
  fresh : ∀ path ∈ waiting, tree.getByPath (partsOf path) = none
  known : ∀ path ∈ waiting, ∃ api ∈ registered, api.path = path
  complete : ∀ api ∈ registered, api.path ∈ waiting ∨
    tree.content (partsOf api.path) = some (branchOf registered api.path)
  distinct : waiting.Nodup

theorem Building.perm {waiting waiting' : List Str} (building : Building registered waiting tree)
    (same : waiting.Perm waiting') : Building registered waiting' tree where
  sound := building.sound
  root := building.root
  placed := building.placed
  fresh path mem := building.fresh path (same.mem_iff.mpr mem)
  known path mem := building.known path (same.mem_iff.mpr mem)
  complete api mem := by
    rcases building.complete api mem with waits | held
    · exact Or.inl (same.mem_iff.mp waits)
    · exact Or.inr held
  distinct := same.nodup building.distinct

/-- The next branch is placed at the end of its path. -/
theorem Building.set {waiting : List Str} {parents : List Str} {place : Nat}
    (building : Building registered (path :: waiting) tree)
    (there : tree.getByPath parents = some place)
    (parts : partsOf path = parents ++ [(branchOf registered path).key]) :
    Building registered waiting
      (tree.set place (branchOf registered path).key (branchOf registered path)) := by
  have new : tree.getByPath (parents ++ [(branchOf registered path).key]) = none := by
    rw [← parts]
    exact building.fresh path List.mem_cons_self
  have paths := getByPath_set building.sound there new (branchOf registered path)
  have held := content_set building.sound there new (branchOf registered path)
  rw [← parts] at paths held
  have distinct := List.nodup_cons.mp building.distinct
  refine ⟨building.sound.set there new _, ?root, ?placed, ?fresh, ?known, ?complete, distinct.2⟩
  case root =>
    rw [held, if_neg (partsOf_ne_nil path).symm]
    exact building.root
  case placed =>
    intro asked branch below found
    rw [held] at found
    split at found
    · rename_i same
      rcases building.known path List.mem_cons_self with ⟨api, mem, rfl⟩
      exact ⟨api, mem, same.symm, (Option.some.inj found).symm⟩
    · exact building.placed below found
  case fresh =>
    intro other mem
    have apart : partsOf other ≠ partsOf path := by
      intro same
      apply distinct.1
      rw [← partsOf_inj same]
      exact mem
    rw [paths, if_neg apart]
    exact building.fresh other (List.mem_cons_of_mem _ mem)
  case known =>
    intro other mem
    exact building.known other (List.mem_cons_of_mem _ mem)
  case complete =>
    intro api mem
    rw [held]
    by_cases same : api.path = path
    · right
      rw [same, if_pos rfl]
    · have apart : partsOf api.path ≠ partsOf path := fun equal => same (partsOf_inj equal)
      rw [if_neg apart]
      rcases building.complete api mem with waits | old
      · exact Or.inl ((List.mem_cons.mp waits).resolve_left same)
      · exact Or.inr old

/-- The branches of a parent are placed below it. -/
theorem Building.setAll {children waiting : List Str} {parents : List Str} {place : Nat}
    (building : Building registered (children ++ waiting) tree)
    (there : tree.getByPath parents = some place)
    (parts : ∀ path ∈ children,
      partsOf path = parents ++ [(branchOf registered path).key]) (stack : List Nat) :
    Building registered waiting
      (ATree.setAll place (children.map (branchOf registered)) (tree, stack)).1 := by
  induction children generalizing tree stack with
  | nil => exact building
  | cons path children ih =>
      have first := parts path List.mem_cons_self
      have next := building.set there first
      have still : (tree.set place (branchOf registered path).key
          (branchOf registered path)).getByPath parents = some place := by
        have new := building.fresh path List.mem_cons_self
        rw [first] at new
        rw [getByPath_set building.sound there new, if_neg (by simp), there]
      exact ih next still (fun path mem => parts path (List.mem_cons_of_mem _ mem)) _

/-- Where the children of a parent belong: below it, as the key of each says. -/
def Fits (registered : List (Api Rp)) (waiting : List Str) (parents : List Str)
    (parent : ApiBranch Rp) : Prop :=
  ∀ path ∈ waiting, (branchOf registered path).childOf parent = true →
    partsOf path = parents ++ [(branchOf registered path).key]

/-- The paths that are not placed below a parent wait on. -/
def leftOver (registered : List (Api Rp)) (waiting : List Str) (parent : ApiBranch Rp) :
    List Str :=
  waiting.filter fun path => !(branchOf registered path).childOf parent

theorem Building.step {waiting : List Str} {place : Nat} {parent : ApiBranch Rp}
    {parents : List Str} (building : Building registered waiting tree)
    (there : tree.getByPath parents = some place) (held : tree.element? place = some parent)
    (fits : Fits registered waiting parents parent) (fuel : Nat) (stack : List Nat) :
    ∃ stack' tree', Building registered (leftOver registered waiting parent) tree' ∧
      buildFrom (fuel + 1) (place :: stack) (waiting.map (branchOf registered)) tree =
        buildFrom fuel stack' ((leftOver registered waiting parent).map (branchOf registered))
          tree' := by
  let children := waiting.filter fun path => (branchOf registered path).childOf parent
  have sorted : waiting.Perm (children.reverse ++ leftOver registered waiting parent) := by
    apply (List.filter_append_perm _ waiting).symm.trans
    exact (List.reverse_perm _).symm.append_right _
  have next := (building.perm sorted).setAll there (fun path mem => by
    have within := List.mem_filter.mp (List.mem_reverse.mp mem)
    exact fits path within.1 within.2) stack
  refine ⟨(ATree.setAll place (children.reverse.map (branchOf registered)) (tree, stack)).2, _,
    next, ?_⟩
  rw [buildFrom_cons held, List.filter_map, List.filter_map, ← List.map_reverse]
  rfl

/-- The parents that the work list takes from a tree in the making fit their children, if these are
not at the top. -/
theorem Building.fits {waiting parents : List Str} {parent : ApiBranch Rp}
    (building : Building registered waiting tree) (trimmed : Trimmed registered)
    (nested : ∀ path ∈ waiting, rsplitOnce pathPartSeparator path ≠ none)
    (held : tree.content parents = some parent) : Fits registered waiting parents parent := by
  intro path mem child
  rcases building.known path mem with ⟨api, known, rfl⟩
  cases found : rsplitOnce pathPartSeparator api.path with
  | none => exact absurd found (nested _ mem)
  | some halves =>
      rcases halves with ⟨before, after⟩
      have above : before = parent.path := by
        simpa [ApiBranch.childOf, branchOf, ApiBranch.ofPath, found] using child
      rw [partsOf_below (trimmed api known) found]
      congr 1
      by_cases top : parents = []
      · have rooted : parent = ApiBranch.ofPath [] [] := by
          rw [top, building.root] at held
          exact (Option.some.inj held).symm
        have first := api.unrooted
        rw [(eq_of_rsplitOnce found).1, above, rooted] at first
        exact absurd rfl first
      · rcases building.placed top held with ⟨other, _, parts, same⟩
        rw [← parts, above, same]
        rfl

/-- The work list places branches where they belong. -/
theorem Building.buildFrom {waiting : List Str} (building : Building registered waiting tree)
    (trimmed : Trimmed registered)
    (nested : ∀ path ∈ waiting, rsplitOnce pathPartSeparator path ≠ none) (fuel : Nat)
    (stack : List Nat) :
    ∃ remains tree', buildFrom fuel stack (waiting.map (branchOf registered)) tree =
        (tree', remains.map (branchOf registered)) ∧ Building registered remains tree' := by
  induction fuel generalizing stack waiting tree with
  | zero => exact ⟨waiting, tree, rfl, building⟩
  | succ fuel ih =>
      cases stack with
      | nil => exact ⟨waiting, tree, rfl, building⟩
      | cons place stack =>
          cases held : tree.element? place with
          | none =>
              rw [ATree.buildFrom, held]
              exact ih building nested stack
          | some parent =>
              rcases building.sound.path_of_element held with ⟨parents, there, content⟩
              rcases building.step there held (building.fits trimmed nested content) fuel stack with
                ⟨stack', tree', next, same⟩
              rw [same]
              apply ih next
              intro path mem
              exact nested path (List.mem_of_mem_filter mem)

theorem building_start {paths : List Str} (distinct : paths.Nodup)
    (known : ∀ path, path ∈ paths ↔ ∃ api ∈ registered, api.path = path) :
    Building registered paths (ATree.new (ApiBranch.ofPath [] [])) := by
  have lost (parts : List Str) (below : parts ≠ []) :
      (ATree.new (ApiBranch.ofPath [] []) : ApiTree Rp).getByPath parts = none := by
    cases parts with
    | nil => exact absurd rfl below
    | cons part parts => rfl
  refine ⟨⟨?_, ?_, ?_, ?_, rfl⟩, rfl, ?_, ?_, ?_, ?_, distinct⟩
  · intro parts place there
    by_cases below : parts = []
    · subst below
      cases there
      exact Nat.zero_lt_one
    · rw [lost parts below] at there
      cases there
  · intro left right place atLeft atRight
    by_cases leftBelow : left = []
    · by_cases rightBelow : right = []
      · rw [leftBelow, rightBelow]
      · rw [lost right rightBelow] at atRight
        cases atRight
    · rw [lost left leftBelow] at atLeft
      cases atLeft
  · intro place valid
    refine ⟨[], ?_⟩
    have root : place = 0 := Nat.lt_one_iff.mp valid
    rw [root]
    rfl
  · intro parts part place there
    rw [lost _ (by simp)] at there
    cases there
  · intro parts branch below held
    rw [ATree.content, lost parts below] at held
    cases held
  · intro path _
    exact lost _ (partsOf_ne_nil path)
  · intro path mem
    exact (known path).mp mem
  · intro api mem
    exact Or.inl ((known _).mpr ⟨api, mem, rfl⟩)

/-- The root takes the paths of one part, so that the paths left are not at the top. -/
theorem building_build {paths : List Str} (distinct : paths.Nodup)
    (known : ∀ path, path ∈ paths ↔ ∃ api ∈ registered, api.path = path)
    (trimmed : Trimmed registered) (fuel : Nat) :
    ∃ remains tree', ATree.buildFrom (fuel + 1) [0] (paths.map (branchOf registered))
        (ATree.new (ApiBranch.ofPath [] [])) = (tree', remains.map (branchOf registered)) ∧
      Building registered remains tree' := by
  have start := building_start distinct known
  have fits : Fits registered paths [] (ApiBranch.ofPath [] []) := by
    intro path mem child
    rcases start.known path mem with ⟨api, within, rfl⟩
    cases found : rsplitOnce pathPartSeparator api.path with
    | none => exact partsOf_top (trimmed api within) found
    | some halves =>
        rcases halves with ⟨before, after⟩
        have above : before = [] := by
          simpa [ApiBranch.childOf, branchOf, ApiBranch.ofPath, found] using child
        have first := api.unrooted
        rw [(eq_of_rsplitOnce found).1, above] at first
        exact absurd rfl first
  rcases start.step rfl rfl fits fuel [] with ⟨stack, tree', next, same⟩
  rw [same]
  apply next.buildFrom trimmed
  intro path mem top
  have other := List.mem_filter.mp mem
  simp [ApiBranch.childOf, branchOf, ApiBranch.ofPath, top] at other

theorem take_eq_iff {parts asked : List Str} :
    (∃ i ∈ List.range (parts.length - 1), parts.take (i + 1) = asked) ↔
      asked ≠ [] ∧ asked <+: parts ∧ asked ≠ parts := by
  constructor
  · rintro ⟨i, mem, rfl⟩
    have inside := List.mem_range.mp mem
    have length : (parts.take (i + 1)).length = i + 1 := by
      rw [List.length_take]
      omega
    refine ⟨?_, List.take_prefix _ _, ?_⟩
    · intro empty
      rw [empty, List.length_nil] at length
      omega
    · intro whole
      rw [whole] at length
      omega
  · rintro ⟨nonempty, isPrefix, proper⟩
    have positive := List.length_pos_iff.mpr nonempty
    have shorter : asked.length < parts.length := by
      apply Nat.lt_of_le_of_ne isPrefix.length_le
      intro same
      exact proper (isPrefix.eq_of_length same)
    refine ⟨asked.length - 1, List.mem_range.mpr (by omega), ?_⟩
    rw [Nat.sub_add_cancel positive]
    exact (List.prefix_iff_eq_take.mp isPrefix).symm

theorem getElem?_fillGap (tree : ApiTree Rp) (path : List Str) (fills : Fills Rp)
    (asked : List Str) :
    (if (tree.getByPath path).isNone && !fills.contains path then
        fills.insert path (ApiBranch.ofPath (join pathPartSeparator path) [])
      else fills)[asked]? =
      if path = asked ∧ tree.getByPath asked = none then
        some ((fills[asked]?).getD (ApiBranch.ofPath (join pathPartSeparator asked) []))
      else fills[asked]? := by
  by_cases here : path = asked
  · subst here
    cases held : fills[path]? with
    | none =>
        have uncontained : fills.contains path = false := by
          simp [Std.ExtTreeMap.contains_eq_isSome_getElem?, held]
        cases there : tree.getByPath path with
        | none => simp [uncontained]
        | some place => simp [held]
    | some branch =>
        have contained : fills.contains path = true := by
          simp [Std.ExtTreeMap.contains_eq_isSome_getElem?, held]
        simp [contained, held]
  · have apart : ¬(path = asked ∧ tree.getByPath asked = none) := fun both => here both.1
    rw [if_neg apart]
    split
    · simp [Std.ExtTreeMap.getElem?_insert, here]
    · rfl

/-- Bare branches fill the gaps above a path, and nothing is filled twice. -/
theorem getElem?_fillGaps (tree : ApiTree Rp) (parts : List Str) (fills : Fills Rp)
    (asked : List Str) :
    (fillGaps tree parts fills)[asked]? =
      if (asked ≠ [] ∧ asked <+: parts ∧ asked ≠ parts) ∧ tree.getByPath asked = none then
        some ((fills[asked]?).getD (ApiBranch.ofPath (join pathPartSeparator asked) []))
      else fills[asked]? := by
  have fold (places : List Nat) (fills : Fills Rp) :
      (places.foldl (fun fills i =>
        let path := parts.take (i + 1)
        if (tree.getByPath path).isNone && !fills.contains path then
          fills.insert path (ApiBranch.ofPath (join pathPartSeparator path) [])
        else fills) fills)[asked]? =
      if (∃ i ∈ places, parts.take (i + 1) = asked) ∧ tree.getByPath asked = none then
        some ((fills[asked]?).getD (ApiBranch.ofPath (join pathPartSeparator asked) []))
      else fills[asked]? := by
    induction places generalizing fills with
    | nil => simp
    | cons i places ih =>
        rw [List.foldl_cons, ih, getElem?_fillGap]
        by_cases absent : tree.getByPath asked = none
        · by_cases here : parts.take (i + 1) = asked
          · simp [here, absent]
          · simp [here]
        · simp [absent]
  simp only [fillGaps, fold, take_eq_iff]

/-- What the paths that could not be placed are filled in with. -/
theorem getElem?_fills (tree : ApiTree Rp) (remains : List Str) (asked : List Str) :
    ((remains.map (branchOf registered)).foldr (fillBranch tree) ∅)[asked]? =
      if asked ∈ remains.map partsOf then
        some (branchOf registered (join pathPartSeparator asked))
      else if (asked ≠ [] ∧ ∃ path ∈ remains, asked <+: partsOf path) ∧
          tree.getByPath asked = none then
        some (ApiBranch.ofPath (join pathPartSeparator asked) [])
      else none := by
  induction remains with
  | nil => simp
  | cons path remains ih =>
      have parts : (branchOf registered path).path.splitOn pathPartSeparator = partsOf path := rfl
      rw [List.map_cons, List.foldr_cons, fillBranch, parts, Std.ExtTreeMap.getElem?_insert]
      by_cases here : partsOf path = asked
      · subst here
        simp
      · have other : asked ≠ partsOf path := fun same => here same.symm
        simp only [Std.compare_eq_iff_eq, here, if_false, getElem?_fillGaps, ih]
        by_cases mem : asked ∈ remains.map partsOf
        · simp only [mem, if_true, Option.getD_some, ite_self, List.map_cons, List.mem_cons,
            or_true]
        · simp only [mem, if_false, List.map_cons, List.mem_cons, other,
            false_or, exists_eq_or_imp,
            ne_eq, not_false_eq_true, and_true]
          by_cases begins : asked <+: partsOf path
          · by_cases later : ∃ path ∈ remains, asked <+: partsOf path
            · simp only [begins, later, and_true]
              by_cases missing : ¬asked = [] ∧ tree.getByPath asked = none
              · simp [missing]
              · simp [missing]
            · simp [begins, later]
          · simp [begins]

theorem compare_dropLast {parts : List Str} (nonempty : parts ≠ []) :
    compare parts.dropLast parts = .lt := by
  have longer (front : List Str) (last : Str) : compare front (front ++ [last]) = .lt := by
    induction front with
    | nil => rfl
    | cons part front ih => simp [List.compare_cons_cons, ih]
  have whole := longer parts.dropLast (parts.getLast nonempty)
  rwa [List.dropLast_append_getLast] at whole

/-- The gaps are filled from the top, so that each branch finds its parent. -/
theorem Building.fillRemains {remains : List Str} (building : Building registered remains tree) :
    let fills := (remains.map (branchOf registered)).foldr (fillBranch tree) ∅
    let final := Routing.fillRemains tree (remains.map (branchOf registered))
    final.Sound ∧ ∀ asked, final.content asked = (fills[asked]?).or (tree.content asked) := by
  intro fills final
  have filled (entry : List Str × ApiBranch Rp) (mem : entry ∈ fills.toList) :
      entry.1 ≠ [] ∧ tree.getByPath entry.1 = none ∧
        ∃ path ∈ remains, entry.1 <+: partsOf path := by
    have held := Std.ExtTreeMap.mem_toList_iff_getElem?_eq_some.mp mem
    rw [getElem?_fills] at held
    split at held
    · rename_i waits
      rcases List.mem_map.mp waits with ⟨path, within, parts⟩
      rw [← parts]
      exact ⟨partsOf_ne_nil path, building.fresh path within, path, within, List.prefix_rfl⟩
    · split at held
      · rename_i gap
        exact ⟨gap.1.1, gap.2, gap.1.2⟩
      · cases held
  have ordered := Std.ExtTreeMap.ordered_keys_toList (t := fills)
  have grown := building.sound.foldl_setByPath
    (show ∀ entry ∈ fills.toList, entry.1 ≠ [] from fun entry mem => (filled entry mem).1)
    (fun entry mem => (filled entry mem).2.1)
    (by
      rw [List.Nodup, List.pairwise_map]
      apply ordered.imp
      intro left right before same
      rw [same, Std.compare_self] at before
      cases before)
    (by
      intro before entry after split
      have mem : entry ∈ fills.toList := by
        rw [split]
        exact List.mem_append_right _ List.mem_cons_self
      rcases filled entry mem with ⟨nonempty, _, path, within, begins⟩
      by_cases top : entry.1.dropLast = []
      · left
        rw [top]
        rfl
      · cases there : tree.getByPath entry.1.dropLast with
        | some place => exact Or.inl rfl
        | none =>
            right
            have isSome : (fills[entry.1.dropLast]?).isSome := by
              rw [getElem?_fills]
              split
              · rfl
              · rw [if_pos ⟨⟨top, path, within, (List.dropLast_prefix _).trans begins⟩,
                  there⟩]
                rfl
            rcases Option.isSome_iff_exists.mp isSome with ⟨branch, held⟩
            have parent := Std.ExtTreeMap.mem_toList_iff_getElem?_eq_some.mpr held
            have smaller := compare_dropLast nonempty
            rw [split] at parent ordered
            rcases List.mem_append.mp parent with earlier | later
            · exact List.mem_map.mpr ⟨_, earlier, rfl⟩
            · have greater := (List.pairwise_append.mp ordered).2.1
              rcases List.mem_cons.mp later with same | behind
              · have self : entry.1.dropLast = entry.1 := congrArg Prod.fst same
                rw [self, Std.compare_self] at smaller
                cases smaller
              · have larger := (List.pairwise_cons.mp greater).1 _ behind
                rw [Std.OrientedOrd.eq_swap, smaller] at larger
                cases larger)
  refine ⟨grown.1, ?_⟩
  intro asked
  cases held : fills[asked]? with
  | some branch =>
      exact grown.2.1 _ (Std.ExtTreeMap.mem_toList_iff_getElem?_eq_some.mpr held)
  | none =>
      apply grown.2.2
      intro mem
      rcases List.mem_map.mp mem with ⟨entry, within, rfl⟩
      rw [Std.ExtTreeMap.mem_toList_iff_getElem?_eq_some.mp within] at held
      cases held

/-- A tree in the making becomes the tree of prefixes when the rest is filled in. -/
theorem Building.prefixTree {remains : List Str} (building : Building registered remains tree) :
    PrefixTree (Routing.fillRemains tree (remains.map (branchOf registered))) registered := by
  rcases building.fillRemains with ⟨sound, content⟩
  have parted (api : Api Rp) (mem : api ∈ registered) (waits : api.path ∈ remains) :
      partsOf api.path ∈ remains.map partsOf := List.mem_map.mpr ⟨_, waits, rfl⟩
  refine ⟨sound, ?root, ?entered, ?bare, ?only⟩
  case root =>
    have empty : [] ∉ remains.map partsOf := by simp [partsOf_ne_nil]
    rw [content, getElem?_fills, if_neg empty, if_neg fun gap => gap.1.1 rfl]
    exact building.root
  case entered =>
    intro api mem
    rw [content, getElem?_fills]
    by_cases waits : partsOf api.path ∈ remains.map partsOf
    · rw [if_pos waits, join_partsOf]
      rfl
    · have held := (building.complete api mem).resolve_left fun within =>
        waits (parted api mem within)
      have there : tree.getByPath (partsOf api.path) ≠ none := by
        intro missing
        rw [ATree.content, missing] at held
        cases held
      rw [if_neg waits, if_neg fun gap => there gap.2, held]
      rfl
  case bare =>
    intro api mem parts nonempty begins unregistered
    have unwaited : parts ∉ remains.map partsOf := by
      intro waits
      rcases List.mem_map.mp waits with ⟨path, within, same⟩
      rcases building.known path within with ⟨other, known, rfl⟩
      exact unregistered other known same
    have absent : tree.getByPath parts = none := by
      have none : tree.content parts = none := by
        by_contra held
        rcases Option.ne_none_iff_exists'.mp held with ⟨branch, there⟩
        rcases building.placed nonempty there with ⟨other, known, same, _⟩
        exact unregistered other known same
      have same := content_isSome building.sound parts
      rw [none] at same
      simpa using same.symm
    have proper : api.path ∈ remains := by
      apply (building.complete api mem).resolve_right
      intro held
      have there := content_isSome building.sound (partsOf api.path)
      rw [held] at there
      have through := isSome_of_isPrefix tree begins there.symm
      rw [absent] at through
      cases through
    rw [content, getElem?_fills, if_neg unwaited,
      if_pos ⟨⟨nonempty, _, proper, begins⟩, absent⟩]
    rfl
  case only =>
    intro parts nonempty there
    rw [← content_isSome sound, content, getElem?_fills] at there
    split at there
    · rename_i waits
      rcases List.mem_map.mp waits with ⟨path, within, rfl⟩
      rcases building.known path within with ⟨api, known, rfl⟩
      exact ⟨api, known, List.prefix_rfl⟩
    · split at there
      · rename_i gap
        rcases gap.1.2 with ⟨path, within, begins⟩
        rcases building.known path within with ⟨api, known, rfl⟩
        exact ⟨api, known, begins⟩
      · rcases Option.isSome_iff_exists.mp there with ⟨branch, held⟩
        rw [Option.none_or] at held
        rcases building.placed nonempty held with ⟨api, known, rfl, _⟩
        exact ⟨api, known, List.prefix_rfl⟩

/-- A variable that is left out is refused, and otherwise the branch is the one of the path. -/
theorem branchOf_of_new {path : Str} {branch : ApiBranch Rp} {apis : List (Api Rp)}
    (made : ApiBranch.new path apis = .ok branch) : branch = ApiBranch.ofPath path apis := by
  rw [ApiBranch.new] at made
  split at made
  · cases made
  · exact (Outcome.ok.inj made).symm

/-- Whatever the order of the paths, the first pass makes the tree of prefixes of the apis that were
pushed. -/
theorem prefixTree_firstPass (order : PathOrder) (trimmed : Trimmed registered)
    (passed : firstPass order registered (Router.new : Router Rp).apisTree = .ok tree) :
    PrefixTree tree registered := by
  rw [firstPass] at passed
  cases made : ((order.paths (registered.map (·.path))).map fun path =>
      (path, registered.filter (·.path == path))).mapM
      (fun group : Str × List (Api Rp) => ApiBranch.new group.1 group.2) with
  | ok branches =>
      rw [made] at passed
      have paths :
          branches = (order.paths (registered.map (·.path))).map (branchOf registered) := by
        have whole : branches = List.map
            (fun group : Str × List (Api Rp) => ApiBranch.ofPath group.1 group.2) _ :=
          Outcome.mapM_eq_ok (fun group branch => branchOf_of_new) made
        rw [whole, List.map_map]
        rfl
      have known (path : Str) : path ∈ order.paths (registered.map (·.path)) ↔
          ∃ api ∈ registered, api.path = path := by
        rw [order.mem_paths, List.mem_map]
      rcases building_build (order.nodup _) known trimmed branches.length with
        ⟨remains, tree', built, building⟩
      rw [← paths] at built
      have tree_eq : tree = Routing.fillRemains tree' (remains.map (branchOf registered)) := by
        have built' : (ATree.new (ApiBranch.ofPath [] [])).build branches Routing.fillRemains =
            Routing.fillRemains tree' (remains.map (branchOf registered)) := by
          rw [ATree.build, built]
        exact (Outcome.ok.inj passed).symm.trans built'
      rw [tree_eq]
      exact building.prefixTree
  | err error =>
      rw [made] at passed
      cases passed
  | panic =>
      rw [made] at passed
      cases passed

/-- Two paths with a common beginning that is not registered. -/
theorem prefixTree_firstPass_home :
    let registered : List (Api Unit) :=
      [Api.new none "home/{id}/detail".toList [] false [],
        Api.new none "home/about".toList [] false []]
    ∃ tree, firstPass .pushed registered (Router.new : Router Unit).apisTree = .ok tree ∧
      PrefixTree tree registered := by
  intro registered
  have returns :
      (firstPass .pushed registered (Router.new : Router Unit).apisTree).isOk = true := by
    decide
  rcases Outcome.isOk_iff.mp returns with ⟨tree, passed⟩
  have trimmed : Trimmed registered := by
    rw [Trimmed]
    decide
  exact ⟨tree, passed, prefixTree_firstPass .pushed trimmed passed⟩

namespace PrefixTree

/-- At the end of a path of keys there is the branch of these parts, registered or bare. -/
theorem cases_content (prefixTree : PrefixTree tree registered) {parts : List Str}
    (below : parts ≠ []) {branch : ApiBranch Rp} (held : tree.content parts = some branch) :
    partsOf branch.path = parts ∧ (∃ api ∈ registered, parts <+: partsOf api.path) ∧
      ((∃ api ∈ registered, partsOf api.path = parts ∧
        branch = branchOf registered api.path) ∨
        (∀ other ∈ registered, partsOf other.path ≠ parts) ∧
          branch = ApiBranch.ofPath (join pathPartSeparator parts) []) := by
  have there : (tree.getByPath parts).isSome := by
    rw [← content_isSome prefixTree.sound, held]
    rfl
  have leads := prefixTree.only parts below there
  rcases leads with ⟨long, mem, isPrefix⟩
  refine ⟨?_, ⟨long, mem, isPrefix⟩, ?_⟩
  · by_cases whole : ∃ api ∈ registered, partsOf api.path = parts
    · rcases whole with ⟨api, own, rfl⟩
      rw [prefixTree.entered api own] at held
      cases held
      rfl
    · push Not at whole
      rw [prefixTree.bare long mem parts below isPrefix whole] at held
      cases held
      refine splitOn_join (fun part inside => ?_) below
      exact not_mem_of_mem_splitOn (isPrefix.subset inside)
  · by_cases whole : ∃ api ∈ registered, partsOf api.path = parts
    · rcases whole with ⟨api, own, rfl⟩
      rw [prefixTree.entered api own] at held
      cases held
      exact Or.inl ⟨api, own, rfl, rfl⟩
    · push Not at whole
      rw [prefixTree.bare long mem parts below isPrefix whole] at held
      cases held
      exact Or.inr ⟨whole, rfl⟩

/-- The variable of a branch is read off the last one of its keys. -/
theorem varType_of_content (prefixTree : PrefixTree tree registered)
    (trimmed : Trimmed registered) {parts : List Str} {key : Str} {branch : ApiBranch Rp}
    (held : tree.content (parts ++ [key]) = some branch) :
    branch.varType = .ofKey key ∧ branch.key = key := by
  rcases prefixTree.cases_content (by simp) held with ⟨path, ⟨long, mem, isPrefix⟩, kinds⟩
  have own : branch.varType = .ofKey branch.key := by
    rcases kinds with ⟨api, _, _, rfl⟩ | ⟨_, rfl⟩
    · rfl
    · rfl
  have last : (partsOf branch.path).getLast? = some branch.key := by
    change _ = some (branchOf registered branch.path).key
    refine key_branchOf fun part inside => ?_
    rw [path] at inside
    exact trimmed long mem part (isPrefix.subset inside)
  rw [path, List.getLast?_append_of_ne_nil _ (by simp)] at last
  have same : key = branch.key := by simpa using last
  rw [same]
  exact ⟨own, rfl⟩

/-- Whatever the order was, the trees hold the same at the end of each path. -/
theorem content_eq {other : ApiTree Rp} (left : PrefixTree tree registered)
    (right : PrefixTree other registered) (parts : List Str) :
    tree.content parts = other.content parts := by
  have half {tree other : ApiTree Rp} (left : PrefixTree tree registered)
      (right : PrefixTree other registered) {branch : ApiBranch Rp}
      (held : tree.content parts = some branch) : other.content parts = some branch := by
    by_cases below : parts = []
    · rw [below, left.root] at held
      rw [below, right.root, held]
    · rcases left.cases_content below held with ⟨_, ⟨long, mem, isPrefix⟩, kinds⟩
      rcases kinds with ⟨api, own, rfl, rfl⟩ | ⟨bare, rfl⟩
      · exact right.entered api own
      · exact right.bare long mem parts below isPrefix bare
  cases held : tree.content parts with
  | some branch => exact (half left right held).symm
  | none =>
      cases held' : other.content parts with
      | none => rfl
      | some branch => exact held.symm.trans (half right left held')

end PrefixTree

end Dce.Routing
