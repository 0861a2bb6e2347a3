import Dce.Router.Panics

/-!
# The parameters of a path

The parameters are bound one after the other while a walk searches, and those of
abandoned branches stay. So each of them is a part of the request, for a variable
that the search came to, and the variables on the way to the end are all bound.
-/

namespace Dce.Routing

open Text ATree WorkList Relation

variable {Rp : Type} {registered : List (Api Rp)}

/-- The name that a variable declares. -/
def VarType.name? : VarType → Option Str
  | .required name | .optional name | .emptableVector name | .vector name => some name
  | .notVar => none

/-- The branches that a visit leads to. -/
def Visit.places : Visit → List Nat
  | .target ending _ => [ending]
  | .further items _ => items.map Prod.fst

namespace Router

variable (router : Router Rp) (parts : List Str)

/-- The parts of a request without the suffix of a branch, if the last one ends in one. -/
inductive Unsuffixed (place : Nat) : List Str → Prop where
  | whole (none : ¬router.HasSuffix parts place) : Unsuffixed place parts
  | cut {front : List Str} {before : Str} {suffix : Suffix}
      (listed : suffix ∈ router.suffixesOf place)
      (last : parts = front ++ [before ++ router.suffixBoundary :: suffix.text]) :
      Unsuffixed place (front ++ [before])

/-- A value that a variable gets from the parts of a request, from the one with this number on. -/
inductive Gives (place number : Nat) : VarType → PathParam → Prop where
  | middle {name value : Str} (there : parts[number]? = some value) :
      Gives place number (.required name) (.required value)
  | required {name value : Str} {kept : List Str} (last : number = parts.length - 1)
      (unsuffixed : router.Unsuffixed parts place kept) (there : kept[number]? = some value) :
      Gives place number (.required name) (.required value)
  | absent {name : Str} (consumed : parts.length ≤ number) :
      Gives place number (.optional name) (.option none)
  | optional {name value : Str} {kept : List Str} (last : number = parts.length - 1)
      (unsuffixed : router.Unsuffixed parts place kept) (there : kept[number]? = some value) :
      Gives place number (.optional name) (.option (some value))
  | empty {name : Str} (consumed : parts.length ≤ number) :
      Gives place number (.emptableVector name) (.vector [])
  | emptableVector {name : Str} {kept : List Str} (left : number < parts.length)
      (unsuffixed : router.Unsuffixed parts place kept) :
      Gives place number (.emptableVector name) (.vector (kept.drop number))
  | vector {name : Str} {kept : List Str} (left : number < parts.length)
      (unsuffixed : router.Unsuffixed parts place kept) :
      Gives place number (.vector name) (.vector (kept.drop number))

/-- The search comes to a branch with so many parts used up. -/
inductive Comes : Nat → Nat → Prop where
  | root : Comes 0 0
  | goOn {place number : Nat} (above : Comes place number) {item : Nat × Nat}
      (goes : item ∈ router.goesOn parts place number) : Comes item.1 item.2

/-- A parameter is a value for a variable below a branch that the search came to. -/
structure Source (name : Str) (value : PathParam) : Prop where
  source : ∃ above number branch place var, router.Comes parts above number ∧
    router.branch? above = some branch ∧ place ∈ branch.varChildren ∧
    router.branch? place = some var ∧ var.varType.name? = some name ∧
    router.Gives parts place number var.varType value

/-- Every parameter has its source. -/
def Sourced (args : PathArgs) : Prop :=
  ∀ (name : Str) value, args[name]? = some value → router.Source parts name value

/-- What becomes of some variables that are tried one after the other, if nothing breaks. -/
inductive Tried (number : Nat) : List Nat → List (Nat × Nat) → Found → Visit → Prop where
  | done (items : List (Nat × Nat)) (found : Found) :
      Tried number [] items found (.further items found)
  | passed {place : Nat} {places : List Nat} {items : List (Nat × Nat)} {found : Found}
      {visit : Visit} (static : router.isMiddle place = false)
      (later : Tried number places items found visit) :
      Tried number (place :: places) items found visit
  | middle {place : Nat} {places : List Nat} {items : List (Nat × Nat)} {found : Found}
      {visit : Visit} {branch : ApiBranch Rp} {name part : Str}
      (held : router.branch? place = some branch) (middle : branch.isMidVar = true)
      (required : branch.varType = .required name) (next : parts[number]? = some part)
      (later : Tried number places (items ++ [(place, number + 1)])
        { found with args := found.args.insert name (.required part) } visit) :
      Tried number (place :: places) items found visit
  | ends {place : Nat} {places : List Nat} {items : List (Nat × Nat)} {found found' : Found}
      {branch : ApiBranch Rp} (held : router.branch? place = some branch)
      (bound : router.bindVar parts number place branch.varType found = .ok (some found')) :
      Tried number (place :: places) items found (.target place found')

variable {router parts} {place number : Nat} {found found' : Found}

theorem unsuffixed_of_extractSuffix (positive : 0 < parts.length) {kept : List Str}
    {before suffix : Str}
    (extracted : router.extractSuffix place parts before = .ok (kept, suffix)) :
    router.Unsuffixed parts place kept := by
  have unbroken := mt (extractSuffix_eq_panic_iff before).mpr (by rw [extracted]; rintro ⟨⟩)
  rw [extractSuffix] at extracted
  cases last : parts.getLast? with
  | none => simp [List.getLast?_eq_none_iff.mp last] at positive
  | some part =>
      have listed (suffix : Suffix) :
          suffix ∈ (Std.ExtTreeSet.ofList (router.suffixesOf place)).toList ↔
            suffix ∈ router.suffixesOf place := by
        simp [Std.ExtTreeSet.mem_toList, Std.ExtTreeSet.mem_ofList]
      rw [last] at extracted
      dsimp only at extracted
      split at extracted
      · rename_i unfound
        cases extracted
        apply Unsuffixed.whole
        rintro ⟨_, same, own, mem, ends⟩
        cases last.symm.trans same
        have unended := List.find?_eq_none.mp unfound own ((listed own).mpr mem)
        exact unended (List.isSuffixOf_iff_suffix.mpr ends)
      · rename_i own first
        have ends := List.find?_some first
        rw [List.isSuffixOf_iff_suffix] at ends
        have mem := (listed own).mp (List.mem_of_find?_eq_some first)
        have oneByte : router.suffixBoundary.utf8Size = 1 := by
          by_contra wide
          exact unbroken ⟨wide, part, last, own, mem, ends⟩
        rcases ends with ⟨front, rfl⟩
        rw [slice_before oneByte] at extracted
        cases extracted
        refine .cut mem ?_
        rw [← List.dropLast_append_getLast? _ last, List.dropLast_concat]

/-- A variable that is bound gets a value from the parts. -/
theorem of_bindVar (positive : 0 < parts.length) {varType : VarType}
    (bound : router.bindVar parts number place varType found = .ok (some found')) :
    ∃ name value, varType.name? = some name ∧ router.Gives parts place number varType value ∧
      found'.args = found.args.insert name value := by
  have extract (name : Str) (param : List Str → PathParam)
      (bound : (router.extractSuffix place parts found.suffix >>= fun cut =>
        pure (some (Found.mk cut.2 (found.args.insert name (param cut.1))))) =
          .ok (some found')) :
      ∃ kept, router.Unsuffixed parts place kept ∧
        found'.args = found.args.insert name (param kept) := by
    rcases Outcome.bind_eq_ok.mp bound with ⟨cut, extracted, same⟩
    cases same
    exact ⟨cut.1, unsuffixed_of_extractSuffix positive extracted, rfl⟩
  have length {kept : List Str} (unsuffixed : router.Unsuffixed parts place kept) :
      kept.length = parts.length := by
    cases unsuffixed with
    | whole none => rfl
    | cut listed last => simp [last]
  have there {kept : List Str} (unsuffixed : router.Unsuffixed parts place kept)
      (last : number = parts.length - 1) : ∃ value, kept[number]? = some value := by
    have same := length unsuffixed
    exact ⟨_, List.getElem?_eq_getElem (by omega)⟩
  cases varType with
  | optional name =>
      simp only [bindVar] at bound
      split at bound
      · rename_i consumed
        cases bound
        exact ⟨name, _, rfl, .absent (of_decide_eq_true consumed), rfl⟩
      · split at bound
        · rename_i last
          rw [beq_iff_eq] at last
          rcases extract name (fun kept => .option kept[number]?) bound with
            ⟨kept, unsuffixed, args⟩
          rcases there unsuffixed last with ⟨value, there⟩
          rw [there] at args
          exact ⟨name, _, rfl, .optional last unsuffixed there, args⟩
        · cases bound
  | required name =>
      simp only [bindVar] at bound
      split at bound
      · rename_i last
        rw [beq_iff_eq] at last
        rcases extract name (fun kept => .required (kept[number]?.getD [])) bound with
          ⟨kept, unsuffixed, args⟩
        rcases there unsuffixed last with ⟨value, there⟩
        rw [there] at args
        exact ⟨name, _, rfl, .required last unsuffixed there, args⟩
      · cases bound
  | emptableVector name =>
      simp only [bindVar] at bound
      split at bound
      · rename_i consumed
        cases bound
        exact ⟨name, _, rfl, .empty (of_decide_eq_true consumed), rfl⟩
      · rename_i left
        rcases extract name (fun kept => .vector (kept.drop number)) bound with
          ⟨kept, unsuffixed, args⟩
        exact ⟨name, _, rfl, .emptableVector (by simpa using left) unsuffixed, args⟩
  | vector name =>
      simp only [bindVar] at bound
      split at bound
      · cases bound
      · rename_i left
        rcases extract name (fun kept => .vector (kept.drop number)) bound with
          ⟨kept, unsuffixed, args⟩
        exact ⟨name, _, rfl, .vector (by simpa using left) unsuffixed, args⟩
  | notVar => cases bound

theorem tried_of_tryVars {places : List Nat} {items : List (Nat × Nat)} {visit : Visit}
    (tried : router.tryVars parts number places items found = .ok visit) :
    router.Tried parts number places items found visit := by
  induction places generalizing items found with
  | nil =>
      cases tried
      exact .done _ _
  | cons place places ih =>
      rw [tryVars] at tried
      cases held : router.branch? place with
      | none =>
          rw [held] at tried
          exact .passed (by simp [isMiddle, held]) (ih tried)
      | some branch =>
          rw [held] at tried
          dsimp only at tried
          split at tried
          · rename_i middle
            split at tried
            · rename_i name required
              split at tried
              · rename_i part next
                exact .middle held middle required next (ih tried)
              · cases tried
            · rename_i other
              refine .passed ?_ (ih tried)
              cases var : branch.varType with
              | required name => exact absurd var (other name)
              | _ => simp [isMiddle, held, var]
          · rename_i last
            rcases Outcome.bind_eq_ok.mp tried with ⟨bound, bind, rest⟩
            cases bound with
            | none => exact .passed (by simp [isMiddle, held, last]) (ih rest)
            | some found' =>
                cases rest
                exact .ends held bind

/-- The variable at this place is bound, if there is one. -/
def BoundAt (router : Router Rp) (args : PathArgs) (place : Nat) : Prop :=
  ∀ branch name, router.branch? place = some branch → branch.varType.name? = some name →
    name ∈ args

namespace Tried

variable {places : List Nat} {items : List (Nat × Nat)} {visit : Visit}

/-- What is bound stays bound. -/
theorem keeps (positive : 0 < parts.length)
    (tried : router.Tried parts number places items found visit) {name : Str}
    (bound : name ∈ found.args) : name ∈ visit.carried.args := by
  induction tried with
  | done items found => exact bound
  | passed static later ih => exact ih bound
  | middle held middle required next later ih =>
      exact ih (Std.ExtTreeMap.mem_insert.mpr (Or.inr bound))
  | ends held bind =>
      rcases of_bindVar positive bind with ⟨_, value, _, _, args⟩
      rw [Visit.carried, args]
      exact Std.ExtTreeMap.mem_insert.mpr (Or.inr bound)

theorem sourced (positive : 0 < parts.length)
    (tried : router.Tried parts number places items found visit)
    (below : ∀ place ∈ places, ∃ above branch, router.Comes parts above number ∧
      router.branch? above = some branch ∧ place ∈ branch.varChildren)
    (sourced : router.Sourced parts found.args) : router.Sourced parts visit.carried.args := by
  have insert {args : PathArgs} {place : Nat} {var : ApiBranch Rp} {name : Str}
      {value : PathParam} (mem : ∃ above branch, router.Comes parts above number ∧
        router.branch? above = some branch ∧ place ∈ branch.varChildren)
      (held : router.branch? place = some var) (declares : var.varType.name? = some name)
      (gives : router.Gives parts place number var.varType value)
      (sourced : router.Sourced parts args) : router.Sourced parts (args.insert name value) := by
    intro asked given found
    rw [Std.ExtTreeMap.getElem?_insert] at found
    split at found
    · rename_i same
      cases Std.LawfulEqOrd.eq_of_compare same
      cases found
      rcases mem with ⟨above, branch, comes, there, listed⟩
      exact ⟨above, number, branch, place, var, comes, there, listed, held, declares, gives⟩
    · exact sourced asked given found
  induction tried with
  | done items found => exact sourced
  | passed static later ih =>
      exact ih (fun place mem => below place (List.mem_cons_of_mem _ mem)) sourced
  | middle held middle required next later ih =>
      refine ih (fun place mem => below place (List.mem_cons_of_mem _ mem)) ?_
      refine insert (below _ List.mem_cons_self) held (by rw [required]; rfl) ?_ sourced
      rw [required]
      exact .middle next
  | ends held bind =>
      rcases of_bindVar positive bind with ⟨name, value, declares, gives, args⟩
      rw [Visit.carried, args]
      exact insert (below _ List.mem_cons_self) held declares gives sourced

/-- The variables in the middle of paths wait on the stack, and each of them is bound. -/
theorem further (positive : 0 < parts.length) {next : List (Nat × Nat)}
    (tried : router.Tried parts number places items found (.further next found')) :
    next = items ++ (places.filter router.isMiddle).map (fun place => (place, number + 1)) ∧
      ∀ place ∈ places.filter router.isMiddle, router.BoundAt found'.args place := by
  generalize whole : Visit.further next found' = visit at tried
  induction tried generalizing next found' with
  | done items found =>
      cases whole
      exact ⟨by simp, by simp⟩
  | passed static later ih =>
      rcases ih whole with ⟨same, bound⟩
      rw [List.filter_cons_of_neg (by simp [static])]
      exact ⟨same, bound⟩
  | @middle place places items found visit branch name part held middle required there later ih =>
      rcases ih whole with ⟨same, bound⟩
      have isMiddle : router.isMiddle place = true := by
        simp [Router.isMiddle, held, middle, required]
      rw [List.filter_cons_of_pos isMiddle]
      refine ⟨by rw [same]; simp, ?_⟩
      intro other mem
      rcases List.mem_cons.mp mem with rfl | behind
      · intro branch' name' there' declares
        cases held.symm.trans there'
        rw [required] at declares
        cases declares
        cases whole
        exact later.keeps positive (Std.ExtTreeMap.mem_insert_self)
      · exact bound other behind
  | ends held bind => cases whole

/-- The variable that ends a walk is bound. -/
theorem target (positive : 0 < parts.length)
    (tried : router.Tried parts number places items found (.target place found')) :
    place ∈ places ∧ router.BoundAt found'.args place := by
  generalize whole : Visit.target place found' = visit at tried
  induction tried with
  | done items found => cases whole
  | passed static later ih =>
      rcases ih whole with ⟨mem, bound⟩
      exact ⟨List.mem_cons_of_mem _ mem, bound⟩
  | middle held middle required there later ih =>
      rcases ih whole with ⟨mem, bound⟩
      exact ⟨List.mem_cons_of_mem _ mem, bound⟩
  | ends held bind =>
      cases whole
      refine ⟨List.mem_cons_self, ?_⟩
      intro branch name there declares
      cases held.symm.trans there
      rcases of_bindVar positive bind with ⟨name', value, declares', _, args⟩
      cases declares.symm.trans declares'
      rw [args]
      exact Std.ExtTreeMap.mem_insert_self

end Tried

/-- The tree of a router with the one that the second pass started from. -/
structure Grounded (router : Router Rp) (tree : ApiTree Rp) : Prop where
  planted : router.Planted tree
  halfway : Halfway tree (tree.visits tree.nodes.length [0]) router.apisTree

theorem Ready.grounded (ready : Ready registered router) :
    ∃ order tree, firstPass order registered (new : Router Rp).apisTree = .ok tree ∧
      tree.traversal fillProperties = .ok router.apisTree ∧ router.Grounded tree := by
  rcases ready with ⟨order, partSeparator, boundary, ready⟩
  rcases of_ready ready with ⟨final, built, rfl⟩
  rcases push_fields registered (new.setSeparator partSeparator boundary) with ⟨buffer, _⟩
  rw [buffer, foldl_push apisTree (fun _ _ => rfl), buildTree_eq] at built
  rcases Outcome.bind_eq_ok.mp built with ⟨tree, passed, called⟩
  rcases of_firstPass passed with ⟨linked, fresh⟩
  refine ⟨order, tree, passed, called, ⟨linked, fresh, ?_⟩,
    halfway_of_traversal linked called⟩
  exact informed_of_traversal linked fresh called

variable {tree : ApiTree Rp}

namespace Grounded

theorem alike (grounded : router.Grounded tree) {branch : ApiBranch Rp}
    (held : router.branch? place = some branch) :
    ∃ before, tree.element? place = some before ∧ branch.Alike before :=
  grounded.halfway.alike held

/-- A variable is no omission. -/
theorem kept_of_var (grounded : router.Grounded tree) {branch : ApiBranch Rp} {name : Str}
    (held : router.branch? place = some branch) (declares : branch.varType.name? = some name) :
    Kept tree place := by
  rcases grounded.alike held with ⟨before, there, alike⟩
  refine ⟨before, there, (grounded.planted.fresh place before there).kept ?_⟩
  intro static
  rw [alike.varType, static] at declares
  cases declares

/-- A static step passes omissions only. -/
theorem child (grounded : router.Grounded tree) {key : Str} {child : Nat}
    (below : router.child? place key = some child) :
    Above tree.Child place child ∧
      ∀ node, Above tree.Child place node → Above tree.Child node child →
        ¬Kept tree node := by
  refine ⟨grounded.planted.child below, ?_⟩
  rw [child?, Option.or_eq_some_iff] at below
  rcases below with static | ⟨_, jumped⟩
  · intro node above further
    have link : tree.Child place child := by
      rw [← grounded.planted.informed.same.child]
      exact ⟨key, static⟩
    have forest := grounded.planted.linked.forest
    exact absurd above (forest.antisymm (forest.above_parent link further))
  · rcases Option.bind_eq_some_iff.mp jumped with ⟨branch, held, found⟩
    exact (grounded.planted.informed.jumps place branch key child held found).nearest

end Grounded

/-- All variables down to this place are bound. -/
def Declared (router : Router Rp) (tree : ApiTree Rp) (args : PathArgs) (place : Nat) : Prop :=
  ∀ node, ReflTransGen tree.Child node place → router.BoundAt args node

theorem Declared.mono {args args' : PathArgs} (declared : router.Declared tree args place)
    (keeps : ∀ name, name ∈ args → name ∈ args') : router.Declared tree args' place :=
  fun node leads branch name held declares => keeps name (declared node leads branch name held
    declares)

/-- A step down that passes omissions only leaves the variable at its end to be bound. -/
theorem Declared.below (grounded : router.Grounded tree) {args : PathArgs} {lower : Nat}
    (declared : router.Declared tree args place) (above : Above tree.Child place lower)
    (between : ∀ node, Above tree.Child place node → Above tree.Child node lower →
      ¬Kept tree node) (bound : router.BoundAt args lower) : router.Declared tree args lower := by
  intro node leads
  have forest := grounded.planted.linked.forest
  rcases reflTransGen_iff_eq_or_transGen.mp leads with rfl | strict
  · exact bound
  · rcases forest.comparable leads above.to_reflTransGen with higher | deeper
    · exact declared node higher
    · rcases reflTransGen_iff_eq_or_transGen.mp deeper with rfl | under
      · exact declared _ .refl
      · intro branch name held declares
        exact absurd (grounded.kept_of_var held declares) (between node under strict)

/-- What a walk keeps: each parameter has a source, and the search came to the waiting branches. -/
def Searching (router : Router Rp) (parts : List Str) (items : List (Nat × Nat)) (found : Found) :
    Prop :=
  router.Sourced parts found.args ∧ ∀ item ∈ items, router.Comes parts item.1 item.2

theorem Visited.sourced (positive : 0 < parts.length) {visit : Visit}
    (visited : Visited router parts place number found visit)
    (comes : router.Comes parts place number) (sourced : router.Sourced parts found.args) :
    router.Sourced parts visit.carried.args := by
  cases visited with
  | lost absent => exact sourced
  | complete held overflowed filled => exact sourced
  | static held next matched => exact sourced
  | vars held unfinished unmatched tried =>
      exact (tried_of_tryVars tried).sourced positive
        (fun below mem => ⟨place, _, comes, held, mem⟩) sourced

theorem Visited.goesOn (positive : 0 < parts.length) {next : List (Nat × Nat)}
    (visited : Visited router parts place number found (.further next found')) :
    next = router.goesOn parts place number ∨ next = [] := by
  cases visited with
  | lost absent => exact Or.inr rfl
  | static held next matched => exact Or.inl (goesOn_of_matched held next matched).symm
  | vars held unfinished unmatched tried =>
      left
      rw [((tried_of_tryVars tried).further positive).1, goesOn_of_unmatched held unmatched]
      simp

/-- Whatever a walk finds, each parameter is a value for a variable that the search came to, from
the parts of the request. -/
theorem sourced_of_matchVarPath {path branch suffix : Str} {args : PathArgs}
    (walked : router.matchVarPath path = .ok (some (branch, args, suffix))) :
    router.Sourced (path.splitOn router.pathPartSeparator) args := by
  let parts := path.splitOn router.pathPartSeparator
  have positive : 0 < parts.length := List.length_pos_of_ne_nil (List.splitOn_ne_nil _ _)
  rw [matchVarPath] at walked
  rcases Outcome.bind_eq_ok.mp walked with ⟨target, ended, rest⟩
  cases target with
  | none => cases rest
  | some target =>
      rcases target with ⟨place, found⟩
      rcases Option.map_eq_some_iff.mp (Outcome.ok.inj rest) with ⟨branch', _, same⟩
      cases same
      refine of_walk (router.Searching parts) (fun _ found => router.Sourced parts found.args)
        ?_ ?_ ⟨by intro name value none; simp at none, ?_⟩ ended
      · rintro place number items found next found' ⟨sourced, comes⟩ visited
        have here := comes (place, number) List.mem_cons_self
        refine ⟨visited.sourced positive here sourced, ?_⟩
        intro item mem
        rcases List.mem_append.mp mem with new | old
        · rcases visited.goesOn positive with same | none
          · rw [same] at new
            exact here.goOn new
          · rw [none] at new
            cases new
        · exact comes item (List.mem_cons_of_mem _ old)
      · rintro place number items found branch found' ⟨sourced, comes⟩ visited
        exact visited.sourced positive (comes (place, number) List.mem_cons_self) sourced
      · intro item mem
        rw [List.mem_singleton.mp mem]
        exact .root

/-- No part of a request opens like a variable, so that none is taken for the key of one. -/
def Unbraced (parts : List Str) : Prop := ∀ part ∈ parts, part.head? ≠ some variableOpener

theorem not_var_of_unbraced {key : Str} (unbraced : key.head? ≠ some variableOpener) :
    VarType.ofKey key = .notVar := by
  rw [VarType.ofKey, if_neg fun both => unbraced both.1]

/-- The path of keys to a place, which holds the branch of that path. -/
theorem Grounded.path_of_branch (grounded : router.Grounded tree)
    (prefixTree : PrefixTree tree registered) {branch : ApiBranch Rp}
    (held : router.branch? place = some branch) :
    ∃ keys before, tree.getByPath keys = some place ∧ tree.content keys = some before ∧
      branch.Alike before := by
  rcases grounded.alike held with ⟨before, there, alike⟩
  rcases prefixTree.sound.path_of_element there with ⟨keys, leads, content⟩
  exact ⟨keys, before, leads, content, alike⟩

theorem held_of_child {key : Str} {child : Nat} (below : router.child? place key = some child) :
    ∃ branch, router.branch? place = some branch := by
  rw [child?, Option.or_eq_some_iff] at below
  rcases below with static | ⟨_, jumped⟩
  · refine Option.isSome_iff_exists.mp (element?_isSome_iff.mpr ?_)
    by_contra outside
    rw [ATree.get, ATree.children, List.getElem?_eq_none (Nat.le_of_not_lt outside)] at static
    simp at static
  · rcases Option.bind_eq_some_iff.mp jumped with ⟨branch, held, _⟩
    exact ⟨branch, held⟩

/-- A part that opens no variable leads to a static branch. -/
theorem static_of_child (grounded : router.Grounded tree)
    (prefixTree : PrefixTree tree registered) (trimmed : Trimmed registered) {key : Str}
    (unbraced : key.head? ≠ some variableOpener) {child : Nat}
    (below : router.child? place key = some child) {branch : ApiBranch Rp}
    (held : router.branch? child = some branch) : branch.varType = .notVar := by
  rcases grounded.alike held with ⟨before, there, alike⟩
  rw [alike.varType]
  rcases held_of_child below with ⟨upper, above⟩
  rw [child?, Option.or_eq_some_iff] at below
  rcases below with static | ⟨_, jumped⟩
  · rcases grounded.path_of_branch prefixTree above with ⟨keys, _, leads, _, _⟩
    have linked : tree.get place key = some child := by
      rw [← static, ATree.get, ATree.get, grounded.halfway.same.children]
    have content : tree.content (keys ++ [key]) = some before := by
      rw [ATree.content, getByPath_append, leads, Option.bind_some, linked, Option.bind_some,
        there]
    rw [(prefixTree.varType_of_content trimmed content).1]
    exact not_var_of_unbraced unbraced
  · rcases Option.bind_eq_some_iff.mp jumped with ⟨branch', held', found⟩
    rcases grounded.halfway.jumped grounded.planted.fresh held' found with
      ⟨other, at', static, _⟩
    cases there.symm.trans at'
    exact static

theorem key_of_findCut {part suffix : Str} {fronts : List Str} {child : Nat}
    (cut : router.findCut place part fronts = .ok (some (child, suffix))) :
    ∃ key ∈ fronts, router.child? place key = some child := by
  induction fronts with
  | nil => cases cut
  | cons front fronts ih =>
      rw [findCut] at cut
      split at cut
      · rcases ih cut with ⟨key, mem, below⟩
        exact ⟨key, List.mem_cons_of_mem _ mem, below⟩
      · rename_i child' below
        split at cut
        · cases cut
        · rcases Outcome.bind_eq_ok.mp cut with ⟨rest, _, suffixed⟩
          rcases Option.map_eq_some_iff.mp (Outcome.ok.inj suffixed) with ⟨suffix, _, same⟩
          cases same
          exact ⟨front, List.mem_cons_self, below⟩

/-- A static step goes by a part of the request or by the front of one. -/
theorem unbraced_of_matched (unbraced : Unbraced parts) {part suffix : Str} {child : Nat}
    (next : parts[number]? = some part)
    (matched : router.findConsiderSuffix part (number == parts.length - 1) place =
      .ok (some (child, suffix))) :
    ∃ key : Str, key.head? ≠ some variableOpener ∧ router.child? place key = some child := by
  have opens := unbraced part (List.mem_of_getElem? next)
  rw [findConsiderSuffix] at matched
  split at matched
  · rename_i child' below
    cases matched
    exact ⟨part, opens, below⟩
  · split at matched
    · rcases key_of_findCut matched with ⟨key, mem, below⟩
      rcases mem_cuts_iff.mp mem with ⟨after, rfl⟩
      refine ⟨key, ?_, below⟩
      cases key with
      | nil => simp
      | cons c key => exact opens
    · cases matched

/-- A visit leaves all variables bound down to where the walk goes on or ends. -/
theorem Visited.declared (grounded : router.Grounded tree)
    (prefixTree : PrefixTree tree registered) (trimmed : Trimmed registered)
    (unbraced : Unbraced parts) (positive : 0 < parts.length) {visit : Visit}
    (visited : Visited router parts place number found visit)
    (declared : router.Declared tree found.args place) :
    (∀ name, name ∈ found.args → name ∈ visit.carried.args) ∧
      ∀ place ∈ visit.places, router.Declared tree visit.carried.args place := by
  cases visited with
  | lost absent => exact ⟨fun _ bound => bound, by simp [Visit.places]⟩
  | complete held overflowed filled =>
      refine ⟨fun _ bound => bound, ?_⟩
      intro ending mem
      rw [List.mem_singleton.mp mem]
      exact declared
  | static held next matched =>
      refine ⟨fun _ bound => bound, ?_⟩
      intro child mem
      rw [List.mem_singleton.mp mem]
      rcases unbraced_of_matched unbraced next matched with ⟨key, opens, below⟩
      rcases grounded.child below with ⟨above, between⟩
      refine declared.below grounded above between ?_
      intro branch name there declares
      rw [static_of_child grounded prefixTree trimmed opens below there] at declares
      cases declares
  | @vars branch visit held unfinished unmatched tried =>
      have tries := tried_of_tryVars tried
      refine ⟨fun _ bound => tries.keeps positive bound, ?_⟩
      have below {child : Nat} (mem : child ∈ branch.varChildren)
          (bound : router.BoundAt visit.carried.args child) :
          router.Declared tree visit.carried.args child := by
        have nearest := (grounded.planted.informed.only place branch held child mem).2.2
        refine (declared.mono fun name before => tries.keeps positive before).below grounded
          nearest.above nearest.nearest bound
      cases visit with
      | target ending found' =>
          rcases tries.target positive with ⟨listed, bound⟩
          intro child mem
          rw [List.mem_singleton.mp mem]
          exact below listed bound
      | further next found' =>
          rcases tries.further positive with ⟨same, bound⟩
          intro child mem
          rw [Visit.places, same, List.nil_append, List.map_map] at mem
          rcases List.mem_map.mp mem with ⟨child, listed, rfl⟩
          exact below (List.mem_filter.mp listed).1 (bound child listed)

/-- Where all variables down to a branch are bound, all in its path are. -/
theorem Declared.names (grounded : router.Grounded tree)
    (prefixTree : PrefixTree tree registered) (trimmed : Trimmed registered)
    {args : PathArgs} (declared : router.Declared tree args place) {branch : ApiBranch Rp}
    (held : router.branch? place = some branch) {part name : Str}
    (mem : part ∈ partsOf branch.path) (declares : (VarType.ofKey part).name? = some name) :
    name ∈ args := by
  rcases grounded.path_of_branch prefixTree held with ⟨keys, before, leads, content, alike⟩
  rw [alike.path] at mem
  by_cases below : keys = []
  · rw [below, prefixTree.root] at content
    cases content
    cases List.mem_singleton.mp mem
    cases declares
  · rw [(prefixTree.cases_content below content).1] at mem
    rcases List.append_of_mem mem with ⟨front, back, rfl⟩
    have whole : front ++ part :: back = (front ++ [part]) ++ back := by simp
    rw [whole, ATree.getByPath, getFrom_append] at leads
    rcases Option.bind_eq_some_iff.mp leads with ⟨node, there, further⟩
    have valid : node < router.apisTree.nodes.length := by
      rw [grounded.halfway.same.length]
      exact prefixTree.sound.within there
    rcases Option.isSome_iff_exists.mp (element?_isSome_iff.mpr valid) with ⟨var, varHeld⟩
    rcases grounded.alike varHeld with ⟨bare, bareHeld, varAlike⟩
    have varContent : tree.content (front ++ [part]) = some bare := by
      rw [ATree.content, ATree.getByPath, there, Option.bind_some, bareHeld]
    refine declared node (reach_of_getFrom further) var name varHeld ?_
    rw [varAlike.varType, (prefixTree.varType_of_content trimmed varContent).1]
    exact declares

/-- Every variable in the path of the branch that a walk ends at is bound, as long as no part of the
request opens like a variable. -/
theorem declared_of_matchVarPath (ready : Ready registered router) (trimmed : Trimmed registered)
    {path branch suffix : Str} {args : PathArgs}
    (unbraced : Unbraced (path.splitOn router.pathPartSeparator))
    (walked : router.matchVarPath path = .ok (some (branch, args, suffix))) :
    ∀ part ∈ partsOf branch, ∀ name, (VarType.ofKey part).name? = some name →
      name ∈ args := by
  rcases ready.grounded with ⟨order, tree, passed, called, grounded⟩
  have prefixTree := prefixTree_firstPass order trimmed passed
  let parts := path.splitOn router.pathPartSeparator
  have positive : 0 < parts.length := List.length_pos_of_ne_nil (List.splitOn_ne_nil _ _)
  rw [matchVarPath] at walked
  rcases Outcome.bind_eq_ok.mp walked with ⟨target, ended, rest⟩
  cases target with
  | none => cases rest
  | some target =>
      rcases target with ⟨place, found⟩
      rcases Option.map_eq_some_iff.mp (Outcome.ok.inj rest) with ⟨ending, held, same⟩
      cases same
      have declared : router.Declared tree found.args place := by
        refine of_walk
          (fun items found => ∀ item ∈ items, router.Declared tree found.args item.1)
          (fun place found => router.Declared tree found.args place) ?_ ?_ ?_ ended
        · intro place number items found next found' before visited
          rcases visited.declared grounded prefixTree trimmed unbraced positive
            (before _ List.mem_cons_self) with ⟨keeps, goes⟩
          intro item mem
          rcases List.mem_append.mp mem with new | old
          · exact goes item.1 (List.mem_map_of_mem new)
          · exact (before item (List.mem_cons_of_mem _ old)).mono keeps
        · intro place number items found ending found' before visited
          exact (visited.declared grounded prefixTree trimmed unbraced positive
            (before _ List.mem_cons_self)).2 ending List.mem_cons_self
        · intro item mem node leads
          rw [List.mem_singleton.mp mem] at leads
          have root : node = 0 := by
            rcases reflTransGen_iff_eq_or_transGen.mp leads with same | above
            · exact same.symm
            · exact absurd (grounded.planted.linked.later_of_above above) (Nat.not_lt_zero _)
          intro branch name there declares
          rcases grounded.alike there with ⟨before, atRoot, alike⟩
          have bare := prefixTree.root
          rw [ATree.content, getByPath_nil, Option.bind_some, ← root, atRoot] at bare
          cases bare
          rw [alike.varType] at declares
          cases declares
      intro part mem name declares
      exact declared.names grounded prefixTree trimmed held mem declares

/-- A router that got ready with some apis, and a path that it walks to an end. -/
theorem exists_walked (registered : List (Api Unit)) (path : Str)
    (walks : ((registered.foldl push new).ready .pushed >>= fun router =>
      router.matchVarPath path >>= fun target =>
        if target.isSome then .ok () else .panic).isOk = true) :
    ∃ router : Router Unit, Ready registered router ∧
      router.pathPartSeparator = Routing.pathPartSeparator ∧
      ∃ branch args suffix, router.matchVarPath path = .ok (some (branch, args, suffix)) := by
  rcases Outcome.isOk_iff.mp walks with ⟨_, whole⟩
  rcases Outcome.bind_eq_ok.mp whole with ⟨router, closed, rest⟩
  rcases Outcome.bind_eq_ok.mp rest with ⟨target, walked, found⟩
  have default : router.pathPartSeparator = Routing.pathPartSeparator := by
    rcases of_ready closed with ⟨tree, -, rfl⟩
    exact foldl_push pathPartSeparator (fun _ _ => rfl) registered new
  refine ⟨router, ⟨.pushed, _, _, closed⟩, default, ?_⟩
  cases target with
  | none => cases found
  | some target => exact ⟨_, _, _, walked⟩

/-- A vector in front of a suffix. -/
theorem sourced_of_matchVarPath_fruit :
    let path := "fruit/apple/banana.html".toList
    ∃ (router : Router Unit) (branch : Str) (args : PathArgs) (suffix : Str),
      router.matchVarPath path = .ok (some (branch, args, suffix)) ∧
      router.Sourced (path.splitOn router.pathPartSeparator) args := by
  rcases exists_walked [Api.new none "fruit/{targets+}.|html".toList [] false []]
    "fruit/apple/banana.html".toList (by decide)
    with ⟨router, ready, _, branch, args, suffix, walked⟩
  exact ⟨router, branch, args, suffix, walked, sourced_of_matchVarPath walked⟩

/-- A variable in the middle of a path that is walked without a literal one. -/
theorem declared_of_matchVarPath_detail :
    ∃ (router : Router Unit) (branch : Str) (args : PathArgs) (suffix : Str),
      router.matchVarPath "1/detail".toList = .ok (some (branch, args, suffix)) ∧
      ∀ part ∈ partsOf branch, ∀ name, (VarType.ofKey part).name? = some name →
        name ∈ args := by
  let registered : List (Api Unit) := [Api.new none "{id}/detail".toList [] false []]
  rcases exists_walked registered "1/detail".toList (by decide)
    with ⟨router, ready, default, branch, args, suffix, walked⟩
  have trimmed : Trimmed registered := by
    intro api mem
    cases List.mem_singleton.mp mem
    decide
  have unbraced : Unbraced ("1/detail".toList.splitOn router.pathPartSeparator) := by
    rw [default]
    unfold Unbraced
    decide
  exact ⟨router, branch, args, suffix, walked,
    declared_of_matchVarPath ready trimmed unbraced walked⟩

end Router

end Dce.Routing
