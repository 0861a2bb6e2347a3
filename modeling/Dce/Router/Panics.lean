import Dce.Router.Breaks
import Dce.Router.Ends
import Dce.Router.Rounds

/-!
# Where routing panics

What a walk does with its stack is a search through the tree, down one branch
after the other until one ends it. It panics exactly where the search comes to a
branch that breaks.
-/

namespace Dce.Routing.Router

open Text ATree

variable {Rp : Type} (router : Router Rp) (parts : List Str)

/-- The search from this branch on finds an end. -/
inductive Finds : Nat → Nat → Prop where
  | here {place number : Nat} (ends : router.EndsHere parts place number) : Finds place number
  | down {place number child next : Nat} (goes : (child, next) ∈ router.goesOn parts place number)
      (finds : Finds child next) : Finds place number

/-- The search from this branch on comes to a branch that breaks before it finds an end. -/
inductive Fails : Nat → Nat → Prop where
  | here {place number : Nat} (breaks : router.Breaks parts place number) : Fails place number
  | down {place number child next : Nat} {before after : List (Nat × Nat)}
      (goes : router.goesOn parts place number = before ++ (child, next) :: after)
      (unended : ¬router.EndsHere parts place number)
      (unfound : ∀ earlier ∈ before, ¬Finds router parts earlier.1 earlier.2)
      (fails : Fails child next) : Fails place number

variable {router parts} {place number : Nat} {found : Found} {registered : List (Api Rp)}

theorem finds_iff : router.Finds parts place number ↔ router.EndsHere parts place number ∨
    ∃ item ∈ router.goesOn parts place number, router.Finds parts item.1 item.2 := by
  constructor
  · intro finds
    cases finds with
    | here ends => exact Or.inl ends
    | down goes finds => exact Or.inr ⟨_, goes, finds⟩
  · rintro (ends | ⟨item, goes, finds⟩)
    · exact .here ends
    · exact .down goes finds

/-- The search through branches one after the other fails. -/
def FailsFirst (router : Router Rp) (parts : List Str) (items : List (Nat × Nat)) : Prop :=
  ∃ before item after, items = before ++ item :: after ∧
    (∀ earlier ∈ before, ¬router.Finds parts earlier.1 earlier.2) ∧
      router.Fails parts item.1 item.2

theorem fails_iff : router.Fails parts place number ↔ router.Breaks parts place number ∨
    ¬router.EndsHere parts place number ∧
      router.FailsFirst parts (router.goesOn parts place number) := by
  constructor
  · intro fails
    cases fails with
    | here breaks => exact Or.inl breaks
    | down goes unended unfound fails =>
        exact Or.inr ⟨unended, _, _, _, goes, unfound, fails⟩
  · rintro (breaks | ⟨unended, before, item, after, goes, unfound, fails⟩)
    · exact .here breaks
    · exact .down goes unended unfound fails

theorem failsFirst_cons {item : Nat × Nat} {items : List (Nat × Nat)} :
    router.FailsFirst parts (item :: items) ↔ router.Fails parts item.1 item.2 ∨
      ¬router.Finds parts item.1 item.2 ∧ router.FailsFirst parts items := by
  constructor
  · rintro ⟨before, failing, after, split, unfound, fails⟩
    cases before with
    | nil =>
        cases split
        exact Or.inl fails
    | cons first before =>
        cases split
        refine Or.inr ⟨unfound _ List.mem_cons_self, before, failing, after, rfl, ?_, fails⟩
        intro earlier mem
        exact unfound earlier (List.mem_cons_of_mem _ mem)
  · rintro (fails | ⟨unfound, before, failing, after, split, others, fails⟩)
    · exact ⟨[], item, items, rfl, by simp, fails⟩
    · refine ⟨item :: before, failing, after, by rw [split]; rfl, ?_, fails⟩
      intro earlier mem
      rcases List.mem_cons.mp mem with rfl | within
      · exact unfound
      · exact others earlier within

/-- Some number of visits leads to a panic. -/
def Panics (router : Router Rp) (parts : List Str) (items : List (Nat × Nat)) (found : Found) :
    Prop :=
  ∃ fuel, router.walk parts fuel items found = .panic

theorem not_panics_nil : ¬router.Panics parts [] found := by
  rintro ⟨fuel, panics⟩
  cases fuel with
  | zero => cases panics
  | succ fuel => cases panics

/-- One visit of a walk that panics. -/
theorem panics_cons (positive : 0 < parts.length) {items : List (Nat × Nat)} :
    router.Panics parts ((place, number) :: items) found ↔ router.Breaks parts place number ∨
      ¬router.EndsHere parts place number ∧
        ∃ found', router.visit parts place number found =
            .ok (.further (router.goesOn parts place number) found') ∧
          router.Panics parts (router.goesOn parts place number ++ items) found' := by
  rcases visit_cases positive place number found with
    ⟨breaks, panics⟩ | ⟨unbroken, ⟨ends, ending, found', returns⟩ |
      ⟨unended, found', goes⟩⟩
  · refine iff_of_true ⟨1, ?_⟩ (Or.inl breaks)
    rw [walk, panics]
    rfl
  · refine iff_of_false ?_ ?_
    · rintro ⟨fuel, panics⟩
      cases fuel with
      | zero => cases panics
      | succ fuel =>
          rw [walk, returns] at panics
          cases panics
    · rintro (breaks | ⟨unended, _⟩)
      · exact unbroken breaks
      · exact unended ends
  · constructor
    · rintro ⟨fuel, panics⟩
      cases fuel with
      | zero => cases panics
      | succ fuel =>
          rw [walk, goes] at panics
          exact Or.inr ⟨unended, found', goes, fuel, panics⟩
    · rintro (breaks | ⟨_, found'', same, fuel, panics⟩)
      · exact absurd breaks unbroken
      · refine ⟨fuel + 1, ?_⟩
        rw [walk, same]
        exact panics

/-- Whether a walk panics does not depend on what it has found so far. -/
theorem panics_congr (positive : 0 < parts.length) {items : List (Nat × Nat)}
    (left right : Found) : router.Panics parts items left → router.Panics parts items right := by
  rintro ⟨fuel, panics⟩
  induction fuel generalizing items left right with
  | zero => cases panics
  | succ fuel ih =>
      cases items with
      | nil => cases panics
      | cons item items =>
          rcases item with ⟨place, number⟩
          rw [panics_cons positive]
          rcases visit_cases positive place number right with
            ⟨breaks, _⟩ | ⟨unbroken, ⟨ends, _⟩ | ⟨unended, found', goes⟩⟩
          · exact Or.inl breaks
          · right
            rcases (panics_cons positive).mp ⟨fuel + 1, panics⟩ with breaks | ⟨unended, _⟩
            · exact absurd breaks unbroken
            · exact absurd ends unended
          · right
            refine ⟨unended, found', goes, ?_⟩
            rcases visit_cases positive place number left with
              ⟨breaks, _⟩ | ⟨_, ⟨ends, _⟩ | ⟨_, found'', goes'⟩⟩
            · exact absurd breaks unbroken
            · exact absurd ends unended
            · rw [walk, goes'] at panics
              exact ih found'' found' panics

/-- Below a branch there is only a part of the tree left. -/
theorem Planted.goesOn {tree : ApiTree Rp} (planted : router.Planted tree)
    {item : Nat × Nat} (goes : item ∈ router.goesOn parts place number) :
    place < item.1 ∧ item.1 < tree.nodes.length := by
  have above : WorkList.Above tree.Child place item.1 := by
    rw [Router.goesOn] at goes
    split at goes
    · cases goes
    · rename_i child below
      rw [List.mem_singleton.mp goes]
      rw [staticChild] at below
      rcases Option.bind_eq_some_iff.mp below with ⟨part, _, matched⟩
      split at matched
      · rename_i pair searched
        rcases Option.map_eq_some_iff.mp matched with ⟨⟨child', suffix⟩, rfl, same⟩
        cases same
        rcases child_of_findConsiderSuffix searched with ⟨key, found⟩
        exact planted.child found
      · cases matched
    · rename_i branch held _
      rcases List.mem_map.mp goes with ⟨child, mem, rfl⟩
      exact (planted.varChildren held).1 child (List.mem_of_mem_filter mem)
  exact ⟨planted.linked.later_of_above above, planted.linked.lt_of_above above⟩

/-- A walk from this branch on panics if the search from there fails, or finds nothing and the walk
from the other branches panics. -/
def Searches (router : Router Rp) (parts : List Str) (item : Nat × Nat) : Prop :=
  ∀ items found, router.Panics parts (item :: items) found ↔
    router.Fails parts item.1 item.2 ∨
    ¬router.Finds parts item.1 item.2 ∧ router.Panics parts items found

theorem panics_append {next items : List (Nat × Nat)}
    (searches : ∀ item ∈ next, router.Searches parts item) :
    router.Panics parts (next ++ items) found ↔ router.FailsFirst parts next ∨
      (∀ item ∈ next, ¬router.Finds parts item.1 item.2) ∧
        router.Panics parts items found := by
  induction next with
  | nil =>
      have none : ¬router.FailsFirst parts [] := by
        rintro ⟨before, item, after, split, _⟩
        cases before <;> cases split
      simp [none]
  | cons item next ih =>
      rw [List.cons_append, searches item List.mem_cons_self,
        ih fun later mem => searches later (List.mem_cons_of_mem _ mem), failsFirst_cons,
        List.forall_mem_cons]
      tauto

theorem searches_of_goesOn (positive : 0 < parts.length)
    (searches : ∀ item ∈ router.goesOn parts place number, router.Searches parts item) :
    router.Searches parts (place, number) := by
  intro items found
  rw [panics_cons positive, fails_iff, finds_iff]
  rcases visit_cases positive place number found with
    ⟨breaks, _⟩ | ⟨unbroken, ⟨ends, _⟩ | ⟨unended, found', goes⟩⟩
  · exact iff_of_true (Or.inl breaks) (Or.inl (Or.inl breaks))
  · simp [unbroken, ends]
  · have onward : (∃ found', router.visit parts place number found =
          .ok (.further (router.goesOn parts place number) found') ∧
        router.Panics parts (router.goesOn parts place number ++ items) found') ↔
        router.Panics parts (router.goesOn parts place number ++ items) found := by
      constructor
      · rintro ⟨_, _, panics⟩
        exact panics_congr positive _ _ panics
      · intro panics
        exact ⟨found', goes, panics_congr positive _ _ panics⟩
    rw [onward, panics_append searches]
    simp only [unbroken, unended, not_false_eq_true, true_and, false_or, not_exists, not_and]

/-- The walk is the search. -/
theorem Planted.searches {tree : ApiTree Rp} (planted : router.Planted tree)
    (positive : 0 < parts.length) (size : Nat) (small : tree.nodes.length ≤ place + size) :
    router.Searches parts (place, number) := by
  induction size generalizing place number with
  | zero =>
      apply searches_of_goesOn positive
      intro item goes
      have bounds := planted.goesOn goes
      omega
  | succ size ih =>
      apply searches_of_goesOn positive
      rintro ⟨child, next⟩ goes
      have bounds := planted.goesOn goes
      exact ih (by omega)

theorem walk_eq_panic_of_le {fuel more : Nat} (le : fuel ≤ more) {items : List (Nat × Nat)}
    (panics : router.walk parts fuel items found = .panic) :
    router.walk parts more items found = .panic := by
  induction fuel generalizing more items found with
  | zero => cases panics
  | succ fuel ih =>
      rcases Nat.exists_eq_add_of_le' le with ⟨rest, rfl⟩
      rw [← Nat.add_assoc]
      cases items with
      | nil => cases panics
      | cons item items =>
          rcases item with ⟨place, number⟩
          rw [walk] at panics ⊢
          cases visited : router.visit parts place number found with
          | err error =>
              rw [visited] at panics
              cases panics
          | panic => rfl
          | ok visit =>
              rw [visited, Outcome.bind_ok] at panics
              rw [Outcome.bind_ok]
              cases visit with
              | target branch found' => cases panics
              | further next found' => exact ih (Nat.le_add_left _ _) panics

theorem Planted.matchVarPath_eq_panic_iff {tree : ApiTree Rp} (planted : router.Planted tree)
    (path : Str) :
    router.matchVarPath path = .panic ↔
      router.Fails (path.splitOn router.pathPartSeparator) 0 0 := by
  let parts := path.splitOn router.pathPartSeparator
  have positive : 0 < parts.length := List.length_pos_iff.mpr (List.splitOn_ne_nil _ _)
  have searches : router.Searches parts (0, 0) :=
    planted.searches positive tree.nodes.length (by omega)
  have walked : router.matchVarPath path = .panic ↔
      router.walk parts router.apisTree.nodes.length [(0, 0)] ⟨[], ∅⟩ = .panic := by
    rw [matchVarPath]
    cases router.walk parts router.apisTree.nodes.length [(0, 0)] ⟨[], ∅⟩ <;> simp
  have enough : router.walk parts router.apisTree.nodes.length [(0, 0)] ⟨[], ∅⟩ = .panic ↔
      router.Panics parts [(0, 0)] ⟨[], ∅⟩ := by
    constructor
    · intro panics
      exact ⟨_, panics⟩
    · rintro ⟨fuel, panics⟩
      rw [← planted.walk_eq (Nat.le_add_left _ fuel)]
      exact walk_eq_panic_of_le (Nat.le_add_right _ _) panics
  rw [walked, enough, searches]
  simp [not_panics_nil]
  rfl

theorem apiMatch_ne_panic (path : Str) (rp : Rp) (apis : List (Api Rp)) :
    apiMatch path rp apis ≠ .panic := by
  rw [apiMatch]
  intro panics
  split at panics
  · cases panics
  · cases panics

theorem lookUp_eq_panic_iff {shown path : Str} {rp : Rp} :
    router.lookUp (apiMatch shown rp) path = .panic ↔
      router.apisMapping[path]? = none ∧ router.matchVarPath path = .panic := by
  have finds (apis : List (Api Rp)) (walked : Option (Str × PathArgs × Str)) :
      (apiMatch shown rp apis >>= fun api => pure (api, walked)) ≠
        (.panic : Outcome DceErr (Api Rp × Option (Str × PathArgs × Str))) := by
    cases found : apiMatch shown rp apis with
    | ok api => simp
    | err error => simp
    | panic => exact absurd found (apiMatch_ne_panic shown rp apis)
  rw [lookUp]
  cases router.apisMapping[path]? with
  | some apis => simpa using finds apis none
  | none =>
      cases router.matchVarPath path with
      | panic => simp
      | err error => simp
      | ok walked =>
          cases walked with
          | none => simp
          | some walked =>
              simp only [Outcome.bind_ok, true_and, reduceCtorEq, iff_false]
              cases router.apisMapping[suffixPath (router.omittedPath walked.1) walked.2.2]? with
              | none => simp
              | some apis => exact finds apis (some walked)

/-- The loop over redirects panics if one of its lookups does. -/
theorem locateFrom_panics_iff {apiFinder : List (Api Rp) → Outcome DceErr (Api Rp)} {fuel : Nat}
    {path : Str} {pathArgs : PathArgs} {suffix : Option Str}
    {result : Outcome DceErr (Location Rp)}
    (located : router.locateFrom apiFinder fuel path pathArgs suffix = some result) :
    result = .panic ↔ ∃ rounds target, router.lookedUp apiFinder rounds path = some target ∧
      router.lookUp apiFinder target = .panic := by
  induction fuel generalizing path pathArgs suffix with
  | zero => cases located
  | succ fuel ih =>
      have first : (∃ rounds target, router.lookedUp apiFinder rounds path = some target ∧
            router.lookUp apiFinder target = .panic) ↔
          router.lookUp apiFinder path = .panic ∨ ∃ redirect,
            router.redirectOf apiFinder path = some redirect ∧
            ∃ rounds target, router.lookedUp apiFinder rounds redirect = some target ∧
              router.lookUp apiFinder target = .panic := by
        constructor
        · rintro ⟨rounds, target, reached, panics⟩
          cases rounds with
          | zero =>
              cases reached
              exact Or.inl panics
          | succ rounds =>
              rcases Option.bind_eq_some_iff.mp reached with ⟨redirect, next, later⟩
              exact Or.inr ⟨redirect, next, rounds, target, later, panics⟩
        · rintro (panics | ⟨redirect, next, rounds, target, later, panics⟩)
          · exact ⟨0, path, rfl, panics⟩
          · exact ⟨rounds + 1, target,
              Option.bind_eq_some_iff.mpr ⟨redirect, next, later⟩, panics⟩
      rw [locateFrom, locateOnce_eq] at located
      rw [first, redirectOf]
      cases looked : router.lookUp apiFinder path with
      | panic =>
          rw [looked] at located
          cases located
          simp
      | err error =>
          rw [looked] at located
          cases located
          simp
      | ok found =>
          rcases found with ⟨api, walked⟩
          rw [looked] at located
          simp only [Outcome.bind_ok, Outcome.pure_eq] at located
          split at located
          · rename_i last
            cases located
            simp [last]
          · rename_i goes
            rw [ih located]
            simp [goes]

theorem Ready.planted (ready : Ready registered router) : ∃ tree, router.Planted tree := by
  rcases ready with ⟨order, partSeparator, boundary, ready⟩
  rcases of_ready ready with ⟨tree, built, rfl⟩
  rcases push_fields registered (new.setSeparator partSeparator boundary) with ⟨buffer, _⟩
  rw [buffer, foldl_push apisTree (fun _ _ => rfl)] at built
  exact planted_of_buildTree built

/-- A request is answered exactly if no path is looked up twice and no search for a path that is no
key fails. -/
theorem locate_returns_iff (ready : Ready registered router) (rp : Rp) (path : Str) :
    let apiFinder := apiMatch path rp
    (∃ fuel result, router.locate apiFinder fuel path = some result ∧ result ≠ .panic) ↔
      router.NeverAgain apiFinder path ∧
        ∀ rounds target, router.lookedUp apiFinder rounds path = some target →
          router.apisMapping[target]? = none →
            ¬router.Fails (target.splitOn router.pathPartSeparator) 0 0 := by
  intro apiFinder
  rcases ready.planted with ⟨tree, planted⟩
  have looks (target : Str) : router.lookUp apiFinder target = .panic ↔
      router.apisMapping[target]? = none ∧
        router.Fails (target.splitOn router.pathPartSeparator) 0 0 := by
    rw [lookUp_eq_panic_iff, planted.matchVarPath_eq_panic_iff]
  constructor
  · rintro ⟨fuel, result, located, returns⟩
    refine ⟨neverAgain_of_locate located, ?_⟩
    intro rounds target reached missing fails
    apply returns
    rw [locateFrom_panics_iff located]
    exact ⟨rounds, target, reached, (looks target).mpr ⟨missing, fails⟩⟩
  · rintro ⟨never, unfailing⟩
    rcases ready.locate_of_never never with ⟨result, located⟩
    refine ⟨_, result, located, ?_⟩
    intro panics
    rcases (locateFrom_panics_iff located).mp panics with ⟨rounds, target, reached, fails⟩
    rcases (looks target).mp fails with ⟨missing, fails⟩
    exact unfailing rounds target reached missing fails

/-- A variable in the middle of a path. -/
theorem locate_returns_iff_var6 :
    ∃ router : Router Unit,
      Ready [Api.new none "var6/var6/{var6}/var6".toList [] false []] router ∧
      ∀ path, let apiFinder := apiMatch path ()
        (∃ fuel result, router.locate apiFinder fuel path = some result ∧ result ≠ .panic) ↔
          router.NeverAgain apiFinder path ∧
            ∀ rounds target, router.lookedUp apiFinder rounds path = some target →
              router.apisMapping[target]? = none →
                ¬router.Fails (target.splitOn router.pathPartSeparator) 0 0 := by
  let registered : List (Api Unit) := [Api.new none "var6/var6/{var6}/var6".toList [] false []]
  have returns : ((registered.foldl push Router.new).ready .pushed).isOk = true := by decide
  rcases Outcome.isOk_iff.mp returns with ⟨router, closed⟩
  have ready : Ready registered router :=
    ⟨.pushed, Routing.pathPartSeparator, Routing.suffixBoundary, closed⟩
  exact ⟨router, ready, fun path => locate_returns_iff ready () path⟩

/-- A request that stops in front of that variable panics. -/
theorem not_locate_returns : ¬ ∀ (registered : List (Api Unit)) (router : Router Unit),
    Ready registered router → ∀ path fuel,
      router.locate (apiMatch path ()) fuel path ≠ some .panic := by
  intro returns
  let registered : List (Api Unit) := [Api.new none "var6/var6/{var6}/var6".toList [] false []]
  let built := (registered.foldl push Router.new).ready .pushed
  let path := "var6/var6".toList
  have breaks : (built >>= fun router =>
      if (router.locateOnce (apiMatch path ()) path ∅ none).Returns then .panic
      else .ok ()).isOk = true := by decide
  rcases Outcome.isOk_iff.mp breaks with ⟨_, whole⟩
  rcases Outcome.bind_eq_ok.mp whole with ⟨router, closed, once⟩
  have ready : Ready registered router :=
    ⟨.pushed, Routing.pathPartSeparator, Routing.suffixBoundary, closed⟩
  have panics : router.locateOnce (apiMatch path ()) path ∅ none = .panic := by
    by_contra other
    rw [if_pos (show Outcome.Returns _ from other)] at once
    cases once
  apply returns registered router ready path 1
  rw [locate, locateFrom, panics]

end Dce.Routing.Router
