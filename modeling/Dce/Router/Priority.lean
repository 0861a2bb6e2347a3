import Dce.Router.Panics

/-!
# Which branch a walk ends at

A static child goes before the variables, the variables that end the path before
those in the middle of one, and what was registered first before the rest. A walk
returns the first end in this order, if the search does not fail before.
-/

namespace Dce.Routing.Router

variable {Rp : Type} (router : Router Rp) (parts : List Str)

/-- A visit of this branch ends the walk there, or at the first variable below that can end it. -/
inductive EndsTo (place number : Nat) : Nat → Prop where
  | complete {branch : ApiBranch Rp} (held : router.branch? place = some branch)
      (overflowed : parts.length ≤ number) (filled : branch.apis ≠ []) :
      EndsTo place number place
  | var {branch : ApiBranch Rp} {ending : Nat} {before after : List Nat}
      (held : router.branch? place = some branch)
      (bare : parts.length ≤ number → branch.apis = [])
      (unmatched : ∀ part, parts[number]? = some part →
        router.findConsiderSuffix part (number == parts.length - 1) place = .ok none)
      (below : branch.varChildren = before ++ ending :: after)
      (passed : ∀ earlier ∈ before, ¬router.EndsAt parts number earlier)
      (ends : router.EndsAt parts number ending) : EndsTo place number ending

/-- The first end that the search from a branch on comes to. -/
inductive FirstEnd : Nat → Nat → Nat → Prop where
  | here {place number ending : Nat} (ends : router.EndsTo parts place number ending) :
      FirstEnd place number ending
  | down {place number child next ending : Nat} {before after : List (Nat × Nat)}
      (goes : router.goesOn parts place number = before ++ (child, next) :: after)
      (unended : ¬router.EndsHere parts place number)
      (unfound : ∀ earlier ∈ before, ¬router.Finds parts earlier.1 earlier.2)
      (first : FirstEnd child next ending) : FirstEnd place number ending

/-- The first end that the search from some branches on comes to, one after the other. -/
def FirstOf (items : List (Nat × Nat)) (ending : Nat) : Prop :=
  ∃ before item after, items = before ++ item :: after ∧
    (∀ earlier ∈ before, ¬router.Finds parts earlier.1 earlier.2) ∧
      router.FirstEnd parts item.1 item.2 ending

variable {router parts} {place number ending ending' : Nat} {found found' : Found}
  {items next : List (Nat × Nat)} {registered : List (Api Rp)}

/-- Two elements of a list, each of which is the first of its kind, are the same. -/
theorem first_unique {α : Type} {kind : α → Prop} {before before' after after' : List α}
    {one other : α} (same : before ++ one :: after = before' ++ other :: after')
    (passed : ∀ earlier ∈ before, ¬kind earlier)
    (passed' : ∀ earlier ∈ before', ¬kind earlier)
    (first : kind one) (first' : kind other) : one = other := by
  induction before generalizing before' with
  | nil =>
      cases before' with
      | nil => exact List.head_eq_of_cons_eq same
      | cons early before' =>
          have here : one = early := List.head_eq_of_cons_eq same
          exact absurd first (here ▸ passed' early List.mem_cons_self)
  | cons early before ih =>
      cases before' with
      | nil =>
          have here : early = other := List.head_eq_of_cons_eq same
          exact absurd first' (here ▸ passed early List.mem_cons_self)
      | cons early' before' =>
          apply ih (List.tail_eq_of_cons_eq same)
          · exact fun earlier mem => passed earlier (List.mem_cons_of_mem _ mem)
          · exact fun earlier mem => passed' earlier (List.mem_cons_of_mem _ mem)

theorem EndsTo.endsHere (ends : router.EndsTo parts place number ending) :
    router.EndsHere parts place number := by
  cases ends with
  | complete held overflowed filled => exact .complete held overflowed filled
  | var held bare unmatched below passed ends =>
      exact .var held unmatched (by rw [below]; simp) ends

theorem EndsTo.unique (one : router.EndsTo parts place number ending)
    (other : router.EndsTo parts place number ending') : ending = ending' := by
  cases one with
  | complete held overflowed filled =>
      cases other with
      | complete => rfl
      | var held' bare =>
          cases held.symm.trans held'
          exact absurd (bare overflowed) filled
  | var held bare unmatched below passed ends =>
      cases other with
      | complete held' overflowed filled =>
          cases held.symm.trans held'
          exact absurd (bare overflowed) filled
      | var held' _ _ below' passed' ends' =>
          cases held.symm.trans held'
          exact first_unique (below.symm.trans below') passed passed' ends ends'

theorem FirstEnd.finds (first : router.FirstEnd parts place number ending) :
    router.Finds parts place number := by
  induction first with
  | here ends => exact .here ends.endsHere
  | down goes unended unfound first ih => exact .down (by rw [goes]; simp) ih

theorem FirstEnd.unique (one : router.FirstEnd parts place number ending)
    (other : router.FirstEnd parts place number ending') : ending = ending' := by
  induction one with
  | here ends =>
      cases other with
      | here ends' => exact ends.unique ends'
      | down _ unended => exact absurd ends.endsHere unended
  | down goes unended unfound first ih =>
      cases other with
      | here ends => exact absurd ends.endsHere unended
      | down goes' _ unfound' first' =>
          have same :=
            first_unique (goes.symm.trans goes') unfound unfound' first.finds first'.finds
          cases same
          exact ih first'

/-- The walk ends at the first variable that can end it. -/
theorem first_of_target (positive : 0 < parts.length) {places : List Nat}
    (returns : router.tryVars parts number places items found = .ok (.target ending found')) :
    ∃ before after, places = before ++ ending :: after ∧
      (∀ earlier ∈ before, ¬router.EndsAt parts number earlier) ∧
        router.EndsAt parts number ending := by
  induction places generalizing items found with
  | nil =>
      rw [tryVars] at returns
      cases returns
  | cons place places ih =>
      cases first_of_tryVars positive place places items found with
      | stuck stuck panics => cases panics.symm.trans returns
      | ends ends unstuck found'' returns' =>
          cases returns'.symm.trans returns
          exact ⟨[], places, rfl, by simp, ends⟩
      | passed found'' unended unstuck same =>
          rcases ih (same.symm.trans returns) with ⟨before, after, split, passed, ends⟩
          refine ⟨place :: before, after, by rw [split]; rfl, ?_, ends⟩
          intro earlier mem
          rcases List.mem_cons.mp mem with rfl | within
          · exact unended
          · exact passed earlier within

theorem endsTo_of_visit (positive : 0 < parts.length)
    (returns : router.visit parts place number found = .ok (.target ending found')) :
    router.EndsTo parts place number ending := by
  rw [visit] at returns
  split at returns
  · cases returns
  · rename_i branch held
    dsimp only at returns
    split at returns
    · rename_i complete
      cases returns
      simp only [Bool.and_eq_true, decide_eq_true_eq, Bool.not_eq_true',
        List.isEmpty_eq_false_iff] at complete
      exact .complete held complete.1 complete.2
    · rename_i incomplete
      have bare (overflowed : parts.length ≤ number) : branch.apis = [] := by
        simpa [overflowed] using incomplete
      have tried (unmatched : ∀ part, parts[number]? = some part →
          router.findConsiderSuffix part (number == parts.length - 1) place = .ok none)
          (returns : router.tryVars parts number branch.varChildren [] found =
            .ok (.target ending found')) : router.EndsTo parts place number ending := by
        rcases first_of_target positive returns with ⟨before, after, split, passed, ends⟩
        exact .var held bare unmatched split passed ends
      split at returns
      · rename_i beyond
        exact tried (by simp [beyond]) returns
      · rename_i part next
        rcases Outcome.bind_eq_ok.mp returns with ⟨matched, searched, rest⟩
        split at rest
        · cases rest
        · refine tried ?_ rest
          intro part' same
          cases next.symm.trans same
          exact searched

theorem firstOf_cons {item : Nat × Nat} : router.FirstOf parts (item :: items) ending ↔
    router.FirstEnd parts item.1 item.2 ending ∨
      ¬router.Finds parts item.1 item.2 ∧ router.FirstOf parts items ending := by
  constructor
  · rintro ⟨before, first, after, split, unfound, ends⟩
    cases before with
    | nil =>
        cases split
        exact Or.inl ends
    | cons early before =>
        cases split
        refine Or.inr ⟨unfound _ List.mem_cons_self, before, first, after, rfl, ?_, ends⟩
        intro earlier mem
        exact unfound earlier (List.mem_cons_of_mem _ mem)
  · rintro (ends | ⟨unfound, before, first, after, split, others, ends⟩)
    · exact ⟨[], item, items, rfl, by simp, ends⟩
    · refine ⟨item :: before, first, after, by rw [split]; rfl, ?_, ends⟩
      intro earlier mem
      rcases List.mem_cons.mp mem with rfl | within
      · exact unfound
      · exact others earlier within

theorem firstOf_append (first : router.FirstOf parts (next ++ items) ending) :
    router.FirstOf parts next ending ∨
      (∀ item ∈ next, ¬router.Finds parts item.1 item.2) ∧
        router.FirstOf parts items ending := by
  induction next with
  | nil => exact Or.inr ⟨by simp, first⟩
  | cons item next ih =>
      rw [List.cons_append, firstOf_cons] at first
      rw [firstOf_cons]
      rcases first with ends | ⟨unfound, rest⟩
      · exact Or.inl (Or.inl ends)
      · rcases ih rest with within | ⟨none, later⟩
        · exact Or.inl (Or.inr ⟨unfound, within⟩)
        · exact Or.inr ⟨List.forall_mem_cons.mpr ⟨unfound, none⟩, later⟩

/-- A walk returns the first end. -/
theorem firstOf_of_walk (positive : 0 < parts.length) {fuel : Nat}
    (walked : router.walk parts fuel items found = .ok (some (ending, found'))) :
    router.FirstOf parts items ending := by
  induction fuel generalizing items found with
  | zero => cases walked
  | succ fuel ih =>
      cases items with
      | nil => cases walked
      | cons item items =>
          rcases item with ⟨place, number⟩
          rw [walk] at walked
          rw [firstOf_cons]
          rcases visit_cases positive place number found with
            ⟨_, panics⟩ | ⟨_, ⟨ends, stop, found'', returns⟩ |
              ⟨unended, found'', goes⟩⟩
          · rw [panics] at walked
            cases walked
          · rw [returns] at walked
            cases walked
            exact Or.inl (.here (endsTo_of_visit positive returns))
          · rw [goes] at walked
            rcases firstOf_append (ih walked) with
              ⟨before, item, after, split, unfound, first⟩ | ⟨none, later⟩
            · exact Or.inl (.down split unended unfound first)
            · refine Or.inr ⟨?_, later⟩
              rw [finds_iff]
              rintro (ends | ⟨item, goes', finds⟩)
              · exact unended ends
              · exact none item goes' finds

/-- A walk that comes to its end without a result finds nothing. -/
theorem not_finds_of_walk (positive : 0 < parts.length) {fuel : Nat}
    (walked : router.walk parts fuel items found = .ok none)
    (ended : ∀ items' found', router.walkedTo parts fuel items found = some (items', found') →
      items' = []) :
    ∀ item ∈ items, ¬router.Finds parts item.1 item.2 := by
  induction fuel generalizing items found with
  | zero =>
      rw [ended items found rfl]
      simp
  | succ fuel ih =>
      cases items with
      | nil => simp
      | cons item items =>
          rcases item with ⟨place, number⟩
          rw [walk] at walked
          rcases visit_cases positive place number found with
            ⟨_, panics⟩ | ⟨_, ⟨ends, stop, found'', returns⟩ |
              ⟨unended, found'', goes⟩⟩
          · rw [panics] at walked
            cases walked
          · rw [returns] at walked
            cases walked
          · rw [goes] at walked
            have nothing := ih walked (by
              intro items' found''' walked'
              apply ended items' found'''
              rw [walkedTo, goes]
              exact walked')
            refine List.forall_mem_cons.mpr ⟨?_, ?_⟩
            · rw [finds_iff]
              rintro (ends | ⟨item, goes', finds⟩)
              · exact unended ends
              · exact nothing item (List.mem_append_left _ goes') finds
            · exact fun item mem => nothing item (List.mem_append_right _ mem)

theorem walk_ne_err (positive : 0 < parts.length) (fuel : Nat) (error : DceErr) :
    router.walk parts fuel items found ≠ .err error := by
  induction fuel generalizing items found with
  | zero =>
      intro fails
      cases fails
  | succ fuel ih =>
      cases items with
      | nil =>
          intro fails
          cases fails
      | cons item items =>
          rcases item with ⟨place, number⟩
          rw [walk]
          rcases visit_cases positive place number found with
            ⟨_, panics⟩ | ⟨_, ⟨_, stop, found', returns⟩ | ⟨_, found', goes⟩⟩
          · rw [panics]
            intro fails
            cases fails
          · rw [returns]
            intro fails
            cases fails
          · rw [goes]
            exact ih

theorem FirstEnd.held (first : router.FirstEnd parts place number ending) :
    ∃ branch, router.branch? ending = some branch := by
  induction first with
  | here ends =>
      cases ends with
      | complete held => exact ⟨_, held⟩
      | var _ _ _ _ _ ends =>
          rcases ends with ⟨branch, held, _⟩
          exact ⟨branch, held⟩
  | down _ _ _ _ ih => exact ih

/-- A path leads to the branch that is the first end of the search for it, unless the search fails,
and nowhere if the search finds no end. -/
theorem matchVarPath_returns_iff (ready : Ready registered router) (path : Str) :
    let parts := path.splitOn router.pathPartSeparator
    (∀ key, (∃ args suffix, router.matchVarPath path = .ok (some (key, args, suffix))) ↔
      ¬router.Fails parts 0 0 ∧ ∃ ending branch, router.FirstEnd parts 0 0 ending ∧
        router.branch? ending = some branch ∧ branch.path = key) ∧
    (router.matchVarPath path = .ok none ↔
      ¬router.Fails parts 0 0 ∧ ¬router.Finds parts 0 0) := by
  intro parts
  have positive : 0 < parts.length := List.length_pos_iff.mpr (List.splitOn_ne_nil _ _)
  rcases ready.planted with ⟨tree, planted⟩
  rw [← planted.matchVarPath_eq_panic_iff]
  have walks : router.matchVarPath path =
      (router.walk parts router.apisTree.nodes.length [(0, 0)] ⟨[], ∅⟩ >>= fun target =>
        pure (target.bind fun target => (router.branch? target.1).map fun branch =>
          (branch.path, target.2.args, target.2.suffix))) := rfl
  rw [walks]
  cases walked : router.walk parts router.apisTree.nodes.length [(0, 0)] ⟨[], ∅⟩ with
  | panic => simp
  | err error => exact absurd walked (walk_ne_err positive _ _)
  | ok target =>
      cases target with
      | none =>
          have nothing : ¬router.Finds parts 0 0 :=
            not_finds_of_walk positive walked (fun items found walked =>
              (planted.bounded walked).2 rfl) (0, 0) List.mem_cons_self
          have nowhere (ending : Nat) : ¬router.FirstEnd parts 0 0 ending :=
            fun first => nothing first.finds
          simp [nothing, nowhere]
      | some target =>
          rcases target with ⟨ending, found⟩
          have first : router.FirstEnd parts 0 0 ending := by
            rcases firstOf_cons.mp (firstOf_of_walk positive walked) with
              first | ⟨_, before, item, after, split, _⟩
            · exact first
            · cases before <;> cases split
          rcases first.held with ⟨branch, held⟩
          have only (ending' : Nat) : router.FirstEnd parts 0 0 ending' ↔ ending' = ending :=
            ⟨fun first' => first'.unique first, fun same => same ▸ first⟩
          simp [held, first.finds, only]

/-- A path that a variable matches as well as a static child, which has no api below. -/
theorem matchVarPath_returns_iff_apple :
    let registered : List (Api Unit) := [Api.new none "fruit/{name}".toList [] false [],
      Api.new none "fruit/apple/price".toList [] false []]
    let path := "fruit/apple".toList
    ∃ router : Router Unit, Ready registered router ∧
      let parts := path.splitOn router.pathPartSeparator
      (∀ key, (∃ args suffix, router.matchVarPath path = .ok (some (key, args, suffix))) ↔
        ¬router.Fails parts 0 0 ∧ ∃ ending branch, router.FirstEnd parts 0 0 ending ∧
          router.branch? ending = some branch ∧ branch.path = key) ∧
      (router.matchVarPath path = .ok none ↔
        ¬router.Fails parts 0 0 ∧ ¬router.Finds parts 0 0) := by
  intro registered path
  have returns : ((registered.foldl push Router.new).ready .pushed).isOk = true := by decide
  rcases Outcome.isOk_iff.mp returns with ⟨router, closed⟩
  have ready : Ready registered router :=
    ⟨.pushed, Routing.pathPartSeparator, Routing.suffixBoundary, closed⟩
  exact ⟨router, ready, matchVarPath_returns_iff ready path⟩

end Dce.Routing.Router
