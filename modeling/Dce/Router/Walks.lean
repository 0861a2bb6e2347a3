import Dce.Router.Entries

/-!
# Steps of a walk

What a walk does at a branch, once for all that is proved about it: it ends, goes
on to one static child, or tries the variables below the branch.
-/

namespace Dce.Routing

open Text

/-- What is carried on after a visit. -/
def Visit.carried : Visit → Found
  | .target _ carried => carried
  | .further _ carried => carried

namespace Router

variable {Rp : Type} {router : Router Rp} {parts : List Str} {place number : Nat} {found : Found}

/-- The cases of a visit. -/
inductive Visited (router : Router Rp) (parts : List Str) (place number : Nat) (found : Found) :
    Visit → Prop where
  | lost (absent : router.branch? place = none) :
      Visited router parts place number found (.further [] found)
  | complete {branch : ApiBranch Rp} (held : router.branch? place = some branch)
      (overflowed : parts.length ≤ number) (filled : branch.apis ≠ []) :
      Visited router parts place number found (.target place found)
  | static {branch : ApiBranch Rp} {part suffix : Str} {child : Nat}
      (held : router.branch? place = some branch) (next : parts[number]? = some part)
      (matched : router.findConsiderSuffix part (number == parts.length - 1) place =
        .ok (some (child, suffix))) :
      Visited router parts place number found
        (.further [(child, number + 1)] { found with suffix })
  | vars {branch : ApiBranch Rp} {visit : Visit} (held : router.branch? place = some branch)
      (unfinished : parts.length ≤ number → branch.apis = [])
      (unmatched : ∀ part, parts[number]? = some part →
        router.findConsiderSuffix part (number == parts.length - 1) place = .ok none)
      (tried : router.tryVars parts number branch.varChildren [] found = .ok visit) :
      Visited router parts place number found visit

theorem visited_of_visit {visit : Visit}
    (ended : router.visit parts place number found = .ok visit) :
    Visited router parts place number found visit := by
  rw [Router.visit] at ended
  cases held : router.branch? place with
  | none =>
      rw [held] at ended
      cases ended
      exact .lost held
  | some branch =>
      rw [held] at ended
      dsimp only at ended
      split at ended
      · rename_i complete
        cases ended
        simp only [Bool.and_eq_true, decide_eq_true_eq, Bool.not_eq_true',
          List.isEmpty_eq_false_iff] at complete
        exact .complete held complete.1 complete.2
      · rename_i within
        have unfinished : parts.length ≤ number → branch.apis = [] := by
          intro overflowed
          simpa [overflowed] using within
        cases next : parts[number]? with
        | none =>
            rw [next, Outcome.bind_ok] at ended
            exact .vars held unfinished (by simp [next]) ended
        | some part =>
            rw [next] at ended
            rcases Outcome.bind_eq_ok.mp ended with ⟨matched, searched, rest⟩
            cases matched with
            | none =>
                refine .vars held unfinished ?_ rest
                intro part' same
                cases next.symm.trans same
                exact searched
            | some match' =>
                rcases match' with ⟨child, suffix⟩
                cases rest
                exact .static held next searched

/-- What holds at each visit of a walk holds where it ends. -/
theorem of_walk (Going : List (Nat × Nat) → Found → Prop) (Ended : Nat → Found → Prop)
    (goes : ∀ place number items found next found', Going ((place, number) :: items) found →
      Visited router parts place number found (.further next found') →
      Going (next ++ items) found')
    (ends : ∀ place number items found branch found', Going ((place, number) :: items) found →
      Visited router parts place number found (.target branch found') → Ended branch found')
    {fuel : Nat} {items : List (Nat × Nat)} {branch : Nat} {found' : Found}
    (going : Going items found)
    (walked : router.walk parts fuel items found = .ok (some (branch, found'))) :
    Ended branch found' := by
  induction fuel generalizing items found with
  | zero => cases walked
  | succ fuel ih =>
      cases items with
      | nil => cases walked
      | cons item items =>
          rcases item with ⟨place, number⟩
          rw [walk] at walked
          rcases Outcome.bind_eq_ok.mp walked with ⟨visit, visited, rest⟩
          have step := visited_of_visit visited
          cases visit with
          | target target found'' =>
              cases rest
              exact ends _ _ _ _ _ _ going step
          | further next found'' => exact ih (goes _ _ _ _ _ _ going step) rest

/-- A variable is bound with the suffix that was cut off before or is cut off now. -/
theorem suffix_of_bindVar {varType : VarType} {found' : Found}
    (bound : router.bindVar parts number place varType found = .ok (some found')) :
    found'.suffix = found.suffix ∨
      ∃ parts', router.extractSuffix place parts found.suffix = .ok (parts', found'.suffix) := by
  have extract (next : List Str × Str → Found) (keeps : ∀ cut, (next cut).suffix = cut.2)
      (bound : (router.extractSuffix place parts found.suffix >>= fun cut =>
        pure (some (next cut))) = .ok (some found')) :
      found'.suffix = found.suffix ∨
        ∃ parts', router.extractSuffix place parts found.suffix =
          .ok (parts', found'.suffix) := by
    rcases Outcome.bind_eq_ok.mp bound with ⟨cut, extracted, same⟩
    cases same
    rw [keeps]
    exact Or.inr ⟨cut.1, extracted⟩
  cases varType with
  | optional name =>
      simp only [bindVar] at bound
      split at bound
      · cases bound
        exact Or.inl rfl
      · split at bound
        · exact extract _ (fun _ => rfl) bound
        · cases bound
  | required name =>
      simp only [bindVar] at bound
      split at bound
      · exact extract _ (fun _ => rfl) bound
      · cases bound
  | emptableVector name =>
      simp only [bindVar] at bound
      split at bound
      · cases bound
        exact Or.inl rfl
      · exact extract _ (fun _ => rfl) bound
  | vector name =>
      simp only [bindVar] at bound
      split at bound
      · cases bound
      · exact extract _ (fun _ => rfl) bound
  | notVar => cases bound

/-- What holds of each suffix that is cut off, and of the empty one. -/
structure OfCuts (router : Router Rp) (parts : List Str) (Holds : Str → Prop) : Prop where
  empty : Holds []
  static : ∀ {number place child : Nat} {part suffix : Str}, parts[number]? = some part →
    router.findConsiderSuffix part (number == parts.length - 1) place =
      .ok (some (child, suffix)) → Holds suffix
  extracted : ∀ {place : Nat} {parts' : List Str} {before suffix : Str}, Holds before →
    router.extractSuffix place parts before = .ok (parts', suffix) → Holds suffix

namespace OfCuts

variable {Holds : Str → Prop}

theorem tryVars (ofCuts : OfCuts router parts Holds) {places : List Nat}
    {items : List (Nat × Nat)} {visit : Visit} (before : Holds found.suffix)
    (tried : router.tryVars parts number places items found = .ok visit) :
    Holds visit.carried.suffix := by
  induction places generalizing items found with
  | nil =>
      cases tried
      exact before
  | cons place places ih =>
      rw [Router.tryVars] at tried
      cases held : router.branch? place with
      | none =>
          rw [held] at tried
          exact ih before tried
      | some branch =>
          rw [held] at tried
          dsimp only at tried
          split at tried
          · split at tried
            · split at tried
              · refine ih ?_ tried
                exact before
              · cases tried
            · exact ih before tried
          · rcases Outcome.bind_eq_ok.mp tried with ⟨bound, bind, rest⟩
            cases bound with
            | none => exact ih before rest
            | some found' =>
                cases rest
                rcases suffix_of_bindVar bind with same | ⟨parts', extracted⟩
                · rw [Visit.carried, same]
                  exact before
                · exact ofCuts.extracted before extracted

theorem visited (ofCuts : OfCuts router parts Holds) {visit : Visit}
    (visited : Visited router parts place number found visit)
    (before : Holds found.suffix) : Holds visit.carried.suffix := by
  cases visited with
  | lost absent => exact before
  | complete held overflowed filled => exact before
  | static held next matched => exact ofCuts.static next matched
  | vars held unfinished unmatched tried => exact ofCuts.tryVars before tried

theorem matchVarPath {path branch suffix : Str} {args : PathArgs}
    (ofCuts : OfCuts router (path.splitOn router.pathPartSeparator) Holds)
    (walked : router.matchVarPath path = .ok (some (branch, args, suffix))) : Holds suffix := by
  rw [Router.matchVarPath] at walked
  rcases Outcome.bind_eq_ok.mp walked with ⟨target, ended, rest⟩
  cases target with
  | none => cases rest
  | some target =>
      rcases target with ⟨place, found⟩
      rcases Option.map_eq_some_iff.mp (Outcome.ok.inj rest) with ⟨branch', _, same⟩
      cases same
      let Cuts (found : Found) : Prop := Holds found.suffix
      refine of_walk (fun _ => Cuts) (fun _ => Cuts) ?_ ?_ ofCuts.empty ended
      · intro place number items found next found' before visited
        exact ofCuts.visited visited before
      · intro place number items found branch found' before visited
        exact ofCuts.visited visited before

end OfCuts

end Router

end Dce.Routing
