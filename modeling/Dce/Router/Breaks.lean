import Dce.Router.Walks

/-!
# Where a walk breaks

A visit panics where it binds a variable in the middle of a path although all
parts of the request are used up, and where it cuts off a suffix behind a
boundary of more than one byte. Else it ends the walk or goes on to branches
below, which do not depend on what the walk has found so far.
-/

namespace Dce.Routing.Router

open Text

variable {Rp : Type} (router : Router Rp) (parts : List Str)

/-- A walk that comes to a variable of this type can end there. -/
def canEnd (parts : List Str) (number : Nat) : VarType → Bool
  | .optional _ => decide (parts.length ≤ number) || number == parts.length - 1
  | .required _ => number == parts.length - 1
  | .emptableVector _ => true
  | .vector _ => !decide (parts.length ≤ number)
  | .notVar => false

/-- A walk that comes to this branch as to a variable ends there. -/
def EndsAt (number place : Nat) : Prop :=
  ∃ branch, router.branch? place = some branch ∧ branch.isMidVar = false ∧
    canEnd parts number branch.varType = true

/-- The last part ends in a suffix of a branch. -/
def HasSuffix (place : Nat) : Prop :=
  ∃ last, parts.getLast? = some last ∧
    ∃ suffix ∈ router.suffixesOf place, router.suffixBoundary :: suffix.text <:+ last

/-- A variable that cannot be bound: one in the middle of a path, without a part for it, or one at
the end with a suffix to be cut off inside of the boundary. -/
inductive Stuck (number place : Nat) : Prop where
  | middle {branch : ApiBranch Rp} {name : Str} (held : router.branch? place = some branch)
      (middle : branch.isMidVar = true) (required : branch.varType = .required name)
      (consumed : parts.length ≤ number) : Stuck number place
  | cut (ends : router.EndsAt parts number place) (left : number < parts.length)
      (wide : router.suffixBoundary.utf8Size ≠ 1) (suffixed : router.HasSuffix parts place) :
      Stuck number place

/-- One of these variables is stuck, and the walk ends at none before it. -/
def StuckFirst (number : Nat) (places : List Nat) : Prop :=
  ∃ before stuck after, places = before ++ stuck :: after ∧
    (∀ earlier ∈ before, ¬router.EndsAt parts number earlier) ∧
      router.Stuck parts number stuck

/-- A branch at which a walk panics: a variable below it is stuck, or the suffix of a static child
is cut off inside of the boundary. -/
inductive Breaks (place number : Nat) : Prop where
  | vars {branch : ApiBranch Rp} (held : router.branch? place = some branch)
      (bare : parts.length ≤ number → branch.apis = [])
      (unmatched : ∀ part, parts[number]? = some part →
        router.findConsiderSuffix part (number == parts.length - 1) place = .ok none)
      (stuck : router.StuckFirst parts number branch.varChildren) : Breaks place number
  | static {part front : Str} {child : Nat} (held : (router.branch? place).isSome)
      (last : parts[number]? = some part) (final : number = parts.length - 1)
      (unmatched : router.child? place part = none)
      (longest : (cuts router.suffixBoundary part).find?
        (fun front => (router.child? place front).isSome) = some front)
      (below : router.child? place front = some child)
      (suffixed : router.suffixesOf child ≠ [])
      (wide : router.suffixBoundary.utf8Size ≠ 1) : Breaks place number

/-- The walk ends at this branch, or at a variable right below it. -/
inductive EndsHere (place number : Nat) : Prop where
  | complete {branch : ApiBranch Rp} (held : router.branch? place = some branch)
      (overflowed : parts.length ≤ number) (filled : branch.apis ≠ []) : EndsHere place number
  | var {branch : ApiBranch Rp} {ending : Nat} (held : router.branch? place = some branch)
      (unmatched : ∀ part, parts[number]? = some part →
        router.findConsiderSuffix part (number == parts.length - 1) place = .ok none)
      (below : ending ∈ branch.varChildren) (ends : router.EndsAt parts number ending) :
      EndsHere place number

def isMiddle (place : Nat) : Bool :=
  (router.branch? place).any fun branch =>
    branch.isMidVar && match branch.varType with
      | .required _ => true
      | _ => false

/-- The static child that the next part leads to. -/
def staticChild (place number : Nat) : Option Nat :=
  (parts[number]?).bind fun part =>
    match router.findConsiderSuffix part (number == parts.length - 1) place with
    | .ok matched => matched.map Prod.fst
    | _ => none

/-- The branches that are searched below this one, one after the other: the static child, or else
the variables in the middle of paths. -/
def goesOn (place number : Nat) : List (Nat × Nat) :=
  match router.branch? place, router.staticChild parts place number with
  | none, _ => []
  | some _, some child => [(child, number + 1)]
  | some branch, none =>
      (branch.varChildren.filter router.isMiddle).map fun child => (child, number + 1)

variable {router parts} {place number : Nat} {found : Found}

theorem findCut_eq_panic_iff {part : Str} {fronts : List Str}
    (before : ∀ front ∈ fronts, ∃ rest, part = front ++ router.suffixBoundary :: rest) :
    router.findCut place part fronts = .panic ↔
      router.suffixBoundary.utf8Size ≠ 1 ∧
        ∃ front child,
          fronts.find? (fun front => (router.child? place front).isSome) = some front ∧
          router.child? place front = some child ∧ router.suffixesOf child ≠ [] := by
  induction fronts with
  | nil => simp [findCut]
  | cons front fronts ih =>
      rw [findCut]
      cases there : router.child? place front with
      | none =>
          rw [ih fun front mem => before front (List.mem_cons_of_mem _ mem),
            List.find?_cons_of_neg (by simp [there])]
      | some child =>
          rw [List.find?_cons_of_pos (by simp [there])]
          rcases before front List.mem_cons_self with ⟨rest, rfl⟩
          dsimp only
          split
          · rename_i none
            constructor
            · intro panics
              cases panics
            · rintro ⟨_, _, child', same, below, filled⟩
              cases same
              rw [there] at below
              cases below
              exact absurd none filled
          · rename_i filled
            by_cases oneByte : router.suffixBoundary.utf8Size = 1
            · rw [sliceFrom_cut oneByte]
              simp [Outcome.ofSlice, oneByte]
            · rw [sliceFrom_cut_wide oneByte]
              simp only [Outcome.ofSlice, Outcome.bind_panic, true_iff]
              exact ⟨oneByte, front, child, rfl, there, filled⟩

theorem extractSuffix_eq_panic_iff (suffix : Str) :
    router.extractSuffix place parts suffix = .panic ↔
      router.suffixBoundary.utf8Size ≠ 1 ∧ router.HasSuffix parts place := by
  rw [extractSuffix, HasSuffix]
  cases last : parts.getLast? with
  | none => simp
  | some part =>
      have listed (suffix : Suffix) :
          suffix ∈ (Std.ExtTreeSet.ofList (router.suffixesOf place)).toList ↔
            suffix ∈ router.suffixesOf place := by
        simp [Std.ExtTreeSet.mem_toList, Std.ExtTreeSet.mem_ofList]
      dsimp only
      split
      · rename_i unfound
        constructor
        · intro panics
          cases panics
        · rintro ⟨_, _, same, own, mem, ends⟩
          cases same
          have unended := List.find?_eq_none.mp unfound own ((listed own).mpr mem)
          exact absurd (List.isSuffixOf_iff_suffix.mpr ends) unended
      · rename_i own first
        have ends := List.find?_some first
        rw [List.isSuffixOf_iff_suffix] at ends
        have mem := (listed own).mp (List.mem_of_find?_eq_some first)
        rcases ends with ⟨front, rfl⟩
        by_cases oneByte : router.suffixBoundary.utf8Size = 1
        · rw [slice_before oneByte]
          simp [Outcome.ofSlice, oneByte]
        · rw [slice_before_wide oneByte]
          simp only [Outcome.ofSlice, Outcome.bind_panic, true_iff]
          exact ⟨oneByte, _, rfl, own, mem, List.suffix_append _ _⟩

theorem extractSuffix_ne_err {suffix : Str} (error : DceErr) :
    router.extractSuffix place parts suffix ≠ .err error := by
  rw [extractSuffix]
  cases parts.getLast? with
  | none =>
      intro fails
      cases fails
  | some last =>
      dsimp only
      split
      · intro fails
        cases fails
      · rename_i own first
        cases slice last 0 (len last - len own.text - 1) with
        | none =>
            intro fails
            cases fails
        | some kept =>
            intro fails
            cases fails

/-- How binding a variable ends: a variable that the walk cannot end at is passed, one without a
part gets the empty value, and any other one gets what a suffix is cut off from. -/
inductive Bound (router : Router Rp) (parts : List Str) (number place : Nat) (found : Found)
    (varType : VarType) : Outcome DceErr (Option Found) → Prop where
  | passed (cannot : canEnd parts number varType = false) :
      Bound router parts number place found varType (.ok none)
  | absent (ends : canEnd parts number varType = true) (consumed : parts.length ≤ number)
      (args : PathArgs) : Bound router parts number place found varType
        (.ok (some { found with args }))
  | present (ends : canEnd parts number varType = true) (left : number < parts.length)
      (next : List Str × Str → Found) : Bound router parts number place found varType
        (router.extractSuffix place parts found.suffix >>= fun cut => pure (some (next cut)))

theorem bound_bindVar (positive : 0 < parts.length) (varType : VarType) :
    Bound router parts number place found varType
      (router.bindVar parts number place varType found) := by
  by_cases consumed : parts.length ≤ number
  · have beyond : number ≠ parts.length - 1 := by omega
    cases varType with
    | optional name =>
        simp only [bindVar, consumed, decide_true, if_true]
        exact .absent (by simp [canEnd, consumed]) consumed _
    | required name =>
        simp only [bindVar, beq_iff_eq, beyond, if_false]
        exact .passed (by simp [canEnd, beyond])
    | emptableVector name =>
        simp only [bindVar, consumed, decide_true, if_true]
        exact .absent rfl consumed _
    | vector name =>
        simp only [bindVar, consumed, decide_true, if_true]
        exact .passed (by simp [canEnd, consumed])
    | notVar => exact .passed rfl
  · have left : number < parts.length := by omega
    cases varType with
    | optional name =>
        cases last : number == parts.length - 1 with
        | true =>
            have ends : canEnd parts number (.optional name) = true := by simp [canEnd, last]
            simp only [bindVar, consumed, decide_false, last]
            exact .present ends left _
        | false =>
            simp only [bindVar, consumed, decide_false, last]
            exact .passed (by simp [canEnd, last, consumed])
    | required name =>
        cases last : number == parts.length - 1 with
        | true =>
            have ends : canEnd parts number (.required name) = true := last
            simp only [bindVar, last]
            exact .present ends left _
        | false =>
            simp only [bindVar, last]
            exact .passed last
    | emptableVector name =>
        simp only [bindVar, consumed, decide_false]
        exact .present rfl left _
    | vector name =>
        simp only [bindVar, consumed, decide_false]
        exact .present (by simp [canEnd, consumed]) left _
    | notVar => exact .passed rfl

/-- What becomes of the first variable: it is passed, it is stuck, or the walk ends at it. -/
inductive First (router : Router Rp) (parts : List Str) (number place : Nat) (places : List Nat)
    (items : List (Nat × Nat)) (found : Found) : Prop where
  | passed (found' : Found)
      (unended : ¬router.EndsAt parts number place) (unstuck : ¬router.Stuck parts number place)
      (same : router.tryVars parts number (place :: places) items found =
        router.tryVars parts number places
          (items ++ if router.isMiddle place then [(place, number + 1)] else []) found')
  | stuck (stuck : router.Stuck parts number place)
      (panics : router.tryVars parts number (place :: places) items found = .panic)
  | ends (ends : router.EndsAt parts number place) (unstuck : ¬router.Stuck parts number place)
      (found' : Found)
      (returns : router.tryVars parts number (place :: places) items found =
        .ok (.target place found'))

theorem unstuck_of_unended (unended : ¬router.EndsAt parts number place)
    (bound : ∀ branch name, router.branch? place = some branch → branch.isMidVar = true →
      branch.varType = .required name → number < parts.length) :
    ¬router.Stuck parts number place := by
  intro stuck
  cases stuck with
  | middle held middle required consumed =>
      have left := bound _ _ held middle required
      omega
  | cut ends left wide suffixed => exact unended ends

theorem first_of_tryVars (positive : 0 < parts.length) (place : Nat) (places : List Nat)
    (items : List (Nat × Nat)) (found : Found) :
    First router parts number place places items found := by
  cases held : router.branch? place with
  | none =>
      have unended : ¬router.EndsAt parts number place := by
        rintro ⟨branch, there, _⟩
        rw [held] at there
        cases there
      refine .passed found unended (unstuck_of_unended unended ?_) ?_
      · intro branch name there
        rw [held] at there
        cases there
      · rw [tryVars, held]
        simp [isMiddle, held]
  | some branch =>
      cases middle : branch.isMidVar with
      | true =>
          have unended : ¬router.EndsAt parts number place := by
            rintro ⟨branch', there, other, _⟩
            cases held.symm.trans there
            rw [middle] at other
            cases other
          by_cases required : ∃ name, branch.varType = .required name
          · rcases required with ⟨name, required⟩
            cases next : parts[number]? with
            | none =>
                refine .stuck (.middle held middle required (List.getElem?_eq_none_iff.mp next)) ?_
                simp only [tryVars, held, middle, if_true, required, next]
            | some part =>
                refine .passed { found with args := found.args.insert name (.required part) }
                  unended
                  (unstuck_of_unended unended ?_) ?_
                · intro _ _ _ _ _
                  exact (List.getElem?_eq_some_iff.mp next).1
                · have here : router.isMiddle place = true := by
                    simp [isMiddle, held, middle, required]
                  simp only [tryVars, held, middle, if_true, required, next, here]
          · have here : router.isMiddle place = false := by
              cases var : branch.varType with
              | required name => exact absurd ⟨name, var⟩ required
              | optional name => simp [isMiddle, held, var]
              | emptableVector name => simp [isMiddle, held, var]
              | vector name => simp [isMiddle, held, var]
              | notVar => simp [isMiddle, held, var]
            refine .passed found unended (unstuck_of_unended unended ?_) ?_
            · intro branch' name there _ other
              cases held.symm.trans there
              exact absurd ⟨name, other⟩ required
            · cases var : branch.varType with
              | required name => exact absurd ⟨name, var⟩ required
              | optional name => simp [tryVars, held, middle, here, var]
              | emptableVector name => simp [tryVars, held, middle, here, var]
              | vector name => simp [tryVars, held, middle, here, var]
              | notVar => simp [tryVars, held, middle, here, var]
      | false =>
          have here : router.isMiddle place = false := by simp [isMiddle, held, middle]
          have bare : ∀ branch' name, router.branch? place = some branch' →
              branch'.isMidVar = true → branch'.varType = .required name →
              number < parts.length := by
            intro branch' name there other
            cases held.symm.trans there
            rw [middle] at other
            cases other
          have unheld (cut : ¬(router.EndsAt parts number place ∧ number < parts.length ∧
              router.suffixBoundary.utf8Size ≠ 1 ∧ router.HasSuffix parts place)) :
              ¬router.Stuck parts number place := by
            intro stuck
            cases stuck with
            | middle there other =>
                cases held.symm.trans there
                rw [middle] at other
                cases other
            | cut ends left wide suffixed => exact cut ⟨ends, left, wide, suffixed⟩
          have skips (bind : router.bindVar parts number place branch.varType found = .ok none) :
              router.tryVars parts number (place :: places) items found =
                router.tryVars parts number places items found := by
            simp [tryVars, held, middle, bind]
          have targets (next : Found)
              (bind : router.bindVar parts number place branch.varType found = .ok (some next)) :
              router.tryVars parts number (place :: places) items found =
                .ok (.target place next) := by
            simp [tryVars, held, middle, bind]
          have panics (bind : router.bindVar parts number place branch.varType found = .panic) :
              router.tryVars parts number (place :: places) items found = .panic := by
            simp [tryVars, held, middle, bind]
          have bound : Bound router parts number place found branch.varType _ :=
            bound_bindVar positive branch.varType
          generalize bind : router.bindVar parts number place branch.varType found = outcome
            at bound
          cases bound with
          | passed cannot =>
              have unended : ¬router.EndsAt parts number place := by
                rintro ⟨branch', there, _, can⟩
                cases held.symm.trans there
                rw [cannot] at can
                cases can
              refine .passed found unended (unstuck_of_unended unended bare) ?_
              rw [skips bind, here]
              simp
          | absent can consumed args =>
              refine .ends ⟨branch, held, middle, can⟩
                (unheld fun both => ?_) _ (targets _ bind)
              omega
          | present can left next =>
              cases extracted : router.extractSuffix place parts found.suffix with
              | panic =>
                  have cut := (extractSuffix_eq_panic_iff found.suffix).mp extracted
                  refine .stuck (.cut ⟨branch, held, middle, can⟩ left cut.1 cut.2) (panics ?_)
                  rw [bind, extracted]
                  rfl
              | err error => exact absurd extracted (extractSuffix_ne_err error)
              | ok cut =>
                  refine .ends ⟨branch, held, middle, can⟩ (unheld fun both => ?_) (next cut)
                    (targets _ ?_)
                  · have panics := (extractSuffix_eq_panic_iff found.suffix).mpr both.2.2
                    rw [extracted] at panics
                    cases panics
                  · rw [bind, extracted]
                    rfl

theorem stuckFirst_cons {places : List Nat} :
    router.StuckFirst parts number (place :: places) ↔ router.Stuck parts number place ∨
      ¬router.EndsAt parts number place ∧ router.StuckFirst parts number places := by
  constructor
  · rintro ⟨before, stuck, after, split, passed, breaks⟩
    cases before with
    | nil =>
        cases split
        exact Or.inl breaks
    | cons first before =>
        cases split
        refine Or.inr ⟨passed _ List.mem_cons_self, before, stuck, after, rfl, ?_, breaks⟩
        intro earlier mem
        exact passed earlier (List.mem_cons_of_mem _ mem)
  · rintro (breaks | ⟨unended, before, stuck, after, split, passed, breaks⟩)
    · exact ⟨[], place, places, rfl, by simp, breaks⟩
    · refine ⟨place :: before, stuck, after, by rw [split]; rfl, ?_, breaks⟩
      intro earlier mem
      rcases List.mem_cons.mp mem with rfl | within
      · exact unended
      · exact passed earlier within

/-- The cases of trying variables: one is stuck first, the walk ends at one first, or the variables
in the middle of paths wait. -/
theorem tryVars_cases (positive : 0 < parts.length) (places : List Nat)
    (items : List (Nat × Nat)) (found : Found) :
    router.StuckFirst parts number places ∧
        router.tryVars parts number places items found = .panic ∨
      ¬router.StuckFirst parts number places ∧
        ((∃ ending ∈ places, router.EndsAt parts number ending) ∧
            (∃ ending found', router.tryVars parts number places items found =
              .ok (.target ending found')) ∨
          (∀ ending ∈ places, ¬router.EndsAt parts number ending) ∧
            ∃ found', router.tryVars parts number places items found = .ok (.further
              (items ++ (places.filter router.isMiddle).map fun child => (child, number + 1))
              found')) := by
  induction places generalizing items found with
  | nil =>
      right
      refine ⟨?_, Or.inr ⟨by simp, found, by simp [tryVars]⟩⟩
      rintro ⟨before, stuck, after, split, _⟩
      cases before <;> cases split
  | cons place places ih =>
      rw [stuckFirst_cons]
      cases first_of_tryVars positive place places items found with
      | stuck stuck panics => exact Or.inl ⟨Or.inl stuck, panics⟩
      | ends ends unstuck found' returns =>
          right
          refine ⟨?_, Or.inl ⟨⟨place, List.mem_cons_self, ends⟩,
              place, found', returns⟩⟩
          rintro (stuck | ⟨unended, _⟩)
          · exact unstuck stuck
          · exact unended ends
      | passed found' unended unstuck same =>
          rw [same]
          simp only [unstuck, unended, not_false_eq_true, true_and, false_or]
          rcases ih (items ++ if router.isMiddle place then [(place, number + 1)] else []) found'
            with panics | ⟨unbroken, ⟨⟨ending, mem, ends⟩, returns⟩ |
              ⟨none, found'', returns⟩⟩
          · exact Or.inl panics
          · exact Or.inr ⟨unbroken,
              Or.inl ⟨⟨ending, List.mem_cons_of_mem _ mem, ends⟩, returns⟩⟩
          · refine Or.inr ⟨unbroken, Or.inr ⟨?_, found'', ?_⟩⟩
            · intro ending mem
              rcases List.mem_cons.mp mem with rfl | within
              · exact unended
              · exact none ending within
            · rw [returns, List.append_assoc, List.filter_cons]
              split
              · rfl
              · rfl

theorem findConsiderSuffix_eq_panic_iff {part : Str} {isLastPart : Bool} :
    router.findConsiderSuffix part isLastPart place = .panic ↔
      router.child? place part = none ∧ isLastPart = true ∧
        router.suffixBoundary.utf8Size ≠ 1 ∧
        ∃ front child, (cuts router.suffixBoundary part).find?
            (fun front => (router.child? place front).isSome) = some front ∧
          router.child? place front = some child ∧ router.suffixesOf child ≠ [] := by
  rw [findConsiderSuffix]
  cases router.child? place part with
  | some child => simp
  | none =>
      cases isLastPart with
      | false => simp
      | true =>
          simp only [if_true, true_and]
          exact findCut_eq_panic_iff fun front mem => mem_cuts_iff.mp mem

/-- Where a walk panics there is no static child, or the search for it panics. -/
theorem Breaks.search {part : Str} (breaks : router.Breaks parts place number)
    (next : parts[number]? = some part) :
    router.findConsiderSuffix part (number == parts.length - 1) place = .ok none ∨
      router.findConsiderSuffix part (number == parts.length - 1) place = .panic := by
  cases breaks with
  | vars _ _ unmatched => exact Or.inl (unmatched part next)
  | static _ last final unmatched longest below suffixed wide =>
      cases next.symm.trans last
      right
      exact findConsiderSuffix_eq_panic_iff.mpr
        ⟨unmatched, beq_iff_eq.mpr final, wide, _, _, longest, below, suffixed⟩

theorem findConsiderSuffix_ne_err {part : Str} {isLastPart : Bool} (error : DceErr) :
    router.findConsiderSuffix part isLastPart place ≠ .err error := by
  have cutting (fronts : List Str) : router.findCut place part fronts ≠ .err error := by
    induction fronts with
    | nil =>
        intro fails
        cases fails
    | cons front fronts ih =>
        rw [findCut]
        split
        · exact ih
        · split
          · intro fails
            cases fails
          · cases sliceFrom part (len front + 1) with
            | none =>
                intro fails
                cases fails
            | some rest =>
                intro fails
                cases fails
  rw [findConsiderSuffix]
  split
  · intro fails
    cases fails
  · split
    · exact cutting _
    · intro fails
      cases fails

theorem goesOn_of_unmatched {branch : ApiBranch Rp} (held : router.branch? place = some branch)
    (unmatched : ∀ part, parts[number]? = some part →
      router.findConsiderSuffix part (number == parts.length - 1) place = .ok none) :
    router.goesOn parts place number =
      (branch.varChildren.filter router.isMiddle).map fun child => (child, number + 1) := by
  have childless : router.staticChild parts place number = none := by
    rw [staticChild]
    cases next : parts[number]? with
    | none => rfl
    | some part => simp [unmatched part next]
  rw [goesOn, held, childless]

theorem goesOn_of_matched {branch : ApiBranch Rp} {part suffix : Str} {child : Nat}
    (held : router.branch? place = some branch) (next : parts[number]? = some part)
    (matched : router.findConsiderSuffix part (number == parts.length - 1) place =
      .ok (some (child, suffix))) :
    router.goesOn parts place number = [(child, number + 1)] := by
  have here : router.staticChild parts place number = some child := by
    rw [staticChild, next]
    simp [matched]
  rw [goesOn, held, here]

/-- The cases of a visit: the branch breaks, the walk ends there, or it goes on. -/
theorem visit_cases (positive : 0 < parts.length) (place number : Nat) (found : Found) :
    router.Breaks parts place number ∧ router.visit parts place number found = .panic ∨
    ¬router.Breaks parts place number ∧
      (router.EndsHere parts place number ∧
          (∃ ending found', router.visit parts place number found =
            .ok (.target ending found')) ∨
        ¬router.EndsHere parts place number ∧
          ∃ found', router.visit parts place number found =
            .ok (.further (router.goesOn parts place number) found')) := by
  rw [visit]
  cases held : router.branch? place with
  | none =>
      right
      have nothing : router.goesOn parts place number = [] := by rw [goesOn, held]
      rw [nothing]
      have nowhere {branch : ApiBranch Rp} (there : router.branch? place = some branch) :
          False := by
        rw [held] at there
        cases there
      refine ⟨?_, Or.inr ⟨?_, found, rfl⟩⟩
      · intro breaks
        cases breaks with
        | vars there => exact nowhere there
        | static there =>
            rw [held] at there
            cases there
      · intro ends
        cases ends with
        | complete there => exact nowhere there
        | var there => exact nowhere there
  | some branch =>
      dsimp only
      by_cases complete : parts.length ≤ number ∧ branch.apis ≠ []
      · right
        have unbroken : ¬router.Breaks parts place number := by
          intro breaks
          cases breaks with
          | vars there bare =>
              cases held.symm.trans there
              exact complete.2 (bare complete.1)
          | static _ last =>
              have left := (List.getElem?_eq_some_iff.mp last).1
              omega
        refine ⟨unbroken, Or.inl ⟨.complete held complete.1 complete.2, place, found, ?_⟩⟩
        rw [if_pos]
        simp [complete.1, complete.2]
      · have bare : parts.length ≤ number → branch.apis = [] := by
          intro consumed
          by_contra filled
          exact complete ⟨consumed, filled⟩
        rw [if_neg (by simpa using bare)]
        -- without a static child the variables are tried
        have trying (unmatched : ∀ part, parts[number]? = some part →
            router.findConsiderSuffix part (number == parts.length - 1) place = .ok none) :
            router.Breaks parts place number ∧
              router.tryVars parts number branch.varChildren [] found = .panic ∨
            ¬router.Breaks parts place number ∧
              (router.EndsHere parts place number ∧ (∃ ending found',
                  router.tryVars parts number branch.varChildren [] found =
                    .ok (.target ending found')) ∨
                ¬router.EndsHere parts place number ∧ ∃ found',
                  router.tryVars parts number branch.varChildren [] found =
                    .ok (.further (router.goesOn parts place number) found')) := by
          rw [goesOn_of_unmatched held unmatched]
          have breaks_iff : router.Breaks parts place number ↔
              router.StuckFirst parts number branch.varChildren := by
            constructor
            · intro breaks
              cases breaks with
              | vars there _ _ stuck =>
                  cases held.symm.trans there
                  exact stuck
              | static _ last final unmatched' longest below suffixed wide =>
                  have panics := findConsiderSuffix_eq_panic_iff.mpr
                    ⟨unmatched', beq_iff_eq.mpr final, wide, _, _, longest, below, suffixed⟩
                  cases panics.symm.trans (unmatched _ last)
            · intro stuck
              exact .vars held bare unmatched stuck
          have ends_iff : router.EndsHere parts place number ↔
              ∃ ending ∈ branch.varChildren, router.EndsAt parts number ending := by
            constructor
            · intro ends
              cases ends with
              | complete there overflowed filled =>
                  cases held.symm.trans there
                  exact absurd ⟨overflowed, filled⟩ complete
              | var there _ below ends =>
                  cases held.symm.trans there
                  exact ⟨_, below, ends⟩
            · rintro ⟨ending, below, ends⟩
              exact .var held unmatched below ends
          rw [breaks_iff, ends_iff]
          rcases tryVars_cases positive branch.varChildren [] found with
            panics | ⟨unbroken, ends | ⟨none, returns⟩⟩
          · exact Or.inl panics
          · exact Or.inr ⟨unbroken, Or.inl ends⟩
          · refine Or.inr ⟨unbroken, Or.inr ⟨?_, returns⟩⟩
            rintro ⟨ending, below, ends⟩
            exact none ending below ends
        cases next : parts[number]? with
        | none => exact trying (by simp [next])
        | some part =>
            dsimp only
            cases searched : router.findConsiderSuffix part (number == parts.length - 1) place with
            | err error => exact absurd searched (findConsiderSuffix_ne_err error)
            | panic =>
                left
                refine ⟨?_, rfl⟩
                rcases findConsiderSuffix_eq_panic_iff.mp searched with
                  ⟨unmatched, final, wide, front, child, longest, below, suffixed⟩
                exact .static (by rw [held]; rfl) next (beq_iff_eq.mp final) unmatched longest below
                  suffixed wide
            | ok matched =>
                cases matched with
                | none =>
                    refine trying ?_
                    intro part' same
                    cases next.symm.trans same
                    exact searched
                | some match' =>
                    rcases match' with ⟨child, suffix⟩
                    right
                    rw [goesOn_of_matched held next searched]
                    refine ⟨?_, Or.inr ⟨?_, { found with suffix }, rfl⟩⟩
                    · intro breaks
                      rcases breaks.search next with nothing | panics
                      · cases searched.symm.trans nothing
                      · cases searched.symm.trans panics
                    · intro ends
                      cases ends with
                      | complete there overflowed =>
                          have left := (List.getElem?_eq_some_iff.mp next).1
                          omega
                      | var _ unmatched => cases searched.symm.trans (unmatched part next)

end Dce.Routing.Router
