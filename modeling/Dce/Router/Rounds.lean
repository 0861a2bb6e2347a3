import Dce.Router.Entries

/-!
# Rounds of lookups

A path is looked up, then the redirect of the api that was found, and so on. The
rounds end unless a path comes up again, since only the redirects of registered
apis are looked up.
-/

namespace Dce.Routing.Router

variable {Rp : Type} (router : Router Rp) {registered : List (Api Rp)}
  {apiFinder : List (Api Rp) → Outcome DceErr (Api Rp)}

/-- What a path leads to, and for a path that was walked down the tree also the path of the branch
with the parameters and the suffix. -/
def lookUp (apiFinder : List (Api Rp) → Outcome DceErr (Api Rp)) (path : Str) :
    Outcome DceErr (Api Rp × Option (Str × PathArgs × Str)) :=
  match router.apisMapping[path]? with
  | some apis => do
      let api ← apiFinder apis
      return (api, none)
  | none => do
      match ← router.matchVarPath path with
      | none => .err (notRouted path)
      | some walked =>
          match router.apisMapping[suffixPath (router.omittedPath walked.1) walked.2.2]? with
          | none => .err (notRouted path)
          | some apis => do
              let api ← apiFinder apis
              return (api, some walked)

theorem locateOnce_eq (path : Str) (pathArgs : PathArgs) (suffix : Option Str) :
    router.locateOnce apiFinder path pathArgs suffix = do
      let (api, walked) ← router.lookUp apiFinder path
      return ⟨api, walked.elim pathArgs (·.2.1), walked.elim suffix (some ·.2.2)⟩ := by
  rw [locateOnce, lookUp]
  cases router.apisMapping[path]? with
  | some apis =>
      dsimp only
      cases apiFinder apis <;> rfl
  | none =>
      dsimp only
      cases router.matchVarPath path with
      | ok walked =>
          cases walked with
          | none => rfl
          | some walked =>
              simp only [Outcome.bind_ok]
              cases router.apisMapping[suffixPath (router.omittedPath walked.1) walked.2.2]? with
              | none => rfl
              | some apis =>
                  dsimp only
                  cases apiFinder apis <;> rfl
      | err error => rfl
      | panic => rfl

/-- The key of the entry that a path leads to. -/
def entryKey (path : Str) (walked : Option (Str × PathArgs × Str)) : Str :=
  walked.elim path fun walked => suffixPath (router.omittedPath walked.1) walked.2.2

/-- The path that is looked up after this one. -/
def redirectOf (apiFinder : List (Api Rp) → Outcome DceErr (Api Rp)) (path : Str) : Option Str :=
  match router.lookUp apiFinder path with
  | .ok (api, _) => if api.redirect.isEmpty then none else some api.redirect
  | _ => none

/-- The path that is looked up after so many redirects. -/
def lookedUp (apiFinder : List (Api Rp) → Outcome DceErr (Api Rp)) : Nat → Str → Option Str
  | 0, path => some path
  | count + 1, path => (router.redirectOf apiFinder path).bind (lookedUp apiFinder count)

/-- No path is looked up twice. -/
def NeverAgain (apiFinder : List (Api Rp) → Outcome DceErr (Api Rp)) (path : Str) : Prop :=
  ∀ early late again, early < late → router.lookedUp apiFinder early path = some again →
    router.lookedUp apiFinder late path ≠ some again

variable {router}

theorem lookedUp_add (early later : Nat) (path : Str) :
    router.lookedUp apiFinder (early + later) path =
      (router.lookedUp apiFinder early path).bind (router.lookedUp apiFinder later) := by
  induction early generalizing path with
  | zero => simp [lookedUp]
  | succ early ih =>
      have next : early + 1 + later = early + later + 1 := by omega
      rw [next, lookedUp, lookedUp]
      cases router.redirectOf apiFinder path with
      | none => rfl
      | some redirect => exact ih redirect

/-- The loop goes on as long as there are redirects. -/
theorem locateFrom_eq_none_iff (fuel : Nat) (path : Str) (pathArgs : PathArgs)
    (suffix : Option Str) :
    router.locateFrom apiFinder fuel path pathArgs suffix = none ↔
      (router.lookedUp apiFinder fuel path).isSome := by
  induction fuel generalizing path pathArgs suffix with
  | zero => simp [locateFrom, lookedUp]
  | succ fuel ih =>
      rw [locateFrom, locateOnce_eq, lookedUp, redirectOf]
      cases router.lookUp apiFinder path with
      | ok found =>
          rcases found with ⟨api, walked⟩
          simp only [Outcome.bind_ok, Outcome.pure_eq]
          split
          · simp
          · exact ih _ _ _
      | err error => simp
      | panic => simp

/-- Where the loop ends, no redirect is left. -/
theorem redirect_of_locateFrom {fuel : Nat} {path : Str} {pathArgs : PathArgs}
    {suffix : Option Str} {found : Location Rp}
    (located : router.locateFrom apiFinder fuel path pathArgs suffix = some (.ok found)) :
    found.api.redirect = [] := by
  induction fuel generalizing path pathArgs suffix with
  | zero => cases located
  | succ fuel ih =>
      rw [locateFrom] at located
      split at located
      · rename_i here _
        split at located
        · rename_i last
          cases located
          exact List.isEmpty_iff.mp last
        · exact ih located
      · cases located
      · cases located

/-- An api is found in an entry, by the path itself or by a walk. -/
theorem of_lookUp {path : Str} {api : Api Rp} {walked : Option (Str × PathArgs × Str)}
    (found : router.lookUp apiFinder path = .ok (api, walked)) :
    ∃ apis, router.apisMapping[router.entryKey path walked]? = some apis ∧
      apiFinder apis = .ok api ∧ (walked = none ∨
        router.apisMapping[path]? = none ∧ router.matchVarPath path = .ok walked) := by
  rw [lookUp] at found
  cases direct : router.apisMapping[path]? with
  | some apis =>
      rw [direct] at found
      dsimp only at found
      cases matched : apiFinder apis with
      | ok first =>
          rw [matched] at found
          cases found
          exact ⟨apis, direct, matched, .inl rfl⟩
      | err error =>
          rw [matched] at found
          cases found
      | panic =>
          rw [matched] at found
          cases found
  | none =>
      rw [direct] at found
      dsimp only at found
      cases ended : router.matchVarPath path with
      | ok target =>
          rw [ended] at found
          cases target with
          | none => cases found
          | some target =>
              simp only [Outcome.bind_ok] at found
              cases entry : router.apisMapping[suffixPath (router.omittedPath target.1) target.2.2]?
                with
              | none =>
                  rw [entry] at found
                  cases found
              | some apis =>
                  rw [entry] at found
                  dsimp only at found
                  cases matched : apiFinder apis with
                  | ok first =>
                      rw [matched] at found
                      cases found
                      exact ⟨apis, entry, matched, .inr ⟨rfl, rfl⟩⟩
                  | err error =>
                      rw [matched] at found
                      cases found
                  | panic =>
                      rw [matched] at found
                      cases found
      | err error =>
          rw [ended] at found
          cases found
      | panic =>
          rw [ended] at found
          cases found

theorem mem_of_apiMatch {path : Str} {rp : Rp} {apis : List (Api Rp)} {api : Api Rp}
    (matched : apiMatch path rp apis = .ok api) : api ∈ apis := by
  rw [apiMatch] at matched
  split at matched
  · rename_i first found
    cases matched
    exact List.mem_of_find?_eq_some found
  · cases matched

/-- Redirects are those of registered apis. -/
theorem Ready.redirectOf (ready : Ready registered router) {shown path redirect : Str} {rp : Rp}
    (next : router.redirectOf (apiMatch shown rp) path = some redirect) :
    redirect ∈ registered.map (·.redirect) := by
  rw [Router.redirectOf] at next
  cases looked : router.lookUp (apiMatch shown rp) path with
  | ok found =>
      rcases found with ⟨api, walked⟩
      rw [looked] at next
      rcases of_lookUp looked with ⟨apis, entry, matched, _⟩
      rcases ready.of_entry entry with ⟨_, group⟩
      have mem := (group api (mem_of_apiMatch matched)).1
      dsimp only at next
      split at next
      · cases next
      · exact List.mem_map.mpr ⟨api, mem, Option.some.inj next⟩
  | err error =>
      rw [looked] at next
      cases next
  | panic =>
      rw [looked] at next
      cases next

theorem Ready.lookedUp (ready : Ready registered router) {shown path again : Str} {rp : Rp}
    {count : Nat} (there : router.lookedUp (apiMatch shown rp) (count + 1) path = some again) :
    again ∈ registered.map (·.redirect) := by
  rw [lookedUp_add count 1] at there
  rcases Option.bind_eq_some_iff.mp there with ⟨last, _, next⟩
  rcases Option.bind_eq_some_iff.mp next with ⟨redirect, followed, same⟩
  cases same
  exact ready.redirectOf followed

theorem isSome_lookedUp_of_le {early late : Nat} {path : Str} (before : early ≤ late)
    (there : (router.lookedUp apiFinder late path).isSome) :
    (router.lookedUp apiFinder early path).isSome := by
  rw [← Nat.add_sub_cancel' before, lookedUp_add] at there
  exact Option.isSome_of_isSome_bind there

/-- A path that comes up again comes up for ever. -/
theorem lookedUp_of_again {early late : Nat} {path again : Str} (later : early < late)
    (first : router.lookedUp apiFinder early path = some again)
    (second : router.lookedUp apiFinder late path = some again) (count : Nat) :
    (router.lookedUp apiFinder count path).isSome := by
  have period : router.lookedUp apiFinder (late - early) again = some again := by
    rw [← Nat.add_sub_cancel' later.le, lookedUp_add, first] at second
    exact second
  have turns (turn : Nat) :
      router.lookedUp apiFinder (turn * (late - early)) again = some again := by
    induction turn with
    | zero => simp [Router.lookedUp]
    | succ turn ih => rw [Nat.succ_mul, lookedUp_add, ih, Option.bind_some, period]
  have long : count ≤ early + count * (late - early) := by
    have positive : 0 < late - early := by omega
    have stretched := Nat.le_mul_of_pos_right count positive
    omega
  apply isSome_lookedUp_of_le long
  rw [lookedUp_add, first, Option.bind_some, turns]
  rfl

/-- Without a path that comes up again there are not more redirects than apis. -/
theorem Ready.lookedUp_eq_none (ready : Ready registered router) {shown path : Str} {rp : Rp}
    (never : router.NeverAgain (apiMatch shown rp) path) :
    router.lookedUp (apiMatch shown rp) (registered.length + 1) path = none := by
  by_contra there
  let looked (count : Nat) : Str :=
    (router.lookedUp (apiMatch shown rp) (count + 1) path).getD []
  have each (count : Nat) (before : count < registered.length + 1) :
      router.lookedUp (apiMatch shown rp) (count + 1) path = some (looked count) := by
    have some := isSome_lookedUp_of_le (Nat.succ_le_of_lt before)
      (Option.isSome_iff_ne_none.mpr there)
    rcases Option.isSome_iff_exists.mp some with ⟨again, found⟩
    rw [found]
    simp [looked, found]
  have distinct : ((List.range (registered.length + 1)).map looked).Nodup := by
    rw [List.nodup_map_iff_inj_on List.nodup_range]
    intro left leftMem right rightMem same
    have leftThere := each left (List.mem_range.mp leftMem)
    have rightThere := each right (List.mem_range.mp rightMem)
    rcases Nat.lt_trichotomy left right with before | equal | after
    · exact absurd (same ▸ rightThere) (never _ _ _ (Nat.succ_lt_succ before) leftThere)
    · exact equal
    · exact absurd (same ▸ leftThere) (never _ _ _ (Nat.succ_lt_succ after) rightThere)
  have within :
      (List.range (registered.length + 1)).map looked ⊆ registered.map (·.redirect) := by
    intro again mem
    rcases List.mem_map.mp mem with ⟨count, inside, rfl⟩
    exact ready.lookedUp (each count (List.mem_range.mp inside))
  have bound := (distinct.subperm within).length_le
  simp at bound

/-- Without a path that is looked up twice there are at most as many rounds as apis, and one. -/
theorem Ready.locate_of_never (ready : Ready registered router) {rp : Rp} {path : Str}
    (never : router.NeverAgain (apiMatch path rp) path) :
    ∃ result, router.locate (apiMatch path rp) (registered.length + 1) path = some result := by
  have ended := ready.lookedUp_eq_none never
  cases located : router.locate (apiMatch path rp) (registered.length + 1) path with
  | none =>
      have goes := (locateFrom_eq_none_iff _ _ _ _).mp located
      rw [ended] at goes
      cases goes
  | some result => exact ⟨result, rfl⟩

theorem neverAgain_of_locate {path : Str} {fuel : Nat} {result : Outcome DceErr (Location Rp)}
    (located : router.locate apiFinder fuel path = some result) :
    router.NeverAgain apiFinder path := by
  intro early late again later first second
  have goes : router.locate apiFinder fuel path = none :=
    (locateFrom_eq_none_iff _ _ _ _).mpr (lookedUp_of_again later first second fuel)
  rw [goes] at located
  cases located

/-- The loop over redirects ends exactly if no path is looked up twice, and then after at most one
round more than there are apis, with an api that redirects nowhere unless the lookup fails. -/
theorem locate_ends_iff (ready : Ready registered router) (rp : Rp) (path : Str) :
    let apiFinder := apiMatch path rp
    ((∃ fuel result, router.locate apiFinder fuel path = some result) ↔
        router.NeverAgain apiFinder path) ∧
      (router.NeverAgain apiFinder path →
        ∃ result, router.locate apiFinder (registered.length + 1) path = some result ∧
          ∀ found, result = .ok found → found.api.redirect = []) := by
  intro apiFinder
  refine ⟨⟨?_, ?_⟩, ?_⟩
  · rintro ⟨fuel, result, located⟩
    exact neverAgain_of_locate located
  · intro never
    rcases ready.locate_of_never never with ⟨result, located⟩
    exact ⟨_, result, located⟩
  · intro never
    rcases ready.locate_of_never never with ⟨result, located⟩
    refine ⟨result, located, ?_⟩
    rintro found rfl
    exact redirect_of_locateFrom located

/-- Two apis of which one redirects to the other. -/
theorem locate_ends_index :
    ∃ router : Router Unit,
      Ready [Api.new none "index".toList [] false "home".toList,
        Api.new none "home".toList [] false []] router ∧
      let apiFinder := apiMatch "index".toList ()
      ((∃ fuel result, router.locate apiFinder fuel "index".toList = some result) ↔
          router.NeverAgain apiFinder "index".toList) ∧
        (router.NeverAgain apiFinder "index".toList →
          ∃ result, router.locate apiFinder 3 "index".toList = some result ∧
            ∀ found, result = .ok found → found.api.redirect = []) := by
  let registered : List (Api Unit) :=
    [Api.new none "index".toList [] false "home".toList, Api.new none "home".toList [] false []]
  have returns : ((registered.foldl push Router.new).ready .pushed).isOk = true := by decide
  rcases Outcome.isOk_iff.mp returns with ⟨router, closed⟩
  have ready : Ready registered router :=
    ⟨.pushed, Routing.pathPartSeparator, Routing.suffixBoundary, closed⟩
  exact ⟨router, ready, locate_ends_iff ready () "index".toList⟩

/-- An api that redirects to itself is looked up for ever. -/
theorem not_locate_ends : ¬ ∀ (registered : List (Api Unit)) (router : Router Unit),
    Ready registered router → ∀ path,
      ∃ fuel result, router.locate (apiMatch path ()) fuel path = some result := by
  intro ends
  let registered : List (Api Unit) := [Api.new none "home".toList [] false "home".toList]
  let built := (registered.foldl push Router.new).ready .pushed
  have returns : built.isOk = true := by decide
  have follows : (built >>= fun router =>
      if router.redirectOf (apiMatch "home".toList ()) "home".toList = some "home".toList
        then .ok ()
      else .panic).isOk = true := by decide
  rcases Outcome.isOk_iff.mp returns with ⟨router, closed⟩
  have ready : Ready registered router :=
    ⟨.pushed, Routing.pathPartSeparator, Routing.suffixBoundary, closed⟩
  rw [closed, Outcome.bind_ok] at follows
  have again : router.redirectOf (apiMatch "home".toList ()) "home".toList =
      some "home".toList := by
    by_contra other
    rw [if_neg other] at follows
    cases follows
  rcases ends registered router ready "home".toList with ⟨fuel, result, located⟩
  have goes : router.locate (apiMatch "home".toList ()) fuel "home".toList = none := by
    apply (locateFrom_eq_none_iff _ _ _ _).mpr
    apply lookedUp_of_again Nat.zero_lt_one rfl
    rw [lookedUp, again]
    rfl
  rw [goes] at located
  cases located

end Dce.Routing.Router
