import Dce.Router.Statics

/-!
# Where a walk ends up

A walk ends at the branch of a registered path, and the suffix that it finds is
one that some api has, or empty. So the entry that it leads to is that of apis
with this path, as long as no two registered paths are mistaken for each other.
-/

namespace Dce.Routing

open Text ATree

variable {Rp : Type} {registered : List (Api Rp)} {router : Router Rp} {tree : ApiTree Rp}

namespace Router

/-- The omitted path of a branch is the api's own one but for something like a suffix behind it. -/
def GoesOn (router : Router Rp) (api : Api Rp) (branch : Str) : Prop :=
  ∃ own rest, router.akin own api = true ∧ Routing.pathPartSeparator ∉ rest ∧
    router.omittedPath branch = own ++ Routing.suffixBoundary :: rest

/-- No two registered paths are told apart by the case of letters only, or by something that looks
like a suffix. -/
structure Unmistaken (router : Router Rp) (registered : List (Api Rp)) : Prop where
  alike : ∀ left ∈ registered, ∀ right ∈ registered,
    router.akin (router.omittedPath left.path) right = true →
      router.omittedPath left.path = router.omittedPath right.path
  goesOn : ∀ left ∈ registered, ∀ right ∈ registered, ¬router.GoesOn left right.path

theorem Unmistaken.single (api : Api Rp) : router.Unmistaken [api] where
  alike := by simp
  goesOn := by
    intro left leftMem right rightMem ⟨own, rest, alike, _, longer⟩
    cases List.mem_singleton.mp leftMem
    cases List.mem_singleton.mp rightMem
    have lengths := length_of_eqIgnoreAsciiCase alike
    rw [longer, List.length_append, List.length_cons] at lengths
    omega

/-- A key is put together from one path and one suffix. -/
theorem Unmistaken.of_key (unmistaken : router.Unmistaken registered) {left right : Api Rp}
    (leftMem : left ∈ registered) (rightMem : right ∈ registered) {first second : Str}
    (free : Routing.pathPartSeparator ∉ first) (free' : Routing.pathPartSeparator ∉ second)
    (key : suffixPath (router.omittedPath left.path) first =
      suffixPath (router.omittedPath right.path) second) :
    router.omittedPath left.path = router.omittedPath right.path ∧ first = second := by
  have goesOn {left right : Api Rp} (leftMem : left ∈ registered)
      (rightMem : right ∈ registered)
      {rest : Str} (free : Routing.pathPartSeparator ∉ rest) :
      router.omittedPath right.path ≠
        router.omittedPath left.path ++ Routing.suffixBoundary :: rest := fun same =>
    unmistaken.goesOn left leftMem right rightMem ⟨_, rest, akin_self left, free, same⟩
  have filled {path text : Str} (nonempty : text ≠ []) :
      suffixPath path text = path ++ Routing.suffixBoundary :: text := by
    simp [suffixPath, nonempty]
  have bare (path : Str) : suffixPath path [] = path := by simp [suffixPath]
  rcases eq_or_ne first [] with rfl | some
  · rw [bare] at key
    rcases eq_or_ne second [] with rfl | some'
    · rw [bare] at key
      exact ⟨key, rfl⟩
    · rw [filled some'] at key
      exact absurd key (goesOn rightMem leftMem free')
  · rw [filled some] at key
    rcases eq_or_ne second [] with rfl | some'
    · rw [bare] at key
      exact absurd key.symm (goesOn leftMem rightMem free)
    · rw [filled some'] at key
      rcases List.append_eq_append_iff.mp key with
        ⟨rest, longer, tail⟩ | ⟨rest, longer, tail⟩
      · cases rest with
        | nil =>
            rw [List.nil_append] at tail
            rw [List.append_nil] at longer
            exact ⟨longer.symm, (List.cons.inj tail).2⟩
        | cons c rest =>
            rw [List.cons_append] at tail
            rcases List.cons.inj tail with ⟨rfl, text⟩
            refine absurd longer (goesOn leftMem rightMem fun there => free ?_)
            rw [text]
            exact List.mem_append_left _ there
      · cases rest with
        | nil =>
            rw [List.nil_append] at tail
            rw [List.append_nil] at longer
            exact ⟨longer, (List.cons.inj tail).2.symm⟩
        | cons c rest =>
            rw [List.cons_append] at tail
            rcases List.cons.inj tail with ⟨rfl, text⟩
            refine absurd longer (goesOn rightMem leftMem fun there => free' ?_)
            rw [text]
            exact List.mem_append_left _ there

theorem Unmistaken.apart (unmistaken : router.Unmistaken registered) :
    router.Apart registered := by
  intro left leftMem right rightMem confused
  rcases confused with alike | ⟨key, leftKey, rightKey⟩
  · exact unmistaken.alike left leftMem right rightMem alike
  · rcases spells_iff.mp leftKey with ⟨first, firstMem, firstKey⟩
    rcases spells_iff.mp rightKey with ⟨second, secondMem, secondKey⟩
    exact (unmistaken.of_key leftMem rightMem (left.unparted _ firstMem)
      (right.unparted _ secondMem) (firstKey.trans secondKey.symm)).1

/-- An entry is that of the path and the suffix that its key is put together from. -/
theorem Unmistaken.of_entry (unmistaken : router.Unmistaken registered)
    (ready : Ready registered router) {other : Api Rp} (known : other ∈ registered)
    {cut : Str} (unparted : Routing.pathPartSeparator ∉ cut) {apis : List (Api Rp)}
    (entry : router.apisMapping[suffixPath (router.omittedPath other.path) cut]? = some apis)
    {api : Api Rp} (mem : api ∈ apis) :
    api ∈ registered ∧ router.omittedPath api.path = router.omittedPath other.path ∧
      ⟨cut⟩ ∈ api.suffixes := by
  rcases ready.of_group entry with ⟨first, firstMem, group⟩
  rcases group api mem with ⟨own, alike, spelled⟩
  rcases spells_iff.mp spelled with ⟨suffix, suffixMem, key⟩
  rw [unmistaken.alike first firstMem api own alike] at key
  rcases unmistaken.of_key own known (api.unparted suffix suffixMem) unparted key with
    ⟨path_eq, text⟩
  cases suffix
  exact ⟨own, path_eq, (congrArg Suffix.mk text) ▸ suffixMem⟩

/-- A suffix that some branch lists, or the empty one. -/
def Listed (router : Router Rp) (suffix : Str) : Prop :=
  suffix = [] ∨ ∃ place, ⟨suffix⟩ ∈ router.suffixesOf place

/-- The suffix that a walk finds is listed. -/
theorem listed_of_matchVarPath {path branch suffix : Str} {args : PathArgs}
    (walked : router.matchVarPath path = .ok (some (branch, args, suffix))) :
    router.Listed suffix := by
  refine OfCuts.matchVarPath ⟨Or.inl rfl, ?_, ?_⟩ walked
  · intro number place child part suffix _ matched
    cases final : number == (path.splitOn router.pathPartSeparator).length - 1 with
    | true =>
        rw [final] at matched
        rcases findConsiderSuffix_iff.mp matched with
          ⟨_, empty⟩ | ⟨_, _, _, _, _, _, listed⟩
        · exact Or.inl empty
        · exact Or.inr ⟨child, listed⟩
    | false =>
        rw [final, findConsiderSuffix] at matched
        split at matched
        · cases matched
          exact Or.inl rfl
        · cases matched
  · intro place parts' before suffix listed extracted
    rw [extractSuffix] at extracted
    split at extracted
    · cases extracted
      exact listed
    · dsimp only at extracted
      split at extracted
      · cases extracted
        exact listed
      · rename_i own first
        rcases Outcome.bind_eq_ok.mp extracted with ⟨kept, _, same⟩
        cases same
        have mem := List.mem_of_find?_eq_some first
        rw [Std.ExtTreeSet.mem_toList, Std.ExtTreeSet.mem_ofList] at mem
        exact Or.inr ⟨place, by simpa using mem⟩

/-- A listed suffix is one of a registered api. -/
theorem unparted_of_listed {suffix : Str}
    (listed : router.Listed suffix) : Routing.pathPartSeparator ∉ suffix := by
  rcases listed with rfl | ⟨place, mem⟩
  · simp
  · rw [suffixesOf] at mem
    cases held : router.branch? place with
    | none =>
        rw [held] at mem
        cases mem
    | some branch =>
        rw [held, Option.map_some, Option.getD_some, List.mem_flatMap] at mem
        rcases mem with ⟨api, _, own⟩
        exact api.unparted _ (Std.ExtTreeSet.mem_toList.mp own)

/-- The variable at which a walk ends has none behind it. -/
theorem held_of_tryVars {parts : List Str} {number ending : Nat} {places : List Nat}
    {items : List (Nat × Nat)} {found found' : Found}
    (tried : router.tryVars parts number places items found = .ok (.target ending found')) :
    ∃ branch, router.branch? ending = some branch ∧ branch.isMidVar = false ∧
      branch.varType ≠ .notVar := by
  induction places generalizing items found with
  | nil => cases tried
  | cons place places ih =>
      rw [tryVars] at tried
      cases held : router.branch? place with
      | none =>
          rw [held] at tried
          exact ih tried
      | some branch =>
          rw [held] at tried
          dsimp only at tried
          split at tried
          · split at tried
            · split at tried
              · exact ih tried
              · cases tried
            · exact ih tried
          · rename_i last
            rcases Outcome.bind_eq_ok.mp tried with ⟨bound, bind, rest⟩
            cases bound with
            | none => exact ih rest
            | some found'' =>
                cases rest
                refine ⟨branch, held, by simpa using last, ?_⟩
                intro notVar
                rw [notVar] at bind
                cases bind

end Router

namespace Built

/-- A node with nothing behind it is that of a registered path. -/
theorem filled_of_childless (built : Built registered router tree) {place : Nat}
    {parts : List Str} (below : parts ≠ []) (there : tree.getByPath parts = some place)
    (childless : ∀ child, ¬tree.Child place child) :
    ∃ api ∈ registered, partsOf api.path = parts := by
  by_contra bare
  push Not at bare
  have begins := built.prefixTree.isSome_getByPath.mp (by rw [there]; rfl)
  rcases begins.resolve_left below with ⟨api, mem, rest, whole⟩
  cases rest with
  | nil =>
      rw [List.append_nil] at whole
      exact bare api mem whole.symm
  | cons key rest =>
      have further := built.prefixTree.isSome_getByPath.mpr
        (Or.inr ⟨api, mem, rest, by rw [← whole]; simp⟩ :
          parts ++ [key] = [] ∨ Begins registered (parts ++ [key]))
      rcases Option.isSome_iff_exists.mp further with ⟨child, atChild⟩
      exact childless child (child_of_path there atChild)

/-- A walk ends at the branch of a registered path. -/
theorem registered_of_matchVarPath (built : Built registered router tree)
    {path branch suffix : Str} {args : PathArgs}
    (walked : router.matchVarPath path = .ok (some (branch, args, suffix))) :
    ∃ api ∈ registered, api.path = branch := by
  rw [Router.matchVarPath] at walked
  rcases Outcome.bind_eq_ok.mp walked with ⟨target, ended, rest⟩
  cases target with
  | none => cases rest
  | some target =>
      rcases target with ⟨place, found⟩
      rcases Option.map_eq_some_iff.mp (Outcome.ok.inj rest) with ⟨final, held, same⟩
      cases same
      let Ends (place : Nat) : Prop := ∃ branch, router.branch? place = some branch ∧
        (branch.apis ≠ [] ∨ branch.isMidVar = false ∧ branch.varType ≠ .notVar)
      have ends : Ends place := by
        refine Router.of_walk (fun _ _ => True) (fun place _ => Ends place)
          (fun _ _ _ _ _ _ _ _ => trivial) ?_ trivial ended
        intro place number items found ending found' _ visited
        cases visited with
        | complete held overflowed filled => exact ⟨_, held, Or.inl filled⟩
        | vars held unfinished unmatched tried =>
            rcases Router.held_of_tryVars tried with ⟨branch, held', last, var⟩
            exact ⟨branch, held', Or.inr ⟨last, var⟩⟩
      rcases ends with ⟨final', held', kinds⟩
      cases held.symm.trans held'
      rcases built.halfway.alike held with ⟨first, first_held, alike⟩
      rcases built.prefixTree.sound.path_of_element first_held with ⟨parts, there, content⟩
      have below : parts ≠ [] := by
        rintro rfl
        rw [built.prefixTree.root] at content
        cases content
        rcases kinds with filled | ⟨_, var⟩
        · exact filled alike.apis
        · exact var alike.varType
      have path_eq : partsOf final.path = parts := by
        rw [alike.path]
        exact (built.prefixTree.cases_content below content).1
      have own : ∃ api ∈ registered, partsOf api.path = parts := by
        rcases kinds with filled | ⟨last, var⟩
        · rcases built.branch_of_path below there with ⟨again, again_held, apis⟩
          cases held.symm.trans again_held
          rcases List.exists_mem_of_ne_nil _ filled with ⟨api, mem⟩
          exact ⟨api, (apis api).mp mem⟩
        · refine built.filled_of_childless below there fun child lower => ?_
          have informed := built.halfway.informed built.linked built.fresh
          have reached := reached_of_path there
          have mid := informed.mid place final reached held
          rw [last] at mid
          cases kind : final.varType with
          | required name => exact absurd (mid.mpr ⟨⟨name, kind⟩, child, lower⟩) (by simp)
          | notVar => exact var kind
          | optional name =>
              exact built.nothing place first reached first_held
                (by rw [← alike.varType, kind]; rfl) child lower
          | emptableVector name =>
              exact built.nothing place first reached first_held
                (by rw [← alike.varType, kind]; rfl) child lower
          | vector name =>
              exact built.nothing place first reached first_held
                (by rw [← alike.varType, kind]; rfl) child lower
      rcases own with ⟨api, mem, same⟩
      exact ⟨api, mem, partsOf_inj (same.trans path_eq.symm)⟩

end Built

/-- A walk leads to apis with the omitted path and the suffix that it found. -/
theorem Router.Unmistaken.of_walk (unmistaken : router.Unmistaken registered)
    (ready : Router.Ready registered router) (trimmed : Trimmed registered)
    {path branch suffix : Str} {args : PathArgs}
    (walked : router.matchVarPath path = .ok (some (branch, args, suffix)))
    {apis : List (Api Rp)}
    (entry : router.apisMapping[suffixPath (router.omittedPath branch) suffix]? = some apis)
    {api : Api Rp} (mem : api ∈ apis) :
    api ∈ registered ∧ router.omittedPath api.path = router.omittedPath branch ∧
      ⟨suffix⟩ ∈ api.suffixes := by
  rcases ready.built trimmed with ⟨tree, built⟩
  rcases built.registered_of_matchVarPath walked with ⟨other, known, rfl⟩
  exact unmistaken.of_entry ready known
    (Router.unparted_of_listed (Router.listed_of_matchVarPath walked)) entry mem

end Dce.Routing
