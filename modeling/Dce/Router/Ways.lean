import Dce.Router.Bindings
import Dce.Util.TreeOrder

/-!
# Ways through the registered paths

Where a part of a request leads is a matter of the registered paths alone: one of
them goes on with it, or it stands behind parts that are left out there.
-/

namespace Dce.Routing

open Text ATree WorkList Relation

variable {Rp : Type}

/-- Some registered path begins with these parts. -/
def Begins (registered : List (Api Rp)) (parts : List Str) : Prop :=
  ∃ api ∈ registered, parts <+: partsOf api.path

/-- The path of these parts is registered as one that is left out. -/
def LeftOut (registered : List (Api Rp)) (parts : List Str) : Prop :=
  ∃ api ∈ registered, partsOf api.path = parts ∧ api.omission = true

/-- A static part stands behind some parts that are left out. -/
structure Behind (registered : List (Api Rp)) (before passed : List Str) (part : Str) : Prop where
  begins : Begins registered (before ++ passed ++ [part])
  static : VarType.ofKey part = .notVar
  some : passed ≠ []
  leftOut : ∀ front, front ≠ [] → front <+: passed → LeftOut registered (before ++ front)
  kept : ¬LeftOut registered before

/-- Where a part leads: below the parts before, or else behind the last ones that are left out. -/
inductive Next (registered : List (Api Rp)) (before : List Str) (part : Str) :
    List Str → Prop where
  | below (begins : Begins registered (before ++ [part])) :
      Next registered before part (before ++ [part])
  | behind {passed : List Str} (none : ¬Begins registered (before ++ [part]))
      (behind : Behind registered before passed part)
      (last : ∀ other, Behind registered before other part →
        other = passed ∨ compare other passed = .lt) :
      Next registered before part (before ++ passed ++ [part])

variable {registered : List (Api Rp)} {tree : ApiTree Rp} {before passed after parts : List Str}
  {part : Str} {place node child : Nat}

theorem Begins.free (begins : Begins registered parts) :
    ∀ part ∈ parts, pathPartSeparator ∉ part := by
  rcases begins with ⟨api, _, isPrefix⟩
  intro part mem
  exact not_mem_of_mem_splitOn (isPrefix.subset mem)

theorem Next.begins (next : Next registered before part after) : Begins registered after := by
  cases next with
  | below begins => exact begins
  | behind _ behind _ => exact behind.begins

theorem Next.ne_nil (next : Next registered before part after) : after ≠ [] := by
  cases next with
  | below begins => simp
  | behind _ behind _ => simp

theorem Next.getLast? (next : Next registered before part after) :
    after.getLast? = some part := by
  cases next with
  | below begins => simp
  | behind _ behind _ => simp

namespace PrefixTree

theorem isSome_getByPath (prefixTree : PrefixTree tree registered) :
    (tree.getByPath parts).isSome ↔ parts = [] ∨ Begins registered parts := by
  rcases eq_or_ne parts [] with rfl | filled
  · simp
  · constructor
    · intro there
      exact Or.inr (prefixTree.only parts filled there)
    · rintro (none | ⟨api, mem, isPrefix⟩)
      · exact absurd none filled
      · rw [← content_isSome prefixTree.sound]
        by_cases whole : ∃ other ∈ registered, partsOf other.path = parts
        · rcases whole with ⟨other, own, rfl⟩
          rw [prefixTree.entered other own]
          rfl
        · push Not at whole
          rw [prefixTree.bare api mem parts filled isPrefix whole]
          rfl

end PrefixTree

theorem child_of_path {key : Str} (there : tree.getByPath before = some place)
    (further : tree.getByPath (before ++ [key]) = some node) : tree.Child place node := by
  rw [getByPath_append, there] at further
  exact ⟨key, further⟩

theorem reached_of_path (there : tree.getByPath parts = some node) : Reached tree node :=
  reach_of_getByPath there

/-- The tree of a router is made of the registered paths by the two passes. -/
structure Built (registered : List (Api Rp)) (router : Router Rp) (tree : ApiTree Rp) : Prop where
  prefixTree : PrefixTree tree registered
  trimmed : Trimmed registered
  linked : tree.Linked
  fresh : ∀ place branch, tree.element? place = some branch → branch.Fresh
  halfway : Halfway tree (tree.visits tree.nodes.length [0]) router.apisTree
  nothing : NothingBehind tree

namespace Built

variable {router : Router Rp}

theorem branch_of_path (built : Built registered router tree) (filled : parts ≠ [])
    (there : tree.getByPath parts = some place) : ∃ branch, router.branch? place = some branch ∧
      ∀ api, api ∈ branch.apis ↔ api ∈ registered ∧ partsOf api.path = parts := by
  have valid := built.prefixTree.sound.within there
  rw [← built.halfway.same.length] at valid
  rcases Option.isSome_iff_exists.mp (element?_isSome_iff.mpr valid) with ⟨branch, held⟩
  rcases built.halfway.alike held with ⟨first, held', alike⟩
  have content : tree.content parts = some first := by
    rw [ATree.content, there, Option.bind_some, held']
  refine ⟨branch, held, ?_⟩
  intro api
  rw [alike.apis]
  rcases (built.prefixTree.cases_content filled content).2.2 with
    ⟨own, mem, same, rfl⟩ | ⟨bare, rfl⟩
  · simp only [branchOf, ApiBranch.ofPath, List.mem_filter, beq_iff_eq]
    refine and_congr_right fun _ => ?_
    rw [← same]
    exact ⟨fun path => by rw [path], partsOf_inj⟩
  · simp only [ApiBranch.ofPath, List.not_mem_nil, false_iff]
    rintro ⟨mem, same⟩
    exact bare api mem same

end Built

namespace Router

variable {router : Router Rp}

theorem mem_rawOmittedPaths {path : Str} :
    path ∈ (registered.foldl push router).rawOmittedPaths ↔
      path ∈ router.rawOmittedPaths ∨
        ∃ api ∈ registered, api.omission = true ∧ api.path = path := by
  induction registered generalizing router with
  | nil => simp
  | cons api registered ih =>
      rw [List.foldl_cons, ih, push]
      cases omission : api.omission with
      | false => simp [omission]
      | true =>
          simp only [if_true, Std.ExtTreeSet.mem_insert, Std.compare_eq_iff_eq, List.mem_cons,
            exists_eq_or_imp, omission, true_and]
          tauto

/-- The parts of a path that are not left out. -/
def keptParts (router : Router Rp) (parts : List Str) : List Str :=
  (parts.zipIdx.filter fun entry => !router.rawOmittedPaths.contains
    (join Routing.pathPartSeparator (parts.take (entry.2 + 1)))).map (·.1)

theorem keptParts_append (parts : List Str) (part : Str) :
    router.keptParts (parts ++ [part]) = router.keptParts parts ++
      if router.rawOmittedPaths.contains (join Routing.pathPartSeparator (parts ++ [part])) then []
      else [part] := by
  rw [keptParts, keptParts, List.zipIdx_append, List.filter_append, List.map_append]
  congr 1
  · congr 1
    refine List.filter_congr fun entry mem => ?_
    have inside : entry.2 < parts.length := by
      have bound := List.snd_lt_add_of_mem_zipIdx mem
      omega
    rw [List.take_append_of_le_length (by omega)]
  · rw [List.zipIdx_singleton, List.filter_singleton, List.take_of_length_le (by simp)]
    cases router.rawOmittedPaths.contains (join Routing.pathPartSeparator (parts ++ [part])) with
    | false => rfl
    | true => rfl

/-- Getting ready keeps the omitted paths that were pushed. -/
theorem Ready.contains_iff (ready : Ready registered router)
    (free : ∀ part ∈ parts, Routing.pathPartSeparator ∉ part) (filled : parts ≠ []) :
    router.rawOmittedPaths.contains (join Routing.pathPartSeparator parts) = true ↔
      LeftOut registered parts := by
  rcases ready with ⟨order, partSeparator, boundary, ready⟩
  rcases of_ready ready with ⟨final, _, rfl⟩
  rw [Std.ExtTreeSet.contains_iff_mem, mem_rawOmittedPaths]
  constructor
  · rintro (early | ⟨api, mem, omission, own⟩)
    · exact absurd early Std.ExtTreeSet.not_mem_empty
    · exact ⟨api, mem, by rw [own, partsOf, splitOn_join free filled], omission⟩
  · rintro ⟨api, mem, own, omission⟩
    exact Or.inr ⟨api, mem, omission, by rw [← own, join_partsOf]⟩

end Router

theorem Router.Ready.built {router : Router Rp} (ready : Router.Ready registered router)
    (trimmed : Trimmed registered) : ∃ tree, Built registered router tree := by
  rcases ready.grounded with ⟨order, tree, passed, called, _⟩
  rcases of_firstPass passed with ⟨linked, fresh⟩
  have nothing : NothingBehind tree := by
    rcases traversal_cases linked fresh with ⟨nothing, _⟩ | ⟨_, panics⟩
    · exact nothing
    · cases called.symm.trans panics
  exact ⟨tree, prefixTree_firstPass order trimmed passed, trimmed, linked, fresh,
    halfway_of_traversal linked called, nothing⟩

end Dce.Routing
