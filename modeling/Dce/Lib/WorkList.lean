import Mathlib.Data.List.Perm.Subperm
import Mathlib.Logic.Relation

/-!
# Work lists over a forest

A loop takes a node off a stack and puts nodes on it that lie below the taken
one. In a forest the loop takes no node twice, as long as the nodes that wait on
the stack lie apart from each other.
-/

namespace Dce.WorkList

open Relation

variable {α : Type}

/-- A chain of children leads from the first node to the second one. -/
abbrev Above (Child : α → α → Prop) : α → α → Prop := TransGen Child

structure Forest (Child : α → α → Prop) : Prop where
  unique {left right node : α} (ofLeft : Child left node) (ofRight : Child right node) :
    left = right
  acyclic (node : α) : ¬Above Child node node

/-- Neither node lies below the other one. -/
structure Apart (Child : α → α → Prop) (left right : α) : Prop where
  ne : left ≠ right
  notAbove : ¬Above Child left right
  notBelow : ¬Above Child right left

/-- No node was taken twice, and none that waits leads to one that was taken. -/
structure Fair (Child : α → α → Prop) (taken stack : List α) : Prop where
  distinct : taken.Nodup
  apart : stack.Pairwise (Apart Child)
  done : ∀ old ∈ taken, ∀ waiting ∈ stack, ¬ReflTransGen Child waiting old

/-- All nodes below the start were taken or lie below one that waits. -/
def Full (Child : α → α → Prop) (root : α) (taken stack : List α) : Prop :=
  ∀ node, ReflTransGen Child root node →
    node ∈ taken ∨ ∃ waiting ∈ stack, ReflTransGen Child waiting node

variable {Child : α → α → Prop} {taken stack next : List α} {root node left right : α}

namespace Forest

/-- The way up from a node is a chain. -/
theorem comparable (forest : Forest Child) (ofLeft : ReflTransGen Child left node)
    (ofRight : ReflTransGen Child right node) :
    ReflTransGen Child left right ∨ ReflTransGen Child right left := by
  have upward : Relator.RightUnique (Function.swap Child) := by
    intro below above other first second
    exact forest.unique first second
  rcases ReflTransGen.total_of_right_unique upward (reflTransGen_swap.mpr ofLeft)
    (reflTransGen_swap.mpr ofRight) with below | above
  · exact Or.inr (reflTransGen_swap.mp below)
  · exact Or.inl (reflTransGen_swap.mp above)

/-- What leads to a child leads to the node above it, unless it is the child. -/
theorem above_parent (forest : Forest Child) (child : Child left node)
    (above : Above Child right node) : ReflTransGen Child right left := by
  rcases TransGen.tail'_iff.mp above with ⟨parent, leads, last⟩
  rw [forest.unique child last]
  exact leads

theorem antisymm (forest : Forest Child) (down : ReflTransGen Child left right)
    (up : Above Child right left) : False :=
  forest.acyclic left (up.trans_right down)

/-- Different children of a node lie apart. -/
theorem siblings (forest : Forest Child) (first : Child node left) (second : Child node right)
    (distinct : left ≠ right) : Apart Child left right := by
  refine ⟨distinct, ?_, ?_⟩
  · intro above
    exact forest.antisymm (forest.above_parent second above) (.single first)
  · intro below
    exact forest.antisymm (forest.above_parent first below) (.single second)

end Forest

/-- What lies below one of two nodes that lie apart lies apart from the other one. -/
theorem Apart.below (forest : Forest Child) (apart : Apart Child left right)
    (above : Above Child left node) : Apart Child node right := by
  refine ⟨?_, ?_, ?_⟩
  · rintro rfl
    exact apart.notAbove above
  · intro further
    exact apart.notAbove (above.trans further)
  · intro leads
    rcases forest.comparable above.to_reflTransGen leads.to_reflTransGen with down | up
    · rcases reflTransGen_iff_eq_or_transGen.mp down with same | strict
      · exact apart.ne same.symm
      · exact apart.notAbove strict
    · rcases reflTransGen_iff_eq_or_transGen.mp up with same | strict
      · exact apart.ne same
      · exact apart.notBelow strict

theorem Fair.single (node : α) : Fair Child [] [node] where
  distinct := List.nodup_nil
  apart := List.pairwise_singleton _ _
  done := by simp

/-- A node is taken that was not taken before. -/
theorem Fair.fresh (fair : Fair Child taken (node :: stack)) : (node :: taken).Nodup := by
  rw [List.nodup_cons]
  refine ⟨?_, fair.distinct⟩
  intro mem
  exact fair.done node mem node List.mem_cons_self .refl

theorem Fair.step (forest : Forest Child) (fair : Fair Child taken (node :: stack))
    (below : ∀ later ∈ next, Above Child node later) (apart : next.Pairwise (Apart Child)) :
    Fair Child (node :: taken) (next ++ stack) := by
  rcases List.pairwise_cons.mp fair.apart with ⟨top, rest⟩
  refine ⟨fair.fresh, ?_, ?_⟩
  · rw [List.pairwise_append]
    refine ⟨apart, rest, ?_⟩
    intro later mem waiting waits
    exact (top waiting waits).below forest (below later mem)
  · intro old mem waiting waits leads
    rcases List.mem_append.mp waits with new | before
    · rcases List.mem_cons.mp mem with rfl | earlier
      · exact forest.antisymm leads (below waiting new)
      · exact fair.done old earlier node List.mem_cons_self
          ((below waiting new).trans_left leads).to_reflTransGen
    · rcases List.mem_cons.mp mem with rfl | earlier
      · rcases reflTransGen_iff_eq_or_transGen.mp leads with same | strict
        · exact (top waiting before).ne same
        · exact (top waiting before).notBelow strict
      · exact fair.done old earlier waiting (List.mem_cons_of_mem _ before) leads

/-- If every node is one of `nodes`, no more than those are taken, and nothing waits any more when
so many were. -/
theorem Fair.length_le {nodes : List α} (fair : Fair Child taken stack)
    (within : ∀ old ∈ taken, old ∈ nodes) : taken.length ≤ nodes.length :=
  (List.subperm_of_subset fair.distinct within).length_le

theorem Fair.stack_eq_nil {nodes : List α} (fair : Fair Child taken stack)
    (within : ∀ old ∈ taken, old ∈ nodes) (waiting : ∀ node ∈ stack, node ∈ nodes)
    (all : nodes.length ≤ taken.length) : stack = [] := by
  cases stack with
  | nil => rfl
  | cons node stack =>
      have subset : node :: taken ⊆ nodes := by
        intro old mem
        rcases List.mem_cons.mp mem with rfl | earlier
        · exact waiting old List.mem_cons_self
        · exact within old earlier
      have longer := (List.subperm_of_subset fair.fresh subset).length_le
      rw [List.length_cons] at longer
      omega

theorem Full.single (node : α) : Full Child node [] [node] := by
  intro below leads
  exact Or.inr ⟨node, List.mem_cons_self, leads⟩

/-- All children of the taken node are put on the stack. -/
theorem Full.step (full : Full Child root taken (node :: stack))
    (all : ∀ child, Child node child → child ∈ next) :
    Full Child root (node :: taken) (next ++ stack) := by
  intro below leads
  rcases full below leads with earlier | ⟨waiting, waits, further⟩
  · exact Or.inl (List.mem_cons_of_mem _ earlier)
  · rcases List.mem_cons.mp waits with rfl | before
    · rcases ReflTransGen.cases_head_iff.mp further with rfl | ⟨child, first, rest⟩
      · exact Or.inl List.mem_cons_self
      · exact Or.inr ⟨child, List.mem_append_left _ (all child first), rest⟩
    · exact Or.inr ⟨waiting, List.mem_append_right _ before, further⟩

/-- When nothing waits any more, everything below the start was taken. -/
theorem Full.mem_of_nil (full : Full Child root taken [])
    (leads : ReflTransGen Child root node) : node ∈ taken := by
  rcases full node leads with mem | ⟨waiting, waits, _⟩
  · exact mem
  · cases waits

end Dce.WorkList
