import Mathlib.Data.Fintype.Card
import Dce.Util.TreeLinks

/-!
# Twin trees

Two sound trees with the same paths differ in the places of their nodes only. A
traversal goes through the nodes at the end of the same paths in the same order.
-/

namespace Dce.ATree

variable {E K : Type} [Ord K] [Std.TransOrd K]

/-- Nodes of two trees at the end of the same path. -/
def Twins (left right : ATree E K) (place place' : Nat) : Prop :=
  ∃ path, left.getByPath path = some place ∧ right.getByPath path = some place'

/-- Sound trees that hold the same at the end of each path. -/
structure Paired (left right : ATree E K) : Prop where
  sound : left.Sound
  sound' : right.Sound
  same (path : List K) : left.content path = right.content path

variable {left right : ATree E K} {place place' other other' : Nat}

namespace Paired

theorem symm (paired : Paired left right) : Paired right left :=
  ⟨paired.sound', paired.sound, fun path => (paired.same path).symm⟩

theorem isSome_getByPath (paired : Paired left right) (path : List K) :
    (left.getByPath path).isSome = (right.getByPath path).isSome := by
  rw [← content_isSome paired.sound, ← content_isSome paired.sound', paired.same]

theorem twin_of_getByPath (paired : Paired left right) {path : List K}
    (there : left.getByPath path = some place) :
    ∃ place', right.getByPath path = some place' ∧ Twins left right place place' := by
  have isSome : (right.getByPath path).isSome := by
    rw [← paired.isSome_getByPath, there]
    rfl
  rcases Option.isSome_iff_exists.mp isSome with ⟨place', there'⟩
  exact ⟨place', there', path, there, there'⟩

theorem exists_twin (paired : Paired left right) (valid : place < left.nodes.length) :
    ∃ place', Twins left right place place' := by
  rcases paired.sound.reached valid with ⟨path, there⟩
  rcases paired.twin_of_getByPath there with ⟨place', _, twins⟩
  exact ⟨place', twins⟩

end Paired

namespace Twins

theorem symm (twins : Twins left right place place') : Twins right left place' place := by
  rcases twins with ⟨path, there, there'⟩
  exact ⟨path, there', there⟩

theorem root (left right : ATree E K) : Twins left right 0 0 := ⟨[], rfl, rfl⟩

theorem right_unique (paired : Paired left right) (twins : Twins left right place place')
    (twins' : Twins left right place other') : place' = other' := by
  rcases twins with ⟨path, there, there'⟩
  rcases twins' with ⟨path', again, again'⟩
  rw [paired.sound.unique there again, again'] at there'
  exact (Option.some.inj there').symm

theorem left_unique (paired : Paired left right) (twins : Twins left right place place')
    (twins' : Twins left right other place') : place = other :=
  right_unique paired.symm twins.symm twins'.symm

/-- Twins are the same nodes of their trees, or neither are. -/
theorem eq_iff (paired : Paired left right) (twins : Twins left right place place')
    (twins' : Twins left right other other') : place = other ↔ place' = other' := by
  constructor
  · rintro rfl
    exact right_unique paired twins twins'
  · rintro rfl
    exact left_unique paired twins twins'

theorem element? (paired : Paired left right) (twins : Twins left right place place') :
    left.element? place = right.element? place' := by
  rcases twins with ⟨path, there, there'⟩
  have same := paired.same path
  rw [content, content, there, there'] at same
  exact same

/-- The same keys lead from twins to twins. -/
theorem get (paired : Paired left right) (twins : Twins left right place place') (key : K) :
    Option.Rel (Twins left right) (left.get place key) (right.get place' key) := by
  rcases twins with ⟨path, there, there'⟩
  have step {tree : ATree E K} {place : Nat} (there : tree.getByPath path = some place) :
      tree.getByPath (path ++ [key]) = tree.get place key := by
    rw [getByPath_append, there, Option.bind_some]
  have alike := paired.isSome_getByPath (path ++ [key])
  rw [step there, step there'] at alike
  cases below : left.get place key with
  | none =>
      cases below' : right.get place' key with
      | none => exact .none
      | some child' =>
          rw [below, below'] at alike
          cases alike
  | some child =>
      cases below' : right.get place' key with
      | none =>
          rw [below, below'] at alike
          cases alike
      | some child' =>
          exact .some ⟨path ++ [key], (step there).trans below, (step there').trans below'⟩

/-- Twins have twin parents. -/
theorem parent (paired : Paired left right) (twins : Twins left right place place') :
    Option.Rel (Twins left right) (left.parent place) (right.parent place') := by
  rcases twins with ⟨path, there, there'⟩
  cases path using List.reverseRecOn with
  | nil =>
      cases there
      cases there'
      rw [paired.sound.rooted, paired.sound'.rooted]
      exact .none
  | append_singleton path key =>
      rw [paired.sound.parent there, paired.sound'.parent there']
      have above := isSome_of_isPrefix left (List.prefix_append path [key]) (by rw [there]; rfl)
      rcases Option.isSome_iff_exists.mp above with ⟨upper, atUpper⟩
      rcases paired.twin_of_getByPath atUpper with ⟨upper', atUpper', upperTwins⟩
      rw [atUpper, atUpper']
      exact .some upperTwins

end Twins

theorem Paired.length_le (paired : Paired left right) :
    left.nodes.length ≤ right.nodes.length := by
  have twin (place : Fin left.nodes.length) :
      ∃ place' : Fin right.nodes.length, Twins left right place place' := by
    rcases paired.exists_twin place.isLt with ⟨place', path, there, there'⟩
    exact ⟨⟨place', paired.sound'.within there'⟩, path, there, there'⟩
  choose twinOf twins using twin
  have injective : Function.Injective twinOf := by
    intro place other same
    have twins' := twins other
    rw [← same] at twins'
    exact Fin.ext ((twins place).left_unique paired twins')
  simpa using Fintype.card_le_of_injective twinOf injective

theorem Paired.length_eq (paired : Paired left right) :
    left.nodes.length = right.nodes.length :=
  Nat.le_antisymm paired.length_le paired.symm.length_le

theorem keys_eq_of_mem_iff [Std.LawfulEqOrd K] {links links' : Std.ExtTreeMap K Nat}
    (same : ∀ key, key ∈ links ↔ key ∈ links') : links.keys = links'.keys := by
  have perm : links.keys.Perm links'.keys := by
    rw [List.perm_ext_iff_of_nodup Std.ExtTreeMap.nodup_keys Std.ExtTreeMap.nodup_keys]
    intro key
    rw [Std.ExtTreeMap.mem_keys, Std.ExtTreeMap.mem_keys, same]
  refine List.Perm.eq_of_pairwise ?_ Std.ExtTreeMap.ordered_keys Std.ExtTreeMap.ordered_keys perm
  intro first second _ _ before after
  rw [Std.OrientedOrd.eq_swap, after] at before
  cases before

theorem values_eq_filterMap [Std.LawfulEqOrd K] (links : Std.ExtTreeMap K Nat) :
    links.values = links.keys.filterMap fun key => links[key]? := by
  rw [values_eq, ← Std.ExtTreeMap.map_fst_toList_eq_keys, List.filterMap_map]
  rw [← List.filterMap_eq_map]
  refine List.filterMap_congr fun link mem => ?_
  exact (Std.ExtTreeMap.mem_toList_iff_getElem?_eq_some.mp mem).symm

theorem isSome_eq_of_rel {α β : Type} {relation : α → β → Prop} {value : Option α}
    {value' : Option β} (related : Option.Rel relation value value') :
    value.isSome = value'.isSome := by
  cases related with
  | some one => rfl
  | none => rfl

theorem forall₂_filterMap {α β γ : Type} {relation : β → γ → Prop}
    {first : α → Option β}
    {second : α → Option γ}
    (related : ∀ value, Option.Rel relation (first value) (second value))
    (values : List α) :
    List.Forall₂ relation (values.filterMap first) (values.filterMap second) := by
  induction values with
  | nil => exact .nil
  | cons value values ih =>
      have here := related value
      rw [List.filterMap_cons, List.filterMap_cons]
      cases left : first value with
      | none =>
          rw [left] at here
          cases right : second value with
          | none => exact ih
          | some _ =>
              rw [right] at here
              cases here
      | some _ =>
          rw [left] at here
          cases right : second value with
          | none =>
              rw [right] at here
              cases here
          | some _ =>
              rw [right] at here
              cases here with
              | some one => exact .cons one ih

variable [Std.LawfulEqOrd K]

/-- Twins have twin children, in the same order. -/
theorem Twins.values (paired : Paired left right) (twins : Twins left right place place') :
    List.Forall₂ (Twins left right) (left.children place).values
      (right.children place').values := by
  have same (key : K) : key ∈ left.children place ↔ key ∈ right.children place' := by
    have alike := isSome_eq_of_rel (twins.get paired key)
    rw [ATree.get, ATree.get] at alike
    rw [← Std.ExtTreeMap.isSome_getElem?_iff_mem,
      ← Std.ExtTreeMap.isSome_getElem?_iff_mem, alike]
  rw [values_eq_filterMap, values_eq_filterMap, keys_eq_of_mem_iff same]
  exact forall₂_filterMap (fun key => twins.get paired key) _

/-- Traversals from twins come to twins. -/
theorem Paired.visits (paired : Paired left right) (fuel : Nat) {stack stack' : List Nat}
    (twins : List.Forall₂ (Twins left right) stack stack') :
    List.Forall₂ (Twins left right) (left.visits fuel stack) (right.visits fuel stack') := by
  induction fuel generalizing stack stack' with
  | zero => exact .nil
  | succ fuel ih =>
      cases twins with
      | nil => exact .nil
      | cons top rest =>
          have children := top.values paired
          exact List.rel_append children (ih (List.rel_append children rest))

end Dce.ATree
