import Dce.Util.AtomTree

/-!
# The paths of a tree

A tree is sound when each of its nodes is at the end of exactly one path of keys
and refers to the node before it as its parent. What a sound tree holds is then
a function of paths, which adding a node changes at one of them.
-/

namespace Dce.ATree

variable {E K : Type} [Ord K] [Std.TransOrd K]

/-- The element at the end of a path. -/
def content (tree : ATree E K) (path : List K) : Option E :=
  (tree.getByPath path).bind tree.element?

/-- Each node is at the end of one path, below its parent. -/
structure Sound (tree : ATree E K) : Prop where
  within {path : List K} {place : Nat} (there : tree.getByPath path = some place) :
    place < tree.nodes.length
  unique {left right : List K} {place : Nat} (atLeft : tree.getByPath left = some place)
    (atRight : tree.getByPath right = some place) : left = right
  reached {place : Nat} (valid : place < tree.nodes.length) :
    ∃ path, tree.getByPath path = some place
  parent {path : List K} {key : K} {place : Nat}
    (there : tree.getByPath (path ++ [key]) = some place) :
    tree.parent place = tree.getByPath path
  rooted : tree.parent 0 = none

variable {tree : ATree E K} {path other : List K} {key : K} {place : Nat} {element : E}

@[simp]
theorem getByPath_nil (tree : ATree E K) : tree.getByPath [] = some 0 := rfl

theorem getFrom_append (tree : ATree E K) (place : Nat) (path later : List K) :
    tree.getFrom place (path ++ later) =
      (tree.getFrom place path).bind fun there => tree.getFrom there later := by
  induction path generalizing place with
  | nil => rfl
  | cons key path ih =>
      rw [List.cons_append, getFrom, getFrom]
      cases tree.get place key with
      | none => rfl
      | some child => exact ih child

theorem getByPath_append (tree : ATree E K) (path : List K) (key : K) :
    tree.getByPath (path ++ [key]) =
      (tree.getByPath path).bind fun place => tree.get place key := by
  rw [getByPath, getFrom_append, getByPath]
  congr 1
  funext place
  rw [getFrom]
  cases tree.get place key <;> rfl

/-- A path to a node goes through nodes. -/
theorem isSome_of_isPrefix (tree : ATree E K) (isPrefix : path <+: other)
    (there : (tree.getByPath other).isSome) : (tree.getByPath path).isSome := by
  rcases isPrefix with ⟨rest, rfl⟩
  rw [getByPath, getFrom_append] at there
  rw [getByPath]
  cases found : tree.getFrom 0 path with
  | none =>
      rw [found] at there
      cases there
  | some place => rfl

omit [Std.TransOrd K] in
theorem element?_isSome_iff : (tree.element? place).isSome ↔ place < tree.nodes.length := by
  simp [element?]

theorem content_isSome (sound : tree.Sound) (path : List K) :
    (tree.content path).isSome = (tree.getByPath path).isSome := by
  rw [content]
  cases there : tree.getByPath path with
  | none => rfl
  | some place =>
      simp only [Option.bind_some, Option.isSome_some, element?_isSome_iff]
      exact sound.within there

/-- A place is at the end of a path, with its element there. -/
theorem Sound.path_of_element (sound : tree.Sound) (held : tree.element? place = some element) :
    ∃ path, tree.getByPath path = some place ∧ tree.content path = some element := by
  have valid : place < tree.nodes.length := element?_isSome_iff.mp (by rw [held]; rfl)
  rcases sound.reached valid with ⟨path, there⟩
  exact ⟨path, there, by rw [content, there, Option.bind_some, held]⟩

theorem node?_set (tree : ATree E K) (place : Nat) (key : K) (element : E) (asked : Nat) :
    (tree.set place key element).nodes[asked]? =
      if asked = tree.nodes.length then some ⟨element, ∅, some place⟩
      else (tree.nodes[asked]?).map fun node =>
        if place = asked then { node with children := node.children.insert key tree.nodes.length }
        else node := by
  rw [set, List.getElem?_append, List.length_modify]
  split
  · rename_i valid
    rw [if_neg (by omega), List.getElem?_modify]
    rfl
  · rename_i beyond
    by_cases last : asked = tree.nodes.length
    · simp [last]
    · have past : tree.nodes.length + 1 ≤ asked := by omega
      simp [last, List.getElem?_eq_none (by omega : tree.nodes.length ≤ asked),
        List.getElem?_eq_none (by simp; omega : [_].length ≤ asked - tree.nodes.length)]

theorem length_set (tree : ATree E K) (place : Nat) (key : K) (element : E) :
    (tree.set place key element).nodes.length = tree.nodes.length + 1 := by
  simp [set]

theorem element?_set (tree : ATree E K) (place : Nat) (key : K) (element : E) (asked : Nat) :
    (tree.set place key element).element? asked =
      if asked = tree.nodes.length then some element else tree.element? asked := by
  rw [element?, node?_set, element?]
  split
  · rfl
  · cases tree.nodes[asked]? with
    | none => rfl
    | some node =>
        rw [Option.map_some, Option.map_some]
        split <;> rfl

theorem parent_set (tree : ATree E K) (place : Nat) (key : K) (element : E) (asked : Nat) :
    (tree.set place key element).parent asked =
      if asked = tree.nodes.length then some place else tree.parent asked := by
  rw [parent, node?_set, parent]
  split
  · rfl
  · cases tree.nodes[asked]? with
    | none => rfl
    | some node =>
        rw [Option.map_some, Option.bind_some]
        split <;> rfl

variable [Std.LawfulEqOrd K] [DecidableEq K]

theorem get_set (valid : place < tree.nodes.length) (asked : Nat) (key' : K) :
    (tree.set place key element).get asked key' =
      if asked = place ∧ key' = key then some tree.nodes.length else tree.get asked key' := by
  rw [get, children, node?_set, get, children]
  by_cases last : asked = tree.nodes.length
  · subst last
    have other : tree.nodes.length ≠ place := by omega
    simp [other]
  · rw [if_neg last]
    cases held : tree.nodes[asked]? with
    | none =>
        have other : asked ≠ place := by
          rintro rfl
          rw [List.getElem?_eq_none_iff] at held
          omega
        simp [other]
    | some node =>
        by_cases here : asked = place
        · subst here
          by_cases same : key' = key
          · simp [same]
          · simp [same, Std.ExtTreeMap.getElem?_insert, Ne.symm same]
        · simp [here, Ne.symm here]

/-- A new node is at the end of one new path. -/
theorem getByPath_set (sound : tree.Sound) (there : tree.getByPath path = some place)
    (fresh : tree.getByPath (path ++ [key]) = none) (element : E) (asked : List K) :
    (tree.set place key element).getByPath asked =
      if asked = path ++ [key] then some tree.nodes.length else tree.getByPath asked := by
  have valid := sound.within there
  induction asked using List.reverseRecOn with
  | nil => simp
  | append_singleton asked last ih =>
      rw [getByPath_append, ih, getByPath_append]
      by_cases new : asked = path ++ [key]
      · have longer : asked ++ [last] ≠ path ++ [key] := by
          intro same
          have lengths := congrArg List.length (new ▸ same)
          simp at lengths
        have below : tree.get tree.nodes.length last = none := by
          simp [get, children]
        have old : tree.getByPath asked = none := by rw [new, fresh]
        rw [if_pos new, if_neg longer, Option.bind_some, get_set valid, old, below,
          if_neg (by omega)]
        rfl
      · rw [if_neg new]
        cases found : tree.getByPath asked with
        | none =>
            have other : asked ≠ path := by
              rintro rfl
              rw [there] at found
              cases found
            simp [other]
        | some middle =>
            rw [Option.bind_some, Option.bind_some, get_set valid]
            by_cases here : middle = place
            · have same := sound.unique (here ▸ found) there
              simp [here, same]
            · have other : asked ≠ path := by
                rintro rfl
                exact here (Option.some.inj (found.symm.trans there))
              simp [here, other]

theorem content_set (sound : tree.Sound) (there : tree.getByPath path = some place)
    (fresh : tree.getByPath (path ++ [key]) = none) (element : E) (asked : List K) :
    (tree.set place key element).content asked =
      if asked = path ++ [key] then some element else tree.content asked := by
  rw [content, getByPath_set sound there fresh, content]
  split
  · simp [element?_set]
  · cases found : tree.getByPath asked with
    | none => rfl
    | some middle =>
        have valid := sound.within found
        rw [Option.bind_some, Option.bind_some, element?_set, if_neg (by omega)]

theorem Sound.set (sound : tree.Sound) (there : tree.getByPath path = some place)
    (fresh : tree.getByPath (path ++ [key]) = none) (element : E) :
    (tree.set place key element).Sound := by
  have valid := sound.within there
  have paths := getByPath_set sound there fresh element
  refine ⟨?within, ?unique, ?reached, ?parent, ?rooted⟩
  case within =>
    intro asked found held
    rw [paths] at held
    rw [length_set]
    split at held
    · cases held
      omega
    · have := sound.within held
      omega
  case unique =>
    intro left right found atLeft atRight
    rw [paths] at atLeft atRight
    split at atLeft
    · rename_i leftNew
      split at atRight
      · rename_i rightNew
        exact leftNew.trans rightNew.symm
      · cases atLeft
        have := sound.within atRight
        omega
    · split at atRight
      · cases atRight
        have := sound.within atLeft
        omega
      · exact sound.unique atLeft atRight
  case reached =>
    intro asked bound
    rw [length_set] at bound
    by_cases last : asked = tree.nodes.length
    · exact ⟨path ++ [key], by rw [paths, if_pos rfl, last]⟩
    · rcases sound.reached (show asked < tree.nodes.length by omega) with ⟨old, held⟩
      refine ⟨old, ?_⟩
      have other : old ≠ path ++ [key] := by
        rintro rfl
        rw [fresh] at held
        cases held
      rw [paths, if_neg other, held]
  case parent =>
    intro asked last found held
    rw [paths] at held
    have above : asked ≠ path ++ [key] := by
      intro new
      have longer : asked ++ [last] ≠ path ++ [key] := by
        intro same
        have lengths := congrArg List.length (new ▸ same)
        simp at lengths
      rw [if_neg longer] at held
      have through := isSome_of_isPrefix tree (List.prefix_append asked [last]) (by simp [held])
      rw [new, fresh] at through
      cases through
    rw [paths, if_neg above, parent_set]
    split at held
    · rename_i same
      rcases List.append_inj' same rfl with ⟨rfl, _⟩
      cases held
      rw [if_pos rfl, there]
    · have old := sound.within held
      rw [if_neg (by omega)]
      exact sound.parent held
  case rooted =>
    rw [parent_set, if_neg (by omega)]
    exact sound.rooted

omit [Std.LawfulEqOrd K] [DecidableEq K] in
/-- A node takes its children among the elements. -/
theorem buildFrom_cons [KeyFactory E K] {parent : E} (held : tree.element? place = some parent)
    (fuel : Nat) (stack : List Nat) (elements : List E) :
    let placed :=
      setAll place (elements.filter (KeyFactory.childOf · parent)).reverse (tree, stack)
    buildFrom (fuel + 1) (place :: stack) elements tree =
      buildFrom fuel placed.2 (elements.filter (!KeyFactory.childOf · parent)) placed.1 := by
  rw [buildFrom, held]
  simp only [List.partition_eq_filter_filter]
  rfl

omit [Std.LawfulEqOrd K] [DecidableEq K] in
theorem setByPath_eq (there : tree.getByPath path = some place) (key : K) (element : E) :
    tree.setByPath (path ++ [key]) element = tree.set place key element := by
  simp [setByPath, there]

/-- Elements are set by new paths, each of which goes on from the tree or from one before it. -/
theorem Sound.foldl_setByPath {entries : List (List K × E)} (sound : tree.Sound)
    (nonempty : ∀ entry ∈ entries, entry.1 ≠ [])
    (fresh : ∀ entry ∈ entries, tree.getByPath entry.1 = none)
    (distinct : (entries.map Prod.fst).Nodup)
    (grounded : ∀ before entry after, entries = before ++ entry :: after →
      (tree.getByPath entry.1.dropLast).isSome ∨ entry.1.dropLast ∈ before.map Prod.fst) :
    let final := entries.foldl (fun tree (path, element) => tree.setByPath path element) tree
    final.Sound ∧ (∀ entry ∈ entries, final.content entry.1 = some entry.2) ∧
      ∀ path, path ∉ entries.map Prod.fst → final.content path = tree.content path := by
  induction entries generalizing tree with
  | nil => exact ⟨sound, by simp, fun path _ => rfl⟩
  | cons entry entries ih =>
      rcases entry with ⟨path, element⟩
      rcases List.eq_nil_or_concat path with empty | ⟨parents, key, rfl⟩
      · exact absurd empty (nonempty _ List.mem_cons_self)
      · simp only [List.concat_eq_append] at *
        have ground := grounded [] _ entries rfl
        simp only [List.dropLast_concat, List.map_nil, List.not_mem_nil, or_false] at ground
        rcases Option.isSome_iff_exists.mp ground with ⟨place, there⟩
        have new : tree.getByPath (parents ++ [key]) = none := fresh _ List.mem_cons_self
        have paths := getByPath_set sound there new element
        have held := content_set sound there new element
        simp only [List.map_cons, List.nodup_cons] at distinct
        have later := ih (sound.set there new element)
          (fun entry mem => nonempty entry (List.mem_cons_of_mem _ mem))
          (fun entry mem => by
            have other : entry.1 ≠ parents ++ [key] := by
              intro same
              exact distinct.1 (List.mem_map.mpr ⟨entry, mem, same⟩)
            rw [paths, if_neg other]
            exact fresh entry (List.mem_cons_of_mem _ mem))
          distinct.2
          (fun before entry after split => by
            rcases grounded (⟨parents ++ [key], element⟩ :: before) entry after
              (by rw [split]; rfl)
              with old | earlier
            · left
              rw [paths]
              split
              · rfl
              · exact old
            · rcases List.mem_cons.mp earlier with first | within
              · left
                rw [paths, if_pos first]
                rfl
              · exact Or.inr within)
        rw [List.foldl_cons, setByPath_eq there]
        refine ⟨later.1, ?_, ?_⟩
        · intro entry mem
          rcases List.mem_cons.mp mem with rfl | within
          · rw [later.2.2 _ distinct.1, held, if_pos rfl]
          · exact later.2.1 entry within
        · intro asked absent
          rw [List.map_cons, List.mem_cons, not_or] at absent
          rw [later.2.2 asked absent.2, held, if_neg absent.1]

end Dce.ATree
