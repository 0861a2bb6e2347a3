import Dce.Lib.WorkList
import Dce.Util.TreePaths

/-!
# The links of a tree

However a tree was put together, the keys of a node lead to later nodes, each of
which refers back to it. So the nodes are a forest, and a traversal calls back
on each node below the root once.
-/

namespace Dce.ATree

open Relation WorkList

variable {E K : Type} [Ord K] [Std.TransOrd K]

/-- A key of the upper node leads to the lower one. -/
def Child (tree : ATree E K) (upper lower : Nat) : Prop := ∃ key, tree.get upper key = some lower

/-- Keys lead to later nodes, which have one parent and one key below it. -/
structure Linked (tree : ATree E K) : Prop where
  inhabited : 0 < tree.nodes.length
  rooted : tree.parent 0 = none
  later {upper lower : Nat} (child : tree.Child upper lower) : upper < lower
  within {upper lower : Nat} (child : tree.Child upper lower) : lower < tree.nodes.length
  parent {upper lower : Nat} (child : tree.Child upper lower) : tree.parent lower = some upper
  unique {upper lower : Nat} {left right : K} (atLeft : tree.get upper left = some lower)
    (atRight : tree.get upper right = some lower) : left = right

/-- Nodes were added, with elements that `Holds`. -/
inductive Grown (Holds : E → Prop) (tree : ATree E K) : ATree E K → Prop where
  | refl : Grown Holds tree tree
  | set {grown : ATree E K} (earlier : Grown Holds tree grown) {place : Nat}
      (valid : place < grown.nodes.length) (key : K) {element : E} (holds : Holds element) :
      Grown Holds tree (grown.set place key element)

/-- The links stay, whatever the elements are. -/
structure SameLinks (tree changed : ATree E K) : Prop where
  length : changed.nodes.length = tree.nodes.length
  children (place : Nat) : changed.children place = tree.children place
  parent (place : Nat) : changed.parent place = tree.parent place

/-- The nodes that a traversal calls back on. -/
def visits (tree : ATree E K) : Nat → List Nat → List Nat
  | 0, _ => []
  | _ + 1, [] => []
  | fuel + 1, place :: nodes =>
      (tree.children place).values ++ tree.visits fuel ((tree.children place).values ++ nodes)

variable {tree changed grown : ATree E K} {Holds : E → Prop} {place : Nat} {key : K} {element : E}

theorem reach_of_getFrom {start : Nat} {path : List K}
    (there : tree.getFrom start path = some place) : ReflTransGen tree.Child start place := by
  induction path generalizing start with
  | nil =>
      cases there
      exact .refl
  | cons key path ih =>
      rw [getFrom] at there
      rcases Option.bind_eq_some_iff.mp there with ⟨child, below, further⟩
      exact (ih further).head ⟨key, below⟩

theorem reach_of_getByPath {path : List K}
    (there : tree.getByPath path = some place) : ReflTransGen tree.Child 0 place :=
  reach_of_getFrom there

namespace Linked

theorem later_of_above (linked : tree.Linked) {upper lower : Nat}
    (above : Above tree.Child upper lower) : upper < lower := by
  induction above with
  | single child => exact linked.later child
  | tail _ child ih => exact ih.trans (linked.later child)

theorem forest (linked : tree.Linked) : Forest tree.Child where
  unique ofLeft ofRight :=
    Option.some.inj ((linked.parent ofLeft).symm.trans (linked.parent ofRight))
  acyclic node above := Nat.lt_irrefl node (linked.later_of_above above)

theorem lt_of_above (linked : tree.Linked) {upper lower : Nat}
    (above : Above tree.Child upper lower) : lower < tree.nodes.length := by
  rcases TransGen.tail'_iff.mp above with ⟨parent, _, last⟩
  exact linked.within last

theorem lt_of_reach (linked : tree.Linked) {node : Nat}
    (reach : ReflTransGen tree.Child 0 node) : node < tree.nodes.length := by
  rcases reflTransGen_iff_eq_or_transGen.mp reach with rfl | above
  · exact linked.inhabited
  · exact linked.lt_of_above above

theorem new (element : E) : (ATree.new element : ATree E K).Linked := by
  have childless {upper lower : Nat} : ¬(ATree.new element : ATree E K).Child upper lower := by
    rintro ⟨key, found⟩
    cases upper with
    | zero => simp [ATree.new, get, children] at found
    | succ upper => simp [ATree.new, get, children] at found
  constructor
  · exact Nat.one_pos
  · rfl
  · intro _ _ child
    exact absurd child childless
  · intro _ _ child
    exact absurd child childless
  · intro _ _ child
    exact absurd child childless
  · intro _ _ key _ found
    exact absurd ⟨key, found⟩ childless

end Linked

namespace Grown

theorem holds (grown' : Grown Holds tree grown)
    (all : ∀ place element, tree.element? place = some element → Holds element)
    (held : grown.element? place = some element) : Holds element := by
  induction grown' generalizing place with
  | refl => exact all place element held
  | set earlier valid key holds ih =>
      rw [element?_set] at held
      split at held
      · cases held
        exact holds
      · exact ih held

theorem trans {middle : ATree E K} (first : Grown Holds tree middle)
    (second : Grown Holds middle grown) : Grown Holds tree grown := by
  induction second with
  | refl => exact first
  | set earlier valid key holds ih => exact ih.set valid key holds

theorem setByPath (linked : tree.Linked) (path : List K) (holds : Holds element) :
    Grown Holds tree (tree.setByPath path element) := by
  rw [ATree.setByPath]
  split
  · exact .refl
  · split
    · rename_i parent found
      exact Grown.refl.set (linked.lt_of_reach (reach_of_getByPath found)) _ holds
    · exact .refl

variable [KeyFactory E K]

/-- Elements are put below a node of the tree, and the new nodes are nodes of the new tree. -/
theorem setAll {elements : List E} (holds : ∀ element ∈ elements, Holds element)
    (valid : place < tree.nodes.length) {stack : List Nat}
    (within : ∀ waiting ∈ stack, waiting < tree.nodes.length) :
    Grown Holds tree (ATree.setAll place elements (tree, stack)).1 ∧
      ∀ waiting ∈ (ATree.setAll place elements (tree, stack)).2,
        waiting < (ATree.setAll place elements (tree, stack)).1.nodes.length := by
  induction elements generalizing tree stack with
  | nil => exact ⟨.refl, within⟩
  | cons element elements ih =>
      rw [ATree.setAll]
      have longer := length_set tree place (KeyFactory.key element) element
      have waiting : ∀ waiting ∈ tree.nodes.length :: stack,
          waiting < (tree.set place (KeyFactory.key element) element).nodes.length := by
        intro waiting mem
        rcases List.mem_cons.mp mem with rfl | before
        · omega
        · have := within waiting before
          omega
      rcases ih (fun later mem => holds later (List.mem_cons_of_mem _ mem)) (by omega) waiting
        with ⟨grown, waits⟩
      have first : Grown Holds tree (tree.set place (KeyFactory.key element) element) :=
        Grown.refl.set valid _ (holds element List.mem_cons_self)
      exact ⟨first.trans grown, waits⟩

theorem buildFrom (fuel : Nat) {stack : List Nat} {elements : List E}
    (holds : ∀ element ∈ elements, Holds element)
    (within : ∀ waiting ∈ stack, waiting < tree.nodes.length) :
    Grown Holds tree (ATree.buildFrom fuel stack elements tree).1 ∧
      ∀ element ∈ (ATree.buildFrom fuel stack elements tree).2, Holds element := by
  induction fuel generalizing stack elements tree with
  | zero => exact ⟨.refl, holds⟩
  | succ fuel ih =>
      cases stack with
      | nil => exact ⟨.refl, holds⟩
      | cons place stack =>
          have valid := within place List.mem_cons_self
          rcases Option.isSome_iff_exists.mp (element?_isSome_iff.mpr valid) with ⟨parent, held⟩
          have taken : ∀ element ∈ (elements.filter (KeyFactory.childOf · parent)).reverse,
              Holds element := by
            intro element mem
            exact holds element (List.mem_of_mem_filter (List.mem_reverse.mp mem))
          have left : ∀ element ∈ elements.filter (!KeyFactory.childOf · parent),
              Holds element := by
            intro element mem
            exact holds element (List.mem_of_mem_filter mem)
          rw [buildFrom_cons held]
          rcases setAll taken valid fun waiting mem => within waiting (List.mem_cons_of_mem _ mem)
            with ⟨grown, waits⟩
          rcases ih left waits with ⟨further, rest⟩
          exact ⟨grown.trans further, rest⟩

end Grown

section Linking

variable [Std.LawfulEqOrd K] [DecidableEq K]

theorem Linked.set (linked : tree.Linked) (valid : place < tree.nodes.length) (key : K)
    (element : E) : (tree.set place key element).Linked := by
  have links {upper lower : Nat} (child : (tree.set place key element).Child upper lower) :
      upper = place ∧ lower = tree.nodes.length ∨ tree.Child upper lower := by
    rcases child with ⟨key', found⟩
    rw [get_set valid] at found
    split at found
    · rename_i new
      cases found
      exact Or.inl ⟨new.1, rfl⟩
    · exact Or.inr ⟨key', found⟩
  refine ⟨?inhabited, ?rooted, ?later, ?within, ?parent, ?unique⟩
  case inhabited =>
    rw [length_set]
    omega
  case rooted =>
    have inhabited := linked.inhabited
    rw [parent_set, if_neg (by omega)]
    exact linked.rooted
  case later =>
    intro upper lower child
    rcases links child with ⟨rfl, rfl⟩ | old
    · exact valid
    · exact linked.later old
  case within =>
    intro upper lower child
    rw [length_set]
    rcases links child with ⟨rfl, rfl⟩ | old
    · omega
    · have := linked.within old
      omega
  case parent =>
    intro upper lower child
    rw [parent_set]
    rcases links child with ⟨rfl, rfl⟩ | old
    · rw [if_pos rfl]
    · have := linked.within old
      rw [if_neg (by omega)]
      exact linked.parent old
  case unique =>
    intro upper lower left right atLeft atRight
    rw [get_set valid] at atLeft atRight
    split at atLeft
    · rename_i newLeft
      split at atRight
      · rename_i newRight
        exact newLeft.2.trans newRight.2.symm
      · cases atLeft
        exact absurd (linked.within ⟨right, atRight⟩) (Nat.lt_irrefl _)
    · split at atRight
      · cases atRight
        exact absurd (linked.within ⟨left, atLeft⟩) (Nat.lt_irrefl _)
      · exact linked.unique atLeft atRight

theorem Grown.linked (grown' : Grown Holds tree grown) (linked : tree.Linked) : grown.Linked := by
  induction grown' with
  | refl => exact linked
  | set earlier valid key holds ih => exact ih.set valid key _

end Linking

namespace SameLinks

omit [Std.TransOrd K] in
theorem refl (tree : ATree E K) : SameLinks tree tree := ⟨rfl, fun _ => rfl, fun _ => rfl⟩

omit [Std.TransOrd K] in
theorem trans {middle : ATree E K} (first : SameLinks tree middle)
    (second : SameLinks middle changed) : SameLinks tree changed where
  length := second.length.trans first.length
  children place := (second.children place).trans (first.children place)
  parent place := (second.parent place).trans (first.parent place)

theorem get (same : SameLinks tree changed) (place : Nat) (key : K) :
    changed.get place key = tree.get place key := by
  rw [ATree.get, ATree.get, same.children]

theorem child (same : SameLinks tree changed) : changed.Child = tree.Child := by
  funext upper lower
  exact propext (exists_congr fun key => by rw [same.get])

omit [Std.TransOrd K] in
theorem write (tree : ATree E K) (place : Nat) (change : E → E) :
    SameLinks tree (tree.write place change) := by
  have nodes (asked : Nat) : (tree.write place change).nodes[asked]? =
      (tree.nodes[asked]?).map fun node =>
        if place = asked then { node with element := change node.element } else node := by
    rw [ATree.write, List.getElem?_modify]
    rfl
  refine ⟨?_, ?_, ?_⟩
  · rw [ATree.write, List.length_modify]
  · intro asked
    rw [ATree.children, ATree.children, nodes]
    cases tree.nodes[asked]? with
    | none => rfl
    | some node =>
        rw [Option.map_some, Option.map_some]
        split
        · rfl
        · rfl
  · intro asked
    rw [ATree.parent, ATree.parent, nodes]
    cases tree.nodes[asked]? with
    | none => rfl
    | some node =>
        rw [Option.map_some, Option.bind_some]
        split
        · rfl
        · rfl

theorem visits (same : SameLinks tree changed) (fuel : Nat) (stack : List Nat) :
    changed.visits fuel stack = tree.visits fuel stack := by
  induction fuel generalizing stack with
  | zero => rfl
  | succ fuel ih =>
      cases stack with
      | nil => rfl
      | cons place stack => rw [ATree.visits, ATree.visits, same.children, ih]

end SameLinks

omit [Std.TransOrd K] in
theorem element?_write (tree : ATree E K) (place : Nat) (change : E → E) (asked : Nat) :
    (tree.write place change).element? asked =
      if place = asked then (tree.element? asked).map change else tree.element? asked := by
  rw [element?, element?, write, List.getElem?_modify]
  cases tree.nodes[asked]? with
  | none => simp
  | some node =>
      by_cases here : place = asked
      · simp [here]
      · simp [here]

section Traversal

variable {ε : Type} {callback : Nat → ATree E K → Outcome ε (ATree E K)}

/-- A traversal with a callback that keeps the links calls back on the nodes in their order. -/
theorem traverseFrom_eq
    (keeps : ∀ place before after, callback place before = .ok after → SameLinks before after)
    (fuel : Nat) (stack : List Nat) (tree : ATree E K) :
    traverseFrom callback fuel stack tree =
      (tree.visits fuel stack).foldlM (fun tree place => callback place tree) tree := by
  have keepsAll (places : List Nat) {before after : ATree E K}
      (all : places.foldlM (fun tree place => callback place tree) before = .ok after) :
      SameLinks before after := by
    induction places generalizing before with
    | nil =>
        cases all
        exact .refl _
    | cons place places ih =>
        rw [List.foldlM_cons] at all
        rcases Outcome.bind_eq_ok.mp all with ⟨middle, first, rest⟩
        exact (keeps place before middle first).trans (ih rest)
  induction fuel generalizing stack tree with
  | zero => rfl
  | succ fuel ih =>
      cases stack with
      | nil => rfl
      | cons place stack =>
          rw [traverseFrom, visits, List.foldlM_append]
          cases called : (tree.children place).values.foldlM
              (fun tree child => callback child tree) tree with
          | ok after =>
              rw [Outcome.bind_ok, Outcome.bind_ok, ih, (keepsAll _ called).visits]
          | err error => rfl
          | panic => rfl


end Traversal

theorem values_eq (links : Std.ExtTreeMap K Nat) : links.values = links.toList.map Prod.snd := by
  have folded : links.values = links.foldr (fun _ value values => value :: values) [] := by
    rcases links with ⟨⟨links⟩⟩
    rfl
  rw [folded, Std.ExtTreeMap.foldr_eq_foldr_toList]
  induction links.toList with
  | nil => rfl
  | cons link rest ih => rw [List.foldr_cons, ih, List.map_cons]

variable [Std.LawfulEqOrd K]

theorem mem_values_children {upper lower : Nat} :
    lower ∈ (tree.children upper).values ↔ tree.Child upper lower := by
  rw [values_eq, List.mem_map]
  constructor
  · rintro ⟨⟨key, place⟩, mem, rfl⟩
    exact ⟨key, Std.ExtTreeMap.mem_toList_iff_getElem?_eq_some.mp mem⟩
  · rintro ⟨key, found⟩
    exact ⟨(key, lower), Std.ExtTreeMap.mem_toList_iff_getElem?_eq_some.mpr found, rfl⟩

theorem Linked.nodup_values (linked : tree.Linked) (upper : Nat) :
    (tree.children upper).values.Nodup := by
  rw [values_eq, List.Nodup, List.pairwise_map]
  refine Std.ExtTreeMap.distinct_keys_toList.imp_of_mem ?_
  rintro ⟨left, place⟩ ⟨right, other⟩ memLeft memRight distinct same
  cases same
  have key := linked.unique (Std.ExtTreeMap.mem_toList_iff_getElem?_eq_some.mp memLeft)
    (Std.ExtTreeMap.mem_toList_iff_getElem?_eq_some.mp memRight)
  rw [key] at distinct
  exact distinct Std.ReflCmp.compare_self

/-- A traversal that has taken some nodes off its stack goes on to call back on the children of the
other nodes, once on each. -/
theorem visits_spec (linked : tree.Linked) (fuel : Nat) {taken stack : List Nat}
    (fair : Fair tree.Child taken stack) (full : Full tree.Child 0 taken stack)
    (known : ∀ old ∈ taken, ReflTransGen tree.Child 0 old)
    (reached : ∀ waiting ∈ stack, ReflTransGen tree.Child 0 waiting)
    (enough : tree.nodes.length ≤ taken.length + fuel) :
    (tree.visits fuel stack).Nodup ∧ ∀ node, node ∈ tree.visits fuel stack ↔
      ∃ upper, upper ∉ taken ∧ ReflTransGen tree.Child 0 upper ∧ tree.Child upper node := by
  have inRange {places : List Nat} (all : ∀ place ∈ places, ReflTransGen tree.Child 0 place) :
      ∀ place ∈ places, place ∈ List.range tree.nodes.length := by
    intro place mem
    exact List.mem_range.mpr (linked.lt_of_reach (all place mem))
  have ended {taken : List Nat} (full : Full tree.Child 0 taken []) (node : Nat) :
      ¬∃ upper, upper ∉ taken ∧
        ReflTransGen tree.Child 0 upper ∧ tree.Child upper node := by
    rintro ⟨upper, untaken, leads, _⟩
    exact untaken (full.mem_of_nil leads)
  induction fuel generalizing taken stack with
  | zero =>
      have nothing := fair.stack_eq_nil (inRange known) (inRange reached)
        (by rw [List.length_range]; exact enough)
      rw [nothing] at full
      exact ⟨List.nodup_nil, fun node => iff_of_false List.not_mem_nil (ended full node)⟩
  | succ fuel ih =>
      cases stack with
      | nil =>
        exact ⟨List.nodup_nil, fun node => iff_of_false List.not_mem_nil (ended full node)⟩
      | cons place stack =>
          have top := reached place List.mem_cons_self
          have children {child : Nat} : child ∈ (tree.children place).values →
              Above tree.Child place child := by
            intro mem
            exact .single (mem_values_children.mp mem)
          have siblings : (tree.children place).values.Pairwise (Apart tree.Child) := by
            refine (linked.nodup_values place).imp_of_mem ?_
            intro left right memLeft memRight distinct
            exact linked.forest.siblings (mem_values_children.mp memLeft)
              (mem_values_children.mp memRight) distinct
          have fresh := (List.nodup_cons.mp fair.fresh).1
          have fair := fair.step linked.forest (fun _ => children) siblings
          have full : Full tree.Child 0 (place :: taken) ((tree.children place).values ++ stack) :=
            full.step fun child below => mem_values_children.mpr below
          have known : ∀ old ∈ place :: taken, ReflTransGen tree.Child 0 old := by
            intro old mem
            rcases List.mem_cons.mp mem with rfl | earlier
            · exact top
            · exact known old earlier
          have reached : ∀ waiting ∈ (tree.children place).values ++ stack,
              ReflTransGen tree.Child 0 waiting := by
            intro waiting mem
            rcases List.mem_append.mp mem with new | before
            · exact top.trans (children new).to_reflTransGen
            · exact reached waiting (List.mem_cons_of_mem _ before)
          rcases ih fair full known reached (by rw [List.length_cons]; omega)
            with ⟨distinct, members⟩
          have later : ∀ node ∈ tree.visits fuel ((tree.children place).values ++ stack),
              ¬tree.Child place node := by
            intro node mem child
            rcases (members node).mp mem with ⟨upper, untaken, _, above⟩
            rw [linked.forest.unique child above] at untaken
            exact untaken List.mem_cons_self
          rw [visits]
          constructor
          · rw [List.nodup_append]
            refine ⟨linked.nodup_values place, distinct, ?_⟩
            rintro child mem node mem' rfl
            exact later child mem' (mem_values_children.mp mem)
          · intro node
            rw [List.mem_append, mem_values_children, members]
            constructor
            · rintro (child | ⟨upper, untaken, leads, child⟩)
              · exact ⟨place, fresh, top, child⟩
              · exact ⟨upper, fun mem => untaken (List.mem_cons_of_mem _ mem), leads, child⟩
            · rintro ⟨upper, untaken, leads, child⟩
              by_cases here : upper = place
              · exact Or.inl (here ▸ child)
              · refine Or.inr ⟨upper, ?_, leads, child⟩
                rw [List.mem_cons, not_or]
                exact ⟨here, untaken⟩

/-- A traversal of a whole tree calls back once on each node below the root. -/
theorem Linked.visits (linked : tree.Linked) :
    (tree.visits tree.nodes.length [0]).Nodup ∧
      ∀ node, node ∈ tree.visits tree.nodes.length [0] ↔ Above tree.Child 0 node := by
  have known : ∀ old ∈ ([] : List Nat), ReflTransGen tree.Child 0 old := by
    intro old mem
    cases mem
  have reached : ∀ waiting ∈ [0], ReflTransGen tree.Child 0 waiting := by
    intro waiting mem
    rw [List.mem_singleton.mp mem]
  rcases visits_spec linked tree.nodes.length (.single 0) (.single 0) known reached (by simp)
    with ⟨distinct, members⟩
  refine ⟨distinct, ?_⟩
  intro node
  rw [members]
  refine Iff.trans ?_ TransGen.tail'_iff.symm
  simp

end Dce.ATree
