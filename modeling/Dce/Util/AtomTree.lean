import Dce.Util.Mixed
import Std.Data.ExtTreeMap.Lemmas

/-!
# Trees of shared nodes

The nodes of a tree refer to each other. They lie in an arena and are referred
to by their places in it, with the root at place 0.
-/

namespace Dce

/-- What a tree of elements `E` with keys `K` is built by. -/
class KeyFactory (E : Type) (K : outParam Type) where
  key : E → K
  childOf : E → E → Bool

structure ATree.Node (E K : Type) [Ord K] where
  element : E
  children : Std.ExtTreeMap K Nat
  parent : Option Nat

structure ATree (E K : Type) [Ord K] where
  nodes : List (ATree.Node E K)

namespace ATree

variable {E K : Type} [Ord K]

def new (element : E) : ATree E K where
  nodes := [⟨element, ∅, none⟩]

def element? (tree : ATree E K) (place : Nat) : Option E := (tree.nodes[place]?).map (·.element)

def parent (tree : ATree E K) (place : Nat) : Option Nat := tree.nodes[place]?.bind (·.parent)

/-- Change an element in place. -/
def write (tree : ATree E K) (place : Nat) (change : E → E) : ATree E K where
  nodes := tree.nodes.modify place fun node => { node with element := change node.element }

variable [Std.TransOrd K]

def children (tree : ATree E K) (place : Nat) : Std.ExtTreeMap K Nat :=
  ((tree.nodes[place]?).map (·.children)).getD ∅

def get (tree : ATree E K) (place : Nat) (key : K) : Option Nat := (tree.children place)[key]?

/-- Add a node below another one, under a key that then leads to it. -/
def set (tree : ATree E K) (place : Nat) (key : K) (element : E) : ATree E K where
  nodes := (tree.nodes.modify place fun node =>
    { node with children := node.children.insert key tree.nodes.length }) ++
      [⟨element, ∅, some place⟩]

def getFrom (tree : ATree E K) : Nat → List K → Option Nat
  | place, [] => some place
  | place, key :: path => (tree.get place key).bind fun child => tree.getFrom child path

def getByPath (tree : ATree E K) (path : List K) : Option Nat := tree.getFrom 0 path

/-- Without a node to add to, the tree stays. -/
def setByPath (tree : ATree E K) (path : List K) (element : E) : ATree E K :=
  match path.getLast? with
  | none => tree
  | some key =>
      match tree.getByPath path.dropLast with
      | some parent => tree.set parent key element
      | none => tree

variable [KeyFactory E K]

/-- Put elements below a node, and the new nodes on top of the stack. -/
def setAll (place : Nat) : List E → ATree E K × List Nat → ATree E K × List Nat
  | [], state => state
  | element :: elements, (tree, parents) =>
      setAll place elements
        (tree.set place (KeyFactory.key element) element, tree.nodes.length :: parents)

/-- Put elements below the nodes of a stack, the last one first, as long as there are nodes. -/
def buildFrom : Nat → List Nat → List E → ATree E K → ATree E K × List E
  | 0, _, elements, tree => (tree, elements)
  | _ + 1, [], elements, tree => (tree, elements)
  | fuel + 1, place :: parents, elements, tree =>
      match tree.element? place with
      | none => buildFrom fuel parents elements tree
      | some parent =>
          let (children, rest) := elements.partition (KeyFactory.childOf · parent)
          let (tree, parents) := setAll place children.reverse (tree, parents)
          buildFrom fuel parents rest tree

/-- Build a tree; the elements without a parent are left to the handler. -/
def build (tree : ATree E K) (elements : List E)
    (remainsHandler : ATree E K → List E → ATree E K) : ATree E K :=
  let (tree, remains) := buildFrom (elements.length + 1) [0] elements tree
  remainsHandler tree remains

/-- Call back on the nodes of a stack that is filled while its top is taken, the children of a node
in the order of their keys. -/
def traverseFrom {ε : Type} (callback : Nat → ATree E K → Outcome ε (ATree E K)) :
    Nat → List Nat → ATree E K → Outcome ε (ATree E K)
  | 0, _, tree => .ok tree
  | _ + 1, [], tree => .ok tree
  | fuel + 1, place :: nodes, tree => do
      let children := (tree.children place).values
      let tree ← children.foldlM (fun tree child => callback child tree) tree
      traverseFrom callback fuel (children ++ nodes) tree

/-- No callback asks to stop. -/
def traversal {ε : Type} (tree : ATree E K)
    (callback : Nat → ATree E K → Outcome ε (ATree E K)) : Outcome ε (ATree E K) :=
  traverseFrom callback tree.nodes.length [0] tree

end ATree

end Dce
