import Dce.Util.TreeLinks

/-!
# The order of a traversal

A traversal goes down the tree before it goes on to the right, and calls back on
all children of a node at once. So it comes to nodes in the order of the paths of
their parents.
-/

namespace Dce.ATree

variable {E K : Type} [Ord K] [Std.TransOrd K] {tree : ATree E K}

/-- Whatever goes on from the first path comes before whatever goes on from the second. -/
def Precedes (left right : List K) : Prop :=
  ∀ left' right', compare (left ++ left') (right ++ right') = .lt

omit [Std.TransOrd K] in
theorem Precedes.append {left right : List K} (precedes : Precedes left right)
    (left' right' : List K) : Precedes (left ++ left') (right ++ right') := by
  intro further further'
  rw [List.append_assoc, List.append_assoc]
  exact precedes _ _

variable [Std.LawfulEqOrd K]

end Dce.ATree
