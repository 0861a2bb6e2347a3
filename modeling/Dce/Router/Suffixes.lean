import Dce.Router.Locate

/-!
# The order of suffixes

Of two suffixes that end the same part the longer one holds the boundary of the
shorter one, so that it comes first in the order by the number of boundaries.
-/

namespace Dce.Routing

namespace Suffix

/-- A part ends in a suffix behind the boundary. -/
def endsPart (part : Str) (suffix : Suffix) : Bool :=
  (suffixBoundary :: suffix.text).isSuffixOf part

variable {part : Str} {left right : Suffix}

/-- Of two suffixes of a part the shorter one ends the other, with its boundary. -/
theorem tail_of_endsPart (leftEnds : left.endsPart part = true)
    (rightEnds : right.endsPart part = true) (shorter : left.text.length < right.text.length) :
    suffixBoundary :: left.text <:+ right.text := by
  have leftTail := List.isSuffixOf_iff_suffix.mp leftEnds
  have rightTail := List.isSuffixOf_iff_suffix.mp rightEnds
  have inner : suffixBoundary :: left.text <:+ suffixBoundary :: right.text := by
    apply List.suffix_of_suffix_length_le leftTail rightTail
    simp only [List.length_cons]
    omega
  rcases List.suffix_cons_iff.mp inner with same | within
  · have lengths := congrArg List.length same
    simp only [List.length_cons] at lengths
    omega
  · exact within

theorem eq_of_endsPart (leftEnds : left.endsPart part = true)
    (rightEnds : right.endsPart part = true) (same : left.text.length = right.text.length) :
    left = right := by
  have leftTail := List.isSuffixOf_iff_suffix.mp leftEnds
  have rightTail := List.isSuffixOf_iff_suffix.mp rightEnds
  have inner : suffixBoundary :: left.text <:+ suffixBoundary :: right.text := by
    apply List.suffix_of_suffix_length_le leftTail rightTail
    simp [same]
  have whole := inner.eq_of_length (by simp [same])
  cases left
  cases right
  exact congrArg Suffix.mk (List.cons.inj whole).2

/-- The longer one of two suffixes of a part comes first. -/
theorem lt_of_endsPart (leftEnds : left.endsPart part = true)
    (rightEnds : right.endsPart part = true) (shorter : left.text.length < right.text.length) :
    compare right left = .lt := by
  have tail := tail_of_endsPart leftEnds rightEnds shorter
  have more : left.compound < right.compound := by
    have count := tail.sublist.count_le suffixBoundary
    rw [List.count_cons_self] at count
    exact count
  rw [compare_eq, compareLex, Nat.compare_eq_lt.mpr more]
  rfl

end Suffix

/-- The order of suffixes is a strict total one that tells different texts apart, and the first
suffix of a set that ends a part is its longest one. -/
theorem suffix_order :
    (∀ left right : Suffix, compare left right = (compare right left).swap) ∧
      (∀ left middle right : Suffix, compare left middle = .lt → compare middle right = .lt →
        compare left right = .lt) ∧
      (∀ left right : Suffix, compare left right = .eq ↔ left.text = right.text) ∧
      ∀ (suffixes : Suffixes) (part : Str), ∀ other ∈ suffixes, other.endsPart part = true →
        ∃ first ∈ suffixes, suffixes.toList.find? (·.endsPart part) = some first ∧
          first.endsPart part = true ∧
          (other = first ∨ other.text.length < first.text.length) := by
  refine ⟨?_, ?_, ?_, ?_⟩
  · intro left right
    exact Std.OrientedOrd.eq_swap
  · intro left middle right before after
    exact Std.TransCmp.lt_trans before after
  · intro left right
    rw [Std.compare_eq_iff_eq]
    constructor
    · intro same
      rw [same]
    · intro same
      cases left
      exact congrArg Suffix.mk same
  · intro suffixes part other mem ends
    have ordered := Std.ExtTreeSet.ordered_toList (t := suffixes)
    have listed := Std.ExtTreeSet.mem_toList.mpr mem
    cases found : suffixes.toList.find? (·.endsPart part) with
    | none => exact absurd ends (List.find?_eq_none.mp found other listed)
    | some first =>
        have firstEnds := List.find?_some found
        have firstMem := Std.ExtTreeSet.mem_toList.mp (List.mem_of_find?_eq_some found)
        refine ⟨first, firstMem, rfl, firstEnds, ?_⟩
        rcases Nat.lt_trichotomy other.text.length first.text.length with shorter | same | longer
        · exact Or.inr shorter
        · exact Or.inl (Suffix.eq_of_endsPart ends firstEnds same)
        · -- a longer one would have come before
          exfalso
          have before := Suffix.lt_of_endsPart firstEnds ends longer
          rcases List.find?_eq_some_iff_append.mp found with ⟨_, front, back, split, apart⟩
          rw [split] at listed ordered
          rcases List.mem_append.mp listed with early | late
          · simpa [ends] using apart other early
          · rcases List.mem_cons.mp late with itself | behind
            · rw [itself] at longer
              omega
            · have after :=
                (List.pairwise_cons.mp (List.pairwise_append.mp ordered).2.1).1 _ behind
              rw [Std.OrientedOrd.eq_swap, before] at after
              cases after

end Dce.Routing
