import Dce.Lib.Parts
import Std.Data.ExtTreeSet.Lemmas

/-!
# Apis

What the router knows of an api: its path without a suffix, the suffixes it can
be requested with, and whether its last part is left out of requests.
-/

namespace Dce.Routing

open Text

def pathPartSeparator : Char := '/'
def suffixBoundary : Char := '.'
def suffixSeparator : Char := '|'

structure Suffix where
  text : Str
  deriving DecidableEq, Repr

namespace Suffix

def compound (suffix : Suffix) : Nat := suffix.text.count suffixBoundary

/-- Suffixes with more boundaries come first. -/
def cmp (left right : Suffix) : Ordering :=
  let compoundDiff : Int := left.compound - right.compound
  if 0 < compoundDiff then .lt
  else if compoundDiff < 0 then .gt
  else compare left.text right.text

instance ordSuffix : Ord Suffix := ⟨cmp⟩

theorem compare_eq (left right : Suffix) :
    compare left right =
      compareLex (fun left right => compare right.compound left.compound)
        (compareOn Suffix.text) left right := by
  change cmp left right = _
  simp only [cmp, compareLex, compareOn]
  rcases Nat.lt_trichotomy left.compound right.compound with less | same | more
  · rw [Nat.compare_eq_gt.mpr less, if_neg (by omega), if_pos (by omega)]
    rfl
  · rw [Nat.compare_eq_eq.mpr same.symm, if_neg (by omega), if_neg (by omega)]
    rfl
  · rw [Nat.compare_eq_lt.mpr more, if_pos (by omega)]
    rfl

theorem compare_eq_compareLex :
    (compare : Suffix → Suffix → Ordering) =
      compareLex (fun left right => compare right.compound left.compound)
        (compareOn Suffix.text) := by
  funext left right
  exact compare_eq left right

/-- The order of the number of boundaries, backwards. -/
instance transCmpCompound :
    Std.TransCmp fun left right : Suffix => compare right.compound left.compound :=
  inferInstanceAs (Std.TransCmp fun left right => compareOn Suffix.compound right left)

instance transOrdSuffix : Std.TransOrd Suffix := by
  rw [Std.TransOrd, compare_eq_compareLex]
  infer_instance

instance lawfulEqOrdSuffix : Std.LawfulEqOrd Suffix where
  eq_of_compare := by
    intro left right equal
    rw [compare_eq, compareLex, Ordering.then_eq_eq] at equal
    have same : left.text = right.text := Std.LawfulEqOrd.eq_of_compare equal.2
    cases left
    cases right
    exact congrArg Suffix.mk same

end Suffix

/-- A `BTreeSet` of suffixes, which is gone through in their order. -/
abbrev Suffixes := Std.ExtTreeSet Suffix

/-- A path without the suffixes that its last part ends with, and these suffixes. -/
def cutSuffixes (path : Str) : Str × Suffixes :=
  let path := trimBy (· = pathPartSeparator) path
  let (parents, last) := cutLastPart pathPartSeparator path
  match splitOnce suffixBoundary last with
  | some (last, suffixes) =>
      (parents ++ last, .ofList ((suffixes.splitOn suffixSeparator).map Suffix.mk))
  | none => (path, .ofList [Suffix.mk []])

/-- An api, for requests of the type `Rp`. The last part of its path never holds a suffix, and a
suffix is never more than a part. -/
structure Api (Rp : Type) where
  method : Option (Rp → Bool)
  path : Str
  suffixes : Suffixes
  id : Str
  omission : Bool
  redirect : Str
  unrooted : path.head? ≠ some pathPartSeparator
  undotted : suffixBoundary ∉ lastPart pathPartSeparator path
  suffixed : suffixes.toList ≠ []
  unparted : ∀ suffix ∈ suffixes, pathPartSeparator ∉ suffix.text

variable {Rp : Type}

theorem cutSuffixes_unrooted (path : Str) :
    (cutSuffixes path).1.head? ≠ some pathPartSeparator := by
  intro first
  let trimmed := trimBy (· = pathPartSeparator) path
  have isPrefix : (cutSuffixes path).1 <+: trimmed := by
    have whole := (cutLastPart_spec pathPartSeparator trimmed).1
    simp only [cutSuffixes]
    split
    · rename_i last suffixes found
      rw [(eq_of_splitOnce found).1] at whole
      exact ⟨suffixBoundary :: suffixes, by rw [← whole, List.append_assoc]⟩
    · exact List.prefix_rfl
  have dropped := head?_trimBy (· = pathPartSeparator) (head?_of_isPrefix isPrefix first)
  simp at dropped

theorem cutSuffixes_undotted (path : Str) :
    suffixBoundary ∉ lastPart pathPartSeparator (cutSuffixes path).1 := by
  let trimmed := trimBy (· = pathPartSeparator) path
  rcases cutLastPart_spec pathPartSeparator trimmed with ⟨whole, free, lastPart_eq⟩
  simp only [cutSuffixes]
  split
  · rename_i last suffixes found
    rcases eq_of_splitOnce found with ⟨same, undotted⟩
    rw [lastPart_eq last fun there => free (by rw [same]; exact List.mem_append_left _ there)]
    exact undotted
  · rename_i unfound
    have undotted := splitOnce_eq_none.mp unfound
    rw [← lastPart_eq _ free, whole] at undotted
    exact undotted

theorem cutSuffixes_suffixed (path : Str) : (cutSuffixes path).2.toList ≠ [] := by
  have nonempty {suffixes : List Suffix} (filled : suffixes ≠ []) :
      (Std.ExtTreeSet.ofList suffixes : Suffixes).toList ≠ [] := by
    rcases List.exists_mem_of_ne_nil suffixes filled with ⟨suffix, mem⟩
    exact List.ne_nil_of_mem
      (Std.ExtTreeSet.mem_toList.mpr (Std.ExtTreeSet.mem_ofList.mpr (by simpa using mem)))
  simp only [cutSuffixes]
  split
  · exact nonempty (by simp)
  · exact nonempty (by simp)

theorem cutSuffixes_unparted (path : Str) :
    ∀ suffix ∈ (cutSuffixes path).2, pathPartSeparator ∉ suffix.text := by
  let trimmed := trimBy (· = pathPartSeparator) path
  rcases cutLastPart_spec pathPartSeparator trimmed with ⟨_, free, _⟩
  intro suffix mem there
  simp only [cutSuffixes] at mem
  split at mem
  · rename_i last suffixes found
    have listed := Std.ExtTreeSet.mem_ofList.mp mem
    rw [List.contains_iff_mem, List.mem_map] at listed
    rcases listed with ⟨text, part, rfl⟩
    apply free
    rw [(eq_of_splitOnce found).1]
    exact List.mem_append_right _ (List.mem_cons_of_mem _ (mem_of_mem_splitOn part there))
  · have listed := Std.ExtTreeSet.mem_ofList.mp mem
    rw [List.contains_iff_mem, List.mem_singleton] at listed
    rw [listed] at there
    cases there

def Api.new (method : Option (Rp → Bool)) (path id : Str) (omission : Bool) (redirect : Str) :
    Api Rp where
  method
  path := (cutSuffixes path).1
  suffixes := (cutSuffixes path).2
  id
  omission
  redirect
  unrooted := cutSuffixes_unrooted path
  undotted := cutSuffixes_undotted path
  suffixed := cutSuffixes_suffixed path
  unparted := cutSuffixes_unparted path

/-- `method_match`. -/
def Api.methodMatch (api : Api Rp) (rp : Rp) : Bool :=
  match api.method with
  | some method => method rp
  | none => true

end Dce.Routing
