import Dce.Router.Ways

/-!
# Walks without variables

A key without variables can be walked down the tree too, from one static child
to the next. The walk finds the entry of the key unless it strays from there.
-/

namespace Dce.Routing.Router

open Text

variable {Rp : Type} {router : Router Rp} {registered : List (Api Rp)} {parts : List Str}
  {place number : Nat} {suffix : Str} {found : Found}

/-- The parts lead from the root to a branch, from one static child to the next. -/
inductive Leads (router : Router Rp) (parts : List Str) : Nat → Nat → Str → Prop where
  | root : Leads router parts 0 0 []
  | step {place number : Nat} {before : Str} (above : Leads router parts place number before)
      {part : Str} (next : parts[number]? = some part) {child : Nat} {suffix : Str}
      (matched : router.findConsiderSuffix part (number == parts.length - 1) place =
        .ok (some (child, suffix))) :
      Leads router parts child (number + 1) suffix

theorem Leads.le (leads : router.Leads parts place number suffix) : number ≤ parts.length := by
  cases leads with
  | root => exact Nat.zero_le _
  | step above next matched => exact (List.getElem?_eq_some_iff.mp next).1

/-- The walk takes each step that the parts lead. -/
theorem Leads.walk (leads : router.Leads parts place number suffix) (fuel : Nat) :
    router.walk parts (number + fuel) [(0, 0)] ⟨[], ∅⟩ =
      router.walk parts fuel [(place, number)] ⟨suffix, ∅⟩ := by
  induction leads generalizing fuel with
  | root => rw [Nat.zero_add]
  | @step place number before above part next child suffix matched ih =>
      have within : number < parts.length := (List.getElem?_eq_some_iff.mp next).1
      rcases child_of_findConsiderSuffix matched with ⟨key, below⟩
      rcases held_of_child below with ⟨branch, held⟩
      have visited : router.visit parts place number ⟨before, ∅⟩ =
          .ok (.further [(child, number + 1)] ⟨suffix, ∅⟩) := by
        simp [visit, held, next, matched, Nat.not_le.mpr within]
      rw [Nat.add_assoc, Nat.add_comm 1 fuel, ih, Router.walk, visited]
      rfl

/-- The walk waits for nothing but the branch that the parts lead to. -/
def WaitsFor (router : Router Rp) (parts : List Str) (items : List (Nat × Nat)) (found : Found) :
    Prop :=
  items = [] ∨ ∃ place number, items = [(place, number)] ∧
    router.Leads parts place number found.suffix

/-- Where nothing is bound no variable was tried with success. -/
theorem Tried.unbound (positive : 0 < parts.length) {places : List Nat} {items : List (Nat × Nat)}
    {visit : Visit} (tried : router.Tried parts number places items found visit)
    (empty : visit.carried.args = ∅) : visit = .further items found := by
  induction tried with
  | done items found => rfl
  | passed static later ih => exact ih empty
  | middle held middle required next later ih =>
      have bound := later.keeps positive Std.ExtTreeMap.mem_insert_self
      rw [empty] at bound
      simp at bound
  | ends held bind =>
      rcases of_bindVar positive bind with ⟨name, value, _, _, args⟩
      rw [Visit.carried, args] at empty
      have bound : name ∈ (∅ : PathArgs) := by
        rw [← empty]
        exact Std.ExtTreeMap.mem_insert_self
      simp at bound

theorem Visited.empty (positive : 0 < parts.length) {visit : Visit}
    (visited : Visited router parts place number found visit) (empty : visit.carried.args = ∅) :
    found.args = ∅ := by
  cases visited with
  | lost absent => exact empty
  | complete held overflowed filled => exact empty
  | static held next matched => exact empty
  | vars held unfinished unmatched tried =>
      rw [(tried_of_tryVars tried).unbound positive empty] at empty
      exact empty

/-- A visit that binds nothing ends where all parts lead, or goes on where one more leads. -/
theorem Visited.unbound (positive : 0 < parts.length) {visit : Visit}
    (visited : Visited router parts place number found visit)
    (leads : router.Leads parts place number found.suffix) (empty : visit.carried.args = ∅) :
    (∃ branch, visit = .target place found ∧ router.branch? place = some branch ∧
      branch.apis ≠ [] ∧ number = parts.length) ∨
    ∃ next found', visit = .further next found' ∧ router.WaitsFor parts next found' := by
  cases visited with
  | lost absent => exact Or.inr ⟨[], found, rfl, Or.inl rfl⟩
  | complete held overflowed filled =>
      exact Or.inl ⟨_, rfl, held, filled, Nat.le_antisymm leads.le overflowed⟩
  | static held next matched =>
      exact Or.inr ⟨_, _, rfl, Or.inr ⟨_, _, rfl, leads.step next matched⟩⟩
  | vars held unfinished unmatched tried =>
      rw [(tried_of_tryVars tried).unbound positive empty]
      exact Or.inr ⟨[], found, rfl, Or.inl rfl⟩

theorem find?_cuts_iff {separator : Char} {text front : Str} {holds : Str → Bool} :
    (cuts separator text).find? holds = some front ↔
      (∃ rest, text = front ++ separator :: rest) ∧ holds front = true ∧
        ∀ front' rest, text = front' ++ separator :: rest → front.length < front'.length →
          holds front' = false := by
  have ordered := pairwise_cuts separator text
  rw [List.find?_eq_some_iff_append]
  constructor
  · rintro ⟨found, before, after, split, longer⟩
    have mem : front ∈ cuts separator text := by simp [split]
    refine ⟨mem_cuts_iff.mp mem, found, ?_⟩
    intro front' rest own more
    have inside : front' ∈ before ++ front :: after := by
      rw [← split]
      exact mem_cuts_iff.mpr ⟨rest, own⟩
    rcases List.mem_append.mp inside with early | late
    · simpa using longer front' early
    · rw [split] at ordered
      rcases List.mem_cons.mp late with rfl | behind
      · omega
      · have shorter := (List.pairwise_cons.mp (List.pairwise_append.mp ordered).2.1).1 _ behind
        omega
  · rintro ⟨there, found, longest⟩
    rcases List.append_of_mem (mem_cuts_iff.mpr there) with ⟨before, after, split⟩
    refine ⟨found, before, after, split, ?_⟩
    intro front' early
    have inside : front' ∈ cuts separator text := by simp [split, early]
    rcases mem_cuts_iff.mp inside with ⟨rest, own⟩
    rw [split] at ordered
    have longer := (List.pairwise_append.mp ordered).2.2 front' early front List.mem_cons_self
    simp [longest front' rest own longer]

theorem findCut_iff {part : Str} {fronts : List Str} {child : Nat}
    (before : ∀ front ∈ fronts, ∃ rest, part = front ++ router.suffixBoundary :: rest) :
    router.findCut place part fronts = .ok (some (child, suffix)) ↔
      router.suffixBoundary.utf8Size = 1 ∧ ∃ front,
        fronts.find? (fun front => (router.child? place front).isSome) = some front ∧
          router.child? place front = some child ∧
          part = front ++ router.suffixBoundary :: suffix ∧
          ⟨suffix⟩ ∈ router.suffixesOf child := by
  induction fronts with
  | nil => simp [findCut]
  | cons front fronts ih =>
      rw [findCut]
      cases there : router.child? place front with
      | none =>
          rw [ih fun front mem => before front (List.mem_cons_of_mem _ mem),
            List.find?_cons_of_neg (by simp [there])]
      | some child' =>
          rw [List.find?_cons_of_pos (by simp [there])]
          rcases before front List.mem_cons_self with ⟨rest, rfl⟩
          dsimp only
          split
          · rename_i none
            constructor
            · intro found
              cases found
            · rintro ⟨_, _, same, below, _, mem⟩
              cases same
              rw [there] at below
              cases below
              rw [none] at mem
              cases mem
          · rename_i filled
            by_cases oneByte : router.suffixBoundary.utf8Size = 1
            · rw [sliceFrom_cut oneByte, Outcome.ofSlice, Outcome.bind_ok]
              constructor
              · intro found
                rcases Option.map_eq_some_iff.mp (Outcome.ok.inj found) with ⟨own, first, same⟩
                cases same
                have text : own.text = rest := by simpa using List.find?_some first
                exact ⟨oneByte, front, rfl, there, by rw [text],
                  List.mem_of_find?_eq_some first⟩
              · rintro ⟨_, _, same, below, split, mem⟩
                cases same
                rw [there] at below
                cases below
                have rest_eq : rest = suffix :=
                  (List.cons.inj (List.append_cancel_left split)).2
                have own : ((router.suffixesOf child).find? (·.text = rest)).isSome := by
                  rw [List.find?_isSome]
                  exact ⟨_, mem, by simp [rest_eq]⟩
                rcases Option.isSome_iff_exists.mp own with ⟨found, first⟩
                have text : found.text = rest := by simpa using List.find?_some first
                rw [first, ← rest_eq, ← text]
                rfl
            · rw [sliceFrom_cut_wide oneByte]
              constructor
              · intro found
                cases found
              · rintro ⟨narrow, _⟩
                exact absurd narrow oneByte

/-- What the search for a static child finds for a last part. -/
theorem findConsiderSuffix_iff {part : Str} {child : Nat} :
    router.findConsiderSuffix part true place = .ok (some (child, suffix)) ↔
      router.child? place part = some child ∧ suffix = [] ∨
        router.child? place part = none ∧ router.suffixBoundary.utf8Size = 1 ∧
          ∃ front, part = front ++ router.suffixBoundary :: suffix ∧
            router.child? place front = some child ∧
            (∀ front' rest, part = front' ++ router.suffixBoundary :: rest →
              front.length < front'.length → router.child? place front' = none) ∧
            ⟨suffix⟩ ∈ router.suffixesOf child := by
  rw [findConsiderSuffix]
  cases exact' : router.child? place part with
  | some child' => simp [eq_comm]
  | none =>
      rw [if_pos rfl, findCut_iff fun front mem => mem_cuts_iff.mp mem]
      simp only [find?_cuts_iff, Option.isSome_eq_false_iff, Option.isNone_iff_eq_none]
      constructor
      · rintro ⟨oneByte, front, ⟨_, _, longest⟩, below, split, mem⟩
        exact Or.inr ⟨trivial, oneByte, front, split, below, longest, mem⟩
      · rintro (⟨⟨⟩, _⟩ | ⟨_, oneByte, front, split, below, longest, mem⟩)
        exact ⟨oneByte, front, ⟨⟨_, split⟩, by simp [below], longest⟩,
          below, split, mem⟩

end Dce.Routing.Router
