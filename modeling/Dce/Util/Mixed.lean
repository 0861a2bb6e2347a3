import Dce.Lib.Text

/-!
# Errors and outcomes

`DceErr` as the crates share it, and the three ways a call can end: with a
value, with an error, or with a panic.
-/

namespace Dce

/-- An error with its code and message. -/
structure DceError where
  code : Int
  message : Str
  deriving DecidableEq, Repr

/-- An error for the client, or one whose code and message stay in the server's log. -/
inductive DceErr where
  | openly (error : DceError)
  | closed (error : DceError)
  deriving DecidableEq, Repr

/-- How a call ends. -/
inductive Outcome (ε α : Type) where
  | ok (value : α)
  | err (error : ε)
  | panic
  deriving DecidableEq, Repr

namespace Outcome

variable {ε α β : Type}

/-- The `?` operator: go on with the value, or end the same way. -/
def bind : Outcome ε α → (α → Outcome ε β) → Outcome ε β
  | ok value, next => next value
  | err error, _ => err error
  | panic, _ => panic

instance : Monad (Outcome ε) where
  pure := ok
  bind := bind

/-- The call does not panic. -/
def Returns (outcome : Outcome ε α) : Prop := outcome ≠ panic

instance (outcome : Outcome ε α) : Decidable outcome.Returns :=
  match outcome with
  | ok _ => .isTrue nofun
  | err _ => .isTrue nofun
  | panic => .isFalse fun returns => returns rfl

def isOk : Outcome ε α → Bool
  | ok _ => true
  | _ => false

/-- A byte slice panics where it is out of range or cuts a character. -/
def ofSlice : Option Str → Outcome ε Str
  | some text => ok text
  | none => panic

theorem isOk_iff {outcome : Outcome ε α} :
    outcome.isOk = true ↔ ∃ value, outcome = ok value := by
  cases outcome with
  | ok value => simp [isOk]
  | err error => simp [isOk]
  | panic => simp [isOk]

@[simp]
theorem bind_ok (value : α) (next : α → Outcome ε β) : (ok value >>= next) = next value := rfl

@[simp]
theorem bind_err (error : ε) (next : α → Outcome ε β) :
    (err error >>= next) = err error := rfl

@[simp]
theorem bind_panic (next : α → Outcome ε β) : ((panic : Outcome ε α) >>= next) = panic := rfl

theorem bind_eq_ok {outcome : Outcome ε α} {next : α → Outcome ε β} {result : β} :
    outcome >>= next = ok result ↔ ∃ value, outcome = ok value ∧ next value = ok result := by
  cases outcome with
  | ok value => simp
  | err error => simp
  | panic => simp

instance lawfulOutcome : LawfulMonad (Outcome ε) :=
  LawfulMonad.mk' _
    (fun outcome => by cases outcome <;> rfl)
    (fun _ _ => rfl)
    (fun outcome _ _ => by cases outcome <;> rfl)

@[simp]
theorem pure_eq (value : α) : (pure value : Outcome ε α) = ok value := rfl

theorem mapM_cons_eq_ok {make : α → Outcome ε β} {value : α} {values : List α}
    {results : List β} :
    (value :: values).mapM make = ok results ↔
      ∃ result, make value = ok result ∧
        ∃ later, values.mapM make = ok later ∧ result :: later = results := by
  rw [List.mapM_cons, bind_eq_ok]
  refine exists_congr fun result => and_congr_right fun _ => ?_
  simp [bind_eq_ok]

/-- What is made of each member, if making one gives nothing else. -/
theorem mapM_eq_ok {make : α → Outcome ε β} {made : α → β}
    (makes : ∀ value result, make value = ok result → result = made value) {values : List α}
    {results : List β} (all : values.mapM make = ok results) : results = values.map made := by
  induction values generalizing results with
  | nil => exact (ok.inj all).symm
  | cons value values ih =>
      rcases mapM_cons_eq_ok.mp all with ⟨result, first, later, rest, rfl⟩
      rw [makes value result first, ih rest]
      rfl

/-- Each result is made of a member. -/
theorem of_mem_results {make : α → Outcome ε β} {values : List α} {results : List β}
    (all : values.mapM make = ok results) {result : β} (mem : result ∈ results) :
    ∃ value ∈ values, make value = ok result := by
  induction values generalizing results with
  | nil =>
      cases all
      cases mem
  | cons value values ih =>
      rcases mapM_cons_eq_ok.mp all with ⟨first, made, later, rest, rfl⟩
      rcases List.mem_cons.mp mem with rfl | behind
      · exact ⟨value, List.mem_cons_self, made⟩
      · rcases ih rest behind with ⟨other, there, makes⟩
        exact ⟨other, List.mem_cons_of_mem _ there, makes⟩

/-- Two calls end the same way, with related values if they return some. -/
inductive Agree (Related : α → β → Prop) : Outcome ε α → Outcome ε β → Prop where
  | ok {value : α} {value' : β} (related : Related value value') :
      Agree Related (.ok value) (.ok value')
  | err (error : ε) : Agree Related (.err error) (.err error)
  | panic : Agree Related .panic .panic

theorem Agree.bind {γ δ : Type} {Related : α → β → Prop} {Related' : γ → δ → Prop}
    {first : Outcome ε α} {second : Outcome ε β} (agree : Agree Related first second)
    {next : α → Outcome ε γ} {next' : β → Outcome ε δ}
    (later : ∀ value value', Related value value' →
      Agree Related' (next value) (next' value')) :
    Agree Related' (first >>= next) (second >>= next') := by
  cases agree with
  | ok related => exact later _ _ related
  | err error => exact .err error
  | panic => exact .panic

theorem Agree.of_eq {Related : α → α → Prop} (refl : ∀ value, Related value value)
    (outcome : Outcome ε α) : Agree Related outcome outcome := by
  cases outcome with
  | ok value => exact .ok (refl value)
  | err error => exact .err error
  | panic => exact .panic

theorem Agree.eq {first second : Outcome ε α} (agree : Agree Eq first second) :
    first = second := by
  cases agree with
  | ok related => rw [related]
  | err error => rfl
  | panic => rfl

end Outcome

end Dce
