import Dce.Lib.Prog

/-!
# Programs that share an invariant

A program that keeps an invariant of the server with each of its commands may
rely on it for each reply. Any number of such programs keep it together, in
whatever order their commands come.
-/

namespace Dce.Prog

variable {C : Type} {R : C → Type} {α β σ : Type}

/-- Whatever state of the invariant the server is in at each command, the command keeps the
invariant, and the program returns a value in `post`. -/
def Keeps (server : (c : C) → σ → R c × σ) (invariant : σ → Prop) (post : α → Prop) :
    Prog C R α → Prop
  | ret value => post value
  | call command rest => ∀ state, invariant state →
      invariant (server command state).2 ∧
        (rest (server command state).1).Keeps server invariant post

/-- What a program returns if the server is in a state of the invariant at each command, whether or
not the commands keep it. -/
def Assumes (server : (c : C) → σ → R c × σ) (invariant : σ → Prop) (post : α → Prop) :
    Prog C R α → Prop
  | ret value => post value
  | call command rest => ∀ state, invariant state →
      (rest (server command state).1).Assumes server invariant post

namespace Keeps

variable {server : (c : C) → σ → R c × σ} {invariant : σ → Prop}

theorem mono {post post' : α → Prop} {program : Prog C R α}
    (keeps : program.Keeps server invariant post) (ends : ∀ value, post value → post' value) :
    program.Keeps server invariant post' := by
  induction program with
  | ret value => exact ends value keeps
  | call command rest ih =>
      intro state holds
      rcases keeps state holds with ⟨kept, later⟩
      exact ⟨kept, ih _ later⟩

/-- The rule of composition. -/
theorem bind {post : β → Prop} {program : Prog C R α} {next : α → Prog C R β}
    (keeps : program.Keeps server invariant fun value =>
      (next value).Keeps server invariant post) :
    (program.bind next).Keeps server invariant post := by
  induction program with
  | ret value => exact keeps
  | call command rest ih =>
      intro state holds
      rcases keeps state holds with ⟨kept, later⟩
      exact ⟨kept, ih _ later⟩

theorem assumes {post : α → Prop} {program : Prog C R α}
    (keeps : program.Keeps server invariant post) : program.Assumes server invariant post := by
  induction program with
  | ret value => exact keeps
  | call command rest ih => exact fun state holds => ih _ (keeps state holds).2

end Keeps

/-- A program keeps an invariant that each command it sends keeps. -/
theorem Sends.keeps {server : (c : C) → σ → R c × σ} {invariant : σ → Prop}
    {allowed : C → Prop} {post : α → Prop} {program : Prog C R α}
    (sends : program.Sends allowed post)
    (kept : ∀ command state, allowed command → invariant state →
      invariant (server command state).2) : program.Keeps server invariant post := by
  induction program with
  | ret value => exact sends
  | call command rest ih =>
      exact fun state holds => ⟨kept command state sends.1 holds, ih _ (sends.2 _)⟩

/-- Nothing is assumed for what holds of every value. -/
theorem Assumes.of_forall {server : (c : C) → σ → R c × σ} {invariant : σ → Prop}
    {post : β → Prop}
    {next : α → β} (holds : ∀ value, post (next value)) (program : Prog C R α) :
    (program.bind fun value => ret (next value)).Assumes server invariant post := by
  induction program with
  | ret value => exact holds value
  | call command rest ih => exact fun state _ => ih _

end Dce.Prog
