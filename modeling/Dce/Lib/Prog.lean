import Mathlib.Tactic.Common

/-!
# Command programs

A program is a tree of commands sent to a server, which answers each of them and
changes its state. `Meets` speaks about one run, and about every state the server
passes through; `Sends` speaks about the commands alone, whatever the replies
are.
-/

namespace Dce

variable {C : Type} {R : C → Type} {α β σ : Type}

/-- A program over the commands `C`, where `R c` is the type of the replies to `c`. -/
inductive Prog (C : Type) (R : C → Type) (α : Type) : Type where
  | ret (value : α) : Prog C R α
  | call (command : C) (rest : R command → Prog C R α) : Prog C R α

namespace Prog

/-- Sequential composition. -/
def bind : Prog C R α → (α → Prog C R β) → Prog C R β
  | ret value, next => next value
  | call command rest, next => call command fun reply => (rest reply).bind next

/-- Run a program against a server. -/
def run (server : (c : C) → σ → R c × σ) : Prog C R α → σ → α × σ
  | ret value, state => (value, state)
  | call command rest, state =>
      (rest (server command state).1).run server (server command state).2

/-- Every state of the server during a run, the first and the last one included. -/
def trace (server : (c : C) → σ → R c × σ) : Prog C R α → σ → List σ
  | ret _, state => [state]
  | call command rest, state =>
      state :: (rest (server command state).1).trace server (server command state).2

/-- The run passes only through states in `invariant` and ends in `post`. -/
def Meets (server : (c : C) → σ → R c × σ) (invariant : σ → Prop)
    (post : α → σ → Prop)
    (program : Prog C R α) (state : σ) : Prop :=
  (∀ visited ∈ program.trace server state, invariant visited) ∧
    post (program.run server state).1 (program.run server state).2

/-- Whatever the replies are, the program sends only commands in `allowed` and returns only values
in `post`. -/
def Sends (allowed : C → Prop) (post : α → Prop) : Prog C R α → Prop
  | ret value => post value
  | call command rest => allowed command ∧ ∀ reply, (rest reply).Sends allowed post

@[simp]
theorem bind_ret (value : α) (next : α → Prog C R β) :
    (ret value).bind next = next value := rfl

@[simp]
theorem bind_call (command : C) (rest : R command → Prog C R α) (next : α → Prog C R β) :
    (call command rest).bind next = call command fun reply => (rest reply).bind next := rfl

@[simp]
theorem run_ret (server : (c : C) → σ → R c × σ) (value : α) (state : σ) :
    (ret value : Prog C R α).run server state = (value, state) := rfl

@[simp]
theorem run_call (server : (c : C) → σ → R c × σ) (command : C)
    (rest : R command → Prog C R α) (state : σ) :
    (call command rest).run server state =
      (rest (server command state).1).run server (server command state).2 := rfl

theorem run_bind (server : (c : C) → σ → R c × σ) (program : Prog C R α)
    (next : α → Prog C R β) (state : σ) :
    (program.bind next).run server state =
      (next (program.run server state).1).run server (program.run server state).2 := by
  induction program generalizing state with
  | ret value => rfl
  | call command rest ih => exact ih _ _

section

variable {server : (c : C) → σ → R c × σ} {invariant : σ → Prop} {state : σ}

@[simp]
theorem meets_ret {post : α → σ → Prop} {value : α} :
    (ret value : Prog C R α).Meets server invariant post state ↔
      invariant state ∧ post value state := by
  simp [Meets, trace]

@[simp]
theorem meets_call {post : α → σ → Prop} {command : C} {rest : R command → Prog C R α} :
    (call command rest).Meets server invariant post state ↔
      invariant state ∧ (rest (server command state).1).Meets server invariant post
        (server command state).2 := by
  simp [Meets, trace, and_assoc]

namespace Meets

theorem mono {post post' : α → σ → Prop} {invariant' : σ → Prop} {program : Prog C R α}
    (meets : program.Meets server invariant post state)
    (weaker : ∀ state, invariant state → invariant' state)
    (ends : ∀ value state, post value state → post' value state) :
    program.Meets server invariant' post' state :=
  ⟨fun visited mem => weaker visited (meets.1 visited mem), ends _ _ meets.2⟩

/-- The last state is in the invariant too. -/
theorem last {post : α → σ → Prop} {program : Prog C R α}
    (meets : program.Meets server invariant post state) :
    program.Meets server invariant (fun value state' => invariant state' ∧ post value state')
      state := by
  induction program generalizing state with
  | ret value =>
      rcases meets_ret.mp meets with ⟨here, ends⟩
      exact meets_ret.mpr ⟨here, here, ends⟩
  | call command rest ih =>
      rcases meets_call.mp meets with ⟨here, later⟩
      exact meets_call.mpr ⟨here, ih _ later⟩

/-- The rule of composition. -/
theorem bind {post : β → σ → Prop} {program : Prog C R α} {next : α → Prog C R β}
    (meets : program.Meets server invariant
      (fun value state' => (next value).Meets server invariant post state') state) :
    (program.bind next).Meets server invariant post state := by
  induction program generalizing state with
  | ret value => exact (meets_ret.mp meets).2
  | call command rest ih =>
      rcases meets_call.mp meets with ⟨here, later⟩
      exact meets_call.mpr ⟨here, ih _ later⟩

end Meets

end

namespace Sends

variable {allowed : C → Prop}

theorem mono {allowed' : C → Prop} {post post' : α → Prop} {program : Prog C R α}
    (sends : program.Sends allowed post)
    (weaker : ∀ command, allowed command → allowed' command)
    (ends : ∀ value, post value → post' value) : program.Sends allowed' post' := by
  induction program with
  | ret value => exact ends value sends
  | call command rest ih =>
      exact ⟨weaker command sends.1, fun reply => ih reply (sends.2 reply)⟩

theorem bind {post : β → Prop} {program : Prog C R α} {next : α → Prog C R β}
    (sends : program.Sends allowed fun value => (next value).Sends allowed post) :
    (program.bind next).Sends allowed post := by
  induction program with
  | ret value => exact sends
  | call command rest ih => exact ⟨sends.1, fun reply => ih reply (sends.2 reply)⟩

/-- An invariant that the allowed commands keep holds throughout. -/
theorem meets {server : (c : C) → σ → R c × σ} {invariant : σ → Prop} {post : α → Prop}
    {program : Prog C R α} {state : σ} (sends : program.Sends allowed post)
    (kept : ∀ command state, allowed command → invariant state →
      invariant (server command state).2)
    (start : invariant state) :
    program.Meets server invariant (fun value state' => post value ∧ invariant state') state := by
  induction program generalizing state with
  | ret value => exact meets_ret.mpr ⟨start, sends, start⟩
  | call command rest ih =>
      exact meets_call.mpr ⟨start, ih _ (sends.2 _) (kept command state sends.1 start)⟩

/-- What the program returns does not depend on the server for this. -/
theorem run {post : α → Prop} {program : Prog C R α} (sends : program.Sends allowed post)
    (server : (c : C) → σ → R c × σ) (state : σ) : post (program.run server state).1 := by
  induction program generalizing state with
  | ret value => exact sends
  | call command rest ih => exact ih _ (sends.2 _) _

end Sends

end Prog

end Dce
