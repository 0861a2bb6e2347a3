import Dce.Lib.Keeps
import Dce.Lib.Runs
import Mathlib.Logic.Function.Basic

/-!
# Programs that run at the same time

Programs are started at any time and share one server, to which each sends its
commands one after the other, and which may change by itself in between. If each
program keeps an invariant of the server, all values that they return are as if
nothing else had happened than that.
-/

namespace Dce

variable {C : Type} {R : C → Type} {α σ : Type}

/-- The programs that run, and what others returned. -/
structure Pool (C : Type) (R : C → Type) (α σ : Type) where
  state : σ
  running : Nat → Option (Prog C R α)
  returned : List α

namespace Pool

inductive Move (C : Type) (R : C → Type) (α σ : Type) where
  | start (index : Nat) (program : Prog C R α)
  | send (index : Nat)
  | drop (index : Nat)
  | change (state : σ)

def put (pool : Pool C R α σ) (index : Nat) (program : Option (Prog C R α)) : Pool C R α σ :=
  { pool with running := Function.update pool.running index program }

def step (server : (c : C) → σ → R c × σ) (pool : Pool C R α σ) :
    Move C R α σ → Pool C R α σ
  | .start index program => pool.put index (some program)
  | .send index =>
      match pool.running index with
      | some (.call command rest) =>
          let (reply, state) := server command pool.state
          { pool with state }.put index (some (rest reply))
      | some (.ret value) => { pool with returned := value :: pool.returned }.put index none
      | none => pool
  | .drop index => pool.put index none
  | .change state => { pool with state }

variable {server : (c : C) → σ → R c × σ} {invariant : σ → Prop} {post : α → Prop}
  {pool : Pool C R α σ}

/-- Each program that runs is of a kind, and the values of others are of a kind, too. -/
structure Holds (kind : Prog C R α → Prop) (post : α → Prop) (pool : Pool C R α σ) :
    Prop where
  running : ∀ index program, pool.running index = some program → kind program
  returned : ∀ value ∈ pool.returned, post value

theorem Holds.put {kind : Prog C R α → Prop} (holds : pool.Holds kind post) {index : Nat}
    {program : Option (Prog C R α)}
    (new : ∀ program', program = some program' → kind program') :
    (pool.put index program).Holds kind post where
  running other program' there := by
    change Function.update pool.running index program other = some program' at there
    rw [Function.update_apply] at there
    split at there
    · exact new program' there
    · exact holds.running other program' there
  returned := holds.returned

/-- One move, if a command leads from one program of the kind to another and the kind tells what is
returned. -/
theorem Holds.step {kind : Prog C R α → Prop} (holds : pool.Holds kind post)
    (move : Move C R α σ)
    (started : ∀ index program, move = .start index program → kind program)
    (sent : ∀ command rest, kind (.call command rest) →
      kind (rest (server command pool.state).1))
    (ended : ∀ value, kind (.ret value) → post value) :
    (pool.step server move).Holds kind post := by
  cases move with
  | start index program =>
      refine holds.put ?_
      rintro _ ⟨⟩
      exact started index program rfl
  | send index =>
      rw [Pool.step]
      split
      · rename_i command rest there
        have answered : Holds kind post { pool with state := (server command pool.state).2 } :=
          ⟨holds.running, holds.returned⟩
        refine answered.put ?_
        rintro _ ⟨⟩
        exact sent command rest (holds.running index _ there)
      · rename_i value there
        have returned : Holds kind post { pool with returned := value :: pool.returned } :=
          ⟨holds.running, List.forall_mem_cons.mpr
            ⟨ended value (holds.running index _ there), holds.returned⟩⟩
        refine returned.put ?_
        rintro _ ⟨⟩
      · exact holds
  | drop index =>
      refine holds.put ?_
      rintro _ ⟨⟩
  | change state => exact ⟨holds.running, holds.returned⟩

/-- Only programs that keep the invariant are started, and it is kept by what else happens. -/
def Move.Keeps (server : (c : C) → σ → R c × σ) (invariant : σ → Prop)
    (post : α → Prop)
    (pool : Pool C R α σ) : Move C R α σ → Prop
  | .start _ program => program.Keeps server invariant post
  | .change state => invariant pool.state → invariant state
  | _ => True

/-- The invariant holds, the programs that run keep it, and those that ran kept it. -/
structure Safe (server : (c : C) → σ → R c × σ) (invariant : σ → Prop)
    (post : α → Prop)
    (pool : Pool C R α σ) : Prop extends
    Holds (Prog.Keeps server invariant post) post pool where
  state : invariant pool.state

theorem Safe.step (safe : pool.Safe server invariant post) {move : Move C R α σ}
    (keeps : move.Keeps server invariant post pool) :
    (pool.step server move).Safe server invariant post where
  toHolds := by
    refine safe.toHolds.step move ?_ ?_ fun value holds => holds
    · rintro index program rfl
      exact keeps
    · exact fun command rest keeping => (keeping pool.state safe.state).2
  state := by
    cases move with
    | start index program => exact safe.state
    | send index =>
        rw [Pool.step]
        split
        · rename_i command rest there
          exact (safe.running index _ there pool.state safe.state).1
        · exact safe.state
        · exact safe.state
    | drop index => exact safe.state
    | change state => exact keeps safe.state

/-- Only programs are started that return what is wanted within the invariant, and the run is still
within it. -/
def Move.Assumes (server : (c : C) → σ → R c × σ) (invariant : σ → Prop)
    (post : α → Prop)
    (pool : Pool C R α σ) (move : Move C R α σ) : Prop :=
  invariant pool.state ∧
    ∀ index program, move = .start index program → program.Assumes server invariant post

theorem Holds.within (holds : pool.Holds (Prog.Assumes server invariant post) post)
    {move : Move C R α σ} (assumes : move.Assumes server invariant post pool) :
    (pool.step server move).Holds (Prog.Assumes server invariant post) post :=
  holds.step move assumes.2 (fun _ _ assuming => assuming pool.state assumes.1)
    fun _ holds => holds

end Pool

end Dce
