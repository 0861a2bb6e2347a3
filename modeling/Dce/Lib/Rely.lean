import Dce.Lib.Prog

/-!
# Programs among other programs

`run` leaves a program alone with the server. Here the server may move along
`rely` before each command, which is what other programs do to it.
-/

namespace Dce.Prog

variable {C : Type} {R : C → Type} {α β σ : Type}

section

variable (server : (c : C) → σ → R c × σ) (rely : σ → σ → Prop)

/-- Whatever happens between the commands, the program ends in `post`. -/
def Withstands (post : α → σ → Prop) : Prog C R α → σ → Prop
  | ret value, state => post value state
  | call command rest, state => ∀ state', rely state state' →
      (rest (server command state').1).Withstands post (server command state').2

/-- Up to a command in `stop` each command is sent in a state in `calm`; from there on the program
withstands what happens between its commands. -/
inductive Approaches (stop : C → Prop) (calm : σ → Prop) (post : α → σ → Prop) :
    Prog C R α → σ → Prop where
  | ret (value : α) (state : σ) : Approaches stop calm post (.ret value) state
  | call {command : C} {rest : R command → Prog C R α} {state : σ}
      (stops : ∀ state', rely state state' → calm state' → stop command →
        (rest (server command state').1).Withstands server rely post (server command state').2)
      (sends : ∀ state', rely state state' → calm state' → ¬stop command →
        Approaches stop calm post (rest (server command state').1) (server command state').2) :
      Approaches stop calm post (.call command rest) state

end

/-- Whatever the replies are, the program sends only commands in `allowed` before one in `stop`. -/
inductive SendsUntil (stop allowed : C → Prop) : Prog C R α → Prop where
  | ret (value : α) : SendsUntil stop allowed (.ret value)
  | stop {command : C} {rest : R command → Prog C R α} (stops : stop command) :
      SendsUntil stop allowed (.call command rest)
  | send {command : C} {rest : R command → Prog C R α} (admitted : allowed command)
      (later : ∀ reply, SendsUntil stop allowed (rest reply)) :
      SendsUntil stop allowed (.call command rest)

section

variable {server : (c : C) → σ → R c × σ} {rely : σ → σ → Prop} {state state' : σ}

namespace Withstands

theorem mono {rely' : σ → σ → Prop} {post post' : α → σ → Prop} {program : Prog C R α}
    (withstands : program.Withstands server rely post state)
    (fewer : ∀ state state', rely' state state' → rely state state')
    (ends : ∀ value state, post value state → post' value state) :
    program.Withstands server rely' post' state := by
  induction program generalizing state with
  | ret value => exact ends value state withstands
  | call command rest ih =>
      intro state' moved
      exact ih _ (withstands state' (fewer _ _ moved))

/-- The rule of composition. -/
theorem bind {post : β → σ → Prop} {program : Prog C R α} {next : α → Prog C R β}
    (withstands : program.Withstands server rely
      (fun value state' => (next value).Withstands server rely post state') state) :
    (program.bind next).Withstands server rely post state := by
  induction program generalizing state with
  | ret value => exact withstands
  | call command rest ih =>
      intro state' moved
      exact ih _ (withstands state' moved)

/-- A program that is not done withstands one more move. -/
theorem moved {post : α → σ → Prop} {command : C} {rest : R command → Prog C R α}
    (trans : ∀ first second third, rely first second → rely second third → rely first third)
    (withstands : (call command rest).Withstands server rely post state)
    (moves : rely state state') : (call command rest).Withstands server rely post state' :=
  fun state'' later => withstands state'' (trans _ _ _ moves later)

/-- An invariant of the allowed commands and of what others do holds at the end. -/
theorem of_sends {allowed : C → Prop} {ends : α → Prop} {invariant : σ → Prop}
    {program : Prog C R α} (sends : program.Sends allowed ends)
    (kept : ∀ command state, allowed command → invariant state →
      invariant (server command state).2)
    (stable : ∀ state state', invariant state → rely state state' → invariant state')
    (start : invariant state) :
    program.Withstands server rely (fun value state' => ends value ∧ invariant state') state := by
  induction program generalizing state with
  | ret value => exact ⟨sends, start⟩
  | call command rest ih =>
      intro state' moved
      exact ih _ (sends.2 _) (kept command state' sends.1 (stable state state' start moved))

/-- What a program returns on any server, it returns here. -/
theorem returns {post : α → σ → Prop} {allowed : C → Prop} {ends : α → Prop}
    {program : Prog C R α} (withstands : program.Withstands server rely post state)
    (sends : program.Sends allowed ends) :
    program.Withstands server rely (fun value state' => ends value ∧
      post value state') state := by
  induction program generalizing state with
  | ret value => exact ⟨sends, withstands⟩
  | call command rest ih =>
      intro state' moved
      exact ih _ (withstands state' moved) (sends.2 _)

end Withstands

namespace Approaches

variable {stop : C → Prop} {calm : σ → Prop} {post : α → σ → Prop}

/-- A program that withstands what happens to it need not wait for the command. -/
theorem of_withstands {program : Prog C R α}
    (withstands : program.Withstands server rely post state) :
    program.Approaches server rely stop calm post state := by
  induction program generalizing state with
  | ret value => exact .ret value state
  | call command rest ih =>
      refine .call (fun state' moved _ _ => withstands state' moved) fun state' moved _ _ => ?_
      exact ih _ (withstands state' moved)

/-- A program that never sends such a command. -/
theorem of_sends {ends : α → Prop} {program : Prog C R α}
    (sends : program.Sends (fun command => ¬stop command) ends) :
    program.Approaches server rely stop calm post state := by
  induction program generalizing state with
  | ret value => exact .ret value state
  | call command rest ih =>
      refine .call (fun _ _ _ stops => absurd stops sends.1) fun state' _ _ _ => ?_
      exact ih _ (sends.2 _)

/-- The rule of composition behind a program that never sends such a command. -/
theorem bind {post : β → σ → Prop} {ends : α → Prop} {program : Prog C R α}
    {next : α → Prog C R β} (sends : program.Sends (fun command => ¬stop command) ends)
    (withstands : program.Withstands server (fun state state' => rely state state' ∧ calm state')
      (fun value state' => (next value).Approaches server rely stop calm post state') state) :
    (program.bind next).Approaches server rely stop calm post state := by
  induction program generalizing state with
  | ret value => exact withstands
  | call command rest ih =>
      refine .call (fun _ _ _ stops => absurd stops sends.1) fun state' moved here _ => ?_
      exact ih _ (sends.2 _) (withstands state' ⟨moved, here⟩)

section

variable {command : C} {rest : R command → Prog C R α}
  (approaches : (Prog.call command rest).Approaches server rely stop calm post state)
  (moved : rely state state') (here : calm state')

include approaches moved here

theorem stops (stops : stop command) :
    (rest (server command state').1).Withstands server rely post (server command state').2 := by
  cases approaches with
  | call stopping _ => exact stopping state' moved here stops

theorem sends (passes : ¬stop command) :
    (rest (server command state').1).Approaches server rely stop calm post
      (server command state').2 := by
  cases approaches with
  | call _ sending => exact sending state' moved here passes

end

theorem moved {program : Prog C R α}
    (trans : ∀ first second third, rely first second → rely second third → rely first third)
    (approaches : program.Approaches server rely stop calm post state)
    (moves : rely state state') : program.Approaches server rely stop calm post state' := by
  cases approaches with
  | ret value => exact .ret value state'
  | call stops sends =>
      exact .call (fun state'' later => stops state'' (trans _ _ _ moves later))
        fun state'' later => sends state'' (trans _ _ _ moves later)

end Approaches

end

namespace SendsUntil

variable {stop allowed : C → Prop}

theorem next {command : C} {rest : R command → Prog C R α}
    (bounded : (call command rest).SendsUntil stop allowed) (passes : ¬stop command) :
    allowed command ∧ ∀ reply, (rest reply).SendsUntil stop allowed := by
  cases bounded with
  | stop stops => exact absurd stops passes
  | send admitted later => exact ⟨admitted, later⟩

theorem of_sends {ends : α → Prop} {program : Prog C R α} (sends : program.Sends allowed ends) :
    program.SendsUntil stop allowed := by
  induction program with
  | ret value => exact .ret value
  | call command rest ih => exact .send sends.1 fun reply => ih reply (sends.2 reply)

/-- The rule of composition behind a program that sends only what is allowed. -/
theorem bind {ends : α → Prop} {program : Prog C R α} {next : α → Prog C R β}
    (sends : program.Sends allowed ends)
    (later : ∀ value, ends value → (next value).SendsUntil stop allowed) :
    (program.bind next).SendsUntil stop allowed := by
  induction program with
  | ret value => exact later value sends
  | call command rest ih => exact .send sends.1 fun reply => ih reply (sends.2 reply)

/-- Where the program never stops, it sends only what is allowed. -/
theorem sends {ends : α → Prop} {program : Prog C R α}
    (bounded : program.SendsUntil stop allowed)
    (never : program.Sends (fun command => ¬stop command) ends) :
    program.Sends (fun command => allowed command ∧ ¬stop command) ends := by
  induction bounded with
  | ret value => exact never
  | stop stops => exact absurd stops never.1
  | send admitted _ ih => exact ⟨⟨admitted, never.1⟩, fun reply => ih reply (never.2 reply)⟩

end SendsUntil

end Dce.Prog
