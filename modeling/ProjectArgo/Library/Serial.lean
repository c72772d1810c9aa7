import Mathlib.Data.List.Basic

/-!
# Operations that run one at a time

An operation runs until it awaits something, and goes on from there with the
reply. Operations that are called in the meantime wait their turn in a queue. A
`Body` says what the operations do between their awaits; a `Serial` holds the state
they share, those that wait, and the await of the one that is under way. Whatever
else a program does to its state happens between these pieces.
-/
namespace Library

variable {σ op κ ρ ω : Type*}

/-- Each piece ends at an await, or ends the operation. -/
structure Body (σ op κ ρ ω : Type*) where
  start : σ → op → σ × Option κ × List ω
  resume : σ → κ → ρ → σ × Option κ × List ω

structure Serial (σ op κ : Type*) where
  state : σ
  queue : List op := []
  current : Option κ := none

namespace Serial

variable (body : Body σ op κ ρ ω) {serial : Serial σ op κ}

def enqueue (serial : Serial σ op κ) (operation : op) : Serial σ op κ :=
  { serial with queue := serial.queue ++ [operation] }

/-- The first operation that waits begins, once nothing else is under way. -/
def next (serial : Serial σ op κ) : Serial σ op κ × List ω :=
  match serial.current, serial.queue with
  | none, operation :: rest =>
    let piece := body.start serial.state operation
    (⟨piece.1, rest, piece.2.1⟩, piece.2.2)
  | _, _ => (serial, [])

/-- The operation under way goes on with what it awaited. -/
def reply (serial : Serial σ op κ) (answer : ρ) : Serial σ op κ × List ω :=
  match serial.current with
  | some await =>
    let piece := body.resume serial.state await answer
    (⟨piece.1, serial.queue, piece.2.1⟩, piece.2.2)
  | none => (serial, [])

/-- A piece runs, or nothing happens. -/
inductive Moves (serial : Serial σ op κ) : Serial σ op κ → List ω → Prop
  | same : Moves serial serial []
  | starts {operation : op} {rest : List op} (hcurrent : serial.current = none)
      (hqueue : serial.queue = operation :: rest) :
      Moves serial ⟨(body.start serial.state operation).1, rest,
        (body.start serial.state operation).2.1⟩ (body.start serial.state operation).2.2
  | resumes {await : κ} {answer : ρ} (hcurrent : serial.current = some await) :
      Moves serial ⟨(body.resume serial.state await answer).1, serial.queue,
        (body.resume serial.state await answer).2.1⟩ (body.resume serial.state await answer).2.2

theorem next_moves (serial : Serial σ op κ) :
    Moves body serial (serial.next body).1 (serial.next body).2 := by
  unfold next
  split
  · rename_i hcurrent hqueue
    exact .starts hcurrent hqueue
  · exact .same

theorem reply_moves (serial : Serial σ op κ) (answer : ρ) :
    Moves body serial (serial.reply body answer).1 (serial.reply body answer).2 := by
  unfold reply
  split
  · rename_i hcurrent
    exact .resumes hcurrent
  · exact .same

end Serial

end Library
