import Mathlib.Logic.Function.Basic
import ProjectArgo.Library.Run

/-!
# Exclusion of microphone owners between processes

Daemons of one desktop user share a lock file. An acquisition opens it, tries the
exclusive lock, truncates the file and writes its owner's code; the open file is
then the lease. The advisory state opens the same file, tries the same lock and,
where the lock is taken, reads whose code is written. Every one of these is a step
of its own, and any number of processes may take them in any order.
-/
namespace ProjectArgo.Microphone

inductive Owner
  | carPlay
  | androidAuto
  | bluetoothCall
  | localAssistant
  | setupTest
  | unknown
  deriving DecidableEq

namespace Owner

def code : Owner → List Char
  | carPlay => "owned-by-carplay".toList
  | androidAuto => "owned-by-android-auto".toList
  | bluetoothCall => "owned-by-bluetooth-call".toList
  | localAssistant => "owned-by-local-assistant".toList
  | setupTest => "owned-by-setup-test".toList
  | unknown => "unavailable".toList

def parse (text : List Char) : Owner :=
  ([carPlay, androidAuto, bluetoothCall, localAssistant, setupTest].find? fun owner =>
    owner.code = text).getD unknown

@[simp] theorem parse_code (owner : Owner) : parse owner.code = owner := by
  cases owner <;> decide +kernel

@[simp] theorem parse_nil : parse [] = unknown := by decide

/-- A code that was not written to its end names nobody. -/
theorem parse_take_code (owner : Owner) {n : ℕ} (h : n < owner.code.length) :
    parse (owner.code.take n) = unknown := by
  have hall : ∀ owner : Owner, ∀ n : Fin owner.code.length,
      parse (owner.code.take n) = unknown := by
    intro owner
    cases owner <;> decide +kernel
  exact hall owner ⟨n, h⟩

theorem code_length_le (owner : Owner) : owner.code.length ≤ 64 := by
  cases owner <;> decide +kernel

end Owner

/-- Where a call, or the lease it gave, stands. -/
inductive Phase
  | acquiring (owner : Owner)
  | locked (owner : Owner)
  | truncated (owner : Owner)
  | leased (owner : Owner)
  | poisoned (owner : Owner)
  | reading
  | probed
  | refused
  deriving DecidableEq

namespace Phase

/-- The owner for whom the exclusive lock is held. -/
def owner? : Phase → Option Owner
  | locked owner => some owner
  | truncated owner => some owner
  | leased owner => some owner
  | poisoned owner => some owner
  | _ => none

/-- The owner of an undropped lease. -/
def lease? : Phase → Option Owner
  | leased owner => some owner
  | poisoned owner => some owner
  | _ => none

/-- The open file has the exclusive lock. A state call that finds it free takes it. -/
def Locks (phase : Phase) : Prop := phase.owner?.isSome ∨ phase = probed

instance : DecidablePred Locks := fun phase => inferInstanceAs (Decidable (_ ∨ phase = probed))

/-- What the file holds while its owner is in this phase. -/
def contents? : Phase → Option (List Char)
  | truncated _ => some []
  | leased owner => some owner.code
  | poisoned owner => some owner.code
  | _ => none

end Phase

/-- An open file of a process. -/
structure Handle where
  process : ℕ
  phase : Phase
  deriving DecidableEq

/-- The lock file, the open file that has its lock, and all that are open. The file
is never unlinked. -/
structure System where
  file : Option (List Char) := none
  lock : Option ℕ := none
  handles : ℕ → Option Handle := fun _ => none
  next : ℕ := 0

/-- Why the runtime directory or the file is not used. -/
inductive Fault
  | noRuntime
  | invalid
  deriving DecidableEq

def Fault.code : Fault → List Char
  | noRuntime => "unavailable".toList
  | invalid => "failed".toList

inductive Event
  | openLease (process : ℕ) (owner : Owner) (fault : Option Fault)
  | tryLease (id : ℕ) (ok : Bool)
  | truncate (id : ℕ) (ok : Bool)
  | write (id : ℕ) (short : Option ℕ)
  | drop (id : ℕ)
  | poison (id : ℕ)
  | openState (process : ℕ) (fault : Option Fault)
  | tryState (id : ℕ) (ok : Bool)
  | readState (id : ℕ) (ok : Bool)
  | closeState (id : ℕ)
  | exit (process : ℕ)
  deriving DecidableEq

/-- What a call returns. -/
inductive Act
  | leased (id : ℕ)
  | contended (id : ℕ)
  | failed (id : ℕ)
  | stated (id : ℕ) (code : List Char)
  deriving DecidableEq

namespace System

def set (sys : System) (id : ℕ) (handle : Handle) : System :=
  { sys with handles := Function.update sys.handles id (some handle) }

def add (sys : System) (handle : Handle) : System :=
  { sys.set sys.next handle with next := sys.next + 1 }

/-- Closing a file gives its lock back. -/
def close (sys : System) (id : ℕ) : System :=
  { sys with
    handles := Function.update sys.handles id none
    lock := if sys.lock = some id then none else sys.lock }

/-! ## Acquisition -/

def openLease (sys : System) (process : ℕ) (owner : Owner) : Option Fault → System × List Act
  | some _ => ({ sys with next := sys.next + 1 }, [.failed sys.next])
  | none => ({ sys with file := some (sys.file.getD []) }.add ⟨process, .acquiring owner⟩, [])

/-- Any failure of `flock` is taken for contention. -/
def tryLease (sys : System) (id : ℕ) (ok : Bool) : System × List Act :=
  match sys.handles id with
  | some ⟨process, .acquiring owner⟩ =>
    if ok = true ∧ sys.lock = none then
      ({ sys.set id ⟨process, .locked owner⟩ with lock := some id }, [])
    else (sys.close id, [.contended id])
  | _ => (sys, [])

def truncate (sys : System) (id : ℕ) (ok : Bool) : System × List Act :=
  match sys.handles id with
  | some ⟨process, .locked owner⟩ =>
    if ok then ({ sys.set id ⟨process, .truncated owner⟩ with file := some [] }, [])
    else (sys.close id, [.failed id])
  | _ => (sys, [])

/-- A failed write leaves less than the whole code. -/
def write (sys : System) (id : ℕ) (short : Option ℕ) : System × List Act :=
  match sys.handles id with
  | some ⟨process, .truncated owner⟩ =>
    match short with
    | none =>
      ({ sys.set id ⟨process, .leased owner⟩ with file := some owner.code }, [.leased id])
    | some n =>
      if n < owner.code.length then
        ({ sys.close id with file := some (owner.code.take n) }, [.failed id])
      else (sys, [])
  | _ => (sys, [])

def drop (sys : System) (id : ℕ) : System × List Act :=
  match sys.handles id with
  | some ⟨_, .leased _⟩ => (sys.close id, [])
  | _ => (sys, [])

/-- `std::mem::forget`: nothing closes the file any more. -/
def poison (sys : System) (id : ℕ) : System × List Act :=
  match sys.handles id with
  | some ⟨process, .leased owner⟩ => (sys.set id ⟨process, .poisoned owner⟩, [])
  | _ => (sys, [])

/-! ## Advisory state -/

def openState (sys : System) (process : ℕ) : Option Fault → System × List Act
  | some fault => ({ sys with next := sys.next + 1 }, [.stated sys.next fault.code])
  | none =>
    if sys.file = none then
      ({ sys with next := sys.next + 1 }, [.stated sys.next "available".toList])
    else (sys.add ⟨process, .reading⟩, [])

/-- Here a failure that is not `EWOULDBLOCK` is told apart. -/
def tryState (sys : System) (id : ℕ) (ok : Bool) : System × List Act :=
  match sys.handles id with
  | some ⟨process, .reading⟩ =>
    if ok = false then (sys.close id, [.stated id "failed".toList])
    else if sys.lock = none then ({ sys.set id ⟨process, .probed⟩ with lock := some id }, [])
    else (sys.set id ⟨process, .refused⟩, [])
  | _ => (sys, [])

/-- `state_in` reads at most 64 bytes. -/
def named (sys : System) : Owner := .parse ((sys.file.getD []).take 64)

def readState (sys : System) (id : ℕ) (ok : Bool) : System × List Act :=
  match sys.handles id with
  | some ⟨_, .refused⟩ =>
    (sys.close id, [.stated id (if ok then sys.named.code else "failed".toList)])
  | _ => (sys, [])

/-- The lock a state call took is given back when it returns. -/
def closeState (sys : System) (id : ℕ) : System × List Act :=
  match sys.handles id with
  | some ⟨_, .probed⟩ => (sys.close id, [.stated id "available".toList])
  | _ => (sys, [])

/-! ## Processes -/

/-- The end of a process closes its files, poisoned leases too. -/
def exit (sys : System) (process : ℕ) : System :=
  { sys with
    handles := fun id => (sys.handles id).filter (·.process ≠ process)
    lock := sys.lock.filter fun id => (sys.handles id).all (·.process ≠ process) }

def step (sys : System) : Event → System × List Act
  | .openLease process owner fault => sys.openLease process owner fault
  | .tryLease id ok => sys.tryLease id ok
  | .truncate id ok => sys.truncate id ok
  | .write id short => sys.write id short
  | .drop id => sys.drop id
  | .poison id => sys.poison id
  | .openState process fault => sys.openState process fault
  | .tryState id ok => sys.tryState id ok
  | .readState id ok => sys.readState id ok
  | .closeState id => sys.closeState id
  | .exit process => (sys.exit process, [])

end System

end ProjectArgo.Microphone
