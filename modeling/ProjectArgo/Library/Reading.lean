import ProjectArgo.Library.Bytes

/-!
# Fields read off the front of an octet string

A reader takes what it needs from the front of its input or ends with an error. `Reads p wire a`
says that `p` makes `a` of `wire` whatever follows it, and such facts are put together field by
field in the order in which the fields are read.
-/
namespace Library.Reading

open Library.Bytes

variable {ε α β : Type}

abbrev Reader (ε α : Type) := StateT (List UInt8) (Except ε) α

/-- The next `count` octets. -/
def take (truncated : ε) (count : ℕ) : Reader ε (List UInt8) := fun input =>
  if input.length < count then .error truncated else .ok (input.take count, input.drop count)

/-- A number in big-endian order. -/
def number (truncated : ε) (count : ℕ) : Reader ε ℕ := do
  let bytes ← take truncated count
  return ofBigEndian bytes

def check (failure : ε) (holds : Prop) [Decidable holds] : Reader ε Unit :=
  if holds then pure () else throw failure

/-- Nothing is left. -/
def done (trailing : ε) : Reader ε Unit := fun input =>
  if input = [] then .ok ((), []) else .error trailing

def Reads (p : Reader ε α) (wire : List UInt8) (a : α) : Prop :=
  ∀ rest, p.run (wire ++ rest) = .ok (a, rest)

theorem Reads.pure (a : α) : Reads (Pure.pure a : Reader ε α) [] a := fun _ => rfl

theorem Reads.run_bind {p : Reader ε α} {wire : List UInt8} {a : α} (h : Reads p wire a)
    (f : α → Reader ε β) (rest : List UInt8) : (p >>= f).run (wire ++ rest) = (f a).run rest := by
  rw [StateT.run_bind, h]
  rfl

theorem Reads.bind {p : Reader ε α} {f : α → Reader ε β} {wire more : List UInt8} {a : α} {b : β}
    (hp : Reads p wire a) (hf : Reads (f a) more b) : Reads (p >>= f) (wire ++ more) b := by
  intro rest
  rw [List.append_assoc, hp.run_bind]
  exact hf rest

/-- A step that reads nothing. -/
theorem Reads.then {p : Reader ε α} {f : α → Reader ε β} {wire : List UInt8} {a : α} {b : β}
    (hp : Reads p [] a) (hf : Reads (f a) wire b) : Reads (p >>= f) wire b := hp.bind hf

/-- A step with which the reading ends. -/
theorem Reads.last {p : Reader ε α} {f : α → Reader ε β} {wire : List UInt8} {a : α} {b : β}
    (hp : Reads p wire a) (hf : Reads (f a) [] b) : Reads (p >>= f) wire b := by
  have := hp.bind hf
  rwa [List.append_nil] at this

theorem done_run_bind (trailing : ε) (f : Unit → Reader ε β) :
    (done trailing >>= f).run [] = (f ()).run [] := rfl

theorem check_run_bind {failure : ε} {holds : Prop} [Decidable holds] (h : holds)
    (f : Unit → Reader ε β) (input : List UInt8) :
    (check failure holds >>= f).run input = (f ()).run input := by
  rw [check, if_pos h]
  rfl

theorem reads_take (truncated : ε) {count : ℕ} {bytes : List UInt8} (h : bytes.length = count) :
    Reads (take truncated count) bytes bytes := by
  intro rest
  have hlong : ¬ (bytes ++ rest).length < count := by
    rw [List.length_append]
    omega
  change (if (bytes ++ rest).length < count then _ else _) = _
  rw [if_neg hlong, List.take_left' h, List.drop_left' h]

theorem reads_number (truncated : ε) {count n : ℕ} (h : n < 256 ^ count) :
    Reads (number truncated count) (bigEndian count n) n := by
  apply Reads.last (reads_take truncated (length_bigEndian count n))
  rw [ofBigEndian_bigEndian h]
  exact Reads.pure n

theorem reads_check {failure : ε} {holds : Prop} [Decidable holds] (h : holds) :
    Reads (check failure holds) [] () := by
  rw [check, if_pos h]
  exact Reads.pure ()

end Library.Reading
