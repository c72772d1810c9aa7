import ProjectArgo.Library.Filling

/-!
# Reading frames of the microphone

The capture process writes one stream of samples, and the session takes frames of a fixed length out
of it. A session that has something else to do drops the read it waits for and asks for a frame
again later.
-/
namespace ProjectArgo.Projection

open Library.Filling

def PCM_FRAME : ℕ := 640

/-- Why a read gives nothing: the deadline has passed, the process is gone, or nobody waits for the
read any more. -/
inductive PcmFault
  | stalled
  | failed
  | dropped
  deriving DecidableEq

/-- The frame that is being read, with the octets of it that are there. -/
structure PcmReader where
  frame : Buffer UInt8
  size : frame.cells.length = PCM_FRAME

/-- What a call comes to. One that is dropped, or that waits at the end, returns nothing. -/
inductive PcmResult
  | frame (octets : List UInt8)
  | error (reason : String)
  | pending
  deriving DecidableEq

namespace PcmReader

def new : PcmReader where
  frame := ⟨List.replicate PCM_FRAME 0, 0, Nat.zero_le _⟩
  size := List.length_replicate

/-- What a call returns when its reads have come to an end. -/
def conclude (filled : Filled UInt8 PcmFault) (hsize : filled.buffer.cells.length = PCM_FRAME) :
    PcmResult × PcmReader × List UInt8 :=
  match filled.ending with
  | .full => (.frame filled.buffer.cells, ⟨filled.buffer.clear, hsize⟩, filled.rest)
  | .ended => (.error "Microphone disconnected", ⟨filled.buffer, hsize⟩, filled.rest)
  | .broken .stalled => (.error "Microphone input stalled", ⟨filled.buffer, hsize⟩, filled.rest)
  | .broken .failed => (.error "Microphone disconnected", ⟨filled.buffer, hsize⟩, filled.rest)
  | .broken .dropped => (.pending, ⟨filled.buffer, hsize⟩, filled.rest)
  | .waiting => (.pending, ⟨filled.buffer, hsize⟩, filled.rest)

/-- A call of `frame`: what it returns, the reader after it, and what of the stream is not read. -/
def readFrame (reader : PcmReader) (stream : List UInt8) (arrivals : List (Arrival PcmFault)) :
    PcmResult × PcmReader × List UInt8 :=
  conclude (fill reader.frame stream arrivals)
    ((fill_spec reader.frame stream arrivals).2.1.trans reader.size)

/-- One call after the other, each with what its reads meet. -/
def calls (reader : PcmReader) (stream : List UInt8) :
    List (List (Arrival PcmFault)) → List PcmResult × PcmReader × List UInt8
  | [] => ([], reader, stream)
  | arrivals :: more =>
    let (result, reader, stream) := reader.readFrame stream arrivals
    let (results, reader, stream) := reader.calls stream more
    (result :: results, reader, stream)

/-- The octets of the frames that were returned. -/
def returned : List PcmResult → List UInt8
  | [] => []
  | .frame octets :: results => octets ++ returned results
  | _ :: results => returned results

theorem conclude_spec (filled : Filled UInt8 PcmFault)
    (hsize : filled.buffer.cells.length = PCM_FRAME)
    (hfull : filled.ending = .full → filled.buffer.used = PCM_FRAME) :
    let (result, next, rest) := conclude filled hsize
    returned [result] ++ next.frame.filled ++ rest = filled.buffer.filled ++ filled.rest ∧
      ∀ octets, result = .frame octets → octets.length = PCM_FRAME := by
  obtain ⟨ending, buffer, rest, arrivals⟩ := filled
  cases ending with
  | full =>
    have hcells : buffer.filled = buffer.cells :=
      buffer.filled_of_full ((hfull rfl).trans hsize.symm)
    refine ⟨?_, fun octets h => ?_⟩
    · simp [conclude, returned, hcells]
    · cases h
      exact hsize
  | ended => exact ⟨rfl, fun octets h => nomatch h⟩
  | waiting => exact ⟨rfl, fun octets h => nomatch h⟩
  | broken fault =>
    cases fault with
    | stalled => exact ⟨rfl, fun octets h => nomatch h⟩
    | failed => exact ⟨rfl, fun octets h => nomatch h⟩
    | dropped => exact ⟨rfl, fun octets h => nomatch h⟩

/-- One call takes from the stream what it returns and what the reader keeps. -/
theorem readFrame_spec (reader : PcmReader) (stream : List UInt8)
    (arrivals : List (Arrival PcmFault)) :
    let (result, next, rest) := reader.readFrame stream arrivals
    returned [result] ++ next.frame.filled ++ rest = reader.frame.filled ++ stream ∧
      ∀ octets, result = .frame octets → octets.length = PCM_FRAME := by
  obtain ⟨hsame, hsize, hfull⟩ := fill_spec reader.frame stream arrivals
  obtain ⟨htaken, hlength⟩ := conclude_spec (fill reader.frame stream arrivals)
    (hsize.trans reader.size) (fun h => (hfull h).trans reader.size)
  exact ⟨htaken.trans hsame, hlength⟩

theorem returned_cons (result : PcmResult) (results : List PcmResult) :
    returned (result :: results) = returned [result] ++ returned results := by
  cases result <;> simp [returned]

theorem calls_spec (reader : PcmReader) (stream : List UInt8)
    (arrivals : List (List (Arrival PcmFault))) :
    let (results, next, rest) := reader.calls stream arrivals
    returned results ++ next.frame.filled ++ rest = reader.frame.filled ++ stream ∧
      ∀ octets, .frame octets ∈ results → octets.length = PCM_FRAME := by
  induction arrivals generalizing reader stream with
  | nil => exact ⟨rfl, fun octets h => nomatch h⟩
  | cons first more ih =>
    have hfirst := reader.readFrame_spec stream first
    rcases hcall : reader.readFrame stream first with ⟨result, next, rest⟩
    rw [hcall] at hfirst
    have hmore := ih next rest
    rcases hcalls : next.calls rest more with ⟨results, last, left⟩
    rw [hcalls] at hmore
    simp only [calls, hcall, hcalls]
    refine ⟨?_, fun octets h => ?_⟩
    · calc returned (result :: results) ++ last.frame.filled ++ left
          = returned [result] ++ (returned results ++ last.frame.filled ++ left) := by
            rw [returned_cons, List.append_assoc, List.append_assoc, List.append_assoc]
        _ = returned [result] ++ next.frame.filled ++ rest := by
            rw [hmore.1, List.append_assoc]
        _ = reader.frame.filled ++ stream := hfirst.1
    · rcases List.mem_cons.mp h with h | h
      · exact hfirst.2 octets h.symm
      · exact hmore.2 octets h

/-- However the stream is split into reads, and wherever calls are dropped or fail and are made
again: the frames that were returned, what the reader keeps of the next one and what is not read
make up the stream, and each frame has its length. -/
theorem frames_prefix (stream : List UInt8) (arrivals : List (List (Arrival PcmFault))) :
    let (results, reader, rest) := new.calls stream arrivals
    returned results ++ reader.frame.filled ++ rest = stream ∧ returned results <+: stream ∧
      ∀ octets, .frame octets ∈ results → octets.length = PCM_FRAME := by
  obtain ⟨hsame, hlength⟩ := new.calls_spec stream arrivals
  exact ⟨hsame, ⟨_, (List.append_assoc ..).symm.trans hsame⟩, hlength⟩

end PcmReader
end ProjectArgo.Projection
