import LineScript.FileStore
import LineScript.Interaction

/-!
Modelled worlds: a host whose input, output and files are data. Reads of the input can be
interrupted or fail, the output can take its bytes in pieces and fill up, and chosen flushes can
fail.
-/

namespace LineScript

/-- One read takes one item. The end of the list reads as the end of the input. -/
inductive InputItem
  | byte (value : UInt8)
  | interrupt
  | endOfInput
  | failure (reason : String)
deriving DecidableEq, Repr

namespace InputItem

/-- Reads until something other than an interrupt is delivered. -/
def deliver : List InputItem → Delivery × List InputItem
  | [] => (.exhausted, [])
  | .byte value :: rest => (.byte value, rest)
  | .interrupt :: rest => deliver rest
  | .endOfInput :: rest => (.exhausted, rest)
  | .failure reason :: rest => (.failed reason, rest)

end InputItem

/-- What a sink without room answers to a call: an error, or that it took nothing. -/
inductive Refusal
  | noSpace
  | nothingTaken
deriving DecidableEq, Repr

/-- A receiver of bytes. `capacity` bounds the bytes it takes in all and `chunk` those of one
call. -/
structure Sink where
  written : Array UInt8
  capacity : Option Nat
  chunk : Option Nat
  refusal : Refusal

namespace Sink

def unlimited : Sink := ⟨#[], none, none, .noSpace⟩

/-- How many of `count` bytes, at least one, a single call takes, or why it fails. -/
def offer (sink : Sink) (count : Nat) : Except String Nat :=
  let fitting := (sink.chunk.map (min count)).getD count
  match sink.capacity with
  | none => .ok fitting
  | some capacity =>
      let room := capacity - sink.written.size
      if room = 0 ∧ sink.refusal = .noSpace then .error "no space left"
      else .ok (min fitting room)

def accept (sink : Sink) (bytes : Bytes) : Sink :=
  { sink with written := sink.written.appendList bytes }

/-- Repeats calls until all bytes are taken. A call that takes nothing is a failure. -/
def writeAll (sink : Sink) (bytes : Bytes) : Except String Unit × Sink :=
  if bytes.length = 0 then (.ok (), sink)
  else
    match sink.offer bytes.length with
    | .error reason => (.error reason, sink)
    | .ok 0 => (.error "failed to write whole buffer", sink)
    | .ok (count + 1) =>
        (sink.accept (bytes.take (count + 1))).writeAll (bytes.drop (count + 1))
termination_by bytes.length
decreasing_by
  simp only [List.length_drop]
  omega

end Sink

/-- `flushes` holds, in reverse, how many bytes had been written at each flush that succeeded. -/
structure World (φ : Type) where
  input : List InputItem
  output : Sink
  flushAttempts : Nat
  failingFlushes : List Nat
  flushes : List Nat
  files : φ

namespace World

variable {φ : Type}

/-- A world that takes all output and lets every flush succeed. -/
def quiet (input : Bytes) (files : φ) : World φ :=
  ⟨input.map .byte, .unlimited, 0, [], [], files⟩

def flush (world : World φ) : Except String Unit × World φ :=
  let attempt := world.flushAttempts + 1
  if attempt ∈ world.failingFlushes then
    (.error "flush failed", { world with flushAttempts := attempt })
  else
    (.ok (), { world with
      flushAttempts := attempt, flushes := world.output.written.size :: world.flushes })

def answer [FileStore φ] : (request : Request) → World φ → request.Reply × World φ
  | .write bytes, world =>
      let (result, output) := world.output.writeAll bytes
      (result, { world with output })
  | .flush, world => world.flush
  | .readByte, world =>
      let (delivery, input) := InputItem.deliver world.input
      (delivery, { world with input })
  | .readFile path, world => (FileStore.load world.files path, world)
  | .writeFile path bytes, world =>
      match FileStore.save world.files path bytes with
      | .ok files => (.ok (), { world with files })
      | .error reason => (.error reason, world)

instance [FileStore φ] : Host (World φ) := ⟨answer⟩

end World
end LineScript
