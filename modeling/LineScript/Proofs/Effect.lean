import LineScript.Execution

/-!
The effects that statements have: a change of the store, an exchange with the host, or both. What
performing an effect can come to is listed once, with what the host answered, and every property
of effects is a case analysis of that list.
-/

namespace LineScript

/-- Puts consecutive values into the cells from `start` on. -/
def Store.place (store : Store) (start : Nat) (values : List Int64) : Store :=
  { store with memory := store.memory.place start values }

@[simp] theorem Store.value?_place (store : Store) (start : Nat) (values : List Int64)
    (name : String) : (store.place start values).value? name = store.value? name := rfl

@[simp] theorem Store.memory_place (store : Store) (start : Nat) (values : List Int64) :
    (store.place start values).memory = store.memory.place start values := rfl

inductive Effect
  | nothing
  | assign (target : String) (value : Int64)
  | poke (address : Nat) (value : Int64)
  | write (bytes : Bytes) (call : Position)
  | take (target : String) (call : Position)
  | load (path : String) (start : Nat) (length : String) (call : Position)
  | save (path : String) (bytes : Bytes) (call : Position)

namespace Effect
open Command

def perform : Effect → Command Unit
  | .nothing => pure ()
  | .assign target value => Command.assign target value
  | .poke address value => modify fun store => store.place address [value]
  | .write bytes call => emit bytes call
  | .take target call => do
      let byte ← nextByte call
      Command.assign target (byteWord byte)
  | .load path start length call => do
      let bytes ← loadFile path call
      let _ ← rangeEnd start bytes.length call
      modify fun store => store.place start (bytes.map byteWord)
      Command.assign length (Int64.ofNat bytes.length)
  | .save path bytes call => saveFile path bytes call

variable {σ : Type} [Host σ]

theorem exec_take (target : String) (call : Position) (store : Store) (host : σ) :
    (take target call).perform.exec store host =
      match Host.answer .flush host with
      | (.error reason, host) => ((.error ⟨.output reason, call⟩, store), host)
      | (.ok (), host) =>
          match Host.answer .readByte host with
          | (.byte value, host) => ((.ok (), store.assign target (byteWord value)), host)
          | (.exhausted, host) => ((.error ⟨.endOfInput, call⟩, store), host)
          | (.failed reason, host) => ((.error ⟨.input reason, call⟩, store), host) := by
  rw [perform, exec_bind, exec_nextByte]
  obtain ⟨reason | _, host⟩ := Host.answer Request.flush host
  · rfl
  · dsimp only
    obtain ⟨value | _ | reason, host⟩ := Host.answer Request.readByte host
    · rfl
    · rfl
    · rfl

theorem exec_load (path : String) (start : Nat) (length : String) (call : Position)
    (store : Store) (host : σ) :
    (load path start length call).perform.exec store host =
      match Host.answer (.readFile path) host with
      | (.error reason, host) => ((.error ⟨.fileSystem path reason, call⟩, store), host)
      | (.ok bytes, host) =>
          if start + bytes.length ≤ store.memory.size then
            ((.ok (), (store.place start (bytes.map byteWord)).assign length
              (Int64.ofNat bytes.length)), host)
          else
            ((.error ⟨.rangeOutOfBounds start bytes.length store.memory.size, call⟩, store),
              host) := by
  rw [perform, exec_bind, exec_loadFile]
  obtain ⟨reason | bytes, host⟩ := Host.answer (.readFile path) host
  · rfl
  · simp only [exec_bind, rangeEnd, exec_check, Store.rangeEnd]
    by_cases fits : start + bytes.length ≤ store.memory.size
    · rw [if_pos fits, if_pos ⟨Int.natCast_nonneg _, by exact_mod_cast fits⟩]
      rfl
    · rw [if_neg fits, if_neg fun inside => fits (by exact_mod_cast inside.2)]

/-- Everything that performing an effect can come to, with what the host answered. -/
inductive Performed (store : Store) (host : σ) :
    Effect → (Except RunError Unit × Store) × σ → Prop
  | nothing : Performed store host .nothing ((.ok (), store), host)
  | assigned (target : String) (value : Int64) :
      Performed store host (.assign target value) ((.ok (), store.assign target value), host)
  | poked (address : Nat) (value : Int64) :
      Performed store host (.poke address value) ((.ok (), store.place address [value]), host)
  | written {bytes : Bytes} {call : Position} {after : σ}
      (wrote : Host.answer (.write bytes) host = (.ok (), after)) :
      Performed store host (.write bytes call) ((.ok (), store), after)
  | unwritten {bytes : Bytes} {call : Position} {reason : String} {after : σ}
      (wrote : Host.answer (.write bytes) host = (.error reason, after)) :
      Performed store host (.write bytes call) ((.error ⟨.output reason, call⟩, store), after)
  | unflushed {target : String} {call : Position} {reason : String} {after : σ}
      (flushed : Host.answer .flush host = (.error reason, after)) :
      Performed store host (.take target call) ((.error ⟨.output reason, call⟩, store), after)
  | taken {target : String} {call : Position} {value : UInt8} {ready after : σ}
      (flushed : Host.answer .flush host = (.ok (), ready))
      (read : Host.answer .readByte ready = (.byte value, after)) :
      Performed store host (.take target call)
        ((.ok (), store.assign target (byteWord value)), after)
  | exhausted {target : String} {call : Position} {ready after : σ}
      (flushed : Host.answer .flush host = (.ok (), ready))
      (read : Host.answer .readByte ready = (.exhausted, after)) :
      Performed store host (.take target call) ((.error ⟨.endOfInput, call⟩, store), after)
  | unread {target : String} {call : Position} {reason : String} {ready after : σ}
      (flushed : Host.answer .flush host = (.ok (), ready))
      (read : Host.answer .readByte ready = (.failed reason, after)) :
      Performed store host (.take target call) ((.error ⟨.input reason, call⟩, store), after)
  | loaded {path : String} {start : Nat} {length : String} {call : Position} {bytes : Bytes}
      {after : σ} (read : Host.answer (.readFile path) host = (.ok bytes, after))
      (fits : start + bytes.length ≤ store.memory.size) :
      Performed store host (.load path start length call)
        ((.ok (), (store.place start (bytes.map byteWord)).assign length
          (Int64.ofNat bytes.length)), after)
  | overfull {path : String} {start : Nat} {length : String} {call : Position} {bytes : Bytes}
      {after : σ} (read : Host.answer (.readFile path) host = (.ok bytes, after))
      (exceeds : store.memory.size < start + bytes.length) :
      Performed store host (.load path start length call)
        ((.error ⟨.rangeOutOfBounds start bytes.length store.memory.size, call⟩, store), after)
  | unloaded {path : String} {start : Nat} {length : String} {call : Position} {reason : String}
      {after : σ} (read : Host.answer (.readFile path) host = (.error reason, after)) :
      Performed store host (.load path start length call)
        ((.error ⟨.fileSystem path reason, call⟩, store), after)
  | saved {path : String} {bytes : Bytes} {call : Position} {after : σ}
      (wrote : Host.answer (.writeFile path bytes) host = (.ok (), after)) :
      Performed store host (.save path bytes call) ((.ok (), store), after)
  | unsaved {path : String} {bytes : Bytes} {call : Position} {reason : String} {after : σ}
      (wrote : Host.answer (.writeFile path bytes) host = (.error reason, after)) :
      Performed store host (.save path bytes call)
        ((.error ⟨.fileSystem path reason, call⟩, store), after)

theorem perform_performed (effect : Effect) (store : Store) (host : σ) :
    Performed store host effect (effect.perform.exec store host) := by
  cases effect with
  | nothing => exact .nothing
  | assign target value => exact .assigned target value
  | poke address value => exact .poked address value
  | write bytes call =>
      rw [perform, exec_emit]
      rcases wrote : Host.answer (.write bytes) host with ⟨reason | _, after⟩
      · exact .unwritten wrote
      · exact .written wrote
  | take target call =>
      rw [exec_take]
      rcases flushed : Host.answer Request.flush host with ⟨reason | _, ready⟩
      · exact .unflushed flushed
      · dsimp only
        rcases read : Host.answer Request.readByte ready with ⟨value | _ | reason, after⟩
        · exact .taken flushed read
        · exact .exhausted flushed read
        · exact .unread flushed read
  | load path start length call =>
      rw [exec_load]
      rcases read : Host.answer (.readFile path) host with ⟨reason | bytes, after⟩
      · exact .unloaded read
      · by_cases fits : start + bytes.length ≤ store.memory.size
        · simp only [if_pos fits]
          exact .loaded read fits
        · simp only [if_neg fits]
          exact .overfull read (Nat.lt_of_not_le fits)
  | save path bytes call =>
      rw [perform, exec_saveFile]
      rcases wrote : Host.answer (.writeFile path bytes) host with ⟨reason | _, after⟩
      · exact .unsaved wrote
      · exact .saved wrote

end Effect

end LineScript
