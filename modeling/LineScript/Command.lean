import LineScript.Interaction
import LineScript.Store

/-!
Commands: what a statement or builtin does to a store and its host. A failing command keeps the
changes made before it failed. `exec` carries a command out on a given host; its laws say what each
basic command does there.
-/

namespace LineScript

abbrev Command := ExceptT RunError (StateT Store Interaction)

namespace Command

def fail {α : Type} (fault : RunFault) (position : Position) : Command α :=
  throw ⟨fault, position⟩

/-- Looks at the store without changing it. -/
def check {α : Type} (read : Store → Except RunError α) : Command α := do
  ofExcept (read (← get))

/-- The result of an access that earlier checks made safe. -/
def require {α : Type} (breach : Breach) (call : Position) : Option α → Command α
  | some value => pure value
  | none => fail (.breach breach) call

def ask (request : Request) : Command request.Reply :=
  (Interaction.request request : Interaction request.Reply)

def evaluate (operand : Operand) : Command Int64 :=
  check fun store => store.evaluate operand

def cellOf (operand : Operand) (call : Position) : Command Nat :=
  check fun store => store.cellOf operand call

def rangeEnd (start : Nat) (length : Int) (call : Position) : Command Nat :=
  check fun store => store.rangeEnd start length call

def assign (name : String) (value : Int64) : Command Unit :=
  modify fun store => store.assign name value

def readCell (address : Nat) (call : Position) : Command Int64 := do
  require (.cellOutside address) call ((← get).memory.get? address)

def writeCell (address : Nat) (value : Int64) (call : Position) : Command Unit := do
  let store ← get
  let memory ← require (.cellOutside address) call (store.memory.set? address value)
  set { store with memory }

def readCells (start stop : Nat) (call : Position) : Command (List Int64) := do
  require (.rangeOutside start stop) call ((← get).memory.slice? start stop)

def writeCells (start stop : Nat) (values : List Int64) (call : Position) : Command Unit := do
  let store ← get
  let memory ← require (.rangeOutside start stop) call (store.memory.fill? start stop values)
  set { store with memory }

def emit (bytes : Bytes) (call : Position) : Command Unit := do
  match ← ask (.write bytes) with
  | .ok () => pure ()
  | .error reason => fail (.output reason) call

def flush (call : Position) : Command Unit := do
  match ← ask .flush with
  | .ok () => pure ()
  | .error reason => fail (.output reason) call

/-- Takes one byte of input. Output is flushed first, so that a prompt is seen before the wait. -/
def nextByte (call : Position) : Command UInt8 := do
  flush call
  match ← ask .readByte with
  | .byte value => pure value
  | .exhausted => fail .endOfInput call
  | .failed reason => fail (.input reason) call

def loadFile (path : String) (call : Position) : Command Bytes := do
  match ← ask (.readFile path) with
  | .ok bytes => pure bytes
  | .error reason => fail (.fileSystem path reason) call

def saveFile (path : String) (bytes : Bytes) (call : Position) : Command Unit := do
  match ← ask (.writeFile path bytes) with
  | .ok () => pure ()
  | .error reason => fail (.fileSystem path reason) call

/-- The interaction that a command is when it starts from a given store. -/
def on {α : Type} (command : Command α) (store : Store) :
    Interaction (Except RunError α × Store) :=
  StateT.run (ExceptT.run command) store

variable {σ α β : Type} [Host σ]

def exec (command : Command α) (store : Store) (host : σ) : (Except RunError α × Store) × σ :=
  (command.on store).run host

@[simp] theorem exec_pure (value : α) (store : Store) (host : σ) :
    (pure value : Command α).exec store host = ((.ok value, store), host) := rfl

@[simp] theorem exec_fail (fault : RunFault) (position : Position) (store : Store) (host : σ) :
    (fail fault position : Command α).exec store host =
      ((.error ⟨fault, position⟩, store), host) := rfl

@[simp] theorem exec_get (store : Store) (host : σ) :
    (get : Command Store).exec store host = ((.ok store, store), host) := rfl

theorem exec_bind (command : Command α) (next : α → Command β) (store : Store) (host : σ) :
    (command >>= next).exec store host =
      match command.exec store host with
      | ((.ok value, after), host) => (next value).exec after host
      | ((.error error, after), host) => ((.error error, after), host) := by
  simp only [exec, on, ExceptT.run_bind, StateT.run_bind, Interaction.run_bind]
  generalize Interaction.run (StateT.run (ExceptT.run command) store) host = result
  obtain ⟨⟨value | error, after⟩, host⟩ := result <;> rfl

@[simp] theorem exec_ofExcept (result : Except RunError α) (store : Store) (host : σ) :
    (ofExcept result : Command α).exec store host = ((result, store), host) := by
  cases result <;> rfl

@[simp] theorem exec_check (read : Store → Except RunError α) (store : Store) (host : σ) :
    (check read).exec store host = ((read store, store), host) :=
  exec_ofExcept (read store) store host

@[simp] theorem exec_ask (request : Request) (store : Store) (host : σ) :
    (ask request).exec store host =
      ((.ok (Host.answer request host).1, store), (Host.answer request host).2) := rfl

@[simp] theorem exec_assign (name : String) (value : Int64) (store : Store) (host : σ) :
    (assign name value).exec store host = ((.ok (), store.assign name value), host) := rfl

@[simp] theorem exec_require (breach : Breach) (call : Position) (result : Option α)
    (store : Store) (host : σ) :
    (require breach call result).exec store host =
      match result with
      | some value => ((.ok value, store), host)
      | none => ((.error ⟨.breach breach, call⟩, store), host) := by
  cases result <;> rfl

theorem exec_readCell (address : Nat) (call : Position) (store : Store) (host : σ) :
    (readCell address call).exec store host =
      (require (.cellOutside address) call (store.memory.get? address)).exec store host := rfl

theorem exec_writeCell (address : Nat) (value : Int64) (call : Position) (store : Store)
    (host : σ) :
    (writeCell address value call).exec store host =
      match store.memory.set? address value with
      | some memory => ((.ok (), { store with memory }), host)
      | none => ((.error ⟨.breach (.cellOutside address), call⟩, store), host) := by
  simp only [writeCell, exec_bind, exec_get, exec_require]
  cases store.memory.set? address value <;> rfl

theorem exec_readCells (start stop : Nat) (call : Position) (store : Store) (host : σ) :
    (readCells start stop call).exec store host =
      (require (.rangeOutside start stop) call (store.memory.slice? start stop)).exec store host :=
  rfl

theorem exec_writeCells (start stop : Nat) (values : List Int64) (call : Position)
    (store : Store) (host : σ) :
    (writeCells start stop values call).exec store host =
      match store.memory.fill? start stop values with
      | some memory => ((.ok (), { store with memory }), host)
      | none => ((.error ⟨.breach (.rangeOutside start stop), call⟩, store), host) := by
  simp only [writeCells, exec_bind, exec_get, exec_require]
  cases store.memory.fill? start stop values <;> rfl

theorem exec_emit (bytes : Bytes) (call : Position) (store : Store) (host : σ) :
    (emit bytes call).exec store host =
      match Host.answer (.write bytes) host with
      | (.ok (), host) => ((.ok (), store), host)
      | (.error reason, host) => ((.error ⟨.output reason, call⟩, store), host) := by
  unfold emit
  rw [exec_bind, exec_ask]
  rcases Host.answer (.write bytes) host with ⟨reason | _, host⟩ <;> rfl

theorem exec_flush (call : Position) (store : Store) (host : σ) :
    (flush call).exec store host =
      match Host.answer .flush host with
      | (.ok (), host) => ((.ok (), store), host)
      | (.error reason, host) => ((.error ⟨.output reason, call⟩, store), host) := by
  unfold flush
  rw [exec_bind, exec_ask]
  rcases Host.answer Request.flush host with ⟨reason | _, host⟩ <;> rfl

theorem exec_nextByte (call : Position) (store : Store) (host : σ) :
    (nextByte call).exec store host =
      match Host.answer .flush host with
      | (.error reason, host) => ((.error ⟨.output reason, call⟩, store), host)
      | (.ok (), host) =>
          match Host.answer .readByte host with
          | (.byte value, host) => ((.ok value, store), host)
          | (.exhausted, host) => ((.error ⟨.endOfInput, call⟩, store), host)
          | (.failed reason, host) => ((.error ⟨.input reason, call⟩, store), host) := by
  unfold nextByte
  rw [exec_bind, exec_flush]
  rcases Host.answer Request.flush host with ⟨reason | _, host⟩
  · rfl
  · dsimp only
    rw [exec_bind, exec_ask]
    rcases Host.answer Request.readByte host with ⟨value | _ | reason, host⟩ <;> rfl

theorem exec_loadFile (path : String) (call : Position) (store : Store) (host : σ) :
    (loadFile path call).exec store host =
      match Host.answer (.readFile path) host with
      | (.ok bytes, host) => ((.ok bytes, store), host)
      | (.error reason, host) => ((.error ⟨.fileSystem path reason, call⟩, store), host) := by
  unfold loadFile
  rw [exec_bind, exec_ask]
  rcases Host.answer (.readFile path) host with ⟨reason | bytes, host⟩ <;> rfl

theorem exec_saveFile (path : String) (bytes : Bytes) (call : Position) (store : Store)
    (host : σ) :
    (saveFile path bytes call).exec store host =
      match Host.answer (.writeFile path bytes) host with
      | (.ok (), host) => ((.ok (), store), host)
      | (.error reason, host) => ((.error ⟨.fileSystem path reason, call⟩, store), host) := by
  unfold saveFile
  rw [exec_bind, exec_ask]
  rcases Host.answer (.writeFile path bytes) host with ⟨reason | _, host⟩ <;> rfl

end Command
end LineScript
