import LineScript.Proofs.Displacement
import LineScript.Proofs.FlushBlind
import LineScript.Proofs.InputStream
import LineScript.Proofs.LimitedSink
import LineScript.Proofs.Recall

/-!
The echo program. It reads bytes and shows each of them until it has read a line feed, which it
shows last; without one it shows the whole input and fails at its end. The loop is followed round by
round: a round takes one byte of the input, interrupted or not, and shows the same byte.
-/

namespace LineScript

theorem byteWord_inj {byte other : UInt8} : byteWord byte = byteWord other ↔ byte = other := by
  refine ⟨fun same => ?_, congrArg byteWord⟩
  rw [← lowByte_byteWord byte, same, lowByte_byteWord]

/-- The item is neither an end nor a failure. -/
def InputItem.Flows : InputItem → Prop
  | .byte _ | .interrupt => True
  | .endOfInput | .failure _ => False

instance : DecidablePred InputItem.Flows
  | .byte _ | .interrupt => isTrue trivial
  | .endOfInput | .failure _ => isFalse id

namespace Execution

variable {σ : Type} [Host σ] {plan : Plan} {pointer : Nat} {statement : Statement}
  {store left : Store} {host after : σ} {effect : Effect} {succession : Succession}

/-- Once its checks have passed, a statement does what its effect does. -/
theorem step_performs (calls : plan.CallsStandard)
    (present : plan.program[pointer]? = some statement)
    (checks : statement.effect plan store = .ok (effect, succession))
    {result : Except RunError Unit}
    (performed : effect.perform.exec store host = ((result, left), after)) :
    step plan ⟨.running pointer, store⟩ host =
      (⟨follow pointer (result.map fun _ => succession), left⟩, after) := by
  rw [step_statement present, Statement.execute_exec (calls _ (Array.mem_of_getElem? present)),
    checks, Command.goOn, Statement.conclude, Command.exec_bind, performed]
  cases result with
  | ok _ => rfl
  | error _ => rfl

theorem step_done (calls : plan.CallsStandard) (present : plan.program[pointer]? = some statement)
    (checks : statement.effect plan store = .ok (effect, succession))
    (performed : effect.perform.exec store host = ((.ok (), left), after)) :
    step plan ⟨.running pointer, store⟩ host =
      (⟨follow pointer (.ok succession), left⟩, after) :=
  step_performs calls present checks performed

theorem step_failed (calls : plan.CallsStandard) (present : plan.program[pointer]? = some statement)
    (checks : statement.effect plan store = .ok (effect, succession)) {error : RunError}
    (performed : effect.perform.exec store host = ((.error error, left), after)) :
    step plan ⟨.running pointer, store⟩ host = (⟨.closing (.error error), left⟩, after) :=
  step_performs calls present checks performed

theorem advance_of_step {execution next : Execution}
    (moved : step plan execution host = (next, after)) (fuel : Nat) :
    advance plan (fuel + 1) execution host = advance plan fuel next after := by
  rw [advance_succ, moved]

end Execution

namespace World

variable {φ : Type}

/-- A world that takes all output and lets every flush succeed. -/
structure Obliging (world : World φ) : Prop where
  generous : world.output.Generous
  succeed : world.FlushesSucceed

/-- The world after a flush that succeeds. -/
def flushed (world : World φ) : World φ :=
  { world with
    flushAttempts := world.flushAttempts + 1
    flushes := world.output.written.size :: world.flushes }

/-- The world after a byte was read, behind a flush, and shown. -/
def passed (world : World φ) (byte : UInt8) (rest : List InputItem) : World φ :=
  { world.flushed with input := rest, output := world.output.accept [byte] }

namespace Obliging

variable {world : World φ}

theorem flushed (obliging : world.Obliging) : world.flushed.Obliging :=
  ⟨obliging.generous, fun attempt later => obliging.succeed attempt (Nat.lt_of_succ_lt later)⟩

theorem reading (obliging : world.Obliging) (rest : List InputItem) :
    { world with input := rest }.Obliging :=
  ⟨obliging.generous, obliging.succeed⟩

theorem passed (obliging : world.Obliging) (byte : UInt8) (rest : List InputItem) :
    (world.passed byte rest).Obliging :=
  ⟨⟨obliging.generous.unbounded, obliging.generous.steady⟩, obliging.flushed.succeed⟩

theorem answer_flush [FileStore φ] (obliging : world.Obliging) :
    Host.answer .flush world = (.ok (), world.flushed) :=
  obliging.succeed.flush_eq

end Obliging

theorem answer_readByte [FileStore φ] {world : World φ} {delivery : Delivery}
    {rest : List InputItem} (delivered : InputItem.deliver world.input = (delivery, rest)) :
    Host.answer .readByte world = (delivery, { world with input := rest }) := by
  simp only [Host.answer, answer, delivered]

end World

namespace Echo

def source : String :=
  ":read\ninput c\nif c == 10 goto done\nshowc c\ngoto read\n:done\nshowc 10\n"

/-- The variable that holds the byte, as it is written at a place. -/
def byte (place : Position) : Operand :=
  ⟨.variable "c", ⟨.identifier, "c", 1, place⟩⟩

def lineFeed (place : Position) : Operand :=
  ⟨.integer 10, ⟨.integer, "10", 2, place⟩⟩

section Program

variable (file : String)

def take : Statement :=
  .call "input" [byte ⟨file, 2, 7, 12⟩] ⟨file, 2, 1, 6⟩

def test : Statement :=
  .branch .eq (byte ⟨file, 3, 4, 17⟩) (lineFeed ⟨file, 3, 9, 22⟩) ⟨"done", ⟨file, 3, 17, 30⟩⟩

def showByte : Statement :=
  .call "showc" [byte ⟨file, 4, 7, 41⟩] ⟨file, 4, 1, 35⟩

def again : Statement :=
  .jump ⟨"read", ⟨file, 5, 6, 48⟩⟩

def showLineFeed : Statement :=
  .call "showc" [lineFeed ⟨file, 7, 7, 65⟩] ⟨file, 7, 1, 59⟩

def program : Program :=
  #[.label "read", take file, test file, showByte file, again file, .label "done",
    showLineFeed file]

def plan : Plan :=
  .new .standard (program file)

end Program

theorem ofSource_source (file : String) : Program.ofSource source file = .ok (program file) := by
  -- All but the name of the file is there to be computed.
  have read : Program.ofSource source "" = .ok (program "") := by decide +kernel
  have moved : (program "").map (Statement.mapPosition (.inFile file)) = program file := by
    rw [program, List.map_toArray]
    rfl
  rw [Program.ofSource_inFile read file, moved]

section Steps

open Execution

variable {φ : Type} [FileStore φ] {world : World φ} {value : UInt8} {rest : List InputItem}
  (file : String) (store : Store)

theorem callsStandard : (plan file).CallsStandard :=
  Plan.callsStandard_new (program file)

theorem labels_plan :
    (plan file).labels = (LabelTable.empty.define "read" 0).define "done" 5 := rfl

theorem locate_read (place : Position) : (plan file).labels.locate ⟨"read", place⟩ = .ok 0 := by
  simp [labels_plan, LabelTable.locate]

theorem locate_done (place : Position) : (plan file).labels.locate ⟨"done", place⟩ = .ok 5 := by
  simp [labels_plan, LabelTable.locate]

theorem evaluate_byte (word : Int64) (place : Position) :
    (store.assign "c" word).evaluate (byte place) = .ok word := by
  simp [Store.evaluate, byte]

theorem effect_take :
    (take file).effect (plan file) store = .ok (.take "c" ⟨file, 2, 1, 6⟩, .proceed) := rfl

theorem effect_test :
    (test file).effect (plan file) (store.assign "c" (byteWord value)) =
      .ok (.nothing, if value = 10 then .jump 5 else .proceed) := by
  -- The program compares words, but every byte has a word of its own.
  have compared : Comparison.eq.eval (byteWord value) (byteWord 10) = decide (value = 10) :=
    decide_eq_decide.mpr byteWord_inj
  rw [test, Statement.effect, Except.bind_of_eq_ok (evaluate_byte store _ _), locate_done]
  change (if Comparison.eq.eval (byteWord value) (byteWord 10) then _ else _) = _
  rw [compared]
  by_cases ends : value = 10
  · rw [if_pos (decide_eq_true ends), if_pos ends]
    rfl
  · rw [if_neg (ne_true_of_eq_false (decide_eq_false ends)), if_neg ends]
    rfl

theorem effect_showByte :
    (showByte file).effect (plan file) (store.assign "c" (byteWord value)) =
      .ok (.write [value] ⟨file, 4, 1, 35⟩, .proceed) := by
  let held := store.assign "c" (byteWord value)
  have known : held.checkVariables [byte ⟨file, 4, 7, 41⟩] = .ok () := by
    simp [held, Store.checkVariables, Store.lacks, byte]
  have selected : (plan file).library.select held "showc" [byte ⟨file, 4, 7, 41⟩]
      ⟨file, 4, 1, 35⟩ = .ok ⟨.fixed 1, true, Builtin.showCharacter⟩ := by
    change Except.map _ (Store.checkVariables _ _) = _
    rw [known]
    rfl
  rw [showByte, Statement.effect, Except.bind_of_eq_ok selected, Builtin.effect, evaluate_byte]
  change Except.ok (Effect.write [lowByte (byteWord value)] _, Succession.proceed) = _
  rw [lowByte_byteWord]

theorem effect_again : (again file).effect (plan file) store = .ok (.nothing, .jump 0) := by
  rw [again, Statement.effect, locate_read]
  rfl

theorem effect_showLineFeed :
    (showLineFeed file).effect (plan file) store =
      .ok (.write [10] ⟨file, 7, 1, 59⟩, .proceed) := rfl

theorem step_label (world : World φ) {pointer : Nat} {name : String}
    (present : (program file)[pointer]? = some (.label name)) :
    step (plan file) ⟨.running pointer, store⟩ world = (⟨.running (pointer + 1), store⟩, world) :=
  step_done (callsStandard file) present rfl rfl

theorem step_take (obliging : world.Obliging)
    (delivered : InputItem.deliver world.input = (.byte value, rest)) :
    step (plan file) ⟨.running 1, store⟩ world =
      (⟨.running 2, store.assign "c" (byteWord value)⟩, { world.flushed with input := rest }) := by
  have read : Host.answer .readByte world.flushed = (.byte value, _) :=
    World.answer_readByte delivered
  refine step_done (callsStandard file) rfl (effect_take file store) ?_
  rw [Effect.exec_take, obliging.answer_flush]
  dsimp only
  rw [read]

theorem step_exhausted (obliging : world.Obliging)
    (delivered : InputItem.deliver world.input = (.exhausted, rest)) :
    step (plan file) ⟨.running 1, store⟩ world =
      (⟨.closing (.error ⟨.endOfInput, ⟨file, 2, 1, 6⟩⟩), store⟩,
        { world.flushed with input := rest }) := by
  have read : Host.answer .readByte world.flushed = (.exhausted, _) :=
    World.answer_readByte delivered
  refine step_failed (callsStandard file) rfl (effect_take file store) ?_
  rw [Effect.exec_take, obliging.answer_flush]
  dsimp only
  rw [read]

theorem step_test (world : World φ) :
    step (plan file) ⟨.running 2, store.assign "c" (byteWord value)⟩ world =
      (⟨.running (if value = 10 then 5 else 3), store.assign "c" (byteWord value)⟩, world) := by
  refine (step_done (callsStandard file) rfl (effect_test file store) rfl).trans ?_
  split
  · rfl
  · rfl

theorem step_show (obliging : world.Obliging) {pointer : Nat} {statement : Statement}
    {place : Position} (present : (program file)[pointer]? = some statement)
    (shows : statement.effect (plan file) store = .ok (.write [value] place, .proceed)) :
    step (plan file) ⟨.running pointer, store⟩ world =
      (⟨.running (pointer + 1), store⟩,
        { world with output := world.output.accept [value] }) := by
  refine step_done (callsStandard file) present shows ?_
  rw [Effect.perform, Command.exec_emit, World.answer_write obliging.generous]

theorem step_again (world : World φ) :
    step (plan file) ⟨.running 4, store⟩ world = (⟨.running 0, store⟩, world) :=
  step_done (callsStandard file) rfl (effect_again file store) rfl

theorem step_close (obliging : world.Obliging) (outcome : Outcome) :
    step (plan file) ⟨.closing outcome, store⟩ world =
      (⟨.finished outcome, store⟩, world.flushed) := by
  rw [step_closing, Command.exec_flush, obliging.answer_flush]
  cases outcome with
  | ok _ => rfl
  | error _ => rfl

/-- A round of the loop takes a byte and shows it. -/
theorem advance_round (obliging : world.Obliging)
    (delivered : InputItem.deliver world.input = (.byte value, rest)) (inLine : value ≠ 10)
    (fuel : Nat) :
    advance (plan file) (fuel + 5) ⟨.running 1, store⟩ world =
      advance (plan file) fuel ⟨.running 1, store.assign "c" (byteWord value)⟩
        (world.passed value rest) := by
  let held := store.assign "c" (byteWord value)
  let ready : World φ := { world.flushed with input := rest }
  have tested : step (plan file) ⟨.running 2, held⟩ ready = (⟨.running 3, held⟩, ready) := by
    rw [step_test, if_neg inLine]
  have shown : step (plan file) ⟨.running 3, held⟩ ready =
      (⟨.running 4, held⟩, world.passed value rest) :=
    step_show file held (obliging.flushed.reading rest) rfl (effect_showByte file store)
  calc advance (plan file) (fuel + 5) ⟨.running 1, store⟩ world
      = advance (plan file) (fuel + 4) ⟨.running 2, held⟩ ready :=
        advance_of_step (step_take file store obliging delivered) _
    _ = advance (plan file) (fuel + 3) ⟨.running 3, held⟩ ready := advance_of_step tested _
    _ = advance (plan file) (fuel + 2) ⟨.running 4, held⟩ (world.passed value rest) :=
        advance_of_step shown _
    _ = advance (plan file) (fuel + 1) ⟨.running 0, held⟩ (world.passed value rest) :=
        advance_of_step (step_again file held _) _
    _ = advance (plan file) fuel ⟨.running 1, held⟩ (world.passed value rest) :=
        advance_of_step (step_label file held _ rfl) _

/-- A line feed is shown behind the loop, and the run is over. -/
theorem advance_lineFeed (obliging : world.Obliging)
    (delivered : InputItem.deliver world.input = (.byte 10, rest)) (fuel : Nat) :
    advance (plan file) (fuel + 6) ⟨.running 1, store⟩ world =
      (⟨.finished (.ok .pastEnd), store.assign "c" (byteWord 10)⟩,
        (world.passed 10 rest).flushed) := by
  let held := store.assign "c" (byteWord 10)
  let ready : World φ := { world.flushed with input := rest }
  have shown : step (plan file) ⟨.running 6, held⟩ ready =
      (⟨.running 7, held⟩, world.passed 10 rest) :=
    step_show file held (obliging.flushed.reading rest) rfl (effect_showLineFeed file held)
  calc advance (plan file) (fuel + 6) ⟨.running 1, store⟩ world
      = advance (plan file) (fuel + 5) ⟨.running 2, held⟩ ready :=
        advance_of_step (step_take file store obliging delivered) _
    _ = advance (plan file) (fuel + 4) ⟨.running 5, held⟩ ready :=
        advance_of_step (step_test file store ready) _
    _ = advance (plan file) (fuel + 3) ⟨.running 6, held⟩ ready :=
        advance_of_step (step_label file held ready rfl) _
    _ = advance (plan file) (fuel + 2) ⟨.running 7, held⟩ (world.passed 10 rest) :=
        advance_of_step shown _
    _ = advance (plan file) (fuel + 1) ⟨.closing (.ok .pastEnd), held⟩ (world.passed 10 rest) :=
        advance_of_step (step_past_end rfl held _) _
    _ = advance (plan file) fuel ⟨.finished (.ok .pastEnd), held⟩ (world.passed 10 rest).flushed :=
        advance_of_step (step_close file held (obliging.passed 10 rest) _) _
    _ = (⟨.finished (.ok .pastEnd), held⟩, (world.passed 10 rest).flushed) :=
        advance_finished _ _ _ _ _

/-- The end of the input is an error of the loop. -/
theorem advance_exhausted (obliging : world.Obliging)
    (delivered : InputItem.deliver world.input = (.exhausted, rest)) (fuel : Nat) :
    advance (plan file) (fuel + 2) ⟨.running 1, store⟩ world =
      (⟨.finished (.error ⟨.endOfInput, ⟨file, 2, 1, 6⟩⟩), store⟩,
        World.flushed { world.flushed with input := rest }) := by
  rw [advance_of_step (step_exhausted file store obliging delivered),
    advance_of_step (step_close file store (obliging.flushed.reading rest) _), advance_finished]

end Steps

/-- What the loop makes of an input: the bytes that it shows, how it ends and what it leaves. -/
inductive Copies (file : String) : List InputItem → Bytes → Outcome → List InputItem → Prop
  | exhausted {input left : List InputItem}
      (delivered : InputItem.deliver input = (.exhausted, left)) :
      Copies file input [] (.error ⟨.endOfInput, ⟨file, 2, 1, 6⟩⟩) left
  | lineFeed {input left : List InputItem}
      (delivered : InputItem.deliver input = (.byte 10, left)) :
      Copies file input [10] (.ok .pastEnd) left
  | round {input rest left : List InputItem} {value : UInt8} {shown : Bytes} {outcome : Outcome}
      (delivered : InputItem.deliver input = (.byte value, rest)) (inLine : value ≠ 10)
      (copies : Copies file rest shown outcome left) :
      Copies file input (value :: shown) outcome left

/-- What a run of the program leaves of a world. -/
structure Leaves {φ : Type} (world after : World φ) (shown : Bytes) (left : List InputItem) :
    Prop where
  shown : after.output.written.toList = world.output.written.toList ++ shown
  left : after.input = left
  flushed : after.flushes.head? = some after.output.written.size
  files : after.files = world.files

section Copies

variable {file : String} {input left : List InputItem} {shown : Bytes} {outcome : Outcome}

/-- Round by round, with five statements to a round. -/
theorem Copies.advance {φ : Type} [FileStore φ] {world : World φ}
    (copies : Copies file world.input shown outcome left) (obliging : world.Obliging)
    (store : Store) {fuel : Nat} (enough : 5 * shown.length + 2 ≤ fuel) :
    ∃ final after, Execution.advance (plan file) fuel ⟨.running 1, store⟩ world =
      (⟨.finished outcome, final⟩, after) ∧ Leaves world after shown left := by
  -- The induction is on the rounds; each leaves another world, which is as obliging as the last.
  generalize start : world.input = input at copies
  induction copies generalizing world store fuel with
  | exhausted delivered =>
      subst start
      obtain ⟨spare, rfl⟩ := Nat.exists_eq_add_of_le' enough
      refine ⟨_, _, advance_exhausted file store obliging delivered spare, ?_, rfl, rfl, rfl⟩
      exact (List.append_nil _).symm
  | lineFeed delivered =>
      subst start
      rw [List.length_singleton] at enough
      obtain ⟨spare, rfl⟩ := Nat.exists_eq_add_of_le' (show 6 ≤ fuel by omega)
      refine ⟨_, _, advance_lineFeed file store obliging delivered spare, ?_, rfl, rfl, rfl⟩
      exact Sink.toList_accept _ _
  | @round input rest left value shown outcome delivered inLine copies ih =>
      subst start
      rw [List.length_cons] at enough
      obtain ⟨spare, rfl⟩ := Nat.exists_eq_add_of_le' (show 5 ≤ fuel by omega)
      have more : 5 * shown.length + 2 ≤ spare := by omega
      obtain ⟨final, after, ended, leaves⟩ := ih (obliging.passed value rest)
        (store.assign "c" (byteWord value)) more rfl
      refine ⟨final, after, ?_, ?_, leaves.left, leaves.flushed, leaves.files⟩
      · rw [advance_round file store obliging delivered inLine, ended]
      · have first : (world.passed value rest).output.written.toList =
            world.output.written.toList ++ [value] := Sink.toList_accept _ _
        rw [leaves.shown, first, List.append_assoc, List.singleton_append]

/-- An interrupted read is made again. -/
theorem Copies.interrupt (copies : Copies file input shown outcome left) :
    Copies file (.interrupt :: input) shown outcome left := by
  cases copies with
  | exhausted delivered => exact .exhausted delivered
  | lineFeed delivered => exact .lineFeed delivered
  | round delivered inLine copies => exact .round delivered inLine copies

/-- The bytes of a line are shown before whatever comes behind it. -/
theorem Copies.line {line : List InputItem} (copies : Copies file input shown outcome left)
    (flows : ∀ item ∈ line, item.Flows) (inLine : .byte 10 ∉ line) :
    Copies file (line ++ input) (InputItem.bytes line ++ shown) outcome left := by
  induction line with
  | nil => exact copies
  | cons item line ih =>
      rw [List.forall_mem_cons] at flows
      rw [List.mem_cons, not_or] at inLine
      have later := ih flows.2 inLine.2
      cases item with
      | byte value => exact .round rfl (fun ends => inLine.1 (ends ▸ rfl)) later
      | interrupt => exact later.interrupt
      | endOfInput | failure _ => exact absurd flows.1 id

/-- The whole program does what the loop does. -/
theorem Copies.runSource {φ : Type} [FileStore φ] {world : World φ}
    (copies : Copies file world.input shown outcome left) (obliging : world.Obliging)
    (options : RunOptions) {fuel : Nat} (enough : 5 * shown.length + 3 ≤ fuel) :
    let done := runSource fuel source file options world
    done.1 = some outcome.diagnose ∧ Leaves world done.2.2 shown left := by
  obtain ⟨spare, rfl⟩ := Nat.exists_eq_add_of_le' (show 1 ≤ fuel by omega)
  have more : 5 * shown.length + 2 ≤ spare := by omega
  let store := Store.new options.memory
  let launch := Launch.ofProgram (program file) file options
  -- The step that is not counted above is the one over the label, into the loop.
  obtain ⟨final, after, ended, leaves⟩ := copies.advance obliging store more
  have launched : Launch.ofSource source file options = .ok launch := by
    rw [Launch.ofSource, ofSource_source]
    rfl
  have advanced : launch.execution.advance launch.plan (spare + 1) world =
      (⟨.finished outcome, final⟩, after) :=
    (Execution.advance_of_step (step_label file store world rfl) spare).trans ended
  have whole : LineScript.runSource (spare + 1) source file options world =
      (some outcome.diagnose, launch.notices, after) := by
    rw [LineScript.runSource, launched]
    dsimp only
    rw [advanced]
    rfl
  rw [whole]
  exact ⟨rfl, leaves⟩

end Copies

/-- The program shows the bytes of its input up to the first line feed, if there is one, and does
not read on behind it. Else it shows all bytes and fails where it asks for one more. In both cases
everything that it has shown is flushed. -/
theorem runSource_copies {φ : Type} [FileStore φ] {world : World φ} (obliging : world.Obliging)
    (flows : ∀ item ∈ world.input, item.Flows) (file : String) (options : RunOptions) {fuel : Nat}
    (enough : 5 * world.input.length + 3 ≤ fuel) :
    let done := runSource fuel source file options world
    (.byte 10 ∈ world.input → ∃ line rest, world.input = line ++ .byte 10 :: rest ∧
      .byte 10 ∉ line ∧ done.1 = some (.ok ()) ∧
      Leaves world done.2.2 (InputItem.bytes line ++ [10]) rest) ∧
    (.byte 10 ∉ world.input →
      done.1 = some (.error (.ofRunError ⟨.endOfInput, ⟨file, 2, 1, 6⟩⟩)) ∧
      Leaves world done.2.2 (InputItem.bytes world.input) []) := by
  intro done
  have short (items : List InputItem) : (InputItem.bytes items).length ≤ items.length :=
    List.length_filterMap_le _ _
  refine ⟨fun member => ?_, fun inLine => ?_⟩
  · obtain ⟨line, rest, split, inLine⟩ := List.eq_append_cons_of_mem member
    have copies : Copies file world.input (InputItem.bytes line ++ [10]) (.ok .pastEnd) rest := by
      rw [split] at flows ⊢
      exact Copies.line (.lineFeed rfl) (List.forall_mem_append.mp flows).1 inLine
    have fits : 5 * (InputItem.bytes line ++ [10]).length + 3 ≤ fuel := by
      have bound := short line
      rw [split, List.length_append, List.length_cons] at enough
      rw [List.length_append, List.length_singleton]
      omega
    exact ⟨line, rest, split, inLine, copies.runSource obliging options fits⟩
  · have copies : Copies file (world.input ++ []) (InputItem.bytes world.input ++ [])
        (.error ⟨.endOfInput, ⟨file, 2, 1, 6⟩⟩) [] := Copies.line (.exhausted rfl) flows inLine
    rw [List.append_nil, List.append_nil] at copies
    have bound := short world.input
    exact copies.runSource obliging options (by omega)

/-- A line with an interrupt in it and a byte behind it, and an input without a line feed. -/
theorem runSource_copies_interrupted :
    let world : World FileTable := { World.quiet [] FileTable.empty with
      input := [.byte 104, .interrupt, .byte 10, .byte 7] }
    let other : World FileTable := World.quiet [104, 0, 255] FileTable.empty
    let done := runSource 23 source "echo" ⟨1⟩ world
    let failed := runSource 18 source "echo" ⟨1⟩ other
    (world.Obliging ∧ other.Obliging) ∧
    ((∀ item ∈ world.input, item.Flows) ∧ ∀ item ∈ other.input, item.Flows) ∧
    (done.1 = some (.ok ()) ∧ Leaves world done.2.2 [104, 10] [.byte 7]) ∧
    failed.1 = some (.error (.ofRunError ⟨.endOfInput, ⟨"echo", 2, 1, 6⟩⟩)) ∧
    Leaves other failed.2.2 [104, 0, 255] [] := by
  intro world other done failed
  have obliging : world.Obliging := ⟨⟨rfl, nofun⟩, nofun⟩
  have obliging' : other.Obliging := ⟨⟨rfl, nofun⟩, nofun⟩
  have flows : ∀ item ∈ world.input, item.Flows := by decide
  have flows' : ∀ item ∈ other.input, item.Flows := by decide
  obtain ⟨line, rest, split, inLine, ended, leaves⟩ :=
    (runSource_copies obliging flows "echo" ⟨1⟩ (Nat.le_refl 23)).1 (by decide)
  have first : [.byte 104, .interrupt] ++ InputItem.byte 10 :: [.byte 7] =
      line ++ .byte 10 :: rest := split
  obtain ⟨rfl, _, rfl⟩ := (List.append_cons_inj_of_notMem (by decide) (by decide)).mp first
  obtain ⟨failure, leaves'⟩ :=
    (runSource_copies obliging' flows' "echo" ⟨1⟩ (Nat.le_refl 18)).2 (by decide)
  exact ⟨⟨obliging, obliging'⟩, ⟨flows, flows'⟩, ⟨ended, leaves⟩, failure, leaves'⟩

end Echo
end LineScript
