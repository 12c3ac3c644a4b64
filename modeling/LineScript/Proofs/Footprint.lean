import LineScript.Proofs.Exchange
import LineScript.Proofs.Ledger
import LineScript.Proofs.WellFormed

/-!
What a statement can change. Its form says which variable it writes and what it can ask of a host,
and its operands say which cells it puts values into. All else stays as it was: variables and cells
outside, and of the host whatever the requests that it can make leave alone. So what holds of
variables and memory at every point of a history follows from what was carried out before.
-/

namespace LineScript

/-- What carrying out a statement can touch besides memory cells: the variable that it writes, the
file that it reads, the file that it writes, the output and the input. -/
structure Footprint where
  target : Option String := none
  loads : Option String := none
  saves : Option String := none
  prints : Bool := false
  takes : Bool := false

/-- What a host can be asked inside the footprint. -/
def Footprint.Allows (footprint : Footprint) : Request → Prop
  | .write _ => footprint.prints = true
  | .flush | .readByte => footprint.takes = true
  | .readFile path => footprint.loads = some path
  | .writeFile path _ => footprint.saves = some path

namespace Statement

def footprint : Statement → Footprint
  | .assign target _ | .compute target _ _ _ => { target := some target }
  | .branch .. | .label _ | .jump _ | .halt => {}
  | .call "showc" _ _ | .call "shown" _ _ | .call "debug" _ _ => { prints := true }
  | .call "input" [target] _ => { target := target.asVariable.toOption, takes := true }
  | .call "memget" [_, target] _ => { target := target.asVariable.toOption }
  | .call "read_file" [file, _, length] _ =>
      { target := length.asVariable.toOption, loads := file.asText.toOption }
  | .call "write_file" [file, _, _] _ => { saves := file.asText.toOption }
  | .call .. => {}

/-- The statements that only decide what comes next. -/
def IsControl : Statement → Prop
  | .branch .. | .label _ | .jump _ | .halt => True
  | _ => False

/-- The statement, when it succeeds, puts the value into the cell: the one that is set, or one of
those that the bytes of a file are read into. -/
def Puts {σ : Type} [Host σ] (store : Store) (host : σ) : Statement → Nat → Int64 → Prop
  | .call "memset" [cell, source] place, address, value =>
      store.cellOf cell place = .ok address ∧ store.evaluate source = .ok value
  | .call "read_file" [file, cell, _] place, address, value =>
      ∃ path start bytes, file.asText = .ok path ∧ store.cellOf cell place = .ok start ∧
        (Host.answer (.readFile path) host).1 = .ok bytes ∧
        start ≤ address ∧ bytes[address - start]?.map byteWord = some value
  | _, _, _ => False

end Statement

namespace Effect

def footprint : Effect → Footprint
  | .nothing | .poke _ _ => {}
  | .assign target _ => { target := some target }
  | .write _ _ => { prints := true }
  | .take target _ => { target := some target, takes := true }
  | .load path _ target _ => { target := some target, loads := some path }
  | .save path _ _ => { saves := some path }

def Puts {σ : Type} [Host σ] (host : σ) : Effect → Nat → Int64 → Prop
  | .poke cell word, address, value => cell = address ∧ word = value
  | .load path start _ _, address, value =>
      ∃ bytes, (Host.answer (.readFile path) host).1 = .ok bytes ∧
        start ≤ address ∧ bytes[address - start]?.map byteWord = some value
  | _, _, _ => False

end Effect

namespace Statement.ComesTo

variable {plan : Plan} {store : Store} {statement : Statement} {effect : Effect}
  {succession : Succession}

theorem footprint_eq (comes : ComesTo plan store statement effect succession) :
    statement.footprint = effect.footprint := by
  cases comes with
  | assign _ | compute _ _ _ | taken _ _ _ _ | passed _ _ _ | label _ | jump _ | halt => rfl
  | showCharacter _ | showNumber _ | setCell _ _ | inspect _ => rfl
  | takeByte named | getCell _ named =>
      simp only [Statement.footprint, named]
      rfl
  | fillFromFile said named _ =>
      simp only [Statement.footprint, said, named]
      rfl
  | dumpToFile said _ _ _ =>
      simp only [Statement.footprint, said]
      rfl

theorem puts_iff {σ : Type} [Host σ] (comes : ComesTo plan store statement effect succession)
    (host : σ) (address : Nat) (value : Int64) :
    statement.Puts store host address value ↔ effect.Puts host address value := by
  cases comes with
  | assign _ | compute _ _ _ | taken _ _ _ _ | passed _ _ _ | label _ | jump _ | halt => rfl
  | showCharacter _ | showNumber _ | takeByte _ | getCell _ _ | inspect _ => rfl
  | dumpToFile _ _ _ _ => rfl
  | setCell addressed evaluated => simp [Statement.Puts, Effect.Puts, addressed, evaluated]
  | fillFromFile said _ addressed => simp [Statement.Puts, Effect.Puts, said, addressed]

theorem eq_nothing (comes : ComesTo plan store statement effect succession)
    (decides : statement.IsControl) : effect = .nothing := by
  cases comes with
  | taken _ _ _ _ | passed _ _ _ | label _ | jump _ | halt => rfl
  | _ => exact decides.elim

end Statement.ComesTo

theorem Statement.IsControl.callsStandard {statement : Statement} (decides : statement.IsControl)
    (library : Library) : statement.CallsStandard library := by
  cases statement with
  | call _ _ _ => exact decides.elim
  | _ => exact trivial

namespace Memory

theorem cell_place_of_getElem? (memory : Memory) {start address : Nat} {values : List Int64}
    {value : Int64} (beyond : start ≤ address) (found : values[address - start]? = some value) :
    (memory.place start values).cell address = value := by
  rw [cell_place, if_pos beyond, found]
  rfl

theorem cell_place_of_outside (memory : Memory) {start address : Nat} {values : List Int64}
    (outside : start ≤ address → values[address - start]? = none) :
    (memory.place start values).cell address = memory.cell address := by
  rw [cell_place]
  split
  · next beyond =>
      rw [outside beyond]
      rfl
  · rfl

end Memory

/-- Everything in the store outside a footprint and some cells is as it was before. -/
structure Store.Framed (footprint : Footprint) (touched : Nat → Prop) (before after : Store) :
    Prop where
  values : ∀ name, footprint.target ≠ some name → after.value? name = before.value? name
  size : after.memory.size = before.memory.size
  cells : ∀ address, ¬ touched address → after.memory.cell address = before.memory.cell address

variable {σ : Type} [Host σ]

namespace Effect.Performed

variable {store left : Store} {host after : σ} {effect : Effect}

theorem store_framed (performed : Performed store host effect ((.ok (), left), after)) :
    Store.Framed effect.footprint (fun address => ∃ value, effect.Puts host address value) store
      left := by
  cases performed with
  | nothing | written _ | saved _ => exact ⟨fun _ _ => rfl, rfl, fun _ _ => rfl⟩
  | assigned _ _ | taken _ _ =>
      refine ⟨fun name other => ?_, rfl, fun _ _ => rfl⟩
      rw [Store.value?_assign, if_neg fun same => other (congrArg some same)]
  | poked address word =>
      refine ⟨fun _ _ => rfl, Memory.size_place _ _ _, fun other untouched => ?_⟩
      have differs : address ≠ other := fun same => untouched ⟨word, same, rfl⟩
      refine Memory.cell_place_of_outside _ fun beyond => List.getElem?_eq_none ?_
      rw [List.length_singleton]
      omega
  | @loaded path start length call bytes after read fits =>
      refine ⟨fun name other => ?_, Memory.size_place _ _ _, fun address untouched => ?_⟩
      · rw [Store.value?_assign, if_neg fun same => other (congrArg some same)]
        rfl
      · refine Memory.cell_place_of_outside _ fun beyond => Option.eq_none_iff_forall_ne_some.mpr ?_
        intro value found
        rw [List.getElem?_map] at found
        exact untouched ⟨value, bytes, congrArg Prod.fst read, beyond, found⟩

/-- A host that keeps a record has nothing in it but what the footprint allows. -/
theorem allowed {host : σ} {after : Recorded σ}
    (performed : Performed store (Recorded.start host) effect ((.ok (), left), after)) :
    ∀ exchange ∈ after.record, effect.footprint.Allows exchange.request := by
  cases performed with
  | nothing | assigned _ _ | poked _ _ => exact nofun
  | written answered | loaded answered _ | saved answered =>
      rw [(Recorded.answer_eq answered).2]
      exact List.forall_mem_singleton.mpr rfl
  | taken flushed read =>
      rw [(Recorded.answer_eq read).2, (Recorded.answer_eq flushed).2]
      exact List.forall_mem_cons.mpr ⟨rfl, List.forall_mem_singleton.mpr rfl⟩

theorem eq_of_nothing (performed : Performed store host .nothing ((.ok (), left), after)) :
    left = store ∧ after = host := by
  cases performed
  exact ⟨rfl, rfl⟩

theorem answer_of_save {path : String} {bytes : Bytes} {call : Position}
    (performed : Performed store host (.save path bytes call) ((.ok (), left), after)) :
    Host.answer (.writeFile path bytes) host = (.ok (), after) := by
  cases performed with
  | saved wrote => exact wrote

/-- The variable of the footprint has a value afterwards. -/
theorem target_defined (performed : Performed store host effect ((.ok (), left), after))
    {name : String} (target : effect.footprint.target = some name) :
    (left.value? name).isSome := by
  cases performed with
  | assigned _ _ | taken _ _ | loaded _ _ =>
      cases target
      rw [Store.value?_assign, if_pos rfl]
      rfl
  | nothing | poked _ _ | written _ | saved _ => cases target

/-- The cells that values are put into hold them afterwards. -/
theorem cell_eq (performed : Performed store host effect ((.ok (), left), after)) {address : Nat}
    {value : Int64} (puts : effect.Puts host address value) : left.memory.cell address = value := by
  cases performed with
  | poked cell word =>
      obtain ⟨rfl, rfl⟩ := puts
      exact Memory.cell_place_of_getElem? _ (Nat.le_refl _) (by rw [Nat.sub_self]; rfl)
  | loaded read _ =>
      obtain ⟨bytes, loaded, beyond, found⟩ := puts
      rw [read] at loaded
      cases loaded
      exact Memory.cell_place_of_getElem? _ beyond (by rw [List.getElem?_map]; exact found)
  | nothing | assigned _ _ | written _ | taken _ _ | saved _ => cases puts

end Effect.Performed

namespace Deed

variable {deed : Deed σ}

theorem left_of_fails (standard : deed.Standard) (fails : ¬ deed.Succeeds) :
    deed.left = deed.store := by
  rcases done : deed.result with ⟨⟨error | succession, kept⟩, after⟩
  · rw [left, done]
    exact Statement.store_of_fails standard.calls done
  · exact absurd ⟨succession, by rw [done]⟩ fails

/-- What a deed changes at most when it succeeds. Of the host that is nothing but what can be
changed by asking what its statement allows. -/
structure Confined (deed : Deed σ) : Prop where
  store : deed.store.Framed deed.statement.footprint
    (fun address => ∃ value, deed.statement.Puts deed.store deed.host address value) deed.left
  asked : ∀ exchange ∈ deed.exchanges, deed.statement.footprint.Allows exchange.request
  spared : ∀ {α : Type} (view : σ → α),
    (∀ request host, deed.statement.footprint.Allows request →
      view (Host.answer request host).2 = view host) →
    view deed.after = view deed.host
  control : deed.statement.IsControl → deed.left = deed.store ∧ deed.after = deed.host

theorem Succeeds.store_framed (succeeds : deed.Succeeds) (standard : deed.Standard) :
    deed.store.Framed deed.statement.footprint
      (fun address => ∃ value, deed.statement.Puts deed.store deed.host address value)
      deed.left := by
  obtain ⟨effect, succession, comes, performed⟩ := succeeds.performed standard.calls
  simp only [comes.footprint_eq, comes.puts_iff]
  exact performed.store_framed

theorem Succeeds.control (succeeds : deed.Succeeds) (decides : deed.statement.IsControl) :
    deed.left = deed.store ∧ deed.after = deed.host := by
  obtain ⟨effect, succession, comes, performed⟩ := succeeds.performed (decides.callsStandard _)
  cases comes.eq_nothing decides
  exact performed.eq_of_nothing

theorem Succeeds.asked (succeeds : deed.Succeeds) (standard : deed.Standard) :
    ∀ exchange ∈ deed.exchanges, deed.statement.footprint.Allows exchange.request := by
  obtain ⟨effect, succession, comes, performed⟩ := succeeds.recorded.performed standard.calls
  have same : deed.statement.footprint = effect.footprint := comes.footprint_eq
  rw [exchanges_eq_record, same]
  exact performed.allowed

theorem Succeeds.confined (succeeds : deed.Succeeds) (standard : deed.Standard) :
    deed.Confined := by
  refine ⟨succeeds.store_framed standard, succeeds.asked standard, ?_, succeeds.control⟩
  intro α view spared
  refine Interaction.view_run view ((deed.statement.execute deed.plan).on deed.store) deed.host ?_
  exact fun exchange member =>
    spared exchange.request exchange.host (succeeds.asked standard exchange member)

/-- A deed that writes a file has it written, once, and that is all that it asks. -/
theorem Succeeds.answer_of_saves (succeeds : deed.Succeeds) (standard : deed.Standard)
    {path : String} (saves : deed.statement.footprint.saves = some path) :
    ∃ bytes, Host.answer (.writeFile path bytes) deed.host = (.ok (), deed.after) := by
  obtain ⟨effect, succession, comes, performed⟩ := succeeds.performed standard.calls
  rw [comes.footprint_eq] at saves
  cases effect with
  | save _ bytes call =>
      cases saves
      exact ⟨bytes, performed.answer_of_save⟩
  | _ => cases saves

/-- A deed writes a variable when its statement does and succeeds. -/
def Writes (deed : Deed σ) (name : String) : Prop :=
  deed.Succeeds ∧ deed.statement.footprint.target = some name

theorem Writes.defined {name : String} (writes : deed.Writes name) (standard : deed.Standard) :
    (deed.left.value? name).isSome := by
  obtain ⟨succeeds, target⟩ := writes
  obtain ⟨effect, succession, comes, performed⟩ := succeeds.performed standard.calls
  rw [comes.footprint_eq] at target
  exact performed.target_defined target

theorem value?_of_not_writes (standard : deed.Standard) {name : String}
    (spared : ¬ deed.Writes name) : deed.left.value? name = deed.store.value? name := by
  by_cases succeeds : deed.Succeeds
  · exact (succeeds.store_framed standard).values name fun target => spared ⟨succeeds, target⟩
  · rw [left_of_fails standard succeeds]

theorem size_left (standard : deed.Standard) :
    deed.left.memory.size = deed.store.memory.size := by
  by_cases succeeds : deed.Succeeds
  · exact (succeeds.store_framed standard).size
  · rw [left_of_fails standard succeeds]

theorem keeps_left (standard : deed.Standard) : deed.store.Keeps deed.left := by
  intro name known
  by_cases writes : deed.Writes name
  · exact writes.defined standard
  · rw [value?_of_not_writes standard writes]
    exact known

end Deed

theorem Store.value?_new_size (cells : Nat) :
    ∃ word, (new cells).value? sizeVariable = some word ∧
      word.toInt = min (cells : Int) Int64.maxValue.toInt := by
  refine ⟨_, Std.TreeMap.getElem?_insert_self, ?_⟩
  have largest : Int64.maxValue.toNatClampNeg = 2 ^ 63 - 1 := by decide
  have largest' : Int64.maxValue.toInt = 2 ^ 63 - 1 := by decide
  rw [Int64.toInt_ofNat_of_lt (by omega)]
  omega

theorem Store.value?_new_other {cells : Nat} {name : String} (other : name ≠ sizeVariable) :
    (new cells).value? name = none := by
  simp [new, value?, other.symm]

/-- What a history of deeds, from a new store on, has made of variables and memory. -/
structure Store.Accounted (cells : Nat) (deeds : List (Deed σ)) (store : Store) : Prop where
  size : store.memory.size = cells
  sized : (store.value? sizeVariable).isSome
  defined_iff : ∀ name, name ≠ sizeVariable →
    ((store.value? name).isSome ↔ ∃ deed ∈ deeds, deed.Writes name)
  keeps : ∀ deed ∈ deeds, deed.store.Keeps store ∧ deed.left.Keeps store
  unwritten : (∀ deed ∈ deeds, ¬ deed.Writes sizeVariable) →
    ∃ word, store.value? sizeVariable = some word ∧
      word.toInt = min (store.memory.size : Int) Int64.maxValue.toInt

namespace Store.Accounted

variable {cells : Nat} {done : List (Deed σ)} {deed : Deed σ}

theorem new (cells : Nat) : Accounted (σ := σ) cells [] (.new cells) := by
  obtain ⟨word, sized, value⟩ := value?_new_size cells
  refine ⟨rfl, ?_, fun name other => ?_, fun deed member => ?_, fun _ => ⟨word, sized, value⟩⟩
  · rw [sized]
    rfl
  · simp [value?_new_other other]
  · cases member

theorem concat (accounted : Accounted cells done deed.store) (standard : deed.Standard) :
    Accounted cells (done ++ [deed]) deed.left := by
  obtain ⟨size, sized, defined_iff, keeps, unwritten⟩ := accounted
  have kept := deed.keeps_left standard
  refine ⟨?_, kept _ sized, fun name other => ?_, ?_, fun spared => ?_⟩
  · rw [deed.size_left standard, size]
  · -- A variable is defined afterwards if it was before, or if the deed has written it.
    simp only [List.mem_append, List.mem_singleton, or_and_right, exists_or, exists_eq_left,
      ← defined_iff name other]
    by_cases writes : deed.Writes name
    · simp only [writes, writes.defined standard, or_true]
    · rw [deed.value?_of_not_writes standard writes]
      simp only [writes, or_false]
  · refine List.forall_mem_append.mpr ⟨fun past earlier => ?_, ?_⟩
    · exact ⟨(keeps past earlier).1.trans kept, (keeps past earlier).2.trans kept⟩
    · exact List.forall_mem_singleton.mpr ⟨kept, .refl _⟩
  · rw [deed.value?_of_not_writes standard (spared deed (by simp)), deed.size_left standard]
    exact unwritten fun past member => spared past (List.mem_append_left _ member)

end Store.Accounted

/-- What is outside a footprint is as it was before in a modelled world, and a file that is inside
is replaced as the files of that world are. -/
structure World.Framed {φ : Type} [FileStore φ] (footprint : Footprint) (before after : World φ) :
    Prop where
  output : footprint.prints = false → after.output = before.output
  input : footprint.takes = false → after.input = before.input
  files : footprint.saves = none → after.files = before.files
  file : ∀ path, footprint.saves = some path →
    ∃ bytes, FileStore.save before.files path bytes = .ok after.files

theorem Deed.Succeeds.world_framed {φ : Type} [FileStore φ] {deed : Deed (World φ)}
    (succeeds : deed.Succeeds) (standard : deed.Standard) :
    World.Framed deed.statement.footprint deed.host deed.after := by
  have confined := succeeds.confined standard
  constructor
  case output =>
    intro silent
    refine confined.spared World.output fun request world allowed => ?_
    refine World.output_answer request world fun bytes writes => ?_
    subst writes
    exact absurd allowed (ne_true_of_eq_false silent)
  case input =>
    intro deaf
    refine confined.spared World.input fun request world allowed => ?_
    refine World.input_answer request world fun reads => ?_
    subst reads
    exact absurd allowed (ne_true_of_eq_false deaf)
  case files =>
    intro fileless
    refine confined.spared World.files fun request world allowed => ?_
    refine World.files_answer request world fun path bytes writes => ?_
    subst writes
    cases fileless.symm.trans allowed
  case file =>
    intro path saves
    obtain ⟨bytes, wrote⟩ := succeeds.answer_of_saves standard saves
    simp only [Host.answer, World.answer] at wrote
    refine ⟨bytes, ?_⟩
    split at wrote
    · next saved found =>
        rw [found, ← (Prod.mk.inj wrote).2]
    · cases wrote

/-- All through a history without builtins of the host's own, on every host, variables and memory
are accounted for by what was carried out before, and what succeeds changes nothing outside its
footprint. In modelled worlds, whatever their files are like, that says what becomes of the output,
the input and the files. -/
theorem Session.history_accounted (cells : Nat) {actions : List Session.Action}
    (standard : RegistersNothing actions) :
    (∀ {σ : Type} [Host σ] (host : σ),
      let history := (Session.new cells).history host actions
      history.session.store.Accounted cells history.deeds ∧
        ∀ (earlier : List (Deed σ)) (deed : Deed σ) (later : List (Deed σ)),
          history.deeds = earlier ++ deed :: later →
          deed.store.Accounted cells earlier ∧ (deed.Succeeds → deed.Confined)) ∧
    ∀ {φ : Type} [FileStore φ] (world : World φ),
      ∀ deed ∈ ((Session.new cells).history world actions).deeds, deed.Succeeds →
        World.Framed deed.statement.footprint deed.host deed.after := by
  constructor
  · intro σ _ host history
    let Holds (done : List (Deed σ)) (store : Store) (_ : σ) : Prop := store.Accounted cells done
    have start : Holds [] (.new cells) host := .new cells
    refine ⟨history_keeps Holds (fun _ _ standard holds => holds.concat standard)
      (fun _ _ _ holds => holds) start standard, fun earlier deed later split => ?_⟩
    obtain ⟨standard, holds⟩ := history_keeps_before Holds
      (fun _ _ standard holds => holds.concat standard) (fun _ _ _ holds => holds) start standard
      split
    exact ⟨holds, fun succeeds => succeeds.confined standard⟩
  · intro φ _ world deed present succeeds
    exact succeeds.world_framed (history_standard standard deed present)

theorem Session.history_accounted_memset :
    let place := Position.start "<host>"
    let five : Operand := ⟨.integer 5, ⟨.integer, "5", 1, place⟩⟩
    let x : Operand := ⟨.variable "x", ⟨.identifier, "x", 1, place⟩⟩
    let file : Operand := ⟨.text "f", ⟨.text, "f", 3, place⟩⟩
    let actions : List Session.Action :=
      [.run 4 #[.assign "x" five], .invoke "memset" [x, five] place,
        .invoke "write_file" [file, x, five] place]
    let world := World.quiet [] FileTable.empty
    RegistersNothing actions ∧ ((Session.new 8).history world actions).deeds.length = 3 ∧
      (let history := (Session.new 8).history world actions
      history.session.store.Accounted 8 history.deeds ∧
        ∀ (earlier : List (Deed (World FileTable))) (deed : Deed (World FileTable))
          (later : List (Deed (World FileTable))),
          history.deeds = earlier ++ deed :: later →
          deed.store.Accounted 8 earlier ∧ (deed.Succeeds → deed.Confined)) ∧
      ∀ deed ∈ ((Session.new 8).history world actions).deeds, deed.Succeeds →
        World.Framed deed.statement.footprint deed.host deed.after := by
  intro place five x file actions world
  have standard : RegistersNothing actions := fun name builtin member => by simp [actions] at member
  have carried : ((Session.new 8).history world actions).deeds.length = 3 := by decide +kernel
  obtain ⟨accounted, framed⟩ := history_accounted 8 standard
  exact ⟨standard, carried, accounted world, framed world⟩

end LineScript
