import LineScript.Proofs.FileCalls
import LineScript.Proofs.Footprint
import LineScript.Proofs.Shelf
import Mathlib.Data.List.Induction

/-!
What memory remembers. A cell holds what was put into it last, by setting it or by reading a file,
so cells that are read back, and the bytes that files are written with, come from the history of a
session alone, on every host. A file that is read into memory and written out again is copied. What
a file holds afterwards is what was written to it, on a host that keeps what is written.
-/

namespace LineScript

theorem toNat_lowByte (value : Int64) : ((lowByte value).toNat : Int) = value.toInt % 256 := by
  have wrapped : value.toInt = (value.toUInt64.toNat : Int).bmod (2 ^ 64) :=
    BitVec.toInt_eq_toNat_bmod value.toBitVec
  rw [lowByte, UInt64.toNat_toUInt8, wrapped, Int.bmod_def]
  split <;> omega

theorem lowByte_byteWord (byte : UInt8) : lowByte (byteWord byte) = byte := by
  simp [lowByte, byteWord]

variable {σ : Type} [Host σ]

/-- The deed has put the value into the cell. -/
def Deed.Puts (deed : Deed σ) (address : Nat) (value : Int64) : Prop :=
  deed.Succeeds ∧ deed.statement.Puts deed.store deed.host address value

theorem Deed.Puts.cell_left {deed : Deed σ} {address : Nat} {value : Int64}
    (puts : deed.Puts address value) (standard : deed.Standard) :
    deed.left.memory.cell address = value := by
  obtain ⟨effect, succession, comes, performed⟩ := puts.1.performed standard.calls
  exact performed.cell_eq ((comes.puts_iff _ _ _).mp puts.2)

theorem Deed.cell_left {deed : Deed σ} (standard : deed.Standard) {address : Nat}
    (spared : ∀ value, ¬ deed.Puts address value) :
    deed.left.memory.cell address = deed.store.memory.cell address := by
  by_cases succeeds : deed.Succeeds
  · refine (succeeds.store_framed standard).cells address fun ⟨value, puts⟩ => ?_
    exact spared value ⟨succeeds, puts⟩
  · rw [left_of_fails standard succeeds]

/-- The value that was last put into a cell, or zero if none ever was. -/
def Latest (address : Nat) (deeds : List (Deed σ)) (value : Int64) : Prop :=
  (value = 0 ∧ ∀ deed ∈ deeds, ∀ other, ¬ deed.Puts address other) ∨
    ∃ earlier deed later, deeds = earlier ++ deed :: later ∧ deed.Puts address value ∧
      ∀ past ∈ later, ∀ other, ¬ past.Puts address other

namespace Latest

variable {address : Nat} {done : List (Deed σ)} {deed : Deed σ} {value : Int64}

theorem nil_iff : Latest address ([] : List (Deed σ)) value ↔ value = 0 := by
  constructor
  · rintro (⟨zero, _⟩ | ⟨earlier, deed, later, split, _⟩)
    · exact zero
    · simp at split
  · exact fun zero => .inl ⟨zero, fun deed member => by cases member⟩

theorem concat_iff : Latest address (done ++ [deed]) value ↔
    deed.Puts address value ∨
      Latest address done value ∧ ∀ other, ¬ deed.Puts address other := by
  constructor
  · rintro (⟨zero, never⟩ | ⟨earlier, put, later, split, puts, spared⟩)
    · refine .inr ⟨.inl ⟨zero, fun past member => never past (by simp [member])⟩, ?_⟩
      exact never deed (by simp)
    · obtain ⟨_, _, rfl⟩ | ⟨rest, rfl, rfl⟩ := List.of_concat_eq_append_cons split
      · exact .inl puts
      · refine .inr ⟨.inr ⟨earlier, put, rest, rfl, puts, fun past member => ?_⟩, ?_⟩
        · exact spared past (by simp [member])
        · exact spared deed (by simp)
  · rintro (puts | ⟨⟨zero, never⟩ | ⟨earlier, put, later, rfl, puts, spared⟩, last⟩)
    · exact .inr ⟨done, deed, [], rfl, puts, fun past member => by cases member⟩
    · refine .inl ⟨zero, ?_⟩
      exact List.forall_mem_append.mpr ⟨never, List.forall_mem_singleton.mpr last⟩
    · refine .inr ⟨earlier, put, later ++ [deed], by simp, puts, ?_⟩
      exact List.forall_mem_append.mpr ⟨spared, List.forall_mem_singleton.mpr last⟩

/-- A cell that holds the latest value still does after a further deed. -/
theorem cell_left (latest : Latest address done (deed.store.memory.cell address))
    (standard : deed.Standard) :
    Latest address (done ++ [deed]) (deed.left.memory.cell address) := by
  rw [concat_iff]
  by_cases touched : ∃ value, deed.Puts address value
  · obtain ⟨value, puts⟩ := touched
    rw [puts.cell_left standard]
    exact .inl puts
  · have spared : ∀ value, ¬ deed.Puts address value := fun value puts => touched ⟨value, puts⟩
    rw [Deed.cell_left standard spared]
    exact .inr ⟨latest, spared⟩

theorem unique {deeds : List (Deed σ)} {other : Int64} (standard : ∀ deed ∈ deeds, deed.Standard)
    (first : Latest address deeds value) (second : Latest address deeds other) :
    value = other := by
  induction deeds using List.reverseRecOn with
  | nil => rw [nil_iff.mp first, nil_iff.mp second]
  | append_singleton done last ih =>
      have calm : last.Standard := standard last (by simp)
      obtain puts | ⟨kept, spared⟩ := concat_iff.mp first
      · obtain puts' | ⟨_, spared⟩ := concat_iff.mp second
        · rw [← puts.cell_left calm, ← puts'.cell_left calm]
        · exact absurd puts (spared value)
      · obtain puts | ⟨kept', _⟩ := concat_iff.mp second
        · exact absurd puts (spared other)
        · exact ih (fun deed member => standard deed (by simp [member])) kept kept'

end Latest

namespace Store

variable {store : Store} {operand : Operand} {word : Int64}

theorem evaluate_assigned (store : Store) {name : String} (named : operand.asVariable = .ok name)
    (value : Int64) : (store.assign name value).evaluate operand = .ok value := by
  rw [evaluate, Operand.term_of_asVariable named]
  simp only [value?_assign, if_pos]

/-- The value of an operand depends on its term alone, and not on other variables. -/
theorem evaluate_assign {other : Operand} {name : String} {value : Int64}
    (evaluated : store.evaluate operand = .ok word) (same : other.term = operand.term)
    (differs : operand.term ≠ .variable name) :
    (store.assign name value).evaluate other = .ok word := by
  obtain ⟨term, token⟩ := operand
  rw [evaluate, same]
  cases term with
  | integer _ => exact evaluated
  | text _ => cases evaluated
  | «variable» own =>
      have apart : name ≠ own := fun equal => differs (by rw [equal])
      simp only [evaluate, value?_assign, if_neg apart] at evaluated ⊢
      split at evaluated
      · exact evaluated
      · cases evaluated

end Store

/-- The cells that bytes were put into, read back. -/
theorem Memory.map_cell_place (memory : Memory) (start : Nat) (bytes : Bytes) :
    ((List.range' start bytes.length).map (memory.place start (bytes.map byteWord)).cell).map
      lowByte = bytes := by
  apply List.ext_getElem
  · simp
  · intro offset inside inside'
    simp only [List.getElem_map, List.getElem_range', Nat.one_mul]
    rw [Memory.cell_place_of_getElem? memory (Nat.le_add_right _ _)
      (by rw [Nat.add_sub_cancel_left, List.getElem?_map, List.getElem?_eq_getElem inside']; rfl),
      lowByte_byteWord]

/-- Two deeds that copy a file through memory: its bytes are read into the cells from `start` on,
its length, which a word can hold, is kept in a variable, and as many cells are written out. Both
name the first cell by the same term, which is not that variable. -/
structure Deed.Copying (read write : Deed σ) (source target : String) (start : Nat)
    (bytes : Bytes) : Prop where
  named : ∃ file cell length call name, file.asText = .ok source ∧ length.asVariable = .ok name ∧
    read.statement = .call "read_file" [file, cell, length] call ∧
    (∃ word, read.store.evaluate cell = .ok word ∧ word.toInt = start) ∧
    cell.term ≠ .variable name ∧
    ∃ file' cell' length' call', file'.asText = .ok target ∧ length'.asVariable = .ok name ∧
      cell'.term = cell.term ∧ write.statement = .call "write_file" [file', cell', length'] call'
  inside : start < read.store.memory.size
  delivered : (Host.answer (.readFile source) read.host).1 = .ok bytes
  fits : start + bytes.length ≤ read.store.memory.size
  short : bytes.length ≤ Int64.maxValue.toNatClampNeg

/-- The deed has had the bytes written to the file, which therefore holds them. -/
structure Deed.Saves (deed : Deed σ) (path : String) (bytes : Bytes) : Prop where
  wrote : Host.answer (.writeFile path bytes) deed.host = (.ok (), deed.after)
  held : ∀ shelf : Shelf σ, shelf.files deed.after path = some bytes

theorem Deed.saves_of_answer {deed : Deed σ} {path : String} {bytes : Bytes}
    (wrote : Host.answer (.writeFile path bytes) deed.host = (.ok (), deed.after)) :
    deed.Saves path bytes := by
  refine ⟨wrote, fun shelf => ?_⟩
  have held := shelf.files_saved path bytes deed.host (congrArg Prod.fst wrote)
  rw [wrote] at held
  exact held

/-- The copy is what the source held when it was read, unless the host refuses to write it. -/
structure Deed.Copied (read write : Deed σ) (source target : String) (bytes : Bytes) : Prop where
  loaded : read.Succeeds
  held : ∀ shelf : Shelf σ, shelf.files read.host source = some bytes
  written : write.Succeeds ↔ (Host.answer (.writeFile target bytes) write.host).1 = .ok ()
  saved : write.Succeeds → write.Saves target bytes

theorem Deed.Copying.copied {read write : Deed σ} {source target : String} {start : Nat}
    {bytes : Bytes} (copying : read.Copying write source target start bytes)
    (standard : read.Standard) (standard' : write.Standard) (next : write.store = read.left) :
    read.Copied write source target bytes := by
  obtain ⟨⟨file, cell, length, call, name, said, named, reads, ⟨word, evaluated, value⟩, apart,
    file', cell', length', call', said', named', same, writes⟩, inside, delivered, fits, short⟩ :=
    copying
  rcases answered : Host.answer (.readFile source) read.host with ⟨reply, after⟩
  rw [answered] at delivered
  obtain rfl : reply = .ok bytes := delivered
  have addressed := (Store.cellOf_eq_iff _ _ call _).mpr (.inside evaluated value inside)
  have loaded := readFile_result standard reads said named answered
  simp only [addressed, if_pos fits] at loaded
  have left : write.store = (read.store.place start (bytes.map byteWord)).assign name
      (Int64.ofNat bytes.length) := by rw [next, Deed.left, loaded]
  have size : write.store.memory.size = read.store.memory.size := by
    rw [left]
    exact Memory.size_place _ _ _
  have addressed' : write.store.cellOf cell' call' = .ok start := by
    refine (Store.cellOf_eq_iff _ _ _ _).mpr (.inside ?_ value (by rw [size]; exact inside))
    rw [left]
    exact Store.evaluate_assign evaluated same apart
  have counted : write.store.evaluate length' = .ok (Int64.ofNat bytes.length) := by
    rw [left]
    exact Store.evaluate_assigned _ named' _
  -- The length goes through a word, which is where it has to be short.
  have bounded : write.store.rangeEnd start (Int64.ofNat bytes.length).toInt call' =
      .ok (start + bytes.length) := by
    have largest : Int64.maxValue.toNatClampNeg = 2 ^ 63 - 1 := by decide
    rw [Int64.toInt_ofNat_of_lt (by omega), Store.rangeEnd_eq_iff]
    exact .within (Int.natCast_nonneg _) rfl (size ▸ fits)
  have held : ((List.range' start (start + bytes.length - start)).map
      write.store.memory.cell).map lowByte = bytes := by
    rw [left, Nat.add_sub_cancel_left]
    exact Memory.map_cell_place read.store.memory start bytes
  obtain ⟨written, after'⟩ :=
    writeFile_answered standard' writes said' counted addressed' bounded held
  refine ⟨⟨_, by rw [loaded]⟩, fun shelf => ?_, written, fun succeeds => ?_⟩
  · exact shelf.files_read source bytes read.host (by rw [answered])
  · exact Deed.saves_of_answer (Prod.ext (written.mp succeeds) after'.symm)

/-- The deed, if it reads a cell back, stores the value that was put there last. -/
def Deed.Recalls (earlier : List (Deed σ)) (deed : Deed σ) : Prop :=
  ∀ cell target call, deed.statement = .call "memget" [cell, target] call → deed.Succeeds →
    ∃ (word : Int64) (address : Nat) (name : String),
      deed.store.evaluate cell = .ok word ∧ word.toInt = address ∧ target.asVariable = .ok name ∧
      ∀ value, deed.left.value? name = some value ↔ Latest address earlier value

/-- The deed, if it writes a file, makes it of the low bytes of the values that were put into the
cells last. -/
def Deed.Dumps (earlier : List (Deed σ)) (deed : Deed σ) : Prop :=
  ∀ file cell length call, deed.statement = .call "write_file" [file, cell, length] call →
    deed.Succeeds →
    ∃ (path : String) (word count : Int64) (start : Nat) (bytes : Bytes),
      file.asText = .ok path ∧ deed.store.evaluate cell = .ok word ∧ word.toInt = start ∧
      deed.store.evaluate length = .ok count ∧ deed.Saves path bytes ∧
      (bytes.length : Int) = count.toInt ∧
      ∀ (offset : Nat) (inside : offset < bytes.length),
        ∃ value, Latest (start + offset) earlier value ∧
          (bytes[offset].toNat : Int) = value.toInt % 256

namespace Effect.Performed

variable {store left : Store} {host after : σ}

theorem left_of_assign {target : String} {value : Int64}
    (performed : Performed store host (.assign target value) ((.ok (), left), after)) :
    left = store.assign target value := by
  cases performed
  rfl

end Effect.Performed

namespace Statement.ComesTo

variable {plan : Plan} {store : Store} {cell file length target : Operand} {call : Position}
  {effect : Effect} {succession : Succession}

theorem of_memget
    (comes : ComesTo plan store (.call "memget" [cell, target] call) effect succession) :
    ∃ address name, store.cellOf cell call = .ok address ∧ target.asVariable = .ok name ∧
      effect = .assign name (store.memory.cell address) := by
  -- The case analysis cannot compare the names as literals.
  generalize called : "memget" = name at comes
  cases comes with
  | getCell addressed named => exact ⟨_, _, addressed, named, rfl⟩
  | setCell _ _ | inspect _ => exact absurd called (by decide)

theorem of_writeFile
    (comes : ComesTo plan store (.call "write_file" [file, cell, length] call) effect succession) :
    ∃ path start stop count, file.asText = .ok path ∧ store.cellOf cell call = .ok start ∧
      store.evaluate length = .ok count ∧ store.rangeEnd start count.toInt call = .ok stop ∧
      effect = .save path (((List.range' start (stop - start)).map store.memory.cell).map lowByte)
        call := by
  generalize called : "write_file" = name at comes
  cases comes with
  | dumpToFile said addressed evaluated bounded =>
      exact ⟨_, _, _, _, said, addressed, evaluated, bounded, rfl⟩
  | inspect _ | fillFromFile _ _ _ => exact absurd called (by decide)

end Statement.ComesTo

theorem Deed.recalls {earlier : List (Deed σ)} {deed : Deed σ} (standard : deed.Standard)
    (before : ∀ past ∈ earlier, past.Standard)
    (latest : ∀ address, Latest address earlier (deed.store.memory.cell address)) :
    deed.Recalls earlier := by
  intro cell target call calls succeeds
  obtain ⟨effect, succession, comes, performed⟩ := succeeds.performed standard.calls
  rw [calls] at comes
  obtain ⟨address, name, addressed, named, rfl⟩ := comes.of_memget
  obtain ⟨word, evaluated, value, _⟩ := Store.of_cellOf addressed
  have stored : deed.left.value? name = some (deed.store.memory.cell address) := by
    rw [performed.left_of_assign, Store.value?_assign, if_pos rfl]
  refine ⟨word, address, name, evaluated, value, named, fun value => ?_⟩
  rw [stored, Option.some.injEq]
  constructor
  · rintro rfl
    exact latest address
  · exact fun other => (latest address).unique before other

theorem Deed.dumps {earlier : List (Deed σ)} {deed : Deed σ} (standard : deed.Standard)
    (latest : ∀ address, Latest address earlier (deed.store.memory.cell address)) :
    deed.Dumps earlier := by
  intro file cell length call calls succeeds
  obtain ⟨effect, succession, comes, performed⟩ := succeeds.performed standard.calls
  rw [calls] at comes
  obtain ⟨path, start, stop, count, said, addressed, evaluated, bounded, rfl⟩ := comes.of_writeFile
  obtain ⟨word, evaluated', value, _⟩ := Store.of_cellOf addressed
  obtain ⟨ordered, _, ends⟩ := Store.of_rangeEnd bounded
  generalize listed : ((List.range' start (stop - start)).map deed.store.memory.cell).map lowByte =
    bytes at performed
  have saved : deed.Saves path bytes := saves_of_answer performed.answer_of_save
  refine ⟨path, word, count, start, bytes, said, evaluated', value, evaluated, saved, ?_, ?_⟩
  · rw [← listed]
    simp only [List.length_map, List.length_range']
    omega
  · intro offset inside
    refine ⟨deed.store.memory.cell (start + offset), latest _, ?_⟩
    subst listed
    simp only [List.getElem_map, List.getElem_range', Nat.one_mul]
    exact toNat_lowByte _

/-- All through a history without builtins of the host's own, cells that are read back and files
that are written hold what was put into memory last, and a file that is read and written out again
is copied. -/
theorem Session.history_recalls (cells : Nat) (host : σ) {actions : List Session.Action}
    (standard : RegistersNothing actions) :
    let history := (Session.new cells).history host actions
    (∀ address, Latest address history.deeds (history.session.store.memory.cell address)) ∧
      ∀ earlier deed later, history.deeds = earlier ++ deed :: later →
        deed.Recalls earlier ∧ deed.Dumps earlier ∧
        ∀ next ∈ later.head?, ∀ source target start bytes,
          deed.Copying next source target start bytes →
          deed.Copied next source target bytes := by
  let Holds (done : List (Deed σ)) (store : Store) (_ : σ) : Prop :=
    -- The last part links each deed to the one before it.
    (∀ address, Latest address done (store.memory.cell address)) ∧
      (∀ past ∈ done, past.Standard) ∧ ∀ past ∈ done.getLast?, store = past.left
  have start : Holds [] (.new cells) host := by
    refine ⟨fun address => Latest.nil_iff.mpr (Memory.cell_zeros _ _), ?_, ?_⟩
    · exact fun past member => by cases member
    · exact fun past member => by cases member
  have concat (done : List (Deed σ)) (deed : Deed σ) (standard : deed.Standard)
      (holds : Holds done deed.store deed.host) : Holds (done ++ [deed]) deed.left deed.after := by
    obtain ⟨latest, before, _⟩ := holds
    refine ⟨fun address => (latest address).cell_left standard, ?_, ?_⟩
    · exact List.forall_mem_append.mpr ⟨before, List.forall_mem_singleton.mpr standard⟩
    · rw [List.getLast?_concat]
      intro past last
      cases last
      rfl
  refine ⟨(history_keeps Holds concat (fun _ _ _ holds => holds) start standard).1, ?_⟩
  intro earlier deed later split
  obtain ⟨calm, latest, before, _⟩ :=
    history_keeps_before Holds concat (fun _ _ _ holds => holds) start standard split
  refine ⟨Deed.recalls calm before latest, Deed.dumps calm latest, ?_⟩
  intro next first source target start' bytes copying
  obtain ⟨rest, rfl⟩ := List.head?_eq_some_iff.mp first
  rw [← List.singleton_append, ← List.append_assoc] at split
  obtain ⟨calm', _, _, follows⟩ :=
    history_keeps_before Holds concat (fun _ _ _ holds => holds) start standard split
  exact copying.copied calm calm' (follows deed (by simp))

/-- A file is copied to another one in a table, and in every directory that holds it and in which
the other one can be written. -/
theorem Session.history_recalls_copy :
    let place := Position.start "<host>"
    let source : Operand := ⟨.text "p", ⟨.text, "p", 3, place⟩⟩
    let target : Operand := ⟨.text "./q", ⟨.text, "./q", 5, place⟩⟩
    let one : Operand := ⟨.integer 1, ⟨.integer, "1", 1, place⟩⟩
    let n : Operand := ⟨.variable "n", ⟨.identifier, "n", 1, place⟩⟩
    let bytes : Bytes := [200, 7]
    let actions : List Session.Action :=
      [.invoke "read_file" [source, one, n] place, .invoke "write_file" [target, one, n] place]
    let table := World.quiet [] { FileTable.empty with files := .ofList [("p", bytes)] }
    RegistersNothing actions ∧
      (∃ read write, ((Session.new 3).history table actions).deeds = [read, write] ∧
        read.Copying write "p" "./q" 1 bytes ∧ read.Copied write "p" "./q" bytes ∧
        FileTable.shelf.files write.after "./q" = some bytes) ∧
      ∀ directory : World Directory, (Host.answer (.readFile "p") directory).1 = .ok bytes →
        (Host.answer (.writeFile "./q" bytes) directory).1 = .ok () →
        ∃ read write, ((Session.new 3).history directory actions).deeds = [read, write] ∧
        read.Copying write "p" "./q" 1 bytes ∧ read.Copied write "p" "./q" bytes ∧
        Directory.shelf.files write.after "./q" = some bytes := by
  intro place source target one n bytes actions table
  have standard : RegistersNothing actions := fun name builtin member => by simp [actions] at member
  have copies {φ : Type} [FileStore φ] (world : World φ) (shelf : Shelf (World φ))
      (delivered : (Host.answer (.readFile "p") world).1 = .ok bytes)
      (taken : (Host.answer (.writeFile "./q" bytes) world).1 = .ok ()) :
      ∃ read write, ((Session.new 3).history world actions).deeds = [read, write] ∧
        read.Copying write "p" "./q" 1 bytes ∧ read.Copied write "p" "./q" bytes ∧
        shelf.files write.after "./q" = some bytes := by
    let read : Deed (World φ) :=
      ⟨.new .standard #[.call "read_file" [source, one, n] place],
        .call "read_file" [source, one, n] place, .new 3, world⟩
    let write : Deed (World φ) :=
      ⟨.new .standard #[.call "write_file" [target, one, n] place],
        .call "write_file" [target, one, n] place, read.left, read.after⟩
    have deeds : ((Session.new 3).history world actions).deeds = [read, write] := by
      simp only [actions, history, List.foldl_cons, List.foldl_nil, History.act_invoke]
      rfl
    have copying : read.Copying write "p" "./q" 1 bytes := by
      refine ⟨⟨source, one, n, place, "n", rfl, rfl, rfl, ⟨1, rfl, by decide⟩, nofun, target, one,
        n, place, rfl, rfl, rfl, rfl⟩, ?_, delivered, ?_, by decide⟩
      · exact (by decide : 1 < 3)
      · exact (by decide : 1 + 2 ≤ 3)
    have copied := ((history_recalls 3 world standard).2 [] read [write] deeds).2.2 write rfl "p"
      "./q" 1 bytes copying
    -- Reading a file leaves all of a modelled world as it is.
    have same : read.after = world := by
      refine (copied.loaded.confined rfl).spared id fun request world allowed => ?_
      cases request with
      | readFile path => rfl
      | _ => cases allowed
    have written : write.Succeeds := by
      rw [copied.written]
      change (Host.answer _ read.after).1 = _
      rw [same, taken]
    exact ⟨read, write, deeds, copying, copied, (copied.saved written).held shelf⟩
  refine ⟨standard, ?_, fun directory => copies directory Directory.shelf⟩
  exact copies table FileTable.shelf (by decide +kernel) (by decide +kernel)

end LineScript
