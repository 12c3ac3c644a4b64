import LineScript.Command
import LineScript.World

/-!
What requests can change. A ledger reads the input, the bytes written and the files off the state
of a host, and keeps to what hosts promise: only a read takes input, only a write adds output and
only the saving of a file changes files, if it succeeds. Modelled worlds have a ledger.
-/

namespace LineScript

/-- A front part of the bytes is accepted, and all of them if the write succeeds. -/
theorem Sink.writeAll_accepts (sink : Sink) (bytes : Bytes) :
    ∃ front, front <+: bytes ∧
      (sink.writeAll bytes).2.written.toList = sink.written.toList ++ front ∧
      ((sink.writeAll bytes).1 = .ok () → front = bytes) := by
  fun_induction Sink.writeAll sink bytes with
  | case1 sink bytes empty =>
      rw [List.length_eq_zero_iff.mp empty]
      exact ⟨[], List.nil_prefix, (List.append_nil _).symm, fun _ => rfl⟩
  | case2 sink bytes _ reason _ =>
      exact ⟨[], List.nil_prefix, (List.append_nil _).symm, nofun⟩
  | case3 sink bytes _ _ => exact ⟨[], List.nil_prefix, (List.append_nil _).symm, nofun⟩
  | case4 sink bytes _ count _ ih =>
      obtain ⟨front, part, accepted, whole⟩ := ih
      refine ⟨bytes.take (count + 1) ++ front, ?_, ?_, fun success => ?_⟩
      · have joined := (List.prefix_append_right_inj (bytes.take (count + 1))).mpr part
        rw [List.take_append_drop] at joined
        exact joined
      · rw [accepted, ← List.append_assoc]
        simp only [Sink.accept, Array.appendList_eq_append, Array.toList_appendList]
      · rw [whole success, List.take_append_drop]

/-- How the state of a host accounts for input, output and files. -/
structure Ledger (σ ι φ : Type) [Host σ] where
  input : σ → ι
  written : σ → Bytes
  files : σ → φ
  input_kept : ∀ (request : Request) (host : σ), request ≠ .readByte →
    input (Host.answer request host).2 = input host
  written_kept : ∀ (request : Request) (host : σ), (∀ bytes, request ≠ .write bytes) →
    written (Host.answer request host).2 = written host
  written_write : ∀ (bytes : Bytes) (host : σ), ∃ front, front <+: bytes ∧
    written (Host.answer (.write bytes) host).2 = written host ++ front ∧
    ((Host.answer (.write bytes) host).1 = .ok () → front = bytes)
  files_kept : ∀ (request : Request) (host : σ),
    (∀ path bytes, request ≠ .writeFile path bytes) →
    files (Host.answer request host).2 = files host
  files_failed : ∀ (path : String) (bytes : Bytes) (host : σ) (reason : String),
    (Host.answer (.writeFile path bytes) host).1 = .error reason →
    files (Host.answer (.writeFile path bytes) host).2 = files host

namespace Ledger

variable {σ ι φ : Type} [Host σ]

theorem input_eq (ledger : Ledger σ ι φ) {request : Request} {reply : request.Reply}
    {host after : σ} (answered : Host.answer request host = (reply, after))
    (other : request ≠ .readByte) : ledger.input after = ledger.input host := by
  have kept := ledger.input_kept request host other
  rw [answered] at kept
  exact kept

theorem written_eq (ledger : Ledger σ ι φ) {request : Request} {reply : request.Reply}
    {host after : σ} (answered : Host.answer request host = (reply, after))
    (other : ∀ bytes, request ≠ .write bytes) : ledger.written after = ledger.written host := by
  have kept := ledger.written_kept request host other
  rw [answered] at kept
  exact kept

theorem files_eq (ledger : Ledger σ ι φ) {request : Request} {reply : request.Reply}
    {host after : σ} (answered : Host.answer request host = (reply, after))
    (other : ∀ path bytes, request ≠ .writeFile path bytes) :
    ledger.files after = ledger.files host := by
  have kept := ledger.files_kept request host other
  rw [answered] at kept
  exact kept

/-- No request takes back what was written. -/
theorem written_answer (ledger : Ledger σ ι φ) (request : Request) (host : σ) :
    ledger.written host <+: ledger.written (Host.answer request host).2 := by
  by_cases writes : ∃ bytes, request = .write bytes
  · obtain ⟨bytes, rfl⟩ := writes
    obtain ⟨front, _, grown, _⟩ := ledger.written_write bytes host
    rw [grown]
    exact List.prefix_append _ _
  · have kept := ledger.written_kept request host fun bytes same => writes ⟨bytes, same⟩
    exact ⟨[], by rw [kept, List.append_nil]⟩

theorem written_run (ledger : Ledger σ ι φ) {α : Type} (interaction : Interaction α) (host : σ) :
    ledger.written host <+: ledger.written (interaction.run host).2 := by
  induction interaction generalizing host with
  | done value => exact List.prefix_rfl
  | ask request resume ih => exact (ledger.written_answer request host).trans (ih _ _)

end Ledger

namespace World

variable {φ : Type} [FileStore φ]

theorem input_answer (request : Request) (world : World φ) (other : request ≠ .readByte) :
    (Host.answer request world).2.input = world.input := by
  cases request with
  | write _ | readFile _ => rfl
  | readByte => exact absurd rfl other
  | flush | writeFile _ _ =>
      simp only [Host.answer, answer, flush]
      split <;> rfl

theorem output_answer (request : Request) (world : World φ)
    (other : ∀ bytes, request ≠ .write bytes) :
    (Host.answer request world).2.output = world.output := by
  cases request with
  | write bytes => exact absurd rfl (other bytes)
  | readByte | readFile _ => rfl
  | flush | writeFile _ _ =>
      simp only [Host.answer, answer, flush]
      split <;> rfl

theorem files_answer (request : Request) (world : World φ)
    (other : ∀ path bytes, request ≠ .writeFile path bytes) :
    (Host.answer request world).2.files = world.files := by
  cases request with
  | write _ | readByte | readFile _ => rfl
  | writeFile path bytes => exact absurd rfl (other path bytes)
  | flush =>
      simp only [Host.answer, answer, flush]
      split <;> rfl

def ledger : Ledger (World φ) (List InputItem) φ where
  input := input
  written world := world.output.written.toList
  files := files
  input_kept := input_answer
  written_kept request world other :=
    congrArg (·.written.toList) (output_answer request world other)
  written_write bytes world := world.output.writeAll_accepts bytes
  files_kept := files_answer
  files_failed path bytes world reason := by
    simp only [Host.answer, answer]
    split
    · exact nofun
    · exact fun _ => rfl

end World
end LineScript
