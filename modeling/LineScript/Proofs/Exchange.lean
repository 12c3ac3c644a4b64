import LineScript.Proofs.History

/-!
What a run asks of its host, request by request. A host that keeps a record answers as it would
without one, so what is known of effects on any host also says which requests they make: a run makes
requests only in its deeds and flushes once more when it ends, and only calls of `input` flush and
read in between.
-/

namespace LineScript

def Effect.takesInput : Effect → Bool
  | .take _ _ => true
  | _ => false

namespace Deed

variable {σ : Type}

/-- The deed is a call of `input` that passes the checks of its number of operands and of the
operand. -/
def asksInput (deed : Deed σ) : Bool :=
  match deed.statement with
  | .call "input" args call =>
      (deed.plan.library.select deed.store "input" args call).isOk &&
        match args with
        | [target] => (Operand.refuseText [target]).isOk && target.asVariable.isOk
        | _ => false
  | _ => false

theorem of_isOk {ε α : Type} {result : Except ε α} (passes : result.isOk = true) :
    ∃ value, result = .ok value := by
  cases result with
  | error error => cases passes
  | ok value => exact ⟨value, rfl⟩

/-- A call that asks for input comes to taking a byte. -/
theorem effect_of_asksInput {deed : Deed σ} (asks : deed.asksInput = true) :
    ∃ target name call, deed.statement = .call "input" [target] call ∧
      target.asVariable = .ok name ∧
      deed.statement.effect deed.plan deed.store = .ok (.take name call, .proceed) := by
  rw [asksInput] at asks
  split at asks
  · next args call calls =>
      obtain ⟨gate, checks⟩ := (Bool.and_eq_true _ _).mp asks
      obtain ⟨builtin, selected⟩ := of_isOk gate
      split at checks
      · next target =>
          obtain ⟨plain, named⟩ := (Bool.and_eq_true _ _).mp checks
          obtain ⟨_, plain⟩ := of_isOk plain
          obtain ⟨name, named⟩ := of_isOk named
          refine ⟨target, name, call, calls, named, ?_⟩
          rw [calls, Statement.effect, Except.bind_of_eq_ok selected, Builtin.effect,
            Except.bind_of_eq_ok plain, Except.bind_of_eq_ok named]
          rfl
      · cases checks
  · cases asks

/-- Nothing else takes input. -/
theorem asksInput_of_effect {deed : Deed σ} {effect : Effect} {succession : Succession}
    (found : deed.statement.effect deed.plan deed.store = .ok (effect, succession)) :
    deed.asksInput = effect.takesInput := by
  cases takes : effect.takesInput with
  | false =>
      rw [Bool.eq_false_iff]
      intro asks
      obtain ⟨target, name, call, _, _, found'⟩ := effect_of_asksInput asks
      rw [found] at found'
      cases found'
      cases takes
  | true =>
      obtain ⟨plan, statement, store, host⟩ := deed
      cases effect with
      | take name call =>
          have comes := Statement.comesTo_of_effect found
          cases comes with
          | @takeByte target call name named =>
              obtain ⟨builtin, selected, _⟩ := Except.of_bind_eq_ok found
              have plain : Operand.refuseText [target] = .ok () := by
                obtain ⟨_ | _ | _, _⟩ := target
                · rfl
                · cases named
                · rfl
              simp [asksInput, selected, plain, named, Except.isOk, Except.toBool]
      | _ => cases takes

end Deed

/-- A request, with the host that it was put to as it was then. -/
structure Exchange (σ : Type) where
  request : Request
  host : σ

variable {σ : Type} [Host σ]

/-- The requests that an interaction makes, in order. -/
def Interaction.exchanges {α : Type} : Interaction α → σ → List (Exchange σ)
  | .done _, _ => []
  | .ask request resume, host =>
      let answered := Host.answer request host
      ⟨request, host⟩ :: (resume answered.1).exchanges answered.2

/-- A host with a record of what was asked of it. -/
structure Recorded (σ : Type) where
  host : σ
  record : List (Exchange σ)

namespace Recorded

def start (host : σ) : Recorded σ :=
  ⟨host, []⟩

instance : Host (Recorded σ) where
  answer request recorded :=
    let answered := Host.answer request recorded.host
    (answered.1, ⟨answered.2, recorded.record ++ [⟨request, recorded.host⟩]⟩)

theorem answer_eq {request : Request} {reply : request.Reply} {recorded after : Recorded σ}
    (answered : Host.answer request recorded = (reply, after)) :
    Host.answer request recorded.host = (reply, after.host) ∧
      after.record = recorded.record ++ [⟨request, recorded.host⟩] := by
  cases answered
  exact ⟨rfl, rfl⟩

end Recorded

namespace Interaction

variable {α β : Type}

@[simp] theorem exchanges_pure (value : α) (host : σ) :
    (pure value : Interaction α).exchanges host = [] := rfl

@[simp] theorem exchanges_bind (x : Interaction α) (f : α → Interaction β) (host : σ) :
    (x >>= f).exchanges host =
      x.exchanges host ++ (f (x.run host).1).exchanges (x.run host).2 := by
  induction x generalizing host with
  | done value => rfl
  | ask request resume ih => exact congrArg (_ :: ·) (ih _ _)

/-- A record changes nothing but the record. -/
theorem run_recorded (interaction : Interaction α) (recorded : Recorded σ) :
    interaction.run recorded =
      ((interaction.run recorded.host).1,
        ⟨(interaction.run recorded.host).2,
          recorded.record ++ interaction.exchanges recorded.host⟩) := by
  induction interaction generalizing recorded with
  | done value => rw [exchanges, List.append_nil]; rfl
  | ask request resume ih =>
      rw [run, ih]
      simp only [Host.answer, run, exchanges, List.append_assoc, List.singleton_append]

/-- What is the same after each of the requests is the same after all of them. -/
theorem view_run (view : σ → β) (interaction : Interaction α) (host : σ)
    (spared : ∀ exchange ∈ interaction.exchanges host,
      view (Host.answer exchange.request exchange.host).2 = view exchange.host) :
    view (interaction.run host).2 = view host := by
  induction interaction generalizing host with
  | done value => rfl
  | ask request resume ih =>
      rw [exchanges, List.forall_mem_cons] at spared
      exact (ih _ _ spared.2).trans spared.1

end Interaction

/-- What performing an effect can ask of a host: to flush and then to read if it takes input, and
else at most one thing that is neither. -/
inductive Exchanged (host : σ) : Bool → List (Exchange σ) → Prop
  | nothing : Exchanged host false []
  | other {request : Request} (flushless : request ≠ .flush) (readless : request ≠ .readByte) :
      Exchanged host false [⟨request, host⟩]
  | refused {reason : String} {after : σ}
      (flushed : Host.answer .flush host = (.error reason, after)) :
      Exchanged host true [⟨.flush, host⟩]
  | prompted {ready : σ} (flushed : Host.answer .flush host = (.ok (), ready)) :
      Exchanged host true [⟨.flush, host⟩, ⟨.readByte, ready⟩]

theorem Effect.perform_exchanged (effect : Effect) (store : Store) (host : σ) :
    Exchanged host effect.takesInput
      (effect.perform.exec store (Recorded.start host)).2.record := by
  have performed := effect.perform_performed store (Recorded.start host)
  generalize effect.perform.exec store (Recorded.start host) = done at performed
  cases performed with
  | nothing | assigned _ _ | poked _ _ => exact .nothing
  | written answered | unwritten answered | loaded answered _ | overfull answered _
  | unloaded answered | saved answered | unsaved answered =>
      rw [(Recorded.answer_eq answered).2]
      exact .other nofun nofun
  | unflushed flushed =>
      obtain ⟨answered, record⟩ := Recorded.answer_eq flushed
      rw [record]
      exact .refused answered
  | taken flushed read | exhausted flushed read | unread flushed read =>
      obtain ⟨answered, record⟩ := Recorded.answer_eq flushed
      rw [(Recorded.answer_eq read).2, record]
      exact .prompted answered

namespace Deed

/-- What the deed asks of its host. -/
def exchanges (deed : Deed σ) : List (Exchange σ) :=
  ((deed.statement.execute deed.plan).on deed.store).exchanges deed.host

/-- The deed on a host that keeps a record. -/
def recorded (deed : Deed σ) : Deed (Recorded σ) :=
  ⟨deed.plan, deed.statement, deed.store, .start deed.host⟩

/-- A host that keeps a record has what the deed asks in it. -/
theorem exchanges_eq_record (deed : Deed σ) : deed.exchanges = deed.recorded.after.record :=
  have recorded := Interaction.run_recorded ((deed.statement.execute deed.plan).on deed.store)
    (Recorded.start deed.host)
  (congrArg (fun done => done.2.record) recorded).symm

theorem Succeeds.recorded {deed : Deed σ} (succeeds : deed.Succeeds) :
    deed.recorded.Succeeds := by
  obtain ⟨succession, found⟩ := succeeds
  have same : deed.recorded.result.1 = deed.result.1 :=
    congrArg Prod.fst (Interaction.run_recorded _ (Recorded.start deed.host))
  exact ⟨succession, by rw [same, found]⟩

theorem exchanges_exchanged {deed : Deed σ}
    (calls : deed.statement.CallsStandard deed.plan.library) :
    Exchanged deed.host deed.asksInput deed.exchanges := by
  have executed := Statement.execute_executed calls deed.store (Recorded.start deed.host)
  rw [exchanges_eq_record]
  change Exchanged deed.host deed.asksInput
    ((deed.statement.execute deed.plan).exec deed.store (Recorded.start deed.host)).2.record
  generalize (deed.statement.execute deed.plan).exec deed.store (Recorded.start deed.host) = done
    at executed
  cases executed with
  | rejected checks =>
      have refused : deed.asksInput = false := by
        rw [Bool.eq_false_iff]
        intro asks
        obtain ⟨_, _, _, _, _, passes⟩ := effect_of_asksInput asks
        rw [checks] at passes
        cases passes
      rw [refused]
      exact .nothing
  | failed effect checks performed | done effect checks performed =>
      have asked := effect.perform_exchanged deed.store deed.host
      rw [performed] at asked
      rw [asksInput_of_effect checks]
      exact asked

end Deed

namespace Execution

theorem exchanges_past_end {plan : Plan} {pointer : Nat} (missing : plan.program[pointer]? = none)
    (store : Store) (host : σ) :
    (transition plan ⟨.running pointer, store⟩).exchanges host = [] := by
  simp only [transition, missing]
  rfl

theorem exchanges_statement {plan : Plan} {pointer : Nat} {statement : Statement}
    (present : plan.program[pointer]? = some statement) (store : Store) (host : σ) :
    (transition plan ⟨.running pointer, store⟩).exchanges host =
      (⟨plan, statement, store, host⟩ : Deed σ).exchanges := by
  simp only [transition, present, Interaction.exchanges_bind]
  exact List.append_nil _

theorem exchanges_closing (plan : Plan) (outcome : Outcome) (store : Store) (host : σ) :
    (transition plan ⟨.closing outcome, store⟩).exchanges host = [⟨.flush, host⟩] := by
  simp only [transition, Interaction.exchanges_bind]
  refine (List.append_nil _).trans (congrArg (_ :: ·) ?_)
  rcases Host.answer Request.flush host with ⟨reason | _, after⟩
  · rfl
  · rfl

end Execution

namespace Plan

/-- All requests of a run, after a number of transitions. -/
def exchanges (plan : Plan) (store : Store) (host : σ) : Nat → List (Exchange σ)
  | 0 => []
  | steps + 1 =>
      let reached := plan.run store host steps
      plan.exchanges store host steps ++ (Execution.transition plan reached.1).exchanges reached.2

/-- A run asks for nothing but what its deeds ask for, and for one flush when it finishes. -/
theorem exchanges_eq (plan : Plan) (store : Store) (host : σ) (steps : Nat) :
    let reached := plan.run store host steps
    let asked := (plan.deeds store host steps).flatMap Deed.exchanges
    ((∀ outcome, reached.1.stage ≠ .finished outcome) ∧
        plan.exchanges store host steps = asked) ∨
      ∃ executed final ready,
        (∃ earlier, plan.run store host earlier = (⟨.closing executed, final⟩, ready)) ∧
        reached = Execution.step plan ⟨.closing executed, final⟩ ready ∧
        plan.exchanges store host steps = asked ++ [⟨.flush, ready⟩] := by
  induction steps with
  | zero => exact .inl ⟨nofun, rfl⟩
  | succ steps ih =>
      rw [run_succ, exchanges, deeds, List.flatMap_append]
      rcases reached : plan.run store host steps with ⟨⟨stage, left⟩, before⟩
      rw [reached] at ih
      dsimp only at ih ⊢
      cases stage with
      | running pointer =>
          obtain ⟨_, asked⟩ | ⟨_, _, _, _, ended, _⟩ := ih
          · rw [asked]
            refine .inl ⟨Execution.step_running_ne_finished plan pointer left before, ?_⟩
            rw [Execution.deed?_running]
            cases present : plan.program[pointer]? with
            | none =>
                rw [Execution.exchanges_past_end present]
                rfl
            | some statement =>
                rw [Execution.exchanges_statement present, Option.map_some, Option.toList_some,
                  List.flatMap_singleton]
          · have stage := congrArg (fun done => done.1.stage) ended
            rw [Execution.step_closing] at stage
            cases stage
      | closing executed =>
          obtain ⟨_, asked⟩ | ⟨_, _, _, _, ended, _⟩ := ih
          · refine .inr ⟨executed, left, before, ⟨steps, reached⟩, rfl, ?_⟩
            rw [asked, Execution.exchanges_closing, Execution.deed?_closing]
            rw [Option.toList_none, List.flatMap_nil, List.append_nil]
          · have stage := congrArg (fun done => done.1.stage) ended
            rw [Execution.step_closing] at stage
            cases stage
      | finished outcome =>
          obtain ⟨unfinished, _⟩ | ⟨executed, final, ready, closing, ended, asked⟩ := ih
          · exact absurd rfl (unfinished outcome)
          · refine .inr ⟨executed, final, ready, closing, ended, ?_⟩
            rw [asked, Execution.deed?_finished, Option.toList_none, List.flatMap_nil,
              List.append_nil]
            exact List.append_nil _

end Plan
end LineScript
