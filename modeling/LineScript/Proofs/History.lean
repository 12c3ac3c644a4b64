import LineScript.Proofs.Meaning
import LineScript.Proofs.Run

/-!
Histories of sessions. A host adds builtins to a session, calls them, and has programs run; every
statement that is carried out on the way is a deed, with the store and the host as they were before
it. What every deed and every flush keeps holds all through a history.
-/

namespace LineScript

/-- An element of a list with a last one is that one, or lies before it. -/
theorem List.of_concat_eq_append_cons {α : Type} {done earlier later : List α} {last current : α}
    (split : done ++ [last] = earlier ++ current :: later) :
    (later = [] ∧ done = earlier ∧ last = current) ∨
      ∃ rest, later = rest ++ [last] ∧ done = earlier ++ current :: rest := by
  obtain rfl | ⟨rest, final, rfl⟩ := List.eq_nil_or_concat later
  · obtain ⟨same, tail⟩ := List.append_inj' split rfl
    cases tail
    exact .inl ⟨rfl, same, rfl⟩
  · rw [List.concat_eq_append] at split ⊢
    rw [← List.cons_append, ← List.append_assoc] at split
    obtain ⟨same, tail⟩ := List.append_inj' split rfl
    cases tail
    exact .inr ⟨rest, rfl, same⟩

/-- A statement that is carried out, with the store and the host before it. -/
structure Deed (σ : Type) where
  plan : Plan
  statement : Statement
  store : Store
  host : σ

namespace Deed

variable {σ : Type}

/-- The deed knows the standard builtins and no others. -/
def Standard (deed : Deed σ) : Prop :=
  deed.plan.library = .standard

theorem Standard.calls {deed : Deed σ} (standard : deed.Standard) :
    deed.statement.CallsStandard deed.plan.library := by
  rw [standard]
  exact Plan.callsStandard_new #[deed.statement] _ (Array.mem_singleton_self _)

variable [Host σ]

def result (deed : Deed σ) : (Except RunError Succession × Store) × σ :=
  (deed.statement.execute deed.plan).exec deed.store deed.host

/-- The store that the deed leaves. -/
def left (deed : Deed σ) : Store :=
  deed.result.1.2

/-- The host that the deed leaves. -/
def after (deed : Deed σ) : σ :=
  deed.result.2

def Succeeds (deed : Deed σ) : Prop :=
  ∃ succession, deed.result.1.1 = .ok succession

/-- A deed that succeeds has had the effect that its statement comes to. -/
theorem Succeeds.performed {deed : Deed σ} (succeeds : deed.Succeeds)
    (calls : deed.statement.CallsStandard deed.plan.library) :
    ∃ effect succession,
      Statement.ComesTo deed.plan deed.store deed.statement effect succession ∧
      Effect.Performed deed.store deed.host effect ((.ok (), deed.left), deed.after) := by
  obtain ⟨succession, found⟩ := succeeds
  have done : (deed.statement.execute deed.plan).exec deed.store deed.host =
      ((.ok succession, deed.left), deed.after) := by
    rw [← found]
    rfl
  obtain ⟨effect, comes, performed⟩ := Statement.performed_of_succeeds calls done
  exact ⟨effect, succession, comes, performed⟩

end Deed

variable {σ : Type}

/-- What a run carries out next, if it stands at a statement. -/
def Execution.deed? (plan : Plan) (execution : Execution) (host : σ) : Option (Deed σ) :=
  (execution.current? plan).map fun found => ⟨plan, found.2, execution.store, host⟩

namespace Execution

theorem deed?_running (plan : Plan) (pointer : Nat) (store : Store) (host : σ) :
    deed? plan ⟨.running pointer, store⟩ host =
      plan.program[pointer]?.map fun statement => ⟨plan, statement, store, host⟩ := by
  rw [deed?, current?_running, Option.map_map]
  rfl

theorem deed?_closing (plan : Plan) (outcome : Outcome) (store : Store) (host : σ) :
    deed? plan ⟨.closing outcome, store⟩ host = none := rfl

theorem deed?_finished (plan : Plan) (outcome : Outcome) (store : Store) (host : σ) :
    deed? plan ⟨.finished outcome, store⟩ host = none := rfl

end Execution

variable [Host σ]

namespace Plan

/-- What a run has carried out after a number of transitions. -/
def deeds (plan : Plan) (store : Store) (host : σ) : Nat → List (Deed σ)
  | 0 => []
  | steps + 1 =>
      let reached := plan.run store host steps
      plan.deeds store host steps ++ (reached.1.deed? plan reached.2).toList

variable {plan : Plan} {store : Store} {host : σ}

theorem of_mem_deeds {steps : Nat} {deed : Deed σ} (member : deed ∈ plan.deeds store host steps) :
    deed.plan = plan ∧ deed.statement ∈ plan.program := by
  induction steps with
  | zero => cases member
  | succ steps ih =>
      obtain earlier | last := List.mem_append.mp member
      · exact ih earlier
      · rcases reached : plan.run store host steps with ⟨⟨stage, left⟩, ready⟩
        rw [reached, Option.mem_toList] at last
        cases stage with
        | running pointer =>
            rw [Execution.deed?_running, Option.map_eq_some_iff] at last
            obtain ⟨statement, present, rfl⟩ := last
            exact ⟨rfl, Array.mem_of_getElem? present⟩
        | closing _ | finished _ => cases last

theorem length_deeds (plan : Plan) (store : Store) (host : σ) (steps : Nat) :
    (plan.deeds store host steps).length = (plan.trace store host steps).length := by
  induction steps with
  | zero => rfl
  | succ steps ih =>
      rw [deeds, trace, List.length_append, List.length_append, ih, Execution.deed?]
      cases (plan.run store host steps).1.current? plan <;> rfl

/-- What deeds and flushes keep holds after every number of transitions. -/
theorem run_keeps {Holds : List (Deed σ) → Store → σ → Prop}
    (deed : ∀ (done : List (Deed σ)) (deed : Deed σ), deed.plan = plan →
      deed.statement ∈ plan.program → Holds done deed.store deed.host →
      Holds (done ++ [deed]) deed.left deed.after)
    (flush : ∀ (done : List (Deed σ)) (store : Store) (host : σ), Holds done store host →
      Holds done store (Host.answer .flush host).2)
    {done : List (Deed σ)} (start : Holds done store host) (steps : Nat) :
    Holds (done ++ plan.deeds store host steps) (plan.run store host steps).1.store
      (plan.run store host steps).2 := by
  induction steps with
  | zero =>
      rw [deeds, List.append_nil]
      exact start
  | succ steps ih =>
      rw [deeds, run_succ, ← List.append_assoc]
      generalize done ++ plan.deeds store host steps = earlier at ih ⊢
      rcases reached : plan.run store host steps with ⟨⟨stage, left⟩, ready⟩
      rw [reached] at ih
      cases stage with
      | running pointer =>
          rw [Execution.deed?_running]
          cases present : plan.program[pointer]? with
          | none =>
              rw [Execution.step_past_end present, Option.map_none, Option.toList_none,
                List.append_nil]
              exact ih
          | some statement =>
              rw [Execution.step_statement present]
              exact deed earlier ⟨plan, statement, left, ready⟩ rfl
                (Array.mem_of_getElem? present) ih
      | closing outcome =>
          obtain ⟨last, closed⟩ := Execution.step_closing_host plan outcome left ready
          rw [closed, Execution.deed?_closing, Option.toList_none, List.append_nil]
          exact flush earlier left ready ih
      | finished outcome =>
          rw [Execution.step_finished, Execution.deed?_finished, Option.toList_none,
            List.append_nil]
          exact ih

end Plan

/-- What a host does with a session. A run may be broken off when its fuel is spent. -/
inductive Session.Action
  | register (name : String) (builtin : Builtin)
  | invoke (name : String) (args : List Operand) (call : Position)
  | run (fuel : Nat) (program : Program)

/-- Where a session has come to, and everything that was carried out on the way. -/
structure History (σ : Type) where
  session : Session
  host : σ
  deeds : List (Deed σ)

namespace History

/-- A call of a builtin, as the only statement of a program. -/
def calling (history : History σ) (name : String) (args : List Operand) (call : Position) :
    Deed σ :=
  ⟨.new history.session.library #[.call name args call], .call name args call,
    history.session.store, history.host⟩

def act (history : History σ) : Session.Action → History σ
  | .register name builtin =>
      let library := history.session.library.add name builtin
      { history with session := { history.session with library } }
  | .invoke name args call =>
      let ((_, store), host) :=
        (history.session.library.perform name args call).exec history.session.store history.host
      ⟨{ history.session with store }, host, history.deeds ++ [history.calling name args call]⟩
  | .run fuel program =>
      let (_, session, host) := history.session.run fuel program history.host
      let plan := Plan.new history.session.library program
      ⟨session, host, history.deeds ++ plan.deeds history.session.store history.host fuel⟩

/-- A builtin that is called directly does what a statement calling it does. -/
theorem calling_result (history : History σ) (name : String) (args : List Operand)
    (call : Position) :
    let direct :=
      (history.session.library.perform name args call).exec history.session.store history.host
    (history.calling name args call).result =
      ((direct.1.1.map fun () => .proceed, direct.1.2), direct.2) := by
  simp only [calling, Deed.result, Statement.execute, Command.exec_bind, Plan.new]
  generalize Command.exec (σ := σ) _ _ _ = direct
  obtain ⟨⟨error | _, store⟩, host⟩ := direct
  · rfl
  · rfl

theorem act_invoke (history : History σ) (name : String) (args : List Operand) (call : Position) :
    let deed := history.calling name args call
    history.act (.invoke name args call) =
      ⟨{ history.session with store := deed.left }, deed.after, history.deeds ++ [deed]⟩ := by
  dsimp only
  rw [Deed.left, Deed.after, history.calling_result name args call]
  rfl

end History

namespace Session

/-- What comes of a session and its host by a list of actions. -/
def history (session : Session) (host : σ) (actions : List Action) : History σ :=
  actions.foldl History.act ⟨session, host, []⟩

def RegistersNothing (actions : List Action) : Prop :=
  ∀ name builtin, .register name builtin ∉ actions

/-- What deeds and flushes keep holds all through the history of a session without builtins of the
host's own. -/
theorem history_keeps (Holds : List (Deed σ) → Store → σ → Prop)
    (deed : ∀ (done : List (Deed σ)) (deed : Deed σ), deed.Standard →
      Holds done deed.store deed.host → Holds (done ++ [deed]) deed.left deed.after)
    (flush : ∀ (done : List (Deed σ)) (store : Store) (host : σ), Holds done store host →
      Holds done store (Host.answer .flush host).2)
    {cells : Nat} {host : σ} (start : Holds [] (.new cells) host) {actions : List Action}
    (standard : RegistersNothing actions) :
    let history := (new cells).history host actions
    Holds history.deeds history.session.store history.host := by
  let Kept (history : History σ) : Prop := history.session.library = .standard ∧
    Holds history.deeds history.session.store history.host
  have kept : Kept ((new cells).history host actions) := by
    apply List.foldlRecOn actions History.act (motive := Kept) ⟨rfl, start⟩
    rintro history ⟨library, holds⟩ action member
    cases action with
    | register name builtin => exact absurd member (standard name builtin)
    | invoke name args call =>
        rw [history.act_invoke name args call]
        exact ⟨library, deed history.deeds (history.calling name args call) library holds⟩
    | run fuel program =>
        refine ⟨library, Plan.run_keeps (fun done current planned _ => ?_) flush holds fuel⟩
        exact deed done current (by rw [Deed.Standard, planned]; exact library)
  exact kept.2

/-- What deeds and flushes keep also held before each deed of the history. -/
theorem history_keeps_before (Holds : List (Deed σ) → Store → σ → Prop)
    (deed : ∀ (done : List (Deed σ)) (deed : Deed σ), deed.Standard →
      Holds done deed.store deed.host → Holds (done ++ [deed]) deed.left deed.after)
    (flush : ∀ (done : List (Deed σ)) (store : Store) (host : σ), Holds done store host →
      Holds done store (Host.answer .flush host).2)
    {cells : Nat} {host : σ} (start : Holds [] (.new cells) host) {actions : List Action}
    (standard : RegistersNothing actions) {earlier later : List (Deed σ)} {current : Deed σ}
    (split : ((new cells).history host actions).deeds = earlier ++ current :: later) :
    current.Standard ∧ Holds earlier current.store current.host := by
  let Held (done : List (Deed σ)) (store : Store) (host : σ) : Prop := Holds done store host ∧
    ∀ earlier current later, done = earlier ++ current :: later →
      current.Standard ∧ Holds earlier current.store current.host
  let history := (new cells).history host actions
  have held : Held history.deeds history.session.store history.host := by
    refine history_keeps Held (fun done last standard held => ?_)
      (fun done store host held => ⟨flush done store host held.1, held.2⟩) ⟨start, ?_⟩ standard
    · obtain ⟨holds, before⟩ := held
      refine ⟨deed done last standard holds, fun earlier current later split => ?_⟩
      obtain ⟨_, rfl, rfl⟩ | ⟨rest, _, within⟩ := List.of_concat_eq_append_cons split
      · exact ⟨standard, holds⟩
      · exact before earlier current rest within
    · exact fun earlier current later split => by simp at split
  exact held.2 earlier current later split

theorem history_standard {cells : Nat} {host : σ} {actions : List Action}
    (standard : RegistersNothing actions) :
    ∀ deed ∈ ((new cells).history host actions).deeds, deed.Standard := by
  intro deed present
  obtain ⟨earlier, later, split⟩ := List.append_of_mem present
  exact (history_keeps_before (fun _ _ _ => True) (fun _ _ _ _ => trivial)
    (fun _ _ _ _ => trivial) trivial standard split).1

end Session

end LineScript
