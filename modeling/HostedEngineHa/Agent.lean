import Mathlib.Data.List.Basic

/-! The retry loop of `Agent._run_agent` and the signal handler `_handle_quit`. A run
interleaves signals with attempts whose endings are given; the loop never reads the flag. -/
namespace HostedEngineHa.AgentLoop

/-- The exceptions the loop catches and retries on: `ServiceNotUpException`,
`DisconnectionError`, `BrokerInitializationError` or `BrokerConnectionError`, and any other
`Exception`, each with its `str`. -/
inductive HandledError where
  | serviceNotUp (message : String)
  | disconnection (message : String)
  | brokerInitialization (message : String)
  | brokerConnection (message : String)
  | other (message : String)
  deriving DecidableEq, Repr

/-- How one attempt ends: `HostedEngine(...)` or the action raises a handled exception, the
action returns a value (which `_run_agent` returns), or something the loop does not catch,
such as `KeyboardInterrupt`, propagates. -/
inductive Attempt where
  | handled (error : HandledError)
  | returned (value : Int)
  | unhandled
  deriving DecidableEq, Repr

/-- What happens next in a run: a signal reaches `_handle_quit`, or the loop makes its next
attempt, which ends as given. -/
inductive Event where
  | quit
  | attempt (result : Attempt)
  deriving DecidableEq, Repr

/-- The agent during `_run_agent`: the shutdown flag, the attempts started (each constructs
`HostedEngine`), and how the loop ended, once it has: the value it returned, or `none` for an
exception it let through. -/
structure Agent where
  shutdown : Bool
  attempts : Nat
  ended : Option (Option Int)
  deriving DecidableEq, Repr

/-- The agent when `_run_agent(action, host_id, retries)` is called with the flag as given; with
no attempts allowed the loop's `else` clause returns `-99` at once. -/
def start (retries : Nat) (shutdown : Bool) : Agent :=
  ⟨shutdown, 0, if retries = 0 then some (some (-99)) else none⟩

/-- One event. A handled exception is followed by `time.sleep(AGENT_START_RETRY_WAIT)` and the
next iteration of `for attempt in range(retries)`, whose `else` clause returns `-99` once the
range is used up. Once the loop has ended, attempts no longer happen. -/
def agentStep (retries : Nat) (agent : Agent) : Event → Agent
  | .quit => { agent with shutdown := true }
  | .attempt result =>
    if agent.ended.isSome then agent
    else
      match result with
      | .handled _ =>
        { agent with attempts := agent.attempts + 1,
                     ended := if agent.attempts + 1 = retries then some (some (-99)) else none }
      | .returned value => { agent with attempts := agent.attempts + 1, ended := some (some value) }
      | .unhandled => { agent with attempts := agent.attempts + 1, ended := some none }

def runAgent (retries : Nat) (agent : Agent) (events : List Event) : Agent :=
  events.foldl (agentStep retries) agent

def attemptsOf : List Event → List Event
  | [] => []
  | .quit :: events => attemptsOf events
  | .attempt result :: events => .attempt result :: attemptsOf events

theorem agentStep_flag (retries : Nat) (agent : Agent) (result : Attempt) (flag : Bool) :
    agentStep retries { agent with shutdown := flag } (.attempt result) =
      { agentStep retries agent (.attempt result) with shutdown := flag } := by
  simp only [agentStep]
  split <;> (try cases result) <;> rfl

@[simp] theorem shutdown_agentStep_attempt (retries : Nat) (agent : Agent) (result : Attempt) :
    (agentStep retries agent (.attempt result)).shutdown = agent.shutdown := by
  simp only [agentStep]
  split <;> (try cases result) <;> rfl

theorem runAgent_attemptsOf_flag (retries : Nat) (agent : Agent) (events : List Event)
    (flag : Bool) :
    runAgent retries { agent with shutdown := flag } (attemptsOf events) =
      { runAgent retries agent (attemptsOf events) with shutdown := flag } := by
  induction events generalizing agent with
  | nil => rfl
  | cons event events ih =>
    cases event with
    | quit => exact ih agent
    | attempt result =>
      simp only [attemptsOf, runAgent, List.foldl_cons] at ih ⊢
      rw [agentStep_flag, ih]

/-- `_run_agent` never reads the shutdown flag: a run with signals makes the same attempts and
ends the same way as the run with its signals left out, and the flag ends up set exactly when
it was set at the start or a signal came. An attempt starts whenever the loop has not ended,
whichever way the flag stands. -/
theorem runAgent_ignores_shutdown (retries : Nat) (agent : Agent) (events : List Event) :
    runAgent retries agent events =
        { runAgent retries agent (attemptsOf events) with
            shutdown := agent.shutdown || events.contains .quit } ∧
      ∀ (agent : Agent) (result : Attempt), agent.ended = none →
        (agentStep retries agent (.attempt result)).attempts = agent.attempts + 1 := by
  refine ⟨?_, fun agent result running => ?_⟩
  · induction events generalizing agent with
    | nil => simp [runAgent, attemptsOf]
    | cons event events ih =>
      cases event with
      | quit =>
        rw [show runAgent retries agent (.quit :: events) =
            runAgent retries { agent with shutdown := true } events from rfl, ih,
          runAgent_attemptsOf_flag, show attemptsOf (.quit :: events) = attemptsOf events from rfl]
        simp
      | attempt result =>
        rw [show runAgent retries agent (.attempt result :: events) =
            runAgent retries (agentStep retries agent (.attempt result)) events from rfl, ih,
          shutdown_agentStep_attempt]
        simp [show (Event.quit == Event.attempt result) = false from rfl, runAgent, attemptsOf]
  · simp only [agentStep, running, Option.isSome_none]
    cases result <;> rfl

/-- A signal before every attempt does not stop the loop: with two attempts allowed, the first
raising a handled exception, `HostedEngine` is constructed again after the flag is set. -/
theorem runAgent_attempts_after_quit :
    (agentStep 2 (start 2 false) .quit).shutdown = true ∧
      (runAgent 2 (agentStep 2 (start 2 false) .quit)
        [.attempt (.handled (.other "")), .quit, .attempt (.returned 0)]).attempts = 2 := by
  decide

/-! ### How the loop ends -/

def attemptResults : List Event → List Attempt
  | [] => []
  | .quit :: events => attemptResults events
  | .attempt result :: events => result :: attemptResults events

def Attempt.isHandled : Attempt → Bool
  | .handled _ => true
  | _ => false

/-- The closed form the spec gives for the loop of `_run_agent`, against which `runAgent` is
checked: it ends as the first attempt that is not handled says, unless `retries` handled ones
come before it, and then with `-99`; `none` while it still runs. -/
def loopOutcome (retries : Nat) (results : List Attempt) : Option (Option Int) :=
  if retries ≤ (results.takeWhile Attempt.isHandled).length then some (some (-99))
  else
    match (results.dropWhile Attempt.isHandled).head? with
    | some (.returned value) => some (some value)
    | some _ => some none
    | none => none

def loopAttempts (retries : Nat) (results : List Attempt) : Nat :=
  min retries (min ((results.takeWhile Attempt.isHandled).length + 1) results.length)

@[simp] theorem loopOutcome_zero (results : List Attempt) :
    loopOutcome 0 results = some (some (-99)) := by
  rw [loopOutcome, if_pos (Nat.zero_le _)]

@[simp] theorem loopAttempts_zero (results : List Attempt) : loopAttempts 0 results = 0 :=
  Nat.zero_min _

theorem loopOutcome_nil (retries : Nat) : loopOutcome (retries + 1) [] = none := by
  simp [loopOutcome]

theorem loopAttempts_nil (retries : Nat) : loopAttempts retries [] = 0 := by
  simp [loopAttempts]

theorem loopOutcome_handled (retries : Nat) (error : HandledError) (results : List Attempt) :
    loopOutcome (retries + 1) (.handled error :: results) = loopOutcome retries results := by
  simp only [loopOutcome, List.takeWhile_cons_of_pos (rfl : Attempt.isHandled (.handled error)),
    List.dropWhile_cons_of_pos (rfl : Attempt.isHandled (.handled error)), List.length_cons,
    Nat.add_le_add_iff_right]

theorem loopAttempts_handled (retries : Nat) (error : HandledError) (results : List Attempt) :
    loopAttempts (retries + 1) (.handled error :: results) = loopAttempts retries results + 1 := by
  simp only [loopAttempts, List.takeWhile_cons_of_pos (rfl : Attempt.isHandled (.handled error)),
    List.length_cons]
  omega

theorem loopOutcome_decisive (retries : Nat) (result : Attempt) (results : List Attempt)
    (decisive : result.isHandled = false) :
    loopOutcome (retries + 1) (result :: results) =
      match result with
      | .returned value => some (some value)
      | _ => some none := by
  have kept : ¬ result.isHandled := by simp [decisive]
  rw [loopOutcome, List.takeWhile_cons_of_neg kept, List.dropWhile_cons_of_neg kept,
    if_neg (by simp)]
  cases result <;> rfl

theorem loopAttempts_decisive (retries : Nat) (result : Attempt) (results : List Attempt)
    (decisive : result.isHandled = false) : loopAttempts (retries + 1) (result :: results) = 1 := by
  have kept : ¬ result.isHandled := by simp [decisive]
  simp only [loopAttempts, List.takeWhile_cons_of_neg kept, List.length_cons, List.length_nil]
  omega

theorem runAgent_cons (retries : Nat) (agent : Agent) (event : Event) (events : List Event) :
    runAgent retries agent (event :: events) =
      runAgent retries (agentStep retries agent event) events := rfl

theorem agentStep_of_running (retries : Nat) (agent : Agent) (result : Attempt)
    (running : agent.ended = none) :
    agentStep retries agent (.attempt result) =
      { agent with attempts := agent.attempts + 1,
                   ended := match result with
                     | .handled _ => if agent.attempts + 1 = retries then some (some (-99)) else none
                     | .returned value => some (some value)
                     | .unhandled => some none } := by
  simp only [agentStep, running, Option.isSome_none]
  cases result <;> rfl

theorem runAgent_of_ended (retries : Nat) (agent : Agent) (events : List Event)
    (ended : agent.ended.isSome) :
    (runAgent retries agent events).ended = agent.ended ∧
      (runAgent retries agent events).attempts = agent.attempts := by
  induction events generalizing agent with
  | nil => exact ⟨rfl, rfl⟩
  | cons event events ih =>
    have still : (agentStep retries agent event).ended = agent.ended ∧
        (agentStep retries agent event).attempts = agent.attempts := by
      cases event with
      | quit => exact ⟨rfl, rfl⟩
      | attempt result => simp only [agentStep, if_pos ended, and_self]
    obtain ⟨sameEnd, sameAttempts⟩ := ih _ (still.1 ▸ ended)
    exact ⟨sameEnd.trans still.1, sameAttempts.trans still.2⟩

/-- While the loop runs, the rest of the run ends it as `loopOutcome` says for the attempts it
has left, after the attempts `loopAttempts` counts. -/
theorem runAgent_of_running (retries : Nat) (agent : Agent) (events : List Event)
    (running : agent.ended = none) (below : agent.attempts < retries) :
    (runAgent retries agent events).ended =
        loopOutcome (retries - agent.attempts) (attemptResults events) ∧
      (runAgent retries agent events).attempts =
        agent.attempts + loopAttempts (retries - agent.attempts) (attemptResults events) := by
  obtain ⟨left, hleft⟩ : ∃ left, retries - agent.attempts = left + 1 :=
    ⟨retries - agent.attempts - 1, by omega⟩
  induction events generalizing agent left with
  | nil =>
    refine ⟨?_, ?_⟩
    · rw [attemptResults, hleft, loopOutcome_nil]
      exact running
    · rw [attemptResults, loopAttempts_nil]
      rfl
  | cons event events ih =>
    cases event with
    | quit => exact ih _ running below left hleft
    | attempt result =>
      rw [hleft, runAgent_cons, agentStep_of_running retries agent result running, attemptResults]
      cases result with
      | handled error =>
        rw [loopOutcome_handled, loopAttempts_handled]
        by_cases last : agent.attempts + 1 = retries
        · obtain rfl : left = 0 := by omega
          rw [if_pos last, loopOutcome_zero, loopAttempts_zero]
          exact runAgent_of_ended retries _ events rfl
        · rw [if_neg last]
          have next := ih { agent with attempts := agent.attempts + 1, ended := none } rfl
            (show agent.attempts + 1 < retries by omega) (left - 1)
            (show retries - (agent.attempts + 1) = left - 1 + 1 by omega)
          rw [show retries - (agent.attempts + 1) = left by omega] at next
          exact ⟨next.1, by rw [next.2, Nat.add_assoc, Nat.add_comm 1]⟩
      | returned value =>
        rw [loopOutcome_decisive left (.returned value) _ rfl,
          loopAttempts_decisive left (.returned value) _ rfl]
        exact runAgent_of_ended retries _ events rfl
      | unhandled =>
        rw [loopOutcome_decisive left .unhandled _ rfl, loopAttempts_decisive left .unhandled _ rfl]
        exact runAgent_of_ended retries _ events rfl

/-- How `_run_agent` ends, over every run: it makes attempts until one does not raise a handled
exception, and returns what that one returns or lets its exception through; after `retries`
handled exceptions in a row it returns `-99`. Signals change neither the ending nor the number
of times `HostedEngine` is constructed. -/
theorem runAgent_outcome (retries : Nat) (flag : Bool) (events : List Event) :
    (runAgent retries (start retries flag) events).ended =
        loopOutcome retries (attemptResults events) ∧
      (runAgent retries (start retries flag) events).attempts =
        loopAttempts retries (attemptResults events) := by
  cases retries with
  | zero =>
    rw [loopOutcome_zero, loopAttempts_zero]
    exact runAgent_of_ended 0 _ events rfl
  | succ left =>
    have running := runAgent_of_running (left + 1) (start (left + 1) flag) events
      (by simp [start]) (Nat.succ_pos left)
    simpa only [start, Nat.sub_zero, Nat.zero_add] using running

example : loopOutcome 2 [.handled (.other ""), .handled (.serviceNotUp ""), .returned 0] =
    some (some (-99)) ∧ loopAttempts 2 [.handled (.other ""), .returned 3, .unhandled] = 2 := by
  decide

end HostedEngineHa.AgentLoop
