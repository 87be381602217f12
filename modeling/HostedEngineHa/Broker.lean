import HostedEngineHa.Whiteboard
import Mathlib.Data.Nat.Find

/-! `StorageBroker` as a state machine over its whiteboard operations: the flag
`_sanlock_acquired` of the lock operations, and the metadata file `put_stats` writes. -/
namespace HostedEngineHa.Broker

open Whiteboard

def eexist : Nat := 17

def einval : Nat := 22

/-- What one `sanlock.add_lockspace` call does: return, or raise a `SanlockException` with an
`errno` attribute or without one. -/
inductive AddLockspace where
  | added
  | failed (errno : Option Nat)
  deriving DecidableEq, Repr

inductive LockError where
  | sanlockException (errno : Option Nat)
  | sanlockInitializationError (message : String)
  deriving DecidableEq, Repr

/-- The `for attempt in range(WAIT_FOR_STORAGE_RETRY)` loop of `acquire_whiteboard_lock`, from
attempt `attempt` with `left` attempts left; `outcome n` is the lock daemon's answer to the
`n`-th call. `EEXIST` means the host already holds the lockspace, `EINVAL` is re-raised, and
every other failure waits `WAIT_FOR_STORAGE_DELAY` and tries again. -/
def acquireAttempts (outcome : Nat → AddLockspace) : Nat → Nat → Except LockError Unit
  | 0, _ => .error (.sanlockInitializationError
      "Failed to initialize sanlock, the number of errors has exceeded the limit")
  | left + 1, attempt =>
    match outcome attempt with
    | .added => .ok ()
    | .failed (some errno) =>
      if errno = eexist then .ok ()
      else if errno = einval then .error (.sanlockException (some errno))
      else acquireAttempts outcome left (attempt + 1)
    | .failed none => acquireAttempts outcome left (attempt + 1)

def AddLockspace.holds : AddLockspace → Bool
  | .added => true
  | .failed errno => errno = some eexist

def AddLockspace.retries : AddLockspace → Bool
  | .added => false
  | .failed errno => errno ≠ some eexist ∧ errno ≠ some einval

theorem exists_first_from (P Q : Nat → Prop) (left attempt : Nat) :
    (∃ k < left + 1, P (attempt + k) ∧ ∀ m < k, Q (attempt + m)) ↔
      P attempt ∨ Q attempt ∧ ∃ k < left, P (attempt + 1 + k) ∧ ∀ m < k, Q (attempt + 1 + m) := by
  constructor
  · rintro ⟨k, bound, first, before⟩
    cases k with
    | zero => exact .inl first
    | succ k =>
      refine .inr ⟨before 0 (by omega), k, by omega, ?_, fun m lt => ?_⟩
      · rwa [show attempt + 1 + k = attempt + (k + 1) by omega]
      · rw [show attempt + 1 + m = attempt + (m + 1) by omega]; exact before (m + 1) (by omega)
  · rintro (first | ⟨zero, k, bound, first, before⟩)
    · exact ⟨0, by omega, first, fun m lt => absurd lt (Nat.not_lt_zero m)⟩
    · refine ⟨k + 1, by omega, by rwa [← show attempt + 1 + k = attempt + (k + 1) by omega],
        fun m lt => ?_⟩
      cases m with
      | zero => exact zero
      | succ m => rw [show attempt + (m + 1) = attempt + 1 + m by omega]; exact before m (by omega)

/-- The lock loop succeeds exactly when some attempt it makes gets an answer that holds the
lockspace and every attempt before it gets one it retries on. -/
theorem acquireAttempts_eq_ok_iff (outcome : Nat → AddLockspace) (left attempt : Nat) :
    acquireAttempts outcome left attempt = .ok () ↔
      ∃ k < left, (outcome (attempt + k)).holds ∧ ∀ m < k, (outcome (attempt + m)).retries := by
  induction left generalizing attempt with
  | zero => simp [acquireAttempts]
  | succ left ih =>
    refine Iff.trans ?_ (exists_first_from (fun n => (outcome n).holds = true)
      (fun n => (outcome n).retries = true) left attempt).symm
    beta_reduce
    rw [← ih (attempt + 1), acquireAttempts]
    cases answer : outcome attempt with
    | added => simp [AddLockspace.holds]
    | failed errno =>
      rcases errno with _ | errno
      · simp [AddLockspace.holds, AddLockspace.retries]
      · by_cases existing : errno = eexist
        · simp [AddLockspace.holds, existing]
        · by_cases invalid : errno = einval
          · simp [AddLockspace.holds, AddLockspace.retries, existing, invalid]
          · simp [AddLockspace.holds, AddLockspace.retries, existing, invalid]

/-- The steps of `acquire_whiteboard_lock` that take the lock daemon's or the clock's time: a
call of `sanlock.add_lockspace`, and a sleep of `WAIT_FOR_STORAGE_DELAY`. -/
inductive LockEvent where
  | addLockspace
  | sleep
  deriving DecidableEq, Repr

/-- The calls and sleeps of the loop of `acquire_whiteboard_lock` from attempt `attempt` with
`left` attempts left: every attempt calls `add_lockspace`, and after an answer it retries on it
sleeps, the last attempt included. -/
def lockEvents (outcome : Nat → AddLockspace) : Nat → Nat → List LockEvent
  | 0, _ => []
  | left + 1, attempt =>
    .addLockspace :: match outcome attempt with
      | .added => []
      | .failed (some errno) =>
        if errno = eexist then []
        else if errno = einval then []
        else .sleep :: lockEvents outcome left (attempt + 1)
      | .failed none => .sleep :: lockEvents outcome left (attempt + 1)

theorem lockEvents_succ (outcome : Nat → AddLockspace) (left attempt : Nat) :
    lockEvents outcome (left + 1) attempt = .addLockspace ::
      if (outcome attempt).retries then .sleep :: lockEvents outcome left (attempt + 1) else [] := by
  rw [lockEvents]
  rcases outcome attempt with _ | _ | errno
  · rfl
  · rfl
  · by_cases existing : errno = eexist
    · simp [existing, AddLockspace.retries]
    · by_cases invalid : errno = einval <;> simp [existing, invalid, AddLockspace.retries]

theorem acquireAttempts_succ (outcome : Nat → AddLockspace) (left attempt : Nat) :
    acquireAttempts outcome (left + 1) attempt =
      if (outcome attempt).retries then acquireAttempts outcome left (attempt + 1)
      else if (outcome attempt).holds then .ok ()
      else .error (.sanlockException (some einval)) := by
  rw [acquireAttempts]
  rcases outcome attempt with _ | _ | errno
  · rfl
  · rfl
  · by_cases existing : errno = eexist
    · simp [existing, AddLockspace.retries, AddLockspace.holds]
    · by_cases invalid : errno = einval <;>
        simp [existing, invalid, AddLockspace.retries, AddLockspace.holds]

theorem holds_eq_false_of_retries (answer : AddLockspace) (retried : answer.retries) :
    answer.holds = false := by
  cases answer with
  | added => cases retried
  | failed errno =>
    simp only [AddLockspace.retries, decide_eq_true_eq] at retried
    simp [AddLockspace.holds, retried.1]

/-- The answers to the `add_lockspace` calls the loop makes, in order. -/
def lockAnswers (outcome : Nat → AddLockspace) : Nat → Nat → List AddLockspace
  | 0, _ => []
  | left + 1, attempt =>
    outcome attempt :: if (outcome attempt).retries then lockAnswers outcome left (attempt + 1) else []

theorem lockEvents_eq_flatMap (outcome : Nat → AddLockspace) (left attempt : Nat) :
    lockEvents outcome left attempt = (lockAnswers outcome left attempt).flatMap fun answer =>
      .addLockspace :: if answer.retries then [.sleep] else [] := by
  induction left generalizing attempt with
  | zero => rfl
  | succ left ih =>
    rw [lockEvents_succ, lockAnswers]
    by_cases retried : (outcome attempt).retries <;> simp [retried, ih]

/-- The loop ends as the last answer it got says, so it stops at the call its events end with. -/
theorem acquireAttempts_eq_lastAnswer (outcome : Nat → AddLockspace) (left attempt : Nat) :
    acquireAttempts outcome left attempt =
      match (lockAnswers outcome left attempt).getLast? with
      | some answer =>
        if answer.holds then .ok ()
        else if answer.retries then .error (.sanlockInitializationError
          "Failed to initialize sanlock, the number of errors has exceeded the limit")
        else .error (.sanlockException (some einval))
      | none => .error (.sanlockInitializationError
          "Failed to initialize sanlock, the number of errors has exceeded the limit") := by
  induction left generalizing attempt with
  | zero => rfl
  | succ left ih =>
    rw [acquireAttempts_succ, lockAnswers]
    by_cases retried : (outcome attempt).retries
    · rw [if_pos retried, if_pos retried, ih]
      cases left with
      | zero => simp [lockAnswers, retried, holds_eq_false_of_retries _ retried]
      | succ left => rw [lockAnswers, List.getLast?_cons_cons]
    · simp [retried]

theorem length_lockAnswers_le (outcome : Nat → AddLockspace) (left attempt : Nat) :
    (lockAnswers outcome left attempt).length ≤ left := by
  induction left generalizing attempt with
  | zero => exact le_rfl
  | succ left ih =>
    rw [lockAnswers]
    split
    · exact Nat.succ_le_succ (ih _)
    · exact Nat.succ_le_succ (Nat.zero_le _)

theorem retries_of_mem_dropLast_lockAnswers (outcome : Nat → AddLockspace) (left attempt : Nat) :
    ∀ answer ∈ (lockAnswers outcome left attempt).dropLast, answer.retries := by
  induction left generalizing attempt with
  | zero => simp [lockAnswers]
  | succ left ih =>
    intro answer member
    rw [lockAnswers] at member
    by_cases retried : (outcome attempt).retries
    · rw [if_pos retried] at member
      cases rest : lockAnswers outcome left (attempt + 1) with
      | nil => simp [rest] at member
      | cons next later =>
        rw [rest, List.dropLast_cons₂] at member
        rcases List.mem_cons.mp member with rfl | inner
        · exact retried
        · exact ih (attempt + 1) answer (by rw [rest]; exact inner)
    · simp [retried] at member

theorem count_addLockspace_le (outcome : Nat → AddLockspace) (left attempt : Nat) :
    (lockEvents outcome left attempt).count .addLockspace ≤ left := by
  induction left generalizing attempt with
  | zero => simp [lockEvents]
  | succ left ih =>
    rw [lockEvents_succ]
    split
    · simp only [List.count_cons_self, List.count_cons, reduceCtorEq, if_false]
      have := ih (attempt + 1)
      simp only [beq_iff_eq, reduceCtorEq, ite_false, Nat.add_zero]
      omega
    · simp

theorem lockEvents_of_added (outcome : Nat → AddLockspace) (k left attempt : Nat)
    (retried : ∀ m < k, (outcome (attempt + m)).retries) (added : outcome (attempt + k) = .added)
    (within : k < left) :
    lockEvents outcome left attempt =
      (List.replicate k [.addLockspace, .sleep]).flatten ++ [.addLockspace] := by
  induction k generalizing left attempt with
  | zero =>
    obtain ⟨left, rfl⟩ : ∃ l, left = l + 1 := ⟨left - 1, by omega⟩
    simp only [Nat.add_zero] at added
    simp [lockEvents_succ, added, AddLockspace.retries]
  | succ k ih =>
    obtain ⟨left, rfl⟩ : ∃ l, left = l + 1 := ⟨left - 1, by omega⟩
    rw [lockEvents_succ, if_pos (by simpa using retried 0 (by omega)),
      ih left (attempt + 1) (fun m lt => by
        simpa [Nat.add_assoc, Nat.add_comm 1] using retried (m + 1) (by omega))
      (by simpa [Nat.add_assoc, Nat.add_comm 1] using added) (by omega)]
    simp [List.replicate_succ]

theorem acquireAttempts_of_einval (outcome : Nat → AddLockspace) (k left attempt : Nat)
    (retried : ∀ m < k, (outcome (attempt + m)).retries)
    (invalid : outcome (attempt + k) = .failed (some einval)) (within : k < left) :
    acquireAttempts outcome left attempt = .error (.sanlockException (some einval)) := by
  induction k generalizing left attempt with
  | zero =>
    obtain ⟨left, rfl⟩ : ∃ l, left = l + 1 := ⟨left - 1, by omega⟩
    simp only [Nat.add_zero] at invalid
    simp [acquireAttempts_succ, invalid, AddLockspace.retries, AddLockspace.holds, eexist, einval]
  | succ k ih =>
    obtain ⟨left, rfl⟩ : ∃ l, left = l + 1 := ⟨left - 1, by omega⟩
    rw [acquireAttempts_succ, if_pos (by simpa using retried 0 (by omega))]
    exact ih left (attempt + 1) (fun m lt => by
        simpa [Nat.add_assoc, Nat.add_comm 1] using retried (m + 1) (by omega))
      (by simpa [Nat.add_assoc, Nat.add_comm 1] using invalid) (by omega)

theorem acquireAttempts_of_retries (outcome : Nat → AddLockspace) (left attempt : Nat)
    (retried : ∀ m < left, (outcome (attempt + m)).retries) :
    acquireAttempts outcome left attempt = .error (.sanlockInitializationError
      "Failed to initialize sanlock, the number of errors has exceeded the limit") := by
  induction left generalizing attempt with
  | zero => rfl
  | succ left ih =>
    rw [acquireAttempts_succ, if_pos (by simpa using retried 0 (by omega))]
    exact ih (attempt + 1) fun m lt => by
      simpa [Nat.add_assoc, Nat.add_comm 1] using retried (m + 1) (by omega)

theorem exists_holds_before_einval_iff (outcome : Nat → AddLockspace) (left : Nat) :
    (∃ k < left, (outcome k).holds ∧ ∀ m < k, (outcome m).retries) ↔
      ∃ k < left, (outcome k).holds ∧ ∀ m < k, outcome m ≠ .failed (some einval) := by
  constructor
  · rintro ⟨k, below, holds, retried⟩
    refine ⟨k, below, holds, fun m lt same => ?_⟩
    have := retried m lt
    simp [same, AddLockspace.retries] at this
  · rintro ⟨k, below, holds, noEinval⟩
    have found : ∃ j, (outcome j).holds := ⟨k, holds⟩
    have first := Nat.find_min' found holds
    refine ⟨Nat.find found, by omega, Nat.find_spec found, fun m lt => ?_⟩
    have notHolds := Nat.find_min found lt
    have notInvalid := noEinval m (by omega)
    revert notHolds notInvalid
    cases outcome m with
    | added => simp [AddLockspace.holds]
    | failed errno => simp [AddLockspace.holds, AddLockspace.retries]; tauto

/-- The state the whiteboard operations of `StorageBroker` read and write: the lockspace flag and
the metadata service's file. -/
structure StorageBroker where
  sanlockAcquired : Bool
  storage : Bytes

def construct (storage : Bytes) : StorageBroker := ⟨false, storage⟩

/-- One call of a broker operation, with the behaviour of everything it calls: the lock
daemon's answers to `add_lockspace`, whether `rem_lockspace` returns or raises (with its
`errno`), and the system calls of the whiteboard requests. -/
inductive Operation where
  | acquireWhiteboardLock (outcome : Nat → AddLockspace)
  | releaseWhiteboardLock (removal : Except (Option Nat) Unit)
  | putStats (calls : WriteCalls) (hostId : Nat) (data : Bytes)
  | getRawStatsForServiceType (calls : ReadCalls)

inductive Reply where
  | returned
  | stats (table : List (Nat × Bytes))
  | lockError (error : LockError)
  | requestError (error : RequestError)

section Run

variable (waitForStorageRetry maxHostIdScan base : Nat)

/-- One operation on the broker: its reply, and the broker after it. An operation that raises
leaves the broker as it was. -/
def brokerStep (broker : StorageBroker) : Operation → Reply × StorageBroker
  | .acquireWhiteboardLock outcome =>
    match acquireAttempts outcome waitForStorageRetry 0 with
    | .ok () => (.returned, { broker with sanlockAcquired := true })
    | .error error => (.lockError error, broker)
  | .releaseWhiteboardLock removal =>
    match removal with
    | .ok () => (.returned, { broker with sanlockAcquired := false })
    | .error errno => (.lockError (.sanlockException errno), broker)
  | .putStats calls hostId data =>
    match putStats calls base hostId data broker.storage with
    | .ok storage => (.returned, { broker with storage })
    | .error error => (.requestError error, broker)
  | .getRawStatsForServiceType calls =>
    match getRawStatsForServiceType maxHostIdScan calls base broker.storage with
    | .ok table => (.stats table, broker)
    | .error error => (.requestError error, broker)

def run (broker : StorageBroker) (operations : List Operation) : StorageBroker :=
  operations.foldl (fun broker operation =>
    (brokerStep waitForStorageRetry maxHostIdScan base broker operation).2) broker

theorem run_append_singleton (broker : StorageBroker) (operations : List Operation)
    (operation : Operation) :
    run waitForStorageRetry maxHostIdScan base broker (operations ++ [operation]) =
      (brokerStep waitForStorageRetry maxHostIdScan base
        (run waitForStorageRetry maxHostIdScan base broker operations) operation).2 := by
  simp [run, List.foldl_append]

/-- `acquire_whiteboard_lock` on any sequence of answers of `add_lockspace`: it calls
`add_lockspace` at most `WAIT_FOR_STORAGE_RETRY` times; it returns and raises the flag exactly
when, within those attempts, a success or `EEXIST` comes before any `EINVAL`; an `EINVAL` first
is re-raised, and attempts that all fail otherwise end in `SanlockInitializationError`; a raise
leaves the broker as it was; and `k` retried failures followed by a success make `k + 1` calls
with one `WAIT_FOR_STORAGE_DELAY` sleep between each two. -/
theorem acquireWhiteboardLock_outcomes (broker : StorageBroker) (outcome : Nat → AddLockspace) :
    (lockEvents outcome waitForStorageRetry 0).count .addLockspace ≤ waitForStorageRetry ∧
      (((brokerStep waitForStorageRetry maxHostIdScan base broker
            (.acquireWhiteboardLock outcome)).1 = .returned ∧
          (brokerStep waitForStorageRetry maxHostIdScan base broker
            (.acquireWhiteboardLock outcome)).2.sanlockAcquired = true) ↔
        ∃ k < waitForStorageRetry, (outcome k).holds ∧ ∀ m < k, outcome m ≠ .failed (some einval)) ∧
      ((∃ k < waitForStorageRetry, outcome k = .failed (some einval) ∧
          ∀ m < k, (outcome m).retries) →
        (brokerStep waitForStorageRetry maxHostIdScan base broker
          (.acquireWhiteboardLock outcome)).1 = .lockError (.sanlockException (some einval))) ∧
      ((∀ k < waitForStorageRetry, (outcome k).retries) →
        (brokerStep waitForStorageRetry maxHostIdScan base broker
          (.acquireWhiteboardLock outcome)).1 = .lockError (.sanlockInitializationError
            "Failed to initialize sanlock, the number of errors has exceeded the limit")) ∧
      ((brokerStep waitForStorageRetry maxHostIdScan base broker
          (.acquireWhiteboardLock outcome)).1 ≠ .returned →
        (brokerStep waitForStorageRetry maxHostIdScan base broker
          (.acquireWhiteboardLock outcome)).2 = broker) ∧
      ∀ k < waitForStorageRetry, (∀ m < k, (outcome m).retries) → outcome k = .added →
        lockEvents outcome waitForStorageRetry 0 =
          (List.replicate k [.addLockspace, .sleep]).flatten ++ [.addLockspace] := by
  have retriedFrom : ∀ k, (∀ m < k, (outcome m).retries) → ∀ m < k, (outcome (0 + m)).retries :=
    fun k retried m lt => by simpa using retried m lt
  refine ⟨count_addLockspace_le outcome _ 0, ?_, fun ⟨k, below, invalid, retried⟩ => ?_,
    fun retried => ?_, fun raised => ?_, fun k below retried added =>
      lockEvents_of_added outcome k _ 0 (retriedFrom k retried) (by simpa using added) below⟩
  · have succeeds := acquireAttempts_eq_ok_iff outcome waitForStorageRetry 0
    simp only [Nat.zero_add] at succeeds
    rw [← exists_holds_before_einval_iff, ← succeeds]
    simp only [brokerStep]
    split <;> simp [*]
  · simp only [brokerStep, acquireAttempts_of_einval outcome k _ 0 (retriedFrom k retried)
      (by simpa using invalid) below]
  · simp only [brokerStep, acquireAttempts_of_retries outcome _ 0 (retriedFrom _ retried)]
  · simp only [brokerStep] at raised ⊢
    split at raised
    · exact absurd rfl raised
    · rfl

def Operation.acquiresLock : Operation → Bool
  | .acquireWhiteboardLock outcome =>
    match acquireAttempts outcome waitForStorageRetry 0 with
    | .ok () => true
    | .error _ => false
  | _ => false

def Operation.releasesLock : Operation → Bool
  | .releaseWhiteboardLock (.ok ()) => true
  | _ => false

theorem sanlockAcquired_brokerStep (broker : StorageBroker) (operation : Operation) :
    (brokerStep waitForStorageRetry maxHostIdScan base broker operation).2.sanlockAcquired =
      (operation.acquiresLock waitForStorageRetry ||
        (!operation.releasesLock && broker.sanlockAcquired)) := by
  cases operation with
  | acquireWhiteboardLock outcome =>
    simp only [brokerStep, Operation.acquiresLock, Operation.releasesLock]
    split <;> simp
  | releaseWhiteboardLock removal =>
    rcases removal with errno | ⟨⟩ <;> simp [brokerStep, Operation.acquiresLock, Operation.releasesLock]
  | putStats calls hostId data =>
    simp only [brokerStep, Operation.acquiresLock, Operation.releasesLock]
    split <;> simp
  | getRawStatsForServiceType calls =>
    simp only [brokerStep, Operation.acquiresLock, Operation.releasesLock]
    split <;> simp

/-- The spec's lockspace state after a run: some acquisition returned, and no release
returned after it. -/
def LockHeld (operations : List Operation) : Prop :=
  ∃ before acquisition after, operations = before ++ acquisition :: after ∧
    acquisition.acquiresLock waitForStorageRetry = true ∧
    ∀ later ∈ after, later.releasesLock = false

theorem lockHeld_nil : ¬ LockHeld waitForStorageRetry [] := by
  rintro ⟨before, acquisition, after, split, -⟩
  simp at split

theorem lockHeld_append_singleton (operations : List Operation) (operation : Operation) :
    LockHeld waitForStorageRetry (operations ++ [operation]) ↔
      operation.acquiresLock waitForStorageRetry = true ∨
        operation.releasesLock = false ∧ LockHeld waitForStorageRetry operations := by
  constructor
  · rintro ⟨before, acquisition, after, split, acquired, kept⟩
    rcases List.eq_nil_or_concat after with rfl | ⟨after, last, rfl⟩
    · obtain ⟨-, same⟩ := List.append_inj' split rfl
      rw [List.singleton_inj.mp same]
      exact .inl acquired
    · rw [List.concat_eq_append, ← List.cons_append, ← List.append_assoc] at split
      rw [List.concat_eq_append] at kept
      obtain ⟨rfl, same⟩ := List.append_inj' split rfl
      rw [List.singleton_inj.mp same]
      exact .inr ⟨kept _ (by simp), before, acquisition, after, rfl, acquired,
        fun later member => kept later (by simp [member])⟩
  · rintro (acquired | ⟨kept, before, acquisition, after, rfl, acquired, keptAfter⟩)
    · exact ⟨operations, operation, [], rfl, acquired, by simp⟩
    · refine ⟨before, acquisition, after ++ [operation], by simp, acquired, fun later member => ?_⟩
      rcases List.mem_append.mp member with earlier | last
      · exact keptAfter later earlier
      · rw [List.mem_singleton.mp last]; exact kept

theorem sanlockAcquired_run_iff (storage : Bytes) (operations : List Operation) :
    (run waitForStorageRetry maxHostIdScan base (construct storage) operations).sanlockAcquired =
        true ↔ LockHeld waitForStorageRetry operations := by
  induction operations using List.reverseRecOn with
  | nil => simp [run, construct, lockHeld_nil]
  | append_singleton operations operation ih =>
    rw [run_append_singleton, sanlockAcquired_brokerStep, lockHeld_append_singleton, ← ih]
    cases operation.acquiresLock waitForStorageRetry <;> cases operation.releasesLock <;> simp

/-- `put_stats` neither reads nor writes the lockspace flag: its reply and its effect on the
broker are the same whichever way the flag stands. -/
theorem brokerStep_putStats_flag (broker : StorageBroker) (calls : WriteCalls) (hostId : Nat)
    (data : Bytes) (flag : Bool) :
    brokerStep waitForStorageRetry maxHostIdScan base { broker with sanlockAcquired := flag }
        (.putStats calls hostId data) =
      ((brokerStep waitForStorageRetry maxHostIdScan base broker (.putStats calls hostId data)).1,
        { (brokerStep waitForStorageRetry maxHostIdScan base broker
            (.putStats calls hostId data)).2 with sanlockAcquired := flag }) := by
  simp only [brokerStep]
  split <;> rfl

/-- What the broker guarantees about the lockspace and its writes, over every run from
construction: the flag `_sanlock_acquired` is up exactly when some acquisition returned and no
release returned after it, and `put_stats` behaves the same whichever way the flag stands, so
nothing in the broker orders its writes after an acquisition. -/
theorem putStats_ignores_sanlockAcquired (storage : Bytes) (operations : List Operation) :
    ((run waitForStorageRetry maxHostIdScan base (construct storage) operations).sanlockAcquired =
        true ↔ LockHeld waitForStorageRetry operations) ∧
      ∀ (broker : StorageBroker) (calls : WriteCalls) (hostId : Nat) (data : Bytes) (flag : Bool),
        brokerStep waitForStorageRetry maxHostIdScan base { broker with sanlockAcquired := flag }
            (.putStats calls hostId data) =
          ((brokerStep waitForStorageRetry maxHostIdScan base broker (.putStats calls hostId data)).1,
            { (brokerStep waitForStorageRetry maxHostIdScan base broker
                (.putStats calls hostId data)).2 with sanlockAcquired := flag }) :=
  ⟨sanlockAcquired_run_iff waitForStorageRetry maxHostIdScan base storage operations,
    brokerStep_putStats_flag waitForStorageRetry maxHostIdScan base⟩

end Run

/-- Right after construction, with the flag down, a `put_stats` call that succeeds changes the
metadata file. -/
theorem putStats_writes_without_lockspace :
    (construct []).sanlockAcquired = false ∧
      (brokerStep 0 0 0 (construct []) (.putStats fullWrite 0 [1])).2.storage ≠
        (construct []).storage := by
  refine ⟨rfl, fun same => ?_⟩
  have written := congrArg List.length same
  simp only [brokerStep, construct, putStats_fullWrite 0 0 [1] [] (by decide), length_writeAt,
    length_ljust, List.length_nil, List.length_singleton, hostSegmentBytes] at written
  exact absurd written (by decide)

end HostedEngineHa.Broker
