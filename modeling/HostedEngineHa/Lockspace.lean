import HostedEngineHa.Broker

/-! The whiteboard lockspace with the lock daemon in the loop: the daemon answers each call from
its lease and changes its lease by its own transitions, and the broker's loop decides which calls
it makes. -/
namespace HostedEngineHa.Broker

open Whiteboard

/-- Modelled from the spec: a failure of `add_lockspace` that says nothing about who holds the
lockspace: an errno other than `EEXIST` and `EINVAL`, or an exception without one. -/
def Glitch := {errno : Option Nat // errno ≠ some eexist ∧ errno ≠ some einval}

/-- Modelled from the spec: the daemon's answer to `add_lockspace(LOCKSPACE_NAME, hostId, lease)`
when the lockspace is held with `holder`, if at all. -/
def daemonAnswer (holder : Option Nat) (hostId : Nat) (glitch : Option Glitch) : AddLockspace :=
  match holder with
  | some held => .failed (some (if held = hostId then eexist else einval))
  | none =>
    match glitch with
    | some failure => .failed failure.1
    | none => .added

/-- Modelled from the spec: the daemon's lease after that call; it adds the lockspace when it
holds none and nothing fails. -/
def daemonAdd (holder : Option Nat) (hostId : Nat) (glitch : Option Glitch) : Option Nat :=
  match holder, glitch with
  | none, none => some hostId
  | _, _ => holder

/-- Modelled from the spec: the daemon's answer to `rem_lockspace(LOCKSPACE_NAME, hostId, lease)`:
it removes a lockspace held with `hostId` unless the call fails with `failure`. -/
def daemonRemove (holder : Option Nat) (hostId : Nat) (failure : Option (Option Nat)) :
    Except (Option Nat) Unit :=
  match failure with
  | some errno => .error errno
  | none => if holder = some hostId then .ok () else .error none

/-- Modelled from the spec: the daemon's lease after that call. -/
def daemonRemoveLease (holder : Option Nat) (hostId : Nat) (failure : Option (Option Nat)) :
    Option Nat :=
  match failure with
  | some _ => holder
  | none => if holder = some hostId then none else holder

/-- The daemon's lease before the `k`-th `add_lockspace` call of one acquisition. -/
def leaseBefore (holder : Option Nat) (hostId : Nat) (glitches : Nat → Option Glitch) :
    Nat → Option Nat
  | 0 => holder
  | k + 1 => daemonAdd (leaseBefore holder hostId glitches k) hostId (glitches k)

def acquireOutcome (holder : Option Nat) (hostId : Nat) (glitches : Nat → Option Glitch)
    (attempt : Nat) : AddLockspace :=
  daemonAnswer (leaseBefore holder hostId glitches attempt) hostId (glitches attempt)

structure Host where
  broker : StorageBroker
  holder : Option Nat

/-- A call on the broker of a host, with what the daemon and the system calls do that the
daemon's state does not decide. -/
inductive HostCall where
  | acquireWhiteboardLock (glitches : Nat → Option Glitch)
  | releaseWhiteboardLock (failure : Option (Option Nat))
  | putStats (calls : WriteCalls) (slot : Nat) (data : Bytes)
  | getRawStatsForServiceType (calls : ReadCalls)

theorem daemonAdd_of_ne_added (holder : Option Nat) (hostId : Nat) (glitch : Option Glitch)
    (kept : daemonAnswer holder hostId glitch ≠ .added) : daemonAdd holder hostId glitch = holder := by
  cases holder <;> cases glitch <;> first | rfl | exact absurd rfl kept

theorem daemonAdd_of_holds (holder : Option Nat) (hostId : Nat) (glitch : Option Glitch)
    (holds : (daemonAnswer holder hostId glitch).holds) : daemonAdd holder hostId glitch = some hostId := by
  cases holder with
  | none =>
    cases glitch with
    | none => rfl
    | some failure =>
      simp only [daemonAnswer, AddLockspace.holds, decide_eq_true_eq] at holds
      exact absurd holds failure.2.1
  | some held =>
    by_cases same : held = hostId
    · rw [same]; rfl
    · simp [daemonAnswer, AddLockspace.holds, same, eexist, einval] at holds

theorem leaseBefore_succ (holder : Option Nat) (hostId : Nat) (glitches : Nat → Option Glitch)
    (k : Nat) :
    leaseBefore holder hostId glitches (k + 1) =
      daemonAdd (leaseBefore holder hostId glitches k) hostId (glitches k) := rfl

/-- The daemon's lease after the calls the loop makes: its own once the loop returns, and what it
was before otherwise, since a call that adds the lockspace ends the loop and no other changes it. -/
theorem leaseBefore_lockAnswers (holder : Option Nat) (hostId : Nat) (glitches : Nat → Option Glitch)
    (left attempt : Nat) :
    leaseBefore holder hostId glitches
        (attempt + (lockAnswers (acquireOutcome holder hostId glitches) left attempt).length) =
      match acquireAttempts (acquireOutcome holder hostId glitches) left attempt with
      | .ok () => some hostId
      | .error _ => leaseBefore holder hostId glitches attempt := by
  induction left generalizing attempt with
  | zero => rfl
  | succ left ih =>
    have answer : acquireOutcome holder hostId glitches attempt =
        daemonAnswer (leaseBefore holder hostId glitches attempt) hostId (glitches attempt) := rfl
    rw [lockAnswers, acquireAttempts_succ]
    by_cases retried : (acquireOutcome holder hostId glitches attempt).retries
    · have added : acquireOutcome holder hostId glitches attempt ≠ .added := by
        rintro same; rw [same] at retried; cases retried
      rw [if_pos retried, if_pos retried, List.length_cons, ← Nat.add_assoc, Nat.add_right_comm,
        ih, leaseBefore_succ, daemonAdd_of_ne_added _ _ _ (answer ▸ added)]
    · rw [if_neg retried, if_neg retried, List.length_singleton, leaseBefore_succ]
      by_cases holds : (acquireOutcome holder hostId glitches attempt).holds
      · rw [if_pos holds, daemonAdd_of_holds _ _ _ (answer ▸ holds)]
      · have added : acquireOutcome holder hostId glitches attempt ≠ .added := by
          rintro same; rw [same] at holds; exact holds rfl
        rw [if_neg holds, daemonAdd_of_ne_added _ _ _ (answer ▸ added)]

theorem leaseBefore_held (hostId : Nat) (glitches : Nat → Option Glitch) (k : Nat) :
    leaseBefore (some hostId) hostId glitches k = some hostId := by
  induction k with
  | zero => rfl
  | succ k ih => rw [leaseBefore_succ, ih]; rfl

section Daemon

variable (waitForStorageRetry maxHostIdScan base hostId : Nat)

def HostCall.operation (holder : Option Nat) : HostCall → Operation
  | .acquireWhiteboardLock glitches => .acquireWhiteboardLock (acquireOutcome holder hostId glitches)
  | .releaseWhiteboardLock failure => .releaseWhiteboardLock (daemonRemove holder hostId failure)
  | .putStats calls slot data => .putStats calls slot data
  | .getRawStatsForServiceType calls => .getRawStatsForServiceType calls

/-- The daemon's lease after a call: its transitions on the `add_lockspace` calls the broker's
loop made, or on the `rem_lockspace` call. -/
def HostCall.lease (holder : Option Nat) : HostCall → Option Nat
  | .acquireWhiteboardLock glitches =>
    leaseBefore holder hostId glitches
      (lockAnswers (acquireOutcome holder hostId glitches) waitForStorageRetry 0).length
  | .releaseWhiteboardLock failure => daemonRemoveLease holder hostId failure
  | _ => holder

/-- One call on a host whose broker has host id `hostId`. -/
def hostStep (host : Host) (call : HostCall) : Reply × Host :=
  let step := brokerStep waitForStorageRetry maxHostIdScan base host.broker
    (call.operation hostId host.holder)
  (step.1, ⟨step.2, call.lease waitForStorageRetry hostId host.holder⟩)

def runHost (host : Host) (calls : List HostCall) : Host :=
  calls.foldl (fun host call => (hostStep waitForStorageRetry maxHostIdScan base hostId host call).2)
    host

/-- The broker's flag says what the daemon holds: up exactly when the lockspace is held with the
broker's host id. -/
def Mirrors (host : Host) : Prop := host.broker.sanlockAcquired = true ↔ host.holder = some hostId

theorem hostStep_acquire (host : Host) (glitches : Nat → Option Glitch) :
    hostStep waitForStorageRetry maxHostIdScan base hostId host (.acquireWhiteboardLock glitches) =
      match acquireAttempts (acquireOutcome host.holder hostId glitches) waitForStorageRetry 0 with
      | .ok () => (.returned, ⟨{ host.broker with sanlockAcquired := true }, some hostId⟩)
      | .error error => (.lockError error, host) := by
  have lease := leaseBefore_lockAnswers host.holder hostId glitches waitForStorageRetry 0
  rw [Nat.zero_add] at lease
  simp only [hostStep, HostCall.operation, HostCall.lease, brokerStep, lease]
  split <;> simp_all [leaseBefore]

theorem mirrors_hostStep (host : Host) (call : HostCall) (mirrors : Mirrors hostId host) :
    Mirrors hostId (hostStep waitForStorageRetry maxHostIdScan base hostId host call).2 := by
  cases call with
  | acquireWhiteboardLock glitches =>
    rw [hostStep_acquire]
    split
    · simp [Mirrors]
    · exact mirrors
  | releaseWhiteboardLock failure =>
    unfold Mirrors at mirrors ⊢
    simp only [hostStep, HostCall.operation, HostCall.lease, brokerStep, daemonRemove,
      daemonRemoveLease]
    rcases failure with _ | errno
    · by_cases held : host.holder = some hostId
      · simp [held]
      · simpa [held] using mirrors
    · exact mirrors
  | putStats calls slot data =>
    simp only [Mirrors, hostStep, HostCall.lease, sanlockAcquired_brokerStep]
    simpa [HostCall.operation, Operation.acquiresLock, Operation.releasesLock] using mirrors
  | getRawStatsForServiceType calls =>
    simp only [Mirrors, hostStep, HostCall.lease, sanlockAcquired_brokerStep]
    simpa [HostCall.operation, Operation.acquiresLock, Operation.releasesLock] using mirrors

theorem runHost_append_singleton (host : Host) (calls : List HostCall) (call : HostCall) :
    runHost waitForStorageRetry maxHostIdScan base hostId host (calls ++ [call]) =
      (hostStep waitForStorageRetry maxHostIdScan base hostId
        (runHost waitForStorageRetry maxHostIdScan base hostId host calls) call).2 := by
  rw [runHost, List.foldl_append]
  rfl

/-- Over every run of calls on a broker just constructed, with the daemon holding nothing, the
flag `_sanlock_acquired` is up exactly when the daemon holds the lockspace with the broker's
host id. -/
theorem sanlockAcquired_mirrors_daemon (storage : Bytes) (calls : List HostCall) :
    Mirrors hostId (runHost waitForStorageRetry maxHostIdScan base hostId ⟨construct storage, none⟩
      calls) := by
  induction calls using List.reverseRecOn with
  | nil => simp [Mirrors, runHost, construct]
  | append_singleton calls call ih =>
    rw [runHost_append_singleton]
    exact mirrors_hostStep waitForStorageRetry maxHostIdScan base hostId _ call ih

/-- Acquisition is idempotent: right after `acquire_whiteboard_lock` returned, calling it again
makes one `add_lockspace` call, answered `EEXIST` by the daemon from the lease the first call
left, sleeps no time, returns, and leaves the broker and the daemon as they were. -/
theorem acquireWhiteboardLock_idempotent (host : Host) (first second : Nat → Option Glitch)
    (returned : (hostStep waitForStorageRetry maxHostIdScan base hostId host
      (.acquireWhiteboardLock first)).1 = .returned) :
    hostStep waitForStorageRetry maxHostIdScan base hostId
        (hostStep waitForStorageRetry maxHostIdScan base hostId host
          (.acquireWhiteboardLock first)).2 (.acquireWhiteboardLock second) =
      (.returned, (hostStep waitForStorageRetry maxHostIdScan base hostId host
        (.acquireWhiteboardLock first)).2) ∧
    lockAnswers (acquireOutcome (hostStep waitForStorageRetry maxHostIdScan base hostId host
        (.acquireWhiteboardLock first)).2.holder hostId second) waitForStorageRetry 0 =
      [.failed (some eexist)] ∧
    lockEvents (acquireOutcome (hostStep waitForStorageRetry maxHostIdScan base hostId host
        (.acquireWhiteboardLock first)).2.holder hostId second) waitForStorageRetry 0 =
      [.addLockspace] := by
  have acquired : acquireAttempts (acquireOutcome host.holder hostId first) waitForStorageRetry 0 =
      .ok () := by
    rw [hostStep_acquire] at returned
    split at returned
    · assumption
    · cases returned
  obtain ⟨left, rfl⟩ : ∃ left, waitForStorageRetry = left + 1 := by
    cases waitForStorageRetry with
    | zero => cases acquired
    | succ left => exact ⟨left, rfl⟩
  have firstStep : hostStep (left + 1) maxHostIdScan base hostId host (.acquireWhiteboardLock first) =
      (.returned, ⟨{ host.broker with sanlockAcquired := true }, some hostId⟩) := by
    rw [hostStep_acquire, acquired]
  rw [firstStep]
  have existing : acquireOutcome (some hostId) hostId second 0 = .failed (some eexist) := by
    rw [acquireOutcome, leaseBefore_held, daemonAnswer, if_pos rfl]
  have kept : ¬ (acquireOutcome (some hostId) hostId second 0).retries := by
    rw [existing]; decide
  have answers : lockAnswers (acquireOutcome (some hostId) hostId second) (left + 1) 0 =
      [.failed (some eexist)] := by
    rw [lockAnswers, if_neg kept, existing]
  refine ⟨?_, answers, ?_⟩
  · rw [hostStep_acquire, acquireAttempts_succ, if_neg kept, if_pos (by rw [existing]; rfl)]
  · rw [lockEvents_eq_flatMap, answers]
    rfl

end Daemon

/-- The first acquisition meets a transient failure and then takes the lease on its second
call; the second acquisition, whose daemon would fail with `EIO` on every call, gets `EEXIST`. -/
def glitchOnce (k : Nat) : Option Glitch := if k = 0 then some ⟨none, by decide⟩ else none

def eioAlways (_ : Nat) : Option Glitch := some ⟨some 5, by decide⟩

theorem acquireWhiteboardLock_idempotent_after_glitch :
    (hostStep 3 0 0 1 ⟨construct [], none⟩ (.acquireWhiteboardLock glitchOnce)).1 = .returned ∧
      hostStep 3 0 0 1 (hostStep 3 0 0 1 ⟨construct [], none⟩ (.acquireWhiteboardLock glitchOnce)).2
          (.acquireWhiteboardLock eioAlways) =
        (.returned, (hostStep 3 0 0 1 ⟨construct [], none⟩ (.acquireWhiteboardLock glitchOnce)).2) ∧
      lockAnswers (acquireOutcome (hostStep 3 0 0 1 ⟨construct [], none⟩
          (.acquireWhiteboardLock glitchOnce)).2.holder 1 eioAlways) 3 0 =
        [.failed (some eexist)] ∧
      lockEvents (acquireOutcome (hostStep 3 0 0 1 ⟨construct [], none⟩
          (.acquireWhiteboardLock glitchOnce)).2.holder 1 eioAlways) 3 0 = [.addLockspace] :=
  ⟨rfl, acquireWhiteboardLock_idempotent 3 0 0 1 ⟨construct [], none⟩ glitchOnce eioAlways rfl⟩

end HostedEngineHa.Broker
