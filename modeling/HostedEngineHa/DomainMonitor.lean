import Mathlib.Data.Nat.Defs

/-! `StorageBroker.start_domain_monitor` and `stop_domain_monitor` over VDSM's replies. The
wait loop runs on fuel; `MAX_DOMAIN_MONITOR_WAIT_SECS / 5 + 1` rounds are enough. -/
namespace HostedEngineHa.Broker

/-- `StorageBroker.DomainMonitorStatus`. -/
inductive DomainMonitorStatus where
  | none
  | pending
  | acquired
  deriving DecidableEq, Repr

/-- What `getStorageRepoStats(domains=[sd_uuid])` says of the domain: nothing, or its entry's
`acquired` flag; or a `ServerError` with its text. -/
abbrev RepoStats := Except String (Option Bool)

/-- `_get_domain_monitor_status()`: `NONE` for a domain the stats leave out, `ACQUIRED` or
`PENDING` by its `acquired` flag; a `ServerError` propagates. -/
def getDomainMonitorStatus (repoStats : RepoStats) : Except String DomainMonitorStatus :=
  repoStats.map fun entry =>
    match entry with
    | none => .none
    | some true => .acquired
    | some false => .pending

/-- How `start_domain_monitor` fails: a `ServerError`, or the `Exception` after the wait. -/
inductive MonitorError where
  | serverError (message : String)
  | timeout (message : String)
  deriving DecidableEq, Repr

/-- A call of `start_domain_monitor`: the `getStorageRepoStats` calls it made, whether it called
`startMonitoringDomain`, the seconds it slept, and how it ended. -/
structure MonitorRun where
  statusCalls : Nat
  started : Bool
  slept : Nat
  result : Except MonitorError Unit
  deriving Repr

/-- Where the wait loop of `start_domain_monitor` stops: the status calls made by then, the
seconds `waited`, which are also the seconds slept, since each round adds 5 to `waited` and
sleeps 5, and the status the loop exits with, or the `ServerError` of a status call. -/
structure WaitEnd where
  calls : Nat
  waited : Nat
  status : Except String DomainMonitorStatus
  deriving Repr

section StartDomainMonitor

-- The replies to successive `getStorageRepoStats` calls, counted from 0, and
-- `MAX_DOMAIN_MONITOR_WAIT_SECS`.
variable (replies : Nat → RepoStats) (maxWait : Nat)

/-- The wait loop from call number `calls` on, with `waited` seconds counted and the last status
read. -/
def waitForAcquired : Nat → Nat → Nat → DomainMonitorStatus → WaitEnd
  | 0, calls, waited, status => ⟨calls, waited, .ok status⟩
  | fuel + 1, calls, waited, status =>
    if status ≠ .acquired ∧ waited ≤ maxWait then
      match getDomainMonitorStatus (replies calls) with
      | .error message => ⟨calls + 1, waited + 5, .error message⟩
      | .ok next => waitForAcquired fuel (calls + 1) (waited + 5) next
    else ⟨calls, waited, .ok status⟩

/-- The end of `start_domain_monitor`, after the status read before the loop. -/
def finishStart (sdUuid : String) (hostId : Nat) (started : Bool) (calls : Nat)
    (status : DomainMonitorStatus) : MonitorRun :=
  match waitForAcquired replies maxWait (maxWait / 5 + 1) calls 0 status with
  | ⟨calls, slept, .error message⟩ => ⟨calls, started, slept, .error (.serverError message)⟩
  | ⟨calls, slept, .ok .acquired⟩ => ⟨calls, started, slept, .ok ()⟩
  | ⟨calls, slept, .ok _⟩ => ⟨calls, started, slept, .error (.timeout
      ("Failed to start monitoring domain (sd_uuid=" ++ sdUuid ++ ", host_id=" ++
        toString hostId ++ "): timeout during domain acquisition"))⟩

/-- `start_domain_monitor(host_id)`, with the reply to `startMonitoringDomain` given. -/
def startDomainMonitor (startMonitoring : Except String Unit) (sdUuid : String) (hostId : Nat) :
    MonitorRun :=
  match getDomainMonitorStatus (replies 0) with
  | .error message => ⟨1, false, 0, .error (.serverError message)⟩
  | .ok .none =>
    match startMonitoring with
    | .error message => ⟨1, true, 0, .error (.serverError message)⟩
    | .ok () =>
      match getDomainMonitorStatus (replies 1) with
      | .error message => ⟨2, true, 0, .error (.serverError message)⟩
      | .ok status => finishStart replies maxWait sdUuid hostId true 2 status
  | .ok status => finishStart replies maxWait sdUuid hostId false 1 status

theorem waitForAcquired_of_lt (fuel calls waited : Nat) (status : DomainMonitorStatus)
    (late : maxWait < waited) :
    waitForAcquired replies maxWait fuel calls waited status = ⟨calls, waited, .ok status⟩ := by
  cases fuel with
  | zero => rfl
  | succ fuel => simp [waitForAcquired, Nat.not_le.mpr late]

/-- The loop makes at most `(MAX_DOMAIN_MONITOR_WAIT_SECS - waited) / 5 + 1` rounds: any fuel
beyond that changes nothing, so the fuel the model runs it on is the source's unbounded loop. -/
theorem waitForAcquired_fuel (fuel extra calls waited : Nat) (status : DomainMonitorStatus)
    (enough : (maxWait - waited) / 5 + 1 ≤ fuel) :
    waitForAcquired replies maxWait (fuel + extra) calls waited status =
      waitForAcquired replies maxWait fuel calls waited status := by
  induction fuel generalizing calls waited status with
  | zero => omega
  | succ fuel ih =>
    rw [Nat.add_right_comm]
    simp only [waitForAcquired]
    split
    · split
      · rfl
      · by_cases late : maxWait < waited + 5
        · rw [waitForAcquired_of_lt replies maxWait _ _ _ _ late,
            waitForAcquired_of_lt replies maxWait _ _ _ _ late]
        · exact ih _ _ _ (by omega)
    · rfl

theorem waitForAcquired_fuel_pending :
    (10 - 0) / 5 + 1 ≤ 3 ∧
      waitForAcquired (fun _ => .ok (some false)) 10 (3 + 5) 0 0 .pending =
        waitForAcquired (fun _ => .ok (some false)) 10 3 0 0 .pending :=
  ⟨by decide, waitForAcquired_fuel _ 10 3 5 0 0 .pending (by decide)⟩

end StartDomainMonitor

def DomainMonitorStatus.repoStats : DomainMonitorStatus → RepoStats
  | .none => .ok Option.none
  | .pending => .ok (some false)
  | .acquired => .ok (some true)

@[simp] theorem getDomainMonitorStatus_repoStats (status : DomainMonitorStatus) :
    getDomainMonitorStatus status.repoStats = .ok status := by
  cases status <;> rfl

section Statuses

-- The statuses successive `_get_domain_monitor_status` calls return, counted from 0, and
-- `MAX_DOMAIN_MONITOR_WAIT_SECS`.
variable (statuses : Nat → DomainMonitorStatus) (maxWait : Nat)

theorem waitForAcquired_succ (fuel calls waited : Nat) (status : DomainMonitorStatus) :
    waitForAcquired (fun n => (statuses n).repoStats) maxWait (fuel + 1) calls waited status =
      if status ≠ .acquired ∧ waited ≤ maxWait then
        waitForAcquired (fun n => (statuses n).repoStats) maxWait fuel (calls + 1) (waited + 5)
          (statuses calls)
      else ⟨calls, waited, .ok status⟩ := by
  simp only [waitForAcquired, getDomainMonitorStatus_repoStats]

theorem le_calls_waitForAcquired (fuel calls waited : Nat) (status : DomainMonitorStatus) :
    calls ≤ (waitForAcquired (fun n => (statuses n).repoStats) maxWait fuel calls waited
      status).calls := by
  induction fuel generalizing calls waited status with
  | zero => exact le_rfl
  | succ fuel ih =>
    rw [waitForAcquired_succ]
    split
    · exact le_trans (Nat.le_succ calls) (ih _ _ _)
    · exact le_rfl

theorem waitForAcquired_status (fuel calls waited : Nat) (status : DomainMonitorStatus) :
    ∃ final, (waitForAcquired (fun n => (statuses n).repoStats) maxWait fuel calls waited
        status).status = .ok final ∧
      (final = .acquired ↔ status = .acquired ∨ ∃ n, calls ≤ n ∧
        n < (waitForAcquired (fun n => (statuses n).repoStats) maxWait fuel calls waited
          status).calls ∧ statuses n = .acquired) := by
  induction fuel generalizing calls waited status with
  | zero => exact ⟨status, rfl, by simp [waitForAcquired]; omega⟩
  | succ fuel ih =>
    rw [waitForAcquired_succ]
    split
    · rename_i waiting
      obtain ⟨final, ended, seen⟩ := ih (calls + 1) (waited + 5) (statuses calls)
      have more := le_calls_waitForAcquired statuses maxWait fuel (calls + 1) (waited + 5)
        (statuses calls)
      refine ⟨final, ended, seen.trans ⟨?_, ?_⟩⟩
      · rintro (now | ⟨n, after, before, acquired⟩)
        · exact .inr ⟨calls, le_rfl, by omega, now⟩
        · exact .inr ⟨n, by omega, before, acquired⟩
      · rintro (already | ⟨n, after, before, acquired⟩)
        · exact absurd already waiting.1
        · rcases Nat.eq_or_lt_of_le after with rfl | later
          · exact .inl acquired
          · exact .inr ⟨n, later, before, acquired⟩
    · exact ⟨status, rfl, by simp; omega⟩

theorem waitForAcquired_waited (fuel calls rounds : Nat) (status : DomainMonitorStatus)
    (aligned : rounds + fuel = maxWait / 5 + 1)
    (timedOut : (waitForAcquired (fun n => (statuses n).repoStats) maxWait fuel calls (5 * rounds)
      status).status ≠ .ok .acquired) :
    (waitForAcquired (fun n => (statuses n).repoStats) maxWait fuel calls (5 * rounds)
      status).waited = 5 * (maxWait / 5 + 1) := by
  induction fuel generalizing calls rounds status with
  | zero => simp only [waitForAcquired]; omega
  | succ fuel ih =>
    rw [waitForAcquired_succ] at timedOut ⊢
    split at timedOut
    · rw [if_pos (by assumption), show 5 * rounds + 5 = 5 * (rounds + 1) by omega]
      rw [show 5 * rounds + 5 = 5 * (rounds + 1) by omega] at timedOut
      exact ih _ _ _ (by omega) timedOut
    · rename_i stopped
      have notAcquired : status ≠ .acquired := fun acquired => timedOut (by rw [acquired])
      exact absurd ⟨notAcquired, by omega⟩ stopped

theorem finishStart_statuses (sdUuid : String) (hostId : Nat) (started : Bool) (calls : Nat)
    (status : DomainMonitorStatus) :
    (finishStart (fun n => (statuses n).repoStats) maxWait sdUuid hostId started calls
        status).started = started ∧
      calls ≤ (finishStart (fun n => (statuses n).repoStats) maxWait sdUuid hostId started calls
        status).statusCalls ∧
      ((finishStart (fun n => (statuses n).repoStats) maxWait sdUuid hostId started calls
          status).result = .ok () ↔ status = .acquired ∨ ∃ n, calls ≤ n ∧
        n < (finishStart (fun n => (statuses n).repoStats) maxWait sdUuid hostId started calls
          status).statusCalls ∧ statuses n = .acquired) ∧
      ∀ message, (finishStart (fun n => (statuses n).repoStats) maxWait sdUuid hostId started
          calls status).result = .error (.timeout message) →
        (finishStart (fun n => (statuses n).repoStats) maxWait sdUuid hostId started calls
          status).slept = 5 * (maxWait / 5 + 1) := by
  obtain ⟨final, ended, seen⟩ :=
    waitForAcquired_status statuses maxWait (maxWait / 5 + 1) calls 0 status
  have more := le_calls_waitForAcquired statuses maxWait (maxWait / 5 + 1) calls 0 status
  have slept := waitForAcquired_waited statuses maxWait (maxWait / 5 + 1) calls 0 status
    (by omega)
  simp only [Nat.mul_zero] at slept
  unfold finishStart
  revert ended seen more slept
  rcases waitForAcquired (fun n => (statuses n).repoStats) maxWait (maxWait / 5 + 1) calls 0
    status with ⟨endCalls, waited, result⟩
  rintro (rfl : result = .ok final) seen more slept
  cases final with
  | acquired => exact ⟨rfl, more, by simpa using seen, fun message raised => by cases raised⟩
  | none => exact ⟨rfl, more, by simpa using seen.symm, fun _ _ => slept (by simp)⟩
  | pending => exact ⟨rfl, more, by simpa using seen.symm, fun _ _ => slept (by simp)⟩

/-- `start_domain_monitor` on any statuses and any answer of `startMonitoringDomain`: it calls
`startMonitoringDomain` exactly when the first status is `NONE`, returns normally exactly when
some status it reads is `ACQUIRED`, and when it raises the timeout error it has slept
`5 * (MAX_DOMAIN_MONITOR_WAIT_SECS / 5 + 1)` seconds, the least multiple of five above
`MAX_DOMAIN_MONITOR_WAIT_SECS`: the loop guard `waited <= MAX` lets one more round run once
`waited` has reached the limit. -/
theorem startDomainMonitor_statuses (startMonitoring : Except String Unit) (sdUuid : String)
    (hostId : Nat) :
    ((startDomainMonitor (fun n => (statuses n).repoStats) maxWait startMonitoring sdUuid
        hostId).started = true ↔ statuses 0 = .none) ∧
      ((startDomainMonitor (fun n => (statuses n).repoStats) maxWait startMonitoring sdUuid
          hostId).result = .ok () ↔
        ∃ n < (startDomainMonitor (fun n => (statuses n).repoStats) maxWait startMonitoring
          sdUuid hostId).statusCalls, statuses n = .acquired) ∧
      ∀ message, (startDomainMonitor (fun n => (statuses n).repoStats) maxWait startMonitoring
          sdUuid hostId).result = .error (.timeout message) →
        (startDomainMonitor (fun n => (statuses n).repoStats) maxWait startMonitoring sdUuid
          hostId).slept = 5 * (maxWait / 5 + 1) := by
  unfold startDomainMonitor
  simp only [getDomainMonitorStatus_repoStats]
  cases first : statuses 0 with
  | none =>
    rcases startMonitoring with message | ⟨⟩
    · dsimp only
      refine ⟨by simp, ⟨(fun ok => by cases ok), fun ⟨n, below, acquired⟩ => ?_⟩,
        fun _ raised => by cases raised⟩
      obtain rfl : n = 0 := by omega
      rw [first] at acquired
      cases acquired
    · dsimp only
      obtain ⟨started, more, returns, sleeps⟩ :=
        finishStart_statuses statuses maxWait sdUuid hostId true 2 (statuses 1)
      refine ⟨by simpa using started, returns.trans ⟨?_, ?_⟩, sleeps⟩
      · rintro (now | ⟨n, after, before, acquired⟩)
        · exact ⟨1, by omega, now⟩
        · exact ⟨n, before, acquired⟩
      · rintro ⟨n, before, acquired⟩
        rcases n with _ | _ | n
        · rw [first] at acquired; cases acquired
        · exact .inl acquired
        · exact .inr ⟨n + 2, by omega, before, acquired⟩
  | pending | acquired =>
    dsimp only
    obtain ⟨started, more, returns, sleeps⟩ :=
      finishStart_statuses statuses maxWait sdUuid hostId false 1 (statuses 0)
    rw [first] at started more returns sleeps
    refine ⟨by simpa using started, returns.trans ⟨?_, ?_⟩, sleeps⟩
    · rintro (now | ⟨n, after, before, acquired⟩)
      · exact ⟨0, by omega, first.trans now⟩
      · exact ⟨n, before, acquired⟩
    · rintro ⟨n, before, acquired⟩
      rcases n with _ | n
      · exact .inl (first.symm.trans acquired)
      · exact .inr ⟨n + 1, by omega, before, acquired⟩

end Statuses

/-- With `MAX_DOMAIN_MONITOR_WAIT_SECS = 0` and a domain that stays `PENDING`, the loop sleeps
once, five seconds, before the timeout error. -/
theorem startDomainMonitor_sleeps_past_max :
    (startDomainMonitor (fun _ => DomainMonitorStatus.pending.repoStats) 0 (.ok ()) "sd" 1).slept =
        5 ∧
      (startDomainMonitor (fun _ => DomainMonitorStatus.pending.repoStats) 0 (.ok ()) "sd"
        1).result = .error (.timeout
          "Failed to start monitoring domain (sd_uuid=sd, host_id=1): timeout during domain acquisition") :=
  ⟨rfl, rfl⟩

/-- `stop_domain_monitor()`: whether it called `stopMonitoringDomain`, which it does unless the
status is `NONE`, and the `ServerError` of the status call, which propagates; a `ServerError` of
`stopMonitoringDomain` is logged and dropped. -/
def stopDomainMonitor (repoStats : RepoStats) : Except String Bool :=
  (getDomainMonitorStatus repoStats).map (· ≠ .none)

end HostedEngineHa.Broker
