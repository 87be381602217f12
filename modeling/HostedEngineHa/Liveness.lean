import HostedEngineHa.Client

/-! The liveness cache of `StorageBroker`: `push_hosts_state` records a report with the
monotonic clock's reading, and `is_host_alive` answers from the last one. -/
namespace HostedEngineHa.Broker

open Client

/-- What `is_host_alive` returns: `[]` for a report that is too old, the `""` of the default
entry, or the hosts last reported. -/
inductive HostList (Hosts : Type) where
  | stale
  | noReport
  | reported (hosts : Hosts)
  deriving DecidableEq, Repr

/-- `_stats_cache`: for each service type, the clock reading of its last report and the hosts
it named. -/
abbrev StatsCache (Service Hosts : Type) := List (Service × (Int × Hosts))

/-- A call on the cache, with the clock's reading when it reads `monotonic.time()`. -/
inductive CacheCall (Service Hosts : Type) where
  | push (serviceType : Service) (data : Hosts) (now : Int)
  | query (serviceType : Service) (now : Int)

variable {Service Hosts : Type} [DecidableEq Service]

/-- `push_hosts_state(service_type, data)` at clock reading `now`. -/
def pushHostsState (cache : StatsCache Service Hosts) (serviceType : Service) (data : Hosts)
    (now : Int) : StatsCache Service Hosts :=
  setItem cache serviceType (now, data)

/-- `is_host_alive(service_type)` at clock reading `now`; `timeout` is
`HOST_ALIVE_TIMEOUT_SECS`. -/
def isHostAlive (timeout : Int) (cache : StatsCache Service Hosts) (serviceType : Service)
    (now : Int) : HostList Hosts :=
  let (timestamp, hostList) : Int × HostList Hosts :=
    match cache.lookup serviceType with
    | some (timestamp, hosts) => (timestamp, .reported hosts)
    | none => (0, .noReport)
  if now - timestamp > timeout then .stale else hostList

def cacheStep (timeout : Int) (cache : StatsCache Service Hosts) :
    CacheCall Service Hosts → StatsCache Service Hosts × Option (HostList Hosts)
  | .push serviceType data now => (pushHostsState cache serviceType data now, none)
  | .query serviceType now => (cache, some (isHostAlive timeout cache serviceType now))

/-- A run of calls on the cache `__init__` creates: the queries' answers in order, and the cache
after the run. -/
def runCache (timeout : Int) (calls : List (CacheCall Service Hosts)) :
    List (HostList Hosts) × StatsCache Service Hosts :=
  calls.foldl (fun state call =>
    let (next, answer) := cacheStep timeout state.2 call
    (state.1 ++ answer.toList, next)) ([], [])

def reportFor (serviceType : Service) : CacheCall Service Hosts → Option (Int × Hosts)
  | .push pushed data now => if pushed = serviceType then some (now, data) else none
  | .query _ _ => none

def lastReport (serviceType : Service) (calls : List (CacheCall Service Hosts)) :
    Option (Int × Hosts) :=
  (calls.filterMap (reportFor serviceType)).getLast?

theorem runCache_append_singleton (timeout : Int) (calls : List (CacheCall Service Hosts))
    (call : CacheCall Service Hosts) :
    runCache timeout (calls ++ [call]) =
      ((runCache timeout calls).1 ++ (cacheStep timeout (runCache timeout calls).2 call).2.toList,
        (cacheStep timeout (runCache timeout calls).2 call).1) := by
  rw [runCache, List.foldl_append]
  rfl

theorem lookup_runCache (timeout : Int) (calls : List (CacheCall Service Hosts))
    (serviceType : Service) :
    (runCache timeout calls).2.lookup serviceType = lastReport serviceType calls := by
  induction calls using List.reverseRecOn with
  | nil => rfl
  | append_singleton calls call ih =>
    rw [runCache_append_singleton, lastReport, List.filterMap_append, List.getLast?_append,
      List.filterMap_cons, List.filterMap_nil]
    cases call with
    | push pushed data now =>
      rw [cacheStep, pushHostsState, lookup_setItem, reportFor]
      by_cases same : serviceType = pushed
      · rw [if_pos same, if_pos same.symm]
        rfl
      · rw [if_neg same, if_neg (Ne.symm same), ih]
        rfl
    | query queried now =>
      rw [cacheStep, ih]
      rfl

/-- Each query answers from the last report pushed for its service type before it: with the
hosts while that report is at most `timeout` old, with `[]` once it is older, and, when no
report was ever pushed, with the default `""` while the clock reads at most `timeout`. -/
theorem runCache_query (timeout : Int) (calls : List (CacheCall Service Hosts))
    (serviceType : Service) (now : Int) :
    (runCache timeout (calls ++ [.query serviceType now])).1 = (runCache timeout calls).1 ++
      [match lastReport serviceType calls with
        | some (pushedAt, hosts) => if now - pushedAt > timeout then .stale else .reported hosts
        | none => if now > timeout then .stale else .noReport] := by
  rw [runCache_append_singleton, cacheStep, Option.toList_some, isHostAlive,
    lookup_runCache timeout calls serviceType]
  cases lastReport serviceType calls with
  | none => simp only [Int.sub_zero]
  | some report => rfl

end HostedEngineHa.Broker
