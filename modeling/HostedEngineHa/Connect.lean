import HostedEngineHa.ConnectionList

/-! `StorageServer.connect_storage_server` and `disconnect_storage_server`: VDSM's statuses,
and the `ISCSI_MPATHS_BLACKLIST` value the warning suggests for failing paths. -/
namespace HostedEngineHa.StorageServer

/-- An entry of VDSM's answer to `StoragePool.connectStorageServer`. -/
structure ConnectionStatus where
  id : List Char
  status : Int
  deriving DecidableEq, Repr

/-- `con_details`: the last entry of `conList` with the id, `{}` (`none`) when there is none. -/
def conDetails (conList : List ConnectionParams) (id : List Char) : Option ConnectionParams :=
  conList.foldl (fun details ce => if id = ce.id then some ce else details) none

/-- The `ifaceName` and `connection` entries of `con_details`, where present. -/
def detailsPath : Option ConnectionParams → FailedPath
  | none => (none, none)
  | some ce => (ce.ifaceName, some ce.connection)

/-- One pass of the loop over `connections`, on `connected` and `failed_paths`; `many` is
`len(connections) > 1`. -/
def statusStep (conList : List ConnectionParams) (many : Bool) (state : Bool × List FailedPath)
    (con : ConnectionStatus) : Bool × List FailedPath :=
  if con.status = 0 then (true, state.2)
  else if many then (state.1, state.2 ++ [detailsPath (conDetails conList con.id)])
  else state

/-- The warning of `connect_storage_server` about failing paths: with more than one of them on
an iSCSI domain, it suggests `bl_example` as the blacklist, when that is not empty. -/
def blacklistSuggestion (storageType : Option StorageType) (failedPaths : List FailedPath) :
    Option (List Char) :=
  if 1 < failedPaths.length ∧ storageType = some .iscsi ∧ blacklistExample failedPaths ≠ [] then
    some (blacklistExample failedPaths)
  else none

/-- `connect_storage_server()`, returning the value its warning suggests for
`ISCSI_MPATHS_BLACKLIST`, if it warns. `vdsm` is `StoragePool.connectStorageServer`, whose
`ServerError` carries its text. The storage domain refresh that follows ignores its errors. -/
def connectStorageServer (host : HostPaths) (uuids : Nat → List Char) (iscsiadm : IscsiadmRun)
    (s : Settings) (vdsm : List ConnectionParams → Except String (List ConnectionStatus)) :
    Except ConnectError (Option (List Char)) := do
  let (conList, storageType) ← getConlist host uuids iscsiadm s true
  if conList = [] then return none
  let connections ← (vdsm conList).mapError fun e =>
    .runtimeError ("Connection to storage server failed: " ++ e)
  let (connected, failedPaths) :=
    connections.foldl (statusStep conList (1 < connections.length)) (false, [])
  if !connected then throw (.runtimeError "Connection to storage server failed")
  return blacklistSuggestion storageType failedPaths

/-- `disconnect_storage_server()`, with the connection list built without normalising the path.
`vdsm` is `StoragePool.disconnectStorageServer`. -/
def disconnectStorageServer (host : HostPaths) (uuids : Nat → List Char) (iscsiadm : IscsiadmRun)
    (s : Settings) (vdsm : List ConnectionParams → Except String Unit) : Except ConnectError Unit := do
  let (conList, _) ← getConlist host uuids iscsiadm s false
  if conList = [] then return ()
  (vdsm conList).mapError fun e => .runtimeError ("Disconnection to storage server failed, " ++
    "unable to recover: " ++ e ++ " - Please try rebooting the host to reach a consistent status")

/-! ### The loop over VDSM's answer -/

theorem foldl_statusStep (conList : List ConnectionParams) (many : Bool)
    (connections : List ConnectionStatus) (connected : Bool) (failedPaths : List FailedPath) :
    connections.foldl (statusStep conList many) (connected, failedPaths) =
      (connected || connections.any (fun con => con.status = 0),
        failedPaths ++ if many then (connections.filter fun con => con.status ≠ 0).map
          (fun con => detailsPath (conDetails conList con.id)) else []) := by
  induction connections generalizing connected failedPaths with
  | nil => cases many <;> simp
  | cons con connections ih =>
    rw [List.foldl_cons, statusStep]
    by_cases ok : con.status = 0
    · rw [if_pos ok, ih]
      cases many <;> simp [ok]
    · rw [if_neg ok]
      cases many <;> simp [ok, ih]

/-! ### Looking a status up by id -/

theorem foldl_details_of_absent (conList : List ConnectionParams) (id : List Char)
    (init : Option ConnectionParams) (absent : ∀ ce ∈ conList, ce.id ≠ id) :
    conList.foldl (fun details ce => if id = ce.id then some ce else details) init = init := by
  induction conList generalizing init with
  | nil => rfl
  | cons ce conList ih =>
    rw [List.foldl_cons, if_neg fun same => absent ce (List.mem_cons_self _ _) same.symm,
      ih _ fun other member => absent other (List.mem_cons_of_mem _ member)]

theorem conDetails_of_mem (conList : List ConnectionParams) (con : ConnectionParams)
    (member : con ∈ conList) (unique : (conList.map (·.id)).Nodup) :
    conDetails conList con.id = some con := by
  suffices ∀ init, conList.foldl (fun details ce => if con.id = ce.id then some ce else details)
      init = some con from this none
  induction conList with
  | nil => cases member
  | cons ce conList ih =>
    intro init
    rw [List.map_cons, List.nodup_cons, List.mem_map] at unique
    rw [List.foldl_cons]
    rcases List.mem_cons.mp member with rfl | later
    · rw [if_pos rfl, foldl_details_of_absent _ _ _ fun other member same =>
        unique.1 ⟨other, member, same⟩]
    · have other : con.id ≠ ce.id := fun same => unique.1 ⟨con, later, same⟩
      rw [if_neg other, ih later unique.2]

theorem foldl_details_mem (id : List Char) (P : ConnectionParams → Prop)
    (conList : List ConnectionParams) (init : Option ConnectionParams) (within : ∀ f ∈ init, P f)
    (each : ∀ ce ∈ conList, ce.id = id → P ce) :
    ∀ f ∈ conList.foldl (fun details ce => if id = ce.id then some ce else details) init, P f := by
  induction conList generalizing init with
  | nil => exact within
  | cons ce conList ih =>
    rw [List.foldl_cons]
    refine ih _ ?_ fun other member => each other (List.mem_cons_of_mem _ member)
    split
    · rename_i same
      rintro _ ⟨⟩
      exact each _ (List.mem_cons_self _ _) same.symm
    · exact within

theorem conDetails_eq_some (conList : List ConnectionParams) (id : List Char)
    (ce : ConnectionParams) (found : conDetails conList id = some ce) : ce ∈ conList ∧ ce.id = id :=
  foldl_details_mem id (fun f => f ∈ conList ∧ f.id = id) conList none
    (fun _ absent => by cases absent) (fun _ member same => ⟨member, same⟩) ce found

/-! ### What `connect_storage_server` does with the answer -/

theorem mapError_ok_bind {ε ε' α β : Type} (f : ε → ε') (a : α) (g : α → Except ε' β) :
    ((Except.ok a : Except ε α).mapError f >>= g) = g a := rfl

/-- `connect_storage_server` on the list `_get_conlist` built, when that is not empty, and
VDSM's answer to it: it fails unless some status is `0`, and otherwise warns about the failed
paths it collected, which it does only when there are several statuses. -/
theorem connectStorageServer_of_answer (host : HostPaths) (uuids : Nat → List Char)
    (iscsiadm : IscsiadmRun) (s : Settings)
    (vdsm : List ConnectionParams → Except String (List ConnectionStatus))
    (conList : List ConnectionParams) (storageType : Option StorageType)
    (connections : List ConnectionStatus)
    (sent : getConlist host uuids iscsiadm s true = .ok (conList, storageType))
    (nonempty : conList ≠ []) (answer : vdsm conList = .ok connections) :
    connectStorageServer host uuids iscsiadm s vdsm =
      if connections.any (fun con => con.status = 0) then
        .ok (blacklistSuggestion storageType
          (if (1 < connections.length : Bool) then (connections.filter fun con => con.status ≠ 0).map
            (fun con => detailsPath (conDetails conList con.id)) else []))
      else .error (.runtimeError "Connection to storage server failed") := by
  rw [connectStorageServer, sent]
  show (if conList = [] then _ else _) = _
  rw [if_neg nonempty]
  rw [answer, mapError_ok_bind, foldl_statusStep]
  cases connections.any fun con => con.status = 0 <;> rfl

theorem blacklistSuggestion_eq_some (storageType : Option StorageType)
    (failedPaths : List FailedPath) (value : List Char)
    (warned : blacklistSuggestion storageType failedPaths = some value) :
    1 < failedPaths.length ∧ storageType = some .iscsi ∧ value = blacklistExample failedPaths ∧
      value ≠ [] := by
  unfold blacklistSuggestion at warned
  split at warned
  · rename_i shown
    cases warned
    exact ⟨shown.1, shown.2.1, rfl, shown.2.2⟩
  · cases warned

theorem mem_failedPairs (failedPaths : List FailedPath) (ifaceName connection : List Char) :
    (ifaceName, connection) ∈ failedPairs failedPaths ↔
      (some ifaceName, some connection) ∈ failedPaths := by
  rw [failedPairs, List.mem_filterMap]
  constructor
  · rintro ⟨⟨_ | _, _ | _⟩, member, found⟩ <;> cases found
    exact member
  · exact fun member => ⟨_, member, rfl⟩

/-- A path VDSM reported failing: some connection of the list takes it, and the answer gives
that connection's id a status other than `0`. -/
def FailedIn (conList : List ConnectionParams) (connections : List ConnectionStatus)
    (p : Option (List Char) × List Char) : Prop :=
  ∃ con ∈ conList, path con = p ∧ ∃ st ∈ connections, st.id = con.id ∧ st.status ≠ 0

def ifacePaths (conList : List ConnectionParams) : List (List Char × List Char) :=
  conList.filterMap fun con => con.ifaceName.map (·, con.connection)

theorem mem_failedPaths_iff (conList : List ConnectionParams) (connections : List ConnectionStatus)
    (unique : (conList.map (·.id)).Nodup) (ifaceName connection : List Char) :
    (some ifaceName, some connection) ∈ (connections.filter fun con => con.status ≠ 0).map
        (fun con => detailsPath (conDetails conList con.id)) ↔
      FailedIn conList connections (some ifaceName, connection) := by
  simp only [List.mem_map, List.mem_filter, decide_eq_true_eq]
  constructor
  · rintro ⟨st, ⟨answered, failed⟩, found⟩
    cases details : conDetails conList st.id with
    | none => rw [details] at found; cases found
    | some ce =>
      rw [details] at found
      obtain ⟨member, same⟩ := conDetails_eq_some conList st.id ce details
      obtain ⟨taken, connected⟩ := Prod.mk.inj found
      refine ⟨ce, member, ?_, st, answered, same.symm, failed⟩
      rw [path, taken, Option.some.inj connected]
  · rintro ⟨con, member, taken, st, answered, same, failed⟩
    refine ⟨st, ⟨answered, failed⟩, ?_⟩
    rw [same, conDetails_of_mem conList con member unique]
    exact congrArg (fun p => (p.1, some p.2)) taken

theorem cleanEntries_failedPairs (conList : List ConnectionParams)
    (connections : List ConnectionStatus) (unique : (conList.map (·.id)).Nodup)
    (clean : CleanEntries (ifacePaths conList)) :
    CleanEntries (failedPairs ((connections.filter fun con => con.status ≠ 0).map
      fun con => detailsPath (conDetails conList con.id))) := by
  rintro ⟨ifaceName, connection⟩ member
  obtain ⟨con, conMember, taken, -⟩ := (mem_failedPaths_iff conList connections unique
    ifaceName connection).mp ((mem_failedPairs _ _ _).mp member)
  refine clean _ (List.mem_filterMap.mpr ⟨con, conMember, ?_⟩)
  rw [show con.ifaceName = some ifaceName from congrArg Prod.fst taken,
    show con.connection = connection from congrArg Prod.snd taken]
  rfl

theorem listed_failedPairs_iff (conList : List ConnectionParams)
    (connections : List ConnectionStatus) (unique : (conList.map (·.id)).Nodup)
    (p : Option (List Char) × List Char) :
    listed (failedPairs ((connections.filter fun con => con.status ≠ 0).map
        fun con => detailsPath (conDetails conList con.id))) p = true ↔
      p.1 ≠ none ∧ FailedIn conList connections p := by
  obtain ⟨_ | ifaceName, connection⟩ := p
  · exact ⟨nofun, fun ⟨bound, _⟩ => absurd rfl bound⟩
  · rw [listed, decide_eq_true_iff, mem_failedPairs, mem_failedPaths_iff conList connections unique]
    exact ⟨fun failed => ⟨nofun, failed⟩, And.right⟩

def firstPathAnswer (_ : List ConnectionParams) : Except String (List ConnectionStatus) :=
  .ok [⟨[], 0⟩, ⟨['u'], 1⟩, ⟨['u', 'u'], 1⟩]

def twoPathsValue : List Char := ['b', '<', '>', 't', ',', 'c', '<', '>', 't']

end HostedEngineHa.StorageServer
