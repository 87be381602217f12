import HostedEngineHa.Whiteboard
import Mathlib.Data.Bool.Count

/-! `HAClient.set_global_md_flag`: two broker requests with nothing held between them, and two
calls interleaved one request at a time. The `lib/metadata` codec is a parameter. -/
namespace HostedEngineHa.Client

open Whiteboard

abbrev MdDict (Flag Value : Type) := List (Flag × Value)

variable {Flag Value : Type} [DecidableEq Flag]

/-- `md_dict[flag] = value`. -/
def setItem : MdDict Flag Value → Flag → Value → MdDict Flag Value
  | [], flag, value => [(flag, value)]
  | (key, old) :: rest, flag, value =>
    if key = flag then (key, value) :: rest else (key, old) :: setItem rest flag value

theorem lookup_setItem (dict : MdDict Flag Value) (flag other : Flag) (value : Value) :
    (setItem dict flag value).lookup other = if other = flag then some value else dict.lookup other := by
  induction dict with
  | nil =>
    by_cases same : other = flag
    · simp [setItem, same]
    · simp [setItem, List.lookup_cons, same, beq_eq_false_iff_ne.mpr same]
  | cons entry dict ih =>
    obtain ⟨key, old⟩ := entry
    by_cases here : key = flag
    · subst here
      by_cases same : other = key
      · simp [setItem, same]
      · simp [setItem, List.lookup_cons, same, beq_eq_false_iff_ne.mpr same]
    · by_cases same : other = key
      · subst same
        simp [setItem, here]
      · simp [setItem, List.lookup_cons, here, same, beq_eq_false_iff_ne.mpr same, ih]

/-- Modelled from the spec: what the client uses of `lib/metadata`. `parse` is
`parse_global_metadata_to_dict` (an error is its `MetadataError`), `create` is
`create_global_metadata_from_dict`, and `globalFlags` is `global_flags`: each known flag with
its normalisation, if any. -/
structure Metadata (Flag Value : Type) where
  parse : Bytes → Except String (MdDict Flag Value)
  create : MdDict Flag Value → Bytes
  globalFlags : List (Flag × Option (Value → Except String Value))

/-- How `set_global_md_flag` fails. -/
inductive ClientError where
  | unknownFlag (message : String)
  | normalisation (message : String)
  | request (error : RequestError)
  | metadata (message : String)

variable (metadata : Metadata Flag Value)

/-- The part of `set_global_md_flag` before any request: the flag's entry in `global_flags`,
and the value to put. -/
def putValue [ToString Flag] (flag : Flag) (value : Value) : Except ClientError Value :=
  match metadata.globalFlags.lookup flag with
  | none => .error (.unknownFlag ("Unknown metadata flag: " ++ toString flag))
  | some none => .ok value
  | some (some transform) => (transform value).mapError .normalisation

/-- `all_stats.get(0)` decoded: the global metadata, or `{}` when slot 0 is absent or empty. -/
def globalDict (allStats : List (Nat × Bytes)) : Except ClientError (MdDict Flag Value) :=
  match allStats.lookup 0 with
  | some globalStats =>
    if globalStats = [] then .ok [] else (metadata.parse globalStats).mapError .metadata
  | none => .ok []

theorem lookup_zero_visibleSlots (maxHostIdScan : Nat) (slot : Nat → Bytes) :
    (visibleSlots maxHostIdScan slot).lookup 0 =
      if (slot 0).getD 0 0 = 0 then none else some (slot 0) := by
  have later : (((List.range maxHostIdScan).map Nat.succ).filterMap fun index =>
      if (slot index).getD 0 0 = 0 then none else some (index, slot index)).lookup 0 = none := by
    simp only [List.lookup_eq_none_iff, List.mem_filterMap, List.mem_map]
    rintro ⟨key, bytes⟩ ⟨_, ⟨index, -, rfl⟩, listed⟩
    split at listed
    · cases listed
    · cases listed
      simp
  by_cases zero : (slot 0).getD 0 0 = 0
  · simp only [visibleSlots, List.range_succ_eq_map, List.filterMap_cons, zero, if_true, later]
  · simp only [visibleSlots, List.range_succ_eq_map, List.filterMap_cons, zero, if_false,
      List.lookup_cons, beq_self_eq_true]

/-- What the claim's codec round trip gives for one dict through slot 0: its block fits the
slot, its first byte marks slot 0 present, and the padded slot decodes back to the dict. -/
structure RoundTrips (dict : MdDict Flag Value) : Prop where
  fits : (metadata.create dict).length ≤ hostSegmentBytes
  marked : (metadata.create dict).getD 0 0 ≠ 0
  decodes : metadata.parse (ljust (metadata.create dict) hostSegmentBytes) = .ok dict

/-- A codec for flags and values of one bit, one byte per entry, ending at the first zero
byte: the smallest global-metadata codec that round-trips. -/
def bitEntry (entry : Bool × Bool) : UInt8 :=
  if entry.1 then (if entry.2 then 4 else 3) else (if entry.2 then 2 else 1)

def bitDecode (byte : UInt8) : Except String (Bool × Bool) :=
  if byte = 1 then .ok (false, false) else if byte = 2 then .ok (false, true)
  else if byte = 3 then .ok (true, false) else if byte = 4 then .ok (true, true)
  else .error "unknown entry"

def bitParse : Bytes → Except String (MdDict Bool Bool)
  | [] => .ok []
  | byte :: rest =>
    if byte = 0 then .ok []
    else do
      let entry ← bitDecode byte
      return entry :: (← bitParse rest)

def bitMetadata : Metadata Bool Bool where
  parse := bitParse
  create dict := dict.map bitEntry
  globalFlags := [(false, none), (true, none)]

theorem bitParse_create_append (dict : MdDict Bool Bool) (tail : Bytes)
    (stops : bitParse tail = .ok []) : bitParse (dict.map bitEntry ++ tail) = .ok dict := by
  induction dict with
  | nil => exact stops
  | cons entry dict ih =>
    obtain ⟨flag, value⟩ := entry
    cases flag <;> cases value <;>
      simp [bitParse, bitEntry, bitDecode, ih, bind, Except.bind, pure, Except.pure]

theorem roundTrips_bitMetadata (dict : MdDict Bool Bool) (nonempty : dict ≠ [])
    (short : dict.length ≤ hostSegmentBytes) : RoundTrips bitMetadata dict where
  fits := by simpa [bitMetadata] using short
  marked := by
    obtain ⟨⟨flag, value⟩, rest, rfl⟩ := List.exists_cons_of_ne_nil nonempty
    simp only [bitMetadata, List.map_cons, List.getD_cons_zero]
    cases flag <;> cases value <;> decide
  decodes := bitParse_create_append dict _ (by
    generalize hostSegmentBytes - (bitMetadata.create dict).length = padding
    cases padding <;> rfl)

section Requests

-- `constants.MAX_HOST_ID_SCAN`, and the offset of the metadata in its file.
variable (maxHostIdScan base : Nat)

/-- The first request of `set_global_md_flag` and what follows it: `get_stats_from_storage`,
slot 0 decoded, the flag set, and the block encoded. -/
def readRequest (calls : ReadCalls) (flag : Flag) (putVal : Value) (storage : Bytes) :
    Except ClientError Bytes := do
  let allStats ← (getRawStatsForServiceType maxHostIdScan calls base storage).mapError .request
  let mdDict ← globalDict metadata allStats
  return metadata.create (setItem mdDict flag putVal)

/-- The second request: `put_stats_on_storage` of the block into slot 0. -/
def writeRequest (calls : WriteCalls) (block storage : Bytes) : Except ClientError Bytes :=
  (putStats calls base 0 block storage).mapError .request

/-- `set_global_md_flag(flag, value)` alone: the storage after its two requests. -/
def setGlobalMdFlag [ToString Flag] (readCalls : ReadCalls) (writeCalls : WriteCalls) (flag : Flag)
    (value : Value) (storage : Bytes) : Except ClientError Bytes := do
  let putVal ← putValue metadata flag value
  let block ← readRequest metadata maxHostIdScan base readCalls flag putVal storage
  writeRequest base writeCalls block storage

def slotDict (storage : Bytes) : Except ClientError (MdDict Flag Value) := do
  let allStats ← (getRawStatsForServiceType maxHostIdScan fullRead base storage).mapError .request
  globalDict metadata allStats

omit [DecidableEq Flag] in
theorem slotDict_eq_globalDict (storage : Bytes) :
    slotDict metadata maxHostIdScan base storage = globalDict metadata (visibleSlots maxHostIdScan
      fun index => readPadded storage (base + index * hostSegmentBytes) hostSegmentBytes) := by
  rw [slotDict, getRawStats_fullRead]
  rfl

theorem readRequest_fullRead (flag : Flag) (putVal : Value) (storage : Bytes) :
    readRequest metadata maxHostIdScan base fullRead flag putVal storage =
      (slotDict metadata maxHostIdScan base storage).map
        fun dict => metadata.create (setItem dict flag putVal) := by
  rw [readRequest, slotDict, getRawStats_fullRead]
  rfl

theorem writeRequest_fullWrite (block storage : Bytes) :
    ∃ written, writeRequest base fullWrite block storage = .ok written :=
  ⟨_, rfl⟩

omit [DecidableEq Flag] in
theorem slotDict_writeRequest (dict : MdDict Flag Value) (storage written : Bytes)
    (roundTrips : RoundTrips metadata dict)
    (wrote : writeRequest base fullWrite (metadata.create dict) storage = .ok written) :
    slotDict metadata maxHostIdScan base written = .ok dict := by
  have stored : written = writeAt storage (base + 0 * hostSegmentBytes)
      (ljust (metadata.create dict) hostSegmentBytes) := by
    rw [writeRequest, putStats_fullWrite _ _ _ _ roundTrips.fits] at wrote
    exact (Except.ok.inj wrote).symm
  have slotZero : readPadded written (base + 0 * hostSegmentBytes) hostSegmentBytes =
      ljust (metadata.create dict) hostSegmentBytes := by
    rw [stored, readPadded_putSlot _ _ _ _ _ roundTrips.fits, if_pos rfl]
  have present : (ljust (metadata.create dict) hostSegmentBytes).getD 0 0 ≠ 0 := by
    have nonempty : 0 < (metadata.create dict).length :=
      List.length_pos.mpr fun empty => roundTrips.marked (by simp [empty])
    rw [ljust, List.getD_append _ _ _ _ nonempty]
    exact roundTrips.marked
  have notEmpty : ljust (metadata.create dict) hostSegmentBytes ≠ [] := fun empty =>
    present (by simp [empty])
  rw [slotDict_eq_globalDict, globalDict, lookup_zero_visibleSlots]
  simp only [slotZero, if_neg present, if_neg notEmpty, roundTrips.decodes]
  rfl

theorem setGlobalMdFlag_eq [ToString Flag] (readCalls : ReadCalls) (writeCalls : WriteCalls)
    (flag : Flag) (value putVal : Value) (storage : Bytes)
    (known : putValue metadata flag value = .ok putVal) :
    setGlobalMdFlag metadata maxHostIdScan base readCalls writeCalls flag value storage =
      readRequest metadata maxHostIdScan base readCalls flag putVal storage >>= fun block =>
        writeRequest base writeCalls block storage := by
  rw [setGlobalMdFlag, known]
  rfl

omit [DecidableEq Flag] in
theorem slotDict_of_absent (storage : Bytes) (absent : storage.getD base 0 = 0) :
    slotDict metadata maxHostIdScan base storage = .ok [] := by
  have zero : (readPadded storage (base + 0 * hostSegmentBytes) hostSegmentBytes).getD 0 0 = 0 := by
    rw [List.getD_eq_getElem?_getD, getElem?_readPadded, if_pos (by decide), Nat.zero_mul,
      Nat.add_zero, Option.getD_some, absent]
  rw [slotDict_eq_globalDict, globalDict, lookup_zero_visibleSlots, if_pos zero]

/-- `set_global_md_flag` on a known flag alone, every system call succeeding: slot 0 then reads
as the map it read with the flag set to the normalised value. -/
theorem setGlobalMdFlag_fullIo [ToString Flag] (flag : Flag) (value putVal : Value) (storage : Bytes)
    (dict : MdDict Flag Value) (known : putValue metadata flag value = .ok putVal)
    (decoded : slotDict metadata maxHostIdScan base storage = .ok dict)
    (roundTrips : RoundTrips metadata (setItem dict flag putVal)) :
    ∃ written, setGlobalMdFlag metadata maxHostIdScan base fullRead fullWrite flag value storage =
        .ok written ∧
      slotDict metadata maxHostIdScan base written = .ok (setItem dict flag putVal) := by
  obtain ⟨written, wrote⟩ := writeRequest_fullWrite base (metadata.create (setItem dict flag putVal)) storage
  refine ⟨written, ?_, slotDict_writeRequest metadata maxHostIdScan base _ _ _ roundTrips wrote⟩
  rw [setGlobalMdFlag_eq metadata maxHostIdScan base _ _ flag value putVal storage known,
    readRequest_fullRead, decoded]
  exact wrote

theorem setGlobalMdFlag_fullIo_bits :
    putValue bitMetadata false true = .ok true ∧ slotDict bitMetadata 0 0 [] = .ok [] ∧
      RoundTrips bitMetadata (setItem [] false true) ∧
      ∃ written, setGlobalMdFlag bitMetadata 0 0 fullRead fullWrite false true [] = .ok written ∧
        slotDict bitMetadata 0 0 written = .ok (setItem [] false true) := by
  have empty : slotDict bitMetadata 0 0 [] = .ok [] := slotDict_of_absent bitMetadata 0 0 [] rfl
  have roundTrips : RoundTrips bitMetadata (setItem [] false true) :=
    roundTrips_bitMetadata _ (by simp [setItem]) (by simp [setItem, hostSegmentBytes])
  exact ⟨rfl, empty, roundTrips,
    setGlobalMdFlag_fullIo bitMetadata 0 0 false true true [] [] rfl empty roundTrips⟩

end Requests

/-- A call of `set_global_md_flag` past its flag check: the flag, and the normalised value it
puts. -/
structure Call (Flag Value : Type) where
  flag : Flag
  putVal : Value

inductive Phase where
  | ready
  | holding (block : Bytes)
  | done
  | failed (error : ClientError)

structure Clients where
  storage : Bytes
  first : Phase
  second : Phase

inductive View (Flag Value : Type) where
  | ready
  | read (dict : MdDict Flag Value)
  | written

/-- The abstract model of slot 0 under two calls: the map it holds, each call's view, and the
maps written to it so far. -/
structure Register (Flag Value : Type) where
  slot : MdDict Flag Value
  first : View Flag Value
  second : View Flag Value
  writes : List (MdDict Flag Value)

def viewStep (call : Call Flag Value) (slot : MdDict Flag Value) :
    View Flag Value → Option (MdDict Flag Value) × View Flag Value
  | .ready => (none, .read slot)
  | .read dict => (some (setItem dict call.flag call.putVal), .written)
  | .written => (none, .written)

def registerStep (calls : Call Flag Value × Call Flag Value) (register : Register Flag Value) :
    Bool → Register Flag Value
  | false =>
    let (write, first) := viewStep calls.1 register.slot register.first
    { register with slot := write.getD register.slot, first, writes := register.writes ++ write.toList }
  | true =>
    let (write, second) := viewStep calls.2 register.slot register.second
    { register with slot := write.getD register.slot, second, writes := register.writes ++ write.toList }

def runRegister (calls : Call Flag Value × Call Flag Value) (register : Register Flag Value)
    (schedule : List Bool) : Register Flag Value :=
  schedule.foldl (registerStep calls) register

theorem writes_runRegister (calls : Call Flag Value × Call Flag Value)
    (register : Register Flag Value) (schedule : List Bool) :
    register.writes <+: (runRegister calls register schedule).writes := by
  induction schedule generalizing register with
  | nil => exact List.prefix_refl _
  | cons turn schedule ih =>
    refine List.IsPrefix.trans ?_ (ih (registerStep calls register turn))
    cases turn <;> exact List.prefix_append _ _

section Interleaving

variable (maxHostIdScan base : Nat)

def afterRead (storage : Bytes) : Except ClientError Bytes → Bytes × Phase
  | .ok block => (storage, .holding block)
  | .error error => (storage, .failed error)

def afterWrite (storage : Bytes) : Except ClientError Bytes → Bytes × Phase
  | .ok written => (written, .done)
  | .error error => (storage, .failed error)

def callStep (call : Call Flag Value) (storage : Bytes) : Phase → Bytes × Phase
  | .ready =>
    afterRead storage (readRequest metadata maxHostIdScan base fullRead call.flag call.putVal storage)
  | .holding block => afterWrite storage (writeRequest base fullWrite block storage)
  | .done => (storage, .done)
  | .failed error => (storage, .failed error)

/-- The next request of the call the scheduler picks: `false` for the first call, `true` for
the second. -/
def clientsStep (calls : Call Flag Value × Call Flag Value) (clients : Clients) : Bool → Clients
  | false =>
    let (storage, first) := callStep metadata maxHostIdScan base calls.1 clients.storage clients.first
    { clients with storage, first }
  | true =>
    let (storage, second) :=
      callStep metadata maxHostIdScan base calls.2 clients.storage clients.second
    { clients with storage, second }

def runClients (calls : Call Flag Value × Call Flag Value) (clients : Clients)
    (schedule : List Bool) : Clients :=
  schedule.foldl (clientsStep metadata maxHostIdScan base calls) clients

def Matches (call : Call Flag Value) : Phase → View Flag Value → Prop
  | .ready, .ready => True
  | .holding block, .read dict => block = metadata.create (setItem dict call.flag call.putVal)
  | .done, .written => True
  | _, _ => False

/-- The two calls as the abstract model sees them: slot 0 reads as the register's map, and each
call's phase matches its view. -/
structure Simulates (calls : Call Flag Value × Call Flag Value) (clients : Clients)
    (register : Register Flag Value) : Prop where
  slot : slotDict metadata maxHostIdScan base clients.storage = .ok register.slot
  first : Matches metadata calls.1 clients.first register.first
  second : Matches metadata calls.2 clients.second register.second

theorem callStep_ready (call : Call Flag Value) (storage : Bytes) (slot : MdDict Flag Value)
    (decoded : slotDict metadata maxHostIdScan base storage = .ok slot) :
    callStep metadata maxHostIdScan base call storage .ready =
      (storage, .holding (metadata.create (setItem slot call.flag call.putVal))) := by
  rw [callStep, readRequest_fullRead, decoded]
  rfl

theorem callStep_holding (call : Call Flag Value) (block storage written : Bytes)
    (wrote : writeRequest base fullWrite block storage = .ok written) :
    callStep metadata maxHostIdScan base call storage (.holding block) = (written, .done) := by
  simp only [callStep, wrote, afterWrite]

theorem callStep_simulates (call : Call Flag Value) (storage : Bytes) (slot : MdDict Flag Value)
    (phase : Phase) (view : View Flag Value)
    (decoded : slotDict metadata maxHostIdScan base storage = .ok slot)
    (matching : Matches metadata call phase view)
    (roundTrips : ∀ dict, (viewStep call slot view).1 = some dict → RoundTrips metadata dict) :
    slotDict metadata maxHostIdScan base (callStep metadata maxHostIdScan base call storage phase).1 =
        .ok ((viewStep call slot view).1.getD slot) ∧
      Matches metadata call (callStep metadata maxHostIdScan base call storage phase).2
        (viewStep call slot view).2 := by
  cases phase <;> cases view <;> simp only [Matches] at matching
  case ready.ready =>
    rw [callStep_ready metadata maxHostIdScan base call storage slot decoded]
    exact ⟨decoded, rfl⟩
  case holding.read block dict =>
    subst matching
    obtain ⟨written, wrote⟩ := writeRequest_fullWrite base
      (metadata.create (setItem dict call.flag call.putVal)) storage
    rw [callStep_holding metadata maxHostIdScan base call _ storage written wrote]
    exact ⟨slotDict_writeRequest metadata maxHostIdScan base _ _ _ (roundTrips _ rfl) wrote,
      trivial⟩
  case done.written =>
    simp only [callStep, viewStep, Option.getD_none]
    exact ⟨decoded, trivial⟩

theorem clientsStep_simulates (calls : Call Flag Value × Call Flag Value) (clients : Clients)
    (register : Register Flag Value) (turn : Bool)
    (simulates : Simulates metadata maxHostIdScan base calls clients register)
    (roundTrips : ∀ dict ∈ (registerStep calls register turn).writes, RoundTrips metadata dict) :
    Simulates metadata maxHostIdScan base calls (clientsStep metadata maxHostIdScan base calls clients turn)
      (registerStep calls register turn) := by
  cases turn
  case false =>
    have step := callStep_simulates metadata maxHostIdScan base calls.1 clients.storage
      register.slot clients.first register.first simulates.slot simulates.first fun dict write =>
        roundTrips dict (by simp [registerStep, write])
    exact ⟨step.1, step.2, simulates.second⟩
  case true =>
    have step := callStep_simulates metadata maxHostIdScan base calls.2 clients.storage
      register.slot clients.second register.second simulates.slot simulates.second fun dict write =>
        roundTrips dict (by simp [registerStep, write])
    exact ⟨step.1, simulates.first, step.2⟩

/-- Every run of the two calls refines the abstract run, given that every map the abstract
run writes round-trips. -/
theorem runClients_simulates (calls : Call Flag Value × Call Flag Value) (clients : Clients)
    (register : Register Flag Value) (schedule : List Bool)
    (simulates : Simulates metadata maxHostIdScan base calls clients register)
    (roundTrips : ∀ dict ∈ (runRegister calls register schedule).writes, RoundTrips metadata dict) :
    Simulates metadata maxHostIdScan base calls (runClients metadata maxHostIdScan base calls clients schedule)
      (runRegister calls register schedule) := by
  induction schedule generalizing clients register with
  | nil => exact simulates
  | cons turn schedule ih =>
    exact ih _ _ (clientsStep_simulates metadata maxHostIdScan base calls clients register turn
      simulates fun dict mem => roundTrips dict
        ((writes_runRegister calls (registerStep calls register turn) schedule).subset mem))
      roundTrips

theorem done_of_matches (call : Call Flag Value) (phase : Phase)
    (matching : Matches metadata call phase .written) : phase = .done := by
  cases phase <;> simp only [Matches] at matching
  rfl

end Interleaving

theorem interleavings_of_count (schedule : List Bool)
    (twoEach : schedule.count false = 2 ∧ schedule.count true = 2) :
    schedule = [false, false, true, true] ∨ schedule = [false, true, false, true] ∨
      schedule = [false, true, true, false] ∨ schedule = [true, false, false, true] ∨
      schedule = [true, false, true, false] ∨ schedule = [true, true, false, false] := by
  have length : schedule.length = 4 := by
    rw [← List.count_not_add_count schedule true]
    simp [twoEach.1, twoEach.2]
  match schedule, length with
  | [first, second, third, fourth], _ =>
    revert twoEach
    cases first <;> cases second <;> cases third <;> cases fourth <;> decide

section LastWriter

variable (maxHostIdScan base : Nat)

/-- Two calls of `set_global_md_flag`, each a read request and then a write request, served by
the broker in any of the six orders, every system call succeeding: both calls finish, and slot 0
reads as the map of the call that wrote last, which is the map it read with its flag set. That
map holds the other call's update only when the other call wrote before this one read: the two
serial orders keep both updates, the four others keep only the last writer's. -/
theorem setGlobalMdFlag_last_writer_wins (calls : Call Flag Value × Call Flag Value)
    (storage : Bytes) (initial : MdDict Flag Value)
    (decoded : slotDict metadata maxHostIdScan base storage = .ok initial)
    (roundTrips : ∀ dict ∈ [setItem initial calls.1.flag calls.1.putVal,
        setItem initial calls.2.flag calls.2.putVal,
        setItem (setItem initial calls.1.flag calls.1.putVal) calls.2.flag calls.2.putVal,
        setItem (setItem initial calls.2.flag calls.2.putVal) calls.1.flag calls.1.putVal],
      RoundTrips metadata dict)
    (schedule : List Bool) (twoEach : schedule.count false = 2 ∧ schedule.count true = 2) :
    (runClients metadata maxHostIdScan base calls ⟨storage, .ready, .ready⟩ schedule).first =
        .done ∧
      (runClients metadata maxHostIdScan base calls ⟨storage, .ready, .ready⟩ schedule).second =
        .done ∧
      slotDict metadata maxHostIdScan base
          (runClients metadata maxHostIdScan base calls ⟨storage, .ready, .ready⟩ schedule).storage =
        .ok (if schedule = [false, false, true, true] then
              setItem (setItem initial calls.1.flag calls.1.putVal) calls.2.flag calls.2.putVal
            else if schedule = [true, true, false, false] then
              setItem (setItem initial calls.2.flag calls.2.putVal) calls.1.flag calls.1.putVal
            else if schedule.getLast? = some true then setItem initial calls.2.flag calls.2.putVal
            else setItem initial calls.1.flag calls.1.putVal) := by
  have finish : ∀ schedule,
      (∀ dict ∈ (runRegister calls ⟨initial, .ready, .ready, []⟩ schedule).writes,
        RoundTrips metadata dict) →
      (runRegister calls ⟨initial, .ready, .ready, []⟩ schedule).first = .written →
      (runRegister calls ⟨initial, .ready, .ready, []⟩ schedule).second = .written →
      (runClients metadata maxHostIdScan base calls ⟨storage, .ready, .ready⟩ schedule).first =
          .done ∧
        (runClients metadata maxHostIdScan base calls ⟨storage, .ready, .ready⟩ schedule).second =
          .done ∧
        slotDict metadata maxHostIdScan base
            (runClients metadata maxHostIdScan base calls ⟨storage, .ready, .ready⟩ schedule).storage =
          .ok (runRegister calls ⟨initial, .ready, .ready, []⟩ schedule).slot := by
    intro schedule trips firstWritten secondWritten
    obtain ⟨slot, first, second⟩ := runClients_simulates metadata maxHostIdScan base calls
      ⟨storage, .ready, .ready⟩ ⟨initial, .ready, .ready, []⟩ schedule ⟨decoded, trivial, trivial⟩
      trips
    rw [firstWritten] at first
    rw [secondWritten] at second
    exact ⟨done_of_matches metadata _ _ first, done_of_matches metadata _ _ second, slot⟩
  rcases interleavings_of_count schedule twoEach with rfl | rfl | rfl | rfl | rfl | rfl
  all_goals
    refine finish _ (fun dict mem => roundTrips dict ?_) rfl rfl
    simp only [runRegister, List.foldl, registerStep, viewStep, Option.toList, List.append_nil,
      List.nil_append, List.singleton_append, List.mem_cons, List.mem_singleton,
      List.not_mem_nil, or_false] at mem ⊢
    rcases mem with rfl | rfl <;> simp

end LastWriter

/-- Two calls setting distinct known flags of a codec that round-trips, on a metadata file
with no slot 0 yet, served in the order read, read, write, write: slot 0 ends holding only the
second call's flag. -/
theorem setGlobalMdFlag_loses_update :
    (∀ dict, bitMetadata.parse (bitMetadata.create dict) = .ok dict) ∧
      putValue bitMetadata false true = .ok true ∧ putValue bitMetadata true true = .ok true ∧
      slotDict bitMetadata 0 0 [] = .ok [] ∧
      slotDict bitMetadata 0 0 (runClients bitMetadata 0 0 (⟨false, true⟩, ⟨true, true⟩)
        ⟨[], .ready, .ready⟩ [false, true, false, true]).storage = .ok [(true, true)] := by
  have empty : slotDict bitMetadata 0 0 [] = .ok [] := slotDict_of_absent bitMetadata 0 0 [] rfl
  refine ⟨fun dict => by simpa using bitParse_create_append dict [] rfl, rfl, rfl, empty, ?_⟩
  exact (runClients_simulates bitMetadata 0 0 _ ⟨[], .ready, .ready⟩ ⟨[], .ready, .ready, []⟩
    [false, true, false, true] ⟨empty, trivial, trivial⟩ fun dict mem => by
      simp only [runRegister, List.foldl, registerStep, viewStep, Option.toList, List.append_nil,
        List.nil_append, List.singleton_append, List.mem_cons, List.mem_singleton,
        List.not_mem_nil, or_false] at mem
      rcases mem with rfl | rfl <;>
        exact roundTrips_bitMetadata _ (by simp [setItem]) (by simp [setItem, hostSegmentBytes])).slot

theorem setGlobalMdFlag_last_writer_wins_bits :
    slotDict bitMetadata 0 0 [] = .ok [] ∧
      (∀ dict ∈ [setItem [] false true, setItem [] true true,
          setItem (setItem [] false true) true true, setItem (setItem [] true true) false true],
        RoundTrips bitMetadata dict) ∧
      ([false, true, false, true].count false = 2 ∧ [false, true, false, true].count true = 2) ∧
      (runClients bitMetadata 0 0 (⟨false, true⟩, ⟨true, true⟩) ⟨[], .ready, .ready⟩
          [false, true, false, true]).first = .done ∧
      (runClients bitMetadata 0 0 (⟨false, true⟩, ⟨true, true⟩) ⟨[], .ready, .ready⟩
          [false, true, false, true]).second = .done ∧
      slotDict bitMetadata 0 0 (runClients bitMetadata 0 0 (⟨false, true⟩, ⟨true, true⟩)
          ⟨[], .ready, .ready⟩ [false, true, false, true]).storage =
        .ok (if [false, true, false, true] = [false, false, true, true] then
              setItem (setItem [] false true) true true
            else if [false, true, false, true] = [true, true, false, false] then
              setItem (setItem [] true true) false true
            else if [false, true, false, true].getLast? = some true then setItem [] true true
            else setItem [] false true) := by
  have empty : slotDict bitMetadata 0 0 [] = .ok [] := slotDict_of_absent bitMetadata 0 0 [] rfl
  have roundTrips : ∀ dict ∈ [setItem [] false true, setItem [] true true,
      setItem (setItem [] false true) true true, setItem (setItem [] true true) false true],
      RoundTrips bitMetadata dict := by
    intro dict mem
    simp only [List.mem_cons, List.not_mem_nil, or_false] at mem
    rcases mem with rfl | rfl | rfl | rfl <;>
      exact roundTrips_bitMetadata _ (by simp [setItem]) (by simp [setItem, hostSegmentBytes])
  have twoEach : [false, true, false, true].count false = 2 ∧
      [false, true, false, true].count true = 2 := by decide
  exact ⟨empty, roundTrips, twoEach, setGlobalMdFlag_last_writer_wins bitMetadata 0 0
    (⟨false, true⟩, ⟨true, true⟩) [] [] empty roundTrips _ twoEach⟩

end HostedEngineHa.Client
