import HostedEngineHa.IscsiIfaces
import HostedEngineHa.StorageServer

/-! `StorageServer._get_conlist`: the connection parameters of the storage domain by domain
type, each iSCSI connection with the id of its own `uuid.uuid4()` call. -/
namespace HostedEngineHa.StorageServer

/-! ### `os.path.normpath` -/

/-- The loop of `posixpath.normpath` over the components of a path, `kept` being `new_comps`
with its last component first. A `'..'` pops the last kept component, but is kept at the start
of a relative path or after another `'..'`, and is dropped at the root. -/
def normComps (rooted : Bool) : List (List Char) → List (List Char) → List (List Char)
  | kept, [] => kept
  | kept, comp :: comps =>
    if comp = [] ∨ comp = ['.'] then normComps rooted kept comps
    else if comp ≠ ['.', '.'] ∨ (rooted = false ∧ kept = []) ∨ kept.head? = some ['.', '.'] then
      normComps rooted (comp :: kept) comps
    else normComps rooted kept.tail comps

/-- Python 2's `posixpath.normpath(path)`: one or two leading slashes are kept, three or more
become one. -/
def normpath (path : List Char) : List Char :=
  if path = [] then ['.']
  else
    let initialSlashes :=
      if ['/'].isPrefixOf path then
        if ['/', '/'].isPrefixOf path && !(['/', '/', '/'].isPrefixOf path) then 2 else 1
      else 0
    let joined := List.replicate initialSlashes '/' ++
      ['/'].intercalate (normComps (initialSlashes != 0) [] (splitOn ['/'] path)).reverse
    if joined = [] then ['.'] else joined

/-! ### The settings and the connection parameters -/

/-- Modelled from the spec: the values of `constants.DOMAIN_TYPE_*`. -/
def domainTypeNfs : List Char := ['n', 'f', 's']
def domainTypeNfs3 : List Char := ['n', 'f', 's', '3']
def domainTypeNfs4 : List Char := ['n', 'f', 's', '4']
def domainTypeGlusterfs : List Char := ['g', 'l', 'u', 's', 't', 'e', 'r', 'f', 's']
def domainTypePosixfs : List Char := ['p', 'o', 's', 'i', 'x', 'f', 's']
def domainTypeIscsi : List Char := ['i', 's', 'c', 's', 'i']
def domainTypeFc : List Char := ['f', 'c']

/-- The `constants.STORAGE_TYPE_*` a connection is made with. -/
inductive StorageType where
  | nfs
  | posixfs
  | glusterfs
  | iscsi
  | fc
  deriving DecidableEq, Repr

/-- The settings of `StorageServer` that `_get_conlist` reads. An optional setting that is
missing is `none`. -/
structure Settings where
  domainType : List Char
  storage : List Char
  connectionUUID : List Char
  iqn : List Char
  portal : List Char
  user : List Char
  password : List Char
  port : List Char
  mntOptions : Option (List Char)
  nfsVersion : Option (List Char)
  iscsiPathsBlacklist : List (List Char × List Char)
  deriving DecidableEq, Repr

/-- An entry of `conList`, by the keys it can have; a key the entry lacks is `none`. -/
structure ConnectionParams where
  connection : List Char
  id : List Char
  user : List Char
  iqn : Option (List Char) := none
  tpgt : Option (List Char) := none
  password : Option (List Char) := none
  port : Option (List Char) := none
  netIfaceName : Option (List Char) := none
  ifaceName : Option (List Char) := none
  protocolVersion : Option (List Char) := none
  vfsType : Option (List Char) := none
  mntOptions : Option (List Char) := none
  deriving DecidableEq, Repr

/-- What `_get_conlist` and `connect_storage_server` raise. -/
inductive ConnectError where
  | runtimeError (message : String)
  | duplicateStorageConnection (message : String)
  | unicodeDecodeError (error : UnicodeDecodeError)
  deriving DecidableEq, Repr

/-! ### File domains -/

/-- `text.replace(old, new)` for a one-character `old`. -/
def replaceChar (old : Char) (new text : List Char) : List Char :=
  text.flatMap fun c => if c = old then new else [c]

/-- The `protocol_version` of an `nfs` domain: `'auto'` with no `nfs_version`, otherwise the
version without its `'v'`s and with `'.'` for `'_'`. -/
def protocolVersion : Option (List Char) → List Char
  | none | some [] => ['a', 'u', 't', 'o']
  | some version => replaceChar '_' ['.'] (replaceChar 'v' [] version)

/-- `_get_conlist_nfs_gluster()`: one connection to `_storage`, with the protocol version or the
file system type of the domain. -/
def getConlistNfsGluster (s : Settings) : List ConnectionParams × Option StorageType :=
  let conDict : ConnectionParams :=
    { connection := s.storage, user := ['k', 'v', 'm'], id := s.connectionUUID }
  if s.domainType = domainTypeNfs then
    ([{ conDict with protocolVersion := some (protocolVersion s.nfsVersion) }], some .nfs)
  else if s.domainType = domainTypeNfs3 then
    ([{ conDict with protocolVersion := some ['3'] }], some .nfs)
  else if s.domainType = domainTypeNfs4 then
    ([{ conDict with protocolVersion := some ['4'] }], some .nfs)
  else if s.domainType = domainTypePosixfs then
    ([{ conDict with vfsType := some ['c', 'e', 'p', 'h'] }], some .posixfs)
  else if s.domainType = domainTypeGlusterfs then
    ([{ conDict with vfsType := some ['g', 'l', 'u', 's', 't', 'e', 'r', 'f', 's'] }], some .glusterfs)
  else ([conDict], none)

/-- What `_get_conlist` learns from outside this class: `env_path.canonize_file_path` for the
domain, the path `env_path.get_domain_path` reports when `StorageDomain.getInfo` finds the
domain (`none` when it raises `ServerError`), and the first element of
`env_path.get_mount_target`, if any. -/
structure HostPaths where
  canonizeFilePath : List Char → List Char
  domainPath : Option (List Char)
  mountTarget : Option (List Char)

/-- `_validate_pre_connected_path(cli, path)`: a domain already mounted must be mounted on the
canonical form of the path. -/
def validatePreConnectedPath (host : HostPaths) (path : List Char) : Except ConnectError Unit :=
  match host.domainPath with
  | none => .ok ()
  | some effectivePath =>
    let canonicalPath := host.canonizeFilePath path
    if effectivePath ≠ canonicalPath then
      .error (.duplicateStorageConnection ("The hosted-engine storage domain is already " ++
        "mounted on '" ++ String.mk effectivePath ++ "' with a path that is " ++
        "not supported anymore: the right path should be '" ++ String.mk canonicalPath ++ "'."))
    else .ok ()

def setConnection (path : List Char) : List ConnectionParams → List ConnectionParams :=
  List.modifyHead fun con => { con with connection := path }

/-- `if normalize_path:` in the file branches of `_get_conlist`: the connection becomes
`_fix_filebased_connection_path()`, which is checked against a mount made before. -/
def normalizeConnection (host : HostPaths) (s : Settings) (normalizePath : Bool)
    (conList : List ConnectionParams) : Except ConnectError (List ConnectionParams) :=
  if normalizePath then
    let path := normpath s.storage
    (validatePreConnectedPath host path).map fun _ => setConnection path conList
  else .ok conList

/-! ### iSCSI domains -/

/-- An entry of `ip_port_iqn_list`, or of `ip_port_list` with the single iqn's settings. -/
structure IscsiTarget where
  ip : List Char
  port : List Char
  iqn : List Char
  tpgt : List Char
  user : List Char
  password : List Char
  deriving DecidableEq, Repr

/-- The targets: with a `','` in the iqn, the six settings split on `','` and zipped; otherwise
the addresses and ports zipped, each with the single iqn's settings. `zip` stops at the
shortest list. -/
def iscsiTargets (s : Settings) : List IscsiTarget :=
  if ',' ∈ s.iqn then
    ((((((splitOn [','] s.storage).zip (splitOn [','] s.port)).zip (splitOn [','] s.iqn)).zip
      (splitOn [','] s.portal)).zip (splitOn [','] s.user)).zip (splitOn [','] s.password)).map
      fun ⟨⟨⟨⟨⟨ip, port⟩, iqn⟩, tpgt⟩, user⟩, password⟩ => ⟨ip, port, iqn, tpgt, user, password⟩
  else
    ((splitOn [','] s.storage).zip (splitOn [','] s.port)).map fun ⟨ip, port⟩ =>
      ⟨ip, port, s.iqn, s.portal, s.user, s.password⟩

theorem splitOn_comma_of_free (piece : List Char) (noComma : ',' ∉ piece) :
    splitOn [','] piece = [piece] := by
  simpa [splitOn, splitFrom_nil] using splitFrom_append [','] [] piece [] (comma_free piece [] noComma)

/-- The inner loop of `_get_conlist_iscsi`, over the targets for interface `i`. The `n`-th
`uuid.uuid4()` gives the `n`-th connection built its id, whether it is then skipped or not. -/
def conlistTargets (uuids : Nat → List Char) (blacklist : List (List Char × List Char))
    (i : Iface) (n : Nat) : List IscsiTarget → List ConnectionParams
  | [] => []
  | x :: xs =>
    let con : ConnectionParams :=
      { connection := x.ip, iqn := some x.iqn, tpgt := some x.tpgt, user := x.user,
        password := some x.password, id := uuids n, port := some x.port }
    match i.netIfaceName, i.ifaceName with
    | some netIfaceName, some ifaceName =>
      if (ifaceName, x.ip) ∈ blacklist then conlistTargets uuids blacklist i (n + 1) xs
      else { con with netIfaceName := some netIfaceName, ifaceName := some ifaceName } ::
        conlistTargets uuids blacklist i (n + 1) xs
    | _, _ => con :: conlistTargets uuids blacklist i (n + 1) xs

/-- The outer loop of `_get_conlist_iscsi`, over the interfaces. -/
def conlistIfaces (uuids : Nat → List Char) (blacklist : List (List Char × List Char))
    (targets : List IscsiTarget) (n : Nat) : List Iface → List ConnectionParams
  | [] => []
  | i :: ifaces => conlistTargets uuids blacklist i n targets ++
    conlistIfaces uuids blacklist targets (n + targets.length) ifaces

/-- The run of `sudo iscsiadm -m iface` that `_get_iscsi_ifaces` reads. -/
structure IscsiadmRun where
  rc : Int
  stdout : Bytes
  stderr : Bytes
  deriving DecidableEq, Repr

/-- `_get_conlist_iscsi()`. -/
def getConlistIscsi (uuids : Nat → List Char) (iscsiadm : IscsiadmRun) (s : Settings) :
    Except UnicodeDecodeError (List ConnectionParams × Option StorageType) :=
  (getIscsiIfaces iscsiadm.rc iscsiadm.stdout iscsiadm.stderr).map fun ifaces =>
    (conlistIfaces uuids s.iscsiPathsBlacklist (iscsiTargets s) 0 ifaces, some .iscsi)

/-! ### `_get_conlist` -/

/-- `conList[0]['mnt_options'] = self._mnt_options`, done when the options are set and not
empty and the list is not empty. -/
def setMntOptions (mntOptions : Option (List Char)) (conList : List ConnectionParams) :
    List ConnectionParams :=
  match mntOptions with
  | some (c :: options) => conList.modifyHead fun con => { con with mntOptions := some (c :: options) }
  | _ => conList

/-- The dispatch of `_get_conlist(cli, normalize_path)` on the domain type. -/
def conlistOfDomainType (host : HostPaths) (uuids : Nat → List Char) (iscsiadm : IscsiadmRun)
    (s : Settings) (normalizePath : Bool) :
    Except ConnectError (List ConnectionParams × Option StorageType) :=
  if s.domainType ∈ [domainTypeNfs, domainTypeNfs3, domainTypeNfs4, domainTypeGlusterfs] then
    let (conList, storageType) := getConlistNfsGluster s
    (normalizeConnection host s normalizePath conList).map fun conList => (conList, storageType)
  else if s.domainType = domainTypePosixfs then
    let (conList, storageType) := getConlistNfsGluster s
    (normalizeConnection host s normalizePath conList).map fun conList =>
      match host.mountTarget with
      | none => (setConnection s.storage conList, storageType)
      | some target => (setConnection target conList, storageType)
  else if s.domainType = domainTypeIscsi then
    (getConlistIscsi uuids iscsiadm s).mapError .unicodeDecodeError
  else if s.domainType = domainTypeFc then .ok ([], some .fc)
  else .error (.runtimeError ("Storage type not supported: '" ++ String.mk s.domainType ++ "'"))

/-- `_get_conlist(cli, normalize_path)`: the dispatch, then the mount options on the first
connection. -/
def getConlist (host : HostPaths) (uuids : Nat → List Char) (iscsiadm : IscsiadmRun)
    (s : Settings) (normalizePath : Bool) :
    Except ConnectError (List ConnectionParams × Option StorageType) := do
  let (conList, storageType) ← conlistOfDomainType host uuids iscsiadm s normalizePath
  return (setMntOptions s.mntOptions conList, storageType)

/-! ### The iSCSI connections -/

def path (con : ConnectionParams) : Option (List Char) × List Char := (con.ifaceName, con.connection)

def listed (blacklist : List (List Char × List Char)) : Option (List Char) × List Char → Bool
  | (some ifaceName, connection) => decide ((ifaceName, connection) ∈ blacklist)
  | (none, _) => false

def boundName (i : Iface) : Option (List Char) :=
  match i.netIfaceName, i.ifaceName with
  | some _, some ifaceName => some ifaceName
  | _, _ => none

/-- The connection the loop builds for interface `i` and target `x`, with id `id`, before it
looks at the blacklist. -/
def builtConnection (i : Iface) (x : IscsiTarget) (id : List Char) : ConnectionParams :=
  let con : ConnectionParams :=
    { connection := x.ip, iqn := some x.iqn, tpgt := some x.tpgt, user := x.user,
      password := some x.password, id := id, port := some x.port }
  match i.netIfaceName, i.ifaceName with
  | some netIfaceName, some ifaceName =>
    { con with netIfaceName := some netIfaceName, ifaceName := some ifaceName }
  | _, _ => con

@[simp] theorem id_builtConnection (i : Iface) (x : IscsiTarget) (id : List Char) :
    (builtConnection i x id).id = id := by
  obtain ⟨_ | _, _ | _⟩ := i <;> rfl

theorem path_builtConnection (i : Iface) (x : IscsiTarget) (id : List Char) :
    path (builtConnection i x id) = (boundName i, x.ip) := by
  obtain ⟨_ | _, _ | _⟩ := i <;> rfl

@[simp] theorem listed_nil (p : Option (List Char) × List Char) : listed [] p = false := by
  obtain ⟨_ | _, _⟩ := p <;> rfl

theorem conlistTargets_cons (uuids : Nat → List Char) (blacklist : List (List Char × List Char))
    (i : Iface) (n : Nat) (x : IscsiTarget) (targets : List IscsiTarget) :
    conlistTargets uuids blacklist i n (x :: targets) =
      (if listed blacklist (boundName i, x.ip) then [] else [builtConnection i x (uuids n)]) ++
        conlistTargets uuids blacklist i (n + 1) targets := by
  obtain ⟨_ | ifaceName, _ | netIfaceName⟩ := i
  · rfl
  · rfl
  · rfl
  · by_cases skipped : (ifaceName, x.ip) ∈ blacklist <;>
      simp [conlistTargets, builtConnection, boundName, path, listed, skipped]

/-- The blacklist only drops connections: the inner loop builds what it builds with no
blacklist, with the same ids, less the connections whose path is listed. -/
theorem conlistTargets_eq_filter (uuids : Nat → List Char)
    (blacklist : List (List Char × List Char)) (i : Iface) (n : Nat) (targets : List IscsiTarget) :
    conlistTargets uuids blacklist i n targets =
      (conlistTargets uuids [] i n targets).filter fun con => !listed blacklist (path con) := by
  induction targets generalizing n with
  | nil => rfl
  | cons x targets ih =>
    rw [conlistTargets_cons, conlistTargets_cons, listed_nil, ih]
    by_cases skipped : listed blacklist (boundName i, x.ip) <;> simp [skipped, path_builtConnection]

theorem conlistIfaces_eq_filter (uuids : Nat → List Char)
    (blacklist : List (List Char × List Char)) (targets : List IscsiTarget) (n : Nat)
    (ifaces : List Iface) :
    conlistIfaces uuids blacklist targets n ifaces =
      (conlistIfaces uuids [] targets n ifaces).filter fun con => !listed blacklist (path con) := by
  induction ifaces generalizing n with
  | nil => rfl
  | cons i ifaces ih =>
    rw [conlistIfaces, conlistIfaces, ih, conlistTargets_eq_filter, List.filter_append]

/-- The `n`-th `uuid4()` call is the `n`-th connection built, so the connections' ids are the
calls' values in order. -/
theorem ids_conlistIfaces (uuids : Nat → List Char) (targets : List IscsiTarget) (n : Nat)
    (ifaces : List Iface) :
    (conlistIfaces uuids [] targets n ifaces).map (·.id) =
      (List.range' n (ifaces.length * targets.length)).map uuids := by
  induction ifaces generalizing n with
  | nil => rw [List.length_nil, Nat.zero_mul]; rfl
  | cons i ifaces ih =>
    have inner : ∀ n, (conlistTargets uuids [] i n targets).map (·.id) =
        (List.range' n targets.length).map uuids := by
      clear ih
      induction targets with
      | nil => exact fun _ => rfl
      | cons x targets ih =>
        intro n
        rw [conlistTargets_cons, listed_nil, if_neg Bool.false_ne_true, List.singleton_append,
          List.map_cons, ih, id_builtConnection, List.length_cons, List.range'_succ, List.map_cons]
    rw [conlistIfaces, List.map_append, ih, inner, ← List.map_append, List.range'_append_1,
      List.length_cons, Nat.succ_mul]

theorem nodup_ids_conlistIfaces (uuids : Nat → List Char) (fresh : Function.Injective uuids)
    (blacklist : List (List Char × List Char)) (targets : List IscsiTarget) (n : Nat)
    (ifaces : List Iface) : ((conlistIfaces uuids blacklist targets n ifaces).map (·.id)).Nodup := by
  rw [conlistIfaces_eq_filter]
  refine List.Nodup.sublist ((List.filter_sublist _).map _) ?_
  rw [ids_conlistIfaces]
  exact List.Pairwise.map uuids (fun _ _ different same => different (fresh same))
    (List.nodup_range' _ _)

/-! ### What `_get_conlist` builds -/

theorem exists_of_map_eq_ok {ε α β : Type} {e : Except ε α} {f : α → β} {b : β}
    (mapped : e.map f = .ok b) : ∃ a, e = .ok a ∧ f a = b := by
  cases e with
  | error => cases mapped
  | ok a => exact ⟨a, rfl, Except.ok.inj mapped⟩

theorem map_modifyHead {β : Type} (f : ConnectionParams → β)
    (g : ConnectionParams → ConnectionParams) (kept : ∀ con, f (g con) = f con)
    (conList : List ConnectionParams) : (conList.modifyHead g).map f = conList.map f := by
  cases conList with
  | nil => rfl
  | cons con conList => rw [List.modifyHead_cons, List.map_cons, List.map_cons, kept]

def idIface (con : ConnectionParams) : List Char × Option (List Char) := (con.id, con.ifaceName)

theorem map_idIface_setConnection (path : List Char) (conList : List ConnectionParams) :
    (setConnection path conList).map idIface = conList.map idIface := by
  exact map_modifyHead idIface (fun con => { con with connection := path }) (fun _ => rfl) conList

theorem map_idIface_normalizeConnection (host : HostPaths) (s : Settings) (normalizePath : Bool)
    (conList normalized : List ConnectionParams)
    (ok : normalizeConnection host s normalizePath conList = .ok normalized) :
    normalized.map idIface = conList.map idIface := by
  unfold normalizeConnection at ok
  split at ok
  · obtain ⟨_, -, rfl⟩ := exists_of_map_eq_ok ok
    exact map_idIface_setConnection _ conList
  · cases ok
    rfl

theorem getConlistNfsGluster_shape (s : Settings) :
    ∃ con storageType, getConlistNfsGluster s = ([con], storageType) ∧
      con.connection = s.storage ∧ idIface con = (s.connectionUUID, none) ∧
      storageType ≠ some .iscsi := by
  unfold getConlistNfsGluster
  by_cases nfs : s.domainType = domainTypeNfs
  · rw [if_pos nfs]; exact ⟨_, _, rfl, rfl, rfl, nofun⟩
  rw [if_neg nfs]
  by_cases nfs3 : s.domainType = domainTypeNfs3
  · rw [if_pos nfs3]; exact ⟨_, _, rfl, rfl, rfl, nofun⟩
  rw [if_neg nfs3]
  by_cases nfs4 : s.domainType = domainTypeNfs4
  · rw [if_pos nfs4]; exact ⟨_, _, rfl, rfl, rfl, nofun⟩
  rw [if_neg nfs4]
  by_cases posixfs : s.domainType = domainTypePosixfs
  · rw [if_pos posixfs]; exact ⟨_, _, rfl, rfl, rfl, nofun⟩
  rw [if_neg posixfs]
  by_cases glusterfs : s.domainType = domainTypeGlusterfs
  · rw [if_pos glusterfs]; exact ⟨_, _, rfl, rfl, rfl, nofun⟩
  rw [if_neg glusterfs]; exact ⟨_, _, rfl, rfl, rfl, nofun⟩

theorem getConlistNfsGluster_idIface (s : Settings) :
    (getConlistNfsGluster s).1.map idIface = [(s.connectionUUID, none)] ∧
      (getConlistNfsGluster s).2 ≠ some .iscsi := by
  obtain ⟨con, storageType, shape, -, ids, other⟩ := getConlistNfsGluster_shape s
  rw [shape, List.map_singleton, ids]
  exact ⟨rfl, other⟩

theorem conlistOfDomainType_ok (host : HostPaths) (uuids : Nat → List Char)
    (iscsiadm : IscsiadmRun) (s : Settings) (normalizePath : Bool)
    (conList : List ConnectionParams) (storageType : Option StorageType)
    (built : conlistOfDomainType host uuids iscsiadm s normalizePath = .ok (conList, storageType)) :
    (conList.map idIface = [(s.connectionUUID, none)] ∧ storageType ≠ some .iscsi) ∨
      (s.domainType = domainTypeIscsi ∧ storageType = some .iscsi ∧ ∃ ifaces,
        getIscsiIfaces iscsiadm.rc iscsiadm.stdout iscsiadm.stderr = .ok ifaces ∧
          conList = conlistIfaces uuids s.iscsiPathsBlacklist (iscsiTargets s) 0 ifaces) ∨
      (conList = [] ∧ storageType = some .fc) := by
  obtain ⟨fileIds, fileType⟩ := getConlistNfsGluster_idIface s
  unfold conlistOfDomainType at built
  by_cases file : s.domainType ∈ [domainTypeNfs, domainTypeNfs3, domainTypeNfs4, domainTypeGlusterfs]
  · rw [if_pos file] at built
    obtain ⟨normalized, ok, same⟩ := exists_of_map_eq_ok built
    cases same
    exact .inl ⟨(map_idIface_normalizeConnection host s _ _ _ ok).trans fileIds, fileType⟩
  rw [if_neg file] at built
  by_cases posixfs : s.domainType = domainTypePosixfs
  · rw [if_pos posixfs] at built
    obtain ⟨normalized, ok, same⟩ := exists_of_map_eq_ok built
    have kept := (map_idIface_normalizeConnection host s _ _ _ ok).trans fileIds
    refine .inl ?_
    split at same <;> cases same <;> exact ⟨(map_idIface_setConnection _ _).trans kept, fileType⟩
  rw [if_neg posixfs] at built
  by_cases iscsi : s.domainType = domainTypeIscsi
  · rw [if_pos iscsi] at built
    cases found : getIscsiIfaces iscsiadm.rc iscsiadm.stdout iscsiadm.stderr with
    | error e =>
      rw [getConlistIscsi, found] at built
      cases built
    | ok ifaces =>
      rw [getConlistIscsi, found] at built
      cases built
      exact .inr (.inl ⟨iscsi, rfl, ifaces, rfl, rfl⟩)
  rw [if_neg iscsi] at built
  by_cases fc : s.domainType = domainTypeFc
  · rw [if_pos fc] at built
    cases built
    exact .inr (.inr ⟨rfl, rfl⟩)
  · rw [if_neg fc] at built
    cases built

theorem getConlist_eq_map (host : HostPaths) (uuids : Nat → List Char) (iscsiadm : IscsiadmRun)
    (s : Settings) (normalizePath : Bool) :
    getConlist host uuids iscsiadm s normalizePath =
      (conlistOfDomainType host uuids iscsiadm s normalizePath).map fun built =>
        (setMntOptions s.mntOptions built.1, built.2) := by
  rw [getConlist]
  cases conlistOfDomainType host uuids iscsiadm s normalizePath <;> rfl

theorem map_setMntOptions {β : Type} (f : ConnectionParams → β)
    (kept : ∀ con options, f { con with mntOptions := options } = f con)
    (mntOptions : Option (List Char)) (conList : List ConnectionParams) :
    (setMntOptions mntOptions conList).map f = conList.map f := by
  unfold setMntOptions
  split
  · exact map_modifyHead f _ (fun con => kept con _) conList
  · rfl

theorem exists_conlistOfDomainType_of_getConlist (host : HostPaths) (uuids : Nat → List Char)
    (iscsiadm : IscsiadmRun) (s : Settings) (normalizePath : Bool) (conList : List ConnectionParams)
    (storageType : Option StorageType)
    (built : getConlist host uuids iscsiadm s normalizePath = .ok (conList, storageType)) :
    ∃ raw, conlistOfDomainType host uuids iscsiadm s normalizePath = .ok (raw, storageType) ∧
      conList = setMntOptions s.mntOptions raw := by
  rw [getConlist_eq_map] at built
  obtain ⟨⟨raw, _⟩, ok, same⟩ := exists_of_map_eq_ok built
  cases same
  exact ⟨raw, ok, rfl⟩

theorem nodup_ids_conlistOfDomainType (host : HostPaths) (uuids : Nat → List Char)
    (fresh : Function.Injective uuids) (iscsiadm : IscsiadmRun) (s : Settings)
    (normalizePath : Bool) (conList : List ConnectionParams) (storageType : Option StorageType)
    (built : conlistOfDomainType host uuids iscsiadm s normalizePath = .ok (conList, storageType)) :
    (conList.map (·.id)).Nodup := by
  rcases conlistOfDomainType_ok host uuids iscsiadm s normalizePath _ _ built with
    ⟨file, -⟩ | ⟨-, -, ifaces, -, rfl⟩ | ⟨rfl, -⟩
  · have ids : conList.map (·.id) = (conList.map idIface).map Prod.fst := by rw [List.map_map]; rfl
    rw [ids, file]
    exact List.pairwise_singleton _ _
  · exact nodup_ids_conlistIfaces uuids fresh _ _ _ _
  · exact List.nodup_nil

/-- While `uuid4()` never repeats a value, the connections `_get_conlist` builds have distinct
ids, for every domain type and whatever the blacklist skips, so `connect_storage_server` can
tell them apart by id. -/
theorem nodup_ids_getConlist (host : HostPaths) (uuids : Nat → List Char)
    (fresh : Function.Injective uuids) (iscsiadm : IscsiadmRun) (s : Settings)
    (normalizePath : Bool) (conList : List ConnectionParams) (storageType : Option StorageType)
    (built : getConlist host uuids iscsiadm s normalizePath = .ok (conList, storageType)) :
    (conList.map (·.id)).Nodup := by
  obtain ⟨raw, ok, rfl⟩ :=
    exists_conlistOfDomainType_of_getConlist host uuids iscsiadm s normalizePath _ _ built
  rw [map_setMntOptions (·.id) (fun _ _ => rfl)]
  exact nodup_ids_conlistOfDomainType host uuids fresh iscsiadm s normalizePath _ _ ok

def plainHost : HostPaths := ⟨fun path => path, none, none⟩

def countingUuids (n : Nat) : List Char := List.replicate n 'u'

theorem countingUuids_injective : Function.Injective countingUuids := fun m n same => by
  simpa [countingUuids] using congrArg List.length same

def threeIfaceRun : IscsiadmRun :=
  ⟨0, asciiBytes (listing [⟨['a'], ['h'], ['i'], ['e'], ['q']⟩, ⟨['b'], ['h'], ['i'], ['e'], ['q']⟩,
    ⟨['c'], ['h'], ['i'], ['e'], ['q']⟩]), []⟩

def oneTargetSettings : Settings :=
  ⟨domainTypeIscsi, ['t'], [], ['q'], ['1'], ['u'], ['w'], ['p'], none, none, []⟩

def threeIfaceList : List ConnectionParams :=
  conlistIfaces countingUuids [] [⟨['t'], ['p'], ['q'], ['1'], ['u'], ['w']⟩] 0
    [⟨some ['a'], some ['e']⟩, ⟨some ['b'], some ['e']⟩, ⟨some ['c'], some ['e']⟩]

theorem getConlist_threeIfaceRun :
    getConlist plainHost countingUuids threeIfaceRun oneTargetSettings true =
      .ok (threeIfaceList, some .iscsi) := by
  have targets : iscsiTargets oneTargetSettings = [⟨['t'], ['p'], ['q'], ['1'], ['u'], ['w']⟩] := by
    rw [iscsiTargets, if_neg (by decide), splitOn_comma_of_free _ (by decide),
      splitOn_comma_of_free _ (by decide)]
    rfl
  rw [getConlist_eq_map, conlistOfDomainType, if_neg (by decide), if_neg (by decide),
    if_pos (show oneTargetSettings.domainType = domainTypeIscsi from rfl), getConlistIscsi, targets]
  rfl

theorem nodup_ids_getConlist_threeIfaces :
    Function.Injective countingUuids ∧
      getConlist plainHost countingUuids threeIfaceRun oneTargetSettings true =
        .ok (threeIfaceList, some .iscsi) ∧
      (threeIfaceList.map (·.id)).Nodup :=
  ⟨countingUuids_injective, getConlist_threeIfaceRun,
    nodup_ids_getConlist plainHost countingUuids countingUuids_injective threeIfaceRun
      oneTargetSettings true _ _ getConlist_threeIfaceRun⟩

theorem conlistOfDomainType_of_ne_iscsi (host : HostPaths) (uuids : Nat → List Char)
    (iscsiadm : IscsiadmRun) (s : Settings) (normalizePath : Bool)
    (blacklist : List (List Char × List Char)) (other : s.domainType ≠ domainTypeIscsi) :
    conlistOfDomainType host uuids iscsiadm { s with iscsiPathsBlacklist := blacklist } normalizePath =
      conlistOfDomainType host uuids iscsiadm s normalizePath := by
  unfold conlistOfDomainType
  simp only [if_neg other]
  rfl

theorem filter_listed_of_file (blacklist : List (List Char × List Char))
    (conList : List ConnectionParams) (uuid : List Char)
    (file : conList.map idIface = [(uuid, none)]) :
    conList.filter (fun con => !listed blacklist (path con)) = conList := by
  refine List.filter_eq_self.mpr fun con member => ?_
  have single := List.mem_map_of_mem idIface member
  rw [file, List.mem_singleton] at single
  rw [path, show con.ifaceName = none from congrArg Prod.snd single]
  rfl

theorem conlistOfDomainType_blacklist (host : HostPaths) (uuids : Nat → List Char)
    (iscsiadm : IscsiadmRun) (s : Settings) (normalizePath : Bool) :
    conlistOfDomainType host uuids iscsiadm s normalizePath =
      (conlistOfDomainType host uuids iscsiadm { s with iscsiPathsBlacklist := [] } normalizePath).map
        fun built => (built.1.filter fun con => !listed s.iscsiPathsBlacklist (path con), built.2) := by
  by_cases iscsi : s.domainType = domainTypeIscsi
  · have notFile : s.domainType ∉
        [domainTypeNfs, domainTypeNfs3, domainTypeNfs4, domainTypeGlusterfs] := by
      rw [iscsi]; decide
    have notPosixfs : s.domainType ≠ domainTypePosixfs := by rw [iscsi]; decide
    unfold conlistOfDomainType
    dsimp only
    simp only [if_neg notFile, if_neg notPosixfs, if_pos iscsi, getConlistIscsi]
    cases getIscsiIfaces iscsiadm.rc iscsiadm.stdout iscsiadm.stderr with
    | error e => rfl
    | ok ifaces =>
      show Except.ok (conlistIfaces uuids s.iscsiPathsBlacklist _ 0 ifaces, _) = Except.ok (_, _)
      rw [conlistIfaces_eq_filter]
      rfl
  · rw [conlistOfDomainType_of_ne_iscsi host uuids iscsiadm s normalizePath [] iscsi]
    cases built : conlistOfDomainType host uuids iscsiadm s normalizePath with
    | error e => rfl
    | ok result =>
      obtain ⟨conList, storageType⟩ := result
      rcases conlistOfDomainType_ok host uuids iscsiadm s normalizePath _ _ built with
        ⟨file, -⟩ | ⟨same, -⟩ | ⟨rfl, -⟩
      · show _ = Except.ok (_, _)
        rw [filter_listed_of_file _ _ _ file]
      · exact absurd same iscsi
      · rfl

def idPath (con : ConnectionParams) : List Char × (Option (List Char) × List Char) :=
  (con.id, path con)

theorem map_getConlist {β : Type} (host : HostPaths) (uuids : Nat → List Char)
    (iscsiadm : IscsiadmRun) (s : Settings) (normalizePath : Bool) (g : List ConnectionParams → β)
    (kept : ∀ conList, g (setMntOptions s.mntOptions conList) = g conList) :
    (getConlist host uuids iscsiadm s normalizePath).map (fun built => (g built.1, built.2)) =
      (conlistOfDomainType host uuids iscsiadm s normalizePath).map fun built => (g built.1, built.2) := by
  rw [getConlist_eq_map]
  cases conlistOfDomainType host uuids iscsiadm s normalizePath with
  | error e => rfl
  | ok built => exact congrArg (fun conList => Except.ok (conList, built.2)) (kept built.1)

theorem conlistOfDomainType_map_idPath (host : HostPaths) (uuids : Nat → List Char)
    (iscsiadm : IscsiadmRun) (s : Settings) (normalizePath : Bool) :
    (conlistOfDomainType host uuids iscsiadm s normalizePath).map
        (fun built => (built.1.map idPath, built.2)) =
      (conlistOfDomainType host uuids iscsiadm { s with iscsiPathsBlacklist := [] } normalizePath).map
        fun built => ((built.1.map idPath).filter (fun p => !listed s.iscsiPathsBlacklist p.2), built.2) := by
  rw [conlistOfDomainType_blacklist host uuids iscsiadm s]
  cases conlistOfDomainType host uuids iscsiadm { s with iscsiPathsBlacklist := [] } normalizePath with
  | error e => rfl
  | ok built =>
    show Except.ok (_, _) = Except.ok (_, _)
    rw [List.filter_map]
    rfl

theorem setConnection_setConnection (path path' : List Char) (conList : List ConnectionParams) :
    setConnection path' (setConnection path conList) = setConnection path' conList := by
  cases conList <;> rfl

/-- For a `posixfs` domain the connection sent is the mount target, or `_storage` as written:
the normalised path is checked against an earlier mount but never sent, so with the check
passed `normalize_path` changes nothing. -/
theorem getConlist_posixfs (host : HostPaths) (uuids : Nat → List Char) (iscsiadm : IscsiadmRun)
    (s : Settings) (posixfs : s.domainType = domainTypePosixfs) :
    getConlist host uuids iscsiadm s true =
        (validatePreConnectedPath host (normpath s.storage) >>= fun _ =>
          getConlist host uuids iscsiadm s false) ∧
      ∃ conList, getConlist host uuids iscsiadm s false = .ok (conList, some .posixfs) ∧
        conList.map (·.connection) = [host.mountTarget.getD s.storage] := by
  have notFile : s.domainType ∉
      [domainTypeNfs, domainTypeNfs3, domainTypeNfs4, domainTypeGlusterfs] := by
    rw [posixfs]; decide
  have single : getConlistNfsGluster s =
      ([({ connection := s.storage, user := ['k', 'v', 'm'], id := s.connectionUUID,
           vfsType := some ['c', 'e', 'p', 'h'] } : ConnectionParams)], some .posixfs) := by
    unfold getConlistNfsGluster
    rw [posixfs]
    rfl
  have dispatch : ∀ normalizePath, conlistOfDomainType host uuids iscsiadm s normalizePath =
      (normalizeConnection host s normalizePath (getConlistNfsGluster s).1).map fun conList =>
        (setConnection (host.mountTarget.getD s.storage) conList, some .posixfs) := by
    intro normalizePath
    rw [conlistOfDomainType, if_neg notFile, if_pos posixfs, single]
    cases host.mountTarget <;> rfl
  rw [getConlist_eq_map, getConlist_eq_map, dispatch, dispatch, single]
  refine ⟨?_, _, rfl, ?_⟩
  · simp only [normalizeConnection, ite_true, Bool.false_eq_true, ite_false]
    cases validatePreConnectedPath host (normpath s.storage) <;> rfl
  · rw [map_setMntOptions (·.connection) (fun _ _ => rfl)]
    rfl

def posixfsSettings : Settings :=
  ⟨domainTypePosixfs, ['/', 's', '/'], ['c'], [], [], [], [], [], none, none, []⟩

theorem getConlist_posixfs_trailing_slash :
    posixfsSettings.domainType = domainTypePosixfs ∧
      (getConlist plainHost countingUuids threeIfaceRun posixfsSettings true =
          (validatePreConnectedPath plainHost (normpath posixfsSettings.storage) >>= fun _ =>
            getConlist plainHost countingUuids threeIfaceRun posixfsSettings false) ∧
        ∃ conList, getConlist plainHost countingUuids threeIfaceRun posixfsSettings false =
            .ok (conList, some .posixfs) ∧
          conList.map (·.connection) = [plainHost.mountTarget.getD posixfsSettings.storage]) :=
  ⟨rfl, getConlist_posixfs plainHost countingUuids threeIfaceRun posixfsSettings rfl⟩

end HostedEngineHa.StorageServer
