import Mathlib.Data.List.Basic
import Mathlib.Data.List.Infix

/-! `FilesystemBackend.connect` and `create` over a filesystem held as a list of entries;
`os.symlink` fails on a path that exists. -/
namespace HostedEngineHa.FilesystemBackend

abbrev Path := List String

/-- What a path holds. A file's contents are not modelled: `create` only makes empty files. -/
inductive Entry where
  | directory
  | file
  | link (target : Path)
  deriving DecidableEq, Repr

abbrev Fs := List (Path × Entry)

def lookup : Fs → Path → Option Entry
  | [], _ => none
  | (key, entry) :: fs, path => if key = path then some entry else lookup fs path

inductive Errno where
  | enoent
  | enotdir
  | eexist
  | eisdir
  deriving DecidableEq, Repr

def childName : Path → Path → Option String
  | [], [name] => some name
  | first :: directory, component :: path =>
    if first = component then childName directory path else none
  | _, _ => none

/-- `os.listdir(directory)`, in the order the entries are held. -/
def listdir (fs : Fs) (directory : Path) : Except Errno (List String) :=
  match lookup fs directory with
  | some .directory => .ok (fs.filterMap fun entry => childName directory entry.1)
  | some _ => .error .enotdir
  | none => .error .enoent

/-- `os.access(path, os.F_OK)`. -/
def access (fs : Fs) (path : Path) : Bool := (lookup fs path).isSome

/-- `os.symlink(target, path)`: fails with `EEXIST` on a path that exists. -/
def symlink (fs : Fs) (target path : Path) : Except Errno Fs :=
  match lookup fs path, lookup fs path.dropLast with
  | some _, _ => .error .eexist
  | none, some .directory => .ok ((path, .link target) :: fs)
  | none, some _ => .error .enotdir
  | none, none => .error .enoent

/-- `open(path, "w")`: an existing file is truncated, a new one is made in an existing
directory. -/
def openForWrite (fs : Fs) (path : Path) : Except Errno Fs :=
  match lookup fs path, lookup fs path.dropLast with
  | some .directory, _ => .error .eisdir
  | some _, _ => .ok fs
  | none, some .directory => .ok ((path, .file) :: fs)
  | none, some _ => .error .enotdir
  | none, none => .error .enoent

/-- Modelled from the spec ("ensure the metadata directory exists"): `util.mkdir_recursive`
makes every missing directory along the path, outermost first, as `os.makedirs` does, and
accepts one that is already there. Directories made before a failure stay. -/
def mkdirFrom (fs : Fs) (done : Path) : Path → Fs × Except Errno Unit
  | [] => (fs, .ok ())
  | name :: rest =>
    match lookup fs (done ++ [name]) with
    | none => mkdirFrom ((done ++ [name], .directory) :: fs) (done ++ [name]) rest
    | some .directory => mkdirFrom fs (done ++ [name]) rest
    | some _ => (fs, .error (if rest = [] then .eexist else .enotdir))

def mkdirRecursive (fs : Fs) (path : Path) : Fs × Except Errno Unit := mkdirFrom fs [] path

/-- A path as `os.path.join` writes it. -/
def pathText (path : Path) : String := "/" ++ "/".intercalate path

structure Backend where
  sdUuid : String
  domType : String
  lvBased : Bool
  storagePath : Option Path
  deriving DecidableEq, Repr

/-- `FilesystemBackend(sd_uuid, dom_type)`. -/
def Backend.init (sdUuid domType : String) : Backend := ⟨sdUuid, domType, false, none⟩

/-- How `connect` and `create` fail: an `OSError`, the `Exception` of `get_domain_path`, or the
`TypeError` of `f.write(0)` (Python 2 files take only strings) and the `AttributeError` of
`os.path.join(None, service)` before any `connect`. -/
inductive FsError where
  | os (errno : Errno)
  | exception (message : String)
  | typeError
  | attributeError
  deriving DecidableEq, Repr

/-- The loop of `get_domain_path` over `os.listdir(parent)`: the first child holding an entry
named `sd_uuid`, and whether that child is `blockSD`. -/
def findDomain (fs : Fs) (parent : Path) (sdUuid : String) : List String → Option (Path × Bool)
  | [] => none
  | dname :: names =>
    if access fs (parent ++ [dname, sdUuid]) then
      some (parent ++ [dname, sdUuid], decide (dname = "blockSD"))
    else findDomain fs parent sdUuid names

theorem lookup_append_of_not_mem (extra fs : Fs) (path : Path)
    (absent : ∀ entry ∈ extra, entry.1 ≠ path) : lookup (extra ++ fs) path = lookup fs path := by
  induction extra with
  | nil => rfl
  | cons entry extra ih =>
    obtain ⟨key, value⟩ := entry
    have other : key ≠ path := absent _ (List.mem_cons_self _ _)
    rw [List.cons_append, lookup, if_neg other]
    exact ih fun entry mem => absent entry (List.mem_cons_of_mem _ mem)

theorem lookup_append_eq_none (extra fs : Fs) (path : Path)
    (absent : lookup (extra ++ fs) path = none) : lookup fs path = none := by
  induction extra with
  | nil => exact absent
  | cons entry extra ih =>
    simp only [List.cons_append, lookup] at absent
    split at absent
    · cases absent
    · exact ih absent

theorem isSome_lookup_of_mem (fs : Fs) (entry : Path × Entry) (mem : entry ∈ fs) :
    (lookup fs entry.1).isSome := by
  induction fs with
  | nil => cases mem
  | cons head fs ih =>
    simp only [lookup]
    split
    · rfl
    · rename_i other
      rcases List.mem_cons.mp mem with rfl | inTail
      · exact absurd rfl other
      · exact ih inTail

theorem isSome_lookup_cons (fs : Fs) (key path : Path) (entry : Entry)
    (present : (lookup fs path).isSome) : (lookup ((key, entry) :: fs) path).isSome := by
  simp only [lookup]
  split <;> simp [present]

theorem childName_eq_some (directory path : Path) (name : String) :
    childName directory path = some name ↔ path = directory ++ [name] := by
  induction directory generalizing path with
  | nil => rcases path with _ | ⟨component, _ | ⟨next, rest⟩⟩ <;> simp [childName]
  | cons first directory ih =>
    cases path with
    | nil => simp [childName]
    | cons component path =>
      by_cases same : first = component
      · simp [childName, same, ih]
      · simp [childName, same, Ne.symm same]

theorem length_of_childName (directory path : Path) (name : String)
    (child : childName directory path = some name) : path.length = directory.length + 1 := by
  simp [(childName_eq_some directory path name).mp child]

theorem listdir_eq_ok (fs : Fs) (directory : Path) (names : List String)
    (listed : listdir fs directory = .ok names) :
    lookup fs directory = some .directory ∧
      names = fs.filterMap fun entry => childName directory entry.1 := by
  simp only [listdir] at listed
  split at listed
  · rename_i isDirectory
    exact ⟨isDirectory, (Except.ok.inj listed).symm⟩
  all_goals cases listed

theorem isSome_lookup_of_mem_listdir (fs : Fs) (directory : Path) (names : List String)
    (name : String) (listed : listdir fs directory = .ok names) (mem : name ∈ names) :
    (lookup fs (directory ++ [name])).isSome := by
  rw [(listdir_eq_ok fs directory names listed).2, List.mem_filterMap] at mem
  obtain ⟨entry, inFs, child⟩ := mem
  rw [← (childName_eq_some _ _ _).mp child]
  exact isSome_lookup_of_mem fs entry inFs

/-- `after` is `before` with new entries in front, each at a path `before` does not have and
that `allowed` admits: how `connect` changes the filesystem. -/
def Extends (allowed : Path → Prop) (before after : Fs) : Prop :=
  ∃ extra : Fs, after = extra ++ before ∧
    ∀ entry ∈ extra, lookup before entry.1 = none ∧ allowed entry.1

namespace Extends

variable {allowed allowed' : Path → Prop} {before middle after : Fs}

theorem refl (allowed : Path → Prop) (fs : Fs) : Extends allowed fs fs :=
  ⟨[], rfl, by simp⟩

theorem cons {fs : Fs} {path : Path} (absent : lookup fs path = none) (admitted : allowed path)
    (entry : Entry) : Extends allowed fs ((path, entry) :: fs) :=
  ⟨[(path, entry)], rfl, by simp [absent, admitted]⟩

theorem trans (first : Extends allowed before middle) (second : Extends allowed middle after) :
    Extends allowed before after := by
  obtain ⟨extra, rfl, new⟩ := first
  obtain ⟨more, rfl, newer⟩ := second
  refine ⟨more ++ extra, by simp, fun entry mem => ?_⟩
  rcases List.mem_append.mp mem with inMore | inExtra
  · exact ⟨lookup_append_eq_none _ _ _ (newer entry inMore).1, (newer entry inMore).2⟩
  · exact new entry inExtra

theorem mono (weaker : ∀ path, allowed path → allowed' path) (grows : Extends allowed before after) :
    Extends allowed' before after := by
  obtain ⟨extra, rfl, new⟩ := grows
  exact ⟨extra, rfl, fun entry mem => ⟨(new entry mem).1, weaker _ (new entry mem).2⟩⟩

theorem lookup_of_eq_some {path : Path} {entry : Entry} (grows : Extends allowed before after)
    (present : lookup before path = some entry) : lookup after path = some entry := by
  obtain ⟨extra, rfl, new⟩ := grows
  rw [lookup_append_of_not_mem _ _ _ fun new' mem same => by
    have absent := (new new' mem).1
    rw [same, present] at absent
    cases absent]
  exact present

theorem isSome_lookup {path : Path} (grows : Extends allowed before after)
    (present : (lookup before path).isSome) : (lookup after path).isSome := by
  obtain ⟨entry, found⟩ := Option.isSome_iff_exists.mp present
  rw [grows.lookup_of_eq_some found]
  rfl

theorem lookup_eq {path : Path} (grows : Extends allowed before after)
    (outside : lookup before path = none → ¬ allowed path) : lookup after path = lookup before path := by
  obtain ⟨extra, rfl, new⟩ := grows
  exact lookup_append_of_not_mem _ _ _ fun entry mem same =>
    outside (same ▸ (new entry mem).1) (same ▸ (new entry mem).2)

theorem listdir_eq {directory : Path} {names : List String} (grows : Extends allowed before after)
    (noChild : ∀ path, lookup before path = none → allowed path → childName directory path = none)
    (listed : listdir before directory = .ok names) : listdir after directory = .ok names := by
  obtain ⟨isDirectory, rfl⟩ := listdir_eq_ok _ _ _ listed
  have stays := grows.lookup_of_eq_some isDirectory
  obtain ⟨extra, rfl, new⟩ := grows
  simp only [listdir, stays, List.filterMap_append,
    List.filterMap_eq_nil_iff.mpr fun entry mem => noChild _ (new entry mem).1 (new entry mem).2,
    List.nil_append]

theorem listdir_subset {directory : Path} {names : List String}
    (grows : Extends allowed before after) (listed : listdir before directory = .ok names) :
    ∃ names', listdir after directory = .ok names' ∧ ∀ name ∈ names, name ∈ names' := by
  obtain ⟨isDirectory, rfl⟩ := listdir_eq_ok _ _ _ listed
  have stays := grows.lookup_of_eq_some isDirectory
  obtain ⟨extra, rfl, -⟩ := grows
  refine ⟨(extra ++ before).filterMap fun entry => childName directory entry.1,
    by simp only [listdir, stays], fun name mem => ?_⟩
  rw [List.filterMap_append]
  exact List.mem_append_right _ mem

end Extends

theorem symlink_eq_ok (fs fs' : Fs) (target path : Path) (linked : symlink fs target path = .ok fs') :
    lookup fs path = none ∧ fs' = (path, .link target) :: fs := by
  simp only [symlink] at linked
  split at linked
  · cases linked
  · rename_i absent _
    exact ⟨absent, (Except.ok.inj linked).symm⟩
  all_goals cases linked

theorem symlink_of_parent (fs : Fs) (target path : Path)
    (parent : lookup fs path.dropLast = some .directory) :
    symlink fs target path =
      if (lookup fs path).isSome then .error .eexist else .ok ((path, .link target) :: fs) := by
  simp only [symlink, parent]
  cases lookup fs path <;> rfl

/-- What `mkdir_recursive` does when it returns: it adds directories along the path only, and
leaves a directory at each of its prefixes. -/
theorem mkdirFrom_ok (fs fs' : Fs) (done rest : Path) (made : mkdirFrom fs done rest = (fs', .ok ())) :
    Extends (fun path => path <+: done ++ rest) fs fs' ∧
      ∀ k, 0 < k → k ≤ rest.length → lookup fs' (done ++ rest.take k) = some .directory := by
  induction rest generalizing fs done with
  | nil =>
    obtain rfl : fs = fs' := congrArg Prod.fst made
    exact ⟨Extends.refl _ _, fun k positive bound => by simp at bound; omega⟩
  | cons name rest ih =>
    have shift : done ++ [name] ++ rest = done ++ name :: rest := by simp
    have below : ∀ (fs'' : Fs), (∀ k, 0 < k → k ≤ rest.length →
        lookup fs'' (done ++ [name] ++ rest.take k) = some .directory) →
        lookup fs'' (done ++ [name]) = some .directory →
        ∀ k, 0 < k → k ≤ rest.length + 1 →
          lookup fs'' (done ++ (name :: rest).take k) = some .directory := by
      intro fs'' deeper first k positive bound
      rcases k with _ | _ | k
      · omega
      · simpa using first
      · simpa using deeper (k + 1) (by omega) (by omega)
    simp only [mkdirFrom] at made
    split at made
    · rename_i absent
      obtain ⟨grows, deeper⟩ := ih _ _ made
      rw [shift] at grows
      refine ⟨(Extends.cons absent ⟨rest, by simp⟩ _).trans grows,
        below fs' deeper (grows.lookup_of_eq_some (by simp [lookup]))⟩
    · rename_i isDirectory
      obtain ⟨grows, deeper⟩ := ih _ _ made
      rw [shift] at grows
      exact ⟨grows, below fs' deeper (grows.lookup_of_eq_some isDirectory)⟩
    · simp at made

theorem mkdirFrom_of_directories (fs : Fs) (done rest : Path)
    (directories : ∀ k, 0 < k → k ≤ rest.length →
      lookup fs (done ++ rest.take k) = some .directory) :
    mkdirFrom fs done rest = (fs, .ok ()) := by
  induction rest generalizing done with
  | nil => rfl
  | cons name rest ih =>
    have first : lookup fs (done ++ [name]) = some .directory := by
      simpa using directories 1 (by omega) (by simp)
    simp only [mkdirFrom, first]
    exact ih _ fun k positive bound => by
      simpa using directories (k + 1) (by omega) (by simp; omega)

/-! `SD_MOUNT_PARENT` and `SD_METADATA_DIR` come from `env/constants`, which is not part of the
source, so they are parameters. -/
section Backend

variable (sdMountParent : Path) (sdMetadataDir : String)

def domainParent (domType : String) : Path :=
  if domType = "glusterfs" then sdMountParent ++ ["glusterSD"] else sdMountParent

/-- `get_domain_path(sd_uuid, dom_type)`: the domain's path, and whether it is LV-based. -/
def getDomainPath (fs : Fs) (sdUuid domType : String) : Except FsError (Path × Bool) :=
  let parent := domainParent sdMountParent domType
  match listdir fs parent with
  | .error errno => .error (.os errno)
  | .ok names =>
    match findDomain fs parent sdUuid names with
    | some found => .ok found
    | none => .error (.exception
        ("path to storage domain " ++ sdUuid ++ " not found in " ++ pathText parent))

/-- `SD_METADATA_DIR + "-"`, the prefix of the logical volumes `connect` links. -/
def lvPrefix : List Char := (sdMetadataDir ++ "-").toList

/-- `lv.split(SD_METADATA_DIR + "-", 1)[-1]` for an `lv` that starts with the prefix. -/
def serviceOf (lv : String) : String := String.mk (lv.toList.drop (lvPrefix sdMetadataDir).length)

/-- The loop of `connect` over `os.listdir("/dev/<sd_uuid>")`: a symlink for every LV named
with the prefix. Links made before a failure stay. -/
def linkVolumes (sdUuid : String) (storagePath : Path) (fs : Fs) :
    List String → Fs × Except Errno Unit
  | [] => (fs, .ok ())
  | lv :: lvs =>
    if (lvPrefix sdMetadataDir).isPrefixOf lv.toList then
      match symlink fs ["dev", sdUuid, lv] (storagePath ++ [serviceOf sdMetadataDir lv]) with
      | .error errno => (fs, .error errno)
      | .ok fs => linkVolumes sdUuid storagePath fs lvs
    else linkVolumes sdUuid storagePath fs lvs

/-- `connect()`: the backend's fields afterwards, the filesystem, and how it ends. -/
def connect (backend : Backend) (fs : Fs) : Backend × Fs × Except FsError Unit :=
  let backend := { backend with lvBased := false }
  match getDomainPath sdMountParent fs backend.sdUuid backend.domType with
  | .error error => (backend, fs, .error error)
  | .ok (domainPath, lvBased) =>
    let storagePath := domainPath ++ [sdMetadataDir]
    let backend := { backend with lvBased, storagePath := some storagePath }
    match mkdirRecursive fs storagePath with
    | (fs, .error errno) => (backend, fs, .error (.os errno))
    | (fs, .ok ()) =>
      if !lvBased then (backend, fs, .ok ())
      else
        match listdir fs ["dev", backend.sdUuid] with
        | .error errno => (backend, fs, .error (.os errno))
        | .ok lvs =>
          let (fs, result) := linkVolumes sdMetadataDir backend.sdUuid storagePath fs lvs
          (backend, fs, result.mapError .os)

/-- The loop of `create` over `service_map.iteritems()`. `lvcreate` is the effect of
`lvm lvcreate` on the filesystem, whose exit status the source ignores. -/
def createServices (lvcreate : Fs → String → String → Nat → Fs) (backend : Backend) :
    Fs → List (String × Nat) → Fs × Except FsError Unit
  | fs, [] => (fs, .ok ())
  | fs, (service, size) :: services =>
    match backend.storagePath with
    | none => (fs, .error .attributeError)
    | some storagePath =>
      if backend.lvBased then
        createServices lvcreate backend
          (lvcreate fs backend.sdUuid (sdMetadataDir ++ "-" ++ service) size) services
      else
        match openForWrite fs (storagePath ++ [service]) with
        | .error errno => (fs, .error (.os errno))
        | .ok fs =>
          if size = 0 then createServices lvcreate backend fs services
          else (fs, .error .typeError)

/-- `create(service_map)`: the services, then `disconnect()` (which does nothing) and
`connect()` to refresh the links. -/
def create (lvcreate : Fs → String → String → Nat → Fs) (backend : Backend) (fs : Fs)
    (serviceMap : List (String × Nat)) : Backend × Fs × Except FsError Unit :=
  match createServices sdMetadataDir lvcreate backend fs serviceMap with
  | (fs, .error error) => (backend, fs, .error error)
  | (fs, .ok ()) => connect sdMountParent sdMetadataDir backend fs

end Backend

section Connect

variable (sdMountParent : Path) (sdMetadataDir : String)

theorem findDomain_congr (fs fs' : Fs) (parent : Path) (sdUuid : String) (names : List String)
    (same : ∀ dname, access fs' (parent ++ [dname, sdUuid]) = access fs (parent ++ [dname, sdUuid])) :
    findDomain fs' parent sdUuid names = findDomain fs parent sdUuid names := by
  induction names with
  | nil => rfl
  | cons dname names ih => simp only [findDomain, same, ih]

theorem findDomain_eq_some (fs : Fs) (parent : Path) (sdUuid : String) (names : List String)
    (path : Path) (lvBased : Bool) (found : findDomain fs parent sdUuid names = some (path, lvBased)) :
    ∃ dname ∈ names, path = parent ++ [dname, sdUuid] ∧ access fs path = true := by
  induction names with
  | nil => cases found
  | cons dname names ih =>
    simp only [findDomain] at found
    split at found
    · rename_i accessible
      obtain ⟨rfl, -⟩ := Prod.mk.inj (Option.some.inj found)
      exact ⟨dname, List.mem_cons_self _ _, rfl, accessible⟩
    · obtain ⟨other, mem, rfl, accessible⟩ := ih found
      exact ⟨other, List.mem_cons_of_mem _ mem, rfl, accessible⟩

theorem getDomainPath_eq_ok (fs : Fs) (sdUuid domType : String) (path : Path) (lvBased : Bool)
    (found : getDomainPath sdMountParent fs sdUuid domType = .ok (path, lvBased)) :
    ∃ names dname, listdir fs (domainParent sdMountParent domType) = .ok names ∧ dname ∈ names ∧
      path = domainParent sdMountParent domType ++ [dname, sdUuid] ∧ access fs path = true ∧
      findDomain fs (domainParent sdMountParent domType) sdUuid names = some (path, lvBased) := by
  simp only [getDomainPath] at found
  split at found
  · cases found
  · rename_i names listed
    split at found
    · rename_i result search
      obtain rfl := Except.ok.inj found
      obtain ⟨dname, mem, rfl, accessible⟩ := findDomain_eq_some _ _ _ _ _ _ search
      exact ⟨names, dname, listed, mem, rfl, accessible, search⟩
    · cases found

theorem getDomainPath_of_extends (allowed : Path → Prop) (fs fs' : Fs) (sdUuid domType : String)
    (path : Path) (lvBased : Bool)
    (found : getDomainPath sdMountParent fs sdUuid domType = .ok (path, lvBased))
    (grows : Extends allowed fs fs')
    (outside : ∀ q, lookup fs q = none → allowed q →
      q.length ≠ (domainParent sdMountParent domType).length + 1 ∧
        q.length ≠ (domainParent sdMountParent domType).length + 2) :
    getDomainPath sdMountParent fs' sdUuid domType = .ok (path, lvBased) := by
  obtain ⟨names, -, listed, -, -, -, search⟩ := getDomainPath_eq_ok _ _ _ _ _ _ found
  have listedAfter := grows.listdir_eq (fun q absent admitted => by
    cases child : childName (domainParent sdMountParent domType) q with
    | none => rfl
    | some name => exact absurd (length_of_childName _ _ _ child) (outside q absent admitted).1)
    listed
  have same : ∀ dname, access fs' (domainParent sdMountParent domType ++ [dname, sdUuid]) =
      access fs (domainParent sdMountParent domType ++ [dname, sdUuid]) := fun dname => by
    simp only [access]
    rw [grows.lookup_eq fun absent admitted => (outside _ absent admitted).2 (by simp)]
  simp only [getDomainPath, listedAfter, findDomain_congr _ _ _ _ _ same, search]

theorem connect_of_lvBased (backend : Backend) (fs made : Fs) (domainPath : Path)
    (lvs : List String)
    (found : getDomainPath sdMountParent fs backend.sdUuid backend.domType = .ok (domainPath, true))
    (madeOk : mkdirRecursive fs (domainPath ++ [sdMetadataDir]) = (made, .ok ()))
    (listed : listdir made ["dev", backend.sdUuid] = .ok lvs) :
    connect sdMountParent sdMetadataDir backend fs =
      ({ backend with lvBased := true, storagePath := some (domainPath ++ [sdMetadataDir]) },
        (linkVolumes sdMetadataDir backend.sdUuid (domainPath ++ [sdMetadataDir]) made lvs).1,
        (linkVolumes sdMetadataDir backend.sdUuid (domainPath ++ [sdMetadataDir]) made lvs).2.mapError
          .os) := by
  simp only [connect, found, madeOk, Bool.not_true, listed]
  rfl

theorem connect_eq_ok_of_lvBased (backend connected : Backend) (fs linked : Fs)
    (connectedOk : connect sdMountParent sdMetadataDir backend fs = (connected, linked, .ok ()))
    (lvBased : connected.lvBased = true) :
    ∃ domainPath made lvs,
      getDomainPath sdMountParent fs backend.sdUuid backend.domType = .ok (domainPath, true) ∧
      connected =
        { backend with lvBased := true, storagePath := some (domainPath ++ [sdMetadataDir]) } ∧
      mkdirRecursive fs (domainPath ++ [sdMetadataDir]) = (made, .ok ()) ∧
      listdir made ["dev", backend.sdUuid] = .ok lvs ∧
      linkVolumes sdMetadataDir backend.sdUuid (domainPath ++ [sdMetadataDir]) made lvs =
        (linked, .ok ()) := by
  simp only [connect] at connectedOk
  split at connectedOk
  · cases (Prod.mk.inj connectedOk).1 ▸ lvBased
  · rename_i domainPath isLvBased found
    split at connectedOk
    · cases (Prod.mk.inj (Prod.mk.inj connectedOk).2).2
    · rename_i made madeOk
      split at connectedOk
      · rename_i notLvBased
        rw [← (Prod.mk.inj connectedOk).1] at lvBased
        simp only [Bool.not_eq_true'] at notLvBased
        simp [notLvBased] at lvBased
      · split at connectedOk
        · cases (Prod.mk.inj (Prod.mk.inj connectedOk).2).2
        · rename_i isTrue _ lvs listed
          obtain rfl : isLvBased = true := by simpa using isTrue
          obtain ⟨rfl, linkedEq, result⟩ := (Prod.mk.inj connectedOk).imp_right Prod.mk.inj
          refine ⟨domainPath, made, lvs, found, rfl, madeOk, listed, ?_⟩
          rw [← linkedEq]
          revert result
          rcases linkVolumes sdMetadataDir backend.sdUuid (domainPath ++ [sdMetadataDir]) made lvs
            with ⟨fs', _ | _⟩ <;> intro result
          · cases result
          · rfl

theorem linkVolumes_ok (sdUuid : String) (storagePath : Path) (fs linked : Fs)
    (lvs : List String)
    (linkedOk : linkVolumes sdMetadataDir sdUuid storagePath fs lvs = (linked, .ok ())) :
    Extends (fun path => ∃ service, path = storagePath ++ [service]) fs linked ∧
      ∀ lv ∈ lvs, (lvPrefix sdMetadataDir).isPrefixOf lv.toList →
        (lookup linked (storagePath ++ [serviceOf sdMetadataDir lv])).isSome := by
  induction lvs generalizing fs with
  | nil =>
    obtain rfl : fs = linked := congrArg Prod.fst linkedOk
    exact ⟨Extends.refl _ _, by simp⟩
  | cons lv lvs ih =>
    simp only [linkVolumes] at linkedOk
    split at linkedOk
    · split at linkedOk
      · cases (Prod.mk.inj linkedOk).2
      · rename_i made symlinked
        obtain ⟨absent, rfl⟩ := symlink_eq_ok _ _ _ _ symlinked
        obtain ⟨grows, links⟩ := ih _ linkedOk
        refine ⟨(Extends.cons absent ⟨_, rfl⟩ _).trans grows, fun other mem named => ?_⟩
        rcases List.mem_cons.mp mem with rfl | inTail
        · exact grows.isSome_lookup (by simp [lookup])
        · exact links other inTail named
    · rename_i unnamed
      obtain ⟨grows, links⟩ := ih _ linkedOk
      refine ⟨grows, fun other mem named => ?_⟩
      rcases List.mem_cons.mp mem with rfl | inTail
      · exact absurd named unnamed
      · exact links other inTail named

/-- In an existing metadata directory, the link loop raises `EEXIST` as soon as one LV named
with the prefix has its link path taken. -/
theorem linkVolumes_eexist (sdUuid : String) (storagePath : Path) (fs : Fs) (lvs : List String)
    (directory : lookup fs storagePath = some .directory)
    (taken : ∃ lv ∈ lvs, (lvPrefix sdMetadataDir).isPrefixOf lv.toList ∧
      (lookup fs (storagePath ++ [serviceOf sdMetadataDir lv])).isSome) :
    (linkVolumes sdMetadataDir sdUuid storagePath fs lvs).2 = .error .eexist := by
  induction lvs generalizing fs with
  | nil => obtain ⟨lv, mem, -⟩ := taken; cases mem
  | cons lv lvs ih =>
    obtain ⟨other, mem, named, present⟩ := taken
    simp only [linkVolumes]
    split
    · rw [symlink_of_parent _ _ _ (by simpa using directory)]
      by_cases exists_ : (lookup fs (storagePath ++ [serviceOf sdMetadataDir lv])).isSome
      · simp only [exists_, if_true]
      · simp only [exists_]
        refine ih _ (by simpa [lookup] using directory) ?_
        rcases List.mem_cons.mp mem with rfl | inTail
        · exact absurd present exists_
        · exact ⟨other, inTail, named, isSome_lookup_cons _ _ _ _ present⟩
    · rename_i unnamed
      refine ih _ directory ?_
      rcases List.mem_cons.mp mem with rfl | inTail
      · exact absurd named unnamed
      · exact ⟨other, inTail, named, present⟩

theorem length_of_added (fs : Fs) (parent : Path) (dname sdUuid : String) (q : Path)
    (child : (lookup fs (parent ++ [dname])).isSome)
    (domain : access fs (parent ++ [dname, sdUuid]) = true) (absent : lookup fs q = none)
    (added : q <+: parent ++ [dname, sdUuid] ++ [sdMetadataDir] ∨
      ∃ service, q = parent ++ [dname, sdUuid] ++ [sdMetadataDir] ++ [service]) :
    q.length ≠ parent.length + 1 ∧ q.length ≠ parent.length + 2 := by
  rcases added with leading | ⟨service, rfl⟩
  · have taken : ∀ i, q.length = parent.length + i →
        q = parent ++ [dname, sdUuid, sdMetadataDir].take i := fun i length => by
      rw [List.prefix_iff_eq_take.mp leading, length, List.append_assoc, List.take_append]
      rfl
    refine ⟨fun length => ?_, fun length => ?_⟩
    · rw [taken 1 length] at absent
      exact Option.isSome_iff_ne_none.mp child absent
    · rw [taken 2 length] at absent
      exact Option.isSome_iff_ne_none.mp domain absent
  · simp only [List.length_append, List.length_cons, List.length_nil]
    omega

/-- A `connect` that linked a logical volume on an LV-based domain cannot be repeated: the next
`connect` finds the same domain and metadata directory and calls `os.symlink` on a link path
the first one made, which raises `OSError(EEXIST)`. So once a volume is linked, neither a
restart nor `create`, which reconnects, gets past `connect`. -/
theorem connect_again_raises_eexist (backend connected : Backend) (fs linked : Fs)
    (first : connect sdMountParent sdMetadataDir backend fs = (connected, linked, .ok ()))
    (lvBased : connected.lvBased = true)
    (volume : ∃ lvs, listdir fs ["dev", backend.sdUuid] = .ok lvs ∧
      ∃ lv ∈ lvs, (lvPrefix sdMetadataDir).isPrefixOf lv.toList) :
    (connect sdMountParent sdMetadataDir connected linked).2.2 = .error (.os .eexist) := by
  obtain ⟨domainPath, made, lvs, found, rfl, madeOk, listed, linkedOk⟩ :=
    connect_eq_ok_of_lvBased sdMountParent sdMetadataDir backend connected fs linked first lvBased
  obtain ⟨names, dname, listedParent, memName, rfl, accessible, -⟩ :=
    getDomainPath_eq_ok sdMountParent fs _ _ _ _ found
  obtain ⟨growsMade, directories⟩ := mkdirFrom_ok fs made [] _ madeOk
  obtain ⟨growsLinked, links⟩ := linkVolumes_ok sdMetadataDir _ _ made linked lvs linkedOk
  set parent := domainParent sdMountParent backend.domType
  set storagePath := parent ++ [dname, backend.sdUuid] ++ [sdMetadataDir]
  have grows : Extends (fun path => path <+: storagePath ∨
      ∃ service, path = storagePath ++ [service]) fs linked :=
    (growsMade.mono fun _ leading => .inl (by simpa using leading)).trans
      (growsLinked.mono fun _ link => .inr link)
  have outside : ∀ q, lookup fs q = none →
      (q <+: storagePath ∨ ∃ service, q = storagePath ++ [service]) →
      q.length ≠ parent.length + 1 ∧ q.length ≠ parent.length + 2 := fun q =>
    length_of_added sdMetadataDir fs parent dname backend.sdUuid q
      (isSome_lookup_of_mem_listdir _ _ _ _ listedParent memName) accessible
  have domainAgain := getDomainPath_of_extends sdMountParent _ fs linked _ _ _ _ found grows outside
  have directoriesLinked : ∀ k, 0 < k → k ≤ storagePath.length →
      lookup linked ([] ++ storagePath.take k) = some .directory := fun k positive bound =>
    growsLinked.lookup_of_eq_some (directories k positive bound)
  have storageDirectory : lookup linked storagePath = some .directory := by
    simpa using directoriesLinked storagePath.length (by simp [storagePath]) le_rfl
  obtain ⟨lvs₀, listed₀, lv, mem, named⟩ := volume
  obtain ⟨lvsMade, listedMade, subsetMade⟩ := growsMade.listdir_subset listed₀
  obtain rfl := Except.ok.inj (listed.symm.trans listedMade)
  obtain ⟨lvsLinked, listedLinked, subsetLinked⟩ := growsLinked.listdir_subset listed
  rw [connect_of_lvBased sdMountParent sdMetadataDir
    { backend with lvBased := true, storagePath := some storagePath } linked linked _ lvsLinked domainAgain
    (mkdirFrom_of_directories _ _ _ directoriesLinked) listedLinked]
  simp only [linkVolumes_eexist sdMetadataDir _ _ linked lvsLinked storageDirectory
    ⟨lv, subsetLinked lv (subsetMade lv mem), named, links lv (subsetMade lv mem) named⟩]
  rfl

theorem connect_eq_ok_of_fileBased (backend connected : Backend) (fs made : Fs)
    (connectedOk : connect sdMountParent sdMetadataDir backend fs = (connected, made, .ok ()))
    (fileBased : connected.lvBased = false) :
    ∃ storagePath, connected.storagePath = some storagePath ∧
      lookup made storagePath = some .directory := by
  simp only [connect] at connectedOk
  split at connectedOk
  · cases (Prod.mk.inj (Prod.mk.inj connectedOk).2).2
  · rename_i domainPath isLvBased found
    split at connectedOk
    · cases (Prod.mk.inj (Prod.mk.inj connectedOk).2).2
    · rename_i madeFs madeOk
      have directory := (mkdirFrom_ok fs madeFs [] _ madeOk).2 (domainPath ++ [sdMetadataDir]).length
        (by simp) le_rfl
      rw [List.take_length, List.nil_append] at directory
      split at connectedOk
      · obtain ⟨rfl, rfl, -⟩ := (Prod.mk.inj connectedOk).imp_right Prod.mk.inj
        exact ⟨_, rfl, directory⟩
      · rename_i lvBased
        simp only [Bool.not_eq_true', Bool.not_eq_false] at lvBased
        split at connectedOk <;>
        · rw [← (Prod.mk.inj connectedOk).1] at fileBased
          simp [lvBased] at fileBased

theorem openForWrite_eq_ok (fs : Fs) (path : Path)
    (parent : lookup fs path.dropLast = some .directory)
    (notDirectory : lookup fs path ≠ some .directory) :
    ∃ opened, openForWrite fs path = .ok opened ∧
      ∀ q, lookup opened q = some .directory ↔ lookup fs q = some .directory := by
  cases present : lookup fs path with
  | none =>
    refine ⟨(path, .file) :: fs, by simp [openForWrite, present, parent], fun q => ?_⟩
    by_cases same : path = q
    · subst same
      simp [lookup, present]
    · simp [lookup, same]
  | some entry =>
    cases entry with
    | directory => exact absurd present notDirectory
    | file => exact ⟨fs, by simp [openForWrite, present], fun q => Iff.rfl⟩
    | link target => exact ⟨fs, by simp [openForWrite, present], fun q => Iff.rfl⟩

/-- The loop of `create` on a file-based backend whose metadata directory is there: services
of size 0 get an empty file each, and the first one of non-zero size raises `TypeError` at
`f.write(0)`. -/
theorem createServices_typeError (lvcreate : Fs → String → String → Nat → Fs) (backend : Backend)
    (storagePath : Path) (fs : Fs) (serviceMap : List (String × Nat))
    (stored : backend.storagePath = some storagePath) (fileBased : backend.lvBased = false)
    (directory : lookup fs storagePath = some .directory)
    (noDirectory : ∀ entry ∈ serviceMap, lookup fs (storagePath ++ [entry.1]) ≠ some .directory)
    (sized : ∃ entry ∈ serviceMap, entry.2 ≠ 0) :
    (createServices sdMetadataDir lvcreate backend fs serviceMap).2 = .error .typeError := by
  induction serviceMap generalizing fs with
  | nil => obtain ⟨_, member, -⟩ := sized; cases member
  | cons entry serviceMap ih =>
    obtain ⟨service, size⟩ := entry
    obtain ⟨opened, openedOk, directories⟩ := openForWrite_eq_ok fs (storagePath ++ [service])
      (by rwa [List.dropLast_concat]) (noDirectory _ (List.mem_cons_self _ _))
    simp only [createServices, stored, fileBased, Bool.false_eq_true, if_false, openedOk]
    by_cases empty : size = 0
    · rw [if_pos empty]
      refine ih opened ((directories _).mpr directory)
        (fun other member => by
          rw [Ne, directories]; exact noDirectory other (List.mem_cons_of_mem _ member)) ?_
      obtain ⟨other, member, nonzero⟩ := sized
      rcases List.mem_cons.mp member with rfl | later
      · exact absurd empty nonzero
      · exact ⟨other, later, nonzero⟩
    · rw [if_neg empty]

/-- `create` on a file-based domain after `connect` does not return normally for a map with a
service of non-zero size: the first such service's `f.write(0)` raises `TypeError`, since
Python 2 files take only strings, so no file of that size is made. -/
theorem create_raises_typeError (lvcreate : Fs → String → String → Nat → Fs)
    (backend connected : Backend) (fs connectedFs : Fs) (serviceMap : List (String × Nat))
    (connectedOk : connect sdMountParent sdMetadataDir backend fs = (connected, connectedFs, .ok ()))
    (fileBased : connected.lvBased = false)
    (noDirectory : ∀ entry ∈ serviceMap, ∀ storagePath, connected.storagePath = some storagePath →
      lookup connectedFs (storagePath ++ [entry.1]) ≠ some .directory)
    (sized : ∃ entry ∈ serviceMap, entry.2 ≠ 0) :
    (create sdMountParent sdMetadataDir lvcreate connected connectedFs serviceMap).2.2 =
      .error .typeError := by
  obtain ⟨storagePath, stored, directory⟩ :=
    connect_eq_ok_of_fileBased sdMountParent sdMetadataDir backend connected fs connectedFs
      connectedOk fileBased
  have raised := createServices_typeError sdMetadataDir lvcreate connected storagePath connectedFs
    serviceMap stored fileBased directory
    (fun entry member => noDirectory entry member storagePath stored) sized
  simp only [create]
  revert raised
  rcases createServices sdMetadataDir lvcreate connected connectedFs serviceMap with ⟨_, _ | _⟩ <;>
    intro raised
  · cases raised
    rfl
  · cases raised

end Connect

/-- An LV-based domain `sd` under a mount parent `/rhev/data-center/mnt`, with one metadata
volume `ha_agent-hosted-engine.metadata` in `/dev/sd` and no metadata directory yet. -/
def oneVolumeDomain : Fs :=
  [(["rhev"], .directory), (["rhev", "data-center"], .directory),
    (["rhev", "data-center", "mnt"], .directory),
    (["rhev", "data-center", "mnt", "blockSD"], .directory),
    (["rhev", "data-center", "mnt", "blockSD", "sd"], .directory),
    (["dev"], .directory), (["dev", "sd"], .directory),
    (["dev", "sd", "ha_agent-hosted-engine.metadata"], .link ["dev", "dm-1"])]

theorem connect_again_on_oneVolumeDomain :
    connect ["rhev", "data-center", "mnt"] "ha_agent" (Backend.init "sd" "fcp") oneVolumeDomain =
        ((connect ["rhev", "data-center", "mnt"] "ha_agent" (Backend.init "sd" "fcp")
            oneVolumeDomain).1,
          (connect ["rhev", "data-center", "mnt"] "ha_agent" (Backend.init "sd" "fcp")
            oneVolumeDomain).2.1, .ok ()) ∧
      (connect ["rhev", "data-center", "mnt"] "ha_agent" (Backend.init "sd" "fcp")
        oneVolumeDomain).1.lvBased = true ∧
      listdir oneVolumeDomain ["dev", "sd"] = .ok ["ha_agent-hosted-engine.metadata"] ∧
      (lvPrefix "ha_agent").isPrefixOf "ha_agent-hosted-engine.metadata".toList = true ∧
      (connect ["rhev", "data-center", "mnt"] "ha_agent"
        (connect ["rhev", "data-center", "mnt"] "ha_agent" (Backend.init "sd" "fcp")
          oneVolumeDomain).1
        (connect ["rhev", "data-center", "mnt"] "ha_agent" (Backend.init "sd" "fcp")
          oneVolumeDomain).2.1).2.2 = .error (.os .eexist) :=
  ⟨rfl, rfl, rfl, rfl,
    connect_again_raises_eexist ["rhev", "data-center", "mnt"] "ha_agent" (Backend.init "sd" "fcp")
      _ oneVolumeDomain _ rfl rfl
      ⟨["ha_agent-hosted-engine.metadata"], rfl, _, List.mem_singleton_self _, rfl⟩⟩

def oneFileDomain : Fs :=
  [(["rhev"], .directory), (["rhev", "data-center"], .directory),
    (["rhev", "data-center", "mnt"], .directory),
    (["rhev", "data-center", "mnt", "server:_export"], .directory),
    (["rhev", "data-center", "mnt", "server:_export", "sd"], .directory)]

theorem create_raises_typeError_on_oneFileDomain :
    (create ["rhev", "data-center", "mnt"] "ha_agent" (fun fs _ _ _ => fs)
      (connect ["rhev", "data-center", "mnt"] "ha_agent" (Backend.init "sd" "nfs") oneFileDomain).1
      (connect ["rhev", "data-center", "mnt"] "ha_agent" (Backend.init "sd" "nfs")
        oneFileDomain).2.1
      [("hosted-engine.metadata", 1048576)]).2.2 = .error .typeError :=
  create_raises_typeError ["rhev", "data-center", "mnt"] "ha_agent" (fun fs _ _ _ => fs)
    (Backend.init "sd" "nfs") _ oneFileDomain _ _ rfl rfl
    (fun entry member storagePath stored => by
      obtain rfl := List.mem_singleton.mp member
      obtain rfl := Option.some.inj stored.symm
      decide)
    ⟨_, List.mem_singleton_self _, by decide⟩

end HostedEngineHa.FilesystemBackend
