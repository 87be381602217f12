import HostedEngineHa.Services
import Mathlib.Algebra.BigOperators.Group.List

/-! `BlockBackend.connect` and `disconnect`. The loop `for name, pieces in self._services`
unpacks the dict's keys, so Python values are modelled with their unpacking errors. -/
namespace HostedEngineHa.BlockBackend

/-- The Python values `connect` handles: byte strings, integers, and tuples or lists. -/
inductive PyValue where
  | str (bytes : Bytes)
  | int (value : Nat)
  | seq (items : List PyValue)
  deriving Repr

inductive PyError where
  | valueError
  | typeError
  deriving DecidableEq, Repr

/-- `iter(value)`: the one-character strings of a string, the items of a tuple or list; an
integer is not iterable. -/
def PyValue.iterate : PyValue → Except PyError (List PyValue)
  | .str bytes => .ok (bytes.map fun byte => .str [byte])
  | .int _ => .error .typeError
  | .seq items => .ok items

/-- `first, second = value`: exactly two items, or `ValueError`. -/
def PyValue.unpackPair (value : PyValue) : Except PyError (PyValue × PyValue) := do
  match ← value.iterate with
  | [first, second] => .ok (first, second)
  | _ => .error .valueError

def PyValue.formatInt : PyValue → Except PyError String
  | .int value => .ok (toString value)
  | _ => .error .typeError

/-- The loop of `compute_dm_table`, with the logical start reached so far. -/
def dmTableLines (blockDevName : String) : Nat → List PyValue → Except PyError (List String)
  | _, [] => .ok []
  | logStart, item :: items => do
    let (start, size) ← item.unpackPair
    let sizeText ← size.formatInt
    let startText ← start.formatInt
    let length ← match size with
      | .int length => .ok length
      | _ => .error .typeError
    let line := toString logStart ++ " " ++ sizeText ++ " linear " ++ blockDevName ++ " " ++
      startText
    return line :: (← dmTableLines blockDevName (logStart + length) items)

/-- `compute_dm_table(pieces)` on whatever `pieces` is. -/
def computeDmTable (blockDevName : String) (pieces : PyValue) : Except PyError String := do
  return "\n".intercalate (← dmTableLines blockDevName 0 (← pieces.iterate))

def piecesValue (pieces : List Piece) : PyValue :=
  .seq (pieces.map fun piece => .seq [.int piece.1, .int piece.2])

/-- The table the spec's connect passes to `dmsetup` for a piece list: one `linear` line per
piece, the logical start advancing by each piece's size. -/
def linearTable (blockDevName : String) (logStart : Nat) : List Piece → List String
  | [] => []
  | (start, size) :: pieces =>
    (toString logStart ++ " " ++ toString size ++ " linear " ++ blockDevName ++ " " ++
      toString start) :: linearTable blockDevName (logStart + size) pieces

theorem dmTableLines_piecesValue (blockDevName : String) (logStart : Nat) (pieces : List Piece) :
    dmTableLines blockDevName logStart (pieces.map fun piece => .seq [.int piece.1, .int piece.2]) =
      .ok (linearTable blockDevName logStart pieces) := by
  induction pieces generalizing logStart with
  | nil => rfl
  | cons piece pieces ih =>
    obtain ⟨start, size⟩ := piece
    simp only [List.map_cons, dmTableLines, PyValue.unpackPair, PyValue.iterate, PyValue.formatInt,
      ih, linearTable]
    rfl

theorem computeDmTable_piecesValue (blockDevName : String) (pieces : List Piece) :
    computeDmTable blockDevName (piecesValue pieces) =
      .ok ("\n".intercalate (linearTable blockDevName 0 pieces)) := by
  simp only [computeDmTable, piecesValue, PyValue.iterate, bind, Except.bind,
    dmTableLines_piecesValue, pure, Except.pure]

def logicalStart (pieces : List Piece) (i : Nat) : Nat := ((pieces.take i).map Prod.snd).sum

@[simp] theorem logicalStart_zero (pieces : List Piece) : logicalStart pieces 0 = 0 := rfl

@[simp] theorem logicalStart_cons_succ (piece : Piece) (pieces : List Piece) (i : Nat) :
    logicalStart (piece :: pieces) (i + 1) = piece.2 + logicalStart pieces i := by
  simp [logicalStart]

/-- Logical sector `x` lies in the range `[L_i, L_i + size_i)` of piece `i`. -/
def InPiece (pieces : List Piece) (i x : Nat) : Prop :=
  ∃ piece, pieces[i]? = some piece ∧ logicalStart pieces i ≤ x ∧ x < logicalStart pieces i + piece.2

theorem getElem?_linearTable (blockDevName : String) (logStart : Nat) (pieces : List Piece)
    (i : Nat) :
    (linearTable blockDevName logStart pieces)[i]? = pieces[i]?.map fun piece =>
      toString (logStart + logicalStart pieces i) ++ " " ++ toString piece.2 ++ " linear " ++
        blockDevName ++ " " ++ toString piece.1 := by
  induction pieces generalizing logStart i with
  | nil => rfl
  | cons piece pieces ih =>
    obtain ⟨start, size⟩ := piece
    cases i with
    | zero => simp [linearTable]
    | succ i => simp [linearTable, ih, Nat.add_assoc]

theorem length_linearTable (blockDevName : String) (logStart : Nat) (pieces : List Piece) :
    (linearTable blockDevName logStart pieces).length = pieces.length := by
  induction pieces generalizing logStart with
  | nil => rfl
  | cons piece pieces ih => simp [linearTable, ih]

theorem logicalStart_succ (pieces : List Piece) (i : Nat) (piece : Piece)
    (at_i : pieces[i]? = some piece) :
    logicalStart pieces (i + 1) = logicalStart pieces i + piece.2 := by
  simp [logicalStart, List.take_succ, at_i, List.sum_append]

theorem logicalStart_length (pieces : List Piece) :
    logicalStart pieces pieces.length = (pieces.map Prod.snd).sum := by
  simp [logicalStart]

theorem exists_inPiece (pieces : List Piece) (x : Nat) (below : x < (pieces.map Prod.snd).sum) :
    ∃ i, InPiece pieces i x := by
  induction pieces generalizing x with
  | nil => simp at below
  | cons piece pieces ih =>
    by_cases first : x < piece.2
    · exact ⟨0, piece, by simp, Nat.zero_le x, by simpa using first⟩
    · obtain ⟨i, rest, at_i, low, high⟩ :=
        ih (x - piece.2) (by simp only [List.map_cons, List.sum_cons] at below; omega)
      exact ⟨i + 1, rest, List.getElem?_cons_succ.trans at_i,
        by simp only [logicalStart_cons_succ]; omega, by simp only [logicalStart_cons_succ]; omega⟩

theorem inPiece_unique (pieces : List Piece) (x i j : Nat) (first : InPiece pieces i x)
    (second : InPiece pieces j x) : i = j := by
  induction pieces generalizing x i j with
  | nil => obtain ⟨_, none, -⟩ := first; simp at none
  | cons piece pieces ih =>
    obtain ⟨p, at_i, low_i, high_i⟩ := first
    obtain ⟨q, at_j, low_j, high_j⟩ := second
    cases i with
    | zero =>
      cases j with
      | zero => rfl
      | succ j =>
        simp only [List.getElem?_cons_zero, Option.some.injEq, logicalStart_zero,
          logicalStart_cons_succ] at at_i low_j high_i
        subst at_i
        omega
    | succ i =>
      cases j with
      | zero =>
        simp only [List.getElem?_cons_zero, Option.some.injEq, logicalStart_zero,
          logicalStart_cons_succ] at at_j low_i high_j
        subst at_j
        omega
      | succ j =>
        simp only [logicalStart_cons_succ, List.getElem?_cons_succ] at at_i at_j low_i low_j high_i high_j
        exact congrArg (· + 1) (ih (x - piece.2) i j ⟨p, at_i, by omega, by omega⟩
          ⟨q, at_j, by omega, by omega⟩)

/-- `compute_dm_table` on any list of pieces and any device path: line `i` is
`"L_i size_i linear <device> start_i"`, the lines are joined by single newlines, and the
logical starts begin at 0 and grow by each piece's size, so the ranges `[L_i, L_i + size_i)`
tile `[0, Σ size_i)` in list order: each sector below the total lies in exactly one piece's
range, which the `linear` target of that piece's line maps to `start_i + (x - L_i)`. -/
theorem computeDmTable_tiles (blockDevName : String) (pieces : List Piece) :
    (∃ lines, computeDmTable blockDevName (piecesValue pieces) = .ok ("\n".intercalate lines) ∧
      lines.length = pieces.length ∧
      ∀ i, lines[i]? = pieces[i]?.map fun piece =>
        toString (logicalStart pieces i) ++ " " ++ toString piece.2 ++ " linear " ++
          blockDevName ++ " " ++ toString piece.1) ∧
    logicalStart pieces 0 = 0 ∧
    (∀ i piece, pieces[i]? = some piece →
      logicalStart pieces (i + 1) = logicalStart pieces i + piece.2) ∧
    logicalStart pieces pieces.length = (pieces.map Prod.snd).sum ∧
    ∀ x < (pieces.map Prod.snd).sum, ∃! i, InPiece pieces i x := by
  refine ⟨⟨linearTable blockDevName 0 pieces, computeDmTable_piecesValue blockDevName pieces,
    length_linearTable _ _ _, fun i => by simp [getElem?_linearTable]⟩, rfl,
    logicalStart_succ pieces, logicalStart_length pieces, fun x below => ?_⟩
  obtain ⟨i, holds⟩ := exists_inPiece pieces x below
  exact ⟨i, holds, fun j other => inPiece_unique pieces x j i other holds⟩

/-- A `dmsetup` invocation: `create <name>` with the table on its input, or `remove <name>`. -/
inductive DmsetupCall where
  | create (name : PyValue) (table : String)
  | remove (name : PyValue)
  deriving Repr

/-- `os.path.join(directory, name)` for two path components. -/
def pathJoin (directory name : Bytes) : Bytes :=
  if name.head? = some 47 then name
  else if directory = [] ∨ directory.getLast? = some 47 then directory ++ name
  else directory ++ 47 :: name

/-- `dm_name(service)`. -/
def dmName (dmPrefix service : Bytes) : Bytes := pathJoin dmPrefix service

def devMapper : Bytes := [47, 100, 101, 118, 47, 109, 97, 112, 112, 101, 114]

/-- `filename(service)`: the mapped device and offset 0, or `None` for a service the table
does not have. -/
def filename (dmPrefix : Bytes) (services : Services) (service : Bytes) : Option (Bytes × Nat) :=
  if service ∈ services.map Prod.fst then some (pathJoin devMapper (dmName dmPrefix service), 0)
  else none

/-- The loop `for name, pieces in self._services` of `connect`, over the dict's keys in its
iteration order: the `dmsetup` calls it makes, and how it ends. `dmcreate` ignores the exit
status of `dmsetup`. -/
def connectLoop (blockDevName : String) : List Bytes → List DmsetupCall × Except PyError Unit
  | [] => ([], .ok ())
  | key :: keys =>
    match (PyValue.str key).unpackPair with
    | .error error => ([], .error error)
    | .ok (name, pieces) =>
      match computeDmTable blockDevName pieces with
      | .error error => ([], .error error)
      | .ok table =>
        let (calls, result) := connectLoop blockDevName keys
        (.create name table :: calls, result)

/-- How `connect` fails: `get_services` raises, or the loop does. -/
inductive ConnectError where
  | raised (raised : Raised)
  | python (error : PyError)

/-- `connect()` on a device opened at offset 0, the table's dict iterated in the order `order`
gives (Python 2 iterates a dict in hash order): the table it keeps in `self._services`, the
`dmsetup` calls it makes and how it ends; `none` while `get_services` still runs. When
`get_services` raises, `self._services` keeps its old value. -/
def connect (fuel : Nat) (blockDevName : String) (order : Services → List Bytes) (device : Bytes)
    (services : Services) : Option (Services × List DmsetupCall × Except ConnectError Unit) :=
  match getServices fuel device 0 with
  | none => none
  | some (.error raised) => some (services, [], .error (.raised raised))
  | some (.ok table) =>
    let (calls, result) := connectLoop blockDevName (order table)
    some (table, calls, result.mapError .python)

/-- `disconnect()`: `dmsetup remove` for every key of `self._services`. -/
def disconnect (order : Services → List Bytes) (services : Services) : List DmsetupCall :=
  (order services).map fun name => .remove (.str name)

/-- Whatever its first key, the loop of `connect` raises `ValueError` before any `dmsetup`
call: a key of any length but two fails to unpack into `name, pieces`, and a two-character key
leaves a one-character string as `pieces`, whose single character fails to unpack into
`start, size` in `compute_dm_table`. -/
theorem connectLoop_cons (blockDevName : String) (key : Bytes) (keys : List Bytes) :
    connectLoop blockDevName (key :: keys) = ([], .error .valueError) := by
  rcases key with _ | ⟨x, _ | ⟨y, _ | ⟨z, rest⟩⟩⟩ <;> rfl

theorem addPieces_ne_nil (services : Services) (name : Bytes) (pieces : List Piece) :
    addPieces services name pieces ≠ [] := by
  cases services with
  | nil => simp [addPieces]
  | cons entry services => simp only [addPieces]; split <;> simp

theorem getServicesLoop_ok_ne_nil (device : Bytes) (offset fuel position : Nat)
    (services table : Services)
    (returned : getServicesLoop device offset fuel position services = some (.ok table)) :
    table ≠ [] := by
  induction fuel generalizing position services with
  | zero => simp [getServicesLoop] at returned
  | succ fuel ih =>
    rw [getServicesLoop_succ] at returned
    split at returned
    · simp at returned
    · rename_i done step
      simp only [Option.some.injEq, Except.ok.injEq] at returned
      subst returned
      simp only [getServicesStep] at step
      split at step
      · cases step
      · split at step
        · cases step
        · split at step
          · cases step; exact addPieces_ne_nil _ _ _
          · cases step
    · exact ih _ _ returned

/-- On every table `get_services` reads, in every dict order, `connect` raises `ValueError`
and never runs `dmsetup create`, and a following `disconnect` runs `dmsetup remove` for every
service of the table all the same, on a table that is never empty. -/
theorem connect_raises_without_dmsetup (fuel : Nat) (blockDevName : String)
    (order : Services → List Bytes) (ordered : ∀ table, (order table).Perm (table.map Prod.fst))
    (device : Bytes) (services table : Services)
    (read : getServices fuel device 0 = some (.ok table)) :
    connect fuel blockDevName order device services =
        some (table, [], .error (.python .valueError)) ∧
      (disconnect order table).length = table.length ∧ table ≠ [] := by
  have removes : (disconnect order table).length = table.length := by
    simpa [disconnect] using (ordered table).length_eq
  have nonempty : table ≠ [] := getServicesLoop_ok_ne_nil _ _ _ _ _ _ read
  obtain ⟨key, keys, split⟩ : ∃ key keys, order table = key :: keys :=
    List.exists_cons_of_ne_nil fun empty => nonempty (List.eq_nil_of_length_eq_zero
      (by simpa [disconnect, empty] using removes.symm))
  refine ⟨?_, removes, nonempty⟩
  simp only [connect, read, split, connectLoop_cons]
  rfl

def twoCharDevice : Bytes := infoBlockBytes 0 [97, 98] [(1, 1)]

theorem getServices_twoCharDevice :
    getServices 1 twoCharDevice 0 = some (.ok [([97, 98], [(1, 1)])]) := by
  have read : readAt twoCharDevice 0 blocksize = infoBlockBytes 0 [97, 98] [(1, 1)] ++ [] := by
    rw [List.append_nil, readAt, List.drop_zero, List.take_of_length_le]
    · rfl
    · simp [twoCharDevice, infoBlockBytes, blocksize, headerSize, dataSize]
  rw [getServices, getServicesLoop_succ,
    getServicesStep_of_block _ _ _ _ _ _ _ _ read (by decide) (by decide) (by decide) (by decide)]
  rfl

theorem connect_raises_on_twoCharDevice :
    (∀ table : Services, (table.map Prod.fst).Perm (table.map Prod.fst)) ∧
      getServices 1 twoCharDevice 0 = some (.ok [([97, 98], [(1, 1)])]) ∧
      connect 1 "/dev/dm-0" (fun table => table.map Prod.fst) twoCharDevice [] =
          some ([([97, 98], [(1, 1)])], [], .error (.python .valueError)) ∧
        (disconnect (fun table => table.map Prod.fst) [([97, 98], [(1, 1)])]).length = 1 ∧
        [([97, 98], [(1, 1)])] ≠ ([] : Services) :=
  ⟨fun _ => List.Perm.refl _, getServices_twoCharDevice,
    connect_raises_without_dmsetup 1 "/dev/dm-0" (fun table => table.map Prod.fst)
      (fun _ => List.Perm.refl _) twoCharDevice [] _ getServices_twoCharDevice⟩

end HostedEngineHa.BlockBackend
