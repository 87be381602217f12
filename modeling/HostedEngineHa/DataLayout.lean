import HostedEngineHa.InfoBlock
import Mathlib.Data.List.Chain

/-! Where `create_info_blocks` puts each service's data: consecutive extents of `bc(size)`
blocks, exact below `2 ^ 53` and possibly a block short past it. -/
namespace HostedEngineHa.BlockBackend

theorem droppedBits_of_lt (n : Nat) (exact : n < 2 ^ 53) : droppedBits n = 0 := by
  cases n with
  | zero => rfl
  | succ n => rw [droppedBits, droppedBits.go, if_pos exact]

/-- Below `2 ^ 53` every integer is a double: `float(n)` drops nothing. -/
theorem roundToDouble_of_lt (n : Nat) (exact : n < 2 ^ 53) : roundToDouble n = n := by
  simp [roundToDouble, droppedBits_of_lt n exact, Nat.mod_one]

/-- Below `2 ^ 53`, `bc(size)` is the ceiling of `size / 512`, so an extent of that many blocks
holds the service's bytes. -/
theorem blockCount_of_lt (size : Nat) (exact : size < 2 ^ 53) :
    blockCount size = (size + blocksize - 1) / blocksize ∧ size ≤ blocksize * blockCount size := by
  rw [blockCount, roundToDouble_of_lt size exact]
  exact ⟨rfl, by simp only [blocksize]; omega⟩

theorem blockCount_of_lt_partial_block :
    (513 : Nat) < 2 ^ 53 ∧ blockCount 513 = (513 + blocksize - 1) / blocksize ∧
      513 ≤ blocksize * blockCount 513 :=
  ⟨by decide, blockCount_of_lt 513 (by decide)⟩

/-! ### The extents of the loop -/

theorem map_service_recordsFrom (links : List Nat) (services : List (Bytes × Nat))
    (dataStart : Nat) (covered : services.length ≤ links.length) :
    (recordsFrom links services dataStart).map (fun record => (record.name, record.length)) =
      services.map fun service => (service.1, blockCount service.2) := by
  induction services generalizing links dataStart with
  | nil => cases links <;> rfl
  | cons entry services ih =>
    obtain ⟨service, size⟩ := entry
    cases links with
    | nil => cases covered
    | cons nextId links =>
      simp only [recordsFrom, List.map_cons, ih links _ (Nat.le_of_succ_le_succ covered)]

theorem start_of_head_recordsFrom (links : List Nat) (services : List (Bytes × Nat))
    (dataStart : Nat) : ∀ record ∈ (recordsFrom links services dataStart).head?,
      record.start = dataStart := by
  intro record member
  match links, services, member with
  | _ :: _, (_, _) :: _, member =>
    simp only [recordsFrom, List.head?_cons, Option.mem_def, Option.some.injEq] at member
    rw [← member]

theorem chain_recordsFrom (links : List Nat) (services : List (Bytes × Nat)) (dataStart : Nat) :
    (recordsFrom links services dataStart).Chain'
      fun earlier later => later.start = earlier.start + earlier.length := by
  induction services generalizing links dataStart with
  | nil => cases links <;> exact List.chain'_nil
  | cons entry services ih =>
    obtain ⟨service, size⟩ := entry
    cases links with
    | nil => exact List.chain'_nil
    | cons nextId links =>
      exact List.chain'_cons'.mpr
        ⟨start_of_head_recordsFrom links services _, ih links (dataStart + blockCount size)⟩

theorem pairwise_recordsFrom (links : List Nat) (services : List (Bytes × Nat)) (dataStart : Nat) :
    (recordsFrom links services dataStart).Pairwise
      fun earlier later => earlier.start + earlier.length ≤ later.start := by
  induction services generalizing links dataStart with
  | nil => cases links <;> exact List.Pairwise.nil
  | cons entry services ih =>
    obtain ⟨service, size⟩ := entry
    cases links with
    | nil => exact List.Pairwise.nil
    | cons nextId links =>
      exact List.pairwise_cons.mpr
        ⟨fun later => start_of_mem_recordsFrom links services _ later, ih links _⟩

theorem sorted_sortBySize (serviceMap : List (Bytes × Nat)) :
    (sortBySize serviceMap).Sorted fun a b => a.2 ≤ b.2 := by
  have : IsTotal (Bytes × Nat) fun a b => a.2 ≤ b.2 := ⟨fun a b => le_total a.2 b.2⟩
  have : IsTrans (Bytes × Nat) fun a b => a.2 ≤ b.2 := ⟨fun _ _ _ => le_trans⟩
  exact List.sorted_insertionSort _ serviceMap

/-- The data extents of `create_info_blocks(service_map)`: taking the services in ascending
size order, record `j` gives the `j`-th its name and `bc(size)` blocks; the first extent starts
at block `N`, right after the `N` info blocks, each later one where the one before it ends, and
no two overlap. -/
theorem infoRecords_extents (serviceMap : List (Bytes × Nat)) :
    (sortBySize serviceMap).Sorted (fun a b => a.2 ≤ b.2) ∧
      (infoRecords serviceMap).map (fun record => (record.name, record.length)) =
        (sortBySize serviceMap).map (fun service => (service.1, blockCount service.2)) ∧
      (∀ record ∈ (infoRecords serviceMap).head?, record.start = serviceMap.length) ∧
      (infoRecords serviceMap).Chain'
        (fun earlier later => later.start = earlier.start + earlier.length) ∧
      (infoRecords serviceMap).Pairwise
        (fun earlier later => earlier.start + earlier.length ≤ later.start) :=
  ⟨sorted_sortBySize serviceMap,
    map_service_recordsFrom _ _ _ (by simp only [sortBySize, List.length_insertionSort, nextLinks,
      List.length_append, List.length_range', List.length_singleton]; omega),
    start_of_head_recordsFrom _ _ _, chain_recordsFrom _ _ _, pairwise_recordsFrom _ _ _⟩

/-- Two services of `2 ^ 53 + 1` bytes each: `float` rounds the size to `2 ^ 53`, a whole
number of blocks, one short of the ceiling. -/
def largeServiceMap : List (Bytes × Nat) := [([97], 2 ^ 53 + 1), ([98], 2 ^ 53 + 1)]

theorem createInfoBlocks_undercounts_large_size :
    createInfoBlocks largeServiceMap = .ok ((infoRecords largeServiceMap).map InfoRecord.bytes) ∧
      infoRecords largeServiceMap = [⟨1, [97], 2, 2 ^ 44⟩, ⟨0, [98], 2 + 2 ^ 44, 2 ^ 44⟩] ∧
      (2 ^ 53 + 1 + blocksize - 1) / blocksize = 2 ^ 44 + 1 ∧
      blocksize * (2 + 2 ^ 44) < blocksize * 2 + (2 ^ 53 + 1) := by
  have records : infoRecords largeServiceMap =
      [⟨1, [97], 2, 2 ^ 44⟩, ⟨0, [98], 2 + 2 ^ 44, 2 ^ 44⟩] := by
    decide
  have packable : ∀ record ∈ infoRecords largeServiceMap, record.Packable := by
    rw [records]
    simp only [InfoRecord.Packable]
    decide
  exact ⟨(createInfoBlocks_ok_iff _ _).mpr ⟨packable, rfl⟩, records, by decide, by decide⟩

end HostedEngineHa.BlockBackend
