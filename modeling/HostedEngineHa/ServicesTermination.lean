import HostedEngineHa.Services
import Mathlib.Data.Finset.Card

/-! Termination of `get_services`: by pigeonhole the loop stops within one read per block of
the device, or never stops, exactly when its chain of positions revisits one. -/
namespace HostedEngineHa.BlockBackend

def nextPosition (device : Bytes) (offset position : Nat) : Option Nat :=
  match getServicesStep device offset position [] with
  | .advance position _ => some position
  | _ => none

/-- The position of the loop's `t`-th iteration, when the loop is still running there. -/
def chainPosition (device : Bytes) (offset : Nat) : Nat → Nat → Option Nat
  | 0, position => some position
  | t + 1, position => (nextPosition device offset position).bind (chainPosition device offset t)

def Iteration.position? : Iteration → Option Nat
  | .advance position _ => some position
  | _ => none

theorem position?_getServicesStep (device : Bytes) (offset position : Nat) (services : Services) :
    (getServicesStep device offset position services).position? =
      nextPosition device offset position := by
  simp only [nextPosition, getServicesStep]
  split <;> try rfl
  split <;> try rfl
  split <;> rfl

theorem getServicesLoop_eq_none_iff (device : Bytes) (offset fuel position : Nat)
    (services : Services) :
    getServicesLoop device offset fuel position services = none ↔
      (chainPosition device offset fuel position).isSome := by
  induction fuel generalizing position services with
  | zero => simp [getServicesLoop, chainPosition]
  | succ fuel ih =>
    have next := position?_getServicesStep device offset position services
    rw [getServicesLoop_succ, chainPosition]
    cases step : getServicesStep device offset position services with
    | raise raised => simp [step, Iteration.position?] at next; simp [← next]
    | done table => simp [step, Iteration.position?] at next; simp [← next]
    | advance position' table =>
      simp only [step, Iteration.position?] at next
      simp [← next, ih]

theorem chainPosition_add (device : Bytes) (offset a b position : Nat) :
    chainPosition device offset (a + b) position =
      (chainPosition device offset a position).bind (chainPosition device offset b) := by
  induction a generalizing position with
  | zero => simp [chainPosition]
  | succ a ih =>
    rw [Nat.add_right_comm, chainPosition, chainPosition]
    cases nextPosition device offset position <;> simp [ih]

theorem chainPosition_isSome_of_le (device : Bytes) (offset position s t : Nat) (earlier : s ≤ t)
    (running : (chainPosition device offset t position).isSome) :
    (chainPosition device offset s position).isSome := by
  obtain ⟨d, rfl⟩ := Nat.exists_eq_add_of_le earlier
  rw [chainPosition_add] at running
  cases h : chainPosition device offset s position <;> simp_all

theorem lt_length_of_nextPosition (device : Bytes) (offset position next : Nat)
    (goesOn : nextPosition device offset position = some next) :
    position < device.length ∧ ∃ k, next = offset + k * blocksize := by
  simp only [nextPosition] at goesOn
  split at goesOn <;> simp only [Option.some.injEq, reduceCtorEq] at goesOn
  rename_i step
  obtain ⟨parsed, ok, -, -, rfl, -⟩ := getServicesStep_eq_advance _ _ _ _ _ _ step
  have inside := headerSize_le_of_parseMetaBlock _ _ ok
  simp only [readAt, List.length_take, List.length_drop, headerSize] at inside
  exact ⟨by omega, parsed.next, goesOn.symm⟩

theorem chainPosition_succ (device : Bytes) (offset t position : Nat) :
    chainPosition device offset (t + 1) position =
      (chainPosition device offset t position).bind (nextPosition device offset) := by
  rw [chainPosition_add]
  congr 1
  funext next
  simp only [chainPosition, Option.bind_some]

theorem chainPosition_aligned (device : Bytes) (offset t position next : Nat)
    (aligned : ∃ k, position = offset + k * blocksize)
    (reached : chainPosition device offset t position = some next) :
    ∃ k, next = offset + k * blocksize := by
  induction t generalizing position with
  | zero => simp only [chainPosition, Option.some.injEq] at reached; exact reached ▸ aligned
  | succ t ih =>
    rw [chainPosition] at reached
    cases goesOn : nextPosition device offset position with
    | none => simp [goesOn] at reached
    | some following =>
      rw [goesOn, Option.some_bind] at reached
      exact ih following (lt_length_of_nextPosition _ _ _ _ goesOn).2 reached

def heldBlocks (device : Bytes) (offset : Nat) : Nat :=
  (device.length - offset + blocksize - 1) / blocksize

def chainBlock (device : Bytes) (offset t : Nat) : Nat :=
  ((chainPosition device offset t offset).getD offset - offset) / blocksize

theorem chainBlock_lt (device : Bytes) (offset t : Nat)
    (running : (chainPosition device offset (t + 1) offset).isSome) :
    chainBlock device offset t < heldBlocks device offset ∧
      chainPosition device offset t offset =
        some (offset + chainBlock device offset t * blocksize) := by
  rw [chainPosition_succ] at running
  cases reached : chainPosition device offset t offset with
  | none => simp [reached] at running
  | some position =>
    rw [reached, Option.some_bind] at running
    obtain ⟨next, goesOn⟩ := Option.isSome_iff_exists.mp running
    have inside := (lt_length_of_nextPosition _ _ _ _ goesOn).1
    obtain ⟨k, rfl⟩ := chainPosition_aligned device offset t offset _ ⟨0, by simp⟩ reached
    have recovered : (k * blocksize) / blocksize = k := Nat.mul_div_cancel k (by decide)
    have block : chainBlock device offset t = k := by simp [chainBlock, reached, recovered]
    refine ⟨block ▸ ?_, by rw [block]⟩
    simp only [heldBlocks, blocksize] at inside ⊢
    omega

theorem chainPosition_isSome_of_revisit (device : Bytes) (offset i j : Nat) (earlier : i < j)
    (running : (chainPosition device offset j offset).isSome)
    (same : chainPosition device offset i offset = chainPosition device offset j offset) (t : Nat) :
    (chainPosition device offset t offset).isSome := by
  induction t using Nat.strong_induction_on with
  | _ t ih =>
    by_cases early : t ≤ j
    · exact chainPosition_isSome_of_le _ _ _ _ _ early running
    · obtain ⟨m, rfl⟩ := Nat.exists_eq_add_of_le (Nat.le_of_not_le early)
      have shifted : chainPosition device offset (j + m) offset =
          chainPosition device offset (i + m) offset := by
        rw [chainPosition_add, chainPosition_add, same]
      rw [shifted]
      exact ih (i + m) (by omega)

/-- Pigeonhole: a chain still running after `heldBlocks + 1` iterations has revisited a
position. -/
theorem chainPosition_revisits (device : Bytes) (offset : Nat)
    (running : (chainPosition device offset (heldBlocks device offset + 1) offset).isSome) :
    ∃ i j, i < j ∧ (chainPosition device offset j offset).isSome ∧
      chainPosition device offset i offset = chainPosition device offset j offset := by
  have inside (t : Nat) (bound : t < heldBlocks device offset + 1) :=
    chainBlock_lt device offset t
      (chainPosition_isSome_of_le _ _ _ _ _ (by omega) running)
  obtain ⟨a, aBound, b, bBound, different, sameBlock⟩ :=
    @Finset.exists_ne_map_eq_of_card_lt_of_maps_to _ _
      (Finset.range (heldBlocks device offset + 1)) (Finset.range (heldBlocks device offset))
      (by simp) (chainBlock device offset)
      (fun t member => Finset.mem_range.mpr (inside t (Finset.mem_range.mp member)).1)
  have positionA := (inside a (Finset.mem_range.mp aBound)).2
  have positionB := (inside b (Finset.mem_range.mp bBound)).2
  rcases Nat.lt_or_gt_of_ne different with before | after
  · exact ⟨a, b, before, by simp [positionB], by rw [positionA, positionB, sameBlock]⟩
  · exact ⟨b, a, after, by simp [positionA], by rw [positionA, positionB, sameBlock]⟩

theorem getServices_eq_none_iff (device : Bytes) (offset fuel : Nat) :
    getServices fuel device offset = none ↔ (chainPosition device offset fuel offset).isSome :=
  getServicesLoop_eq_none_iff device offset fuel offset []

theorem getServices_eq_none_of_revisit (device : Bytes) (offset i j : Nat) (earlier : i < j)
    (running : (chainPosition device offset j offset).isSome)
    (same : chainPosition device offset i offset = chainPosition device offset j offset)
    (fuel : Nat) : getServices fuel device offset = none :=
  (getServices_eq_none_iff device offset fuel).mpr
    (chainPosition_isSome_of_revisit device offset i j earlier running same fuel)

/-- `get_services` either ends, returning or raising, within one iteration per block the
device holds from `offset` plus one, or never ends; it never ends exactly when the chain of
positions it follows comes back to a position it has been at. -/
theorem getServices_ends_or_cycles (device : Bytes) (offset : Nat) :
    ((getServices (heldBlocks device offset + 1) device offset).isSome ∨
        ∀ fuel, getServices fuel device offset = none) ∧
      ((∀ fuel, getServices fuel device offset = none) ↔
        ∃ i j, i < j ∧ (chainPosition device offset j offset).isSome ∧
          chainPosition device offset i offset = chainPosition device offset j offset) := by
  have revisits (running : getServices (heldBlocks device offset + 1) device offset = none) :=
    chainPosition_revisits device offset ((getServices_eq_none_iff _ _ _).mp running)
  refine ⟨?_, fun forever => revisits (forever _), ?_⟩
  · cases ends : getServices (heldBlocks device offset + 1) device offset with
    | some result => exact .inl rfl
    | none =>
      obtain ⟨i, j, earlier, running, same⟩ := revisits ends
      exact .inr (getServices_eq_none_of_revisit device offset i j earlier running same)
  · rintro ⟨i, j, earlier, running, same⟩
    exact getServices_eq_none_of_revisit device offset i j earlier running same

/-- Two valid info blocks with an empty name and no pieces: block 0 links to block 1, and
block 1 links to itself. -/
def cyclicDevice : Bytes :=
  infoBlockBytes 1 [] [] ++ List.replicate 420 0 ++ infoBlockBytes 1 [] []

theorem getServices_cyclicDevice_eq_none : ∀ fuel, getServices fuel cyclicDevice 0 = none := by
  have length : (infoBlockBytes 1 [] []).length = 92 := by
    simp [infoBlockBytes, headerSize, dataSize]
  have step (position : Nat) (tail : Bytes)
      (read : readAt cyclicDevice position blocksize = infoBlockBytes 1 [] [] ++ tail) :
      nextPosition cyclicDevice 0 position = some 512 := by
    rw [nextPosition, getServicesStep_of_block cyclicDevice 0 position [] 1 [] [] tail read
      (by decide) (by decide) (by simp) (by simp), if_neg one_ne_zero]
    rfl
  have blockLength : (infoBlockBytes 1 [] [] ++ List.replicate 420 0).length = blocksize := by
    rw [List.length_append, length, List.length_replicate]; rfl
  have first := step 0 (List.replicate 420 0) (by
    rw [cyclicDevice, readAt, List.drop_zero, List.take_left' blockLength])
  have second := step 512 [] (by
    rw [cyclicDevice, readAt, show 512 = blocksize from rfl, List.drop_left' blockLength,
      List.append_nil, List.take_of_length_le (by rw [length]; decide)])
  exact getServices_eq_none_of_revisit cyclicDevice 0 1 2 (by decide)
    (by simp [chainPosition, first, second]) (by simp [chainPosition, first, second])

/-- On that device the loop is still running after one iteration more than the device holds
blocks: it reads block 1 again and again. -/
theorem getServices_cyclicDevice_runs_on :
    getServices (heldBlocks cyclicDevice 0 + 1) cyclicDevice 0 = none :=
  getServices_cyclicDevice_eq_none _

end HostedEngineHa.BlockBackend
