import HostedEngineHa.Whiteboard
import HostedEngineHa.ClientStats

/-! The whiteboard end to end: agents write with `put_stats`, and a client reads with
`get_raw_stats_for_service_type` and decodes with `_parse_stats`. -/
namespace HostedEngineHa.Client

open Whiteboard

theorem lookup_filterMap_visible (indices : List Nat) (slot : Nat → Bytes) (key : Nat) :
    (indices.filterMap fun index =>
        if (slot index).getD 0 0 = 0 then none else some (index, slot index)).lookup key =
      if key ∈ indices ∧ (slot key).getD 0 0 ≠ 0 then some (slot key) else none := by
  induction indices with
  | nil => simp
  | cons index indices ih =>
    rw [List.filterMap_cons]
    by_cases blank : (slot index).getD 0 0 = 0
    · rw [if_pos blank]
      dsimp only
      rw [ih]
      by_cases same : key = index
      · subst same
        simp only [blank, ne_eq, not_true_eq_false, and_false, if_false]
      · simp only [List.mem_cons, same, false_or]
    · rw [if_neg blank]
      dsimp only
      by_cases same : key = index
      · subst same
        rw [List.lookup_cons_self, if_pos ⟨List.mem_cons_self _ _, blank⟩]
      · rw [List.lookup_cons, beq_eq_false_iff_ne.mpr same, ih]
        simp only [List.mem_cons, same, false_or]

theorem lookup_visibleSlots (maxHostIdScan : Nat) (slot : Nat → Bytes) (key : Nat) :
    (visibleSlots maxHostIdScan slot).lookup key =
      if key ≤ maxHostIdScan ∧ (slot key).getD 0 0 ≠ 0 then some (slot key) else none := by
  rw [visibleSlots, lookup_filterMap_visible]
  simp only [List.mem_range, Nat.lt_succ_iff]

theorem nodup_keys_visibleSlots (maxHostIdScan : Nat) (slot : Nat → Bytes) :
    ((visibleSlots maxHostIdScan slot).map Prod.fst).Nodup := by
  have keys : (visibleSlots maxHostIdScan slot).map Prod.fst =
      (List.range (maxHostIdScan + 1)).filter fun index => (slot index).getD 0 0 ≠ 0 := by
    rw [visibleSlots, List.map_filterMap, ← List.filterMap_eq_filter]
    refine List.filterMap_congr fun index _ => ?_
    by_cases blank : (slot index).getD 0 0 = 0
    · rw [if_pos blank, Option.map_none', eq_comm, Option.guard_eq_none]
      simpa using blank
    · rw [if_neg blank, Option.map_some', Option.guard_pos (by simpa using blank)]
  rw [keys]
  exact (List.nodup_range _).filter _

variable {Global HostMd : Type} (codec : SlotCodec Global HostMd)

/-- Whiteboard protocol: after any run of successful `put_stats` calls whose payloads fit a slot,
over any initial content, a client that reads the region with `get_raw_stats_for_service_type`
and decodes it with `_parse_stats` holds, under each key up to `MAX_HOST_ID_SCAN` whose slot
starts with a non-zero byte, the decoding of that slot's current content (the last payload
written to it, padded with zeros); under any other key it holds nothing. -/
theorem parseStats_after_putStats (honest : Honest codec) (maxHostIdScan base : Nat)
    (initial : Bytes) (writes : List (Nat × Bytes))
    (short : ∀ write ∈ writes, write.2.length ≤ hostSegmentBytes) (mode : StatMode) :
    ∃ final stats, putStatsSeq base writes initial = .ok final ∧
      getRawStatsForServiceType maxHostIdScan fullRead base final = .ok stats ∧
      ∀ key, (parseStats codec stats mode).lookup key =
        if key ≤ maxHostIdScan ∧ (currentSlot initial base writes key).getD 0 0 ≠ 0 then
          (slotEntry codec mode (key, currentSlot initial base writes key)).map (·.2)
        else none := by
  obtain ⟨final, run, slots⟩ := putStatsSeq_slots base writes initial short
  have read : getRawStatsForServiceType maxHostIdScan fullRead base final =
      .ok (visibleSlots maxHostIdScan (currentSlot initial base writes)) := by
    rw [getRawStats_fullRead]
    simp only [slots]
  refine ⟨final, _, run, read, fun key => ?_⟩
  rw [lookup_parseStats_of_keyed codec mode _ (fun slot _ => slotEntry_key codec honest mode slot)
    (nodup_keys_visibleSlots _ _) key,
    lookup_visibleSlots]
  split <;> rfl

theorem parseStats_after_putStats_slotIdCodec :
    Honest slotIdCodec ∧ (∀ write ∈ [((2 : Nat), ([5] : Bytes))], write.2.length ≤ hostSegmentBytes) ∧
      ∃ final stats, putStatsSeq 0 [(2, [5])] [] = .ok final ∧
        getRawStatsForServiceType 3 fullRead 0 final = .ok stats ∧
        ∀ key, (parseStats slotIdCodec stats .host).lookup key =
          if key ≤ 3 ∧ (currentSlot [] 0 [(2, [5])] key).getD 0 0 ≠ 0 then
            (slotEntry slotIdCodec .host (key, currentSlot [] 0 [(2, [5])] key)).map (·.2)
          else none :=
  have short : ∀ write ∈ [((2 : Nat), ([5] : Bytes))], write.2.length ≤ hostSegmentBytes := by
    decide
  ⟨honest_slotIdCodec, short,
    parseStats_after_putStats slotIdCodec honest_slotIdCodec 3 0 [] [(2, [5])] short .host⟩

end HostedEngineHa.Client
