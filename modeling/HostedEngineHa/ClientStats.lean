import HostedEngineHa.Client

/-! `HAClient._parse_stats` and `get_local_host_score`. A host's entry goes under the
`host-id` its own metadata names; the `lib/metadata` codec is a parameter. -/
namespace HostedEngineHa.Client

/-- `HAClient.StatModes`. -/
inductive StatMode where
  | all
  | host
  | global
  deriving DecidableEq, Repr

/-- Modelled from the spec: what the client uses of `lib/metadata` for the slots. `parseGlobal`
is `parse_global_metadata_to_dict`, `parseHost` is `parse_metadata_to_dict(host_id, data)`, an
error being its `MetadataError`; `hostId`, `hostTs` and `score` read the `host-id`, `host-ts`
and `score` entries of a host's dict. -/
structure SlotCodec (Global HostMd : Type) where
  parseGlobal : Bytes → Except String Global
  parseHost : Nat → Bytes → Except String HostMd
  hostId : HostMd → Nat
  hostTs : HostMd → Int
  score : HostMd → Nat

/-- A value of `_parse_stats`'s dict: global metadata, or a host's. -/
inductive ParsedStats (Global HostMd : Type) where
  | global (md : Global)
  | host (md : HostMd)
  deriving DecidableEq, Repr

variable {Global HostMd : Type} (codec : SlotCodec Global HostMd)

/-- What one iteration of `_parse_stats` writes, for the slot `(host_id, data)`: the key and the
decoded metadata, or nothing for a slot the mode skips or that fails to decode. -/
def slotEntry (mode : StatMode) (slot : Nat × Bytes) : Option (Nat × ParsedStats Global HostMd) :=
  if slot.1 = 0 ∧ mode ≠ .host then
    match codec.parseGlobal slot.2 with
    | .ok md => some (0, .global md)
    | .error _ => none
  else if slot.1 ≠ 0 ∧ mode ≠ .global then
    match codec.parseHost slot.1 slot.2 with
    | .ok md => some (codec.hostId md, .host md)
    | .error _ => none
  else none

/-- `_parse_stats(stats, mode)`, on the slots in the order `stats.iteritems()` gives them. -/
def parseStats (stats : List (Nat × Bytes)) (mode : StatMode) :
    MdDict Nat (ParsedStats Global HostMd) :=
  stats.foldl (fun output slot =>
    match slotEntry codec mode slot with
    | some (key, md) => setItem output key md
    | none => output) []

/-- `get_local_host_score()` for the host `hostId` at wall-clock reading `now`; `timeout` is
`HOST_ALIVE_TIMEOUT_SECS`. The score is reported only from the host's own slot, decoded, and
updated recently enough. -/
def getLocalHostScore (timeout : Int) (hostId : Nat) (stats : List (Nat × Bytes)) (now : Int) :
    Nat :=
  match stats.lookup hostId with
  | none => 0
  | some data =>
    match codec.parseHost hostId data with
    | .error _ => 0
    | .ok md => if codec.hostTs md + timeout ≥ now then codec.score md else 0

/-! ### What `_parse_stats` returns -/

theorem parseStats_append_singleton (stats : List (Nat × Bytes)) (slot : Nat × Bytes)
    (mode : StatMode) :
    parseStats codec (stats ++ [slot]) mode =
      match slotEntry codec mode slot with
      | some (key, md) => setItem (parseStats codec stats mode) key md
      | none => parseStats codec stats mode := by
  rw [parseStats, List.foldl_append]
  rfl

theorem lookup_parseStats_append_singleton (stats : List (Nat × Bytes)) (slot : Nat × Bytes)
    (mode : StatMode) (key : Nat) :
    (parseStats codec (stats ++ [slot]) mode).lookup key =
      match slotEntry codec mode slot with
      | some (written, md) => if key = written then some md else (parseStats codec stats mode).lookup key
      | none => (parseStats codec stats mode).lookup key := by
  rw [parseStats_append_singleton]
  cases slotEntry codec mode slot with
  | none => rfl
  | some entry => exact lookup_setItem _ _ _ _

/-- Under each key, `_parse_stats` holds the metadata of the last slot, in iteration order,
whose entry has that key: the global metadata of slot 0 unless the mode is `HOST`, a host's
metadata under the `host-id` it names unless the mode is `GLOBAL`. Slots that fail to decode
write nothing, and a later slot whose metadata names an id replaces what an earlier one wrote
there. -/
theorem lookup_parseStats (stats : List (Nat × Bytes)) (mode : StatMode) (key : Nat) :
    (parseStats codec stats mode).lookup key =
      (((stats.filterMap (slotEntry codec mode)).filter (·.1 = key)).getLast?).map (·.2) := by
  induction stats using List.reverseRecOn with
  | nil => rfl
  | append_singleton stats slot ih =>
    rw [lookup_parseStats_append_singleton, List.filterMap_append, List.filter_append,
      List.getLast?_append, List.filterMap_cons, List.filterMap_nil]
    cases slotEntry codec mode slot with
    | none => exact ih
    | some entry =>
      obtain ⟨written, md⟩ := entry
      rw [ih]
      by_cases same : key = written
      · subst same
        simp
      · simp [same, Ne.symm same]

/-- Metadata that names the host of its own slot. -/
def Honest : Prop := ∀ hostId data md, codec.parseHost hostId data = .ok md → codec.hostId md = hostId

theorem slotEntry_key (honest : Honest codec) (mode : StatMode) (slot : Nat × Bytes)
    (entry : Nat × ParsedStats Global HostMd) (written : slotEntry codec mode slot = some entry) :
    entry.1 = slot.1 := by
  unfold slotEntry at written
  split at written
  · rename_i globalSlot
    split at written
    · cases written
      exact globalSlot.1.symm
    · cases written
  · split at written
    · split at written
      · rename_i md decoded
        cases written
        exact honest _ _ _ decoded
      · cases written
    · cases written

theorem lookup_parseStats_of_keyed (mode : StatMode) (stats : List (Nat × Bytes))
    (keyed : ∀ slot ∈ stats, ∀ entry, slotEntry codec mode slot = some entry → entry.1 = slot.1)
    (distinct : (stats.map Prod.fst).Nodup) (key : Nat) :
    (parseStats codec stats mode).lookup key =
      (stats.lookup key).bind fun data => (slotEntry codec mode (key, data)).map (·.2) := by
  induction stats using List.reverseRecOn with
  | nil => rfl
  | append_singleton stats slot ih =>
    obtain ⟨slotId, data⟩ := slot
    rw [List.map_append, List.Nodup, List.pairwise_append] at distinct
    have fresh : stats.lookup slotId = none := List.lookup_eq_none_iff.mpr fun p member =>
      bne_iff_ne.mpr fun same => distinct.2.2 _ (List.mem_map_of_mem Prod.fst member) _
        (List.mem_singleton_self slotId) same.symm
    have earlier := ih (fun slot member => keyed slot (List.mem_append_left _ member)) distinct.1
    have own := keyed (slotId, data) (List.mem_append_right _ (List.mem_singleton_self _))
    rw [lookup_parseStats_append_singleton, List.lookup_append, earlier]
    by_cases here : key = slotId
    · subst here
      rw [fresh, List.lookup_cons_self, Option.none_or, Option.some_bind]
      cases written : slotEntry codec mode (key, data) with
      | none => rfl
      | some entry =>
        obtain ⟨written', md⟩ := entry
        obtain rfl : written' = key := own _ written
        simp
    · rw [List.lookup_cons, beq_eq_false_iff_ne.mpr here, List.lookup_nil, Option.or_none]
      cases written : slotEntry codec mode (slotId, data) with
      | none => rfl
      | some entry =>
        obtain ⟨written', md⟩ := entry
        obtain rfl : written' = slotId := own _ written
        dsimp only
        rw [if_neg here]

/-- With metadata that names each host's own slot and distinct slot ids, `_parse_stats` is keyed
by slot: under each id it holds that slot's metadata, when the mode asks for the slot and the
slot decodes. -/
theorem lookup_parseStats_of_honest (honest : Honest codec) (stats : List (Nat × Bytes))
    (distinct : (stats.map Prod.fst).Nodup) (mode : StatMode) (key : Nat) :
    (parseStats codec stats mode).lookup key =
      (stats.lookup key).bind fun data => (slotEntry codec mode (key, data)).map (·.2) :=
  lookup_parseStats_of_keyed codec mode stats
    (fun slot _ => slotEntry_key codec honest mode slot) distinct key

/-- With honest metadata and distinct slot ids, `get_local_host_score` reports what the host's
entry of `get_all_host_stats` shows: the score of its metadata while that is fresh, and `0`
when the host has no decodable slot. -/
theorem getLocalHostScore_eq_parseStats (honest : Honest codec) (stats : List (Nat × Bytes))
    (distinct : (stats.map Prod.fst).Nodup) (timeout : Int) (hostId : Nat) (notGlobal : hostId ≠ 0)
    (now : Int) :
    getLocalHostScore codec timeout hostId stats now =
      match (parseStats codec stats .host).lookup hostId with
      | some (.host md) => if codec.hostTs md + timeout ≥ now then codec.score md else 0
      | _ => 0 := by
  rw [lookup_parseStats_of_keyed codec .host stats
    (fun slot _ => slotEntry_key codec honest .host slot) distinct hostId, getLocalHostScore]
  cases stats.lookup hostId with
  | none => rfl
  | some data =>
    rw [Option.some_bind, slotEntry, if_neg (fun global => notGlobal global.1),
      if_pos ⟨notGlobal, nofun⟩]
    dsimp only
    cases codec.parseHost hostId data <;> rfl

def slotIdCodec : SlotCodec Bytes Nat :=
  ⟨fun data => .ok data, fun hostId data => if data = [] then .error "empty slot" else .ok hostId,
    fun md => md, fun _ => 0, fun _ => 0⟩

theorem honest_slotIdCodec : Honest slotIdCodec := by
  intro hostId data md decoded
  dsimp only [slotIdCodec] at decoded
  split at decoded
  · cases decoded
  · cases decoded
    rfl

theorem lookup_parseStats_slotIdCodec :
    Honest slotIdCodec ∧ ([(0, [1]), (3, []), (2, [5])].map Prod.fst).Nodup ∧
      (parseStats slotIdCodec [(0, [1]), (3, []), (2, [5])] .host).lookup 2 =
        ([(0, [1]), (3, []), (2, [5])].lookup 2).bind fun data =>
          (slotEntry slotIdCodec .host (2, data)).map (·.2) :=
  ⟨honest_slotIdCodec, by decide,
    lookup_parseStats_of_honest slotIdCodec honest_slotIdCodec _ (by decide) .host 2⟩

theorem getLocalHostScore_slotIdCodec :
    Honest slotIdCodec ∧ ([(0, [1]), (3, []), (2, [5])].map Prod.fst).Nodup ∧ 2 ≠ 0 ∧
      getLocalHostScore slotIdCodec 60 2 [(0, [1]), (3, []), (2, [5])] 10 =
        match (parseStats slotIdCodec [(0, [1]), (3, []), (2, [5])] .host).lookup 2 with
        | some (.host md) => if slotIdCodec.hostTs md + 60 ≥ 10 then slotIdCodec.score md else 0
        | _ => 0 :=
  ⟨honest_slotIdCodec, by decide, by decide,
    getLocalHostScore_eq_parseStats slotIdCodec honest_slotIdCodec _ (by decide) 60 2 (by decide) 10⟩

end HostedEngineHa.Client
