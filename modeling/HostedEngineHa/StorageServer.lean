import Mathlib.Data.List.Infix

/-! The iSCSI path blacklist: `ISCSI_MPATHS_BLACKLIST` as `StorageServer.__init__` parses it,
and the value `connect_storage_server` suggests for failing paths. -/
namespace HostedEngineHa.StorageServer

/-- The characters Python 2's `str.isspace` accepts, which `str.strip()` removes. -/
def isSpace (c : Char) : Bool :=
  c == ' ' || c == '\t' || c == '\n' || c == '\r' || c == '\x0b' || c == '\x0c'

/-- `text.strip()`: the text without the whitespace at either end. -/
def strip (text : List Char) : List Char :=
  ((text.dropWhile isSpace).reverse.dropWhile isSpace).reverse

/-- The loop of `text.split(sep)`: `field` is the piece read so far, and every occurrence of
`sep`, found from the left, ends a piece. An empty `sep`, for which Python raises, never
matches. -/
def splitFrom (sep field : List Char) : List Char → List (List Char)
  | [] => [field]
  | c :: rest =>
    if _found : sep ≠ [] ∧ sep.isPrefixOf (c :: rest) then
      field :: splitFrom sep [] ((c :: rest).drop sep.length)
    else splitFrom sep (field ++ [c]) rest
termination_by text => text.length
decreasing_by
  all_goals simp_wf
  have := List.length_pos.mpr _found.1
  omega

def splitOn (sep text : List Char) : List (List Char) := splitFrom sep [] text

structure IndexError where
  message : String
  deriving DecidableEq, Repr

/-- One entry `t` of the value: `iface_portal = t.split('<>')`, and the pair of its first two
parts, whose indexing raises on an entry with no `'<>'`. -/
def blacklistEntry (t : List Char) : Except IndexError (List Char × List Char) :=
  match splitOn ['<', '>'] t with
  | iface :: portal :: _ => .ok (iface, portal)
  | _ => .error ⟨"list index out of range"⟩

/-- The parse of `ISCSI_MPATHS_BLACKLIST` in `StorageServer.__init__`, on what `config.get`
returned: with no value the list stays empty; otherwise every `','`-separated entry of the
stripped value is appended as a pair. The `IndexError` of an entry with no `'<>'` is not one
of the `(KeyError, ValueError)` the handler catches, so it escapes `__init__`. -/
def iscsiPathsBlacklist : Option (List Char) → Except IndexError (List (List Char × List Char))
  | none => .ok []
  | some value => (splitOn [','] (strip value)).mapM blacklistEntry

/-- The connection details of a failed path, as `connect_storage_server` collects them: its
`ifaceName` and `connection` entries, where present. -/
abbrev FailedPath := Option (List Char) × Option (List Char)

def failedPairs (failedPaths : List FailedPath) : List (List Char × List Char) :=
  failedPaths.filterMap fun path =>
    match path with
    | (some iface, some portal) => some (iface, portal)
    | _ => none

/-- `bl_example`, the value `connect_storage_server` suggests for its failing paths:
`','.join([fp['ifaceName'] + '<>' + fp['connection'] for fp in failed_paths
if 'ifaceName' in fp and 'connection' in fp])`. -/
def blacklistExample (failedPaths : List FailedPath) : List Char :=
  [','].intercalate (failedPaths.filterMap fun path =>
    match path with
    | (some iface, some portal) => some (iface ++ ['<', '>'] ++ portal)
    | _ => none)

def joinEntries (entries : List (List Char × List Char)) : List Char :=
  [','].intercalate (entries.map fun entry => entry.1 ++ ['<', '>'] ++ entry.2)

theorem blacklistExample_eq (failedPaths : List FailedPath) :
    blacklistExample failedPaths = joinEntries (failedPairs failedPaths) := by
  simp only [blacklistExample, joinEntries, failedPairs, List.map_filterMap]
  congr 2
  funext path
  rcases path with ⟨_ | iface, _ | portal⟩ <;> rfl

/-! ### `str.split` -/

theorem splitFrom_nil (sep field : List Char) : splitFrom sep field [] = [field] := by
  rw [splitFrom]

theorem splitFrom_append (sep field front rest : List Char)
    (free : ∀ k < front.length, sep.isPrefixOf (front.drop k ++ rest) = false) :
    splitFrom sep field (front ++ rest) = splitFrom sep (field ++ front) rest := by
  induction front generalizing field with
  | nil => simp
  | cons c front ih =>
    have here := free 0 (by simp)
    rw [List.cons_append, splitFrom, dif_neg (by simp_all),
      ih _ fun k lt => by simpa using free (k + 1) (by simp; omega)]
    simp

theorem splitFrom_sep (sep field rest : List Char) (nonempty : sep ≠ []) :
    splitFrom sep field (sep ++ rest) = field :: splitFrom sep [] rest := by
  obtain ⟨c, sep', rfl⟩ := List.exists_cons_of_ne_nil nonempty
  rw [List.cons_append, splitFrom, dif_pos ⟨nonempty, by simp⟩]
  simp

theorem comma_free (front rest : List Char) (noComma : ',' ∉ front) :
    ∀ k < front.length, [','].isPrefixOf (front.drop k ++ rest) = false := by
  intro k lt
  rw [List.drop_eq_getElem_cons lt]
  have other : front[k] ≠ ',' := fun same => noComma (same ▸ List.getElem_mem lt)
  simp [List.isPrefixOf, Ne.symm other]

theorem arrow_free (front rest : List Char) (noArrow : ¬ ['<', '>'] <:+: front)
    (next : rest.head? ≠ some '>') :
    ∀ k < front.length, ['<', '>'].isPrefixOf (front.drop k ++ rest) = false := by
  intro k lt
  rw [List.drop_eq_getElem_cons lt]
  by_cases open_ : front[k] = '<'
  · cases after : front.drop (k + 1) with
    | nil =>
      cases rest with
      | nil => simp [List.isPrefixOf, open_]
      | cons d rest =>
        have : d ≠ '>' := fun same => next (by simp [same])
        simp [List.isPrefixOf, open_, Ne.symm this]
    | cons d more =>
      by_cases close : d = '>'
      · refine absurd ⟨front.take k, more, ?_⟩ noArrow
        conv_rhs => rw [← List.take_append_drop k front, List.drop_eq_getElem_cons lt, after]
        simp [open_, close]
      · simp [List.isPrefixOf, open_, Ne.symm close]
  · simp [List.isPrefixOf, Ne.symm open_]

theorem splitFrom_comma_intercalate (piece : List Char) (rest : List (List Char))
    (field : List Char) (noComma : ∀ other ∈ piece :: rest, ',' ∉ other) :
    splitFrom [','] field ([','].intercalate (piece :: rest)) = (field ++ piece) :: rest := by
  induction rest generalizing piece field with
  | nil =>
    have single : [','].intercalate [piece] = piece := by simp [List.intercalate]
    simpa [single, splitFrom_nil] using
      splitFrom_append [','] field piece [] (comma_free piece [] (noComma piece (by simp)))
  | cons next rest ih =>
    have joined : [','].intercalate (piece :: next :: rest) =
        piece ++ ([','] ++ [','].intercalate (next :: rest)) := by
      simp [List.intercalate, List.intersperse]
    rw [joined, splitFrom_append _ _ _ _ (comma_free _ _ (noComma piece (by simp))),
      splitFrom_sep _ _ _ (by simp), ih next [] fun other member => noComma other (by simp_all)]
    simp

theorem splitOn_comma_intercalate (pieces : List (List Char)) (nonempty : pieces ≠ [])
    (noComma : ∀ piece ∈ pieces, ',' ∉ piece) :
    splitOn [','] ([','].intercalate pieces) = pieces := by
  obtain ⟨piece, rest, rfl⟩ := List.exists_cons_of_ne_nil nonempty
  simpa using splitFrom_comma_intercalate piece rest [] noComma

theorem splitOn_arrow (iface portal : List Char) (noArrowIface : ¬ ['<', '>'] <:+: iface)
    (noArrowPortal : ¬ ['<', '>'] <:+: portal) :
    splitOn ['<', '>'] (iface ++ ['<', '>'] ++ portal) = [iface, portal] := by
  rw [splitOn, List.append_assoc, splitFrom_append _ _ _ _ (arrow_free _ _ noArrowIface (by simp)),
    splitFrom_sep _ _ _ (by simp)]
  simpa [splitFrom_nil] using
    splitFrom_append ['<', '>'] [] portal [] (arrow_free _ _ noArrowPortal (by simp))

theorem splitOn_arrow_of_free (t : List Char) (noArrow : ¬ ['<', '>'] <:+: t) :
    splitOn ['<', '>'] t = [t] := by
  simpa [splitFrom_nil] using splitFrom_append ['<', '>'] [] t [] (arrow_free _ _ noArrow (by simp))

/-! ### `str.strip` -/

def Unpadded (text : List Char) : Prop :=
  (∀ c ∈ text.head?, isSpace c = false) ∧ ∀ c ∈ text.getLast?, isSpace c = false

theorem dropWhile_isSpace_append (front : List Char) (c : Char) (rest : List Char)
    (first : ∀ d ∈ front.head?, isSpace d = false) (notSpace : isSpace c = false) :
    (front ++ c :: rest).dropWhile isSpace = front ++ c :: rest := by
  cases front with
  | nil => simp [List.dropWhile_cons, notSpace]
  | cons d front => simp [List.dropWhile_cons, first d rfl]

theorem intercalate_cons_eq (piece : List Char) (rest : List (List Char)) :
    ∃ back, [','].intercalate (piece :: rest) = piece ++ back := by
  cases rest with
  | nil => exact ⟨[], by simp [List.intercalate]⟩
  | cons next rest =>
    exact ⟨[','] ++ [','].intercalate (next :: rest), by simp [List.intercalate, List.intersperse]⟩

theorem intercalate_concat_eq (pieces : List (List Char)) (piece : List Char) :
    ∃ front, [','].intercalate (pieces ++ [piece]) = front ++ piece := by
  induction pieces with
  | nil => exact ⟨[], by simp [List.intercalate]⟩
  | cons first pieces ih =>
    obtain ⟨front, joined⟩ := ih
    refine ⟨first ++ [','] ++ front, ?_⟩
    obtain ⟨next, more, split⟩ := List.exists_cons_of_ne_nil
      (List.append_ne_nil_of_right_ne_nil pieces (List.cons_ne_nil piece []))
    have unfolded : [','].intercalate (first :: (pieces ++ [piece])) =
        first ++ [','] ++ [','].intercalate (pieces ++ [piece]) := by
      rw [split]; simp [List.intercalate, List.intersperse]
    rw [List.cons_append, unfolded, joined, List.append_assoc, List.append_assoc, List.append_assoc]

theorem blacklistEntry_arrow (iface portal : List Char) (noArrowIface : ¬ ['<', '>'] <:+: iface)
    (noArrowPortal : ¬ ['<', '>'] <:+: portal) :
    blacklistEntry (iface ++ ['<', '>'] ++ portal) = .ok (iface, portal) := by
  rw [blacklistEntry, splitOn_arrow iface portal noArrowIface noArrowPortal]

theorem blacklistEntry_of_free (t : List Char) (noArrow : ¬ ['<', '>'] <:+: t) :
    blacklistEntry t = .error ⟨"list index out of range"⟩ := by
  rw [blacklistEntry, splitOn_arrow_of_free t noArrow]

/-- What an entry raises is always the `IndexError` of `iface_portal[1]`. -/
theorem blacklistEntry_eq_error (t : List Char) (raised : IndexError)
    (fails : blacklistEntry t = .error raised) : raised = ⟨"list index out of range"⟩ := by
  unfold blacklistEntry at fails
  split at fails
  · cases fails
  · exact (Except.error.inj fails).symm

def CleanEntries (entries : List (List Char × List Char)) : Prop :=
  ∀ entry ∈ entries, ',' ∉ entry.1 ∧ ',' ∉ entry.2 ∧ ¬ ['<', '>'] <:+: entry.1 ∧
    ¬ ['<', '>'] <:+: entry.2 ∧ Unpadded entry.1 ∧ Unpadded entry.2

theorem strip_joinEntries (entries : List (List Char × List Char)) (nonempty : entries ≠ [])
    (clean : CleanEntries entries) : strip (joinEntries entries) = joinEntries entries := by
  have front : (joinEntries entries).dropWhile isSpace = joinEntries entries := by
    obtain ⟨entry, rest, rfl⟩ := List.exists_cons_of_ne_nil nonempty
    obtain ⟨-, -, -, -, ⟨ifaceHead, -⟩, -⟩ := clean entry (by simp)
    obtain ⟨back, joined⟩ := intercalate_cons_eq (entry.1 ++ ['<', '>'] ++ entry.2)
      (rest.map fun entry => entry.1 ++ ['<', '>'] ++ entry.2)
    rw [joinEntries, List.map_cons, joined,
      show entry.1 ++ ['<', '>'] ++ entry.2 ++ back = entry.1 ++ '<' :: ('>' :: entry.2 ++ back) by
        simp]
    exact dropWhile_isSpace_append _ _ _ ifaceHead rfl
  have back : (joinEntries entries).reverse.dropWhile isSpace = (joinEntries entries).reverse := by
    obtain ⟨init, entry, rfl⟩ := (List.eq_nil_or_concat entries).resolve_left nonempty
    obtain ⟨-, -, -, -, -, ⟨-, portalLast⟩⟩ := clean entry (by simp)
    obtain ⟨front, joined⟩ := intercalate_concat_eq
      (init.map fun entry => entry.1 ++ ['<', '>'] ++ entry.2) (entry.1 ++ ['<', '>'] ++ entry.2)
    rw [joinEntries, List.concat_eq_append, List.map_append, List.map_singleton, joined,
      show (front ++ (entry.1 ++ ['<', '>'] ++ entry.2)).reverse =
        entry.2.reverse ++ '>' :: (front ++ entry.1 ++ ['<']).reverse by simp]
    exact dropWhile_isSpace_append _ _ _ (by simpa [List.head?_reverse] using portalLast) rfl
  rw [strip, front, back, List.reverse_reverse]

theorem iscsiPathsBlacklist_joinEntries (entries : List (List Char × List Char))
    (nonempty : entries ≠ []) (clean : CleanEntries entries) :
    iscsiPathsBlacklist (some (joinEntries entries)) = .ok entries := by
  have noComma : ∀ piece ∈ entries.map (fun entry => entry.1 ++ ['<', '>'] ++ entry.2),
      ',' ∉ piece := by
    simp only [List.mem_map]
    rintro _ ⟨entry, member, rfl⟩
    obtain ⟨ifaceComma, portalComma, -⟩ := clean entry member
    simp [ifaceComma, portalComma]
  rw [iscsiPathsBlacklist, strip_joinEntries entries nonempty clean, joinEntries,
    splitOn_comma_intercalate _ (by simpa using nonempty) noComma]
  clear nonempty noComma
  induction entries with
  | nil => rfl
  | cons entry entries ih =>
    obtain ⟨-, -, iface, portal, -⟩ := clean entry (by simp)
    simp only [List.map_cons, List.mapM_cons, blacklistEntry_arrow _ _ iface portal,
      ih fun other member => clean other (by simp [member])]
    rfl

theorem iscsiPathsBlacklist_blacklistExample (failedPaths : List FailedPath)
    (suggested : blacklistExample failedPaths ≠ []) (clean : CleanEntries (failedPairs failedPaths)) :
    iscsiPathsBlacklist (some (blacklistExample failedPaths)) = .ok (failedPairs failedPaths) := by
  rw [blacklistExample_eq] at suggested ⊢
  refine iscsiPathsBlacklist_joinEntries _ (fun empty => suggested ?_) clean
  rw [empty]
  rfl

theorem mapM_blacklistEntry_of_free (entries : List (List Char))
    (malformed : ∃ t ∈ entries, ¬ ['<', '>'] <:+: t) :
    entries.mapM blacklistEntry = .error ⟨"list index out of range"⟩ := by
  obtain ⟨t, member, noArrow⟩ := malformed
  induction entries with
  | nil => cases member
  | cons entry entries ih =>
    rw [List.mapM_cons]
    cases result : blacklistEntry entry with
    | error raised =>
      rw [blacklistEntry_eq_error entry raised result]
      rfl
    | ok pair =>
      rcases List.mem_cons.mp member with rfl | later
      · rw [blacklistEntry_of_free _ noArrow] at result
        cases result
      · simp only [ih later]
        rfl

/-- The parse raises as soon as one entry of the stripped value holds no `'<>'`: the empty
value, a value with a trailing `','`, or any entry without its `'<>'`. The `IndexError`
escapes the `(KeyError, ValueError)` handler, so `__init__` raises instead of ignoring the
value. -/
theorem iscsiPathsBlacklist_raises_indexError (value : List Char)
    (malformed : ∃ t ∈ splitOn [','] (strip value), ¬ ['<', '>'] <:+: t) :
    iscsiPathsBlacklist (some value) = .error ⟨"list index out of range"⟩ :=
  mapM_blacklistEntry_of_free _ malformed

theorem iscsiPathsBlacklist_raises_on_empty :
    (∃ t ∈ splitOn [','] (strip []), ¬ ['<', '>'] <:+: t) ∧
      iscsiPathsBlacklist (some []) = .error ⟨"list index out of range"⟩ :=
  have malformed : ∃ t ∈ splitOn [','] (strip []), ¬ ['<', '>'] <:+: t :=
    ⟨[], by simp [splitOn, strip, splitFrom_nil], fun contained => by simpa using contained.length_le⟩
  ⟨malformed, iscsiPathsBlacklist_raises_indexError [] malformed⟩

end HostedEngineHa.StorageServer
