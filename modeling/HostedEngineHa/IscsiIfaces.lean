import HostedEngineHa.Struct
import Mathlib.Data.List.Infix

/-! `StorageServer._get_iscsi_ifaces`: ASCII decoding, `splitlines()`, and `iscsiadm_re`
matched as Python's backtracking engine does, with greedy `(.*)` groups. -/
namespace HostedEngineHa.StorageServer

/-- The `UnicodeDecodeError` of `bytes.decode()`, at the position of the first byte it cannot
decode. -/
structure UnicodeDecodeError where
  position : Nat
  deriving DecidableEq, Repr

/-- `bytes.decode()` in Python 2, whose default codec is ASCII: a byte past 127 raises. -/
def decodeAscii (bytes : Bytes) : Except UnicodeDecodeError (List Char) :=
  match bytes.findIdx? fun byte => 128 ≤ byte.toNat with
  | some position => .error ⟨position⟩
  | none => .ok (bytes.map fun byte => Char.ofNat byte.toNat)

/-- Modelled from CPython's unicode database: the characters `unicode.splitlines()` breaks
at. `"\r\n"` is one boundary. -/
def isLineBoundary (c : Char) : Bool :=
  c == '\n' || c == '\r' || c == '\x0b' || c == '\x0c' || c == '\x1c' || c == '\x1d' ||
    c == '\x1e' || c == '\x85' || c == '\u2028' || c == '\u2029'

/-- The loop of `text.splitlines()`: `line` is the line read so far, and `afterCr` says that
the character before ended a line as a `'\r'`, so that a `'\n'` here belongs to that boundary.
A boundary ends the line; text after the last boundary is a last line, and no empty line
follows a final boundary. -/
def splitlinesFrom (afterCr : Bool) (line : List Char) : List Char → List (List Char)
  | [] => if line = [] then [] else [line]
  | c :: rest =>
    if afterCr && c == '\n' then splitlinesFrom false line rest
    else if isLineBoundary c then line :: splitlinesFrom (c == '\r') [] rest
    else splitlinesFrom false (line ++ [c]) rest

def splitlines (text : List Char) : List (List Char) := splitlinesFrom false [] text

inductive PatternPiece where
  | literal (text : List Char)
  | group

/-- `re.match(pattern + '$', text)` for a pattern of literals and `(.*)` groups, with the
groups it captures. A group takes any characters but `'\n'`, as many as it can: the engine
tries the longest run first and gives back one character at a time until the rest matches.
`$` matches at the end, or before a newline that ends the text. -/
def matchPieces : List PatternPiece → List Char → Option (List (List Char))
  | [], rest => if rest = [] ∨ rest = ['\n'] then some [] else none
  | .literal text :: pieces, rest =>
    if text.isPrefixOf rest then matchPieces pieces (rest.drop text.length) else none
  | .group :: pieces, rest =>
    (List.range ((rest.takeWhile (· ≠ '\n')).length + 1)).reverse.findSome? fun taken =>
      (matchPieces pieces (rest.drop taken)).map (rest.take taken :: ·)

/-- `iscsiadm_re`: `^(?P<iscsi_ifacename>.*) tcp,(?P<hwaddress>.*),(?P<ipaddress>.*),`
`(?P<net_ifacename>.*),(?P<initiatorname>.*)$`. -/
def iscsiadmPattern : List PatternPiece :=
  [.group, .literal [' ', 't', 'c', 'p', ','], .group, .literal [','], .group, .literal [','],
    .group, .literal [','], .group]

/-- An entry of `iscsi_bond_ifaces`: its `ifaceName` and `netIfaceName`, `None` in the entry
added when no interface is found. -/
structure Iface where
  ifaceName : Option (List Char)
  netIfaceName : Option (List Char)
  deriving DecidableEq, Repr

/-- `_RESERVED_INTERFACES`. -/
def reservedInterfaces : List (List Char) := [['d', 'e', 'f', 'a', 'u', 'l', 't'], ['i', 's', 'e', 'r']]

/-- The `net_ifacename` iscsiadm prints for an interface bound to no network interface. -/
def emptyNetIface : List Char := ['<', 'e', 'm', 'p', 't', 'y', '>']

/-- One line of the loop: the interface it adds, if the line matches and the interface is
neither reserved nor unbound. -/
def ifaceOfLine (line : List Char) : Option Iface :=
  match matchPieces iscsiadmPattern line with
  | some [ifaceName, _, _, netIfaceName, _] =>
    if ifaceName ∉ reservedInterfaces ∧ netIfaceName ≠ emptyNetIface then
      some ⟨some ifaceName, some netIfaceName⟩
    else none
  | _ => none

/-- `if not iscsi_ifaces: iscsi_ifaces.append(...)`: an empty result becomes one interface with
neither name. -/
def orNoIface (found : List Iface) : List Iface := if found = [] then [⟨none, none⟩] else found

/-- `_get_iscsi_ifaces()` on the exit status and the output of `sudo iscsiadm -m iface`. Both
outputs are decoded before the status is looked at. -/
def getIscsiIfaces (rc : Int) (stdout stderr : Bytes) : Except UnicodeDecodeError (List Iface) := do
  let out ← decodeAscii stdout
  let _ ← decodeAscii stderr
  let found := if rc = 0 then (splitlines out).filterMap ifaceOfLine else []
  return orNoIface found

/-! ### The greedy match -/

theorem findSome?_reverse_range {β : Type} (f : Nat → Option β) (m n : Nat) (v : β)
    (le : m ≤ n) (later : ∀ k, m < k → k ≤ n → f k = none) (hit : f m = some v) :
    (List.range (n + 1)).reverse.findSome? f = some v := by
  induction n with
  | zero =>
    obtain rfl : m = 0 := by omega
    change List.findSome? f [0] = some v
    simp [hit]
  | succ n ih =>
    rw [List.range_succ, List.reverse_append, List.reverse_singleton, List.singleton_append,
      List.findSome?_cons]
    by_cases top : m = n + 1
    · subst top
      rw [hit]
    · rw [later (n + 1) (by omega) le_rfl]
      exact ih (by omega) fun k lt below => later k lt (by omega)

theorem length_takeWhile_of_no_newline (rest : List Char) (noNewline : '\n' ∉ rest) :
    (rest.takeWhile (· ≠ '\n')).length = rest.length := by
  have kept : ∀ c ∈ rest, decide (c ≠ '\n') = true := fun c member =>
    decide_eq_true fun same => noNewline (same ▸ member)
  rw [List.takeWhile_eq_self_iff.mpr kept]

/-- A group followed by a literal takes the text before the literal's first occurrence from
which the rest matches, when no later occurrence lets the rest match. -/
theorem matchPieces_group_literal (front text back : List Char) (pieces : List PatternPiece)
    (captures : List (List Char)) (noNewline : '\n' ∉ front ++ text ++ back)
    (tail : matchPieces pieces back = some captures)
    (later : ∀ taken, front.length < taken → taken ≤ (front ++ text ++ back).length →
      text.isPrefixOf ((front ++ text ++ back).drop taken) = true →
      matchPieces pieces (((front ++ text ++ back).drop taken).drop text.length) = none) :
    matchPieces (.group :: .literal text :: pieces) (front ++ text ++ back) =
      some (front :: captures) := by
  rw [matchPieces, length_takeWhile_of_no_newline _ noNewline]
  apply findSome?_reverse_range _ front.length _ _ (by simp)
  · intro taken lt below
    simp only [matchPieces]
    split
    · rename_i found
      rw [later taken lt below found]
      rfl
    · rfl
  · have found : text.isPrefixOf (text ++ back) = true := by simp
    simp only [matchPieces, List.append_assoc, List.drop_left, found, if_true, tail,
      List.take_left]
    rfl

theorem matchPieces_group (rest : List Char) (noNewline : '\n' ∉ rest) :
    matchPieces [.group] rest = some [rest] := by
  rw [matchPieces, length_takeWhile_of_no_newline _ noNewline]
  apply findSome?_reverse_range _ rest.length _ _ le_rfl (fun k lt below => by omega)
  simp [matchPieces]

def commaDemand : List PatternPiece → Nat
  | [] => 0
  | .literal text :: pieces => text.count ',' + commaDemand pieces
  | .group :: pieces => commaDemand pieces

theorem commaDemand_le_of_matchPieces (pieces : List PatternPiece) (rest : List Char)
    (captures : List (List Char)) (matched : matchPieces pieces rest = some captures) :
    commaDemand pieces ≤ rest.count ',' := by
  induction pieces generalizing rest captures with
  | nil => exact Nat.zero_le _
  | cons piece pieces ih =>
    cases piece with
    | literal text =>
      simp only [matchPieces] at matched
      split at matched
      · rename_i found
        obtain ⟨back, rfl⟩ := List.isPrefixOf_iff_prefix.mp found
        have := ih _ _ matched
        simp only [List.drop_left] at this
        simp only [commaDemand, List.count_append]
        omega
      · cases matched
    | group =>
      simp only [matchPieces] at matched
      obtain ⟨taken, -, hit⟩ := List.exists_of_findSome?_eq_some matched
      obtain ⟨tailCaptures, tail, -⟩ := Option.map_eq_some'.mp hit
      exact le_trans (ih _ _ tail) ((List.drop_sublist taken rest).count_le ',')

/-- A group before a separator that holds a comma: when what follows the separator holds no
more commas than the rest of the pattern needs, no later occurrence of the separator leaves
enough of them, so the group stops at this one, whatever the text before it holds. -/
theorem matchPieces_group_separator (front text back : List Char) (pieces : List PatternPiece)
    (captures : List (List Char)) (noNewline : '\n' ∉ front ++ text ++ back)
    (tail : matchPieces pieces back = some captures)
    (exact : back.count ',' ≤ commaDemand pieces) (separates : 0 < text.count ',')
    (noOverlap : ∀ d, 0 < d → d < text.length → text.isPrefixOf (text.drop d ++ back) = false) :
    matchPieces (.group :: .literal text :: pieces) (front ++ text ++ back) =
      some (front :: captures) := by
  apply matchPieces_group_literal _ _ _ _ _ noNewline tail
  intro taken lt below found
  have past : (front ++ text ++ back).drop taken =
      (text ++ back).drop (taken - front.length) := by
    rw [List.append_assoc, List.drop_append_eq_append_drop, List.drop_eq_nil_of_le (by omega),
      List.nil_append]
  by_cases early : taken < front.length + text.length
  · rw [past, List.drop_append_of_le_length (by omega), noOverlap _ (by omega) (by omega)] at found
    cases found
  · obtain ⟨more, split⟩ := List.isPrefixOf_iff_prefix.mp found
    have within : List.Sublist ((front ++ text ++ back).drop taken) back := by
      rw [past, List.drop_append_eq_append_drop, List.drop_eq_nil_of_le (by omega),
        List.nil_append]
      exact List.drop_sublist _ back
    cases matched : matchPieces pieces (((front ++ text ++ back).drop taken).drop text.length) with
    | none => rfl
    | some others =>
      have need := commaDemand_le_of_matchPieces _ _ _ matched
      have bound := within.count_le ','
      rw [← split, List.drop_left] at need
      rw [← split, List.count_append] at bound
      omega

/-! ### The lines `iscsiadm -m iface` prints -/

def commaJoin (field : List Char) : List (List Char) → List Char
  | [] => field
  | next :: fields => field ++ [','] ++ commaJoin next fields

def commaGroups : Nat → List PatternPiece
  | 0 => [.group]
  | n + 1 => .group :: .literal [','] :: commaGroups n

theorem iscsiadmPattern_eq :
    iscsiadmPattern = .group :: .literal [' ', 't', 'c', 'p', ','] :: commaGroups 3 := rfl

@[simp] theorem commaDemand_commaGroups (n : Nat) : commaDemand (commaGroups n) = n := by
  induction n with
  | zero => rfl
  | succ n ih =>
    simp only [commaGroups, commaDemand, ih, List.count_singleton_self]
    omega

theorem count_comma_commaJoin (field : List Char) (fields : List (List Char))
    (noComma : ∀ f ∈ field :: fields, ',' ∉ f) : (commaJoin field fields).count ',' = fields.length := by
  induction fields generalizing field with
  | nil => exact List.count_eq_zero.mpr (noComma field (List.mem_singleton_self _))
  | cons next fields ih =>
    rw [commaJoin, List.count_append, List.count_append,
      ih next fun f member => noComma f (List.mem_cons_of_mem _ member),
      List.count_eq_zero.mpr (noComma field (List.mem_cons_self _ _)), List.count_singleton_self,
      List.length_cons]
    omega

theorem matchPieces_commaGroups (field : List Char) (fields : List (List Char))
    (noComma : ∀ f ∈ field :: fields, ',' ∉ f) (noNewline : '\n' ∉ commaJoin field fields) :
    matchPieces (commaGroups fields.length) (commaJoin field fields) = some (field :: fields) := by
  induction fields generalizing field with
  | nil => exact matchPieces_group field noNewline
  | cons next fields ih =>
    have later : ∀ f ∈ next :: fields, ',' ∉ f := fun f member =>
      noComma f (List.mem_cons_of_mem _ member)
    rw [List.length_cons, commaGroups, commaJoin]
    exact matchPieces_group_separator _ _ _ _ _ noNewline
      (ih next later fun member => noNewline (List.mem_append_right _ member))
      ((count_comma_commaJoin next fields later).trans_le (commaDemand_commaGroups _).ge)
      (by decide) (fun d pos below => by simp only [List.length_singleton] at below; omega)

/-- A line of `iscsiadm -m iface`, `iface_name tcp,hwaddress,ipaddress,net_ifacename,
initiatorname`, by its fields. -/
structure IfaceRecord where
  ifaceName : List Char
  hwAddress : List Char
  ipAddress : List Char
  netIfaceName : List Char
  initiatorName : List Char
  deriving DecidableEq, Repr

namespace IfaceRecord

def line (r : IfaceRecord) : List Char :=
  r.ifaceName ++ [' ', 't', 'c', 'p', ','] ++
    commaJoin r.hwAddress [r.ipAddress, r.netIfaceName, r.initiatorName]

/-- A record iscsiadm prints on one ASCII line, whose fields after the interface name hold no
comma. The interface name may hold anything else, commas and `" tcp,"` included. -/
def WellFormed (r : IfaceRecord) : Prop :=
  (∀ c ∈ r.line, isLineBoundary c = false ∧ c.toNat < 128) ∧
    ∀ f ∈ [r.hwAddress, r.ipAddress, r.netIfaceName, r.initiatorName], ',' ∉ f

instance : DecidablePred WellFormed := fun _ => inferInstanceAs (Decidable (_ ∧ _))

/-- An interface `_get_iscsi_ifaces` keeps: not reserved, and bound to a network interface. -/
def Usable (r : IfaceRecord) : Prop :=
  r.ifaceName ∉ reservedInterfaces ∧ r.netIfaceName ≠ emptyNetIface

instance : DecidablePred Usable := fun _ => inferInstanceAs (Decidable (_ ∧ _))

/-- The entry `_get_iscsi_ifaces` adds for the record. -/
def iface (r : IfaceRecord) : Iface := ⟨some r.ifaceName, some r.netIfaceName⟩

end IfaceRecord

theorem not_newline_of_wellFormed (r : IfaceRecord) (wellFormed : r.WellFormed) : '\n' ∉ r.line :=
  fun member => nomatch (wellFormed.1 _ member).1

/-- `iscsiadm_re` reads a printed line back into its five fields: the greedy first group stops
at the last `" tcp,"` that leaves the three commas the rest needs, which is the one iscsiadm
printed after the interface name. -/
theorem matchPieces_iscsiadmPattern_line (r : IfaceRecord) (wellFormed : r.WellFormed) :
    matchPieces iscsiadmPattern r.line =
      some [r.ifaceName, r.hwAddress, r.ipAddress, r.netIfaceName, r.initiatorName] := by
  have noNewline := not_newline_of_wellFormed r wellFormed
  rw [iscsiadmPattern_eq]
  refine matchPieces_group_separator _ _ _ _ _ noNewline
    (matchPieces_commaGroups _ _ wellFormed.2 fun member =>
      noNewline (List.mem_append_right _ member))
    (count_comma_commaJoin _ _ wellFormed.2).le (by decide) fun d pos below => ?_
  have : d = 1 ∨ d = 2 ∨ d = 3 ∨ d = 4 := by
    simp only [List.length_cons, List.length_nil] at below; omega
  rcases this with rfl | rfl | rfl | rfl <;> rfl

theorem ifaceOfLine_line (r : IfaceRecord) (wellFormed : r.WellFormed) :
    ifaceOfLine r.line = if r.Usable then some r.iface else none := by
  rw [ifaceOfLine, matchPieces_iscsiadmPattern_line r wellFormed]
  rfl

/-! ### Reading the whole listing -/

theorem getIscsiIfaces_of_decoded (rc : Int) (stdout stderr : Bytes) (text errText : List Char)
    (out : decodeAscii stdout = .ok text) (err : decodeAscii stderr = .ok errText) :
    getIscsiIfaces rc stdout stderr =
      .ok (orNoIface (if rc = 0 then (splitlines text).filterMap ifaceOfLine else [])) := by
  rw [getIscsiIfaces, out, err]
  rfl

theorem splitlinesFrom_append (line chunk rest : List Char)
    (inLine : ∀ c ∈ chunk, isLineBoundary c = false) :
    splitlinesFrom false line (chunk ++ rest) = splitlinesFrom false (line ++ chunk) rest := by
  induction chunk generalizing line with
  | nil => rw [List.nil_append, List.append_nil]
  | cons c chunk ih =>
    have kept := inLine c (List.mem_cons_self _ _)
    rw [List.cons_append, splitlinesFrom, Bool.false_and, if_neg Bool.false_ne_true, kept,
      if_neg Bool.false_ne_true, ih _ fun d member => inLine d (List.mem_cons_of_mem _ member),
      List.append_assoc, List.singleton_append]

theorem splitlinesFrom_line (line rest : List Char)
    (inLine : ∀ c ∈ line, isLineBoundary c = false) :
    splitlinesFrom false [] (line ++ '\n' :: rest) = line :: splitlinesFrom false [] rest := by
  rw [splitlinesFrom_append [] line _ inLine, List.nil_append, splitlinesFrom, Bool.false_and,
    if_neg Bool.false_ne_true, if_pos (show isLineBoundary '\n' = true from rfl)]
  rfl

theorem splitlines_flatMap (lines : List (List Char))
    (inLine : ∀ line ∈ lines, ∀ c ∈ line, isLineBoundary c = false) :
    splitlines (lines.flatMap (· ++ ['\n'])) = lines := by
  induction lines with
  | nil => rfl
  | cons line lines ih =>
    rw [List.flatMap_cons, List.append_assoc, List.singleton_append, splitlines,
      splitlinesFrom_line _ _ (inLine line (List.mem_cons_self _ _))]
    exact congrArg _ (ih fun line member => inLine line (List.mem_cons_of_mem _ member))

def asciiBytes (text : List Char) : Bytes := text.map fun c => UInt8.ofNat c.toNat

theorem decodeAscii_asciiBytes (text : List Char) (ascii : ∀ c ∈ text, c.toNat < 128) :
    decodeAscii (asciiBytes text) = .ok text := by
  have byte : ∀ c ∈ text, (UInt8.ofNat c.toNat).toNat = c.toNat := fun c member =>
    UInt8.toNat_ofNat_of_lt (Nat.lt_trans (ascii c member) (by decide))
  have noHigh : (asciiBytes text).findIdx? (fun byte => 128 ≤ byte.toNat) = none := by
    refine List.findIdx?_eq_none_iff.mpr fun b member => ?_
    obtain ⟨c, inText, rfl⟩ := List.mem_map.mp member
    exact decide_eq_false (by rw [byte c inText]; exact Nat.not_le.mpr (ascii c inText))
  rw [decodeAscii, noHigh, asciiBytes, List.map_map]
  exact congrArg _ ((List.map_congr_left fun c member => by
    rw [Function.comp_apply, byte c member, Char.ofNat_toNat]).trans (List.map_id' text))

/-- What `sudo iscsiadm -m iface` prints for the records: each record's line, ended by a
newline. -/
def listing (records : List IfaceRecord) : List Char :=
  (records.map IfaceRecord.line).flatMap (· ++ ['\n'])

theorem filterMap_ifaceOfLine (records : List IfaceRecord)
    (wellFormed : ∀ r ∈ records, r.WellFormed) :
    (records.map IfaceRecord.line).filterMap ifaceOfLine =
      (records.filter (·.Usable)).map IfaceRecord.iface := by
  induction records with
  | nil => rfl
  | cons r records ih =>
    rw [List.map_cons, List.filterMap_cons, ifaceOfLine_line r (wellFormed r (List.mem_cons_self _ _)),
      ih fun r member => wellFormed r (List.mem_cons_of_mem _ member), List.filter_cons]
    by_cases usable : r.Usable <;> simp [usable]

def bondListing : List IfaceRecord :=
  [⟨['d', 'e', 'f', 'a', 'u', 'l', 't'], ['h'], ['i'], ['e'], ['q']⟩,
    ⟨['b', ' ', 't', 'c', 'p', ',', '1'], ['h'], ['i'], ['e', '1'], ['q']⟩]

end HostedEngineHa.StorageServer
