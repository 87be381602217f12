import HostedEngineHa.ConnectionList

/-! `os.path.normpath` in `_fix_filebased_connection_path`: it keeps the position a path names
in a tree without symbolic links, is idempotent, and drops the root of `server:/`. -/
namespace HostedEngineHa.StorageServer

/-! ### Splitting on `'/'` -/

theorem splitFrom_single (c : Char) (field text : List Char) :
    splitFrom [c] field text = (text.splitOnP (· == c)).modifyHead (field ++ ·) := by
  induction text generalizing field with
  | nil => rw [splitFrom_nil, List.splitOnP_nil, List.modifyHead_cons, List.append_nil]
  | cons d rest ih =>
    rw [List.splitOnP_cons, show d :: rest = [d] ++ rest from rfl]
    by_cases here : d = c
    · subst here
      rw [splitFrom_sep _ _ _ (List.cons_ne_nil _ _), ih, if_pos (beq_self_eq_true d),
        List.modifyHead_cons, List.append_nil]
      cases List.splitOnP (· == d) rest <;> rfl
    · have free : ∀ k < [d].length, [c].isPrefixOf ([d].drop k ++ rest) = false := by
        intro k lt
        obtain rfl : k = 0 := by simpa using lt
        simp [List.isPrefixOf, Ne.symm here]
      rw [splitFrom_append _ _ _ _ free, ih, if_neg (by simpa using here),
        List.modifyHead_modifyHead]
      congr 1
      funext piece
      simp

theorem splitOn_single (c : Char) (text : List Char) : splitOn [c] text = text.splitOn c := by
  rw [splitOn, splitFrom_single]
  show _ = text.splitOnP (· == c)
  cases text.splitOnP (· == c) <;> rfl

theorem not_mem_of_mem_splitOn (c : Char) (text piece : List Char)
    (member : piece ∈ text.splitOn c) : c ∉ piece := by
  induction text generalizing piece with
  | nil =>
    obtain rfl : piece = [] := by simpa using member
    simp
  | cons d rest ih =>
    rw [List.splitOn, List.splitOnP_cons] at member
    split at member
    · rcases List.mem_cons.mp member with rfl | member
      · simp
      · exact ih piece member
    · rename_i other
      obtain ⟨first, more, pieces⟩ := List.exists_cons_of_ne_nil (List.splitOnP_ne_nil _ rest)
      rw [pieces, List.modifyHead_cons] at member
      rcases List.mem_cons.mp member with rfl | member
      · have : d ≠ c := by simpa using other
        exact List.not_mem_cons_of_ne_of_not_mem (Ne.symm this)
          (ih first (by rw [List.splitOn, pieces]; simp))
      · exact ih piece (by rw [List.splitOn, pieces]; simp [member])

theorem splitOn_replicate_append (c : Char) (s : Nat) (text : List Char) :
    (List.replicate s c ++ text).splitOn c = List.replicate s [] ++ text.splitOn c := by
  induction s with
  | zero => rfl
  | succ s ih =>
    rw [List.splitOn] at ih
    rw [List.replicate_succ, List.cons_append, List.splitOn, List.splitOnP_cons, if_pos (by simp),
      ih]
    rfl

/-! ### What a path names -/

/-- Walking the components of a path from `position`, the names from a directory up to the root
of a tree without symbolic links: an empty component or `'.'` stays, `'..'` goes to the parent
(the root is its own parent), and a name goes into that entry. -/
def walk (position : List (List Char)) : List (List Char) → List (List Char)
  | [] => position
  | comp :: comps =>
    if comp = [] ∨ comp = ['.'] then walk position comps
    else if comp = ['.', '.'] then walk position.tail comps
    else walk (comp :: position) comps

def resolve (cwd : List (List Char)) (path : List Char) : List (List Char) :=
  walk (if ['/'].isPrefixOf path then [] else cwd) (path.splitOn '/')

theorem walk_append (position : List (List Char)) (front back : List (List Char)) :
    walk position (front ++ back) = walk (walk position front) back := by
  induction front generalizing position with
  | nil => rfl
  | cons comp front ih =>
    simp only [List.cons_append, walk]
    split_ifs <;> exact ih _

theorem walk_replicate_nil (position : List (List Char)) (s : Nat) (comps : List (List Char)) :
    walk position (List.replicate s [] ++ comps) = walk position comps := by
  induction s with
  | zero => rfl
  | succ s ih => rw [List.replicate_succ, List.cons_append, walk, if_pos (Or.inl rfl), ih]

def Named (comp : List Char) : Prop := comp ≠ [] ∧ comp ≠ ['.']

instance : DecidablePred Named := fun _ => inferInstanceAs (Decidable (_ ∧ _))

theorem walk_name (position : List (List Char)) (comp : List Char) (named : Named comp)
    (notUp : comp ≠ ['.', '.']) : walk position [comp] = comp :: position := by
  rw [walk, if_neg (not_or.mpr named), if_neg notUp]
  rfl

/-- `normComps` keeps what the walk reaches: walked from `start`, its stack leads where the
components lead from the stack it started with. At the root, `'..'` with nothing kept is dropped,
which is right because the root is its own parent. -/
theorem walk_normComps (rooted : Bool) (kept comps : List (List Char)) (start : List (List Char))
    (named : ∀ x ∈ kept, Named x) (root : rooted = true → start = []) :
    walk start (normComps rooted kept comps).reverse = walk (walk start kept.reverse) comps := by
  induction comps generalizing kept with
  | nil => rfl
  | cons comp comps ih =>
    rw [normComps]
    split_ifs with skip push
    · rw [ih kept named, walk, if_pos skip]
    · have namedComp : Named comp := not_or.mp skip
      rw [ih (comp :: kept) (by simpa [namedComp] using named), List.reverse_cons, walk_append,
        ← walk_append, List.singleton_append]
    · obtain ⟨up, notEmptyRelative, notUpTop⟩ : comp = ['.', '.'] ∧
          ¬(rooted = false ∧ kept = []) ∧ kept.head? ≠ some ['.', '.'] := by
        simpa [not_or] using push
      rw [ih kept.tail (fun x member => named x (List.mem_of_mem_tail member)), up, walk,
        if_neg (by decide), if_pos rfl]
      cases kept with
      | nil =>
        obtain rfl := root (by simpa using notEmptyRelative)
        rfl
      | cons top rest =>
        have topName := walk_name (walk start rest.reverse) top (named top (by simp))
          (by simpa using notUpTop)
        rw [List.tail_cons, List.reverse_cons, walk_append, topName, List.tail_cons]

/-! ### The normal form -/

/-- The stack `normComps` keeps, last component first: names holding no `'/'`, with every `'..'`
under all of the other names, and none in an absolute path. -/
def StackOk (rooted : Bool) : List (List Char) → Prop
  | [] => True
  | x :: rest => (Named x ∧ '/' ∉ x) ∧
      (x = ['.', '.'] → rooted = false ∧ ∀ y ∈ rest, y = ['.', '.']) ∧ StackOk rooted rest

instance decidableStackOk (rooted : Bool) : DecidablePred (StackOk rooted)
  | [] => isTrue trivial
  | x :: rest =>
    have := decidableStackOk rooted rest
    inferInstanceAs (Decidable ((Named x ∧ '/' ∉ x) ∧
      (x = ['.', '.'] → rooted = false ∧ ∀ y ∈ rest, y = ['.', '.']) ∧ StackOk rooted rest))

example : StackOk false [['a'], ['.', '.'], ['.', '.']] ∧ ¬ StackOk true [['.', '.']] := by decide

theorem named_of_stackOk (rooted : Bool) (kept : List (List Char)) (ok : StackOk rooted kept) :
    ∀ x ∈ kept, Named x ∧ '/' ∉ x := by
  induction kept with
  | nil => simp
  | cons top rest ih =>
    intro x member
    rcases List.mem_cons.mp member with rfl | member
    · exact ok.1
    · exact ih ok.2.2 x member

theorem stackOk_append_right (rooted : Bool) (front back : List (List Char))
    (ok : StackOk rooted (front ++ back)) : StackOk rooted back := by
  induction front with
  | nil => exact ok
  | cons x front ih => exact ih ok.2.2

theorem stackOk_normComps (rooted : Bool) (kept comps : List (List Char))
    (free : ∀ comp ∈ comps, '/' ∉ comp) (ok : StackOk rooted kept) :
    StackOk rooted (normComps rooted kept comps) := by
  induction comps generalizing kept with
  | nil => exact ok
  | cons comp comps ih =>
    have freeRest := fun other member => free other (List.mem_cons_of_mem comp member)
    rw [normComps]
    split_ifs with skip push
    · exact ih kept freeRest ok
    · refine ih (comp :: kept) freeRest ⟨⟨not_or.mp skip, free comp (List.mem_cons_self _ _)⟩, ?_, ok⟩
      intro up
      rcases push with notUp | ⟨relative, rfl⟩ | top
      · exact absurd up notUp
      · exact ⟨relative, by simp⟩
      · cases kept with
        | nil => cases top
        | cons below rest =>
          obtain rfl : below = ['.', '.'] := Option.some.inj top
          obtain ⟨relative, downward⟩ := ok.2.1 rfl
          exact ⟨relative, by simpa using downward⟩
    · cases kept with
      | nil => exact ih [] freeRest trivial
      | cons top below => exact ih below freeRest ok.2.2

theorem normComps_of_stackOk (rooted : Bool) (comps kept : List (List Char))
    (ok : StackOk rooted (comps.reverse ++ kept)) :
    normComps rooted kept comps = comps.reverse ++ kept := by
  induction comps generalizing kept with
  | nil => rfl
  | cons comp comps ih =>
    have shifted : StackOk rooted (comps.reverse ++ comp :: kept) := by simpa using ok
    obtain ⟨⟨named, -⟩, downward, -⟩ := stackOk_append_right rooted _ _ shifted
    have push : comp ≠ ['.', '.'] ∨ (rooted = false ∧ kept = []) ∨
        kept.head? = some ['.', '.'] := by
      by_cases up : comp = ['.', '.']
      · obtain ⟨relative, below⟩ := downward up
        cases kept with
        | nil => exact .inr (.inl ⟨relative, rfl⟩)
        | cons y rest => exact .inr (.inr (by simp [below y (List.mem_cons_self _ _)]))
      · exact .inl up
    rw [normComps, if_neg (not_or.mpr named), if_pos push, ih _ shifted]
    simp

theorem normComps_replicate_nil (rooted : Bool) (kept : List (List Char)) (s : Nat)
    (comps : List (List Char)) :
    normComps rooted kept (List.replicate s [] ++ comps) = normComps rooted kept comps := by
  induction s with
  | zero => rfl
  | succ s ih => rw [List.replicate_succ, List.cons_append, normComps, if_pos (Or.inl rfl), ih]

theorem exists_intercalate_cons (x : List Char) (rest : List (List Char)) :
    ∃ back, ['/'].intercalate (x :: rest) = x ++ back := by
  cases rest with
  | nil => exact ⟨[], rfl⟩
  | cons y rest => exact ⟨'/' :: ['/'].intercalate (y :: rest), by simp [List.intercalate]⟩

theorem exists_intercalate_concat (front : List (List Char)) (x : List Char) :
    ∃ before, ['/'].intercalate (front ++ [x]) = before ++ x := by
  induction front with
  | nil => exact ⟨[], by simp [List.intercalate]⟩
  | cons y front ih =>
    obtain ⟨before, joined⟩ := ih
    obtain ⟨next, more, split⟩ := List.exists_cons_of_ne_nil
      (List.append_ne_nil_of_right_ne_nil front (List.cons_ne_nil x []))
    refine ⟨y ++ '/' :: before, ?_⟩
    rw [List.cons_append, split, show ['/'].intercalate (y :: next :: more) =
      y ++ '/' :: ['/'].intercalate (next :: more) by simp [List.intercalate], ← split, joined]
    simp

theorem isPrefixOf_slash_intercalate (names : List (List Char))
    (named : ∀ x ∈ names, Named x ∧ '/' ∉ x) : ['/'].isPrefixOf (['/'].intercalate names) = false := by
  cases names with
  | nil => rfl
  | cons x rest =>
    obtain ⟨back, joined⟩ := exists_intercalate_cons x rest
    obtain ⟨⟨nonempty, -⟩, noSlash⟩ := named x (List.mem_cons_self _ _)
    obtain ⟨c, more, rfl⟩ := List.exists_cons_of_ne_nil nonempty
    have : c ≠ '/' := fun same => noSlash (by simp [same])
    rw [joined, List.cons_append, List.isPrefixOf_cons₂]
    simp [Ne.symm this]

theorem leadingSlashes_replicate_append (s : Nat) (two : s ≤ 2) (rest : List Char)
    (notSlash : ['/'].isPrefixOf rest = false) :
    (if ['/'].isPrefixOf (List.replicate s '/' ++ rest) then
      if ['/', '/'].isPrefixOf (List.replicate s '/' ++ rest) &&
          !(['/', '/', '/'].isPrefixOf (List.replicate s '/' ++ rest)) then 2 else 1
    else 0) = s := by
  match s, two with
  | 0, _ => simp [notSlash]
  | 1, _ => simp [List.isPrefixOf_cons₂, notSlash]
  | 2, _ => simp [List.isPrefixOf_cons₂, notSlash]

/-- `normpath` on a nonempty path: the leading slashes it keeps, at most two and some exactly for
an absolute path, then the components `normComps` keeps. -/
theorem normpath_spec (path : List Char) (nonempty : path ≠ []) :
    ∃ s ≤ 2, (s ≠ 0 ↔ ['/'].isPrefixOf path) ∧
      normpath path =
        let joined := List.replicate s '/' ++
          ['/'].intercalate (normComps (s != 0) [] (splitOn ['/'] path)).reverse
        if joined = [] then ['.'] else joined := by
  refine ⟨_, ?_, ?_, by rw [normpath, if_neg nonempty]⟩
  · split <;> (try split) <;> omega
  · by_cases absolute : ['/'].isPrefixOf path = true
    · rw [if_pos absolute]
      split <;> simp [absolute]
    · rw [if_neg absolute]
      simp [absolute]

theorem normpath_dot : normpath ['.'] = ['.'] := by
  rw [normpath, if_neg (List.cons_ne_nil _ _), splitOn_single]
  rfl

theorem normpath_join (s : Nat) (two : s ≤ 2) (names : List (List Char))
    (ok : StackOk (s != 0) names.reverse)
    (nonempty : List.replicate s '/' ++ ['/'].intercalate names ≠ []) :
    normpath (List.replicate s '/' ++ ['/'].intercalate names) =
      List.replicate s '/' ++ ['/'].intercalate names := by
  have named : ∀ x ∈ names, Named x ∧ '/' ∉ x := fun x member =>
    named_of_stackOk _ _ ok x (List.mem_reverse.mpr member)
  have kept : normComps (s != 0) [] ((['/'].intercalate names).splitOn '/') = names.reverse := by
    by_cases empty : names = []
    · subst empty
      rfl
    · rw [List.splitOn_intercalate names '/' (fun x member => (named x member).2) empty,
        normComps_of_stackOk _ _ _ (by simpa using ok), List.append_nil]
  rw [normpath, if_neg nonempty]
  dsimp only
  rw [leadingSlashes_replicate_append s two _ (isPrefixOf_slash_intercalate names named),
    splitOn_single, splitOn_replicate_append, normComps_replicate_nil, kept,
    List.reverse_reverse, if_neg nonempty]

theorem normpath_cases (path : List Char) :
    normpath path = ['.'] ∨ ∃ s ≤ 2, ∃ names, StackOk (s != 0) names.reverse ∧
      List.replicate s '/' ++ ['/'].intercalate names ≠ [] ∧
      normpath path = List.replicate s '/' ++ ['/'].intercalate names := by
  by_cases empty : path = []
  · subst empty
    exact .inl rfl
  · obtain ⟨s, two, -, fixed⟩ := normpath_spec path empty
    have ok := stackOk_normComps (s != 0) [] (splitOn ['/'] path)
      (fun comp member => not_mem_of_mem_splitOn '/' path comp (by rwa [← splitOn_single]))
      trivial
    rw [fixed]
    dsimp only
    split
    · exact .inl rfl
    · exact .inr ⟨s, two, _, by rwa [List.reverse_reverse], ‹_›, rfl⟩

/-- `_fix_filebased_connection_path` is idempotent: the path it returns is already fixed, so
fixing it again neither changes it nor logs the warning. -/
theorem normpath_normpath (path : List Char) : normpath (normpath path) = normpath path := by
  rcases normpath_cases path with dot | ⟨s, two, names, ok, nonempty, fixed⟩
  · rw [dot, normpath_dot]
  · rw [fixed, normpath_join s two names ok nonempty]

/-- The fixed path ends in `'/'` only when it is the root, `'/'` or `'//'`: the path that
`_validate_pre_connected_path` checks is "without the trailing '/'". -/
theorem normpath_trailing_slash (path : List Char) (trailing : (normpath path).getLast? = some '/') :
    normpath path = ['/'] ∨ normpath path = ['/', '/'] := by
  rcases normpath_cases path with dot | ⟨s, two, names, ok, nonempty, fixed⟩
  · rw [dot] at trailing
    cases trailing
  · rw [fixed] at trailing ⊢
    rcases List.eq_nil_or_concat names with rfl | ⟨front, last, rfl⟩
    · match s, two, nonempty with
      | 1, _, _ => exact .inl rfl
      | 2, _, _ => exact .inr rfl
    · obtain ⟨⟨nonemptyLast, -⟩, noSlash⟩ := named_of_stackOk _ _ ok last (by simp)
      obtain ⟨before, joined⟩ := exists_intercalate_concat front last
      rw [List.concat_eq_append, joined, ← List.append_assoc, List.getLast?_append,
        List.getLast?_eq_getLast last nonemptyLast] at trailing
      exact absurd (Option.some.inj trailing ▸ List.getLast_mem nonemptyLast) noSlash

theorem normpath_trailing_slash_root :
    (normpath ['/']).getLast? = some '/' ∧ (normpath ['/'] = ['/'] ∨ normpath ['/'] = ['/', '/']) :=
  have root : normpath ['/'] = ['/'] := normpath_join 1 (by decide) [] trivial (by decide)
  ⟨by rw [root]; rfl, normpath_trailing_slash ['/'] (by rw [root]; rfl)⟩

theorem resolve_join (cwd : List (List Char)) (s : Nat) (names : List (List Char))
    (named : ∀ x ∈ names, Named x ∧ '/' ∉ x) :
    resolve cwd (List.replicate s '/' ++ ['/'].intercalate names) =
      walk (if s = 0 then cwd else []) names := by
  have pieces : (['/'].intercalate names).splitOn '/' = if names = [] then [[]] else names := by
    split
    · subst names
      rfl
    · exact List.splitOn_intercalate names '/' (fun x member => (named x member).2) ‹_›
  have start : (if ['/'].isPrefixOf (List.replicate s '/' ++ ['/'].intercalate names) then []
      else cwd) = if s = 0 then cwd else [] := by
    cases s with
    | zero => simp [isPrefixOf_slash_intercalate names named]
    | succ s => simp [List.replicate_succ, List.isPrefixOf_cons₂]
  rw [resolve, start, splitOn_replicate_append, walk_replicate_nil, pieces]
  by_cases empty : names = []
  · subst empty
    rfl
  · rw [if_neg empty]

theorem resolve_normalForm (cwd : List (List Char)) (s : Nat) (names : List (List Char))
    (named : ∀ x ∈ names, Named x ∧ '/' ∉ x) :
    resolve cwd (if List.replicate s '/' ++ ['/'].intercalate names = [] then ['.']
      else List.replicate s '/' ++ ['/'].intercalate names) =
      walk (if s = 0 then cwd else []) names := by
  split
  · rename_i empty
    obtain ⟨root, joined⟩ := List.append_eq_nil.mp empty
    obtain rfl := (List.replicate_eq_nil_iff '/').mp root
    cases names with
    | nil => rfl
    | cons x rest =>
      obtain ⟨back, split⟩ := exists_intercalate_cons x rest
      rw [split] at joined
      exact absurd (List.append_eq_nil.mp joined).1 (named x (List.mem_cons_self _ _)).1.1
  · exact resolve_join cwd s names named

/-- `os.path.normpath` keeps what a path names: from every working directory, in a tree without
symbolic links, the fixed path leads where the configured one led. -/
theorem resolve_normpath (cwd : List (List Char)) (path : List Char) :
    resolve cwd (normpath path) = resolve cwd path := by
  by_cases empty : path = []
  · subst empty
    rfl
  · obtain ⟨s, -, absolute, fixed⟩ := normpath_spec path empty
    have pieces : splitOn ['/'] path = path.splitOn '/' := splitOn_single '/' path
    have ok := stackOk_normComps (s != 0) [] (splitOn ['/'] path)
      (fun comp member => not_mem_of_mem_splitOn '/' path comp (by rwa [← pieces]))
      trivial
    have start : (if ['/'].isPrefixOf path then [] else cwd) = if s = 0 then cwd else [] := by
      by_cases root : s = 0 <;> simp [root, ← absolute]
    rw [fixed]
    dsimp only
    rw [resolve_normalForm cwd s _ fun x member =>
        named_of_stackOk _ _ ok x (List.mem_reverse.mp member), resolve, start, ← pieces]
    exact walk_normComps (s != 0) [] (splitOn ['/'] path) _ (fun x member => by cases member)
      (by by_cases root : s = 0 <;> simp [root])

/-! ### The path of a file domain's connection -/

theorem getConlist_file_connection (host : HostPaths) (uuids : Nat → List Char)
    (iscsiadm : IscsiadmRun) (s : Settings)
    (file : s.domainType ∈ [domainTypeNfs, domainTypeNfs3, domainTypeNfs4, domainTypeGlusterfs]) :
    (getConlist host uuids iscsiadm s true).map (fun built => built.1.map (·.connection)) =
      (validatePreConnectedPath host (normpath s.storage)).map fun _ => [normpath s.storage] := by
  obtain ⟨con, storageType, shape, -⟩ := getConlistNfsGluster_shape s
  have dispatch : conlistOfDomainType host uuids iscsiadm s true =
      (normalizeConnection host s true (getConlistNfsGluster s).1).map fun conList =>
        (conList, (getConlistNfsGluster s).2) := by
    rw [conlistOfDomainType, if_pos file]
  rw [getConlist_eq_map, dispatch, shape, normalizeConnection, if_pos rfl]
  dsimp only
  cases validatePreConnectedPath host (normpath s.storage) with
  | error e => rfl
  | ok _ =>
    show Except.ok ((setMntOptions s.mntOptions [{ con with connection := normpath s.storage }]).map
      (·.connection)) = _
    rw [map_setMntOptions (·.connection) (fun _ _ => rfl)]
    rfl

theorem normpath_root_export (server : List Char) (nonempty : server ≠ []) (noSlash : '/' ∉ server) :
    normpath (server ++ [':', '/']) = server ++ [':'] := by
  have name : server ++ [':'] ≠ [] ∧ server ++ [':'] ≠ ['.'] ∧ server ++ [':'] ≠ ['.', '.'] := by
    refine ⟨by simp, fun same => ?_, fun same => ?_⟩ <;> simpa using congrArg List.getLast? same
  have relative : ['/'].isPrefixOf (server ++ [':', '/']) = false := by
    obtain ⟨c, more, rfl⟩ := List.exists_cons_of_ne_nil nonempty
    have : c ≠ '/' := fun same => noSlash (by simp [same])
    simp [List.isPrefixOf_cons₂, Ne.symm this]
  have pieces : splitOn ['/'] (server ++ [':', '/']) = [server ++ [':'], []] := by
    rw [splitOn_single, show server ++ [':', '/'] = (server ++ [':']) ++ '/' :: [] by simp]
    exact List.splitOnP_first _ _ (fun c member same => by simp_all) '/' (by simp) []
  obtain ⟨s, -, absolute, fixed⟩ := normpath_spec (server ++ [':', '/']) (by simp)
  obtain rfl : s = 0 := by simpa [relative] using absolute
  have kept : normComps (0 != 0) [] [server ++ [':'], []] = [server ++ [':']] := by
    rw [normComps, if_neg (not_or.mpr ⟨name.1, name.2.1⟩), if_pos (Or.inl name.2.2), normComps,
      if_pos (Or.inl rfl), normComps]
  rw [fixed]
  dsimp only
  rw [pieces, kept, List.reverse_singleton, List.replicate_zero, List.nil_append,
    show ['/'].intercalate [server ++ [':']] = server ++ [':'] ++ [] from rfl, List.append_nil,
    if_neg name.1]

/-- An NFS or GlusterFS domain configured on the root export `server:/` is connected with the
path `server:`, which names no export: `_fix_filebased_connection_path` drops the only `'/'`. -/
theorem getConlist_root_export (host : HostPaths) (uuids : Nat → List Char)
    (iscsiadm : IscsiadmRun) (s : Settings)
    (file : s.domainType ∈ [domainTypeNfs, domainTypeNfs3, domainTypeNfs4, domainTypeGlusterfs])
    (server : List Char) (nonempty : server ≠ []) (noSlash : '/' ∉ server)
    (storage : s.storage = server ++ [':', '/']) :
    (getConlist host uuids iscsiadm s true).map (fun built => built.1.map (·.connection)) =
      (validatePreConnectedPath host (server ++ [':'])).map fun _ => [server ++ [':']] := by
  rw [getConlist_file_connection host uuids iscsiadm s file, storage,
    normpath_root_export server nonempty noSlash]

def rootExportSettings : Settings :=
  ⟨domainTypeNfs, ['n', 'a', 's', ':', '/'], ['c'], [], [], [], [], [], none, none, []⟩

theorem getConlist_root_export_nas :
    rootExportSettings.domainType ∈
        [domainTypeNfs, domainTypeNfs3, domainTypeNfs4, domainTypeGlusterfs] ∧
      ['n', 'a', 's'] ≠ [] ∧ '/' ∉ ['n', 'a', 's'] ∧
      rootExportSettings.storage = ['n', 'a', 's'] ++ [':', '/'] ∧
      (getConlist plainHost countingUuids threeIfaceRun rootExportSettings true).map
          (fun built => built.1.map (·.connection)) =
        (validatePreConnectedPath plainHost (['n', 'a', 's'] ++ [':'])).map
          fun _ => [['n', 'a', 's'] ++ [':']] :=
  ⟨by decide, by decide, by decide, rfl,
    getConlist_root_export plainHost countingUuids threeIfaceRun rootExportSettings (by decide)
      ['n', 'a', 's'] (by decide) (by decide) rfl⟩

/-! ### What `normalize_path` changes -/

theorem setMntOptions_setConnection (mntOptions : Option (List Char)) (path : List Char)
    (conList : List ConnectionParams) :
    setMntOptions mntOptions (setConnection path conList) =
      setConnection path (setMntOptions mntOptions conList) := by
  cases conList <;> unfold setMntOptions <;> split <;> rfl

/-- `connect_storage_server` builds its list with `normalize_path=True` and
`disconnect_storage_server` with `False`. The flag changes only the path: for an NFS or GlusterFS
domain the normalised path is checked against an earlier mount and sent in place of `_storage`,
for a `posixfs` domain it is only checked, and for every other domain nothing changes. Every
other parameter of every connection is the same in both lists. -/
theorem getConlist_normalizePath (host : HostPaths) (uuids : Nat → List Char)
    (iscsiadm : IscsiadmRun) (s : Settings) :
    getConlist host uuids iscsiadm s true =
      if s.domainType ∈ [domainTypeNfs, domainTypeNfs3, domainTypeNfs4, domainTypeGlusterfs] then
        validatePreConnectedPath host (normpath s.storage) >>= fun _ =>
          (getConlist host uuids iscsiadm s false).map fun built =>
            (setConnection (normpath s.storage) built.1, built.2)
      else if s.domainType = domainTypePosixfs then
        validatePreConnectedPath host (normpath s.storage) >>= fun _ =>
          getConlist host uuids iscsiadm s false
      else getConlist host uuids iscsiadm s false := by
  rw [getConlist_eq_map, getConlist_eq_map, conlistOfDomainType, conlistOfDomainType]
  by_cases file : s.domainType ∈ [domainTypeNfs, domainTypeNfs3, domainTypeNfs4, domainTypeGlusterfs]
  · simp only [if_pos file, normalizeConnection, ite_true, Bool.false_eq_true, ite_false]
    cases validatePreConnectedPath host (normpath s.storage) with
    | error e => rfl
    | ok _ =>
      show Except.ok _ = Except.ok _
      dsimp only
      rw [setMntOptions_setConnection]
  simp only [if_neg file]
  by_cases posixfs : s.domainType = domainTypePosixfs
  · simp only [if_pos posixfs, normalizeConnection, ite_true, Bool.false_eq_true, ite_false]
    cases validatePreConnectedPath host (normpath s.storage) with
    | error e => rfl
    | ok _ =>
      show Except.ok _ = Except.ok _
      cases host.mountTarget <;> dsimp only <;> rw [setConnection_setConnection]
  · simp only [if_neg posixfs]

end HostedEngineHa.StorageServer
