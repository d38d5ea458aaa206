import LatteCode.Lib.Outcome
/- A file system with symbolic links: which node a path leads to. -/

namespace FileTree
open Outcome

/-- What stands between two separators of a path. -/
inductive Segment (N : Type) where
  | stay
  | up
  | name (n : N)
deriving DecidableEq

inductive Node (N C : Type) where
  | file (content : C)
  | directory
  | link (absolute : Bool) (target : List (Segment N))
deriving DecidableEq

inductive Fault where
  | notFound
  | notADirectory
  | isADirectory
  | alreadyExists
  | loop
  | invalidData
deriving DecidableEq

/-- The nodes by their own paths from the root, none of which passes through a link. -/
structure Tree (N C : Type) where
  node : List N → Option (Node N C)
  root : node [] = some .directory
  parents : ∀ path name, (node (path ++ [name])).isSome = true → node path = some .directory

section Resolution

variable {N C : Type}

def Node.isLink : Node N C → Bool
  | .link .. => true
  | _ => false

def Tree.isDirectory (tree : Tree N C) (path : List N) : Bool :=
  match tree.node path with
  | some .directory => true
  | _ => false

/-- A path is followed from `cursor`; a link goes on with its target, from its own directory or from the root. -/
def Tree.walk (tree : Tree N C) (follow : List N → List (Segment N) → Except Fault (List N)) :
    List N → List (Segment N) → Except Fault (List N)
  | cursor, [] => .ok cursor
  | cursor, segment :: rest =>
      if tree.isDirectory cursor then
        match segment with
        | .stay => Tree.walk tree follow cursor rest
        | .up => Tree.walk tree follow cursor.dropLast rest
        | .name n =>
            match tree.node (cursor ++ [n]) with
            | none => .error .notFound
            | some (.link absolute target) => follow (if absolute then [] else cursor) (target ++ rest)
            | some _ => Tree.walk tree follow (cursor ++ [n]) rest
      else .error .notADirectory

/-- At most `links` links are followed. -/
def Tree.resolve (tree : Tree N C) : Nat → List N → List (Segment N) → Except Fault (List N)
  | 0 => tree.walk fun _ _ => .error .loop
  | links + 1 => tree.walk (tree.resolve links)

/-- The path of a node: it stands there, and is no link. -/
def Tree.Real (tree : Tree N C) (path : List N) : Prop := ∃ node, tree.node path = some node ∧ node.isLink = false

variable {tree : Tree N C} {links : Nat} {follow : List N → List (Segment N) → Except Fault (List N)}
  {cursor path : List N} {segments rest : List (Segment N)} {name : N}

theorem isDirectory_iff : tree.isDirectory path = true ↔ tree.node path = some .directory := by
  unfold Tree.isDirectory
  split
  case h_1 found => exact ⟨fun _ => found, fun _ => rfl⟩
  case h_2 other => exact ⟨fun impossible => (by cases impossible), fun found => absurd found other⟩

theorem Tree.Real.directory (directory : tree.isDirectory path = true) : tree.Real path :=
  ⟨.directory, isDirectory_iff.mp directory, rfl⟩

/-- What stands above a node is a directory. -/
theorem isDirectory_dropLast (directory : tree.isDirectory path = true) : tree.isDirectory path.dropLast = true := by
  rcases List.eq_nil_or_concat path with rfl | ⟨above, name, rfl⟩
  · exact directory
  · rw [List.concat_eq_append] at directory ⊢
    rw [List.dropLast_concat, isDirectory_iff]
    refine tree.parents above name ?_
    rw [isDirectory_iff.mp directory]
    rfl

/-- One more name leads to a node that is no link, or goes on behind one. -/
theorem walk_name (found : tree.walk follow cursor (.name name :: rest) = .ok path) :
    tree.isDirectory cursor = true ∧
      ((∃ absolute target, tree.node (cursor ++ [name]) = some (.link absolute target) ∧
          follow (if absolute then [] else cursor) (target ++ rest) = .ok path) ∨
        tree.Real (cursor ++ [name]) ∧ tree.walk follow (cursor ++ [name]) rest = .ok path) := by
  rw [Tree.walk] at found
  split at found
  case isFalse => cases found
  case isTrue directory =>
    refine ⟨directory, ?_⟩
    split at found
    case h_1 => cases found
    case h_2 absolute target linked => exact .inl ⟨absolute, target, linked, found⟩
    case h_3 node other held =>
      refine .inr ⟨⟨node, held, ?_⟩, found⟩
      cases node with
      | file | directory => rfl
      | link absolute target => exact absurd rfl (other absolute target)

/-- Where a path ends, a node stands that is no link, if it does so behind every link. -/
theorem walk_real (further : ∀ cursor segments path, tree.isDirectory cursor = true → follow cursor segments = .ok path →
    tree.Real path) (start : tree.Real cursor) (found : tree.walk follow cursor segments = .ok path) : tree.Real path := by
  induction segments generalizing cursor with
  | nil =>
      cases found
      exact start
  | cons segment rest ih =>
      cases segment with
      | stay =>
          rw [Tree.walk] at found
          split at found
          case isTrue => exact ih start found
          case isFalse => cases found
      | up =>
          rw [Tree.walk] at found
          split at found
          case isTrue directory => exact ih (.directory (isDirectory_dropLast directory)) found
          case isFalse => cases found
      | name name =>
          obtain ⟨directory, ⟨absolute, target, _, followed⟩ | ⟨real, walked⟩⟩ := walk_name found
          · refine further _ _ _ ?_ followed
            split
            · exact isDirectory_iff.mpr tree.root
            · exact directory
          · exact ih real walked

theorem resolve_real (start : tree.isDirectory cursor = true) (found : tree.resolve links cursor segments = .ok path) :
    tree.Real path := by
  induction links generalizing cursor segments path with
  | zero => exact walk_real (fun _ _ _ _ impossible => by cases impossible) (.directory start) found
  | succ links ih => exact walk_real (fun _ _ _ directory followed => ih directory followed) (.directory start) found

/-- Above what stands in the tree there are directories. -/
theorem directory_above {above below : List N} (stands : (tree.node (above ++ name :: below)).isSome = true) :
    tree.isDirectory above = true := by
  induction below generalizing above name with
  | nil => exact isDirectory_iff.mpr (tree.parents above name stands)
  | cons next below ih =>
      have shifted : above ++ name :: next :: below = above ++ [name] ++ next :: below := by simp
      rw [shifted] at stands
      refine isDirectory_iff.mpr (tree.parents above name ?_)
      rw [isDirectory_iff.mp (ih stands)]
      rfl

theorem Tree.Real.stands (real : tree.Real path) : (tree.node path).isSome = true := by
  obtain ⟨node, held, _⟩ := real
  rw [held]
  rfl

theorem Tree.Real.above {above below : List N} (real : tree.Real (above ++ below)) : tree.Real above := by
  cases below with
  | nil => rwa [List.append_nil] at real
  | cons name below => exact .directory (directory_above real.stands)

/-- A path of real names leads down to them. -/
theorem walk_names {names : List N} (real : tree.Real (cursor ++ names)) :
    tree.walk follow cursor (names.map .name ++ rest) = tree.walk follow (cursor ++ names) rest := by
  induction names generalizing cursor with
  | nil => rw [List.map_nil, List.nil_append, List.append_nil]
  | cons name names ih =>
      have shifted : cursor ++ name :: names = cursor ++ [name] ++ names := by simp
      have directory : tree.isDirectory cursor = true := directory_above real.stands
      have next : tree.Real (cursor ++ [name]) := by
        cases names with
        | nil => exact real
        | cons other names =>
            rw [shifted] at real
            exact .directory (directory_above real.stands)
      obtain ⟨node, held, plain⟩ := next
      rw [List.map_cons, List.cons_append, Tree.walk, if_pos directory]
      rw [shifted] at real ⊢
      rw [← ih real]
      simp only [held]
      cases node with
      | file | directory => rfl
      | link absolute target => cases plain

theorem resolve_names {names : List N} (real : tree.Real (cursor ++ names)) :
    tree.resolve links cursor (names.map .name ++ segments) = tree.resolve links (cursor ++ names) segments := by
  cases links with
  | zero => exact walk_names real
  | succ links => exact walk_names real

@[simp] theorem resolve_nil : tree.resolve links cursor [] = .ok cursor := by
  cases links <;> rfl

/-- A real path resolves to itself. -/
theorem resolve_self (real : tree.Real path) : tree.resolve links [] (path.map .name) = .ok path := by
  have real : tree.Real ([] ++ path) := real
  rw [← List.append_nil (path.map Segment.name), resolve_names real, resolve_nil, List.nil_append]

/-! ## Paths without parents -/

def Segment.name? : Segment N → Option N
  | .name n => some n
  | _ => none

/-- The names of a path. -/
def namesOf (segments : List (Segment N)) : List N := segments.filterMap Segment.name?

/-- No name of a path from `cursor` is a link. -/
def Tree.Linkless (tree : Tree N C) (cursor names : List N) : Prop :=
  ∀ before name after, names = before ++ name :: after →
    ∀ node, tree.node (cursor ++ before ++ [name]) = some node → node.isLink = false

theorem Tree.Linkless.tail {names : List N} (linkless : tree.Linkless cursor (name :: names)) :
    tree.Linkless (cursor ++ [name]) names := by
  intro before other after split node held
  refine linkless (name :: before) other after (by rw [split, List.cons_append]) node ?_
  rw [← held]
  simp

/-- A path without links and parents leads to where its names say. -/
theorem walk_linkless (level : Segment.up ∉ segments) (linkless : tree.Linkless cursor (namesOf segments))
    (found : tree.walk follow cursor segments = .ok path) : path = cursor ++ namesOf segments := by
  induction segments generalizing cursor with
  | nil =>
      cases found
      exact (List.append_nil _).symm
  | cons segment rest ih =>
      rw [List.mem_cons, not_or] at level
      cases segment with
      | up => exact absurd rfl level.1
      | stay =>
          rw [Tree.walk] at found
          split at found
          case isTrue => exact ih level.2 linkless found
          case isFalse => cases found
      | name name =>
          obtain ⟨_, ⟨absolute, target, linked, _⟩ | ⟨_, walked⟩⟩ := walk_name found
          · have plain := linkless [] name (namesOf rest) rfl (.link absolute target)
              (by rw [List.append_nil]; exact linked)
            cases plain
          · have names : namesOf (.name name :: rest) = name :: namesOf rest := rfl
            rw [names] at linkless ⊢
            rw [ih level.2 linkless.tail walked, List.append_assoc]
            rfl

theorem resolve_linkless (level : Segment.up ∉ segments) (linkless : tree.Linkless cursor (namesOf segments))
    (found : tree.resolve links cursor segments = .ok path) : path = cursor ++ namesOf segments := by
  cases links with
  | zero => exact walk_linkless level linkless found
  | succ links => exact walk_linkless level linkless found

/-- Behind names that lead to a directory a path without parents goes on there. -/
theorem walk_directory (level : Segment.up ∉ segments) (directory : tree.isDirectory (cursor ++ namesOf segments) = true) :
    tree.walk follow cursor (segments ++ rest) = tree.walk follow (cursor ++ namesOf segments) rest := by
  induction segments generalizing cursor with
  | nil => exact congrArg (tree.walk follow · rest) (List.append_nil cursor).symm
  | cons segment more ih =>
      rw [List.mem_cons, not_or] at level
      cases segment with
      | up => exact absurd rfl level.1
      | stay =>
          have here : tree.isDirectory cursor = true := by
            have names : namesOf (.stay :: more) = namesOf more := rfl
            rw [names] at directory
            cases more' : namesOf more with
            | nil => rwa [more', List.append_nil] at directory
            | cons => exact directory_above (by rw [more'] at directory; exact (Tree.Real.directory directory).stands)
          rw [List.cons_append, Tree.walk, if_pos here]
          exact ih level.2 directory
      | name name =>
          have names : namesOf (.name name :: more) = name :: namesOf more := rfl
          have shifted : cursor ++ name :: namesOf more = cursor ++ [name] ++ namesOf more := by simp
          rw [names] at directory ⊢
          have here : tree.isDirectory cursor = true := directory_above (Tree.Real.directory directory).stands
          rw [shifted] at directory ⊢
          have next : tree.isDirectory (cursor ++ [name]) = true := by
            cases more' : namesOf more with
            | nil => rwa [more', List.append_nil] at directory
            | cons => exact directory_above (by rw [more'] at directory; exact (Tree.Real.directory directory).stands)
          rw [List.cons_append, Tree.walk, if_pos here]
          simp only [isDirectory_iff.mp next]
          exact ih level.2 directory

theorem resolve_through (level : Segment.up ∉ segments) (directory : tree.isDirectory (cursor ++ namesOf segments) = true) :
    tree.resolve links cursor (segments ++ rest) = tree.resolve links (cursor ++ namesOf segments) rest := by
  cases links with
  | zero => exact walk_directory level directory
  | succ links => exact walk_directory level directory

theorem resolve_directory (level : Segment.up ∉ segments) (directory : tree.isDirectory (cursor ++ namesOf segments) = true) :
    tree.resolve links cursor segments = .ok (cursor ++ namesOf segments) := by
  rw [← List.append_nil segments, resolve_through level directory, resolve_nil, List.append_nil]

/-- With a name at its end it may lead to a file as well. -/
theorem resolve_named (level : Segment.up ∉ segments) (ends : segments.getLast? = some (.name name))
    (real : tree.Real (cursor ++ namesOf segments)) :
    tree.resolve links cursor segments = .ok (cursor ++ namesOf segments) := by
  obtain ⟨before, rfl⟩ : ∃ before, segments = before ++ [.name name] :=
    ⟨_, (List.dropLast_append_getLast? _ ends).symm⟩
  have named : namesOf (before ++ [.name name]) = namesOf before ++ [name] := List.filterMap_append
  rw [named, ← List.append_assoc] at real ⊢
  have level' : Segment.up ∉ before := fun member => level (List.mem_append_left _ member)
  have last := @resolve_names _ _ tree links (cursor ++ namesOf before) [] [name] real
  rw [List.append_nil, resolve_nil] at last
  exact (resolve_through level' (directory_above real.stands)).trans last

end Resolution

/-! ## Files that are replaced -/

section Replacement

variable {N C : Type} [DecidableEq N]

/-- A file in the place of a file, of a link or of nothing, by its own path. -/
def Tree.replace (tree : Tree N C) (above : List N) (name : N) (content : C) : Except Fault (Tree N C) :=
  if directory : tree.isDirectory above = true then
    if free : tree.isDirectory (above ++ [name]) = false then
      .ok {
        node := fun path => if path = above ++ [name] then some (.file content) else tree.node path
        root := by
          rw [if_neg fun same => List.append_ne_nil_of_right_ne_nil above (List.cons_ne_nil _ _) same.symm]
          exact tree.root
        parents := by
          intro path other stands
          have stood : path = above ∨ (tree.node (path ++ [other])).isSome = true := by
            split at stands
            case isTrue same => exact .inl (List.append_inj_left' same rfl)
            case isFalse => exact .inr stands
          have held : tree.node path = some .directory := by
            rcases stood with rfl | stood
            · exact isDirectory_iff.mp directory
            · exact tree.parents path other stood
          rw [if_neg]
          · exact held
          · rintro rfl
            rw [isDirectory_iff.mpr held] at free
            cases free }
    else .error .isADirectory
  else .error .notADirectory

variable {tree tree' : Tree N C} {above path : List N} {name : N} {content : C}

theorem replace_ok (directory : tree.isDirectory above = true) (free : tree.isDirectory (above ++ [name]) = false) :
    ∃ tree', tree.replace above name content = .ok tree' := by
  rw [Tree.replace, dif_pos directory, dif_pos free]
  exact ⟨_, rfl⟩

theorem replace_found (replaced : tree.replace above name content = .ok tree') :
    tree.isDirectory above = true ∧ tree.isDirectory (above ++ [name]) = false := by
  unfold Tree.replace at replaced
  split at replaced
  case isFalse => cases replaced
  case isTrue directory =>
    split at replaced
    case isTrue free => exact ⟨directory, free⟩
    case isFalse => cases replaced

theorem replace_node (replaced : tree.replace above name content = .ok tree') (path : List N) :
    tree'.node path = if path = above ++ [name] then some (.file content) else tree.node path := by
  unfold Tree.replace at replaced
  split at replaced
  case isFalse => cases replaced
  case isTrue =>
    split at replaced
    case isTrue =>
      cases replaced
      rfl
    case isFalse => cases replaced

end Replacement

section Entries

variable {N C : Type} [DecidableEq N]

def directoryIn (entries : List (List N × Node N C)) (path : List N) : Bool :=
  decide (path = []) || match entries.lookup path with
    | some .directory => true
    | _ => false

/-- A tree of listed nodes, whose parents are listed as directories. -/
def Tree.ofEntries (entries : List (List N × Node N C))
    (closed : ∀ entry ∈ entries, directoryIn entries entry.1.dropLast = true) : Tree N C where
  node path := if path = [] then some .directory else entries.lookup path
  root := if_pos rfl
  parents path name stands := by
    rw [if_neg (List.append_ne_nil_of_right_ne_nil path (List.cons_ne_nil _ _))] at stands
    obtain ⟨node, listed⟩ := Option.isSome_iff_exists.mp stands
    obtain ⟨before, after, split, _⟩ := List.lookup_eq_some_iff.mp listed
    have above := closed (path ++ [name], node) (by rw [split]; exact List.mem_append_right _ List.mem_cons_self)
    rw [directoryIn, List.dropLast_concat, Bool.or_eq_true, decide_eq_true_eq] at above
    split
    case isTrue => rfl
    case isFalse inner =>
      have held := above.resolve_left inner
      split at held
      case h_1 found => exact found
      case h_2 => cases held

end Entries

end FileTree
