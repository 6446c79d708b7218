import Mathlib.Data.List.Basic

set_option autoImplicit false

/-!
# Foundation: path names on a POSIX tree

Directories, symbolic links and other files stand at locations; a path is a text that leads
to one of them from the root or from the working directory, through `.`, `..` and links.
`mkdir` makes one directory, and whatever was there before stays as it is (`Grows`), so a
path that leads somewhere still leads there afterwards.
-/

namespace MiniSql.Foundation.Posix

/-- One entry of a directory. -/
abbrev Name : Type := List UInt8

abbrev Path : Type := List UInt8

/-- The names from the root down. -/
abbrev Location : Type := List Name

def separator : UInt8 := 0x2F

/-- The entries every directory has for itself and for the one above it. -/
def selfName : Name := [0x2E]
def aboveName : Name := [0x2E, 0x2E]

inductive Node where
  | directory
  | link (target : Path)
  /-- a regular file or anything else -/
  | file
  deriving DecidableEq, Repr

/-- What stands where.  Only directories have entries, and the process works in one. -/
structure Tree where
  node : Location → Option Node
  cwd : Location
  root_directory : node [] = some .directory
  cwd_directory : node cwd = some .directory
  above : ∀ location name, node (location ++ [name]) ≠ none → node location = some .directory

/-- The file system around a tree: how many links one path may lead through, and the calls
of `mkdir` that fail for another reason than the tree (permissions, space, a device that is
read-only). -/
structure System where
  linkLimit : Nat
  refuses : Path → Bool

/-! ## Paths -/

/-- The names between separators, `name` being the one begun. -/
def componentsFrom (name : Name) : Path → List Name
  | [] => if name = [] then [] else [name]
  | c :: path =>
      if c = separator then (if name = [] then [] else [name]) ++ componentsFrom [] path
      else componentsFrom (name ++ [c]) path

def components (path : Path) : List Name := componentsFrom [] path

/-- Where a path starts from: the root, or the given directory. -/
def start (location : Location) (path : Path) : Location :=
  if path.head? = some separator then [] else location

/-- The part up to the last separator. -/
def directoryPart (path : Path) : Path :=
  (path.reverse.dropWhile (· != separator)).reverse

/-- The part behind the last separator. -/
def fileName (path : Path) : Name := (path.reverse.takeWhile (· != separator)).reverse

/-- A leading part that ends in front of a separator: the path of a directory above. -/
def Ancestor (part path : Path) : Prop := part ≠ [] ∧ part ++ [separator] <+: path

/-! ## Resolution -/

section Resolution

variable (tree : Tree)

/-- The walk along some names; a link is handed on, with the names behind it. -/
def walk (follow : Location → List Name → Option Location) (location : Location) :
    List Name → Option Location
  | [] => some location
  | name :: names =>
      if tree.node location ≠ some .directory then none
      else if name = selfName then walk follow location names
      else if name = aboveName then walk follow location.dropLast names
      else
        match tree.node (location ++ [name]) with
        | none => none
        | some (.link target) => follow (start location target) (components target ++ names)
        | some _ => walk follow (location ++ [name]) names

/-- The walk through so many links at most. -/
def follow : Nat → Location → List Name → Option Location
  | 0 => walk tree fun _ _ => none
  | limit + 1 => walk tree (follow limit)

end Resolution

/-- Where a path leads, the last link followed too. -/
def System.resolve (system : System) (tree : Tree) (path : Path) : Option Location :=
  follow tree system.linkLimit (start tree.cwd path) (components path)

/-- The same for a directory, by its names. -/
def System.enter (system : System) (tree : Tree) (location : Location) (names : List Name) :
    Option Location :=
  match follow tree system.linkLimit location names with
  | none => none
  | some location => if tree.node location = some .directory then some location else none

/-- What a path says about its object: it is this one, or the entry of a directory. -/
inductive Place where
  | object (location : Location)
  | entry (directory : Location) (name : Name)
  deriving DecidableEq, Repr

/-- The place a path names, when everything in front of its last name is there. -/
def System.place (system : System) (tree : Tree) (path : Path) : Option Place :=
  match (components path).getLast? with
  | none => if path = [] then none else some (.object [])
  | some name =>
      match system.enter tree (start tree.cwd path) (components path).dropLast with
      | none => none
      | some location =>
          if name = selfName then some (.object location)
          else if name = aboveName then some (.object location.dropLast)
          else some (.entry location name)

/-- The object a path names, the last link not followed. -/
def System.lookup (system : System) (tree : Tree) (path : Path) : Option Location :=
  match system.place tree path with
  | none => none
  | some (.object location) => some location
  | some (.entry location name) =>
      if tree.node (location ++ [name]) = none then none else some (location ++ [name])

/-- The directory in which the last name of a path is looked up. -/
def System.parent (system : System) (tree : Tree) (location : Location) (path : Path) :
    Option Location :=
  system.enter tree (start location path) (components (directoryPart path))

/-- The directory of a path; a link at the path itself is handed on. -/
def System.creationStep (system : System) (tree : Tree)
    (followLink : Location → Path → Option Location) (location : Location) (path : Path) :
    Option Location :=
  match system.parent tree location path with
  | none => none
  | some directory =>
      match tree.node (directory ++ [fileName path]) with
      | some (.link target) => followLink directory target
      | _ => some directory

def System.creationDirectoryFrom (system : System) (tree : Tree) :
    Nat → Location → Path → Option Location
  | 0 => system.creationStep tree fun _ _ => none
  | limit + 1 => system.creationStep tree (system.creationDirectoryFrom tree limit)

/-- The directory in which a call that creates a missing file makes it. -/
def System.creationDirectory (system : System) (tree : Tree) (path : Path) : Option Location :=
  system.creationDirectoryFrom tree system.linkLimit tree.cwd path

/-! ## `mkdir` -/

/-- A new entry of a directory. -/
def Tree.insert (tree : Tree) (location : Location) (name : Name) (node : Node)
    (hdirectory : tree.node location = some .directory)
    (hfree : tree.node (location ++ [name]) = none) : Tree where
  node := fun other => if other = location ++ [name] then some node else tree.node other
  cwd := tree.cwd
  root_directory := by
    rw [if_neg (by simp)]
    exact tree.root_directory
  cwd_directory := by
    rw [if_neg]
    · exact tree.cwd_directory
    · intro hcwd
      rw [← hcwd, tree.cwd_directory] at hfree
      cases hfree
  above := by
    intro other name' hnode
    have hne : other ≠ location ++ [name] := by
      rintro rfl
      rw [if_neg (by simp)] at hnode
      rw [tree.above _ _ hnode] at hfree
      cases hfree
    rw [if_neg hne]
    split at hnode
    · rename_i heq
      obtain ⟨rfl, -⟩ := List.append_inj' heq rfl
      exact hdirectory
    · exact tree.above other name' hnode

/-- The root alone. -/
def Tree.bare : Tree where
  node := fun location => if location = [] then some .directory else none
  cwd := []
  root_directory := rfl
  cwd_directory := rfl
  above := by
    intro location name hnode
    simp at hnode

section Places

variable {system : System} {tree : Tree} {path : Path} {location directory : Location}
  {name : Name}

theorem enter_eq_some_iff {names : List Name} :
    system.enter tree location names = some directory ↔
      follow tree system.linkLimit location names = some directory ∧
        tree.node directory = some .directory := by
  unfold System.enter
  cases follow tree system.linkLimit location names with
  | none => simp
  | some other => grind

/-- A place that is an entry stands in a directory, behind every other name of its path. -/
theorem place_entry (h : system.place tree path = some (.entry directory name)) :
    system.enter tree (start tree.cwd path) (components path).dropLast = some directory ∧
      (components path).getLast? = some name ∧ name ≠ selfName ∧ name ≠ aboveName := by
  unfold System.place at h
  split at h
  · split at h <;> cases h
  · rename_i last hlast
    split at h
    · cases h
    · rename_i dir henter
      split at h
      · cases h
      · split at h
        · cases h
        · rename_i hself habove
          cases h
          exact ⟨henter, hlast, hself, habove⟩

theorem place_entry_directory (h : system.place tree path = some (.entry directory name)) :
    tree.node directory = some .directory :=
  (enter_eq_some_iff.mp (place_entry h).1).2

end Places

/-- The errors of `mkdir`. -/
inductive Errno where
  | exists_
  | other
  deriving DecidableEq, Repr

/-- `mkdir`. -/
def System.mkdir (system : System) (tree : Tree) (path : Path) : Except Errno Tree :=
  if system.refuses path then .error .other
  else
    match hplace : system.place tree path with
    | none => .error .other
    | some (.object _) => .error .exists_
    | some (.entry location name) =>
        if hfree : tree.node (location ++ [name]) = none then
          .ok (tree.insert location name .directory (place_entry_directory hplace) hfree)
        else .error .exists_

/-! ## What stays -/

section Kept

variable {tree tree' : Tree} {location location' : Location} {names : List Name} {name : Name}

/-- Every object of the first tree stands in the second. -/
def Kept (tree tree' : Tree) : Prop :=
  ∀ location node, tree.node location = some node → tree'.node location = some node

/-- A walk that arrives takes the same way in the other tree. -/
theorem walk_kept {f f' : Location → List Name → Option Location} (h : Kept tree tree')
    (hf : ∀ location names, f location names = some location' →
      f' location names = some location')
    (hwalk : walk tree f location names = some location') :
    walk tree' f' location names = some location' := by
  induction names generalizing location with
  | nil => exact hwalk
  | cons name names ih =>
      unfold walk at hwalk ⊢
      split at hwalk
      · cases hwalk
      · rename_i hdirectory
        rw [if_neg (by simpa using h _ _ (not_not.mp hdirectory))]
        split at hwalk
        · rename_i hself
          rw [if_pos hself]
          exact ih hwalk
        · rename_i hself
          rw [if_neg hself]
          split at hwalk
          · rename_i habove
            rw [if_pos habove]
            exact ih hwalk
          · rename_i habove
            rw [if_neg habove]
            split at hwalk
            · cases hwalk
            · rename_i target hnode
              rw [h _ _ hnode]
              exact hf _ _ hwalk
            · rename_i node hlink hnode
              rw [h _ _ hnode]
              cases node with
              | link target => exact absurd rfl (hlink target)
              | directory => exact ih hwalk
              | file => exact ih hwalk

theorem follow_kept (h : Kept tree tree') {limit : Nat}
    (hfollow : follow tree limit location names = some location') :
    follow tree' limit location names = some location' := by
  induction limit generalizing location names with
  | zero => exact walk_kept h (fun _ _ hnone => hnone) hfollow
  | succ limit ih => exact walk_kept h (fun _ _ => ih) hfollow

theorem enter_kept {system : System} (h : Kept tree tree')
    (henter : system.enter tree location names = some location') :
    system.enter tree' location names = some location' := by
  obtain ⟨hfollow, hdirectory⟩ := enter_eq_some_iff.mp henter
  exact enter_eq_some_iff.mpr ⟨follow_kept h hfollow, h _ _ hdirectory⟩

/-- One more name, where the walk takes it without a link. -/
theorem walk_append {f : Location → List Name → Option Location} {destination : Location}
    (hlast : ∀ g, walk tree g location' [name] = some destination)
    (hf : ∀ location names, f location names = some location' →
      f location (names ++ [name]) = some destination)
    (hwalk : walk tree f location names = some location') :
    walk tree f location (names ++ [name]) = some destination := by
  induction names generalizing location with
  | nil =>
      obtain rfl : location = location' := Option.some.inj hwalk
      exact hlast f
  | cons first names ih =>
      rw [List.cons_append]
      unfold walk at hwalk ⊢
      split at hwalk
      · cases hwalk
      · rename_i hdirectory
        rw [if_neg hdirectory]
        split at hwalk
        · rename_i hself
          rw [if_pos hself]
          exact ih hwalk
        · rename_i hself
          rw [if_neg hself]
          split at hwalk
          · rename_i habove
            rw [if_pos habove]
            exact ih hwalk
          · rename_i habove
            rw [if_neg habove]
            split at hwalk
            · cases hwalk
            · rename_i target hnode
              rw [← List.append_assoc]
              exact hf _ _ hwalk
            · exact ih hwalk

theorem follow_append {destination : Location}
    (hlast : ∀ g, walk tree g location' [name] = some destination) {limit : Nat}
    (hfollow : follow tree limit location names = some location') :
    follow tree limit location (names ++ [name]) = some destination := by
  induction limit generalizing location names with
  | zero => exact walk_append hlast (fun _ _ hnone => by cases hnone) hfollow
  | succ limit ih => exact walk_append hlast (fun _ _ => ih) hfollow

theorem follow_nil (tree : Tree) (limit : Nat) (location : Location) :
    follow tree limit location [] = some location := by
  cases limit <;> rfl

end Kept

/-! ## Names of a path -/

section Names

variable {name : Name} {path rest : Path}

theorem componentsFrom_ne_nil (h : name ≠ []) : componentsFrom name path ≠ [] := by
  induction path generalizing name with
  | nil =>
      unfold componentsFrom
      simp [h]
  | cons c path ih =>
      unfold componentsFrom
      split
      · exact List.cons_ne_nil _ _
      · exact ih (by simp)

/-- A path without a name is one of separators. -/
theorem head?_of_components_eq_nil (h : components path = []) (hne : path ≠ []) :
    path.head? = some separator := by
  cases path with
  | nil => exact absurd rfl hne
  | cons c path =>
      unfold components componentsFrom at h
      split at h
      · rename_i hc
        rw [List.head?_cons, hc]
      · exact absurd h (componentsFrom_ne_nil (by simp))

theorem componentsFrom_separator :
    componentsFrom name (path ++ separator :: rest) =
      componentsFrom name path ++ components rest := by
  induction path generalizing name with
  | nil =>
      rw [List.nil_append]
      unfold componentsFrom
      rw [if_pos rfl]
      rfl
  | cons c path ih =>
      rw [List.cons_append]
      unfold componentsFrom
      split
      · rw [ih, List.append_assoc]
      · exact ih

/-- A separator at the end adds no name. -/
theorem components_separator : components (path ++ [separator]) = components path := by
  unfold components
  rw [componentsFrom_separator]
  simp [components, componentsFrom]

theorem directoryPart_append (h : separator ∉ name) :
    directoryPart (path ++ separator :: name) = path ++ [separator] := by
  have hname : ∀ c ∈ name.reverse, (c != separator) = true := by
    intro c hc
    simp only [bne_iff_ne, ne_eq]
    rintro rfl
    exact h (List.mem_reverse.mp hc)
  unfold directoryPart
  rw [List.reverse_append, List.reverse_cons, List.append_assoc,
    List.dropWhile_append_of_pos hname]
  simp

theorem directoryPart_eq_nil (h : separator ∉ name) : directoryPart name = [] := by
  have hname : ∀ c ∈ name.reverse, (c != separator) = true := by
    intro c hc
    simp only [bne_iff_ne, ne_eq]
    rintro rfl
    exact h (List.mem_reverse.mp hc)
  unfold directoryPart
  rw [← List.append_nil name.reverse, List.dropWhile_append_of_pos hname]
  rfl

theorem start_separator (location : Location) (hne : path ≠ []) :
    start location (path ++ separator :: rest) = start location path := by
  cases path with
  | nil => exact absurd rfl hne
  | cons c path => rfl

end Names

/-! ## Directories that are made -/

section Made

variable {system : System} {tree tree' : Tree} {path : Path} {location : Location}

theorem dropLast_directory (tree : Tree) (h : tree.node location = some .directory) :
    tree.node location.dropLast = some .directory := by
  rcases List.eq_nil_or_concat location with rfl | ⟨above, name, rfl⟩
  · exact h
  · rw [List.concat_eq_append] at h ⊢
    rw [List.dropLast_concat]
    exact tree.above above name (by rw [h]; simp)

/-- Only directories are named without an entry. -/
theorem place_object_directory (h : system.place tree path = some (.object location)) :
    tree.node location = some .directory := by
  unfold System.place at h
  split at h
  · split at h
    · cases h
    · cases h
      exact tree.root_directory
  · split at h
    · cases h
    · rename_i dir henter
      have hdir := (enter_eq_some_iff.mp henter).2
      split at h
      · cases h
        exact hdir
      · split at h
        · cases h
          exact dropLast_directory tree hdir
        · cases h

/-- What a path names is there. -/
theorem lookup_node (h : system.lookup tree path = some location) :
    ∃ node, tree.node location = some node := by
  unfold System.lookup at h
  split at h
  · cases h
  · rename_i object hplace
    cases h
    exact ⟨_, place_object_directory hplace⟩
  · split at h
    · cases h
    · rename_i hnode
      cases h
      exact Option.ne_none_iff_exists'.mp hnode

/-- A separator behind a path names the same. -/
theorem lookup_separator (tree : Tree) (hne : path ≠ []) :
    system.lookup tree (path ++ [separator]) = system.lookup tree path := by
  have hplace : system.place tree (path ++ [separator]) = system.place tree path := by
    unfold System.place
    rw [components_separator, start_separator _ hne, if_neg hne, if_neg (by simp)]
  unfold System.lookup
  rw [hplace]

/-- A directory that a path names is where the path leads. -/
theorem resolve_of_lookup (h : system.lookup tree path = some location)
    (hdirectory : tree.node location = some .directory) :
    system.resolve tree path = some location := by
  unfold System.lookup at h
  split at h
  · cases h
  · rename_i object hplace
    cases h
    unfold System.place at hplace
    split at hplace
    · rename_i hlast
      split at hplace
      · cases hplace
      · rename_i hne
        cases hplace
        have hnames : components path = [] := List.getLast?_eq_none_iff.mp hlast
        unfold System.resolve start
        rw [hnames, if_pos (head?_of_components_eq_nil hnames hne), follow_nil]
    · rename_i last hlast
      have hnames := List.dropLast_append_getLast? last hlast
      split at hplace
      · cases hplace
      · rename_i dir henter
        obtain ⟨hfollow, hdir⟩ := enter_eq_some_iff.mp henter
        unfold System.resolve
        rw [← hnames]
        split at hplace
        · rename_i hself
          cases hplace
          refine follow_append (fun g => ?_) hfollow
          simp [walk, hdir, hself]
        · rename_i hself
          split at hplace
          · rename_i habove
            cases hplace
            refine follow_append (fun g => ?_) hfollow
            simp [walk, hdir, habove, show aboveName ≠ selfName by decide]
          · cases hplace
  · rename_i dir name hplace
    split at h
    · cases h
    · cases h
      obtain ⟨henter, hlast, hself, habove⟩ := place_entry hplace
      obtain ⟨hfollow, hdir⟩ := enter_eq_some_iff.mp henter
      unfold System.resolve
      rw [← List.dropLast_append_getLast? name hlast]
      refine follow_append (fun g => ?_) hfollow
      simp [walk, hdir, hself, habove, hdirectory]

theorem place_kept (h : Kept tree tree') (hcwd : tree'.cwd = tree.cwd) {place : Place}
    (hplace : system.place tree path = some place) : system.place tree' path = some place := by
  unfold System.place at hplace ⊢
  split at hplace
  · exact hplace
  · split at hplace
    · cases hplace
    · rename_i dir henter
      rw [hcwd, enter_kept h henter]
      exact hplace

theorem resolve_kept (h : Kept tree tree') (hcwd : tree'.cwd = tree.cwd)
    (hresolve : system.resolve tree path = some location) :
    system.resolve tree' path = some location := by
  unfold System.resolve at hresolve ⊢
  rw [hcwd]
  exact follow_kept h hresolve

/-- The second tree has more directories than the first, each of them led to by one of these
paths, and is otherwise the same. -/
structure Grows (system : System) (named : Path → Prop) (tree tree' : Tree) : Prop where
  cwd : tree'.cwd = tree.cwd
  kept : Kept tree tree'
  made : ∀ location node, tree.node location = none → tree'.node location = some node →
    node = .directory ∧ ∃ part, named part ∧ system.resolve tree' part = some location

theorem Grows.refl (named : Path → Prop) (tree : Tree) : Grows system named tree tree where
  cwd := rfl
  kept := fun _ _ h => h
  made := by
    intro location node hnone hsome
    rw [hnone] at hsome
    cases hsome

theorem Grows.trans {named : Path → Prop} {tree'' : Tree} (h : Grows system named tree tree')
    (h' : Grows system named tree' tree'') : Grows system named tree tree'' where
  cwd := h'.cwd.trans h.cwd
  kept := fun location node hnode => h'.kept location node (h.kept location node hnode)
  made := by
    intro location node hnone hsome
    cases hmid : tree'.node location with
    | none => exact h'.made location node hmid hsome
    | some node' =>
        obtain ⟨rfl, part, hpart, hresolve⟩ := h.made location node' hnone hmid
        have hnode := h'.kept _ _ hmid
        rw [hsome] at hnode
        exact ⟨Option.some.inj hnode, part, hpart, resolve_kept h'.kept h'.cwd hresolve⟩

/-- What is no directory was there before. -/
theorem Grows.before {named : Path → Prop} {node : Node} (h : Grows system named tree tree')
    (hnode : tree'.node location = some node) (hne : node ≠ .directory) :
    tree.node location = some node := by
  cases hbefore : tree.node location with
  | none => exact absurd (h.made location node hbefore hnode).1 hne
  | some node' =>
      have hkept := h.kept _ _ hbefore
      rw [hnode] at hkept
      rw [Option.some.inj hkept]

/-- A directory that was made is the only change, and the path leads to it. -/
theorem mkdir_ok (h : system.mkdir tree path = .ok tree') :
    Grows system (· = path) tree tree' ∧ ∃ location, system.lookup tree' path = some location := by
  unfold System.mkdir at h
  split at h
  · cases h
  · split at h
    · cases h
    · cases h
    · rename_i location name hplace
      split at h
      · rename_i hfree
        cases h
        generalize hinsert : tree.insert location name .directory
          (place_entry_directory hplace) hfree = tree'
        have hcwd : tree'.cwd = tree.cwd := by rw [← hinsert]; rfl
        have hnode : ∀ other, tree'.node other =
            if other = location ++ [name] then some .directory else tree.node other := by
          rw [← hinsert]
          exact fun other => rfl
        have hkept : Kept tree tree' := by
          intro other node hother
          rw [hnode, if_neg]
          · exact hother
          · rintro rfl
            rw [hfree] at hother
            cases hother
        have hmade : tree'.node (location ++ [name]) = some .directory := by
          rw [hnode, if_pos rfl]
        have hlookup : system.lookup tree' path = some (location ++ [name]) := by
          unfold System.lookup
          rw [place_kept hkept hcwd hplace]
          simp [hmade]
        refine ⟨⟨hcwd, hkept, ?_⟩, _, hlookup⟩
        intro other node hnone hsome
        rw [hnode] at hsome
        split at hsome
        · rename_i hother
          subst hother
          exact ⟨(Option.some.inj hsome).symm, path, rfl, resolve_of_lookup hlookup hmade⟩
        · rw [hnone] at hsome
          cases hsome
      · cases h

theorem mkdir_exists (h : system.mkdir tree path = .error .exists_) :
    ∃ location, system.lookup tree path = some location := by
  unfold System.mkdir at h
  split at h
  · cases h
  · split at h
    · cases h
    · rename_i location hplace
      refine ⟨location, ?_⟩
      unfold System.lookup
      rw [hplace]
    · rename_i location name hplace
      split at h
      · cases h
      · rename_i hfree
        refine ⟨location ++ [name], ?_⟩
        unfold System.lookup
        rw [hplace]
        simp [hfree]

/-- A file that is not there yet is made in the directory of its path. -/
theorem creationDirectory_eq {directory : Location}
    (h : system.parent tree tree.cwd path = some directory)
    (hlink : ∀ target, tree.node (directory ++ [fileName path]) ≠ some (.link target)) :
    system.creationDirectory tree path = some directory := by
  have hstep : ∀ f, system.creationStep tree f tree.cwd path = some directory := by
    intro f
    unfold System.creationStep
    rw [h]
    cases hnode : tree.node (directory ++ [fileName path]) with
    | none => simp only [hnode]
    | some node =>
        cases node with
        | link target => exact absurd hnode (hlink target)
        | directory => simp only [hnode]
        | file => simp only [hnode]
  unfold System.creationDirectory
  cases system.linkLimit with
  | zero => exact hstep _
  | succ limit => exact hstep _

theorem creationStep_directory {f : Location → Path → Option Location} {origin : Location}
    (hf : ∀ directory target, f directory target = some location →
      tree.node location = some .directory)
    (h : system.creationStep tree f origin path = some location) :
    tree.node location = some .directory := by
  unfold System.creationStep at h
  split at h
  · cases h
  · rename_i directory hparent
    split at h
    · exact hf _ _ h
    · cases h
      exact (enter_eq_some_iff.mp hparent).2

theorem creationDirectoryFrom_directory {limit : Nat} {origin : Location}
    (h : system.creationDirectoryFrom tree limit origin path = some location) :
    tree.node location = some .directory := by
  induction limit generalizing origin path with
  | zero => exact creationStep_directory (fun _ _ hnone => by cases hnone) h
  | succ limit ih => exact creationStep_directory (fun _ _ => ih) h

/-- Files are made in directories. -/
theorem creationDirectory_directory (h : system.creationDirectory tree path = some location) :
    tree.node location = some .directory :=
  creationDirectoryFrom_directory h

end Made

end MiniSql.Foundation.Posix
