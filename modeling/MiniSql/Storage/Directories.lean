import MiniSql.Foundation.Posix
import MiniSql.Storage.Memory

set_option autoImplicit false

/-!
# Directories (`ensure_directory_recursive`, `ensure_parent_directory`)

The two functions on a POSIX tree, when their allocations succeed.  They read a path with
every backslash as a slash and take any `EEXIST` as success, `fopen` reads the path as it
is and needs a directory.
-/

namespace MiniSql

open Foundation Foundation.Posix

def colon : Byte := 0x3A

/-- The separators of a path made one. -/
def unifySeparators (path : Bytes) : Bytes :=
  path.map fun ch => if ch = backslash then slash else ch

/-- The second loop of `ensure_directory_recursive`, at these indexes: its message, if there
is one, and the tree it leaves. -/
def makeDirectories (system : System) (buffer : Bytes) :
    List Nat → Tree → Except Bytes Unit × Tree
  | [], tree => (.ok (), tree)
  | index :: indexes, tree =>
      -- behind the last byte stands the terminator
      if buffer[index]? ≠ some slash ∧ buffer[index]? ≠ none then
        makeDirectories system buffer indexes tree
      else if index = 2 ∧ buffer[1]? = some colon then
        makeDirectories system buffer indexes tree
      else if buffer.take index = [] then makeDirectories system buffer indexes tree
      else
        match system.mkdir tree (buffer.take index) with
        | .ok tree => makeDirectories system buffer indexes tree
        | .error .exists_ => makeDirectories system buffer indexes tree
        | .error .other =>
            (.error (ascii "failed to create directory: " ++ buffer.take index), tree)

/-- `ensure_directory_recursive`. -/
def ensureDirectoryRecursive (system : System) (path : Bytes) (tree : Tree) :
    Except Bytes Unit × Tree :=
  if path = [] then (.ok (), tree)
  else
    let buffer := unifySeparators path
    makeDirectories system buffer (List.range' 1 buffer.length) tree

/-- `ensure_parent_directory`. -/
def ensureParentDirectoryOn (system : System) (path : Bytes) (tree : Tree) :
    Except Bytes Unit × Tree :=
  match parentPath path with
  | none => (.ok (), tree)
  | some parent => ensureDirectoryRecursive system parent tree

/-! ## The two views of a path -/

section Views

variable {path parent : Bytes}

theorem slash_mem_unifySeparators :
    slash ∈ unifySeparators path ↔ slash ∈ path ∨ backslash ∈ path := by
  unfold unifySeparators
  grind

theorem parentPath_eq_none (h : parentPath path = none) : slash ∉ unifySeparators path := by
  have hnone : ∀ ch ∈ path.reverse, (ch != slash && ch != backslash) = true := by
    unfold parentPath at h
    split at h
    · rename_i hdrop
      have hsplit := List.takeWhile_append_dropWhile
        (p := fun ch => ch != slash && ch != backslash) (l := path.reverse)
      rw [hdrop, List.append_nil] at hsplit
      intro ch hmem
      rw [← hsplit] at hmem
      exact List.mem_takeWhile_imp (p := fun ch => ch != slash && ch != backslash) hmem
    · cases h
  rw [slash_mem_unifySeparators]
  rintro (hmem | hmem)
  · have := hnone slash (List.mem_reverse.mpr hmem)
    simp at this
  · have := hnone backslash (List.mem_reverse.mpr hmem)
    simp at this

/-- The last separator of a path, either of the two. -/
theorem parentPath_eq_some (h : parentPath path = some parent) :
    ∃ name, unifySeparators path = unifySeparators parent ++ slash :: name ∧ slash ∉ name := by
  unfold parentPath at h
  split at h
  · cases h
  · rename_i ch rest hdrop
    cases h
    have hsplit := List.takeWhile_append_dropWhile
      (p := fun ch => ch != slash && ch != backslash) (l := path.reverse)
    have hname : ∀ b ∈ path.reverse.takeWhile (fun ch => ch != slash && ch != backslash),
        (b != slash && b != backslash) = true := fun b hb =>
      List.mem_takeWhile_imp (p := fun ch => ch != slash && ch != backslash) hb
    have hch : (ch != slash && ch != backslash) = false := by
      have hhead := head?_dropWhile_eq_false
        (fun ch : Byte => ch != slash && ch != backslash) path.reverse
      rw [hdrop] at hhead
      exact hhead ch rfl
    rw [hdrop] at hsplit
    generalize path.reverse.takeWhile (fun ch => ch != slash && ch != backslash) = name
      at hsplit hname
    have hpath : path = rest.reverse ++ ch :: name.reverse := by
      have hreverse := congrArg List.reverse hsplit
      rw [List.reverse_reverse] at hreverse
      rw [← hreverse]
      simp
    refine ⟨unifySeparators name.reverse, ?_, ?_⟩
    · have hslash : (if ch = backslash then slash else ch) = slash := by
        grind
      rw [hpath]
      unfold unifySeparators
      rw [List.map_append, List.map_cons, hslash]
    · rw [slash_mem_unifySeparators]
      rintro (hmem | hmem)
      · have := hname slash (List.mem_reverse.mp hmem)
        simp at this
      · have := hname backslash (List.mem_reverse.mp hmem)
        simp at this

/-- A path without a backslash is read as it is. -/
theorem unifySeparators_eq_self (h : backslash ∉ path) : unifySeparators path = path := by
  unfold unifySeparators
  rw [List.map_congr_left, List.map_id']
  intro ch hmem
  rw [if_neg]
  rintro rfl
  exact h hmem

theorem unifySeparators_eq_nil_iff : unifySeparators path = [] ↔ path = [] :=
  List.map_eq_nil_iff

end Views

/-! ## What is made -/

section Made

variable {system : System} {buffer name : Bytes} {tree : Tree} {indexes : List Nat}

/-- The paths that `mkdir` is called with are leading parts of the one that is read. -/
theorem ancestor_take {index : Nat}
    (hseparator : ¬ (buffer[index]? ≠ some slash ∧ buffer[index]? ≠ none))
    (hne : buffer.take index ≠ []) : Ancestor (buffer.take index) (buffer ++ slash :: name) := by
  refine ⟨hne, ?_⟩
  cases hcell : buffer[index]? with
  | none =>
      rw [List.take_of_length_le (List.getElem?_eq_none_iff.mp hcell)]
      exact ⟨name, by simp [separator, slash]⟩
  | some ch =>
      obtain rfl : ch = slash := by
        by_contra hch
        exact hseparator (by simp [hcell, hch])
      have htake : buffer.take index ++ [slash] = buffer.take (index + 1) := by
        rw [List.take_add_one, hcell]
        rfl
      have hprefix : buffer.take (index + 1) <+: buffer ++ slash :: name :=
        (List.take_prefix _ _).trans (List.prefix_append _ _)
      rwa [← htake] at hprefix

/-- One run of the loop, by induction on its indexes: every step makes one directory at
most. -/
theorem makeDirectories_grows (indexes : List Nat) (tree : Tree) :
    Grows system (fun part => Ancestor part (buffer ++ slash :: name)) tree
      (makeDirectories system buffer indexes tree).2 := by
  fun_induction makeDirectories system buffer indexes tree with
  | case1 => exact .refl _ _
  | case2 _ _ _ _ ih => exact ih
  | case3 _ _ _ _ _ ih => exact ih
  | case4 _ _ _ _ _ _ ih => exact ih
  | case5 tree index indexes hseparator hdrive hne tree' hmkdir ih =>
      have hgrows := (mkdir_ok hmkdir).1
      refine Grows.trans ⟨hgrows.cwd, hgrows.kept, ?_⟩ ih
      intro location node hnone hsome
      obtain ⟨hnode, part, rfl, hresolve⟩ := hgrows.made location node hnone hsome
      exact ⟨hnode, _, ancestor_take hseparator hne, hresolve⟩
  | case6 _ _ _ _ _ _ _ ih => exact ih
  | case7 => exact .refl _ _

/-- The last round is one call of `mkdir` for the whole path, after which the path names
something. -/
theorem makeDirectories_lookup (hne : buffer ≠ []) (hdrive : ∀ letter, buffer ≠ [letter, colon])
    (hlast : indexes.getLast? = some buffer.length)
    (h : (makeDirectories system buffer indexes tree).1 = .ok ()) :
    ∃ location,
      system.lookup (makeDirectories system buffer indexes tree).2 buffer = some location := by
  have hcons : ∀ {index : Nat} {indexes : List Nat},
      (index :: indexes).getLast? = some buffer.length →
        indexes = [] ∧ index = buffer.length ∨ indexes.getLast? = some buffer.length := by
    intro index indexes hlast
    cases indexes with
    | nil => exact .inl ⟨rfl, Option.some.inj hlast⟩
    | cons next indexes => exact .inr (by rwa [List.getLast?_cons_cons] at hlast)
  fun_induction makeDirectories system buffer indexes tree with
  | case1 => cases hlast
  | case2 tree index indexes hbyte ih =>
      rcases hcons hlast with ⟨-, rfl⟩ | hlast
      · exact absurd (List.getElem?_eq_none (Nat.le_refl _)) hbyte.2
      · exact ih hlast h
  | case3 tree index indexes hbyte hskip ih =>
      rcases hcons hlast with ⟨-, rfl⟩ | hlast
      · obtain ⟨hlength, hcolon⟩ := hskip
        obtain ⟨letter, second, rfl⟩ := List.length_eq_two.mp hlength
        obtain rfl : second = colon := by simpa using hcolon
        exact absurd rfl (hdrive letter)
      · exact ih hlast h
  | case4 tree index indexes hbyte hskip hempty ih =>
      rcases hcons hlast with ⟨-, rfl⟩ | hlast
      · rw [List.take_length] at hempty
        exact absurd hempty hne
      · exact ih hlast h
  | case5 tree index indexes hbyte hskip hempty tree' hmkdir ih =>
      rcases hcons hlast with ⟨rfl, rfl⟩ | hlast
      · rw [List.take_length] at hmkdir
        exact (mkdir_ok hmkdir).2
      · exact ih hlast h
  | case6 tree index indexes hbyte hskip hempty hmkdir ih =>
      rcases hcons hlast with ⟨rfl, rfl⟩ | hlast
      · rw [List.take_length] at hmkdir
        exact mkdir_exists hmkdir
      · exact ih hlast h
  | case7 => cases h

end Made

/-! ## What a true answer says -/

/-- Why a file cannot be made at a path: its directory is a drive prefix, or something that
is no directory stood in its place before, or a link stood at the path. -/
inductive Obstructed (system : System) (before after : Tree) (path : Bytes) : Prop where
  | drive {letter : Byte} (named : directoryPart path = [letter, colon, slash]) :
      Obstructed system before after path
  | parent {location : Location} {node : Node}
      (named : system.lookup after (directoryPart path) = some location)
      (stood : before.node location = some node) (other : node ≠ .directory) :
      Obstructed system before after path
  | link {directory : Location} {target : Path}
      (parent : system.parent after after.cwd path = some directory)
      (stood : before.node (directory ++ [fileName path]) = some (.link target)) :
      Obstructed system before after path

/-- Once the directory of a path is there, only a link at the path keeps a file from being
made in it. -/
theorem obstructed_of_parent {system : System} {named : Path → Prop} {tree final : Tree}
    {path : Bytes} {directory : Location} (hgrows : Grows system named tree final)
    (hparent : system.parent final final.cwd path = some directory)
    (hnone : system.creationDirectory final path = none) :
    Obstructed system tree final path := by
  by_cases hlink : ∃ target, final.node (directory ++ [fileName path]) = some (.link target)
  · obtain ⟨target, hnode⟩ := hlink
    exact .link hparent (hgrows.before hnode (by simp))
  · have hsome := creationDirectory_eq hparent fun target hnode => hlink ⟨target, hnode⟩
    rw [hnone] at hsome
    cases hsome

theorem ensureParentDirectoryOn_grows (system : System) (path : Bytes) (tree : Tree) :
    Grows system (fun part => Ancestor part (unifySeparators path)) tree
      (ensureParentDirectoryOn system path tree).2 := by
  unfold ensureParentDirectoryOn
  cases hparent : parentPath path with
  | none => exact .refl _ tree
  | some parent =>
      obtain ⟨name, hsplit, -⟩ := parentPath_eq_some hparent
      rw [hsplit]
      unfold ensureDirectoryRecursive
      simp only []
      split
      · exact .refl _ tree
      · exact makeDirectories_grows _ tree

/-- A directory that the path up to its last separator leads to. -/
theorem parent_of_resolve {system : System} {tree : Tree} {buffer name : Bytes}
    {directory : Location} (hne : buffer ≠ []) (hname : slash ∉ name)
    (hresolve : system.resolve tree buffer = some directory)
    (hdirectory : tree.node directory = some .directory) :
    system.parent tree tree.cwd (buffer ++ slash :: name) = some directory := by
  have hpart : directoryPart (buffer ++ slash :: name) = buffer ++ [slash] :=
    directoryPart_append hname
  unfold System.parent
  rw [hpart, show components (buffer ++ [slash]) = components buffer from components_separator,
    show start tree.cwd (buffer ++ slash :: name) = start tree.cwd buffer from
      start_separator tree.cwd hne]
  exact enter_eq_some_iff.mpr ⟨hresolve, hdirectory⟩

/-- A name alone is looked up in the working directory. -/
theorem parent_of_name (system : System) (tree : Tree) {name : Bytes} (hname : slash ∉ name) :
    system.parent tree tree.cwd name = some tree.cwd := by
  have hpart : directoryPart name = [] := directoryPart_eq_nil hname
  have hstart : start tree.cwd name = tree.cwd := by
    unfold start
    rw [if_neg]
    intro hhead
    exact hname (List.mem_of_mem_head? hhead)
  unfold System.parent
  rw [hpart, hstart]
  exact enter_eq_some_iff.mpr ⟨follow_nil tree _ tree.cwd, tree.cwd_directory⟩

/-- A name behind the first separator is looked up in the root. -/
theorem parent_of_rooted (system : System) (tree : Tree) {name : Bytes} (hname : slash ∉ name) :
    system.parent tree tree.cwd (slash :: name) = some [] := by
  have hpart : directoryPart ([] ++ slash :: name) = [] ++ [slash] := directoryPart_append hname
  rw [List.nil_append, List.nil_append] at hpart
  unfold System.parent
  rw [hpart]
  exact enter_eq_some_iff.mpr ⟨follow_nil tree _ [], tree.root_directory⟩

/-- A true answer of `ensure_directory_recursive`: the path names something. -/
theorem ensureDirectoryRecursive_lookup {system : System} {tree : Tree} {path : Bytes}
    (hne : path ≠ []) (hdrive : ∀ letter, unifySeparators path ≠ [letter, colon])
    (h : (ensureDirectoryRecursive system path tree).1 = .ok ()) :
    ∃ location, system.lookup (ensureDirectoryRecursive system path tree).2
      (unifySeparators path) = some location := by
  have hbuffer : unifySeparators path ≠ [] := fun hnil => hne (unifySeparators_eq_nil_iff.mp hnil)
  unfold ensureDirectoryRecursive at h ⊢
  rw [if_neg hne] at h ⊢
  refine makeDirectories_lookup hbuffer hdrive ?_ h
  have hlength := List.length_pos_of_ne_nil hbuffer
  rw [List.getLast?_range', if_neg (by omega)]
  congr 1
  omega

/-- A true answer for the part in front of the last separator. -/
theorem ensureDirectoryRecursive_obstructed {system : System} {tree : Tree}
    {named : Path → Prop} {parent seen name : Bytes}
    (hseen : seen = unifySeparators parent ++ slash :: name) (hname : slash ∉ name)
    (hgrows : Grows system named tree (ensureDirectoryRecursive system parent tree).2)
    (hcreation : system.creationDirectory (ensureDirectoryRecursive system parent tree).2 seen =
      none)
    (h : (ensureDirectoryRecursive system parent tree).1 = .ok ()) :
    Obstructed system tree (ensureDirectoryRecursive system parent tree).2 seen := by
  have hpart : directoryPart seen = unifySeparators parent ++ [slash] := by
    rw [hseen]
    exact directoryPart_append hname
  by_cases hnil : parent = []
  · subst hnil
    have hroot := parent_of_rooted system (ensureDirectoryRecursive system [] tree).2 hname
    have hrooted : seen = slash :: name := hseen
    rw [← hrooted] at hroot
    exact obstructed_of_parent hgrows hroot hcreation
  · by_cases hdrive : ∃ letter, unifySeparators parent = [letter, colon]
    · obtain ⟨letter, hletter⟩ := hdrive
      exact .drive (hpart.trans (by rw [hletter]; rfl))
    · have hbuffer : unifySeparators parent ≠ [] :=
        fun h => hnil (unifySeparators_eq_nil_iff.mp h)
      obtain ⟨location, hlookup⟩ := ensureDirectoryRecursive_lookup hnil
        (fun letter hletter => hdrive ⟨letter, hletter⟩) h
      obtain ⟨node, hnode⟩ := lookup_node hlookup
      by_cases hdirectory : node = .directory
      · subst hdirectory
        have hresolve := resolve_of_lookup hlookup hnode
        have hplace := parent_of_resolve hbuffer hname hresolve hnode
        rw [← hseen] at hplace
        exact obstructed_of_parent hgrows hplace hcreation
      · refine .parent ?_ (hgrows.before hnode hdirectory) hdirectory
        rw [hpart]
        exact (lookup_separator _ hbuffer).trans hlookup

/-- A true answer, with every backslash read as a slash: what is new are directories that were
missing, each led to by a leading part of the path; and the directory in which `fopen` has to
make the file is there, but for the three reasons. -/
theorem ensureParentDirectoryOn_true {system : System} {tree : Tree} {path : Bytes}
    (h : (ensureParentDirectoryOn system path tree).1 = .ok ()) :
    let seen := unifySeparators path
    let final := (ensureParentDirectoryOn system path tree).2
    (backslash ∉ path → seen = path) ∧
      Grows system (fun part => Ancestor part seen) tree final ∧
      ((∃ directory, system.creationDirectory final seen = some directory ∧
          final.node directory = some .directory) ∨
        system.creationDirectory final seen = none ∧ Obstructed system tree final seen) := by
  intro seen final
  have hgrows : Grows system (fun part => Ancestor part seen) tree final :=
    ensureParentDirectoryOn_grows system path tree
  refine ⟨unifySeparators_eq_self, hgrows, ?_⟩
  cases hcreation : system.creationDirectory final seen with
  | some directory =>
      exact .inl ⟨directory, rfl, creationDirectory_directory hcreation⟩
  | none =>
      refine .inr ⟨rfl, ?_⟩
      have hfinal : final = (ensureParentDirectoryOn system path tree).2 := rfl
      unfold ensureParentDirectoryOn at h hfinal
      cases hparent : parentPath path with
      | none =>
          have hplace := parent_of_name system final (parentPath_eq_none hparent)
          exact obstructed_of_parent hgrows hplace hcreation
      | some parent =>
          rw [hparent] at h hfinal
          obtain ⟨name, hsplit, hname⟩ := parentPath_eq_some hparent
          rw [hfinal]
          rw [hfinal] at hgrows hcreation
          exact ensureDirectoryRecursive_obstructed hsplit hname hgrows hcreation h

/-- A file two levels down. -/
theorem ensureParentDirectoryOn_true_nested :
    let system : System := ⟨8, fun _ => false⟩
    let seen := unifySeparators (ascii "a/b/x")
    let final := (ensureParentDirectoryOn system (ascii "a/b/x") .bare).2
    (backslash ∉ ascii "a/b/x" → seen = ascii "a/b/x") ∧
      Grows system (fun part => Ancestor part seen) .bare final ∧
      ((∃ directory, system.creationDirectory final seen = some directory ∧
          final.node directory = some .directory) ∨
        system.creationDirectory final seen = none ∧ Obstructed system .bare final seen) :=
  ensureParentDirectoryOn_true (by decide +kernel)

/-- `ensure_parent_directory`, and the directory in which `fopen` then makes the file. -/
def parentThenOpen (system : System) (path : Bytes) (tree : Tree) :
    Except Bytes Unit × Option Location :=
  let (answer, tree) := ensureParentDirectoryOn system path tree
  (answer, system.creationDirectory tree path)

/-- A true answer without the directory `fopen` needs: the parent is named with a backslash,
it is a drive prefix, a file stands in its place, or the path is a link to a place without a
directory.  With a backslash as the last separator the directory that is made is none of the
directories above the file. -/
theorem ensureParentDirectoryOn_parts_from_fopen :
    let system : System := ⟨8, fun _ => false⟩
    let withFile := Tree.bare.insert [] (ascii "f") .file rfl rfl
    let withLink := Tree.bare.insert [] (ascii "l") (.link (ascii "d/x")) rfl rfl
    parentThenOpen system (ascii "a\\b/x") .bare = (.ok (), none) ∧
      parentThenOpen system (ascii "C:/x") .bare = (.ok (), none) ∧
      parentThenOpen system (ascii "f/x") withFile = (.ok (), none) ∧
      parentThenOpen system (ascii "l") withLink = (.ok (), none) ∧
      (ensureParentDirectoryOn system (ascii "a\\x") .bare).1 = .ok () ∧
      ¬ Grows system (fun part => Ancestor part (ascii "a\\x")) .bare
        (ensureParentDirectoryOn system (ascii "a\\x") .bare).2 := by
  intro system withFile withLink
  refine ⟨by decide +kernel, by decide +kernel, by decide +kernel, by decide +kernel,
    by decide +kernel, fun hgrows => ?_⟩
  have hmade : (ensureParentDirectoryOn system (ascii "a\\x") .bare).2.node [ascii "a"] =
      some .directory := by
    decide +kernel
  obtain ⟨-, part, ⟨-, hancestor⟩, -⟩ := hgrows.made [ascii "a"] _ rfl hmade
  have hmem : separator ∈ ascii "a\\x" := hancestor.subset (by simp)
  exact absurd hmem (by decide)

end MiniSql
