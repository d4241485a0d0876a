import Maubot.Lib.OsPath
import Mathlib.Data.List.Nodup

namespace Maubot.FileLists

/-!
# Plugin loaders — the files of a plugin

A plugin is loaded from an archive, or from the directory it was archived from.  Both loaders
list the files of a directory of it, and read a file.

* `FileTree` — the files and directories of a plugin;
* `Zipped`, `FileSystem` — `sync_read_file` and `sync_list_files` of the two loaders;
* `lists_agree_iff` — when they list the same names, and can read them.
-/

open UrlPath OsPath

/-! ### Trees -/

abbrev Text := List Char

/-- The names on the way from the root of the plugin -/
abbrev Path := List Text

structure FileTree (B : Type) where
  files  : List (Path × B)
  dirs   : List Path
  /-- A path is that of one file, and not of a directory too. -/
  nodup  : (files.map Prod.fst).Nodup
  apart  : ∀ p ∈ dirs, p ∉ files.map Prod.fst
  proper : ∀ p ∈ files.map Prod.fst ++ dirs, ∀ n ∈ p, Proper n ∧ n ≠ ['.', '.']
  root   : [] ∈ dirs
  /-- Everything but the root is in a directory. -/
  closed : ∀ p ∈ files.map Prod.fst ++ dirs, p ≠ [] → p.dropLast ∈ dirs

variable {B : Type} (tree : FileTree B)

namespace FileTree

def paths : List Path := tree.files.map Prod.fst ++ tree.dirs

/-- The names in a directory, those of its subdirectories too: `os.listdir` -/
def entries (d : Path) : List Text :=
  (tree.paths.filter fun p => p ≠ [] ∧ p.dropLast = d).filterMap List.getLast?

/-- A component of a path; `none` is an error, or a way out of the plugin. -/
def enter (d : Path) (comp : Text) : Option Path :=
  if comp = [] ∨ comp = ['.'] then some d
  else if comp = ['.', '.'] then (if d = [] then none else some d.dropLast)
  else if d ++ [comp] ∈ tree.dirs then some (d ++ [comp])
  else none

def walk (d : Path) (comps : List Text) : Option Path := comps.foldlM tree.enter d

/-- The directory at `os.path.join(self.path, directory)`, if it is one of the plugin -/
def resolve (directory : Text) : Option Path :=
  if ['/'].isPrefixOf directory then none else tree.walk [] (split '/' directory)

end FileTree

/-! ### The two loaders -/

namespace FileSystem

/-- `FileSystemLoader.sync_read_file` -/
def syncReadFile (path : Text) : Option B :=
  if ['/'].isPrefixOf path then none
  else (tree.walk [] (split '/' path).dropLast).bind fun d =>
    tree.files.lookup (d ++ [basename path])

/-- `FileSystemLoader.sync_list_files` -/
def syncListFiles (directory : Text) : Option (List Text) :=
  (tree.resolve directory).map tree.entries

end FileSystem

namespace Zipped

/-- The names in an archive of the tree -/
def filelist : List (Text × B) := tree.files.map fun file => (UrlPath.join '/' file.1, file.2)

/-- `ZippedPluginLoader.sync_read_file` -/
def syncReadFile (path : Text) : Option B := (filelist tree).lookup path

/-- `ZippedPluginLoader.sync_list_files` -/
def syncListFiles (directory : Text) : List Text :=
  ((filelist tree).map Prod.fst).filter fun filename =>
    dirname filename = directory.rdropWhile (· = '/')

end Zipped

/-- The names are those of files in the directory, and reading them gives these files. -/
def Readable (d : Path) (read : Text → Option B) (names : List Text) : Prop :=
  ∀ name ∈ names, ∃ content, (d ++ [basename name], content) ∈ tree.files ∧
    read name = some content

/-- The loaders list one set of names, and each can read those it lists. -/
def Agree (directory : Text) (d : Path) : Prop :=
  ∃ names, FileSystem.syncListFiles tree directory = some names ∧
    (∀ name, name ∈ Zipped.syncListFiles tree directory ↔ name ∈ names) ∧
    Readable tree d (Zipped.syncReadFile tree) (Zipped.syncListFiles tree directory) ∧
    Readable tree d (FileSystem.syncReadFile tree) names

/-! ### Names of files -/

section Names

/-- The name of a file in a directory. -/
theorem join_concat {q : Path} (n : Text) (hq : q ≠ []) :
    UrlPath.join '/' (q ++ [n]) = UrlPath.join '/' q ++ '/' :: n := by
  cases q with
  | nil => exact absurd rfl hq
  | cons s q => simp [UrlPath.join]

/-- Its base name. -/
theorem basename_join {q : Path} {n : Text} (hq : ∀ s ∈ q ++ [n], '/' ∉ s) :
    basename (UrlPath.join '/' (q ++ [n])) = n := by
  rw [basename, split_join '/' _ (List.append_ne_nil_of_right_ne_nil q (List.cons_ne_nil n [])) hq,
    List.getLast?_concat, Option.getD_some]

/-- A name without slashes is its own base name. -/
theorem basename_of_not_mem {n : Text} (h : '/' ∉ n) : basename n = n := by
  rw [basename, split_of_not_mem '/' h, List.getLast?_singleton, Option.getD_some]

/-- The last character of a path is one of a name. -/
theorem getLast?_join {q : Path} (hq : ∀ s ∈ q, Proper s) :
    (UrlPath.join '/' q).getLast? ≠ some '/' := by
  induction q using List.reverseRecOn with
  | nil => nofun
  | append_singleton q n ih =>
    obtain ⟨hne, -, hslash⟩ := hq n (List.mem_append_right _ List.mem_cons_self)
    have hlast : n.getLast? ≠ some '/' := fun h => hslash (List.mem_of_getLast? h)
    by_cases hnil : q = []
    · subst hnil
      simpa [UrlPath.join] using hlast
    · rw [join_concat n hnil, List.getLast?_append, List.getLast?_cons]
      obtain ⟨c, hc⟩ : ∃ c, n.getLast? = some c := ⟨_, List.getLast?_eq_getLast_of_ne_nil hne⟩
      rw [hc] at hlast ⊢
      simpa using hlast

/-- **The directory of a file** in an archive is the path of the directory it was in. -/
theorem dirname_join {q : Path} {n : Text} (hq : ∀ s ∈ q, Proper s) (hn : Proper n) :
    dirname (UrlPath.join '/' (q ++ [n])) = UrlPath.join '/' q := by
  have hslash : ∀ s ∈ q ++ [n], '/' ∉ s := by
    intro s hs
    rcases List.mem_append.mp hs with hs | hs
    · exact (hq s hs).2.2
    · rw [List.mem_singleton.mp hs]
      exact hn.2.2
  unfold dirname
  rw [basename_join hslash]
  -- in a directory below the root, the slash before the name is dropped too
  by_cases hnil : q = []
  · subst hnil
    simp [UrlPath.join]
  · have htake : (UrlPath.join '/' (q ++ [n])).take
        ((UrlPath.join '/' (q ++ [n])).length - n.length) = UrlPath.join '/' q ++ ['/'] := by
      rw [join_concat n hnil]
      have hlength : (UrlPath.join '/' q ++ '/' :: n).length - n.length =
          (UrlPath.join '/' q ++ ['/']).length := by
        simp only [List.length_append, List.length_cons, List.length_nil]
        omega
      rw [hlength, show UrlPath.join '/' q ++ '/' :: n = UrlPath.join '/' q ++ ['/'] ++ n by simp,
        List.take_left]
    have hlast := getLast?_join hq
    dsimp only
    rw [htake, List.rdropWhile_concat_pos _ _ _ (by simp)]
    have hne : UrlPath.join '/' q ≠ [] := by
      intro h
      exact hnil (join_injective (b := []) hq (fun _ hs => absurd hs List.not_mem_nil) h)
    have hlast' : (UrlPath.join '/' q).getLast hne ≠ '/' := by
      intro h
      rw [List.getLast?_eq_getLast_of_ne_nil hne, h] at hlast
      exact hlast rfl
    rw [if_neg, List.rdropWhile_eq_self_iff.mpr]
    · intro _
      simpa using hlast'
    · intro hall
      have hmem := List.all_eq_true.mp hall _ (List.mem_append_left _ (List.getLast_mem hne))
      exact hlast' (of_decide_eq_true hmem)

end Names

/-! ### Directories -/

namespace FileTree

variable {tree} {d : Path}

/-- Files are in the tree, -/
theorem mem_paths_of_file {p : Path} {content : B} (h : (p, content) ∈ tree.files) :
    p ∈ tree.paths :=
  List.mem_append_left _ (List.mem_map_of_mem h)

/-- and so are directories. -/
theorem mem_paths_of_dir {p : Path} (h : p ∈ tree.dirs) : p ∈ tree.paths :=
  List.mem_append_right _ h

/-- The entries of a directory are the last names of the paths below it. -/
theorem mem_entries {n : Text} : n ∈ tree.entries d ↔ d ++ [n] ∈ tree.paths := by
  unfold entries
  rw [List.mem_filterMap]
  constructor
  · rintro ⟨p, hp, hlast⟩
    obtain ⟨hpaths, hd⟩ := List.mem_filter.mp hp
    obtain ⟨hne, rfl⟩ := of_decide_eq_true hd
    rw [List.getLast?_eq_getLast_of_ne_nil hne] at hlast
    rw [← Option.some.inj hlast, List.dropLast_concat_getLast hne]
    exact hpaths
  · intro h
    refine ⟨d ++ [n], List.mem_filter.mpr ⟨h, decide_eq_true ⟨by simp, by simp⟩⟩, by simp⟩

/-- They are proper names. -/
theorem proper_entry {n : Text} (h : n ∈ tree.entries d) : Proper n :=
  (tree.proper _ (mem_entries.mp h) n (List.mem_append_right _ List.mem_cons_self)).1

/-- What a directory is in is a directory. -/
theorem mem_dirs_of_append {q : Path} (h : d ++ q ∈ tree.dirs) : d ∈ tree.dirs := by
  induction q using List.reverseRecOn with
  | nil => simpa using h
  | append_singleton q n ih =>
    have hparent := tree.closed _ (mem_paths_of_dir h) (by simp)
    rw [← List.append_assoc, List.dropLast_concat] at hparent
    exact ih hparent

/-- Going down into a directory of the tree -/
theorem walk_names {q : Path} (h : d ++ q ∈ tree.dirs) : tree.walk d q = some (d ++ q) := by
  induction q generalizing d with
  | nil => simp [walk]
  | cons n q ih =>
    rw [List.append_cons] at h ⊢
    obtain ⟨⟨hne, hdot, -⟩, hdots⟩ := tree.proper _ (mem_paths_of_dir h) n (by simp)
    have henter : tree.enter d n = some (d ++ [n]) := by
      rw [enter, if_neg (not_or.mpr ⟨hne, hdot⟩), if_neg hdots, if_pos (mem_dirs_of_append h)]
    rw [walk, List.foldlM_cons, henter]
    exact ih h

/-- Slashes alone lead nowhere else. -/
theorem walk_slashes (d : Path) (k : Nat) :
    tree.walk d (split '/' (List.replicate k '/')) = some d := by
  induction k with
  | zero => simp [walk, split, enter]
  | succ k ih =>
    rw [List.replicate_succ, split, if_pos rfl, walk, List.foldlM_cons, enter, if_pos (.inl rfl)]
    exact ih

/-- A directory is found under its path, with any number of slashes behind it. -/
theorem resolve_join {q : Path} (hq : q ∈ tree.dirs) {k : Nat} (hk : q = [] → k = 0) :
    tree.resolve (UrlPath.join '/' q ++ List.replicate k '/') = some q := by
  have hproper (n : Text) (hn : n ∈ q) : Proper n := (tree.proper _ (mem_paths_of_dir hq) n hn).1
  -- for the root, a slash would make the path absolute
  by_cases hnil : q = []
  · subst hnil
    rw [hk rfl]
    rfl
  · have hfirst : ['/'].isPrefixOf (UrlPath.join '/' q ++ List.replicate k '/') = false := by
      refine (relative_iff _).mp fun rest h => ?_
      cases hjoin : UrlPath.join '/' q with
      | nil => exact hnil (join_injective (b := []) hproper nofun hjoin)
      | cons c t =>
        rw [hjoin] at h
        obtain rfl : c = '/' := (List.cons.inj h).1
        exact join_head_ne hproper t hjoin
    have hsplit : split '/' (UrlPath.join '/' q) = q :=
      split_join '/' q hnil fun n hn => (hproper n hn).2.2
    rw [resolve, hfirst]
    change tree.walk [] _ = _
    cases k with
    | zero =>
      rw [List.replicate_zero, List.append_nil, hsplit]
      exact walk_names hq
    | succ k =>
      rw [List.replicate_succ, split_append, hsplit, walk, List.foldlM_append]
      change (tree.walk [] q).bind (fun d => tree.walk d _) = _
      rw [walk_names (d := []) hq, Option.bind_some, List.nil_append, walk_slashes]

end FileTree

/-! ### Lists -/

variable {tree} {d : Path} {directory : Text}

/-- The archive lists the files whose directory is the one that is asked for. -/
theorem mem_syncListFiles {name : Text} : name ∈ Zipped.syncListFiles tree directory ↔
    ∃ p ∈ tree.files.map Prod.fst, name = UrlPath.join '/' p ∧
      dirname name = directory.rdropWhile (· = '/') := by
  unfold Zipped.syncListFiles Zipped.filelist
  rw [List.mem_filter, List.map_map]
  constructor
  · rintro ⟨hname, hdir⟩
    obtain ⟨file, hfile, rfl⟩ := List.mem_map.mp hname
    exact ⟨file.1, List.mem_map_of_mem hfile, rfl, of_decide_eq_true hdir⟩
  · rintro ⟨p, hp, rfl, hdir⟩
    obtain ⟨file, hfile, rfl⟩ := List.mem_map.mp hp
    exact ⟨List.mem_map.mpr ⟨file, hfile, rfl⟩, decide_eq_true hdir⟩

/-- A file has a proper path, and its directory is in the tree. -/
theorem FileTree.proper_file (tree : FileTree B) {p : Path} (hp : p ∈ tree.files.map Prod.fst) :
    (∀ n ∈ p, Proper n) ∧ ∃ q n, p = q ++ [n] ∧ q ∈ tree.dirs := by
  have hpaths : p ∈ tree.paths := List.mem_append_left _ hp
  have hne : p ≠ [] := by
    rintro rfl
    exact tree.apart _ tree.root hp
  refine ⟨fun n hn => (tree.proper _ hpaths n hn).1, p.dropLast, p.getLast hne, ?_,
    tree.closed _ hpaths hne⟩
  exact (List.dropLast_concat_getLast hne).symm

/-- The archive lists files only for the path of their directory, and slashes behind it. -/
theorem listed (hd : tree.resolve directory = some d) {name : Text}
    (h : name ∈ Zipped.syncListFiles tree directory) :
    (∃ n, name = UrlPath.join '/' (d ++ [n]) ∧ d ++ [n] ∈ tree.files.map Prod.fst) ∧
      (d = [] → directory = []) := by
  obtain ⟨p, hp, rfl, hdir⟩ := mem_syncListFiles.mp h
  obtain ⟨hproper, q, n, rfl, hq⟩ := tree.proper_file hp
  rw [dirname_join (fun s hs => hproper s (List.mem_append_left _ hs))
    (hproper n (List.mem_append_right _ List.mem_cons_self))] at hdir
  -- the directory that was asked for is the path of `q`, and slashes
  have hslashes : directory.rtakeWhile (fun c => decide (c = '/')) =
      List.replicate (directory.rtakeWhile fun c => decide (c = '/')).length '/' :=
    List.eq_replicate_of_mem fun c hc => by simpa using List.mem_rtakeWhile_imp hc
  have hsplit : directory.rdropWhile (fun c => decide (c = '/')) ++
      directory.rtakeWhile (fun c => decide (c = '/')) = directory :=
    List.rdropWhile_append_rtakeWhile
  rw [← hdir, hslashes] at hsplit
  generalize (directory.rtakeWhile fun c => decide (c = '/')).length = k at hsplit
  subst hsplit
  have hk : q = [] → k = 0 := by
    rintro rfl
    cases k with
    | zero => rfl
    | succ k => cases hd
  rw [FileTree.resolve_join hq hk] at hd
  obtain rfl := Option.some.inj hd
  refine ⟨⟨n, rfl, hp⟩, ?_⟩
  rintro rfl
  rw [hk rfl]
  rfl

/-- An entry of a list without repetitions is found. -/
theorem lookup_eq {α β : Type} [BEq α] [LawfulBEq α] {l : List (α × β)} {a : α} {b : β}
    (hnodup : (l.map Prod.fst).Nodup) (h : (a, b) ∈ l) : l.lookup a = some b := by
  induction l with
  | nil => cases h
  | cons e l ih =>
    obtain ⟨hfirst, hrest⟩ := List.nodup_cons.mp hnodup
    rcases List.mem_cons.mp h with rfl | h
    · exact List.lookup_cons_self
    · have hne : (a == e.1) = false := beq_eq_false_iff_ne.mpr fun heq =>
        hfirst (heq ▸ List.mem_map_of_mem h)
      rw [List.lookup_cons, hne]
      exact ih hrest h

/-- The archive has one file under each of its names. -/
theorem zipped_syncReadFile {p : Path} {content : B} (h : (p, content) ∈ tree.files) :
    Zipped.syncReadFile tree (UrlPath.join '/' p) = some content := by
  refine lookup_eq ?_ (List.mem_map.mpr ⟨_, h, rfl⟩)
  unfold Zipped.filelist
  rw [List.map_map, show Prod.fst ∘ (fun file : Path × B => (UrlPath.join '/' file.1, file.2)) =
    UrlPath.join '/' ∘ Prod.fst from rfl, ← List.map_map]
  refine List.Nodup.map_on (fun p hp q hq heq => ?_) tree.nodup
  exact join_injective (tree.proper_file hp).1 (tree.proper_file hq).1 heq

/-- A file of the root, under its name -/
theorem fileSystem_syncReadFile {n : Text} {content : B} (h : ([n], content) ∈ tree.files) :
    FileSystem.syncReadFile tree n = some content := by
  obtain ⟨⟨hne, -, hslash⟩, -⟩ :=
    tree.proper _ (FileTree.mem_paths_of_file h) n List.mem_cons_self
  unfold FileSystem.syncReadFile
  rw [(relative_iff n).mp (relative_of_not_mem hslash), split_of_not_mem '/' hslash,
    basename_of_not_mem hslash]
  change (tree.walk [] []).bind (fun d => tree.files.lookup (d ++ [n])) = _
  exact lookup_eq tree.nodup h

/-! ### When the loaders agree -/

/-- A file has a content. -/
theorem exists_content {p : Path} (h : p ∈ tree.files.map Prod.fst) :
    ∃ content, (p, content) ∈ tree.files := by
  obtain ⟨file, hfile, rfl⟩ := List.mem_map.mp h
  exact ⟨file.2, hfile⟩

/-- What the archive lists can be read from it. -/
theorem readable_zipped (hd : tree.resolve directory = some d) :
    Readable tree d (Zipped.syncReadFile tree) (Zipped.syncListFiles tree directory) := by
  intro name hname
  obtain ⟨⟨n, rfl, hp⟩, -⟩ := listed hd hname
  obtain ⟨content, hcontent⟩ := exists_content hp
  have hslash (s : Text) (hs : s ∈ d ++ [n]) : '/' ∉ s := ((tree.proper_file hp).1 s hs).2.2
  refine ⟨content, ?_, zipped_syncReadFile hcontent⟩
  rw [basename_join hslash]
  exact hcontent

/-- The file system lists the entries of the directory that is meant. -/
theorem fileSystem_syncListFiles (hd : tree.resolve directory = some d) :
    FileSystem.syncListFiles tree directory = some (tree.entries d) := by
  rw [FileSystem.syncListFiles, hd, Option.map_some]

/-- On an empty directory both agree, -/
theorem agree_of_empty (hd : tree.resolve directory = some d) (hempty : tree.entries d = []) :
    Agree tree directory d := by
  have hnone (name : Text) : name ∉ Zipped.syncListFiles tree directory := by
    intro hname
    obtain ⟨⟨n, -, hp⟩, -⟩ := listed hd hname
    have hn : n ∈ tree.entries d := FileTree.mem_entries.mpr (List.mem_append_left _ hp)
    rw [hempty] at hn
    cases hn
  refine ⟨_, fileSystem_syncListFiles hd, fun name => iff_of_false (hnone name) ?_,
    readable_zipped hd, ?_⟩
  · rw [hempty]
    exact List.not_mem_nil
  · rw [hempty]
    nofun

/-- Without subdirectories the root has its files, under names that are their paths. -/
theorem agree_root (hflat : ∀ sub ∈ tree.dirs, sub ≠ [] → sub.dropLast ≠ []) :
    Agree tree [] [] := by
  have hd : tree.resolve [] = some [] := rfl
  have hfile {n : Text} (hn : n ∈ tree.entries []) : [n] ∈ tree.files.map Prod.fst :=
    (List.mem_append.mp (FileTree.mem_entries.mp hn)).resolve_right
      fun hdir => hflat _ hdir (List.cons_ne_nil _ _) rfl
  refine ⟨_, fileSystem_syncListFiles hd, fun name => ⟨fun hname => ?_, fun hname => ?_⟩,
    readable_zipped hd, fun name hname => ?_⟩
  · obtain ⟨⟨n, rfl, hp⟩, -⟩ := listed hd hname
    refine FileTree.mem_entries.mpr (List.mem_append_left _ ?_)
    simpa [UrlPath.join] using hp
  · apply mem_syncListFiles.mpr
    refine ⟨[name], hfile hname, by simp [UrlPath.join], ?_⟩
    have hdir := dirname_join (q := []) (fun _ hs => absurd hs List.not_mem_nil)
      (FileTree.proper_entry hname)
    simpa [UrlPath.join] using hdir
  · obtain ⟨content, hcontent⟩ := exists_content (hfile hname)
    refine ⟨content, ?_, fileSystem_syncReadFile hcontent⟩
    rw [basename_of_not_mem (FileTree.proper_entry hname).2.2]
    exact hcontent

/-- The archive gives the names of files with their directory, the file system without: so the
    directory is the root. There it lists subdirectories, which cannot be read. -/
theorem root_of_agree (hd : tree.resolve directory = some d) (h : Agree tree directory d)
    (hne : tree.entries d ≠ []) :
    directory = [] ∧ ∀ sub ∈ tree.dirs, sub ≠ [] → sub.dropLast ≠ [] := by
  obtain ⟨names, hnames, hsame, -, hread⟩ := h
  obtain rfl := Option.some.inj ((fileSystem_syncListFiles hd).symm.trans hnames)
  obtain ⟨n, hn⟩ := List.exists_mem_of_ne_nil _ hne
  have hslash := (FileTree.proper_entry hn).2.2
  obtain ⟨⟨n', heq, -⟩, hroot⟩ := listed hd ((hsame n).mpr hn)
  obtain rfl : d = [] := by
    by_contra hdne
    rw [heq, join_concat n' hdne] at hslash
    simp at hslash
  refine ⟨hroot rfl, fun sub hsub hsubne hparent => ?_⟩
  obtain ⟨s, rfl⟩ : ∃ s, sub = [s] := by
    have hsplit := List.dropLast_concat_getLast hsubne
    rw [hparent, List.nil_append] at hsplit
    exact ⟨_, hsplit.symm⟩
  have hs : s ∈ tree.entries [] := FileTree.mem_entries.mpr (FileTree.mem_paths_of_dir hsub)
  obtain ⟨content, hfile, -⟩ := hread s hs
  rw [basename_of_not_mem (FileTree.proper_entry hs).2.2] at hfile
  exact tree.apart _ hsub (List.mem_map_of_mem hfile)

/-- **The loaders agree** on the root, spelled as the empty text, if it has no subdirectory, and
    on directories with nothing in them. -/
theorem lists_agree_iff (hd : tree.resolve directory = some d) : Agree tree directory d ↔
    (directory = [] ∧ ∀ sub ∈ tree.dirs, sub ≠ [] → sub.dropLast ≠ []) ∨ tree.entries d = [] := by
  constructor
  · intro h
    by_cases hempty : tree.entries d = []
    · exact .inr hempty
    · exact .inl (root_of_agree hd h hempty)
  · rintro (⟨rfl, hflat⟩ | hempty)
    · obtain rfl : [] = d := Option.some.inj hd
      exact agree_root hflat
    · exact agree_of_empty hd hempty

/-- A plugin with its module only -/
def flat : FileTree Nat where
  files  := [(["bot.py".toList], 1)]
  dirs   := [[]]
  nodup  := by decide
  apart  := by decide
  proper := by unfold Proper; decide
  root   := by decide
  closed := by decide

/-- and on one without subdirectories. -/
theorem agree_flat : Agree flat [] [] :=
  (lists_agree_iff rfl).mpr (.inl ⟨rfl, by decide⟩)

/-- A plugin with a module in a package -/
def nested : FileTree Nat where
  files  := [(["bot".toList, "help.md".toList], 1)]
  dirs   := [[], ["bot".toList]]
  nodup  := by decide
  apart  := by decide
  proper := by unfold Proper; decide
  root   := by decide
  closed := by decide

/-- The archive lists `bot/help.md`, the file system `help.md`. -/
theorem not_agree_nested : ¬ ∀ (tree : FileTree Nat) (directory : Text) (d : Path),
    tree.resolve directory = some d → Agree tree directory d := by
  intro h
  obtain ⟨names, hnames, hsame, -⟩ := h nested "bot".toList ["bot".toList] (by decide)
  have hfs : FileSystem.syncListFiles nested "bot".toList = some ["help.md".toList] := by decide
  obtain rfl := Option.some.inj (hfs.symm.trans hnames)
  have hzipped := (hsame "help.md".toList).mpr List.mem_cons_self
  exact absurd hzipped (by decide)

end Maubot.FileLists
