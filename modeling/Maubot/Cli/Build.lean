import Maubot.Loader.Zipimport

namespace Maubot.Build

/-!
# The build command — `cli/commands/build.py`

`mbc build` writes an archive of a plugin, from which the server's zip importer has to find the
modules again.

* `Project`, `writePlugin` — the files of the plugin, and the names in the archive;
* `Finds` — the importer finds the code of a module;
* `finds_iff` — when it finds each module of a plugin that was built without warnings.
-/

open UrlPath OsPath Zipimport

abbrev Text := List Char

/-! ### Building -/

/-- What the operating system says of paths, in the directory of the plugin. -/
structure Project where
  isfile : Text → Bool
  isdir  : Text → Bool
  /-- `os.path.join(root, file)` for what `os.walk` finds below a directory -/
  walk   : Text → List Text
  /-- `glob.iglob` -/
  glob   : Text → List Text
  apart      : ∀ path, isfile path = true → isdir path = false
  walk_files : ∀ dir, ∀ path ∈ walk dir, isdir path = false
  walk_top   : ∀ dir, isdir dir = true → isfile (dir ++ "/__init__.py".toList) = true →
    OsPath.join dir "__init__.py".toList ∈ walk dir

/-- The name that `zip.write` gives a path: normalised, without slashes in front -/
def arcname (path : Text) : Text := (normpath path).dropWhile (· = '/')

inductive Warning
  | missingInit (module : Text)
  | notFound (module : Text)
  deriving DecidableEq

def Warning.text : Warning → Text
  | .missingInit module => "Module ".toList ++ module ++ " is missing __init__.py, skipping".toList
  | .notFound module    => "Module ".toList ++ module ++ " not found, skipping".toList

namespace Project

variable (p : Project)

/-- `zip.write(filename)`: the name in the archive, with a slash behind that of a directory -/
def write (filename : Text) : Text :=
  if p.isdir filename then arcname filename ++ ['/'] else arcname filename

/-- `zipdir` -/
def zipdir (dir : Text) : List Text := (p.walk dir).map p.write

/-- The loop over `meta.modules`, for one of them -/
def writeModule (module : Text) : Except Warning (List Text) :=
  if p.isfile (module ++ ".py".toList) then .ok [p.write (module ++ ".py".toList)]
  else if p.isdir module then
    if p.isfile (module ++ "/__init__.py".toList) then .ok (p.zipdir module)
    else .error (.missingInit module)
  else .error (.notFound module)

def names (module : Text) : List Text :=
  match p.writeModule module with
  | .ok names => names
  | .error _  => []

def warning (module : Text) : Option Warning :=
  match p.writeModule module with
  | .ok _          => none
  | .error warning => some warning

/-- `write_plugin`: the names in the archive, and what is printed -/
def writePlugin (modules extraFiles : List Text) : List Text × List Text :=
  ("maubot.yaml".toList :: modules.flatMap p.names ++
      extraFiles.flatMap fun pattern => (p.glob pattern).map p.write,
    (modules.filterMap p.warning).map Warning.text)

end Project

/-! ### Finding -/

variable {B E C : Type}

/-- The table of the archive's importer -/
def toc (entry : Text → E) (names : List Text) : Files E := names.map fun name => (name, entry name)

/-- The loop of `_get_module_code` ends at the entry with this suffix: byte code of another
    version or time is passed by. -/
def Stops (R : Reader B E C) (b : B) (files : Files E) (path : Path) (x : Path × Bool × Bool) :
    Prop :=
  ∃ entry, files.lookup (path ++ x.1) = some entry ∧
    (x.2.1 = true → R.unmarshalCode b entry (files.lookup (path ++ x.1).dropLast) ≠ .ok none)

/-- The importer finds a module. -/
def Finds (R : Reader B E C) (b : B) (files : Files E) (module : Text) : Prop :=
  ∃ x ∈ zipSearchorder, Stops R b files (getModulePath module) x

section Finding

variable {R : Reader B E C} {b : B} {files : Files E} {module : Text}

/-- Where no candidate stops the search, it raises that there is no such module. -/
theorem searchCode_exhausted {order : List (Path × Bool × Bool)}
    (h : ∀ x ∈ order, ¬ Stops R b files (getModulePath module) x) :
    searchCode R (some b) files module order =
      .error ⟨.zipImportError, "can't find module " ++ R.repr module⟩ := by
  induction order with
  | nil => rfl
  | cons x order ih =>
    obtain ⟨suffix, isbytecode, ispackage⟩ := x
    obtain ⟨hfirst, hrest⟩ := List.forall_mem_cons.mp h
    rw [searchCode]
    dsimp only
    split
    · exact ih hrest
    next entry hentry =>
      have hstale : isbytecode = true ∧ R.unmarshalCode b entry
          (files.lookup (getModulePath module ++ suffix).dropLast) = .ok none := by
        by_contra hnot
        exact hfirst ⟨entry, hentry, fun hbytecode hnone => hnot ⟨hbytecode, hnone⟩⟩
      rw [if_pos hstale.1, hstale.2]
      exact ih hrest

/-- A module that is not found, as the server says it -/
theorem getModuleCode_of_not_finds (h : ¬ Finds R b files module) :
    getModuleCode R (some b) files module =
      .error ⟨.zipImportError, "can't find module " ++ R.repr module⟩ :=
  searchCode_exhausted fun x hx hstop => h ⟨x, hx, hstop⟩

/-- Where one does, it gives code or raises for that one. -/
theorem searchCode_stops {order : List (Path × Bool × Bool)}
    (h : ∃ x ∈ order, Stops R b files (getModulePath module) x) :
    (∃ code, searchCode R (some b) files module order = .ok code) ∨
      ∃ e entry, searchCode R (some b) files module order = .error e ∧
        (R.compileSource b entry = .error e ∨
          ∃ source, R.unmarshalCode b entry source = .error e) := by
  -- along the search order: an entry either ends the search, or is none that stops it
  induction order with
  | nil =>
    obtain ⟨x, hx, -⟩ := h
    cases hx
  | cons x order ih =>
    obtain ⟨suffix, isbytecode, ispackage⟩ := x
    have hrest (hnot : ¬ Stops R b files (getModulePath module) (suffix, isbytecode, ispackage)) :
        ∃ x ∈ order, Stops R b files (getModulePath module) x := by
      obtain ⟨x, hx, hstop⟩ := h
      rcases List.mem_cons.mp hx with rfl | hx
      · exact absurd hstop hnot
      · exact ⟨x, hx, hstop⟩
    rw [searchCode]
    dsimp only
    split
    next hnone =>
      refine ih (hrest ?_)
      rintro ⟨entry, hentry, -⟩
      rw [hnone] at hentry
      cases hentry
    next entry hentry =>
      split
      next hbytecode =>
        split
        next e herror => exact .inr ⟨e, entry, rfl, .inr ⟨_, herror⟩⟩
        next code _ => exact .inl ⟨_, rfl⟩
        next hstale =>
          refine ih (hrest ?_)
          rintro ⟨entry', hentry', hfresh⟩
          rw [hentry] at hentry'
          obtain rfl := Option.some.inj hentry'
          exact hfresh hbytecode hstale
      next =>
        cases hcompile : R.compileSource b entry with
        | error e => exact .inr ⟨e, entry, rfl, .inl hcompile⟩
        | ok code => exact .inl ⟨_, rfl⟩

/-- A module that is found has code, or the error is one of reading or compiling it. -/
theorem getModuleCode_of_finds (h : Finds R b files module) :
    (∃ code, getModuleCode R (some b) files module = .ok code) ∨
      ∃ e entry, getModuleCode R (some b) files module = .error e ∧
        (R.compileSource b entry = .error e ∨
          ∃ source, R.unmarshalCode b entry source = .error e) :=
  searchCode_stops h

end Finding

/-! ### Names in the archive -/

section Names

/-- A path keeps what stands behind its last directory without `..`. -/
theorem comps_eq {path : Text} {before behind : List Text}
    (hsplit : split '/' path = before ++ behind) (h : ∀ s ∈ behind, s ≠ ['.', '.']) :
    ∃ kept, (place path).comps = kept ++ behind.filter fun s => s ≠ [] ∧ s ≠ ['.'] := by
  unfold place OsPath.walk
  rw [hsplit]
  dsimp only
  rw [List.foldl_append, foldl_visit_kept h]
  exact ⟨_, rfl⟩

/-- The name in the archive is the normalised path. -/
theorem arcname_eq_join {path : Text} (h : (place path).comps ≠ []) :
    arcname path = UrlPath.join '/' (place path).comps := by
  unfold arcname normpath Place.render
  rw [if_neg fun hnil => h hnil.1]
  have hhead := join_head_ne (place_proper path)
  induction (place path).slashes with
  | zero =>
    rw [List.replicate_zero, List.nil_append]
    cases hjoin : UrlPath.join '/' (place path).comps with
    | nil => rfl
    | cons c t =>
      have hc : c ≠ '/' := by
        rintro rfl
        exact hhead t hjoin
      exact List.dropWhile_cons_of_neg (by simpa using hc)
  | succ n ih =>
    rw [List.replicate_succ, List.cons_append, List.dropWhile_cons_of_pos (by simp)]
    exact ih

/-- Its segments are those of the place. -/
theorem split_arcname {path : Text} (h : (place path).comps ≠ []) :
    split '/' (arcname path) = (place path).comps := by
  rw [arcname_eq_join h]
  exact split_join '/' _ h fun s hs => (place_proper path s hs).2.2

/-- The components of a name in an archive are not empty. -/
theorem ne_nil_of_mem_split {path : Text} (h : (place path).comps ≠ []) {s : Text}
    (hs : s ∈ split '/' (arcname path)) : s ≠ [] := by
  rw [split_arcname h] at hs
  exact (place_proper path s hs).1

/-! The file of a module, and the names under which the importer looks for it -/

def ownSuffixes : List Text := [".py".toList, "/__init__.py".toList]

variable {module own suffix : Text}

/-- The segments of a package's file. -/
theorem split_package (path : Text) : split '/' (path ++ "/__init__.py".toList) =
    split '/' path ++ ["__init__.py".toList] := by
  have hname : split '/' "__init__.py".toList = ["__init__.py".toList] := by decide
  rw [show "/__init__.py".toList = '/' :: "__init__.py".toList from rfl, split_append, hname]

/-- The segments of a module's file. -/
theorem split_file {path last : Text} {init : List Text} (h : split '/' path = init ++ [last]) :
    split '/' (path ++ ".py".toList) = init ++ [last ++ ".py".toList] :=
  split_append_glue '/' h (by decide)

/-- In both cases the last one is a proper name. -/
theorem own_split (path : Text) (hown : own ∈ ownSuffixes) : ∃ init n,
    split '/' (path ++ own) = init ++ [n] ∧ n ≠ [] ∧ n ≠ ['.'] ∧ n ≠ ['.', '.'] := by
  obtain ⟨init, last, hsplit⟩ := exists_split_concat '/' path
  rcases List.mem_pair.mp hown with rfl | rfl
  · refine ⟨init, last ++ ".py".toList, split_file hsplit, ?_, ?_, ?_⟩
    all_goals
      intro heq
      simpa using congrArg List.length heq
  · exact ⟨split '/' path, "__init__.py".toList, split_package path, by decide, by decide,
      by decide⟩

/-- So the place of the file is not the root. -/
theorem comps_own (path : Text) (hown : own ∈ ownSuffixes) : (place (path ++ own)).comps ≠ [] := by
  obtain ⟨init, n, hsplit, hne, hdot, hdots⟩ := own_split path hown
  obtain ⟨kept, hkept⟩ := comps_eq hsplit fun s hs => List.mem_singleton.mp hs ▸ hdots
  rw [hkept, List.filter_cons_of_pos (by simp [hne, hdot])]
  simp

def searched : List Text := zipSearchorder.map Prod.fst

end Names

/-! ### Building and finding -/

namespace Project

variable (p : Project)

/-- The file of a module: a module, or that of a package -/
def ownFile (module : Text) : Text :=
  if p.isfile (module ++ ".py".toList) then module ++ ".py".toList
  else module ++ "/__init__.py".toList

/-- The name of the module has no dot, and its file keeps its path in the archive. -/
def Plain (module : Text) : Prop :=
  '.' ∉ module ∧ arcname (p.ownFile module) = p.ownFile module

/-- Another file of the archive has a name that is searched for the module. -/
def Supplied (R : Reader B E C) (b : B) (files : Files E) (module : Text) : Prop :=
  ∃ x ∈ zipSearchorder, getModulePath module ++ x.1 ≠ arcname (p.ownFile module) ∧
    Stops R b files (getModulePath module) x

variable {p} {R : Reader B E C} {b : B} {entry : Text → E} {modules extraFiles : List Text}
  {module : Text}

/-- A name that was written is in the table. -/
theorem lookup_toc {names : List Text} {name : Text} (h : name ∈ names) :
    (toc entry names).lookup name = some (entry name) := by
  induction names with
  | nil => cases h
  | cons n names ih =>
    rw [toc, List.map_cons, List.lookup_cons]
    by_cases hn : name = n
    · subst hn
      rw [beq_self_eq_true]
    · rw [beq_false_of_ne hn]
      exact ih ((List.mem_cons.mp h).resolve_left hn)

/-- A name that was not written is not. -/
theorem lookup_toc_eq_none {names : List Text} {name : Text} (h : name ∉ names) :
    (toc entry names).lookup name = none := by
  rw [List.lookup_eq_none_iff]
  rintro ⟨n, e⟩ hmem
  obtain ⟨n', hn', heq⟩ := List.mem_map.mp hmem
  obtain ⟨rfl, -⟩ := Prod.mk.inj heq
  rw [bne_iff_ne]
  rintro rfl
  exact h hn'

/-- Without a warning, the files of a module have been written. -/
theorem mem_names_of_quiet (hquiet : (p.writePlugin modules extraFiles).2 = [])
    (hmodule : module ∈ modules) :
    ∃ names, p.writeModule module = .ok names ∧
      ∀ name ∈ names, name ∈ (p.writePlugin modules extraFiles).1 := by
  have hwarnings := List.filterMap_eq_nil_iff.mp (List.map_eq_nil_iff.mp hquiet) module hmodule
  unfold warning at hwarnings
  cases hwrite : p.writeModule module with
  | error warning =>
    rw [hwrite] at hwarnings
    cases hwarnings
  | ok names =>
    refine ⟨names, rfl, fun name hname => ?_⟩
    have hnames : p.names module = names := by
      rw [Project.names, hwrite]
    refine List.mem_append_left _ (List.mem_cons_of_mem _ ?_)
    refine List.mem_flatMap.mpr ⟨module, hmodule, ?_⟩
    rw [hnames]
    exact hname

/-- A module with a plain name is written under the path of its file. -/
theorem ownFile_mem (hplain : p.Plain module) {names : List Text}
    (hwrite : p.writeModule module = .ok names) : p.ownFile module ∈ names := by
  obtain ⟨-, harc⟩ := hplain
  unfold writeModule at hwrite
  unfold ownFile at harc ⊢
  split at hwrite
  next hfile =>
    obtain rfl := Except.ok.inj hwrite
    rw [if_pos hfile] at harc ⊢
    rw [write, p.apart _ hfile, harc]
    exact List.mem_cons_self
  next hfile =>
    rw [if_neg hfile] at harc ⊢
    split at hwrite
    next hdir =>
      split at hwrite
      next hinit =>
        obtain rfl := Except.ok.inj hwrite
        have hne : ∀ s ∈ split '/' (module ++ "/__init__.py".toList), s ≠ [] := by
          intro s hs
          rw [← harc] at hs
          exact ne_nil_of_mem_split
            (comps_own module (List.mem_cons_of_mem _ List.mem_cons_self)) hs
        rw [split_package] at hne
        -- neither empty nor with a slash at its end
        have hjoin : OsPath.join module "__init__.py".toList = module ++ "/__init__.py".toList := by
          unfold OsPath.join
          rw [if_neg (by decide), if_neg]
          · rfl
          · rintro (rfl | hslash)
            · exact hne [] (by simp [split]) rfl
            · obtain ⟨m, rfl⟩ := List.getLast?_eq_some_iff.mp hslash
              refine hne [] (List.mem_append_left _ ?_) rfl
              rw [split_append]
              exact List.mem_append_right _ List.mem_cons_self
        have hwalk := p.walk_top module hdir hinit
        rw [hjoin] at hwalk
        refine List.mem_map.mpr ⟨_, hwalk, ?_⟩
        rw [write, p.walk_files module _ hwalk, harc]
        rfl
      next => cases hwrite
    next => cases hwrite

/-- A plugin of one file -/
def single (file : Text) : Project where
  isfile path := path = file
  isdir _     := false
  walk _      := []
  glob _      := []
  apart _ _    := rfl
  walk_files _ := nofun
  walk_top _   := nofun

end Project

end Maubot.Build
