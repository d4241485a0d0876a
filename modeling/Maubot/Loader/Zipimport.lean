import Maubot.Errors
import Maubot.Lib.OsPath
import Maubot.Lib.Prog

namespace Maubot

/-!
# The zip importer — `lib/zipimport.py`

A copy of Python's `zipimport` with a cache of the directories that were read, one for each
archive, which the loaders of plugins reset and clear.

* `Reader` — what stands in an archive, and the compiler;
* `Archives` — the files, and the cache;
* `getModuleCode` — the code of a module, by the table of an importer and the bytes of now.
-/

namespace Zipimport

open UrlPath (split)

abbrev Path := List Char

/-- `_files`: the names in an archive, each with its entry.  A name stands in it once. -/
abbrev Files (E : Type) := List (Path × E)

/-- How an archive `B` is read: entries `E` of its directory, and code objects `C`. -/
structure Reader (B E C : Type) where
  /-- `_read_directory`, from the bytes of the archive -/
  readDirectory : B → Except PyExc (Files E)
  /-- `_get_data` and `_compile_source` -/
  compileSource : B → E → Except PyExc C
  /-- `_get_data` and `_unmarshal_code`, with the entry of the source if there is one; `none`
      for byte code of another version or time -/
  unmarshalCode : B → E → Option E → Except PyExc (Option C)
  coNames       : C → List String
  /-- `repr` of a text, as the errors have it -/
  repr          : Path → String

/-- What importers work on: the files, by their absolute paths, and the cache. -/
structure Archives (B E : Type) where
  files          : Path → Option B
  /-- `_zip_directory_cache` -/
  directoryCache : Path → Option (Files E)

/-- `zipimporter`, for an archive that is a file. -/
structure Importer (E : Type) where
  archive : Path
  files   : Files E
  deriving DecidableEq, Repr

variable {B E C : Type}

/-- `os.path.abspath` -/
def abspath (cwd path : Path) : Path := OsPath.normpath (OsPath.join cwd path)

/-- `_read_directory(archive)`, with the opening of the file -/
def readDirectory (R : Reader B E C) (archive : Path) (bytes : Option B) :
    Except PyExc (Files E) :=
  match bytes with
  | none   => .error ⟨.zipImportError, "can't open Zip file: " ++ R.repr archive⟩
  | some b => R.readDirectory b

/-- A path is made absolute once. -/
theorem abspath_abspath {cwd : Path} (h : OsPath.Absolute cwd) (path : Path) :
    abspath cwd (abspath cwd path) = abspath cwd path := by
  have habs : OsPath.Absolute (abspath cwd path) :=
    OsPath.absolute_normpath (OsPath.absolute_join h)
  rw [show abspath cwd (abspath cwd path) = OsPath.normpath (abspath cwd path) by
    unfold abspath at habs ⊢
    rw [OsPath.join_absolute habs]]
  exact (OsPath.normpath_eq_iff _ _).mpr (OsPath.place_normpath (OsPath.absolute_join h))

/-! ### Modules -/

/-- `fullname.rpartition(".")[2]`, without the directory inside the archive, which is empty -/
def getModulePath (fullname : Path) : Path := ((split '.' fullname).getLast?).getD []

/-- The suffix, whether it is byte code, and whether it is a package. -/
def zipSearchorder : List (Path × Bool × Bool) :=
  [("/__init__.pyc".toList, true, true), ("/__init__.py".toList, false, true),
    (".pyc".toList, true, false), (".py".toList, false, false)]

/-- `_get_module_info` -/
def getModuleInfo (files : Files E) (fullname : Path) : Option Bool :=
  (zipSearchorder.find? fun x => (files.lookup (getModulePath fullname ++ x.1)).isSome).map
    fun x => x.2.2

/-- The loop of `_get_module_code`; `bytes` is the file at the archive's path. -/
def searchCode (R : Reader B E C) (bytes : Option B) (files : Files E) (fullname : Path) :
    List (Path × Bool × Bool) → Except PyExc (C × Bool)
  | []                                       =>
    .error ⟨.zipImportError, "can't find module " ++ R.repr fullname⟩
  | (suffix, isbytecode, ispackage) :: order =>
    let fullpath := getModulePath fullname ++ suffix
    match files.lookup fullpath with
    | none          => searchCode R bytes files fullname order
    | some tocEntry =>
      match bytes with
      | none   => .error ⟨.fileNotFoundError, ""⟩
      | some b =>
        if isbytecode then
          match R.unmarshalCode b tocEntry (files.lookup fullpath.dropLast) with
          | .error e        => .error e
          | .ok (some code) => .ok (code, ispackage)
          | .ok none        => searchCode R bytes files fullname order
        else (R.compileSource b tocEntry).map fun code => (code, ispackage)

/-- `_get_module_code` -/
def getModuleCode (R : Reader B E C) (bytes : Option B) (files : Files E) (fullname : Path) :
    Except PyExc (C × Bool) :=
  searchCode R bytes files fullname zipSearchorder

/-- `find_module`, which returns `None` for a module that is not there -/
def findModule (files : Files E) (fullname : Path) : Except PyExc Bool :=
  .ok (getModuleInfo files fullname).isSome

end Zipimport

end Maubot
