import Maubot.Loader.Meta
import Maubot.Loader.Zipimport
import Maubot.Lib.Store

namespace Maubot

/-!
# Zipped plugins — `loader/zip.py`

A `ZippedPluginLoader` stands for one archive in a plugin directory.  Two class-level caches
find it by the id of its plugin and by its path.

* `Platform` — how archives are read, and what the code in them does when it is imported;
* `construct`, `getLoader` — `__init__` and `get`;
* `load`, `reload`, `delete`, `trash` — the other methods.
-/

open Prog

namespace ZipLoader

open Zipimport UrlPath

/-- What `sys.modules[main_module]` and `getattr(main_mod, main_class)` find. -/
inductive MainClass
  | noModule
  | noClass
  /-- something that is not a class: `issubclass` raises -/
  | noType
  /-- a class, and whether it extends `Plugin` -/
  | type (cls : Ref) (plugin : Bool)
  deriving DecidableEq, Repr

/-- The libraries that read the definition of a plugin, and the interpreter: `Y` are the values
    of YAML, `M` is `sys.modules` with all that the imported code has done. -/
structure Platform (B E C Y M : Type) extends Reader B E C where
  /-- the working directory -/
  cwd            : Path
  cwd_absolute   : OsPath.Absolute cwd
  /-- `ZipFile(source)` and `file.read("maubot.yaml")` -/
  readDefinition : B → Except PyExc B
  /-- `yaml.load` -/
  yamlLoad       : B → Except PyExc Y
  /-- `PluginMeta.deserialize` -/
  deserialize    : Y → Except PyExc PluginMeta
  /-- `meta.maubot > current_version` -/
  newer          : Version → Bool
  /-- `load_module` of a module whose code was found, with the path of the archive -/
  loadModule     : C → Bool → Path → String → Prog M PyExc Unit
  mainClass      : M → String → String → MainClass
  /-- the modules in `sys.modules` without those whose file name starts with the path -/
  unloadModules  : Path → M → M

/-- A `ZippedPluginLoader`. -/
structure Loader (B E : Type) where
  path        : Option Path
  pluginMeta  : Option PluginMeta := none
  mainClass   : Option String := none
  mainModule  : Option String := none
  loaded      : Option Ref := none
  importer    : Option (Importer E) := none
  file        : Option B := none
  /-- not in the source: whether `__init__` has returned -/
  constructed : Bool := false

/-- Code that was read while a loader was constructed or reloaded: the archive, the table of the
    importer, and the bytes that were there. -/
structure CodeRead (B E : Type) where
  archive : Path
  files   : Files E
  bytes   : Option B
  deriving DecidableEq, Repr

structure Loaders (B E M : Type) extends Archives B E where
  loaders   : Store (Loader B E)
  idCache   : String → Option Ref := fun _ => none
  pathCache : Path → Option Ref := fun _ => none
  modules   : M
  /-- not in the source -/
  reads     : List (CodeRead B E) := []

variable {B E C Y M : Type}

/-- A method of a loader. -/
abbrev Method (B E M α : Type) := Prog (Loaders B E M) PyExc α

variable (P : Platform B E C Y M)

def setLoader (self : Ref) (f : Loader B E → Loader B E) : Method B E M Unit :=
  modify fun s => { s with loaders := s.loaders.modify self f }

/-- The bytes at a path, as the code that opens it finds them. -/
def Loaders.bytesAt (s : Loaders B E M) (path : Path) : Option B := s.files (abspath P.cwd path)

/-! ### Metadata -/

/-- The `except` clauses around the reading of the archive. -/
def archiveError (e : PyExc) : PyExc :=
  match e.cls with
  | .fileNotFoundError => ⟨.maubotZipMetaError, "Maubot plugin not found"⟩
  | .badZipFile        => ⟨.maubotZipMetaError, "File is not a maubot plugin"⟩
  | .keyError          =>
    ⟨.maubotZipMetaError, "File does not contain a maubot plugin definition"⟩
  | _                  => e

def yamlError (e : PyExc) : PyExc :=
  if e.isInvalidYaml then
    ⟨.maubotZipMetaError, "Maubot plugin definition file is not valid YAML"⟩
  else e

def definitionError (e : PyExc) : PyExc :=
  if e.isA .serializerError then
    ⟨.maubotZipMetaError, "Maubot plugin definition in file is invalid"⟩
  else e

/-- `_read_meta`, with the version of this program in the last message left out -/
def readMeta (source : Except PyExc B) : Except PyExc (B × PluginMeta) := do
  let file ← source.mapError archiveError
  let data ← (P.readDefinition file).mapError archiveError
  let metaDict ← (P.yamlLoad data).mapError yamlError
  let m ← (P.deserialize metaDict).mapError definitionError
  if P.newer m.maubot then
    throw ⟨.maubotZipMetaError, s!"Plugin requires maubot {m.maubot.str}"⟩
  pure (file, m)

/-- `verify_meta` of an upload -/
def verifyMeta (source : B) : Except PyExc (String × Version × Option DatabaseType) := do
  let (_, m) ← readMeta P (.ok source)
  pure (m.id, m.version, if m.database then some m.databaseType else none)

/-- What `ZipFile(self.path)` opens; `None` has no `seek`. -/
def openPath (s : Loaders B E M) (path : Option Path) : Except PyExc B :=
  match path with
  | none   => .error ⟨.attributeError, "'NoneType' object has no attribute 'seek'"⟩
  | some p =>
    match s.bytesAt P p with
    | none   => .error ⟨.fileNotFoundError, ""⟩
    | some b => .ok b

/-- The main module and class that the metadata name. -/
def mainOf (m : PluginMeta) : Except PyExc (String × String) :=
  match split '/' m.mainClass.toList with
  | module :: cls :: _ => .ok (String.ofList module, String.ofList cls)
  | _                  =>
    match m.modules.getLast? with
    | none        => .error ⟨.indexError, "list index out of range"⟩
    | some module => .ok (module, m.mainClass)

/-- `_load_meta` -/
def loadMeta (self : Ref) : Method B E M Unit := do
  let s ← get
  let l := s.loaders.get self
  let (file, m) ← outcome (readMeta P (openPath P s l.path))
  when (∃ old, l.pluginMeta = some old ∧ m.id ≠ old.id) <|
    throw ⟨.maubotZipMetaError, "Maubot plugin ID changed during reload"⟩
  setLoader self fun l => { l with pluginMeta := some m }
  let (module, cls) ← outcome (mainOf m)
  setLoader self fun l =>
    { l with mainModule := some module, mainClass := some cls, file := some file }

/-! ### The importer -/

/-- `zipimporter(path)`; where there is no file, it finds a directory further up -/
def zipimporter (path : Path) : Method B E M (Importer E) := do
  let s ← get
  match s.bytesAt P path with
  | none   => throw ⟨.zipImportError, "not a Zip file"⟩
  | some b =>
    match s.directoryCache path with
    | some files => pure ⟨path, files⟩
    | none       =>
      let files ← outcome (P.readDirectory b)
      modify fun s =>
        { s with directoryCache := Function.update s.directoryCache path (some files) }
      pure ⟨path, files⟩

/-- `self._importer.reset_cache()` -/
def resetCache (self : Ref) (importer : Importer E) : Method B E M (Importer E) := do
  let s ← get
  let bytes := s.bytesAt P importer.archive
  let files ← outcome (Zipimport.readDirectory P.toReader importer.archive bytes)
  let importer := { importer with files := files }
  setLoader self fun l => { l with importer := some importer }
  modify fun s =>
    { s with directoryCache := Function.update s.directoryCache importer.archive (some files) }
  pure importer

/-- `importer.remove_cache()` -/
def removeCache (importer : Importer E) : Method B E M Unit :=
  modify fun s =>
    { s with directoryCache := Function.update s.directoryCache importer.archive none }

/-- The importer of the path, made where there is none. -/
def ownImporter (self : Ref) : Method B E M (Importer E) := do
  let s ← get
  let l := s.loaders.get self
  match l.importer with
  | some importer => if some importer.archive = l.path then pure importer else make l
  | none          => make l
where
  make (l : Loader B E) : Method B E M (Importer E) := do
    let importer ← zipimporter P (l.path.getD [])
    setLoader self fun l => { l with importer := some importer }
    pure importer

/-- `except cls as e: raise replacement from e` -/
def except {α : Type} (p : PyExc → Bool) (m : Method B E M α) (handler : Method B E M α) :
    Method B E M α := do
  match ← attempt p m with
  | .ok a    => pure a
  | .error _ => handler

/-- `_get_importer` -/
def getImporter (self : Ref) (reset : Bool) : Method B E M (Importer E) :=
  except (PyExc.isA .zipImportError)
    (do
      let importer ← ownImporter P self
      if reset then resetCache P self importer else pure importer)
    (throw ⟨.maubotZipMetaError, "File not found or not a maubot plugin"⟩)

/-! ### Loading -/

/-- Code is read through the importer; `record` while a loader is constructed or reloaded. -/
def readCode (record : Bool) (importer : Importer E) (fullname : Path) :
    Method B E M (C × Bool) := do
  let s ← get
  let bytes := s.bytesAt P importer.archive
  when (record = true) <|
    modify fun s => { s with reads := s.reads ++ [⟨importer.archive, importer.files, bytes⟩] }
  outcome (getModuleCode P.toReader bytes importer.files fullname)

/-- `remove_cache()` and an exception -/
def abandon {α : Type} (importer : Importer E) (e : PyExc) : Method B E M α := do
  removeCache importer
  throw e

/-- What the metadata say, for a loader that has them; an present of `None` otherwise. -/
def present {α : Type} (x : Option α) : Method B E M α :=
  match x with
  | none   => throw ⟨.attributeError, "'NoneType' object has no attribute"⟩
  | some a => pure a

/-- `_run_preload_checks` -/
def runPreloadChecks (record : Bool) (self : Ref) (importer : Importer E) :
    Method B E M Unit := do
  let s ← get
  let l := s.loaders.get self
  let mainModule ← present l.mainModule
  let mainClass := l.mainClass.getD "None"
  let path := mainModule.toList.map fun c => if c = '.' then '/' else c
  let code ← except (PyExc.isA .zipImportError) (readCode P record importer path)
    (abandon importer ⟨.maubotZipPreLoadError, s!"Main module {mainModule} not found in file"⟩)
  when (mainClass ∉ P.coNames code.1) <|
    abandon importer ⟨.maubotZipPreLoadError, s!"Main class {mainClass} not in {mainModule}"⟩
  let m ← present l.pluginMeta
  m.modules.forM fun module => do
    let _ ← except (PyExc.isA .zipImportError)
      (outcome (findModule importer.files module.toList))
      (abandon importer ⟨.maubotZipPreLoadError, s!"Module {module} not found in file"⟩)

/-- `importer.load_module(module)`, with the `except` clauses around it -/
def loadModule (record : Bool) (importer : Importer E) (module : String) :
    Method B E M Unit := do
  match ← attempt PyExc.isException (do
      let (code, ispackage) ← readCode P record importer module.toList
      zoom (fun s => s.modules) (fun ms s => { s with modules := ms })
        (P.loadModule code ispackage importer.archive module)) with
  | .ok ()   => pure ()
  | .error e =>
    abandon importer <|
      if e.isA .zipImportError then ⟨.maubotZipLoadError, s!"Module {module} not found in file"⟩
      else ⟨.maubotZipLoadError, s!"Failed to load module {module}"⟩

/-- The class in the main module. -/
def findClass (importer : Importer E) (module cls : String) : Method B E M Ref := do
  let s ← get
  match P.mainClass s.modules module cls with
  | .noModule       =>
    abandon importer ⟨.maubotZipLoadError, s!"Main module {module} of plugin not found"⟩
  | .noClass        =>
    abandon importer ⟨.maubotZipLoadError, s!"Main class {cls} of plugin not found"⟩
  | .noType         => throw ⟨.typeError, "issubclass() arg 1 must be a class"⟩
  | .type _ false   =>
    abandon importer ⟨.maubotZipLoadError, "Main class of plugin does not extend maubot.Plugin"⟩
  | .type plugin true => pure plugin

/-- `_load`, from where the class is not there yet -/
def loadClass (self : Ref) (reset : Bool) : Method B E M Ref := do
  loadMeta P self
  let importer ← getImporter P self reset
  runPreloadChecks P reset self importer
  let s ← get
  let l := s.loaders.get self
  let m ← present l.pluginMeta
  m.modules.forM (loadModule P reset importer)
  let plugin ← findClass P importer (l.mainModule.getD "") (l.mainClass.getD "")
  setLoader self fun l => { l with loaded := some plugin }
  pure plugin

/-- `load` and `_load`; the handler in `load` only logs. -/
def load (self : Ref) (reset : Bool) : Method B E M Ref := do
  let s ← get
  match (s.loaders.get self).loaded with
  | some plugin => if reset then loadClass P self reset else pure plugin
  | none        => loadClass P self reset

/-- `_unload`; its log line reads `self.meta.id`. -/
def unload (self : Ref) : Method B E M Unit := do
  let s ← get
  let l := s.loaders.get self
  match l.path with
  | none      => throw ⟨.typeError, "startswith first arg must be str or a tuple of str"⟩
  | some path =>
    modify fun s => { s with modules := P.unloadModules path s.modules }
    setLoader self fun l => { l with loaded := none }
    let _ ← present l.pluginMeta

/-! ### The caches -/

/-- The new path of `reload` -/
def move (self : Ref) (newPath : Path) : Method B E M Unit := do
  let s ← get
  let path := (s.loaders.get self).path
  when (path ≠ some newPath) do
    modify fun s =>
      { s with pathCache := match path with
          | none      => s.pathCache
          | some path => Function.update s.pathCache path none }
    setLoader self fun l => { l with path := some newPath }
    modify fun s => { s with pathCache := Function.update s.pathCache newPath (some self) }

/-- `reload` -/
def reload (self : Ref) (newPath : Option Path) : Method B E M Ref := do
  unload P self
  match newPath with
  | none         => pure ()
  | some newPath => move self newPath
  load P self true

/-- `__init__`, up to the registration -/
def preload (self : Ref) : Method B E M Unit := do
  loadMeta P self
  let importer ← getImporter P self false
  runPreloadChecks P true self importer

/-- The `source` of a loader, as an f-string has it -/
def source (l : Loader B E) : String := (l.path.map String.ofList).getD "None"

/-- The last lines of `__init__` -/
def register (self : Ref) (path : Path) : Method B E M Unit := do
  let s ← get
  let m ← present (s.loaders.get self).pluginMeta
  match s.idCache m.id with
  | some existing =>
    throw ⟨.idConflictError,
      s!"Plugin with id {m.id} already loaded from {source (s.loaders.get existing)}"⟩
  | none          =>
    setLoader self fun l => { l with constructed := true }
    modify fun s =>
      { s with pathCache := Function.update s.pathCache path (some self),
               idCache   := Function.update s.idCache m.id (some self) }

/-- `ZippedPluginLoader(path)` -/
def construct (path : Path) : Method B E M Ref := do
  let s ← get
  let self := s.loaders.next
  modify fun s => { s with loaders := s.loaders.alloc { path := some path } }
  preload P self
  register self path
  pure self

/-- `get` -/
def getLoader (path : Path) : Method B E M Ref := do
  let s ← get
  match s.pathCache (abspath P.cwd path) with
  | some l => pure l
  | none   => construct P (abspath P.cwd path)

/-- `trash`; `raised` is what removing the file raises, other than that there is none.  The
    directory for trash is not one in which plugins are. -/
def trash (path : Path) (raised : Option PyExc) : Method B E M Unit := do
  raiseIf raised
  modify fun s => { s with files := Function.update s.files (abspath P.cwd path) none }

/-- `delete` -/
def delete (self : Ref) (raised : Option PyExc) : Method B E M Unit := do
  unload P self
  let s ← get
  let l := s.loaders.get self
  let path ← present l.path
  modify fun s => { s with pathCache := Function.update s.pathCache path none }
  let m ← present l.pluginMeta
  modify fun s => { s with idCache := Function.update s.idCache m.id none }
  match l.importer with
  | none          => pure ()
  | some importer =>
    removeCache importer
    setLoader self fun l => { l with importer := none }
  setLoader self fun l => { l with loaded := none }
  trash P path raised
  setLoader self fun l => { l with pluginMeta := none, path := none }

/-! ### Frames of the control structures -/

section Frames

variable {α : Type} {F : Frame (Loaders B E M)}

/-- A handler keeps what the program and it keep. -/
theorem keeps_except {p : PyExc → Bool}
    {m handler : Method B E M α} (hm : Keeps F m) (hh : Keeps F handler) :
    Keeps F (except p m handler) := by
  refine keeps_bind (keeps_attempt hm p) fun r => ?_
  cases r with
  | ok a => exact keeps_pure a
  | error e => exact hh

/-- A value that is there or not keeps everything. -/
theorem keeps_present (x : Option α) :
    Keeps F (present x : Method B E M α) := by
  cases x with
  | none => exact keeps_throw _
  | some a => exact keeps_pure a

end Frames

/-! ### A platform -/

namespace ZipTest

/-- Archives that are their own definitions. -/
def platform : Platform PluginMeta Unit PluginMeta PluginMeta Unit where
  readDirectory b := .ok (b.modules.map fun m => (m.toList ++ ".py".toList, ()))
  compileSource b _ := .ok b
  unmarshalCode _ _ _ := .ok none
  coNames c := [c.mainClass]
  repr path := s!"'{String.ofList path}'"
  cwd := "/".toList
  cwd_absolute := rfl
  readDefinition b := .ok b
  yamlLoad b := .ok b
  deserialize b := .ok b
  newer _ := false
  loadModule _ _ _ _ := pure ()
  mainClass _ _ _ := .type 0 true
  unloadModules _ m := m

def echo : PluginMeta := ⟨"echo", ⟨"1"⟩, ["echo"], "Echo", ⟨"0.5"⟩, false, .sqlalchemy, false⟩
def dice : PluginMeta := ⟨"dice", ⟨"1"⟩, ["dice"], "Dice", ⟨"0.5"⟩, false, .sqlalchemy, false⟩

end ZipTest

end ZipLoader

end Maubot
