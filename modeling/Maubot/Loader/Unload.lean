import Maubot.Loader.Reload

namespace Maubot

/-!
# Zipped plugins — the modules of other plugins

`sys.modules` is one table for the whole process.  `_unload` takes out of it what it finds by
the name of the file: the modules whose `__file__` starts, as a text, with the path of the
archive.

* `SysModules`, `loadZipped` — the table, and `zipimporter.load_module` on it;
* `Foreign` — the entries that belong to other plugins;
* `foreign_intact` — the runs in which they stay, and what a deleted plugin leaves.
-/

open Prog

namespace ZipLoader

open Zipimport UrlPath

/-! ### `sys.modules` -/

/-- What stands in `sys.modules`. -/
structure ModuleObject where
  isModule : Bool
  /-- `__file__`, if there is one -/
  file     : Option Path

structure SysModules (X : Type) where
  table     : String → Option Ref
  objects   : Store ModuleObject
  allocated : ∀ name r, table name = some r → r < objects.next
  /-- all else that the imported code has done -/
  rest      : X

namespace SysModules

variable {X : Type}

/-- `sys.modules[name] = _module_type(name)` -/
def newModule (name : String) (s : SysModules X) : SysModules X where
  table           := Function.update s.table name (some s.objects.next)
  objects         := s.objects.alloc ⟨true, none⟩
  rest            := s.rest
  allocated n r h := by
    rcases of_update_eq_some h with ⟨-, hr⟩ | ⟨-, hr⟩
    · rw [← Option.some.inj hr]
      exact Nat.lt_succ_self _
    · exact Nat.lt_succ_of_lt (s.allocated n r hr)

def setFile (mod : Ref) (file : Path) (s : SysModules X) : SysModules X where
  table     := s.table
  objects   := s.objects.modify mod fun o => { o with file := some file }
  rest      := s.rest
  allocated := s.allocated

/-- `del sys.modules[name]` -/
def remove (name : String) (s : SysModules X) : SysModules X where
  table           := Function.update s.table name none
  objects         := s.objects
  rest            := s.rest
  allocated n r h := by
    rcases of_update_eq_some h with ⟨-, hr⟩ | ⟨-, hr⟩
    · cases hr
    · exact s.allocated n r hr

/-- The loop of `_unload` -/
def unload (path : Path) (s : SysModules X) : SysModules X where
  table name      := (s.table name).filter fun r =>
    !path.isPrefixOf ((s.objects.get r).file.getD [])
  objects         := s.objects
  rest            := s.rest
  allocated n r h := s.allocated n r (Option.filter_eq_some_iff.mp h).1

end SysModules

/-! ### Importing -/

/-- The interpreter that runs the code `C` of plugins. -/
structure Interpreter (C X : Type) where
  /-- the name, in its archive, of the entry that the code was read from -/
  entryName : C → Path
  /-- `exec(code, mod.__dict__)` -/
  run       : C → Ref → Prog (SysModules X) PyExc Unit
  /-- what `getattr(main_mod, main_class)` finds -/
  getattr   : SysModules X → Ref → String → MainClass
  /-- `repr` of a text, as the error has it -/
  repr      : String → String

variable {B E C Y X : Type}

/-- `sys.modules.get(fullname)`, or a new module where there is none -/
def moduleFor (fullname : String) : Prog (SysModules X) PyExc Ref := do
  let s ← get
  match (s.table fullname).filter fun r => (s.objects.get r).isModule with
  | some r => pure r
  | none   =>
    modify (SysModules.newModule fullname)
    pure s.objects.next

/-- `load_module`, once the code was found: `toc_entry[0]` is the name below the archive. -/
def loadZipped (I : Interpreter C X) (code : C) (_ispackage : Bool) (archive : Path)
    (fullname : String) : Prog (SysModules X) PyExc Unit := do
  let mod ← moduleFor fullname
  modify (SysModules.setFile mod (archive ++ '/' :: I.entryName code))
  match ← attempt (fun _ => true) (I.run code mod) with
  | .ok _    =>
    let s ← get
    when (s.table fullname = none) <|
      throw ⟨.importError, "Loaded module " ++ I.repr fullname ++ " not found in sys.modules"⟩
  | .error e =>
    let s ← get
    when (s.table fullname = none) <| throw ⟨.keyError, fullname⟩
    modify (SysModules.remove fullname)
    throw e

/-- The platform on which the plugins of a process are imported. -/
def interpreted (P : Platform B E C Y Unit) (I : Interpreter C X) :
    Platform B E C Y (SysModules X) :=
  { P with
    loadModule    := loadZipped I
    mainClass     := fun s module cls =>
      match s.table module with
      | none   => .noModule
      | some r => I.getattr s r cls
    unloadModules := SysModules.unload }

/-! ### Entries -/

/-- A name in `sys.modules`, its module, and the file that this is from. -/
def Entry (s : SysModules X) (name : String) (r : Ref) (file : Path) : Prop :=
  s.table name = some r ∧ (s.objects.get r).file = some file

/-- The entry belongs to a plugin with one of these archives. -/
def Foreign (archives : Path → Prop) (s : SysModules X) (name : String) (r : Ref) (file : Path) :
    Prop :=
  Entry s name r file ∧ ∃ archive, archives archive ∧ Inside '/' archive file

variable {s : SysModules X} {name n : String} {r mod : Ref} {file f path : Path}

/-- A new module leaves the entries of other names. -/
theorem Entry.newModule (h : Entry s n r f) (hn : n ≠ name) : Entry (s.newModule name) n r f := by
  refine ⟨?_, ?_⟩
  · show Function.update s.table name (some s.objects.next) n = some r
    rw [Function.update_of_ne hn]
    exact h.1
  · show ((s.objects.alloc ⟨true, none⟩).get r).file = some f
    rw [Store.get_alloc_of_lt _ _ (s.allocated n r h.1)]
    exact h.2

/-- A file that is set is that of one module. -/
theorem Entry.setFile (h : Entry s n r f) (hr : r ≠ mod) : Entry (s.setFile mod file) n r f := by
  refine ⟨h.1, ?_⟩
  show ((s.objects.modify mod fun o => { o with file := some file }).get r).file = some f
  rw [Store.get_modify_ne _ _ hr]
  exact h.2

/-- A name that is removed is one entry. -/
theorem Entry.remove (h : Entry s n r f) (hn : n ≠ name) : Entry (s.remove name) n r f :=
  ⟨(Function.update_of_ne hn _ _).trans h.1, h.2⟩

/-- **What `_unload` takes out**: the entries whose file starts with the path. -/
theorem entry_unload_iff : Entry (s.unload path) n r f ↔ Entry s n r f ∧ ¬ path <+: f := by
  have hfile : ∀ o : Option Path, o = some f →
      ((!path.isPrefixOf (o.getD [])) = true ↔ ¬ path <+: f) := by
    rintro o rfl
    rw [Bool.not_eq_true', Option.getD_some, ← List.isPrefixOf_iff_prefix, Bool.not_eq_true]
  unfold Entry SysModules.unload
  dsimp only
  rw [Option.filter_eq_some_iff]
  constructor
  · rintro ⟨⟨htable, hkeep⟩, hf⟩
    exact ⟨⟨htable, hf⟩, (hfile _ hf).mp hkeep⟩
  · rintro ⟨⟨htable, hf⟩, hpath⟩
    exact ⟨⟨htable, (hfile _ hf).mpr hpath⟩, hf⟩

/-- The files of an archive start with no path that the archive's own path does not start with,
    unless it is inside the archive. -/
theorem not_isPrefix_of_inside {archive : Path} (hf : Inside '/' archive f)
    (hpath : ¬ path <+: archive) (hin : ¬ Inside '/' archive path) : ¬ path <+: f := by
  intro h
  rcases List.prefix_or_prefix_of_prefix h hf with hp | hp
  · rcases List.prefix_concat_iff.mp hp with rfl | hp
    · exact hin (List.prefix_refl _)
    · exact hpath hp
  · exact hin hp

/-! ### Loading one module -/

/-- The code of plugins leaves the modules of other plugins alone: it takes none of them out of
    the table, and puts none of them in under another name. -/
structure Considerate (I : Interpreter C X) (archives : Path → Prop) : Prop where
  keeps : ∀ code mod s n r f, Foreign archives s n r f →
    Entry ((I.run code mod).exec s).2 n r f
  names : ∀ code mod s n r f n', Foreign archives s n r f →
    ((I.run code mod).exec s).2.table n' = some r → s.table n' = some r

/-- The given entries are there, and their modules under no other names. -/
structure Intact (entries : String → Ref → Path → Prop) (s : SysModules X) : Prop where
  entry : ∀ n r f, entries n r f → Entry s n r f
  names : ∀ n r f n', entries n r f → s.table n' = some r → entries n' r f

section Loading

variable {archives : Path → Prop} {entries : String → Ref → Path → Prop} {I : Interpreter C X}

def intact (entries : String → Ref → Path → Prop) : Frame (SysModules X) := .ofInv (Intact entries)

/-- What is foreign is intact at first. -/
theorem intact_foreign (s : SysModules X) : Intact (Foreign archives s) s where
  entry _ _ _ h        := h.1
  names _ _ _ _ h htab := ⟨⟨htab, h.1.2⟩, h.2⟩

/-- A new module under a name of its own leaves it intact, -/
theorem Intact.newModule (h : Intact entries s) (hname : ∀ r f, ¬ entries name r f) :
    Intact entries (s.newModule name) := by
  refine ⟨fun n r f he => ?_, fun n r f n' he htab => ?_⟩
  · refine (h.entry n r f he).newModule ?_
    rintro rfl
    exact hname r f he
  · rcases of_update_eq_some htab with ⟨-, hr⟩ | ⟨-, hr⟩
    -- the new module is none of the old ones
    · have hlt := s.allocated n r (h.entry n r f he).1
      rw [← Option.some.inj hr] at hlt
      exact absurd hlt (Nat.lt_irrefl _)
    · exact h.names n r f n' he hr

/-- and so does its file, -/
theorem Intact.setFile (h : Intact entries s) (hmod : ∀ n f, ¬ entries n mod f) :
    Intact entries (s.setFile mod file) := by
  refine ⟨fun n r f he => (h.entry n r f he).setFile ?_, h.names⟩
  rintro rfl
  exact hmod n f he

/-- a name that is removed, -/
theorem Intact.remove (h : Intact entries s) (hname : ∀ r f, ¬ entries name r f) :
    Intact entries (s.remove name) := by
  refine ⟨fun n r f he => (h.entry n r f he).remove ?_, fun n r f n' he htab => ?_⟩
  · rintro rfl
    exact hname r f he
  · rcases of_update_eq_some htab with ⟨-, hr⟩ | ⟨-, hr⟩
    · cases hr
    · exact h.names n r f n' he hr

/-- and an unload of another path. -/
theorem Intact.unload (h : Intact entries s) (hpath : ∀ n r f, entries n r f → ¬ path <+: f) :
    Intact entries (s.unload path) where
  entry n r f he         := entry_unload_iff.mpr ⟨h.entry n r f he, hpath n r f he⟩
  names n r f n' he htab := h.names n r f n' he (Option.filter_eq_some_iff.mp htab).1

/-- Code is run. -/
theorem intact_run (hI : Considerate I archives)
    (hfor : ∀ n r f, entries n r f → ∃ archive, archives archive ∧ Inside '/' archive f)
    (code : C) (mod : Ref) : Keeps (intact entries) (I.run code mod) := by
  intro s h
  have hforeign : ∀ n r f, entries n r f → Foreign archives s n r f := fun n r f he =>
    ⟨h.entry n r f he, hfor n r f he⟩
  refine ⟨fun n r f he => hI.keeps code mod s n r f (hforeign n r f he),
    fun n r f n' he htab => h.names n r f n' he ?_⟩
  exact hI.names code mod s n r f n' (hforeign n r f he) htab

/-- The module that a name stands for is new, or one that is not among the entries. -/
theorem exec_moduleFor (h : Intact entries s) (hname : ∀ r f, ¬ entries name r f) :
    ∃ mod s', (moduleFor name).exec s = (.ok mod, s') ∧ Intact entries s' ∧
      ∀ n f, ¬ entries n mod f := by
  unfold moduleFor
  rw [exec_get_bind]
  cases hmod : (s.table name).filter fun r => (s.objects.get r).isModule with
  | some r =>
    refine ⟨r, s, rfl, h, fun n f he => ?_⟩
    exact hname r f (h.names n r f name he (Option.filter_eq_some_iff.mp hmod).1)
  | none =>
    refine ⟨s.objects.next, s.newModule name, rfl, h.newModule hname, fun n f he => ?_⟩
    exact absurd (s.allocated n _ (h.entry n _ f he).1) (Nat.lt_irrefl _)

/-- **One module.**  Loading it under a name that is not among the entries keeps them. -/
theorem intact_loadZipped (hI : Considerate I archives)
    (hfor : ∀ n r f, entries n r f → ∃ archive, archives archive ∧ Inside '/' archive f)
    (hname : ∀ r f, ¬ entries name r f) (code : C) (ispackage : Bool) (archive : Path) :
    Keeps (intact entries) (loadZipped I code ispackage archive name) := by
  intro s h
  obtain ⟨mod, s', hrun, h', hmod⟩ := exec_moduleFor h hname
  unfold loadZipped
  rw [exec_bind_ok hrun, exec_modify_bind]
  refine keeps_bind (keeps_attempt (intact_run hI hfor code mod) _) (fun r => ?_) _
    (h'.setFile hmod)
  cases r with
  | ok _    => exact keeps_bind keeps_get fun _ => keeps_when (keeps_throw _)
  | error e =>
    exact keeps_bind keeps_get fun _ => keeps_bind (keeps_when (keeps_throw _)) fun _ =>
      keeps_bind (keeps_modify fun s hs => hs.remove hname) fun _ => keeps_throw e

end Loading

/-! ### The methods of a loader -/

section Methods

variable {P : Platform B E C Y Unit} {I : Interpreter C X} {self : Ref}
  {archives : Path → Prop} {entries : String → Ref → Path → Prop} {s t : Loaders B E (SysModules X)}

/-- The archive at the path names the module in its metadata. -/
def Declared {M : Type} (Q : Platform B E C Y M) (s : Loaders B E M) (path : Path) (n : String) :
    Prop :=
  ∃ b file m, s.bytesAt Q path = some b ∧ readMeta Q (.ok b) = .ok (file, m) ∧ n ∈ m.modules

/-- What an archive declares is seen from the files. -/
theorem Declared.congr {M : Type} {Q : Platform B E C Y M} {s t : Loaders B E M} {path : Path}
    {n : String} (h : Declared Q t path n) (hfiles : t.files = s.files) :
    Declared Q s path n := by
  obtain ⟨b, file, m, hb, hread, hn⟩ := h
  refine ⟨b, file, m, ?_, hread, hn⟩
  unfold Loaders.bytesAt at hb ⊢
  rw [← hfiles]
  exact hb

/-- Nothing is imported, and nothing unloaded. -/
def imports {M : Type} : Frame (Loaders B E M) := .ofView fun s => s.modules

/-- Metadata are read without an import. -/
theorem imports_loadMeta {M : Type} (Q : Platform B E C Y M) (self : Ref) :
    Keeps imports (loadMeta Q self) :=
  keeps_bind keeps_get fun _ => keeps_bind (keeps_outcome _) fun _ =>
    keeps_bind (keeps_when (keeps_throw _)) fun _ => keeps_bind (fun _ => rfl) fun _ =>
    keeps_bind (keeps_outcome _) fun _ _ => rfl

/-- The entries are there, and the loader has these metadata. -/
def guarded (entries : String → Ref → Path → Prop) (self : Ref) (m : PluginMeta) :
    Frame (Loaders B E (SysModules X)) :=
  .ofInv fun s => Intact entries s.modules ∧ (s.loaders.get self).pluginMeta = some m

/-- So each part of a load is guarded. -/
theorem guarded_admits (m : PluginMeta) :
    Admits (guarded entries self m : Frame (Loaders B E (SysModules X))) self where
  cache _ _ h         := h
  set f _ _ hmeta s h := ⟨h.1,
    (Store.view_modify s.loaders self f Loader.pluginMeta hmeta self).trans h.2⟩

/-- Code that is read imports nothing yet. -/
theorem guarded_readCode (m : PluginMeta) {record : Bool} (importer : Importer E) (name : Path) :
    Keeps (guarded entries self m) (readCode (interpreted P I) record importer name) :=
  keeps_bind keeps_get fun _ =>
    keeps_bind (keeps_when (keeps_modify fun _ h => h)) fun _ => keeps_outcome _

/-- Where a program returns what the state has, the rest may use it. -/
theorem exec_present_bind {M α β : Type} {o : Option α} {a : α} (h : o = some a)
    (f : α → Method B E M β) (s : Loaders B E M) :
    (present o >>= f).exec s = (f a).exec s := by
  rw [h]
  rfl

/-- An import of the archive's own modules leaves foreign entries intact, if the interpreter is
    considerate, -/
theorem intact_importClass (hI : Considerate I archives)
    (hfor : ∀ n r f, entries n r f → ∃ archive, archives archive ∧ Inside '/' archive f)
    {m : PluginMeta} (hnames : ∀ n ∈ m.modules, ∀ r f, ¬ entries n r f) (reset : Bool) :
    Keeps (guarded entries self m) (importClass (interpreted P I) self reset) := by
  have hadmits : Admits (guarded entries self m : Frame (Loaders B E (SysModules X))) self :=
    guarded_admits m
  refine keeps_bind (hadmits.getImporter reset) fun i =>
    keeps_bind (hadmits.runPreloadChecks fun name => guarded_readCode m i name) fun _ =>
    keeps_get_bind fun s h => ?_
  dsimp only
  rw [exec_present_bind h.2]
  have hmodules : Keeps (guarded entries self m)
      (m.modules.forM (loadModule (interpreted P I) reset i)) :=
    keeps_forM fun n hn => hadmits.loadModule (guarded_readCode m i _) fun code ispackage _ hs =>
      ⟨intact_loadZipped hI hfor (hnames n hn) code ispackage i.archive _ hs.1, hs.2⟩
  have hclass : ∀ module cls, Keeps (guarded entries self m)
      (do
        let plugin ← findClass (interpreted P I) i module cls
        setLoader self fun l => { l with loaded := some plugin }
        pure plugin) := fun module cls =>
    keeps_bind (hadmits.findClass i module cls) fun _ =>
      keeps_bind (hadmits.set _ (fun _ => rfl) (fun _ => rfl) fun _ => rfl) fun _ => keeps_pure _
  exact keeps_bind hmodules (fun _ => hclass _ _) s h

/-- and so does the load of the class. -/
theorem intact_loadClass (hI : Considerate I archives)
    (hfor : ∀ n r f, entries n r f → ∃ archive, archives archive ∧ Inside '/' archive f)
    (h : Intact entries s.modules) (hnames : ∀ p n, (s.loaders.get self).path = some p →
      Declared (interpreted P I) s p n → ∀ r f, ¬ entries n r f) (reset : Bool) :
    Intact entries ((loadClass (interpreted P I) self reset).exec s).2.modules := by
  show Intact entries
    ((loadMeta (interpreted P I) self >>= fun _ =>
      importClass (interpreted P I) self reset).exec s).2.modules
  rcases hrun : (loadMeta (interpreted P I) self).exec s with ⟨e | _, t⟩
  · rw [exec_bind_error hrun]
    have hkept : t.modules = s.modules := by
      have hload := imports_loadMeta (interpreted P I) self s
      rw [hrun] at hload
      exact hload
    rw [hkept]
    exact h
  · rw [exec_bind_ok hrun]
    obtain ⟨p, b, m, x, hp, hb, hread, -, rfl⟩ := exec_loadMeta_ok hrun
    have hdeclared : ∀ n ∈ m.modules, ∀ r f, ¬ entries n r f := fun n hn =>
      hnames p n hp ⟨b, b, m, hb, hread, hn⟩
    have himport : Keeps (guarded entries self m) (importClass (interpreted P I) self reset) :=
      intact_importClass hI hfor hdeclared reset
    refine (himport { s with loaders := s.loaders.modify self fun l => withMeta l m x b } ?_).1
    exact ⟨h, by simp only [Store.get_modify_self, withMeta]⟩

/-- An unload removes what was loaded from the path. -/
theorem modules_unload (s : Loaders B E (SysModules X)) :
    ((unload (interpreted P I) self).exec s).2.modules = match (s.loaders.get self).path with
      | none   => s.modules
      | some q => s.modules.unload q := by
  unfold unload
  rw [exec_get_bind]
  dsimp only
  cases hp : (s.loaders.get self).path with
  | none => rfl
  | some q =>
    simp only [exec_modify_bind, setLoader]
    cases (s.loaders.get self).pluginMeta <;> rfl

/-- A loader that moves changes its path and no module. -/
theorem exec_move (self : Ref) (q : Path) (s : Loaders B E (SysModules X)) :
    ∃ t, (move self q).exec s = (.ok (), t) ∧ t.modules = s.modules ∧ t.files = s.files ∧
      (t.loaders.get self).path = some q := by
  unfold move
  rw [exec_get_bind]
  dsimp only
  unfold when
  split
  · refine ⟨_, rfl, rfl, rfl, ?_⟩
    simp only [Store.get_modify_self]
  · next h => exact ⟨s, rfl, rfl, rfl, not_not.mp h⟩

/-- Hence `load` leaves foreign entries intact, also after a move. -/
theorem intact_load (hI : Considerate I archives)
    (hfor : ∀ n r f, entries n r f → ∃ archive, archives archive ∧ Inside '/' archive f)
    (h : Intact entries s.modules) (hnames : ∀ p n, (s.loaders.get self).path = some p →
      Declared (interpreted P I) s p n → ∀ r f, ¬ entries n r f) :
    Intact entries ((load (interpreted P I) self true).exec s).2.modules := by
  unfold load
  rw [exec_get_bind]
  split
  · exact intact_loadClass hI hfor h hnames true
  · exact intact_loadClass hI hfor h hnames true

/-- `_unload` leaves what the path does not start, however it ends. -/
theorem intact_unload (h : Intact entries s.modules)
    (hpath : ∀ q, (s.loaders.get self).path = some q → ∀ n r f, entries n r f → ¬ q <+: f) :
    Intact entries ((unload (interpreted P I) self).exec s).2.modules := by
  rw [modules_unload]
  cases hp : (s.loaders.get self).path with
  | none => exact h
  | some q => exact h.unload (hpath q hp)

/-- **`reload`** keeps the entries that the old path does not start, where the archive at the
    new one names none of them. -/
theorem intact_reload (hI : Considerate I archives)
    (hfor : ∀ n r f, entries n r f → ∃ archive, archives archive ∧ Inside '/' archive f)
    (h : Intact entries s.modules)
    (hpath : ∀ q, (s.loaders.get self).path = some q → ∀ n r f, entries n r f → ¬ q <+: f)
    {newPath : Option Path} (hnames : ∀ p n, newPath.or (s.loaders.get self).path = some p →
      Declared (interpreted P I) s p n → ∀ r f, ¬ entries n r f) :
    Intact entries ((reload (interpreted P I) self newPath).exec s).2.modules := by
  -- first the old modules go, then the new ones come under names that nobody has
  have hunload := intact_unload (P := P) (I := I) h hpath
  unfold reload
  rcases hrun : (unload (interpreted P I) self).exec s with ⟨e | _, t⟩
  · rw [hrun] at hunload
    rw [exec_bind_error hrun]
    exact hunload
  · rw [hrun] at hunload
    rw [exec_bind_ok hrun]
    have hloads : Loads self s t := by
      rcases exec_unload (P := interpreted P I) self s with ⟨q, -, -, -, he⟩ | ⟨e, s', he, -⟩
      · rw [hrun] at he
        rw [(Prod.mk.inj he).2]
        exact (bare_unloaded self q s).toLoads
      · rw [hrun] at he
        cases he
    cases newPath with
    | none =>
      refine intact_load hI hfor hunload fun p n hp hn => hnames p n ?_ (hn.congr hloads.files)
      exact hloads.path.symm.trans hp
    | some q =>
      obtain ⟨t', hmove, hmodules, hfiles, hq⟩ := exec_move self q t
      show Intact entries
        ((move self q >>= fun _ => load (interpreted P I) self true).exec t).2.modules
      rw [exec_bind_ok hmove]
      have hmoved : Intact entries t'.modules := by
        rw [hmodules]
        exact hunload
      refine intact_load hI hfor hmoved fun p n hp hn => hnames p n ?_ ?_
      · rw [Option.some_or, ← hq]
        exact hp
      · exact hn.congr (hfiles.trans hloads.files)

/-- **`delete`** imports nothing: it takes out what the path starts, however it ends. -/
theorem modules_delete (raised : Option PyExc) (s : Loaders B E (SysModules X)) :
    ((delete (interpreted P I) self raised).exec s).2.modules =
      ((unload (interpreted P I) self).exec s).2.modules := by
  have hset : ∀ f, Keeps imports (setLoader self f : Method B E (SysModules X) Unit) :=
    fun _ _ => rfl
  have hend : ∀ (f g : Loader B E → Loader B E) (path : Path), Keeps imports (do
      setLoader self f
      trash (interpreted P I) path raised
      setLoader self g : Method B E (SysModules X) Unit) := fun f g path =>
    keeps_bind (hset f) fun _ => keeps_bind
      (keeps_bind (keeps_raiseIf _) fun _ => keeps_modify fun _ => rfl) fun _ => hset g
  refine rel_bind (F := imports) (fun _ => ?_) s
  refine keeps_bind keeps_get fun t => keeps_bind (keeps_present _) fun path =>
    keeps_bind (keeps_modify fun _ => rfl) fun _ => keeps_bind (keeps_present _) fun _ =>
    keeps_bind (keeps_modify fun _ => rfl) fun _ => ?_
  dsimp only
  split
  · exact hend _ _ path
  · exact keeps_bind (keeps_modify fun _ => rfl) fun _ => keeps_bind (hset _) fun _ => hend _ _ path

/-- No module from the archive is left. -/
theorem entry_delete {q : Path} (hq : (s.loaders.get self).path = some q) (raised : Option PyExc)
    (n : String) (r : Ref) (f : Path)
    (h : Entry ((delete (interpreted P I) self raised).exec s).2.modules n r f) :
    ¬ Inside '/' q f := by
  rw [modules_delete, modules_unload, hq] at h
  intro hin
  exact (entry_unload_iff.mp h).2 ((List.prefix_append q ['/']).trans hin)

/-- A `delete` that returned leaves a loader without a path. -/
theorem path_delete {raised : Option PyExc}
    (h : (delete (interpreted P I) self raised).exec s = (.ok (), t)) :
    (t.loaders.get self).path = none := by
  unfold delete at h
  obtain ⟨_, t₁, -, h⟩ := exec_bind_eq_ok h
  obtain ⟨_, t₂, -, h⟩ := exec_bind_eq_ok h
  obtain ⟨_, t₃, -, h⟩ := exec_bind_eq_ok h
  obtain ⟨_, t₄, -, h⟩ := exec_bind_eq_ok h
  obtain ⟨_, t₅, -, h⟩ := exec_bind_eq_ok h
  have hend : ∀ {m : Method B E (SysModules X) Unit} {u : Loaders B E (SysModules X)},
      (m >>= fun _ => setLoader self fun l => { l with pluginMeta := none, path := none }).exec u =
        (.ok (), t) → (t.loaders.get self).path = none := by
    intro m u hm
    obtain ⟨_, u', -, hm⟩ := exec_bind_eq_ok hm
    cases hm
    simp only [Store.get_modify_self]
  dsimp only at h
  split at h
  · obtain ⟨_, t₆, -, h⟩ := exec_bind_eq_ok h
    exact hend h
  · obtain ⟨_, t₆, -, h⟩ := exec_bind_eq_ok h
    obtain ⟨_, t₇, -, h⟩ := exec_bind_eq_ok h
    obtain ⟨_, t₈, -, h⟩ := exec_bind_eq_ok h
    exact hend h

/-- A loader without a path can do nothing any more. -/
theorem exec_unload_deleted (h : (s.loaders.get self).path = none) : ∃ e,
    (unload (interpreted P I) self).exec s = (.error e, s) := by
  unfold unload
  rw [exec_get_bind]
  dsimp only
  rw [h]
  exact ⟨_, rfl⟩

end Methods

/-! ### Runs -/

section Runs

variable {M : Type}

/-- The archives of the other loaded plugins. -/
def others (s : Loaders B E M) (self : Ref) (archive : Path) : Prop :=
  ∃ k, k ≠ self ∧ (s.loaders.get k).constructed = true ∧ (s.loaders.get k).path = some archive

/-- A call of `reload` or `delete` on the one loader, or a change of a file. -/
def Own (self : Ref) (op : Op B) : Prop :=
  match op with
  | .get _      => False
  | .reload l _ => l = self
  | .delete l _ => l = self
  | .write _ _  => True

/-- The archive that is loaded names no module of the entries. -/
def Disjoint (Q : Platform B E C Y M) (entries : String → Ref → Path → Prop)
    (s : Loaders B E M) (op : Op B) : Prop :=
  match op with
  | .reload l newPath => ∀ p n, newPath.or (s.loaders.get l).path = some p →
    Declared Q s p n → ∀ r f, ¬ entries n r f
  | _                 => True

/-- The path of the loader, as a text, starts the file of none of the entries. -/
def Clear (entries : String → Ref → Path → Prop) (s : Loaders B E M) (op : Op B) : Prop :=
  match op with
  | .reload l _ => ∀ q, (s.loaders.get l).path = some q → ∀ n r f, entries n r f → ¬ q <+: f
  | .delete l _ => ∀ q, (s.loaders.get l).path = some q → ∀ n r f, entries n r f → ¬ q <+: f
  | _           => True

/-- So it is where the path starts no path of another archive. -/
theorem clear_of_apart {archives : Path → Prop} {t : SysModules X} {s : Loaders B E M}
    (h : ∀ l q a, (s.loaders.get l).path = some q → archives a → ¬ q <+: a ∧ ¬ Inside '/' a q)
    (op : Op B) : Clear (Foreign archives t) s op := by
  have hfile : ∀ l q, (s.loaders.get l).path = some q → ∀ n r f,
      Foreign archives t n r f → ¬ q <+: f := by
    rintro l q hq n r f ⟨-, a, ha, hin⟩
    exact not_isPrefix_of_inside hin (h l q a hq ha).1 (h l q a hq ha).2
  cases op with
  | get _      => trivial
  | reload l _ => exact hfile l
  | delete l _ => exact hfile l
  | write _ _  => trivial

variable {P : Platform B E C Y Unit} {I : Interpreter C X} {self : Ref}
  {archives : Path → Prop} {entries : String → Ref → Path → Prop} {s t : Loaders B E (SysModules X)}

/-- **One call.** -/
theorem intact_step (hI : Considerate I archives)
    (hfor : ∀ n r f, entries n r f → ∃ archive, archives archive ∧ Inside '/' archive f)
    (h : Intact entries s.modules) {op : Op B} (hown : Own self op)
    (hnames : Disjoint (interpreted P I) entries s op) (hclear : Clear entries s op) :
    Intact entries (step (interpreted P I) op s).modules := by
  cases op with
  | get path => exact hown.elim
  | reload l newPath =>
    unfold step
    dsimp only
    split
    · exact intact_reload hI hfor h hclear hnames
    · exact h
  | delete l raised =>
    unfold step
    dsimp only
    split
    · rw [modules_delete]
      exact intact_unload h hclear
    · exact h
  | write path bytes => exact h

/-- Of a deleted plugin nothing comes back. -/
theorem modules_deleted (h : (t.loaders.get self).path = none)
    (hreach : Reach (step (interpreted P I)) (fun _ op => Own self op) t s) :
    s.modules = t.modules := by
  have hinv : s.modules = t.modules ∧ (s.loaders.get self).path = none := by
    refine hreach.invariant (I := fun u => u.modules = t.modules ∧
      (u.loaders.get self).path = none) ⟨rfl, h⟩ fun u op hu hown => ?_
    -- `_unload` asks for the path of the loader, which is gone
    have hsame : ∀ {α : Type} (f : Unit → Method B E (SysModules X) α),
        ((unload (interpreted P I) self >>= f).exec u).2 = u := by
      intro α f
      obtain ⟨e, he⟩ := exec_unload_deleted (P := P) (I := I) hu.2
      rw [exec_bind_error he]
    cases op with
    | get path => exact hown.elim
    | reload l newPath =>
      obtain rfl : l = self := hown
      unfold step reload
      dsimp only
      rw [hsame, ite_self]
      exact hu
    | delete l raised =>
      obtain rfl : l = self := hown
      unfold step delete
      dsimp only
      rw [hsame, ite_self]
      exact hu
    | write path bytes => exact hu
  exact hinv.1

/-- **The modules of other plugins.**  In every run of `reload` and `delete` on one loader, and
    of changes of files: if the archives that it goes to name no module of another plugin, and
    its path never starts the file of one, the modules of the other plugins stay; and a
    `delete` leaves no module of the archive, for good if it returned. -/
theorem foreign_intact (P : Platform B E C Y Unit) (I : Interpreter C X)
    (s₀ : Loaders B E (SysModules X)) (self : Ref) (hI : Considerate I (others s₀ self))
    {s : Loaders B E (SysModules X)}
    (h : Reach (step (interpreted P I)) (fun s op => Own self op ∧
      Disjoint (interpreted P I) (Foreign (others s₀ self) s₀.modules) s op ∧
      Clear (Foreign (others s₀ self) s₀.modules) s op) s₀ s) :
    (∀ n r f, Foreign (others s₀ self) s₀.modules n r f → Entry s.modules n r f) ∧
    ∀ raised q, (s.loaders.get self).path = some q →
      let deleted := (delete (interpreted P I) self raised).exec s
      (∀ n r f, Entry deleted.2.modules n r f → ¬ Inside '/' q f) ∧
      (deleted.1 = .ok () → ∀ s',
        Reach (step (interpreted P I)) (fun _ op => Own self op) deleted.2 s' →
        ∀ n r f, Entry s'.modules n r f → ¬ Inside '/' q f) := by
  -- the entries of others are those of the start, whatever has been loaded since
  have hintact : Intact (Foreign (others s₀ self) s₀.modules) s.modules :=
    h.invariant (I := fun s => Intact (Foreign (others s₀ self) s₀.modules) s.modules)
      (intact_foreign _) fun s op hs hop =>
        intact_step hI (fun _ _ _ he => he.2) hs hop.1 hop.2.1 hop.2.2
  refine ⟨hintact.entry, fun raised q hq => ?_⟩
  intro deleted
  have hleft : ∀ n r f, Entry deleted.2.modules n r f → ¬ Inside '/' q f := entry_delete hq raised
  refine ⟨hleft, fun hok s' hreach n r f hentry => ?_⟩
  have hpath : (deleted.2.loaders.get self).path = none := path_delete (Prod.ext hok rfl)
  rw [modules_deleted hpath hreach] at hentry
  exact hleft n r f hentry

end Runs

namespace ZipTest

/-- Code that does nothing. -/
def interpreter : Interpreter PluginMeta Unit where
  entryName c   := (c.modules.headD "").toList ++ ".py".toList
  run _ _       := pure ()
  getattr _ _ _ := .type 0 true
  repr name     := s!"'{name}'"

/-- The interpreter of the witness is considerate. -/
theorem considerate (archives : Path → Prop) : Considerate interpreter archives where
  keeps _ _ _ _ _ _ h      := h.1
  names _ _ _ _ _ _ _ _ h  := h

def process : Platform PluginMeta Unit PluginMeta PluginMeta (SysModules Unit) :=
  interpreted platform interpreter

def loader (path : Path) (m : PluginMeta) (name : String) : Loader PluginMeta Unit where
  path        := some path
  pluginMeta  := some m
  mainModule  := some name
  mainClass   := some m.mainClass
  loaded      := some 0
  file        := some m
  constructed := true

/-- Two plugins are loaded, from archives at these paths. -/
def loaded (p q : Path) : Loaders PluginMeta Unit (SysModules Unit) where
  files path          := if path = p then some echo else if path = q then some dice else none
  directoryCache _    := none
  loaders             :=
    { get  := fun
        | 0 => loader p echo "echo"
        | 1 => loader q dice "dice"
        | _ => { path := none },
      next := 2 }
  modules             :=
    { table     := fun name =>
        if name = "echo" then some 0 else if name = "dice" then some 1 else none,
      objects   :=
        { get  := fun
            | 0 => ⟨true, some (p ++ "/echo.py".toList)⟩
            | _ => ⟨true, some (q ++ "/dice.py".toList)⟩,
          next := 2 },
      allocated := by
        intro name r h
        split at h
        · rw [← Option.some.inj h]
          exact Nat.zero_lt_two
        · split at h
          · rw [← Option.some.inj h]
            exact Nat.one_lt_two
          · cases h
      rest      := () }

/-- The other plugin has its one module. -/
theorem foreign_loaded {p q : Path} (h : ¬ Inside '/' q (p ++ "/echo.py".toList)) {n : String}
    {r : Ref} {f : Path} (hf : Foreign (others (loaded p q) 0) (loaded p q).modules n r f) :
    n = "dice" ∧ f = q ++ "/dice.py".toList := by
  obtain ⟨⟨htable, hfile⟩, a, ⟨k, hk, hcon, ha⟩, hin⟩ := hf
  have hq : a = q := by
    match k, hk, ha with
    | 1, _, ha => exact (Option.some.inj ha).symm
  subst hq
  by_cases hecho : n = "echo"
  · subst hecho
    obtain rfl : 0 = r := Option.some.inj htable
    exact absurd hin (by rw [← Option.some.inj hfile]; exact h)
  · by_cases hdice : n = "dice"
    · subst hdice
      obtain rfl : 1 = r := Option.some.inj htable
      exact ⟨rfl, (Option.some.inj hfile).symm⟩
    · have hnone : (loaded p a).modules.table n = none := by
        show (if n = "echo" then some 0 else if n = "dice" then some 1 else none) = none
        rw [if_neg hecho, if_neg hdice]
      rw [hnone] at htable
      cases htable

/-- The first plugin is reloaded and deleted, next to another one. -/
theorem foreign_intact_beside :
    let s := step process (.reload 0 none) (loaded "/e".toList "/d".toList)
    Entry s.modules "dice" 1 "/d/dice.py".toList ∧
      ∀ n r f, Entry ((delete process 0 none).exec s).2.modules n r f →
        ¬ Inside '/' "/e".toList f := by
  intro s
  have hforeign : ∀ n r f, Foreign (others (loaded "/e".toList "/d".toList) 0)
      (loaded "/e".toList "/d".toList).modules n r f → n = "dice" ∧ f = "/d/dice.py".toList :=
    fun n r f hf => foreign_loaded (by decide) hf
  -- the reload runs code of its own archive, under its own names
  have hreach : Reach (step process) (fun s op => Own 0 op ∧
      Disjoint process (Foreign (others (loaded "/e".toList "/d".toList) 0)
        (loaded "/e".toList "/d".toList).modules) s op ∧
      Clear (Foreign (others (loaded "/e".toList "/d".toList) 0)
        (loaded "/e".toList "/d".toList).modules) s op) (loaded "/e".toList "/d".toList) s := by
    refine Reach.start.step _ ⟨rfl, ?_, ?_⟩
    · rintro p n hp ⟨b, file, m, hb, hread, hn⟩ r f hf
      obtain rfl : "/e".toList = p := Option.some.inj hp
      have hecho : (loaded "/e".toList "/d".toList).bytesAt process "/e".toList = some echo := by
        decide
      obtain rfl : echo = b := Option.some.inj (hecho.symm.trans hb)
      cases hread
      obtain rfl := List.mem_singleton.mp hn
      exact absurd (hforeign _ r f hf).1 (by decide)
    · rintro q hq n r f hf
      obtain rfl : "/e".toList = q := Option.some.inj hq
      rw [(hforeign n r f hf).2]
      decide
  have hmodules := foreign_intact platform interpreter _ 0 (considerate _) hreach
  -- the other plugin's module is foreign to it
  have hdice : Foreign (others (loaded "/e".toList "/d".toList) 0)
      (loaded "/e".toList "/d".toList).modules "dice" 1 "/d/dice.py".toList :=
    ⟨⟨rfl, rfl⟩, "/d".toList, ⟨1, by decide, rfl, rfl⟩, by decide⟩
  have hpath : (s.loaders.get 0).path = some "/e".toList := by decide
  exact ⟨hmodules.1 _ _ _ hdice, (hmodules.2 none _ hpath).1⟩

/-- The name of one archive is that of the other with something at its end. -/
theorem not_foreign_intact :
    let p := "/echo.mbp".toList
    let q := "/echo.mbp.mbp".toList
    let entries := Foreign (others (loaded p q) 0) (loaded p q).modules
    p ≠ q ∧ Considerate interpreter (others (loaded p q) 0) ∧
      (∀ n r f, entries n r f → n ∉ echo.modules) ∧
      ¬ ∀ s, Reach (step process) (fun s op => Own 0 op ∧ Disjoint process entries s op)
        (loaded p q) s → ∀ n r f, entries n r f → Entry s.modules n r f := by
  intro p q entries
  refine ⟨by decide, considerate _, fun n r f he => ?_, fun h => ?_⟩
  · rw [(foreign_loaded (by decide) he).1]
    decide
  · have hdice : entries "dice" 1 "/echo.mbp.mbp/dice.py".toList :=
      ⟨⟨rfl, rfl⟩, q, ⟨1, by decide, rfl, rfl⟩, by decide⟩
    have hgone : (step process (.delete 0 none) (loaded p q)).modules.table "dice" = none := by
      decide
    -- the condition on the names holds, and the module is gone all the same
    let op : Op PluginMeta := .delete 0 none
    have hallowed : Own 0 op ∧ Disjoint process entries (loaded p q) op := ⟨rfl, trivial⟩
    have hkept := (h _ (Reach.start.step _ hallowed) _ _ _ hdice).1
    rw [hgone] at hkept
    cases hkept

end ZipTest

end ZipLoader

end Maubot
