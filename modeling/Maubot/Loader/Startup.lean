import Maubot.Loader.Caches
import Maubot.Loader.Tables

namespace Maubot

/-!
# Zipped plugins — archives that cannot be read

A new plugin is read when it is uploaded, and all plugins are read when the program starts. Most
of what can go wrong there is a `MaubotZipImportError`, and the file is trashed.

* `preloadArchive` — what reading an archive ends with, from its bytes and a table in the cache;
* `exec_construct` — `__init__` ends with just that;
* `loadAll` — `load_all`;
* `Settled` — a file is the path of a registered loader, or is gone;
* `settled_iff` — the archives after which all files are settled.
-/

open Prog

namespace ZipLoader

open Zipimport

variable {B E C Y M : Type} {P : Platform B E C Y M} {U : Uploads} {s s' : Loaders B E M}
  {self : Ref} {p : Path} {b : B}

/-! ### Reading an archive -/

/-- The `except` clause of `_get_importer` -/
def importerError (e : PyExc) : PyExc :=
  if e.isA .zipImportError then
    ⟨.maubotZipMetaError, "File not found or not a maubot plugin"⟩
  else e

/-- The first `except` clause of `_run_preload_checks` -/
def moduleError (module : String) (e : PyExc) : PyExc :=
  if e.isA .zipImportError then
    ⟨.maubotZipPreLoadError, s!"Main module {module} not found in file"⟩
  else e

/-- The metadata of an archive, with the main module and class that they name. -/
def metaOf (P : Platform B E C Y M) (b : B) : Except PyExc (PluginMeta × String × String) := do
  let (_, m) ← readMeta P (.ok b)
  let x ← mainOf m
  pure (m, x)

/-- The directory of an archive: the one in the cache, or that of its bytes. -/
def tableOf (P : Platform B E C Y M) (table : Option (Files E)) (b : B) :
    Except PyExc (Files E) :=
  match table with
  | some files => .ok files
  | none       => (P.readDirectory b).mapError importerError

/-- The main class of an archive is looked for in its main module. -/
def checkMain (P : Platform B E C Y M) (files : Files E) (b : B) (x : String × String) :
    Except PyExc Unit := do
  let path := x.1.toList.map fun c => if c = '.' then '/' else c
  let code ← (getModuleCode P.toReader (some b) files path).mapError (moduleError x.1)
  if x.2 ∈ P.coNames code.1 then .ok ()
  else .error ⟨.maubotZipPreLoadError, s!"Main class {x.2} not in {x.1}"⟩

/-- **What reading an archive ends with**: its metadata, or what is raised. -/
def preloadArchive (P : Platform B E C Y M) (table : Option (Files E)) (b : B) :
    Except PyExc PluginMeta :=
  (metaOf P b).bind fun r =>
    (tableOf P table b).bind fun files => (checkMain P files b r.2).map fun _ => r.1

/-- What is raised while an archive is read is one of these exceptions. -/
def Contained (P : Platform B E C Y M) (q : PyExc → Bool) (table : Option (Files E)) (b : B) :
    Prop := ∀ e, preloadArchive P table b = .error e → q e = true

/-! ### The steps of `__init__` -/

/-- The same tables, but for that of a path. -/
def Aside (p : Path) (s s' : Loaders B E M) : Prop :=
  ∀ q, q ≠ p → s'.directoryCache q = s.directoryCache q

/-- Nothing is aside of no step. -/
theorem Aside.refl (p : Path) (s : Loaders B E M) : Aside p s s := fun _ _ => rfl

/-- Other paths are aside of two steps that are. -/
theorem Aside.trans {s'' : Loaders B E M} (h : Aside p s s') (h' : Aside p s' s'') :
    Aside p s s'' := fun q hq => (h' q hq).trans (h q hq)

/-- The table of one path is that of no other. -/
theorem aside_update (table : Option (Files E)) : Aside p s
    { s with directoryCache := Function.update s.directoryCache p table } := fun _ hq =>
  Function.update_of_ne hq _ _

/-- The metadata of a new loader. -/
theorem exec_loadMeta_bytes (hself : s.loaders.get self = { path := some p })
    (hb : s.bytesAt P p = some b) :
    ∃ s', (loadMeta P self).exec s = ((metaOf P b).map fun _ => (), s') ∧
      s'.directoryCache = s.directoryCache ∧ s'.files = s.files ∧
      ∀ m x, metaOf P b = .ok (m, x) →
        s'.loaders.get self = withMeta { path := some p } m x b := by
  unfold loadMeta metaOf
  rw [exec_get_bind]
  simp only [hself, openPath, hb]
  rcases hread : readMeta P (.ok b) with e | ⟨f, m⟩
  · refine ⟨s, rfl, rfl, rfl, fun m x heq => ?_⟩
    cases heq
  · obtain rfl := readMeta_fst hread
    -- a loader without metadata cannot have changed its id
    have hsame : ¬ ∃ old, (s.loaders.get self).pluginMeta = some old ∧ m.id ≠ old.id := by
      rintro ⟨old, hold, -⟩
      rw [hself] at hold
      cases hold
    rw [exec_bind_ok (exec_outcome _ _)]
    dsimp only
    rw [when, if_neg hsame, exec_pure_bind]
    rcases hx : mainOf m with e | x
    · have hmain : (do let x ← mainOf m; pure (m, x) : Except PyExc _) = .error e := by
        rw [hx]
        rfl
      refine ⟨_, Prod.ext ?_ rfl, rfl, rfl, fun m' x' heq => ?_⟩
      · exact (congrArg (Except.map fun _ => ()) hmain).symm
      · cases hmain.symm.trans heq
    · have hmain : (do let x ← mainOf m; pure (m, x) : Except PyExc _) = .ok (m, x) := by
        rw [hx]
        rfl
      refine ⟨{ s with loaders := (s.loaders.modify self fun l =>
          { l with pluginMeta := some m }).modify self fun l =>
            { l with mainModule := some x.1, mainClass := some x.2, file := some f } },
        Prod.ext ?_ rfl, rfl, rfl, fun m' x' heq => ?_⟩
      · exact (congrArg (Except.map fun _ => ()) hmain).symm
      · cases hmain.symm.trans heq
        dsimp only
        rw [Store.modify_modify, Store.get_modify_self, hself]
        rfl

/-- A handler that raises another exception changes the exception only. -/
theorem exec_except {α : Type} (q : PyExc → Bool) (m : Method B E M α) (e' : PyExc)
    (s : Loaders B E M) :
    (except q m (throw e')).exec s =
      ((m.exec s).1.mapError fun e => if q e then e' else e, (m.exec s).2) := by
  unfold except
  rw [exec_bind, exec_attempt]
  rcases hm : m.exec s with ⟨e | a, t⟩
  · cases hq : q e with
    | true => simp [hq, Except.mapError]
    | false => simp [hq, Except.mapError]
  · rfl

/-- The importer of a new loader. -/
theorem exec_getImporter_bytes (hp : (s.loaders.get self).path = some p)
    (hnone : (s.loaders.get self).importer = none) (hb : s.bytesAt P p = some b) :
    ∃ s', (getImporter P self false).exec s =
        ((tableOf P (s.directoryCache p) b).map fun files => ⟨p, files⟩, s') ∧
      Aside p s s' ∧ s'.files = s.files ∧
      ∀ files, tableOf P (s.directoryCache p) b = .ok files →
        s'.loaders.get self = { s.loaders.get self with importer := some ⟨p, files⟩ } := by
  cases hc : s.directoryCache p with
  | some files =>
    refine ⟨_, exec_getImporter_cached hp hnone hb hc, .refl p s, rfl, fun files' heq => ?_⟩
    cases heq
    exact Store.get_modify_self s.loaders self fun l => { l with importer := some ⟨p, files⟩ }
  -- no importer knows the path yet: its directory is read, and kept
  | none =>
    have hown : (ownImporter P self).exec s =
        (zipimporter P p >>= fun i => do
          setLoader self fun l => { l with importer := some i }
          pure i : Method B E M (Importer E)).exec s := by
      unfold ownImporter
      rw [exec_get_bind]
      simp only [hnone, ownImporter.make, hp, Option.getD_some]
    have hget : (getImporter P self false).exec s =
        (((ownImporter P self).exec s).1.mapError importerError,
          ((ownImporter P self).exec s).2) := by
      unfold getImporter
      rw [exec_except]
      simp only [Bool.false_eq_true, if_false, bind_pure]
      rfl
    rw [hget, hown, zipimporter]
    simp only [bind_assoc, exec_get_bind, hb, hc]
    -- a directory that cannot be read leaves nothing behind
    cases hread : P.readDirectory b with
    | error e =>
      refine ⟨s, ?_, .refl p s, rfl, fun files heq => ?_⟩
      · simp only [exec_bind, exec_outcome, tableOf, hread, Except.mapError, Except.map]
      · rw [tableOf, hread] at heq
        cases heq
    | ok files =>
      refine ⟨withImporter self ⟨p, files⟩
          { s with directoryCache := Function.update s.directoryCache p (some files) },
        ?_, aside_update (some files), rfl, fun files' heq => ?_⟩
      · simp only [exec_bind, exec_outcome, exec_modify, exec_pure, setLoader, tableOf, hread,
          Except.mapError, Except.map, withImporter]
      · rw [tableOf, hread] at heq
        cases heq
        exact Store.get_modify_self s.loaders self fun l => { l with importer := some ⟨p, files⟩ }

/-- An importer that is given up raises and takes its table with it. -/
theorem exec_abandon {α : Type} (i : Importer E) (e : PyExc) (s : Loaders B E M) :
    (abandon i e : Method B E M α).exec s = (.error e,
      { s with directoryCache := Function.update s.directoryCache i.archive none }) := rfl

/-- As a handler it does so for the exceptions that it handles. -/
theorem exec_except_abandon {α : Type} (q : PyExc → Bool) (m : Method B E M α) (i : Importer E)
    (e' : PyExc) (s : Loaders B E M) :
    (except q m (abandon i e')).exec s = match m.exec s with
      | (.ok a, t)    => (.ok a, t)
      | (.error e, t) =>
        if q e then
          (.error e', { t with directoryCache := Function.update t.directoryCache i.archive none })
        else (.error e, t) := by
  unfold except
  rw [exec_bind, exec_attempt]
  rcases m.exec s with ⟨e | a, t⟩
  · cases hq : q e with
    | true => simp [hq, exec_abandon]
    | false => simp [hq]
  · rfl

/-- The code of the main module. -/
theorem exec_mainCode (record : Bool) (files : Files E) (module : String) (path : Path)
    (hb : s.bytesAt P p = some b) :
    ∃ t, (except (PyExc.isA .zipImportError) (readCode P record ⟨p, files⟩ path)
        (abandon ⟨p, files⟩
          ⟨.maubotZipPreLoadError, s!"Main module {module} not found in file"⟩)).exec s =
        ((getModuleCode P.toReader (some b) files path).mapError (moduleError module), t) ∧
      Aside p s t ∧ t.files = s.files ∧ t.loaders = s.loaders := by
  -- reading the code only leaves a note of it
  obtain ⟨u, hread, haside, hfiles, hloaders⟩ : ∃ u, (readCode P record ⟨p, files⟩ path).exec s =
      (getModuleCode P.toReader (some b) files path, u) ∧
      Aside p s u ∧ u.files = s.files ∧ u.loaders = s.loaders := by
    unfold readCode
    rw [exec_get_bind]
    simp only [hb, when]
    cases record with
    | true =>
      rw [if_pos rfl, exec_modify_bind, exec_outcome]
      exact ⟨_, rfl, .refl p s, rfl, rfl⟩
    | false =>
      rw [if_neg (by decide), exec_pure_bind, exec_outcome]
      exact ⟨s, rfl, .refl p s, rfl, rfl⟩
  rw [exec_except_abandon, hread]
  cases getModuleCode P.toReader (some b) files path with
  | ok code => exact ⟨u, rfl, haside, hfiles, hloaders⟩
  | error e =>
    dsimp only
    -- a missing module gives up the importer, any other exception goes through
    by_cases hz : e.isA .zipImportError = true
    · rw [if_pos hz]
      refine ⟨_, Prod.ext ?_ rfl, haside.trans (aside_update none), hfiles, hloaders⟩
      simp [Except.mapError, moduleError, hz]
    · rw [if_neg hz]
      refine ⟨u, Prod.ext ?_ rfl, haside, hfiles, hloaders⟩
      simp [Except.mapError, moduleError, hz]

/-- The modules of the plugin are looked for, and whether they are there is not looked at. -/
theorem exec_findModules (i : Importer E) (modules : List String) (e : String → PyExc)
    (s : Loaders B E M) :
    (modules.forM fun module => do
      let _ ← except (PyExc.isA .zipImportError)
        (outcome (findModule i.files module.toList) : Method B E M Bool)
        (abandon i (e module))).exec s = (.ok (), s) := by
  induction modules with
  | nil => rfl
  | cons module modules ih => exact ih

/-- The checks of a loader that has its metadata read the archive and nothing else. -/
theorem exec_runPreloadChecks (record : Bool) {files : Files E} {l : Loader B E} {m : PluginMeta}
    {x : String × String} (hself : s.loaders.get self = l) (hm : l.pluginMeta = some m)
    (hmodule : l.mainModule = some x.1) (hclass : l.mainClass = some x.2)
    (hb : s.bytesAt P p = some b) :
    ∃ s', (runPreloadChecks P record self ⟨p, files⟩).exec s = (checkMain P files b x, s') ∧
      Aside p s s' ∧ s'.files = s.files ∧ s'.loaders = s.loaders := by
  have hcls : (s.loaders.get self).mainClass.getD "None" = x.2 := by
    rw [hself, hclass]
    rfl
  unfold runPreloadChecks checkMain
  rw [exec_get_bind]
  dsimp only
  rw [hcls]
  simp only [hself, hmodule, hm, present, pure_bind]
  generalize x.1.toList.map (fun c => if c = '.' then '/' else c) = path
  obtain ⟨t, ht, haside, hfiles, hloaders⟩ := exec_mainCode record files x.1 path hb
  rcases hcode : (getModuleCode P.toReader (some b) files path).mapError (moduleError x.1) with
    e | code
  · rw [hcode] at ht
    exact ⟨t, exec_bind_error ht, haside, hfiles, hloaders⟩
  · rw [hcode] at ht
    rw [exec_bind_ok ht]
    by_cases hmem : x.2 ∈ P.coNames code.1
    · refine ⟨t, ?_, haside, hfiles, hloaders⟩
      rw [when, if_neg (not_not.mpr hmem), exec_pure_bind]
      exact (exec_findModules ⟨p, files⟩ m.modules _ t).trans (Prod.ext (if_pos hmem).symm rfl)
    · refine ⟨_, ?_, haside.trans (aside_update none), hfiles, hloaders⟩
      rw [when, if_pos hmem, exec_bind_error (exec_abandon _ _ _)]
      exact Prod.ext (if_neg hmem).symm rfl

/-- **`__init__` up to the registration** ends as the archive says. -/
theorem exec_preload (hself : s.loaders.get self = { path := some p })
    (hb : s.bytesAt P p = some b) :
    ∃ s', (preload P self).exec s =
        ((preloadArchive P (s.directoryCache p) b).map fun _ => (), s') ∧
      Aside p s s' ∧ s'.files = s.files ∧
      ∀ m, preloadArchive P (s.directoryCache p) b = .ok m →
        (s'.loaders.get self).pluginMeta = some m := by
  obtain ⟨t, ht, htables, hfiles, hget⟩ := exec_loadMeta_bytes hself hb
  unfold preload
  -- the metadata, the file table and the checks, each of which can end it
  rcases hmeta : metaOf P b with e | ⟨m, x⟩
  · have harchive : preloadArchive P (s.directoryCache p) b = .error e := by
      simp only [preloadArchive, hmeta, Except.bind]
    rw [hmeta] at ht
    rw [harchive]
    exact ⟨t, exec_bind_error ht, fun q _ => congrFun htables q, hfiles, nofun⟩
  · rw [hmeta] at ht
    have hget := hget m x hmeta
    have hbt : t.bytesAt P p = some b := by
      rw [Loaders.bytesAt, hfiles]
      exact hb
    have hpath : (t.loaders.get self).path = some p := by rw [hget]; rfl
    have hnone : (t.loaders.get self).importer = none := by rw [hget]; rfl
    obtain ⟨u, hu, haside, hfiles', hget'⟩ := exec_getImporter_bytes hpath hnone hbt
    rw [htables] at hu hget'
    rw [exec_bind_ok ht]
    have haside' : Aside p s u := fun q hq => (haside q hq).trans (congrFun htables q)
    rcases htable : tableOf P (s.directoryCache p) b with e | files
    · have harchive : preloadArchive P (s.directoryCache p) b = .error e := by
        simp only [preloadArchive, hmeta, htable, Except.bind]
      rw [htable] at hu
      rw [harchive]
      exact ⟨u, exec_bind_error hu, haside', hfiles'.trans hfiles, nofun⟩
    · have harchive : preloadArchive P (s.directoryCache p) b =
          (checkMain P files b x).map fun _ => m := by
        simp only [preloadArchive, hmeta, htable, Except.bind]
      rw [htable] at hu
      have hget' := hget' files htable
      have hbu : u.bytesAt P p = some b := by
        rw [Loaders.bytesAt, hfiles']
        exact hbt
      rw [hget] at hget'
      obtain ⟨v, hv, haside'', hfiles'', hloaders⟩ :=
        exec_runPreloadChecks true (x := x) (m := m) hget' rfl rfl rfl hbu
      refine ⟨v, ?_, haside'.trans haside'', hfiles''.trans (hfiles'.trans hfiles),
        fun m' hm' => ?_⟩
      · rw [exec_bind_ok hu, hv, harchive]
        cases checkMain P files b x <;> rfl
      · rw [harchive] at hm'
        obtain rfl : m = m' := by
          cases hcheck : checkMain P files b x with
          | error e =>
            rw [hcheck] at hm'
            cases hm'
          | ok u =>
            rw [hcheck] at hm'
            exact Except.ok.inj hm'
        rw [hloaders, hget']
        rfl

/-! ### `__init__` -/

/-- What a construction leaves alone, however it ends. -/
structure Tried (p : Path) (s s' : Loaders B E M) : Prop where
  files  : s'.files = s.files
  tables : Aside p s s'

/-- A construction that failed has registered nothing. -/
structure Failed (p : Path) (s s' : Loaders B E M) : Prop extends Tried p s s' where
  pathCache : s'.pathCache = s.pathCache
  idCache   : s'.idCache = s.idCache

/-- A loader is made by its preload and its registration. -/
theorem exec_construct (p : Path) (s : Loaders B E M) : (construct P p).exec s =
    (preload P s.loaders.next >>= fun _ => do
      register s.loaders.next p
      pure s.loaders.next : Method B E M Ref).exec (allocated p s) := rfl

/-- Without a file it is not made, and nothing is registered. -/
theorem exec_construct_missing (hnone : s.bytesAt P p = none) :
    ∃ e s', (construct P p).exec s = (.error e, s') ∧ e.isMaubotZipImportError = true ∧
      Failed p s s' := by
  have hself := get_allocated p s
  have hload : (loadMeta P s.loaders.next).exec (allocated p s) =
      (.error ⟨.maubotZipMetaError, "Maubot plugin not found"⟩, allocated p s) := by
    have hmissing : (allocated p s).bytesAt P p = none := hnone
    unfold loadMeta
    rw [exec_get_bind]
    simp only [hself, openPath, hmissing]
    rfl
  refine ⟨⟨.maubotZipMetaError, "Maubot plugin not found"⟩, allocated p s, ?_, rfl,
    ⟨rfl, .refl p s⟩, rfl, rfl⟩
  rw [exec_construct]
  exact exec_bind_error (exec_bind_error hload)

/-- What is raised for an archive that cannot be read is raised for the loader. -/
theorem exec_construct_error {e : PyExc} (hb : s.bytesAt P p = some b)
    (he : preloadArchive P (s.directoryCache p) b = .error e) :
    ∃ s', (construct P p).exec s = (.error e, s') ∧ Failed p s s' := by
  obtain ⟨t, ht, haside, hfiles, -⟩ := exec_preload (get_allocated p s) hb
  have hloads : Loads s.loaders.next (allocated p s) ((preload P s.loaders.next).exec _).2 :=
    keeps_preload _
  have he' : preloadArchive P ((allocated p s).directoryCache p) b = .error e := he
  rw [he'] at ht
  rw [ht] at hloads
  rw [exec_construct]
  exact ⟨t, exec_bind_error ht, ⟨hfiles, haside⟩, hloads.pathCache, hloads.idCache⟩

/-- A readable archive is registered, if its id is not taken. -/
theorem exec_construct_ok {m : PluginMeta} (hb : s.bytesAt P p = some b)
    (hm : preloadArchive P (s.directoryCache p) b = .ok m) :
    ∃ s', Tried p s s' ∧
      ((s.idCache m.id = none ∧ (construct P p).exec s = (.ok s.loaders.next, s') ∧
          s'.pathCache = Function.update s.pathCache p (some s.loaders.next) ∧
          s'.idCache = Function.update s.idCache m.id (some s.loaders.next) ∧
          (s'.loaders.get s.loaders.next).pluginMeta = some m) ∨
        (∃ k e, s.idCache m.id = some k ∧ (construct P p).exec s = (.error e, s') ∧
          e.cls = .idConflictError ∧ Failed p s s')) := by
  obtain ⟨t, ht, haside, hfiles, hget⟩ := exec_preload (get_allocated p s) hb
  -- the preload touches only the new loader
  have hloads : Loads s.loaders.next (allocated p s) ((preload P s.loaders.next).exec _).2 :=
    keeps_preload _
  have hm' : preloadArchive P ((allocated p s).directoryCache p) b = .ok m := hm
  rw [hm'] at ht
  rw [ht] at hloads
  have hget := hget m hm'
  have hids : t.idCache = s.idCache := hloads.idCache
  have hpaths : t.pathCache = s.pathCache := hloads.pathCache
  have hrun := exec_construct (P := P) p s
  rw [exec_bind_ok ht] at hrun
  unfold register at hrun
  simp only [bind_assoc, exec_get_bind, hget, present, pure_bind] at hrun
  -- then the registration decides: the id is free, or another loader has it
  cases hid : s.idCache m.id with
  | none =>
    rw [hids, hid] at hrun
    refine ⟨registered s.loaders.next p m.id t, ⟨hfiles, haside⟩, .inl ⟨rfl, hrun, ?_, ?_, ?_⟩⟩
    · rw [← hpaths]
      rfl
    · rw [← hids]
      rfl
    · rw [get_registered]
      exact hget
  | some k =>
    rw [hids, hid] at hrun
    exact ⟨t, ⟨hfiles, haside⟩, .inr ⟨k, _, rfl, hrun, rfl, ⟨hfiles, haside⟩, hpaths, hids⟩⟩

/-- However a construction ends, other paths are left alone. -/
theorem tried_construct (p : Path) (s : Loaders B E M) :
    Tried p s ((construct P p).exec s).2 ∧
      ∀ q, q ≠ p → ((construct P p).exec s).2.pathCache q = s.pathCache q := by
  have hfailed : ∀ s', Failed p s s' → Tried p s s' ∧
      ∀ q, q ≠ p → s'.pathCache q = s.pathCache q := fun s' h =>
    ⟨h.toTried, fun q _ => congrFun h.pathCache q⟩
  cases hb : s.bytesAt P p with
  | none =>
    obtain ⟨e, s', hrun, -, h⟩ := exec_construct_missing hb
    rw [hrun]
    exact hfailed s' h
  | some b =>
    rcases harchive : preloadArchive P (s.directoryCache p) b with e | m
    · obtain ⟨s', hrun, h⟩ := exec_construct_error hb harchive
      rw [hrun]
      exact hfailed s' h
    · obtain ⟨s', htried, ⟨-, hrun, hpaths, -⟩ | ⟨k, e, -, hrun, -, h⟩⟩ :=
        exec_construct_ok hb harchive
      · rw [hrun]
        refine ⟨htried, fun q hq => ?_⟩
        dsimp only
        rw [hpaths]
        exact Function.update_of_ne hq _ _
      · rw [hrun]
        exact hfailed s' h

/-! ### A new plugin -/

/-- A file is the path of a loader that both caches have. -/
def Registered (s : Loaders B E M) (p : Path) : Prop :=
  ∃ l m, s.pathCache p = some l ∧ (s.loaders.get l).pluginMeta = some m ∧ s.idCache m.id = some l

/-- A file is the path of a registered loader, or it is gone. -/
def Settled (s : Loaders B E M) (p : Path) : Prop := s.files p = none ∨ Registered s p

/-- A file whose loader failed is not settled. -/
theorem Failed.not_settled (h : Failed p s s') (hnone : s.pathCache p = none)
    (hb : s.files p = some b) : ¬ Settled s' p := by
  rintro (hgone | ⟨l, m, hl, -⟩)
  · rw [h.files, hb] at hgone
    cases hgone
  · rw [h.pathCache, hnone] at hl
    cases hl

/-- A file in the trash is settled. -/
theorem settled_trashed (s : Loaders B E M) (path : Path) :
    Settled { s with files := Function.update s.files (abspath P.cwd path) none }
      (abspath P.cwd path) := .inl (Function.update_self _ _ _)

/-- The metadata that `verify_meta` reads are those of the loader. -/
theorem id_of_verifyMeta {table : Option (Files E)} {m : PluginMeta} {pid : String}
    {version : Version} {db : Option DatabaseType}
    (hverify : verifyMeta P b = .ok (pid, version, db))
    (hm : preloadArchive P table b = .ok m) : m.id = pid := by
  obtain ⟨⟨m', x⟩, hmeta, hrest⟩ := except_bind_eq_ok hm
  obtain ⟨files, -, hrest⟩ := except_bind_eq_ok hrest
  obtain rfl : m' = m := by
    cases hcheck : checkMain P files b x with
    | error e =>
      rw [hcheck] at hrest
      cases hrest
    | ok u =>
      rw [hcheck] at hrest
      exact Except.ok.inj hrest
  obtain ⟨⟨f, m''⟩, hread, hmain⟩ := except_bind_eq_ok hmeta
  obtain ⟨x', -, hpair⟩ := except_bind_eq_ok hmain
  obtain rfl : m'' = m' := congrArg Prod.fst (Except.ok.inj hpair)
  rw [verifyMeta, hread] at hverify
  exact congrArg Prod.fst (Except.ok.inj hverify)

/-- The path of a new plugin is that of a registered loader, or of none, and then its archive is
    contained. -/
def Uploadable (P : Platform B E C Y M) (U : Uploads) (s : Loaders B E M) (content : B)
    (pid : String) (version : Version) : Prop :=
  let path := abspath P.cwd (uploadPath U.directory pid version)
  match s.pathCache path with
  | some _ => Registered s path
  | none   => Contained P PyExc.isMaubotZipImportError (s.directoryCache path) content

/-- A loader is made, or what this raises is handled. -/
theorem exec_attempt_getLoader {α : Type} (q : PyExc → Bool) (path : Path)
    (rest : Except PyExc Ref → Method B E M α) (s : Loaders B E M) :
    (attempt q (getLoader P path) >>= rest).exec s =
      match s.pathCache (abspath P.cwd path) with
      | some l => (rest (.ok l)).exec s
      | none   =>
        match (construct P (abspath P.cwd path)).exec s with
        | (.ok l, t)    => (rest (.ok l)).exec t
        | (.error e, t) => if q e then (rest (.error e)).exec t else (.error e, t) := by
  rw [exec_bind, exec_attempt]
  unfold getLoader
  rw [exec_get_bind]
  cases s.pathCache (abspath P.cwd path) with
  | some l => rfl
  | none =>
    dsimp only
    rcases (construct P (abspath P.cwd path)).exec s with ⟨e | l, t⟩
    · cases hq : q e <;> simp [hq]
    · rfl

/-- **A new plugin** is registered or trashed, unless something else is raised. -/
theorem settled_uploadNew_iff {pid : String} {version : Version} {db : Option DatabaseType}
    (hverify : verifyMeta P b = .ok (pid, version, db)) (hfree : s.idCache pid = none) :
    Settled ((uploadNewPlugin P U b pid version {}).exec s).2
        (abspath P.cwd (uploadPath U.directory pid version)) ↔
      Uploadable P U s b pid version := by
  unfold uploadNewPlugin Uploadable
  generalize uploadPath U.directory pid version = path
  obtain ⟨w, hw⟩ : ∃ w : Loaders B E M,
      w = { s with files := Function.update s.files (abspath P.cwd path) (some b) } := ⟨_, rfl⟩
  have hwrite : (writeFile P path b none).exec s = (.ok (), w) := by rw [hw]; rfl
  have hfile : w.files (abspath P.cwd path) = some b := by
    rw [hw]
    exact Function.update_self _ _ _
  have hbytes : w.bytesAt P (abspath P.cwd path) = some b := by
    rw [Loaders.bytesAt, abspath_abspath P.cwd_absolute]
    exact hfile
  have hpaths : s.pathCache = w.pathCache := by rw [hw]
  have hids : s.idCache = w.idCache := by rw [hw]
  have htables : s.directoryCache = w.directoryCache := by rw [hw]
  have hregistered : Registered s (abspath P.cwd path) ↔ Registered w (abspath P.cwd path) := by
    rw [hw]
    rfl
  dsimp only
  rw [exec_bind_ok hwrite, exec_attempt_getLoader, hpaths, htables]
  -- a loader of this path is reused, and the archive is not read
  cases hpath : w.pathCache (abspath P.cwd path) with
  | some l =>
    dsimp only
    rw [hregistered]
    constructor
    · rintro (hgone | hr)
      · exact absurd (hfile.symm.trans hgone) (Option.some_ne_none b)
      · exact hr
    · exact .inr
  | none =>
    dsimp only
    rcases harchive : preloadArchive P (w.directoryCache (abspath P.cwd path)) b with e | m
    · obtain ⟨t, ht, hfailed⟩ := exec_construct_error hbytes harchive
      rw [ht]
      dsimp only
      -- only for this error is the file trashed
      by_cases hq : e.isMaubotZipImportError = true
      · rw [if_pos hq]
        refine ⟨fun _ e' he' => ?_, fun _ => settled_trashed t path⟩
        rw [harchive] at he'
        exact Except.error.inj he' ▸ hq
      · rw [if_neg hq]
        refine ⟨fun h => absurd h (hfailed.not_settled hpath hfile),
          fun h => absurd (h e harchive) hq⟩
    · have hid := id_of_verifyMeta hverify harchive
      obtain ⟨t, -, ⟨hnone, ht, hp', hi', hm'⟩ | ⟨k, e, hsome, -⟩⟩ :=
        exec_construct_ok hbytes harchive
      · rw [ht]
        refine ⟨fun _ e he => ?_, fun _ => .inr ⟨w.loaders.next, m, ?_, hm', ?_⟩⟩
        · rw [harchive] at he
          cases he
        · show t.pathCache _ = _
          rw [hp']
          exact Function.update_self _ _ _
        · show t.idCache _ = _
          rw [hi']
          exact Function.update_self _ _ _
      · rw [← hids, hid, hfree] at hsome
        cases hsome

/-! ### All plugins -/

/-- The `except` clauses of `load_all` -/
def isLoadError (e : PyExc) : Bool := e.isMaubotZipImportError || e.isA .idConflictError

/-- One file of `load_all` -/
def loadFile (P : Platform B E C Y M) (path : Path) : Method B E M Unit := do
  match ← attempt isLoadError (getLoader P path) with
  | .ok _    => pure ()
  | .error _ => trash P path none

/-- `load_all`; `listdir` is `os.listdir` where there are these files. -/
def loadAll (P : Platform B E C Y M) (listdir : (Path → Option B) → Path → List Path)
    (directories : List Path) : Method B E M Unit :=
  directories.forM fun directory => do
    let s ← get
    (listdir s.files directory).forM fun file =>
      when (".mbp".toList <:+ file) (loadFile P (abspath P.cwd (OsPath.join directory file)))

/-- A listing has the plugins in the directories, where some files of the start are left. -/
def Lists (P : Platform B E C Y M) (listdir : (Path → Option B) → Path → List Path)
    (directories : List Path) (s : Loaders B E M) : Prop :=
  ∀ files : Path → Option B, (∀ p, files p = s.files p ∨ files p = none) →
    ∀ directory ∈ directories, ∀ file, ".mbp".toList <:+ file →
      (file ∈ listdir files directory ↔
        '/' ∉ file ∧ files (abspath P.cwd (OsPath.join directory file)) ≠ none)

/-- The path of a plugin in one of the directories. -/
def Found (P : Platform B E C Y M) (directories : List Path) (p : Path) : Prop :=
  ∃ directory ∈ directories, ∃ file, ".mbp".toList <:+ file ∧ '/' ∉ file ∧
    p = abspath P.cwd (OsPath.join directory file)

/-- The program has not read anything yet. -/
structure Started (s : Loaders B E M) : Prop extends Empty s where
  tables : ∀ p, s.directoryCache p = none

/-- Between two files: a file that is there is registered or has not been read. -/
structure Loading (s t : Loaders B E M) : Prop where
  whole  : Whole t
  files  : ∀ p, t.files p = s.files p ∨ t.files p = none
  tables : ∀ p, t.pathCache p = none → t.files p ≠ none → t.directoryCache p = none

/-- The start begins to load where it is. -/
theorem Started.loading (h : Started s) : Loading s s :=
  ⟨h.toEmpty.whole, fun _ => .inl rfl, fun p _ _ => h.tables p⟩

/-- A registered loader stays registered when another one is constructed. -/
theorem Registered.construct {q : Path} (h : Registered s q) (hw : Whole s)
    (hmiss : s.pathCache p = none) : Registered ((construct P p).exec s).2 q := by
  obtain ⟨l, m, hl, hm, hi⟩ := h
  obtain ⟨-, hothers, hcaches⟩ := construct_cases (P := P) p s
  have hget := hothers l (hw.ne_next hi)
  rcases hcaches with ⟨hids, hpaths, -⟩ | ⟨m', -, -, -, hfree, hids, hpaths⟩
  · refine ⟨l, m, ?_, ?_, ?_⟩
    · rw [hpaths]
      exact hl
    · rw [hget]
      exact hm
    · rw [hids]
      exact hi
  · have hq : q ≠ p := by
      rintro rfl
      rw [hmiss] at hl
      cases hl
    have hid : m.id ≠ m'.id := by
      intro heq
      rw [heq, hfree] at hi
      cases hi
    refine ⟨l, m, ?_, ?_, ?_⟩
    · rw [hpaths]
      exact (Function.update_of_ne hq _ _).trans hl
    · rw [hget]
      exact hm
    · rw [hids]
      exact (Function.update_of_ne hid _ _).trans hi

/-- A program goes on from one file to the next, and settles some of them. -/
def Settles (s : Loaders B E M) (m : Method B E M Unit) (S : Path → Prop) : Prop :=
  ∀ t, Loading s t → ∃ t', m.exec t = (.ok (), t') ∧ Loading s t' ∧
    (∀ q, Settled t q → Settled t' q) ∧ ∀ q, S q → Settled t' q

/-- Trashing the file of a construction that failed goes on. -/
theorem Loading.trashed {t : Loaders B E M} (h : Loading s t) (hmiss : t.pathCache p = none)
    (hfailed : Failed p t ((construct P p).exec t).2)
    (hw : Whole ((construct P p).exec t).2) (t' : Loaders B E M)
    (ht' : t' = { ((construct P p).exec t).2 with
      files := Function.update ((construct P p).exec t).2.files p none }) :
    Loading s t' ∧ ∀ q, Settled t q → Settled t' q := by
  -- only the file that could not be loaded is gone
  have hfile : ∀ q, q ≠ p → t'.files q = t.files q := by
    intro q hq
    rw [ht', ← hfailed.files]
    exact Function.update_of_ne hq _ _
  have hself : t'.files p = none := by
    rw [ht']
    exact Function.update_self _ _ _
  refine ⟨⟨?_, fun q => ?_, fun q hq hne => ?_⟩, fun q hq => ?_⟩
  · rw [ht']
    exact ⟨⟨hw.idCache, hw.pathCache⟩, hw.constructed, hw.old⟩
  · rcases eq_or_ne q p with rfl | hqp
    · exact .inr hself
    · rw [hfile q hqp]
      exact h.files q
  · -- the other tables are those of before
    have hqp : q ≠ p := by
      rintro rfl
      exact hne hself
    rw [hfile q hqp] at hne
    have hq' : t.pathCache q = none := by
      rw [← hfailed.pathCache]
      rw [ht'] at hq
      exact hq
    rw [ht']
    exact (hfailed.tables q hqp).trans (h.tables q hq' hne)
  · rcases eq_or_ne q p with rfl | hqp
    · exact .inl hself
    · rcases hq with hgone | hr
      · exact .inl ((hfile q hqp).trans hgone)
      · have hr' := hr.construct (P := P) h.whole hmiss
        rw [ht']
        exact .inr hr'

/-- A loader that was constructed goes on too. -/
theorem Loading.loaded {t t' : Loaders B E M} (h : Loading s t) (hmiss : t.pathCache p = none)
    {l : Ref} (hrun : ((construct P p).exec t).2 = t') (hw : Whole t') (htried : Tried p t t')
    (hpaths : t'.pathCache = Function.update t.pathCache p (some l)) :
    Loading s t' ∧ ∀ q, Settled t q → Settled t' q := by
  refine ⟨⟨hw, fun q => ?_, fun q hq hne => ?_⟩, fun q hq => ?_⟩
  · rw [htried.files]
    exact h.files q
  · have hqp : q ≠ p := by
      rintro rfl
      rw [hpaths, Function.update_self] at hq
      cases hq
    rw [hpaths, Function.update_of_ne hqp] at hq
    rw [htried.files] at hne
    exact (htried.tables q hqp).trans (h.tables q hq hne)
  · rcases hq with hgone | hr
    · exact .inl (by rw [htried.files]; exact hgone)
    · have hr' := hr.construct (P := P) h.whole hmiss
      rw [hrun] at hr'
      exact .inr hr'

section LoadFile

variable {path : Path} {t t₁ : Loaders B E M} {l : Ref} {e : PyExc}

/-- A file whose loader is there is passed over. -/
theorem exec_loadFile_cached (h : t.pathCache (abspath P.cwd path) = some l) :
    (loadFile P path).exec t = (.ok (), t) := by
  unfold loadFile
  rw [exec_attempt_getLoader, h]
  rfl

/-- One whose loader is made is loaded. -/
theorem exec_loadFile_made (hmiss : t.pathCache (abspath P.cwd path) = none)
    (h : (construct P (abspath P.cwd path)).exec t = (.ok l, t₁)) :
    (loadFile P path).exec t = (.ok (), t₁) := by
  unfold loadFile
  rw [exec_attempt_getLoader, hmiss, h]
  rfl

/-- One whose loader fails as expected goes to the trash. -/
theorem exec_loadFile_trashed (hmiss : t.pathCache (abspath P.cwd path) = none)
    (h : (construct P (abspath P.cwd path)).exec t = (.error e, t₁))
    (hhandled : isLoadError e = true) :
    (loadFile P path).exec t =
      (.ok (), { t₁ with files := Function.update t₁.files (abspath P.cwd path) none }) := by
  unfold loadFile
  rw [exec_attempt_getLoader, hmiss, h]
  simp only [hhandled, if_true]
  rfl

end LoadFile

/-- The next file of `load_all`, if its archive is contained. -/
theorem settles_loadFile {path : Path} (hp : abspath P.cwd path = p)
    (hnormal : abspath P.cwd p = p)
    (hcontained : ∀ b, s.files p = some b → Contained P isLoadError none b) :
    Settles s (loadFile P path) (· = p) := by
  intro t ht
  have hbytes : t.bytesAt P p = t.files p := by rw [Loaders.bytesAt, hnormal]
  cases hmiss : t.pathCache p with
  | some l =>
    obtain ⟨-, m, hm, hi⟩ := ht.whole.pathCache p l hmiss
    refine ⟨t, exec_loadFile_cached (hp ▸ hmiss), ht, fun _ h => h, ?_⟩
    rintro q rfl
    exact .inr ⟨l, m, hmiss, hm, hi⟩
  | none =>
    have hw : Whole ((construct P p).exec t).2 := by
      have hget := ht.whole.get (P := P) path
      unfold getLoader at hget
      rw [exec_get_bind, hp] at hget
      simp only [hmiss] at hget
      exact hget
    -- what is handled is trashed
    have htrash : ∀ e t₁, (construct P p).exec t = (.error e, t₁) → Failed p t t₁ →
        isLoadError e = true →
        ∃ t', (loadFile P path).exec t = (.ok (), t') ∧ Loading s t' ∧
          (∀ q, Settled t q → Settled t' q) ∧ ∀ q, q = p → Settled t' q := by
      intro e t₁ hrun hfailed hhandled
      have hrun₂ : ((construct P p).exec t).2 = t₁ := by rw [hrun]
      rw [← hrun₂] at hfailed
      obtain ⟨hload, hsettled⟩ := ht.trashed hmiss hfailed hw _ rfl
      subst hp
      refine ⟨_, exec_loadFile_trashed hmiss hrun hhandled, hrun₂ ▸ hload, hrun₂ ▸ hsettled, ?_⟩
      rintro q rfl
      exact .inl (Function.update_self _ _ _)
    cases hfile : t.files p with
    | none =>
      obtain ⟨e, t₁, hrun, he, hfailed⟩ := exec_construct_missing (hbytes.trans hfile)
      exact htrash e t₁ hrun hfailed (by rw [isLoadError, he]; rfl)
    | some b =>
      have hb : t.bytesAt P p = some b := hbytes.trans hfile
      have hfresh : t.directoryCache p = none := ht.tables p hmiss (by rw [hfile]; simp)
      have hfound : s.files p = some b := by
        rcases ht.files p with heq | hgone
        · rw [← heq]
          exact hfile
        · rw [hfile] at hgone
          cases hgone
      rcases harchive : preloadArchive P (t.directoryCache p) b with e | m
      · obtain ⟨t₁, hrun, hfailed⟩ := exec_construct_error hb harchive
        rw [hfresh] at harchive
        exact htrash e t₁ hrun hfailed (hcontained b hfound e harchive)
      · obtain ⟨t₁, htried, ⟨-, hrun, hpaths, hids, hm⟩ | ⟨k, e, -, hrun, he, hfailed⟩⟩ :=
          exec_construct_ok hb harchive
        · have hrun₂ : ((construct P p).exec t).2 = t₁ := by rw [hrun]
          obtain ⟨hload, hsettled⟩ := ht.loaded hmiss hrun₂ (hrun₂ ▸ hw) htried hpaths
          refine ⟨t₁, exec_loadFile_made (hp ▸ hmiss) (hp ▸ hrun), hload, hsettled, ?_⟩
          rintro q rfl
          refine .inr ⟨_, m, ?_, hm, ?_⟩
          · rw [hpaths]
            exact Function.update_self _ _ _
          · rw [hids]
            exact Function.update_self _ _ _
        · refine htrash e t₁ hrun hfailed ?_
          rw [isLoadError, PyExc.isA, he]
          simp

/-- Files that are loaded one after the other are all settled. -/
theorem settles_forM {β : Type} {f : β → Method B E M Unit} {S : β → Path → Prop} (bs : List β)
    (h : ∀ b ∈ bs, Settles s (f b) (S b)) :
    Settles s (bs.forM f) fun q => ∃ b ∈ bs, S b q := by
  induction bs with
  | nil =>
    intro t ht
    refine ⟨t, rfl, ht, fun _ hq => hq, ?_⟩
    rintro q ⟨b, hb, -⟩
    cases hb
  | cons b bs ih =>
    intro t ht
    obtain ⟨u, hu, hload, hkeep, hset⟩ := h b List.mem_cons_self t ht
    obtain ⟨v, hv, hload', hkeep', hset'⟩ :=
      ih (fun b' hb' => h b' (List.mem_cons_of_mem b hb')) u hload
    refine ⟨v, ?_, hload', fun q hq => hkeep' q (hkeep q hq), ?_⟩
    · exact (exec_bind_ok hu).trans hv
    · rintro q ⟨b', hb', hq⟩
      rcases List.mem_cons.mp hb' with rfl | hmem
      · exact hkeep' q (hset q hq)
      · exact hset' q ⟨b', hmem, hq⟩

section LoadAll

variable {listdir : (Path → Option B) → Path → List Path} {directories : List Path}

/-- All plugins are registered or trashed, if all archives are contained. -/
theorem settles_loadAll (hlists : Lists P listdir directories s)
    (hcontained : ∀ q b, Found P directories q → s.files q = some b →
      Contained P isLoadError none b) :
    Settles s (loadAll P listdir directories) (Found P directories) := by
  have hdirectory : ∀ directory ∈ directories,
      Settles s (do
        let s ← get
        (listdir s.files directory).forM fun file => when (".mbp".toList <:+ file)
          (loadFile P (abspath P.cwd (OsPath.join directory file))))
        fun q => ∃ file, ".mbp".toList <:+ file ∧ '/' ∉ file ∧
          q = abspath P.cwd (OsPath.join directory file) := by
    intro directory hdir t ht
    have hlist := hlists t.files ht.files directory hdir
    -- each file of the listing is tried, and only those that are still there are listed
    have hfiles : Settles s ((listdir t.files directory).forM fun file =>
        when (".mbp".toList <:+ file) (loadFile P (abspath P.cwd (OsPath.join directory file))))
        fun q => ∃ file ∈ listdir t.files directory, ".mbp".toList <:+ file ∧
          q = abspath P.cwd (OsPath.join directory file) := by
      refine settles_forM _ fun file hfile u hu => ?_
      by_cases hmbp : ".mbp".toList <:+ file
      · have hnormal := abspath_abspath P.cwd_absolute (OsPath.join directory file)
        have hslash := ((hlist file hmbp).mp hfile).1
        have hone := settles_loadFile (P := P) hnormal hnormal fun b hb =>
          hcontained _ b ⟨directory, hdir, file, hmbp, hslash, rfl⟩ hb
        obtain ⟨v, hv, hload, hkeep, hset⟩ := hone u hu
        refine ⟨v, ?_, hload, hkeep, fun q hq => hset q hq.2⟩
        rw [when, if_pos hmbp]
        exact hv
      · refine ⟨u, ?_, hu, fun _ hq => hq, fun q hq => absurd hq.1 hmbp⟩
        rw [when, if_neg hmbp]
        rfl
    obtain ⟨u, hu, hload, hkeep, hset⟩ := hfiles t ht
    refine ⟨u, hu, hload, hkeep, ?_⟩
    rintro q ⟨file, hmbp, hslash, rfl⟩
    -- a file that is gone needs no try
    by_cases hthere : t.files (abspath P.cwd (OsPath.join directory file)) = none
    · exact hkeep _ (.inl hthere)
    · exact hset _ ⟨file, (hlist file hmbp).mpr ⟨hslash, hthere⟩, hmbp, rfl⟩
  exact settles_forM directories hdirectory

/-- A file that is there, and of which nothing is known. -/
structure Unread (b : B) (p : Path) (s : Loaders B E M) : Prop where
  file  : s.files p = some b
  path  : s.pathCache p = none
  table : s.directoryCache p = none

/-- A file that is still unread is not settled. -/
theorem Unread.not_settled (h : Unread b p s) : ¬ Settled s p := by
  rintro (hgone | ⟨l, m, hl, -⟩)
  · rw [h.file] at hgone
    cases hgone
  · rw [h.path] at hl
    cases hl

/-- A file that is tried in vain raises what its archive does, and others do not change that. -/
theorem unread_loadFile {path : Path} {e : PyExc} (hnormal : abspath P.cwd p = p)
    (he : preloadArchive P none b = .error e) (hq : isLoadError e = false) :
    Triple (Unread b p) (loadFile P path) (fun _ => Unread b p) fun _ => True := by
  intro t ht
  unfold loadFile
  rw [exec_attempt_getLoader]
  rcases eq_or_ne (abspath P.cwd path) p with hp | hp
  · -- the file itself: its error is no load error, so it ends the loop
    have hbytes : t.bytesAt P p = some b := by
      rw [Loaders.bytesAt, hnormal]
      exact ht.file
    rw [hp, ht.path]
    rw [← ht.table] at he
    obtain ⟨t₁, hrun, -⟩ := exec_construct_error hbytes he
    dsimp only
    rw [hrun]
    simp [hq]
  · -- another file: the constructor has only that file's path in hand
    have hkept : ∀ t₁, Tried (abspath P.cwd path) t t₁ → t₁.pathCache p = t.pathCache p →
        Unread b p t₁ := fun t₁ htried hpaths =>
      ⟨(congrFun htried.files p).trans ht.file, hpaths.trans ht.path,
        (htried.tables p hp.symm).trans ht.table⟩
    cases hmiss : t.pathCache (abspath P.cwd path) with
    | some l => exact ht
    | none =>
      have hconstruct := tried_construct (P := P) (abspath P.cwd path) t
      dsimp only
      rcases hrun : (construct P (abspath P.cwd path)).exec t with ⟨e' | l, t₁⟩
      · rw [hrun] at hconstruct
        have hunread := hkept t₁ hconstruct.1 (hconstruct.2 p hp.symm)
        dsimp only
        by_cases hq' : isLoadError e' = true
        · rw [if_pos hq']
          exact ⟨(Function.update_of_ne hp.symm _ _).trans hunread.file, hunread.path,
            hunread.table⟩
        · rw [if_neg hq']
          trivial
      · rw [hrun] at hconstruct
        exact hkept t₁ hconstruct.1 (hconstruct.2 p hp.symm)

/-- An exception that is not expected leaves its file unread. -/
theorem unread_loadAll {e : PyExc} (hnormal : abspath P.cwd p = p)
    (he : preloadArchive P none b = .error e) (hq : isLoadError e = false) :
    Triple (Unread b p) (loadAll P listdir directories) (fun _ => Unread b p) fun _ => True := by
  refine triple_forM fun directory _ => triple_read fun s _ => triple_forM fun file _ => ?_
  by_cases hmbp : ".mbp".toList <:+ file
  · rw [when, if_pos hmbp]
    exact unread_loadFile hnormal he hq
  · rw [when, if_neg hmbp]
    exact triple_pure fun _ h => h

/-- **The program starts** with all plugins registered or trashed exactly if what is raised for
    each of the archives in its directories is handled. -/
theorem settled_loadAll_iff (hlists : Lists P listdir directories s) (h : Started s) :
    (∃ t, (loadAll P listdir directories).exec s = (.ok (), t) ∧
        ∀ q, Found P directories q → Settled t q) ↔
      ∀ q b, Found P directories q → s.files q = some b → Contained P isLoadError none b := by
  constructor
  · rintro ⟨t, hrun, hsettled⟩ q b hfound hb e he
    by_contra hq
    have hnormal : abspath P.cwd q = q := by
      obtain ⟨directory, -, file, -, -, rfl⟩ := hfound
      exact abspath_abspath P.cwd_absolute _
    have hunread : Unread b q s := ⟨hb, h.pathCache q, h.tables q⟩
    have htriple : Triple (Unread b q) (loadAll P listdir directories) (fun _ => Unread b q)
        fun _ => True := unread_loadAll hnormal he (by simpa using hq)
    have hend := htriple s hunread
    rw [hrun] at hend
    exact hend.not_settled (hsettled q hfound)
  · intro hcontained
    obtain ⟨t, hrun, -, -, hset⟩ := settles_loadAll hlists hcontained s h.loading
    exact ⟨t, hrun, hset⟩

end LoadAll

/-- **Archives that cannot be read**: a new plugin, and all that are there when the program starts,
    are registered or trashed exactly if what is raised for them is handled. -/
theorem settled_iff (P : Platform B E C Y M) (U : Uploads) :
    (∀ (s : Loaders B E M) (content : B) (pid : String) (version : Version)
        (db : Option DatabaseType), verifyMeta P content = .ok (pid, version, db) →
      s.idCache pid = none →
        (Settled ((uploadNewPlugin P U content pid version {}).exec s).2
            (abspath P.cwd (uploadPath U.directory pid version)) ↔
          Uploadable P U s content pid version)) ∧
    (∀ (s : Loaders B E M) (listdir : (Path → Option B) → Path → List Path)
        (directories : List Path), Lists P listdir directories s → Started s →
      ((∃ t, (loadAll P listdir directories).exec s = (.ok (), t) ∧
          ∀ q, Found P directories q → Settled t q) ↔
        ∀ q b, Found P directories q → s.files q = some b → Contained P isLoadError none b)) :=
  ⟨fun _ _ _ _ _ hverify hfree => settled_uploadNew_iff hverify hfree,
    fun _ _ _ hlists h => settled_loadAll_iff hlists h⟩

/-! ### A main module that does not compile -/

open ZipTest TablesTest

namespace StartupTest

/-- The compiler raises a `SyntaxError` for every module. -/
def broken : Platform PluginMeta Unit PluginMeta PluginMeta Unit :=
  { platform with compileSource := fun _ _ => .error ⟨.syntaxError, "invalid syntax"⟩ }

def path : Path := "/p/echo-v1.mbp".toList

def listPlugins (files : Path → Option PluginMeta) (directory : Path) : List Path :=
  ["echo-v1.mbp".toList].filter fun file =>
    (files (abspath "/".toList (OsPath.join directory file))).isSome

/-- A file is there when the program starts. -/
def found : Loaders PluginMeta Unit Unit :=
  { startup with files := Function.update (fun _ => none) path (some echo) }

/-- There is one file in the world of the witness. -/
theorem files_found {q : Path} (h : q ≠ path) : found.files q = none := by
  have hfiles : found.files = Function.update (fun _ => none) path (some echo) := rfl
  rw [hfiles]
  exact Function.update_of_ne h _ _

/-- The program has just started there, -/
theorem started_found : Started found :=
  ⟨⟨fun _ => rfl, fun _ => rfl, fun _ => rfl⟩, fun _ => rfl⟩

/-- and lists its directory. -/
theorem lists_found (P : Platform PluginMeta Unit PluginMeta PluginMeta Unit)
    (hcwd : P.cwd = "/".toList) : Lists P listPlugins ["/p".toList] found := by
  intro files hfiles directory hdir file hmbp
  obtain rfl := List.mem_singleton.mp hdir
  rw [hcwd, listPlugins, List.mem_filter, List.mem_singleton, Option.isSome_iff_ne_none]
  constructor
  · rintro ⟨rfl, hsome⟩
    exact ⟨by decide, hsome⟩
  · rintro ⟨hslash, hsome⟩
    refine ⟨?_, hsome⟩
    have hpath : abspath "/".toList (OsPath.join "/p".toList file) = path := by
      rcases hfiles (abspath "/".toList (OsPath.join "/p".toList file)) with heq | hgone
      · rw [heq] at hsome
        by_contra hne
        exact hsome (files_found hne)
      · exact absurd hgone hsome
    have habs : OsPath.join "/".toList (OsPath.join "/p".toList file) =
        OsPath.join "/p".toList file := OsPath.join_absolute (OsPath.absolute_join rfl)
    have hnormal : path = OsPath.normpath path := rfl
    rw [abspath, habs, hnormal, OsPath.normpath_eq_iff] at hpath
    have hproper : OsPath.Proper file ∧ file ≠ ['.', '.'] := by
      refine ⟨⟨?_, ?_, hslash⟩, ?_⟩
      all_goals
        rintro rfl
        exact absurd hmbp (by decide)
    have hcomps := OsPath.comps_join (d := "/p".toList) rfl hproper.1 hproper.2
    rw [hpath] at hcomps
    have hlast : [file] = ["echo-v1.mbp".toList] := List.append_cancel_left hcomps.symm
    exact List.singleton_inj.mp hlast

end StartupTest

open StartupTest in
/-- A plugin that can be read is registered, when it is uploaded and when the program starts. -/
theorem settled_iff_echo :
    Settled ((uploadNewPlugin platform uploads echo "echo" ⟨"1"⟩ {}).exec startup).2 path ∧
    ∃ t, (loadAll platform listPlugins ["/p".toList]).exec found = (.ok (), t) ∧
      ∀ q, Found platform ["/p".toList] q → Settled t q := by
  have hreads : ∀ q b, found.files q = some b → Contained platform isLoadError none b := by
    intro q b hb
    have hq : q = path := by
      by_contra hne
      rw [files_found hne] at hb
      cases hb
    subst hq
    obtain rfl := Option.some.inj hb
    intro e he
    cases he
  refine ⟨((settled_iff platform uploads).1 startup echo "echo" ⟨"1"⟩ none rfl rfl).mpr ?_,
    ((settled_iff platform uploads).2 found listPlugins ["/p".toList] (lists_found platform rfl)
      started_found).mpr fun q b _ hb => hreads q b hb⟩
  intro e he
  cases he

open StartupTest in
/-- An upload that cannot be compiled stays, and the program does not start any more. -/
theorem not_settled_syntaxError :
    verifyMeta broken echo = .ok ("echo", ⟨"1"⟩, none) ∧ startup.idCache "echo" = none ∧
    ¬ Settled ((uploadNewPlugin broken uploads echo "echo" ⟨"1"⟩ {}).exec startup).2 path ∧
    ((loadAll broken listPlugins ["/p".toList]).exec found).1 =
      .error ⟨.syntaxError, "invalid syntax"⟩ := by
  refine ⟨rfl, rfl, ?_, by decide⟩
  rintro (hgone | ⟨l, m, hl, -⟩)
  · exact absurd hgone (by decide)
  · have hnone : ((uploadNewPlugin broken uploads echo "echo" ⟨"1"⟩ {}).exec startup).2.pathCache
        path = none := by decide
    rw [hnone] at hl
    cases hl

end ZipLoader

end Maubot
