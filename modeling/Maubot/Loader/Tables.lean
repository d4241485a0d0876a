import Maubot.Lib.Runs
import Maubot.Loader.Frames
import Maubot.Management.PluginUpload

namespace Maubot

/-!
# Zipped plugins — the tables of the importers

An importer looks modules up in a table, which it takes from a cache keyed by the path of the
archive, and then reads at the places that the table gives.  `reload` reads the table anew;
`__init__` does not, and not every way to leave a path clears its entry.

* `Right` — code was read only with the table of the bytes that were there;
* `right_of_reload` — so it is whenever a plugin is reloaded;
* `right_of_clean` — and when one is constructed, exactly if there is no table of another
  archive in the cache.
-/

open Prog

namespace ZipLoader

open Zipimport

variable {B E C Y M : Type} {P : Platform B E C Y M} {U : Uploads} {s s' : Loaders B E M}
  {self : Ref}

/-- Each read, while a plugin was constructed or reloaded, was with the directory of the bytes
    at the path. -/
def Right (P : Platform B E C Y M) (s : Loaders B E M) : Prop :=
  ∀ r ∈ s.reads, ∃ b, r.bytes = some b ∧ P.readDirectory b = .ok r.files

/-- The table of an importer is that of the archive. -/
def Current (P : Platform B E C Y M) (importer : Importer E) (s : Loaders B E M) : Prop :=
  ∃ b, s.bytesAt P importer.archive = some b ∧ P.readDirectory b = .ok importer.files

/-! ### Steps that read no code -/

/-- Neither a read nor a change of a file. -/
def still : Frame (Loaders B E M) := .ofView fun s => (s.reads, s.files)

/-- What `still` compares: what was read, the loaders' paths and the files. -/
theorem still_iff : (still (B := B) (E := E) (M := M)).rel s s' ↔
    s'.reads = s.reads ∧ s'.files = s.files := Prod.mk.injEq _ _ _ _ ▸ Iff.rfl

/-- A field of a loader besides its path may be set. -/
theorem still_setLoader (f : Loader B E → Loader B E) :
    Keeps still (setLoader self f : Method B E M Unit) := fun _ => rfl

/-- Metadata are read outside of what is recorded. -/
theorem still_loadMeta : Keeps still (loadMeta P self) :=
  keeps_bind keeps_get fun _ => keeps_bind (keeps_outcome _) fun _ =>
    keeps_bind (keeps_when (keeps_throw _)) fun _ => keeps_bind (still_setLoader _) fun _ =>
    keeps_bind (keeps_outcome _) fun _ => still_setLoader _

/-- So the parts of a load that record nothing are still. -/
theorem still_admits : Admits (still : Frame (Loaders B E M)) self where
  cache _ _   := rfl
  set f _ _ _ := still_setLoader f

/-- An importer that is given up is forgotten only. -/
theorem still_abandon {α : Type} (importer : Importer E) (e : PyExc) :
    Keeps still (abandon importer e : Method B E M α) :=
  keeps_bind (keeps_modify fun _ => rfl) fun _ => keeps_throw e

/-- Making an importer records nothing. -/
theorem still_getImporter (reset : Bool) : Keeps still (getImporter P self reset) :=
  still_admits.getImporter reset

/-- Unloading records nothing. -/
theorem still_unload : Keeps still (unload P self) := by
  refine keeps_bind keeps_get fun s => ?_
  dsimp only
  split
  · exact keeps_throw _
  · exact keeps_bind (keeps_modify fun _ => rfl) fun _ => keeps_bind (still_setLoader _) fun _ =>
      keeps_bind (keeps_present _) fun _ => keeps_pure _

/-- Neither does another path. -/
theorem still_move (path : Path) : Keeps still (move self path : Method B E M Unit) :=
  keeps_bind keeps_get fun _ => keeps_when <|
    keeps_bind (keeps_modify fun _ => rfl) fun _ => keeps_bind (still_setLoader _) fun _ =>
    keeps_modify fun _ => rfl

/-- Nor a registration. -/
theorem still_register (path : Path) : Keeps still (register self path : Method B E M Unit) := by
  refine keeps_bind keeps_get fun s => keeps_bind (keeps_present _) fun m => ?_
  split
  · exact keeps_throw _
  · exact keeps_bind (still_setLoader _) fun _ => keeps_modify fun _ => rfl

/-- What was read from the right table stays right. -/
theorem Right.still (h : Right P s) (hs : (still (B := B) (E := E) (M := M)).rel s s') :
    Right P s' := by
  unfold Right
  rw [(still_iff.mp hs).1]
  exact h

/-- An importer that is current stays so. -/
theorem Current.still {importer : Importer E} (h : Current P importer s)
    (hs : (ZipLoader.still (B := B) (E := E) (M := M)).rel s s') : Current P importer s' := by
  unfold Current Loaders.bytesAt
  rw [(still_iff.mp hs).2]
  exact h

/-! ### Reading through an importer -/

/-- All reads were right, and those that this importer makes will be. -/
structure Good (P : Platform B E C Y M) (importer : Importer E) (s : Loaders B E M) : Prop where
  right   : Right P s
  current : Current P importer s

def good (P : Platform B E C Y M) (importer : Importer E) : Frame (Loaders B E M) :=
  .ofInv (Good P importer)

/-- A program that is still is good for every importer. -/
theorem good_of_still {α : Type} {m : Method B E M α} (h : Keeps ZipLoader.still m)
    (importer : Importer E) : Keeps (good P importer) m := fun s hg =>
  ⟨hg.right.still (h s), hg.current.still (h s)⟩

/-- Code that is read through a current importer is read from the right table. -/
theorem good_readCode (record : Bool) (importer : Importer E) (name : Path) :
    Keeps (good P importer) (readCode P record importer name) := by
  refine keeps_get_bind fun s hg => ?_
  dsimp only
  cases record with
  | false => exact good_of_still (keeps_outcome _) importer s hg
  | true =>
    rw [when, if_pos rfl, exec_modify_bind, exec_outcome]
    obtain ⟨b, hb, hread⟩ := hg.current
    refine ⟨fun r hr => ?_, ⟨b, hb, hread⟩⟩
    rcases List.mem_append.mp hr with hr | hr
    · exact hg.right r hr
    · obtain rfl := List.mem_singleton.mp hr
      exact ⟨b, hb, hread⟩

/-- So every part of a load is good. -/
theorem good_admits (importer : Importer E) : Admits (good P importer) self where
  cache _ _     := fun hg => ⟨hg.right, hg.current⟩
  set f _ _ _   := good_of_still (still_setLoader f) importer

/-! ### Reloading -/

/-- After `reset_cache` the table is the current one. -/
theorem current_resetCache {importer importer' : Importer E}
    (h : (resetCache P self importer).exec s = (.ok importer', s')) : Current P importer' s' := by
  unfold resetCache at h
  rw [exec_get_bind] at h
  unfold Current
  cases hb : s.bytesAt P importer.archive with
  | none =>
    rw [hb] at h
    cases h
  | some b =>
    rw [hb] at h
    cases hread : P.readDirectory b with
    | error e =>
      simp only [Zipimport.readDirectory, hread] at h
      cases h
    | ok files =>
      simp only [Zipimport.readDirectory, hread] at h
      cases h
      exact ⟨b, hb, hread⟩

/-- What an `except` lets through was returned by the body. -/
theorem exec_except_ok {α : Type} {p : PyExc → Bool} {m : Method B E M α} {e : PyExc} {a : α}
    (h : (except p m (throw e)).exec s = (.ok a, s')) : m.exec s = (.ok a, s') := by
  unfold except at h
  rw [exec_bind, exec_attempt] at h
  rcases hm : m.exec s with ⟨e' | a', t⟩
  · rw [hm] at h
    dsimp only at h
    cases hp : p e' <;> simp only [hp] at h <;> cases h
  · rw [hm] at h
    exact h

/-- An importer that is made anew is current. -/
theorem current_getImporter {importer : Importer E}
    (h : (getImporter P self true).exec s = (.ok importer, s')) : Current P importer s' := by
  obtain ⟨i, t, -, hreset⟩ := exec_bind_eq_ok (exec_except_ok h)
  exact current_resetCache hreset

/-- From the importer on, all that a method reads is right. -/
theorem right_of_importer {α : Type} {reset : Bool} {rest : Importer E → Method B E M α}
    (hrest : ∀ i, Keeps (good P i) (rest i)) (h : Right P s)
    (hcurrent : ∀ i t, (getImporter P self reset).exec s = (.ok i, t) → Current P i t) :
    Right P ((getImporter P self reset >>= rest).exec s).2 := by
  have hstill : still.rel s ((getImporter P self reset).exec s).2 := still_getImporter reset s
  rw [exec_bind]
  rcases hrun : (getImporter P self reset).exec s with ⟨e | i, t⟩
  · rw [hrun] at hstill
    exact h.still hstill
  · rw [hrun] at hstill
    exact (hrest i t ⟨h.still hstill, hcurrent i t hrun⟩).right

/-- The frame of the methods that keep all reads right. -/
def right (P : Platform B E C Y M) : Frame (Loaders B E M) := .ofInv (Right P)

/-- A program that is still leaves what was read right. -/
theorem right_of_still {α : Type} {m : Method B E M α} (h : Keeps still m) : Keeps (right P) m :=
  fun s hr => hr.still (h s)

/-- So does a class that is loaded with its caches reset. -/
theorem right_loadClass : Keeps (right P) (loadClass P self true) := by
  refine keeps_bind (right_of_still still_loadMeta) fun _ s h => right_of_importer (fun i => ?_) h
    fun i t => current_getImporter
  have hadmits : Admits (good P i) self := good_admits i
  exact keeps_bind (hadmits.runPreloadChecks fun _ => good_readCode _ _ _) fun _ =>
    keeps_bind keeps_get fun _ => keeps_bind (keeps_present _) fun _ =>
    keeps_bind (keeps_forM fun _ _ => hadmits.loadModule (good_readCode _ _ _)
      fun _ _ _ hg => ⟨hg.right, hg.current⟩) fun _ =>
    keeps_bind (hadmits.findClass _ _ _) fun _ =>
    keeps_bind (good_of_still (still_setLoader _) i) fun _ => keeps_pure _

/-- **Reloading is always right**, wherever the loader was before. -/
theorem right_of_reload (newPath : Option Path) : Keeps (right P) (reload P self newPath) := by
  have hload : Keeps (right P) (load P self true) := by
    refine keeps_bind keeps_get fun s => ?_
    split
    · exact right_loadClass
    · exact right_loadClass
  refine keeps_bind (right_of_still still_unload) fun _ => ?_
  cases newPath with
  | none => exact hload
  | some path => exact keeps_bind (right_of_still (still_move path)) fun _ => hload

/-! ### Without a record -/

/-- No read is recorded while a class is loaded for the first time. -/
def silent : Frame (Loaders B E M) := .ofView fun s => s.reads

/-- A program that is still reads nothing. -/
theorem silent_of_still {α : Type} {m : Method B E M α} (h : Keeps still m) : Keeps silent m :=
  fun s => (still_iff.mp (h s)).1

/-- Code that is read without a record is not recorded. -/
theorem silent_readCode (importer : Importer E) (name : Path) :
    Keeps silent (readCode P false importer name) :=
  keeps_bind keeps_get fun _ => keeps_bind (keeps_pure _) fun _ => keeps_outcome _

/-- So the parts of a silent load are silent. -/
theorem silent_admits : Admits (silent : Frame (Loaders B E M)) self where
  cache _ _   := rfl
  set f _ _ _ := silent_of_still (still_setLoader f)

/-- And all of it. -/
theorem silent_loadClass : Keeps silent (loadClass P self false) :=
  keeps_bind (silent_of_still still_loadMeta) fun _ =>
    silent_admits.importClass silent_readCode fun _ _ => rfl

/-! ### Constructing -/

/-- The archive can be read up to the name of its main module. -/
def Readable (P : Platform B E C Y M) (b : B) : Prop :=
  ∃ m x, readMeta P (.ok b) = .ok (b, m) ∧ mainOf m = .ok x

/-- There is no table for the path, or it is that of the archive there. -/
def Fresh (P : Platform B E C Y M) (path : Path) (s : Loaders B E M) : Prop :=
  ∀ b files, s.bytesAt P path = some b → Readable P b → s.directoryCache path = some files →
    P.readDirectory b = .ok files

/-- A sequence that succeeds has a first part that does. -/
theorem except_bind_eq_ok {α β : Type} {x : Except PyExc α} {f : α → Except PyExc β} {b : β}
    (h : (x >>= f) = .ok b) : ∃ a, x = .ok a ∧ f a = .ok b := by
  cases x with
  | error e => cases h
  | ok a => exact ⟨a, rfl, h⟩

/-- `_read_meta` returns the file that it was given. -/
theorem readMeta_fst {b file : B} {m : PluginMeta} (h : readMeta P (.ok b) = .ok (file, m)) :
    file = b := by
  unfold readMeta at h
  obtain ⟨f, hf, h⟩ := except_bind_eq_ok h
  obtain ⟨data, -, h⟩ := except_bind_eq_ok h
  obtain ⟨y, -, h⟩ := except_bind_eq_ok h
  obtain ⟨m', -, h⟩ := except_bind_eq_ok h
  cases hf
  split at h
  · cases h
  · cases h
    rfl

/-- A loader whose metadata were loaded. -/
def withMeta (l : Loader B E) (m : PluginMeta) (x : String × String) (b : B) : Loader B E :=
  { l with pluginMeta := some m, mainModule := some x.1, mainClass := some x.2, file := some b }

/-- Metadata that are loaded are those of the file at the loader's path. -/
theorem exec_loadMeta_ok (h : (loadMeta P self).exec s = (.ok (), s')) :
    ∃ p b m x, (s.loaders.get self).path = some p ∧ s.bytesAt P p = some b ∧
      readMeta P (.ok b) = .ok (b, m) ∧ mainOf m = .ok x ∧
      s' = { s with loaders := s.loaders.modify self fun l => withMeta l m x b } := by
  unfold loadMeta at h
  rw [exec_get_bind] at h
  dsimp only at h
  cases hp : (s.loaders.get self).path with
  -- without a path nothing is opened,
  | none =>
    rw [hp] at h
    cases h
  | some p =>
    cases hb : s.bytesAt P p with
    -- nor without a file
    | none =>
      simp only [hp, openPath, hb] at h
      cases h
    | some b =>
      simp only [hp, openPath, hb] at h
      rcases hread : readMeta P (.ok b) with e | ⟨file, m⟩
      · rw [hread] at h
        cases h
      · obtain rfl := readMeta_fst hread
        rw [hread, exec_bind_ok (exec_outcome _ _)] at h
        dsimp only at h
        obtain ⟨_, t, ht, hrest⟩ := exec_bind_eq_ok h
        -- the check of the id changes nothing
        have hts : t = s := by
          unfold when at ht
          split at ht <;> cases ht
          rfl
        subst hts
        cases hx : mainOf m with
        | error e =>
          rw [hx] at hrest
          cases hrest
        | ok x =>
          rw [hx] at hrest
          have hs' : s' = { t with loaders := (t.loaders.modify self fun l =>
              { l with pluginMeta := some m }).modify self fun l =>
                { l with mainModule := some x.1, mainClass := some x.2, file := some file } } := by
            cases hrest
            rfl
          rw [Store.modify_modify] at hs'
          exact ⟨p, file, m, x, rfl, hb, hread, hx, hs'⟩

/-- The metadata of a readable archive are loaded. -/
theorem exec_loadMeta_readable {p : Path} {b : B} (hp : (s.loaders.get self).path = some p)
    (hnone : (s.loaders.get self).pluginMeta = none) (hb : s.bytesAt P p = some b)
    (hr : Readable P b) : ∃ t, (loadMeta P self).exec s = (.ok (), t) := by
  obtain ⟨m, x, hread, hx⟩ := hr
  unfold loadMeta
  rw [exec_get_bind]
  have hsame : ¬ ∃ old, (s.loaders.get self).pluginMeta = some old ∧ m.id ≠ old.id := by
    rintro ⟨old, hold, -⟩
    rw [hnone] at hold
    cases hold
  simp only [hp, openPath, hb]
  rw [hread, exec_bind_ok (exec_outcome _ _)]
  dsimp only
  rw [when, if_neg hsame, exec_pure_bind, hx]
  exact ⟨_, rfl⟩

/-- The importer of a new loader. -/
theorem exec_getImporter_new {p : Path} (hp : (s.loaders.get self).path = some p)
    (hnone : (s.loaders.get self).importer = none) {i : Importer E}
    (h : (getImporter P self false).exec s = (.ok i, s')) :
    i.archive = p ∧ ∃ b, s.bytesAt P p = some b ∧
      (s.directoryCache p = some i.files ∨ P.readDirectory b = .ok i.files) := by
  obtain ⟨i', t, hown, hpure⟩ := exec_bind_eq_ok (exec_except_ok h)
  obtain rfl : i' = i := by
    cases hpure
    rfl
  unfold ownImporter at hown
  rw [exec_get_bind] at hown
  simp only [hnone, ownImporter.make, hp, Option.getD_some] at hown
  obtain ⟨i, t', hzip, hset⟩ := exec_bind_eq_ok hown
  obtain rfl : i = i' := by
    cases hset
    rfl
  unfold zipimporter at hzip
  rw [exec_get_bind] at hzip
  -- without a cached table the archive is read
  cases hb : s.bytesAt P p with
  | none =>
    rw [hb] at hzip
    cases hzip
  | some b =>
    cases hc : s.directoryCache p with
    | some files =>
      simp only [hb, hc] at hzip
      cases hzip
      exact ⟨rfl, b, rfl, .inl rfl⟩
    | none =>
      cases hread : P.readDirectory b with
      | error e =>
        simp only [hb, hc, hread] at hzip
        cases hzip
      | ok files =>
        simp only [hb, hc, hread] at hzip
        cases hzip
        exact ⟨rfl, b, rfl, .inr hread⟩

/-- A handler does not run after a success. -/
theorem exec_except_of_ok {α : Type} {p : PyExc → Bool} {m handler : Method B E M α} {a : α}
    (h : m.exec s = (.ok a, s')) : (except p m handler).exec s = (.ok a, s') := by
  unfold except
  rw [exec_bind, exec_attempt, h]
  rfl

def withImporter (self : Ref) (i : Importer E) (s : Loaders B E M) : Loaders B E M :=
  { s with loaders := s.loaders.modify self fun l => { l with importer := some i } }

/-- With a table in the cache, there is an importer with this table. -/
theorem exec_getImporter_cached {p : Path} {b : B} {files : Files E}
    (hp : (s.loaders.get self).path = some p) (hnone : (s.loaders.get self).importer = none)
    (hb : s.bytesAt P p = some b) (hc : s.directoryCache p = some files) :
    (getImporter P self false).exec s = (.ok ⟨p, files⟩, withImporter self ⟨p, files⟩ s) := by
  have hzip : (zipimporter P p).exec s = (.ok ⟨p, files⟩, s) := by
    unfold zipimporter
    rw [exec_get_bind]
    simp only [hb, hc]
    rfl
  have hown : (ownImporter P self).exec s = (.ok ⟨p, files⟩, withImporter self ⟨p, files⟩ s) := by
    unfold ownImporter
    rw [exec_get_bind]
    simp only [hnone, ownImporter.make, hp, Option.getD_some]
    rw [exec_bind_ok hzip]
    rfl
  refine exec_except_of_ok ?_
  rw [exec_bind_ok hown]
  rfl

/-- What follows a program and reads no code adds no read. -/
theorem reads_bind {α β : Type} {m : Method B E M α} {rest : α → Method B E M β}
    (h : ∀ a, Keeps silent (rest a)) :
    ((m >>= rest).exec s).2.reads = (m.exec s).2.reads :=
  rel_bind h s

/-- A read is recorded with the table of the importer and the bytes of the archive. -/
theorem exec_readCode (i : Importer E) (name : Path) (s : Loaders B E M) :
    ((readCode P true i name).exec s).2.reads =
      s.reads ++ [⟨i.archive, i.files, s.bytesAt P i.archive⟩] := by
  unfold readCode
  rw [exec_get_bind]
  dsimp only
  rw [when, if_pos rfl, exec_modify_bind, exec_outcome]

/-- `_run_preload_checks` reads code once. -/
theorem reads_runPreloadChecks {i : Importer E} {module : String}
    (h : (s.loaders.get self).mainModule = some module) :
    ((runPreloadChecks P true self i).exec s).2.reads =
      s.reads ++ [⟨i.archive, i.files, s.bytesAt P i.archive⟩] := by
  have hpresent : (present (s.loaders.get self).mainModule : Method B E M String).exec s =
      (.ok module, s) := by
    rw [h]
    rfl
  unfold runPreloadChecks
  rw [exec_get_bind]
  dsimp only
  rw [exec_bind_ok hpresent, reads_bind fun _ => ?_]
  · unfold except
    rw [reads_bind, exec_attempt_snd, exec_readCode]
    intro r
    cases r with
    | ok a => exact keeps_pure a
    | error e => exact silent_of_still (still_abandon _ _)
  · exact silent_of_still <| keeps_bind (keeps_when (still_abandon _ _)) fun _ =>
      keeps_bind (keeps_present _) fun _ => keeps_forM fun _ _ =>
      keeps_bind (keeps_except (keeps_outcome _) (still_abandon _ _)) fun _ => keeps_pure _

/-- The state in which `__init__` begins. -/
def allocated (path : Path) (s : Loaders B E M) : Loaders B E M :=
  { s with loaders := s.loaders.alloc { path := some path } }

/-- A new loader has its path and nothing else. -/
theorem get_allocated (path : Path) (s : Loaders B E M) :
    (allocated path s).loaders.get s.loaders.next = { path := some path } :=
  Store.get_alloc_self _ _

/-- Registering a loader reads no code. -/
theorem reads_construct (path : Path) (s : Loaders B E M) :
    ((construct P path).exec s).2.reads =
      ((preload P s.loaders.next).exec (allocated path s)).2.reads := by
  unfold construct
  rw [exec_get_bind]
  dsimp only
  rw [exec_modify_bind]
  exact reads_bind fun _ => silent_of_still <|
    keeps_bind (still_register path) fun _ => keeps_pure _

/-- The state after the metadata of a new loader were loaded. -/
theorem exec_loadMeta_new {path : Path} {t : Loaders B E M}
    (h : (loadMeta P s.loaders.next).exec (allocated path s) = (.ok (), t)) :
    ∃ b m x, s.bytesAt P path = some b ∧ Readable P b ∧ t.bytesAt P path = some b ∧
      t.directoryCache = s.directoryCache ∧ t.reads = s.reads ∧
      t.loaders.get s.loaders.next = withMeta { path := some path } m x b := by
  obtain ⟨p, b, m, x, hp, hb, hread, hx, rfl⟩ := exec_loadMeta_ok h
  rw [get_allocated] at hp
  obtain rfl := Option.some.inj hp
  refine ⟨b, m, x, hb, ⟨m, x, hread, hx⟩, hb, rfl, rfl, ?_⟩
  have hget := Store.get_modify_self (allocated path s).loaders s.loaders.next
    fun l => withMeta l m x b
  rw [get_allocated] at hget
  exact hget

/-- A new loader reads right, if its table is fresh. -/
theorem right_construct (h : Right P s) {path : Path} (hf : Fresh P path s) :
    Right P ((construct P path).exec s).2 := by
  unfold Right
  rw [reads_construct]
  show Right P ((preload P s.loaders.next).exec (allocated path s)).2
  have hstill : still.rel (allocated path s)
      ((loadMeta P s.loaders.next).exec (allocated path s)).2 := still_loadMeta _
  unfold preload
  rw [exec_bind]
  rcases hload : (loadMeta P s.loaders.next).exec (allocated path s) with ⟨e | _, t⟩
  · rw [hload] at hstill
    exact Right.still h hstill
  · rw [hload] at hstill
    -- the metadata were read from the file that the importer reads as well
    obtain ⟨b, m, x, hb, hr, hbt, hcache, -, hget⟩ := exec_loadMeta_new hload
    have hcode : ∀ i, Keeps (good P i) (runPreloadChecks P true s.loaders.next i) := fun i =>
      (good_admits i).runPreloadChecks fun _ => good_readCode _ _ _
    refine right_of_importer hcode (Right.still h hstill) fun i t' hrun => ?_
    have hfiles : still.rel t ((getImporter P s.loaders.next false).exec t).2 :=
      still_getImporter false t
    rw [hrun] at hfiles
    have hpath : (t.loaders.get s.loaders.next).path = some path := by rw [hget]; rfl
    have hnone : (t.loaders.get s.loaders.next).importer = none := by rw [hget]; rfl
    obtain ⟨harchive, b', hb', hor⟩ := exec_getImporter_new hpath hnone hrun
    obtain rfl : b = b' := Option.some.inj (hbt.symm.trans hb')
    refine Current.still ⟨b, by rw [harchive]; exact hbt, ?_⟩ hfiles
    -- its directory is read now, or is the cached one, which is that of the same bytes
    rcases hor with hc | hread
    · rw [hcache] at hc
      exact hf b i.files hb hr hc
    · exact hread

/-- With the table of another archive, the code is read at the wrong places. -/
theorem not_right_construct {path : Path} (hf : ¬ Fresh P path s) :
    ¬ Right P ((construct P path).exec s).2 := by
  simp only [Fresh, not_forall] at hf
  obtain ⟨b, files, hb, hr, hc, hne⟩ := hf
  have hpath : ((allocated path s).loaders.get s.loaders.next).path = some path := by
    rw [get_allocated]
  have hmeta : ((allocated path s).loaders.get s.loaders.next).pluginMeta = none := by
    rw [get_allocated]
  obtain ⟨t, hload⟩ := exec_loadMeta_readable (s := allocated path s) hpath hmeta hb hr
  obtain ⟨b', m, x, hb', -, hbt, hcache, -, hget⟩ := exec_loadMeta_new hload
  obtain rfl : b = b' := Option.some.inj (hb.symm.trans hb')
  -- the new loader gets its table from the cache, and that is the stale one
  have himporter : (getImporter P s.loaders.next false).exec t = (.ok ⟨path, files⟩,
      withImporter s.loaders.next ⟨path, files⟩ t) := by
    refine exec_getImporter_cached ?_ ?_ hbt ?_
    · rw [hget]
      rfl
    · rw [hget]
      rfl
    · rw [hcache]
      exact hc
  have hmodule : ((withImporter s.loaders.next ⟨path, files⟩ t).loaders.get
      s.loaders.next).mainModule = some x.1 := by
    have hset := Store.get_modify_self t.loaders s.loaders.next
      fun l => { l with importer := some (⟨path, files⟩ : Importer E) }
    rw [hget] at hset
    exact congrArg Loader.mainModule hset
  intro hright
  unfold Right at hright
  rw [reads_construct] at hright
  unfold preload at hright
  rw [exec_bind_ok hload, exec_bind_ok himporter, reads_runPreloadChecks hmodule] at hright
  -- what it reads is recorded with a table that is not the archive's
  obtain ⟨b', hb', hread⟩ := hright _ (List.mem_append_right _ List.mem_cons_self)
  obtain rfl : b = b' := Option.some.inj (hbt.symm.trans hb')
  exact hne hread

/-! ### Runs -/

/-- What changes plugins: uploads, and what is done with a loader that is there. -/
inductive Change (B : Type)
  /-- a file that is found when the program starts -/
  | find (path : Path)
  | uploadNew (content : B) (pid : String) (version : Version) (a : Accidents)
  | replace (l : Ref) (content : B) (newVersion : Version) (now : Nat) (a : Accidents)
  | reload (l : Ref)
  /-- an instance starts -/
  | load (l : Ref)
  | delete (l : Ref) (raised : Option PyExc)

def change (P : Platform B E C Y M) (U : Uploads) (c : Change B) (s : Loaders B E M) :
    Loaders B E M :=
  match c with
  | .find path                         => ((getLoader P path).exec s).2
  | .uploadNew content pid version a   => ((uploadNewPlugin P U content pid version a).exec s).2
  | .replace l content newVersion now a =>
    ((uploadReplacementPlugin P U l content newVersion now a).exec s).2
  | .reload l                          => ((ZipLoader.reload P l none).exec s).2
  | .load l                            => ((ZipLoader.load P l false).exec s).2
  | .delete l raised                   => ((ZipLoader.delete P l raised).exec s).2

/-- A plugin is constructed from a path for which there is no table in the cache, or that of the
    archive. -/
def Clean (P : Platform B E C Y M) (U : Uploads) (s : Loaders B E M) (c : Change B) : Prop :=
  match c with
  | .find path                       =>
    s.pathCache (abspath P.cwd path) = none → Fresh P (abspath P.cwd path) s
  | .uploadNew content pid version a =>
    let path := abspath P.cwd (uploadPath U.directory pid version)
    a.write = none → s.pathCache path = none → Readable P content →
      ∀ files, s.directoryCache path = some files → P.readDirectory content = .ok files
  | _                                => True

/-- Only what was read matters. -/
theorem Right.of_reads (h : Right P s) (hr : s'.reads = s.reads) : Right P s' := by
  unfold Right
  rw [hr]
  exact h

/-- A file that goes to the trash was read before. -/
theorem right_trash (path : Path) (raised : Option PyExc) :
    Keeps (right P) (trash P path raised) :=
  keeps_bind (keeps_raiseIf _) fun _ => keeps_modify fun _ h => h

/-- A loader that is deleted reads nothing. -/
theorem right_delete (raised : Option PyExc) : Keeps (right P) (delete P self raised) := by
  refine keeps_bind (right_of_still still_unload) fun _ => keeps_bind keeps_get fun s =>
    keeps_bind (keeps_present _) fun _ => keeps_bind (keeps_modify fun _ h => h) fun _ =>
    keeps_bind (keeps_present _) fun _ => keeps_bind (keeps_modify fun _ h => h) fun _ => ?_
  have hset : ∀ f : Loader B E → Loader B E,
      Keeps (right P) (setLoader self f : Method B E M Unit) := fun f =>
    right_of_still (still_setLoader f)
  split
  · exact keeps_bind (hset _) fun _ => keeps_bind (right_trash _ _) fun _ => hset _
  · exact keeps_bind (keeps_modify fun _ h => h) fun _ => keeps_bind (hset _) fun _ =>
      keeps_bind (hset _) fun _ => keeps_bind (right_trash _ _) fun _ => hset _

/-- The rule for `finally`. -/
theorem right_finallyDo {body m : Method B E M Unit} (hb : Keeps (right P) body)
    (hm : Keeps (right P) m) : Keeps (right P) (finallyDo body m) :=
  keeps_bind (keeps_attempt hb _) fun _ => keeps_bind hm fun _ => keeps_outcome _

/-- **Updating is always right**, rolled back or not. -/
theorem right_replace (content : B) (newVersion : Version) (now : Nat) (a : Accidents) :
    Keeps (right P) (uploadReplacementPlugin P U self content newVersion now a) := by
  have hwrite : ∀ path, Keeps (right P) (writeFile P path content a.write) := fun _ =>
    keeps_bind (keeps_raiseIf _) fun _ => keeps_modify fun _ h => h
  refine keeps_bind keeps_get fun s => keeps_bind (keeps_present _) fun old =>
    keeps_bind (keeps_present _) fun m => keeps_bind (hwrite _) fun _ =>
    keeps_bind (keeps_raiseIf _) fun _ =>
    keeps_bind (keeps_attempt (right_of_reload _) _) fun r => ?_
  cases r with
  | error e =>
    refine keeps_bind (right_finallyDo ?_ (right_trash _ _)) fun _ => keeps_pure _
    exact keeps_bind (keeps_attempt (keeps_bind (right_of_reload _) fun _ => keeps_raiseIf _) _)
      fun _ => keeps_pure _
  | ok cls =>
    refine keeps_bind (keeps_attempt (keeps_raiseIf _) _) fun r => ?_
    cases r with
    | error e =>
      refine keeps_bind (right_finallyDo ?_ (right_trash _ _)) fun _ => keeps_pure _
      exact keeps_bind (keeps_attempt (keeps_bind (keeps_raiseIf _) fun _ =>
        keeps_bind (right_of_reload _) fun _ => keeps_raiseIf _) _) fun _ => keeps_pure _
    | ok _ => exact keeps_bind (right_trash _ _) fun _ => keeps_pure _

/-- `get` reads right exactly if it finds a loader or the table is fresh. -/
theorem right_getLoader_iff (h : Right P s) (path : Path) :
    Right P ((getLoader P path).exec s).2 ↔
      (s.pathCache (abspath P.cwd path) = none → Fresh P (abspath P.cwd path) s) := by
  unfold getLoader
  rw [exec_get_bind]
  cases hp : s.pathCache (abspath P.cwd path) with
  | some l => exact ⟨fun _ => nofun, fun _ => h⟩
  | none =>
    constructor
    · intro hright _
      by_contra hf
      exact not_right_construct hf hright
    · intro hf
      exact right_construct h (hf rfl)

/-- So does an upload of a new plugin. -/
theorem right_uploadNew_iff (h : Right P s) (content : B) (pid : String) (version : Version)
    (a : Accidents) : Right P ((uploadNewPlugin P U content pid version a).exec s).2 ↔
      Clean P U s (.uploadNew content pid version a) := by
  unfold uploadNewPlugin
  dsimp only [Clean]
  generalize uploadPath U.directory pid version = path
  cases hw : a.write with
  | some e => exact ⟨fun _ => nofun, fun _ => h⟩
  | none =>
    let s₁ : Loaders B E M :=
      { s with files := Function.update s.files (abspath P.cwd path) (some content) }
    have hwrite : (writeFile P path content none).exec s = (.ok (), s₁) := rfl
    rw [exec_bind_ok hwrite]
    -- the answer reads no code
    have hreads : ∀ (m : Method B E M Ref)
        (answer : Except PyExc Ref → Method B E M Management.Response),
        (∀ r, Keeps silent (answer r)) →
        (((attempt PyExc.isMaubotZipImportError m >>= answer).exec s₁).2).reads =
          (m.exec s₁).2.reads := by
      intro m answer hanswer
      rw [reads_bind hanswer, exec_attempt_snd]
    have hright : ∀ t t' : Loaders B E M, t.reads = t'.reads → (Right P t ↔ Right P t') :=
      fun t t' ht => ⟨fun hr => hr.of_reads ht.symm, fun hr => hr.of_reads ht⟩
    have hs₁ : Right P s₁ := h.of_reads rfl
    rw [hright _ _ (hreads _ _ fun r => ?_), right_getLoader_iff hs₁]
    · -- what is there is what was written
      have hbytes : s₁.bytesAt P (abspath P.cwd path) = some content := by
        unfold Loaders.bytesAt
        rw [abspath_abspath P.cwd_absolute]
        exact Function.update_self _ _ _
      constructor
      · intro hf _ hnone hr files hc
        exact hf hnone content files hbytes hr hc
      · intro hclean hnone b files hb hr hc
        obtain rfl : content = b := Option.some.inj (hbytes.symm.trans hb)
        exact hclean rfl hnone hr files hc
    · cases r with
      | ok l => exact keeps_pure _
      | error e =>
        exact keeps_bind (keeps_bind (keeps_raiseIf _) fun _ => keeps_modify fun _ => rfl)
          fun _ => keeps_pure _

/-- One step: the reads stay right exactly if the change is clean. -/
theorem right_change_iff (h : Right P s) (c : Change B) :
    Right P (change P U c s) ↔ Clean P U s c := by
  cases c with
  | find path => exact right_getLoader_iff h path
  | uploadNew content pid version a => exact right_uploadNew_iff h content pid version a
  | replace l content newVersion now a =>
    exact ⟨fun _ => trivial, fun _ => right_replace content newVersion now a s h⟩
  | reload l => exact ⟨fun _ => trivial, fun _ => right_of_reload none s h⟩
  | load l =>
    refine ⟨fun _ => trivial, fun _ => h.of_reads ?_⟩
    have hsilent : Keeps silent (ZipLoader.load P l false) := by
      refine keeps_bind keeps_get fun s => ?_
      split
      · exact keeps_ite silent_loadClass (keeps_pure _)
      · exact silent_loadClass
    exact hsilent s
  | delete l raised => exact ⟨fun _ => trivial, fun _ => right_delete raised s h⟩

/-- **The tables are those of the archives** in every run of clean changes: uploads, updates that
    succeed or are rolled back, reloads, loads and deletions.  Each change that is not clean
    reads code with the table of another archive. -/
theorem right_of_clean (P : Platform B E C Y M) (U : Uploads) (s₀ : Loaders B E M)
    (h₀ : s₀.reads = []) (s : Loaders B E M) (h : Reach (change P U) (Clean P U) s₀ s) :
    Right P s ∧ ∀ c, Right P (change P U c s) ↔ Clean P U s c := by
  have hstart : Right P s₀ := by
    unfold Right
    rw [h₀]
    exact fun r hr => absurd hr List.not_mem_nil
  have hright : Right P s := h.invariant hstart fun _ c hs hc => (right_change_iff hs c).mpr hc
  exact ⟨hright, fun c => right_change_iff hright c⟩

/-! ### A rebuilt archive -/

open ZipTest

namespace TablesTest

def uploads : Uploads := ⟨"/p".toList, fun v w => v = w⟩

def startup : Loaders PluginMeta Unit Unit where
  files _ := none
  directoryCache _ := none
  loaders := ⟨fun _ => { path := none }, 0⟩
  modules := ()

def echo₂ : PluginMeta := { echo with version := ⟨"2"⟩ }

/-- Version 1 again, with another file in it. -/
def rebuilt : PluginMeta := { echo with modules := ["extra", "echo"] }

def updated : Loaders PluginMeta Unit Unit :=
  change platform uploads (.replace 0 echo₂ ⟨"2"⟩ 0 {})
    (change platform uploads (.uploadNew echo "echo" ⟨"1"⟩ {}) startup)

def deleted : Loaders PluginMeta Unit Unit := change platform uploads (.delete 0 none) updated

/-- A clean change goes on with a run of clean changes. -/
theorem clean_step {s : Loaders PluginMeta Unit Unit} (c : Change PluginMeta)
    (h : Reach (change platform uploads) (Clean platform uploads) startup s)
    (hc : Clean platform uploads s c) :
    Reach (change platform uploads) (Clean platform uploads) startup
      (change platform uploads c s) := h.step c hc

/-- The run of the witness is one. -/
theorem reach_deleted :
    Reach (change platform uploads) (Clean platform uploads) startup deleted := by
  refine clean_step (.delete 0 none) (clean_step (.replace 0 echo₂ ⟨"2"⟩ 0 {})
    (clean_step (.uploadNew echo "echo" ⟨"1"⟩ {}) .start ?_) trivial) trivial
  intro _ _ _ files hc
  cases hc

end TablesTest

open TablesTest in
/-- Uploaded, updated and deleted; all three tables were those of the archives. -/
theorem right_of_clean_update : updated.reads.length = 3 ∧ Right platform deleted :=
  ⟨by decide, (right_of_clean platform uploads startup rfl deleted
    reach_deleted).1⟩

open TablesTest in
/-- The first version is uploaded again, built anew: its code is read with the old table. -/
theorem rebuilt_not_right : ∃ s, Reach (change platform uploads) (fun _ _ => True) startup s ∧
    s.files "/p/echo-v1.mbp".toList = some rebuilt ∧
    (∃ r ∈ s.reads, r.bytes = some rebuilt ∧ r.files = [("echo.py".toList, ())]) ∧
    ¬ Right platform s := by
  have hreads : (change platform uploads (.uploadNew rebuilt "echo" ⟨"1"⟩ {}) deleted).reads[3]? =
      some ⟨"/p/echo-v1.mbp".toList, [("echo.py".toList, ())], some rebuilt⟩ := by decide
  have hmem := List.mem_of_getElem? hreads
  refine ⟨_, Reach.replay [.uploadNew echo "echo" ⟨"1"⟩ {}, .replace 0 echo₂ ⟨"2"⟩ 0 {},
    .delete 0 none, .uploadNew rebuilt "echo" ⟨"1"⟩ {}], by decide, ⟨_, hmem, rfl, rfl⟩,
    fun h => ?_⟩
  obtain ⟨b, hb, hread⟩ := h _ hmem
  obtain rfl := Option.some.inj hb
  exact absurd hread (by decide)

end ZipLoader

end Maubot
