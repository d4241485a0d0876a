import Maubot.Loader.Zip

namespace Maubot

/-!
# Zipped plugins — what loading can change

Behind `_load_meta` a loader changes the cache of the importers and fields of its own, neither
its path nor its metadata.  A frame that allows this, and that survives where code is read and
where it runs, survives all of `_load`.

* `Admits` — the frame allows the assignments;
* `Admits.getImporter`, `Admits.runPreloadChecks`, … — one rule for each method.
-/

open Prog

namespace ZipLoader

open Zipimport

variable {B E C Y M : Type} {P : Platform B E C Y M} {self : Ref} {F : Frame (Loaders B E M)}
  {record : Bool} {importer : Importer E}

/-- `_load` behind `_load_meta` -/
def importClass (P : Platform B E C Y M) (self : Ref) (reset : Bool) : Method B E M Ref := do
  let importer ← getImporter P self reset
  runPreloadChecks P reset self importer
  let s ← get
  let l := s.loaders.get self
  let m ← present l.pluginMeta
  m.modules.forM (loadModule P reset importer)
  let plugin ← findClass P importer (l.mainModule.getD "") (l.mainClass.getD "")
  setLoader self fun l => { l with loaded := some plugin }
  pure plugin

/-- The frame allows changes of the directory cache, and of the loader apart from its path and
    its metadata. -/
structure Admits (F : Frame (Loaders B E M)) (r : Ref) : Prop where
  cache : ∀ s cache, F.rel s { s with directoryCache := cache }
  set   : ∀ f : Loader B E → Loader B E, (∀ l, (f l).path = l.path) →
    (∀ l, (f l).constructed = l.constructed) → (∀ l, (f l).pluginMeta = l.pluginMeta) →
    Keeps F (setLoader r f : Method B E M Unit)

namespace Admits

/-- An importer may be given up, -/
theorem abandon (h : Admits F self) {α : Type} (importer : Importer E) (e : PyExc) :
    Keeps F (abandon importer e : Method B E M α) :=
  keeps_bind (keeps_modify fun s => h.cache s _) fun _ => keeps_throw e

/-- made, -/
theorem zipimporter (h : Admits F self) (path : Path) : Keeps F (zipimporter P path) := by
  refine keeps_get_bind fun s => ?_
  split
  · exact keeps_throw _ s
  · split
    · exact keeps_pure _ s
    · exact keeps_bind (keeps_outcome _)
        (fun _ => keeps_bind (keeps_modify fun s => h.cache s _) fun _ => keeps_pure _) s

/-- and its table reset. -/
theorem resetCache (h : Admits F self) (importer : Importer E) :
    Keeps F (resetCache P self importer) :=
  keeps_bind keeps_get fun _ => keeps_bind (keeps_outcome _) fun _ =>
    keeps_bind (h.set _ (fun _ => rfl) (fun _ => rfl) fun _ => rfl) fun _ =>
    keeps_bind (keeps_modify fun s => h.cache s _) fun _ => keeps_pure _

/-- So a loader may get its own one, -/
theorem ownImporter (h : Admits F self) : Keeps F (ownImporter P self) := by
  have hmake : ∀ l, Keeps F (ownImporter.make P self l) := fun l =>
    keeps_bind (h.zipimporter _) fun _ =>
      keeps_bind (h.set _ (fun _ => rfl) (fun _ => rfl) fun _ => rfl) fun _ => keeps_pure _
  refine keeps_bind keeps_get fun s => ?_
  dsimp only
  split
  · exact keeps_ite (keeps_pure _) (hmake _)
  · exact hmake _

/-- with a reset or without, -/
theorem getImporter (h : Admits F self) (reset : Bool) : Keeps F (getImporter P self reset) :=
  keeps_except
    (keeps_bind h.ownImporter fun _ => keeps_ite (h.resetCache _) (keeps_pure _)) (keeps_throw _)

/-- run its checks, -/
theorem runPreloadChecks (h : Admits F self)
    (hread : ∀ name, Keeps F (readCode P record importer name)) :
    Keeps F (runPreloadChecks P record self importer) := by
  refine keeps_bind keeps_get fun _ => keeps_bind (keeps_present _) fun _ =>
    keeps_bind (keeps_except (hread _) (h.abandon _ _)) fun _ =>
    keeps_bind (keeps_when (h.abandon _ _)) fun _ => keeps_bind (keeps_present _) fun _ => ?_
  exact keeps_forM fun _ _ =>
    keeps_bind (keeps_except (keeps_outcome _) (h.abandon _ _)) fun _ => keeps_pure _

/-- `hrun` is about the code of the module. -/
theorem loadModule (h : Admits F self) {module : String}
    (hread : Keeps F (readCode P record importer module.toList))
    (hrun : ∀ code ispackage s, F.rel s { s with
      modules := ((P.loadModule code ispackage importer.archive module).exec s.modules).2 }) :
    Keeps F (loadModule P record importer module) := by
  refine keeps_bind (keeps_attempt ?_ _) fun r => ?_
  · exact keeps_bind hread fun code => hrun code.1 code.2
  · cases r with
    | ok _ => exact keeps_pure _
    | error e => exact h.abandon _ _

/-- and find its class. -/
theorem findClass (h : Admits F self) (importer : Importer E) (module cls : String) :
    Keeps F (findClass P importer module cls) := by
  refine keeps_bind keeps_get fun s => ?_
  split
  · exact h.abandon _ _
  · exact h.abandon _ _
  · exact keeps_throw _
  · exact h.abandon _ _
  · exact keeps_pure _

/-- A frame that does not tell the states of imported code apart, nor where code is read. -/
theorem importClass (h : Admits F self)
    (hread : ∀ i name, Keeps F (readCode P record i name))
    (hrun : ∀ s modules, F.rel s { s with modules := modules }) :
    Keeps F (importClass P self record) :=
  keeps_bind (h.getImporter record) fun i =>
    keeps_bind (h.runPreloadChecks fun name => hread i name) fun _ =>
    keeps_bind keeps_get fun _ => keeps_bind (keeps_present _) fun _ =>
    keeps_bind (keeps_forM fun _ _ => h.loadModule (hread i _) fun _ _ s => hrun s _) fun _ =>
    keeps_bind (h.findClass _ _ _) fun _ =>
    keeps_bind (h.set _ (fun _ => rfl) (fun _ => rfl) fun _ => rfl) fun _ => keeps_pure _

end Admits

end ZipLoader

end Maubot
