import Maubot.Loader.Tables
import Maubot.Loader.Caches

namespace Maubot

/-!
# Zipped plugins — what a reload leaves

* `reload_ok` — the loader after a reload that returned;
* `files_reload` — no reload writes or removes a file.
-/

open Prog

namespace ZipLoader

open Zipimport

variable {B E C Y M : Type} {P : Platform B E C Y M} {self : Ref} {s s' : Loaders B E M}

/-! ### Files -/

def onDisk : Frame (Loaders B E M) := .ofView fun s => s.files

/-- What records nothing writes no file. -/
theorem onDisk_of_still {α : Type} {m : Method B E M α} (h : Keeps still m) : Keeps onDisk m :=
  fun s => (still_iff.mp (h s)).2

/-- A reload writes none. -/
theorem files_reload (newPath : Option Path) : Keeps onDisk (reload P self newPath) := by
  have hload : Keeps onDisk (load P self true) := (keeps_load true).mono fun h => h.files
  refine keeps_bind (onDisk_of_still still_unload) fun _ => ?_
  cases newPath with
  | none => exact hload
  | some path => exact keeps_bind (onDisk_of_still (still_move path)) fun _ => hload

/-! ### The loader -/

/-- Behind `_load_meta` the metadata stay. -/
def described (self : Ref) : Frame (Loaders B E M) :=
  .ofView fun s => (s.loaders.get self).pluginMeta

/-- Each part of a load keeps the metadata, -/
theorem described_admits :
    Admits (described self : Frame (Loaders B E M)) self where
  cache _ _            := rfl
  set f _ _ hmeta s := Store.view_modify s.loaders self f Loader.pluginMeta hmeta self

/-- and so does code that is read -/
theorem described_readCode {record : Bool} (importer : Importer E) (name : Path) :
    Keeps (described self) (readCode P record importer name) :=
  keeps_bind keeps_get fun _ =>
    keeps_bind (keeps_when (keeps_modify fun _ => rfl)) fun _ => keeps_outcome _

/-- What a loader has once its class was imported: the metadata of the archive at its path. -/
structure Imported (P : Platform B E C Y M) (r : Ref) (p : Path) (cls : Ref)
    (s : Loaders B E M) : Prop where
  path       : (s.loaders.get r).path = some p
  loaded     : (s.loaders.get r).loaded = some cls
  pluginMeta : ∃ b m, s.bytesAt P p = some b ∧ readMeta P (.ok b) = .ok (b, m) ∧
    (s.loaders.get r).pluginMeta = some m

/-- and a class that is imported. -/
theorem described_importClass (reset : Bool) :
    Keeps (described self) (importClass P self reset) :=
  described_admits.importClass (fun _ _ => described_readCode _ _) fun _ _ => rfl

/-- A class that is imported is the loaded one. -/
theorem loaded_importClass {reset : Bool} {cls : Ref}
    (h : (importClass P self reset).exec s = (.ok cls, s')) :
    (s'.loaders.get self).loaded = some cls := by
  obtain ⟨importer, t₁, -, h⟩ := exec_bind_eq_ok h
  obtain ⟨_, t₂, -, h⟩ := exec_bind_eq_ok h
  obtain ⟨_, t₃, -, h⟩ := exec_bind_eq_ok h
  obtain ⟨m, t₄, -, h⟩ := exec_bind_eq_ok h
  obtain ⟨_, t₅, -, h⟩ := exec_bind_eq_ok h
  obtain ⟨plugin, t₆, -, h⟩ := exec_bind_eq_ok h
  cases h
  simp only [Store.get_modify_self]

/-- It is that of the file at the loader's path. -/
theorem imported_loadClass {reset : Bool} {p : Path} {cls : Ref}
    (hpath : (s.loaders.get self).path = some p)
    (h : (loadClass P self reset).exec s = (.ok cls, s')) : Imported P self p cls s' := by
  have hloads : Loads self s ((loadClass P self reset).exec s).2 := keeps_loadClass reset s
  rw [h] at hloads
  obtain ⟨_, t, hmeta, h⟩ := exec_bind_eq_ok h
  obtain ⟨q, b, m, x, hq, hb, hread, -, rfl⟩ := exec_loadMeta_ok hmeta
  obtain rfl := Option.some.inj (hq.symm.trans hpath)
  have hkept := @described_importClass _ _ _ _ _ P self reset
    { s with loaders := s.loaders.modify self fun l => withMeta l m x b }
  rw [show (importClass P self reset).exec _ = (.ok cls, s') from h] at hkept
  refine ⟨hloads.path.trans hpath, loaded_importClass h, b, m, ?_, hread, ?_⟩
  · unfold Loaders.bytesAt
    rw [hloads.files]
    exact hb
  · refine hkept.trans ?_
    simp only [Store.get_modify_self, withMeta]

/-- **A reload that returned** -/
theorem imported_reload {p : Path} {cls : Ref}
    (h : (reload P self (some p)).exec s = (.ok cls, s')) : Imported P self p cls s' := by
  obtain ⟨_, t, hunload, h⟩ := exec_bind_eq_ok h
  obtain ⟨_, t', hmove, h⟩ := exec_bind_eq_ok h
  have hpath : (t'.loaders.get self).path = some p := by
    unfold move at hmove
    rw [exec_get_bind] at hmove
    dsimp only at hmove
    unfold when at hmove
    split at hmove
    next =>
      cases hmove
      simp only [Store.get_modify_self]
    next heq =>
      cases hmove
      exact not_not.mp heq
  unfold load at h
  rw [exec_get_bind] at h
  split at h
  · exact imported_loadClass hpath h
  · exact imported_loadClass hpath h

/-- A class that is there is not imported again. -/
theorem exec_load_of_loaded {cls : Ref} (h : (s.loaders.get self).loaded = some cls) :
    (load P self false).exec s = (.ok cls, s) := by
  unfold load
  rw [exec_get_bind, h]
  rfl

end ZipLoader

end Maubot
