import Maubot.Loader.Startup

namespace Maubot

/-!
# Zipped plugins — the checks before loading

`_run_preload_checks` looks for the main module, for the main class in it, and for each module
that the metadata list.

* `Usable`, `ListsAll` — what the checks are for;
* `checked_iff` — when their outcome says whether an archive has both.
-/

open Prog

namespace ZipLoader

open Zipimport

variable {B E C Y M : Type} {P : Platform B E C Y M} {s : Loaders B E M} {self : Ref}
  {p : Path} {b : B} {files : Files E} {m : PluginMeta} {x : String × String}

/-- The name that the main module is looked for with -/
def mainPath (module : String) : Path := module.toList.map fun c => if c = '.' then '/' else c

/-- There is code for the main module, with the name of the main class. -/
def Usable (P : Platform B E C Y M) (files : Files E) (b : B) (x : String × String) : Prop :=
  ∃ code, getModuleCode P.toReader (some b) files (mainPath x.1) = .ok code ∧
    x.2 ∈ P.coNames code.1

/-- There is a package or a module for each name that is listed. -/
def ListsAll (files : Files E) (m : PluginMeta) : Prop :=
  ∀ module ∈ m.modules, getModuleInfo files module.toList ≠ none

/-- The outcome tells whether there is what the metadata name. -/
structure Checked (outcome : Except PyExc Unit) (good : Prop) : Prop where
  returns : outcome = .ok () ↔ good
  raises  : ∀ e, outcome = .error e → e.isA .maubotZipPreLoadError = true

/-- **What is checked.**  The outcome is right exactly if reading the code of the main module
    raises nothing but a `ZipImportError`, and an archive with a usable main module has all
    modules that are listed. -/
theorem checked_iff (record : Bool) (hm : (s.loaders.get self).pluginMeta = some m)
    (hmodule : (s.loaders.get self).mainModule = some x.1)
    (hclass : (s.loaders.get self).mainClass = some x.2) (hb : s.bytesAt P p = some b) :
    Checked ((runPreloadChecks P record self ⟨p, files⟩).exec s).1
        (Usable P files b x ∧ ListsAll files m) ↔
      (∀ e, getModuleCode P.toReader (some b) files (mainPath x.1) = .error e →
        e.isA .zipImportError = true ∨ e.isA .maubotZipPreLoadError = true) ∧
      (Usable P files b x → ListsAll files m) := by
  obtain ⟨t, ht, -⟩ := exec_runPreloadChecks record rfl hm hmodule hclass hb
  have hcheck : checkMain P files b x =
      ((getModuleCode P.toReader (some b) files (mainPath x.1)).mapError (moduleError x.1) >>=
        fun code => if x.2 ∈ P.coNames code.1 then .ok ()
          else .error ⟨.maubotZipPreLoadError, s!"Main class {x.2} not in {x.1}"⟩) := rfl
  rw [ht, hcheck]
  cases hcode : getModuleCode P.toReader (some b) files (mainPath x.1) with
  | error e =>
    -- there is no code, and the exception is what counts
    have hnot : ¬ Usable P files b x := by
      rintro ⟨code, hok, -⟩
      rw [hcode] at hok
      cases hok
    change Checked (.error (moduleError x.1 e)) _ ↔ _
    constructor
    · intro h
      refine ⟨fun e' he' => ?_, fun husable => absurd husable hnot⟩
      cases he'
      have hraises := h.raises _ rfl
      unfold moduleError at hraises
      by_cases hz : e.isA .zipImportError = true
      · exact .inl hz
      · rw [if_neg hz] at hraises
        exact .inr hraises
    · rintro ⟨h, -⟩
      refine ⟨⟨nofun, fun hgood => absurd hgood.1 hnot⟩, fun e' he' => ?_⟩
      cases he'
      unfold moduleError
      split
      · rfl
      · next hz => exact (h e rfl).resolve_left hz
  | ok code =>
    have husable : Usable P files b x ↔ x.2 ∈ P.coNames code.1 := by
      constructor
      · rintro ⟨code', hok, hmem⟩
        rw [hcode] at hok
        cases hok
        exact hmem
      · exact fun hmem => ⟨code, hcode, hmem⟩
    change Checked (if x.2 ∈ P.coNames code.1 then .ok () else .error _) _ ↔ _
    by_cases hmem : x.2 ∈ P.coNames code.1
    · rw [if_pos hmem]
      constructor
      · intro h
        exact ⟨nofun, fun _ => (h.returns.mp rfl).2⟩
      · rintro ⟨-, h⟩
        exact ⟨iff_of_true rfl ⟨husable.mpr hmem, h (husable.mpr hmem)⟩, nofun⟩
    · rw [if_neg hmem]
      have hnot : ¬ Usable P files b x := fun h => hmem (husable.mp h)
      refine iff_of_true ⟨⟨nofun, fun hgood => absurd hgood.1 hnot⟩, fun e he => ?_⟩
        ⟨nofun, fun h => absurd h hnot⟩
      cases he
      rfl

/-! ### A module that is not there -/

open ZipTest

namespace PreloadTest

/-- A loader whose metadata list these modules -/
def listing (modules : List String) : Loaders PluginMeta Unit Unit where
  files _ := some echo
  directoryCache _ := none
  loaders := ⟨fun _ =>
    { path := some "/p/echo-v1.mbp".toList, pluginMeta := some { echo with modules }
      mainModule := some "echo", mainClass := some "Echo" }, 1⟩
  modules := ()

/-- The archive contains one module. -/
def echoImporter : Importer Unit := ⟨"/p/echo-v1.mbp".toList, [("echo.py".toList, ())]⟩

def outcome (modules : List String) : Except PyExc Unit :=
  ((runPreloadChecks platform true 0 echoImporter).exec (listing modules)).1

end PreloadTest

open PreloadTest in
/-- The archive has what the metadata name. -/
theorem checked_iff_echo : Checked (outcome ["echo"])
    (Usable platform echoImporter.files echo ("echo", "Echo") ∧
      ListsAll echoImporter.files { echo with modules := ["echo"] }) := by
  refine (checked_iff (x := ("echo", "Echo")) true rfl rfl rfl rfl).mpr ⟨nofun, fun _ => ?_⟩
  intro module hmodule
  obtain rfl := List.mem_singleton.mp hmodule
  decide

open PreloadTest in
/-- A module is listed that the archive does not contain, and the checks return. -/
theorem not_checked_missing : outcome ["missing", "echo"] = .ok () ∧
    ¬ Checked (outcome ["missing", "echo"])
      (Usable platform echoImporter.files echo ("echo", "Echo") ∧
        ListsAll echoImporter.files { echo with modules := ["missing", "echo"] }) := by
  refine ⟨rfl, fun h => ?_⟩
  have hlists := (h.returns.mp rfl).2
  exact absurd (hlists "missing" List.mem_cons_self) (by decide)

end ZipLoader

end Maubot
