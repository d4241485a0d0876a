import Maubot.Loader.Caches
import Maubot.World

namespace Maubot

/-!
# Zipped plugins — as instances use them

An instance finds the loader of its plugin's type in `id_cache`, reads the metadata of that
loader and loads its class.

* `Built` — a loader that has lost its metadata has no path to read others from;
* `built_run` — so it is in every run;
* `zipped` — the loaders of a run are loaders for instances;
* `id_pluginMeta_find` — while the caches are whole, a type finds a loader with that id.
-/

open Prog

namespace ZipLoader

open Zipimport

variable {B E C Y M : Type} {P : Platform B E C Y M} {s s' : Loaders B E M} {l : Ref}

/-! ### Loaders without metadata -/

/-- A constructed loader without metadata has no path either. -/
def Built (s : Loaders B E M) : Prop :=
  ∀ l, (s.loaders.get l).constructed = true → (s.loaders.get l).pluginMeta = none →
    (s.loaders.get l).path = none

/-- Before the first call no loader is constructed. -/
theorem Empty.built (h : Empty s) : Built s := by
  intro l hcon
  rw [h.constructed] at hcon
  cases hcon

/-- A loader that changes under its id and its path is built as before. -/
theorem Built.loads (h : Built s) (hl : Loads l s s') : Built s' := by
  intro k hcon hnone
  rcases eq_or_ne k l with rfl | hk
  · have hnone₀ : (s.loaders.get k).pluginMeta = none := by
      cases hm : (s.loaders.get k).pluginMeta with
      | none => rfl
      | some m =>
        obtain ⟨m', hm', -⟩ := hl.pluginMeta m hm
        rw [hnone] at hm'
        cases hm'
    rw [hl.path]
    exact h k (hl.constructed.symm.trans hcon) hnone₀
  · rw [hl.others k hk] at hcon hnone ⊢
    exact h k hcon hnone

/-- A loader that moves has metadata. -/
theorem Built.moved (h : Built s) {q p : Path} {m : PluginMeta}
    (hm : (s.loaders.get l).pluginMeta = some m) : Built (moved P l q p s) := by
  intro k hcon hnone
  rcases eq_or_ne k l with rfl | hk
  · rw [get_moved, hm] at hnone
    cases hnone
  · rw [get_moved_ne hk] at hcon hnone ⊢
    exact h k hcon hnone

/-- A new loader is constructed with its metadata. -/
theorem Built.constructed (h : Built s) {path : Path} (hc : Constructed path s s') : Built s' := by
  intro k hcon hnone
  rcases eq_or_ne k s.loaders.next with rfl | hk
  · rcases hc.caches with ⟨-, -, hfalse⟩ | ⟨m, hm, -⟩
    · rw [hfalse] at hcon
      cases hcon
    · rw [hm] at hnone
      cases hnone
  · rw [hc.others k hk] at hcon hnone ⊢
    exact h k hcon hnone

/-- `delete` takes the metadata and the path together, at its end. -/
theorem meta_or_path_delete {q : Path} {m : PluginMeta} (hp : (s.loaders.get l).path = some q)
    (hm : (s.loaders.get l).pluginMeta = some m) (raised : Option PyExc) :
    (((delete P l raised).exec s).2.loaders.get l).pluginMeta = some m ∨
      (((delete P l raised).exec s).2.loaders.get l).path = none := by
  unfold delete
  rcases exec_unload (P := P) l s with ⟨q', m', hp', hm', he⟩ | ⟨e, s', he, hb⟩
  · obtain rfl : q = q' := Option.some.inj (hp.symm.trans hp')
    rw [exec_bind_ok he, exec_get_bind]
    simp only [get_unloaded, hp, hm, present, pure_bind, exec_modify_bind]
    -- the file may not be removed, and there may be no importer
    cases hi : (s.loaders.get l).importer <;> cases raised <;>
      simp only [pure_bind, bind_assoc, removeCache, setLoader, exec_modify_bind, trash, raiseIf,
        exec_throw_bind, exec_modify]
    all_goals simp [unloaded, hm]
  · have hok : ((unload P l).exec s).1 = .ok () := by
      simp [unload, hp, hm, present, setLoader]
    rw [he] at hok
    cases hok

/-- No call takes the metadata of a loader and leaves its path. -/
theorem built_step (h : Built s) (op : Op B) : Built (step P op s) := by
  cases op with
  | write path bytes => exact h
  | get path =>
    show Built ((getLoader P path).exec s).2
    unfold getLoader
    rw [exec_get_bind]
    cases s.pathCache (abspath P.cwd path) with
    | some l => exact h
    | none => exact h.constructed (construct_cases (abspath P.cwd path) s)
  | reload l newPath =>
    by_cases hcon : (s.loaders.get l).constructed = true
    · rw [step_reload hcon]
      -- a loader that moves has metadata, and keeps an id
      rcases reload_cases (P := P) l newPath s with hb | ⟨q, p, m, rfl, hp, hq, hm⟩
      · exact h.loads hb.toLoads
      · exact (h.moved (P := P) hm).loads (loads_moved hp hm hq)
    · rw [step_reload_absent hcon]
      exact h
  | delete l raised =>
    by_cases hcon : (s.loaders.get l).constructed = true
    · rw [step_delete hcon]
      by_cases hboth : ∃ q m, (s.loaders.get l).path = some q ∧
          (s.loaders.get l).pluginMeta = some m
      · obtain ⟨q, m, hp, hm⟩ := hboth
        have hr := removed_delete (P := P) hp hm raised
        intro k hconk hnone
        rcases eq_or_ne k l with rfl | hk
        · -- metadata and path go together, or both stay
          rcases meta_or_path_delete (P := P) hp hm raised with hkept | hgone
          · rw [hkept] at hnone
            cases hnone
          · exact hgone
        · rw [hr.others k hk] at hconk hnone ⊢
          exact h k hconk hnone
      · exact h.loads (bare_delete (fun q m hp hm => hboth ⟨q, m, hp, hm⟩) raised).toLoads
    · rw [step_delete_absent hcon]
      exact h

/-- **Nor does a run.** -/
theorem built_run {s₀ : Loaders B E M} (h₀ : Built s₀)
    {allowed : Loaders B E M → Op B → Prop} (h : Reach (step P) allowed s₀ s) : Built s :=
  h.invariant h₀ fun _ op hs _ => built_step hs op

/-! ### Loading as instances do -/

/-- Without a path nothing is loaded that was not. -/
theorem exec_load_pathless (hp : (s.loaders.get l).path = none) :
    ((load P l false).exec s).2 = s := by
  have hmeta : ∃ e, (loadMeta P l).exec s = (.error e, s) := by
    unfold loadMeta
    rw [exec_get_bind]
    dsimp only
    rw [hp]
    exact ⟨_, exec_bind_error (exec_outcome _ _)⟩
  obtain ⟨e, he⟩ := hmeta
  unfold load
  rw [exec_get_bind]
  cases (s.loaders.get l).loaded with
  | some plugin => rfl
  | none =>
    dsimp only
    rw [loadClass, exec_bind_error he]

/-- The loaders between the calls of a run -/
abbrev Installed (B E M : Type) := { s : Loaders B E M // Built s }

/-- For a loader that has no metadata: reading them raises. -/
def blank : PluginMeta := ⟨"", ⟨""⟩, [], "", ⟨""⟩, false, .sqlalchemy, false⟩

/-- `meta` -/
def pluginMeta (s : Installed B E M) (l : Ref) : PluginMeta :=
  let loader := s.1.loaders.get l
  if loader.constructed then loader.pluginMeta.getD blank else blank

/-- Loading keeps the ids of all loaders. -/
theorem id_pluginMeta_load (s : Installed B E M) (h : Built ((load P l false).exec s.1).2) (q : Ref) :
    (pluginMeta ⟨((load P l false).exec s.1).2, h⟩ q).id = (pluginMeta s q).id := by
  have hl : Loads l s.1 ((load P l false).exec s.1).2 := keeps_load false s.1
  unfold pluginMeta
  rcases eq_or_ne q l with rfl | hq
  · dsimp only
    rw [hl.constructed]
    by_cases hcon : (s.1.loaders.get q).constructed = true
    · rw [if_pos hcon, if_pos hcon]
      cases hm : (s.1.loaders.get q).pluginMeta with
      -- a loader without metadata has no path, so none are read
      | none => rw [exec_load_pathless (s.2 q hcon hm), hm]
      | some m =>
        obtain ⟨m', hm', hid⟩ := hl.pluginMeta m hm
        rw [hm']
        exact hid
    · rw [if_neg hcon, if_neg hcon]
  · rw [hl.others q hq]

/-- **Zipped loaders, for instances**: `id_cache`, the metadata and `load`. -/
def zipped (P : Platform B E C Y M) : LoaderImpl (Installed B E M) where
  find s type := s.1.idCache type
  metaOf      := pluginMeta
  load l      := within (load P l false) fun s h => h.loads (keeps_load false s)
  load_find _ := keeps_within _ (keeps_load false) fun _ _ hl => hl.idCache
  load_meta _ := fun s => funext fun q => id_pluginMeta_load s _ q

/-- **A type finds a loader with that id**, while the caches are whole. -/
theorem id_pluginMeta_find {s : Installed B E M} (h : Whole s.1) {type : String}
    (hfind : (zipped P).find s type = some l) : ((zipped P).metaOf s l).id = type := by
  obtain ⟨m, -, hm, hid, -⟩ := h.idCache type l hfind
  show (pluginMeta s l).id = type
  unfold pluginMeta
  dsimp only
  rw [if_pos (h.constructed type l hfind), hm]
  exact hid

/-- So it is in every run of careful calls, with loads of any loaders in between. -/
theorem id_pluginMeta_run {s₀ : Loaders B E M} (h₀ : Empty s₀)
    (h : Reach (step P) (fun s op => Free s op ∧ Careful s op) s₀ s) {type : String} {l : Ref}
    (r : Ref) :
    let w : Installed B E M := ⟨s, built_run h₀.built h⟩
    let w' := (((zipped P).load r).exec w).2
    (zipped P).find w' type = some l → ((zipped P).metaOf w' l).id = type := by
  intro w w'
  have hwhole : Whole s := h.invariant h₀.whole fun _ op hs hop => whole_step hs op hop.1 hop.2
  have hloads : Loads r s ((load P r false).exec s).2 := keeps_load false s
  exact id_pluginMeta_find (hwhole.loads hloads)

end ZipLoader

end Maubot
