import Maubot.Loader.Frames
import Maubot.Lib.Runs

namespace Maubot

/-!
# Zipped plugins — the two caches

`id_cache` and `path_cache` are written at different points of construction, `reload` and
`delete`, and each of these can be left by an exception at many places.

* `Loads`, `reload_cases`, `delete_cases`, `construct_cases` — what the methods leave, however
  they end;
* `Consistent` — the caches hold the same loaders, each under its own id and path;
* `consistent_of_careful` — the runs in which that stays so, and that a plugin keeps its id.
-/

open Prog

namespace ZipLoader

open Zipimport

variable {B E C Y M : Type} (P : Platform B E C Y M)

/-! ### What loading leaves alone -/

/-- However it ends, loading changes only the loader itself: neither its path nor its id, nor
    the caches. -/
structure Loads (r : Ref) (s s' : Loaders B E M) : Prop where
  next        : s'.loaders.next = s.loaders.next
  idCache     : s'.idCache = s.idCache
  pathCache   : s'.pathCache = s.pathCache
  files       : s'.files = s.files
  others      : ∀ l, l ≠ r → s'.loaders.get l = s.loaders.get l
  path        : (s'.loaders.get r).path = (s.loaders.get r).path
  constructed : (s'.loaders.get r).constructed = (s.loaders.get r).constructed
  pluginMeta  : ∀ m, (s.loaders.get r).pluginMeta = some m →
    ∃ m', (s'.loaders.get r).pluginMeta = some m' ∧ m'.id = m.id

def loads (self : Ref) : Frame (Loaders B E M) where
  rel := Loads self
  refl _ := ⟨rfl, rfl, rfl, rfl, fun _ _ => rfl, rfl, rfl, fun m hm => ⟨m, hm, rfl⟩⟩
  trans h h' := by
    refine ⟨h'.next.trans h.next, h'.idCache.trans h.idCache, h'.pathCache.trans h.pathCache,
      h'.files.trans h.files, fun l hl => (h'.others l hl).trans (h.others l hl),
      h'.path.trans h.path, h'.constructed.trans h.constructed, fun m hm => ?_⟩
    obtain ⟨m₁, hm₁, hid₁⟩ := h.pluginMeta m hm
    obtain ⟨m₂, hm₂, hid₂⟩ := h'.pluginMeta m₁ hm₁
    exact ⟨m₂, hm₂, hid₂.trans hid₁⟩

variable {P} {self : Ref} {s s' : Loaders B E M}

/-- An assignment to a loader that keeps its path and its id. -/
theorem loads_modify {f : Loader B E → Loader B E}
    (hpath : (f (s.loaders.get self)).path = (s.loaders.get self).path)
    (hcon : (f (s.loaders.get self)).constructed = (s.loaders.get self).constructed)
    (hmeta : ∀ m, (s.loaders.get self).pluginMeta = some m →
      ∃ m', (f (s.loaders.get self)).pluginMeta = some m' ∧ m'.id = m.id) :
    Loads self s { s with loaders := s.loaders.modify self f } := by
  have hself : (s.loaders.modify self f).get self = f (s.loaders.get self) :=
    Store.get_modify_self _ _ _
  refine ⟨rfl, rfl, rfl, rfl, fun l hl => Store.get_modify_ne _ _ hl, ?_, ?_, ?_⟩
  · exact (congrArg Loader.path hself).trans hpath
  · exact (congrArg Loader.constructed hself).trans hcon
  · intro m hm
    obtain ⟨m', hm', hid⟩ := hmeta m hm
    exact ⟨m', (congrArg Loader.pluginMeta hself).trans hm', hid⟩

/-- The fields that an assignment does not name stay. -/
theorem keeps_setLoader {f : Loader B E → Loader B E} (hpath : ∀ l, (f l).path = l.path)
    (hcon : ∀ l, (f l).constructed = l.constructed)
    (hmeta : ∀ l, (f l).pluginMeta = l.pluginMeta) :
    Keeps (loads self) (setLoader self f : Method B E M Unit) := fun _ =>
  loads_modify (hpath _) (hcon _) fun m hm => ⟨m, (hmeta _).trans hm, rfl⟩

/-- The zip importer's caches, the modules and what was read are a loader's own matter. -/
theorem loads_rest {cache : Path → Option (Files E)} {modules : M} {reads : List (CodeRead B E)} :
    Loads self s { s with directoryCache := cache, modules := modules, reads := reads } :=
  ⟨rfl, rfl, rfl, rfl, fun _ _ => rfl, rfl, rfl, fun m hm => ⟨m, hm, rfl⟩⟩

/-- The metadata are read into the loader. -/
theorem keeps_loadMeta : Keeps (loads self) (loadMeta P self) := by
  refine keeps_get_bind fun s => ?_
  dsimp only
  rcases hread : readMeta P (openPath P s (s.loaders.get self).path) with e | ⟨file, m⟩
  · rw [exec_bind_error (exec_outcome _ _)]
    exact (loads self).refl s
  · rw [exec_bind_ok (exec_outcome _ _)]
    by_cases hid : ∃ old, (s.loaders.get self).pluginMeta = some old ∧ m.id ≠ old.id
    · rw [when, if_pos hid, exec_throw_bind]
      exact (loads self).refl s
    · rw [when, if_neg hid, exec_pure_bind]
      -- the new metadata have the id of the old ones
      have hset : Loads self s
          { s with loaders := s.loaders.modify self fun l => { l with pluginMeta := some m } } := by
        refine loads_modify rfl rfl fun old hold => ⟨m, rfl, ?_⟩
        by_contra hne
        exact hid ⟨old, hold, hne⟩
      refine (loads self).trans hset (keeps_bind (keeps_outcome _) (fun _ => ?_) _)
      exact keeps_setLoader (fun _ => rfl) (fun _ => rfl) fun _ => rfl

/-- So each part of a load stays with its loader. -/
theorem loads_admits : Admits (loads self : Frame (Loaders B E M)) self where
  cache _ _ := loads_rest
  set _     := keeps_setLoader

/-- Code that is read does. -/
theorem loads_readCode {record : Bool} (importer : Importer E) (name : Path) :
    Keeps (loads self) (readCode P record importer name) :=
  keeps_bind keeps_get fun _ =>
    keeps_bind (keeps_when (keeps_modify fun _ => loads_rest)) fun _ => keeps_outcome _

/-- A class that is loaded does. -/
theorem keeps_loadClass (reset : Bool) : Keeps (loads self) (loadClass P self reset) :=
  keeps_bind keeps_loadMeta fun _ =>
    loads_admits.importClass (fun _ _ => loads_readCode _ _) fun _ _ => loads_rest

/-- So does `load`. -/
theorem keeps_load (reset : Bool) : Keeps (loads self) (load P self reset) := by
  refine keeps_bind keeps_get fun s => ?_
  split
  · exact keeps_ite (keeps_loadClass _) (keeps_pure _)
  · exact keeps_loadClass _

/-! ### What the methods leave -/

/-- A loader without metadata gets none. -/
structure Bare (r : Ref) (s s' : Loaders B E M) : Prop extends Loads r s s' where
  bare : (s.loaders.get r).pluginMeta = none → (s'.loaders.get r).pluginMeta = none

/-- The state after `_unload`. -/
def unloaded (P : Platform B E C Y M) (l : Ref) (path : Path) (s : Loaders B E M) :
    Loaders B E M :=
  { s with modules := P.unloadModules path s.modules,
           loaders := s.loaders.modify l fun l => { l with loaded := none } }

/-- An unloaded loader has no class. -/
theorem get_unloaded (l : Ref) (path : Path) (s : Loaders B E M) :
    (unloaded P l path s).loaders.get l = { s.loaders.get l with loaded := none } :=
  Store.get_modify_self s.loaders l fun l => { l with loaded := none }

/-- Unloading leaves the other loaders and the caches. -/
theorem bare_unloaded (l : Ref) (path : Path) (s : Loaders B E M) :
    Bare l s (unloaded P l path s) := by
  refine ⟨⟨rfl, rfl, rfl, rfl, fun q hq => if_neg hq, ?_, ?_,
    fun m hm => ?_⟩, fun h => ?_⟩
  · rw [get_unloaded]
  · rw [get_unloaded]
  · exact ⟨m, by rw [get_unloaded]; exact hm, rfl⟩
  · rw [get_unloaded]
    exact h

/-- `_unload` returns for a loader that has a path and metadata. -/
theorem exec_unload (l : Ref) (s : Loaders B E M) :
    (∃ q m, (s.loaders.get l).path = some q ∧ (s.loaders.get l).pluginMeta = some m ∧
      (unload P l).exec s = (.ok (), unloaded P l q s)) ∨
    ∃ e s', (unload P l).exec s = (.error e, s') ∧ Bare l s s' := by
  unfold unload
  rw [exec_get_bind]
  dsimp only
  cases hp : (s.loaders.get l).path with
  | none => exact .inr ⟨_, s, rfl, (loads l).refl s, fun h => h⟩
  | some q =>
    dsimp only
    cases hm : (s.loaders.get l).pluginMeta with
    | none => exact .inr ⟨_, unloaded P l q s, rfl, bare_unloaded l q s⟩
    | some m => exact .inl ⟨q, m, rfl, rfl, rfl⟩

/-- The state after `_unload` and the new path. -/
def moved (P : Platform B E C Y M) (l : Ref) (q p : Path) (s : Loaders B E M) : Loaders B E M :=
  { unloaded P l q s with
    loaders   := (unloaded P l q s).loaders.modify l fun l => { l with path := some p },
    pathCache := Function.update (Function.update s.pathCache q none) p (some l) }

/-- A `reload` with a new path. -/
theorem loads_moved {l : Ref} {q p : Path} {m : PluginMeta} (hp : (s.loaders.get l).path = some q)
    (hm : (s.loaders.get l).pluginMeta = some m) (hq : q ≠ p) :
    Loads l (moved P l q p s) ((reload P l (some p)).exec s).2 := by
  unfold reload
  rcases exec_unload (P := P) l s with ⟨q', m', hp', hm', he⟩ | ⟨e, s', he, hb⟩
  · obtain rfl : q = q' := Option.some.inj (hp.symm.trans hp')
    have hpath : ((unloaded P l q s).loaders.get l).path = some q :=
      (bare_unloaded (P := P) l q s).path.trans hp
    have hmove : (move l p).exec (unloaded P l q s) = (.ok (), moved P l q p s) := by
      unfold move
      rw [exec_get_bind]
      dsimp only
      rw [hpath, when, if_pos (fun h => hq (Option.some.inj h))]
      rfl
    rw [exec_bind_ok he]
    dsimp only
    rw [exec_bind_ok hmove]
    exact keeps_load true _
  · have hok : ((unload P l).exec s).1 = .ok () := by
      simp [unload, hp, hm, present, setLoader]
    rw [he] at hok
    cases hok

/-- **`reload`**: the loader stays where it was, or it has moved to another path. -/
theorem reload_cases (l : Ref) (newPath : Option Path) (s : Loaders B E M) :
    Bare l s ((reload P l newPath).exec s).2 ∨
    ∃ q p m, newPath = some p ∧ (s.loaders.get l).path = some q ∧ q ≠ p ∧
      (s.loaders.get l).pluginMeta = some m := by
  rcases exec_unload (P := P) l s with ⟨q, m, hp, hm, he⟩ | ⟨e, s', he, hb⟩
  · -- a loader that has metadata keeps an id
    have hbare : ∀ s', Loads l (unloaded P l q s) s' → Bare l s s' := fun s' h' =>
      ⟨(loads l).trans (bare_unloaded l q s).toLoads h', fun h => by rw [hm] at h; cases h⟩
    have hpath : ((unloaded P l q s).loaders.get l).path = some q :=
      (bare_unloaded (P := P) l q s).path.trans hp
    cases newPath with
    | none =>
      left
      unfold reload
      rw [exec_bind_ok he]
      exact hbare _ (keeps_load true _)
    | some p =>
      by_cases hq : q = p
      · -- the path it has already
        have hmove : (move l p).exec (unloaded P l q s) = (.ok (), unloaded P l q s) := by
          unfold move
          rw [exec_get_bind, when, if_neg (by rw [hpath, hq]; simp)]
          rfl
        left
        unfold reload
        rw [exec_bind_ok he]
        dsimp only
        rw [exec_bind_ok hmove]
        exact hbare _ (keeps_load true _)
      · exact .inr ⟨q, p, m, rfl, hp, hq, hm⟩
  · left
    unfold reload
    rw [exec_bind_error he]
    exact hb

/-- The caches without the entries of a deleted loader. -/
structure Removed (l : Ref) (q : Path) (i : String) (s s' : Loaders B E M) : Prop where
  next        : s'.loaders.next = s.loaders.next
  pathCache   : s'.pathCache = Function.update s.pathCache q none
  idCache     : s'.idCache = Function.update s.idCache i none
  others      : ∀ k, k ≠ l → s'.loaders.get k = s.loaders.get k
  constructed : (s'.loaders.get l).constructed = (s.loaders.get l).constructed
  meta_or     : (s'.loaders.get l).pluginMeta = (s.loaders.get l).pluginMeta ∨
    (s'.loaders.get l).pluginMeta = none

/-- **`delete`** of a loader that has a path and metadata, whether or not the file could be
    removed. -/
theorem removed_delete {l : Ref} {q : Path} {m : PluginMeta}
    (hp : (s.loaders.get l).path = some q) (hm : (s.loaders.get l).pluginMeta = some m)
    (raised : Option PyExc) : Removed l q m.id s ((delete P l raised).exec s).2 := by
  unfold delete
  rcases exec_unload (P := P) l s with ⟨q', m', hp', hm', he⟩ | ⟨e, s', he, hb⟩
  · obtain rfl : q = q' := Option.some.inj (hp.symm.trans hp')
    rw [exec_bind_ok he, exec_get_bind]
    simp only [get_unloaded, hp, hm, present, pure_bind, exec_modify_bind]
    cases hi : (s.loaders.get l).importer <;> cases raised <;>
      simp only [pure_bind, bind_assoc, removeCache, setLoader, exec_modify_bind, trash, raiseIf,
        exec_throw_bind, exec_modify]
    all_goals
      refine ⟨rfl, rfl, rfl, fun k hk => ?_, ?_, ?_⟩
      · simp [unloaded, Store.get_modify, hk]
      · simp [unloaded]
      · simp [unloaded]
  · have hok : ((unload P l).exec s).1 = .ok () := by
      simp [unload, hp, hm, present, setLoader]
    rw [he] at hok
    cases hok

/-- A `delete` of any other loader raises at once. -/
theorem bare_delete {l : Ref} (h : ∀ q m, (s.loaders.get l).path = some q →
    (s.loaders.get l).pluginMeta ≠ some m) (raised : Option PyExc) :
    Bare l s ((delete P l raised).exec s).2 := by
  unfold delete
  rcases exec_unload (P := P) l s with ⟨q, m, hp, hm, -⟩ | ⟨e, s', he, hb⟩
  · exact absurd hm (h q m hp)
  · rw [exec_bind_error he]
    exact hb

/-- The state after the last lines of `__init__`. -/
def registered (l : Ref) (path : Path) (i : String) (s : Loaders B E M) : Loaders B E M :=
  { s with loaders   := s.loaders.modify l fun l => { l with constructed := true },
           pathCache := Function.update s.pathCache path (some l),
           idCache   := Function.update s.idCache i (some l) }

/-- A loader that is registered is constructed. -/
theorem get_registered (l : Ref) (path : Path) (i : String) (s : Loaders B E M) :
    (registered l path i s).loaders.get l = { s.loaders.get l with constructed := true } :=
  Store.get_modify_self s.loaders l fun l => { l with constructed := true }

/-- A new loader, registered or not. -/
structure Constructed (path : Path) (s s' : Loaders B E M) : Prop where
  next   : s'.loaders.next = s.loaders.next + 1
  others : ∀ l, l ≠ s.loaders.next → s'.loaders.get l = s.loaders.get l
  caches : (s'.idCache = s.idCache ∧ s'.pathCache = s.pathCache ∧
      (s'.loaders.get s.loaders.next).constructed = false) ∨
    ∃ m, (s'.loaders.get s.loaders.next).pluginMeta = some m ∧
      (s'.loaders.get s.loaders.next).path = some path ∧
      (s'.loaders.get s.loaders.next).constructed = true ∧ s.idCache m.id = none ∧
      s'.idCache = Function.update s.idCache m.id (some s.loaders.next) ∧
      s'.pathCache = Function.update s.pathCache path (some s.loaders.next)

/-- `_preload` stays with its loader. -/
theorem keeps_preload : Keeps (loads self) (preload P self) :=
  keeps_bind keeps_loadMeta fun _ => keeps_bind (loads_admits.getImporter _) fun _ =>
    loads_admits.runPreloadChecks fun _ => loads_readCode _ _

/-- **`__init__`**: registered at the end, where its id is not taken, or not at all. -/
theorem construct_cases (path : Path) (s : Loaders B E M) :
    Constructed path s ((construct P path).exec s).2 := by
  unfold construct
  rw [exec_get_bind]
  dsimp only
  rw [exec_modify_bind]
  generalize hs₁ : ({ s with loaders := s.loaders.alloc { path := some path } } :
    Loaders B E M) = s₁
  have hnext : s₁.loaders.next = s.loaders.next + 1 := by rw [← hs₁]; rfl
  have hothers : ∀ l, l ≠ s.loaders.next → s₁.loaders.get l = s.loaders.get l := by
    intro l hl
    rw [← hs₁]
    exact if_neg hl
  have hself : s₁.loaders.get s.loaders.next = { path := some path } := by
    rw [← hs₁]
    exact if_pos rfl
  have hcaches : s₁.idCache = s.idCache ∧ s₁.pathCache = s.pathCache := by
    rw [← hs₁]
    exact ⟨rfl, rfl⟩
  -- `preload` changes the new loader only, and neither of the caches of loaders
  have hpre : Loads s.loaders.next s₁ ((preload P s.loaders.next).exec s₁).2 := keeps_preload s₁
  have hunregistered : ∀ {s₂ : Loaders B E M}, Loads s.loaders.next s₁ s₂ →
      Constructed path s s₂ := fun h =>
    ⟨h.next.trans hnext, fun l hl => (h.others l hl).trans (hothers l hl),
      .inl ⟨h.idCache.trans hcaches.1, h.pathCache.trans hcaches.2,
        h.constructed.trans (by rw [hself])⟩⟩
  rcases hrun : (preload P s.loaders.next).exec s₁ with ⟨e | _, s₂⟩
  · rw [exec_bind_error hrun]
    rw [hrun] at hpre
    exact hunregistered hpre
  · rw [exec_bind_ok hrun]
    rw [hrun] at hpre
    unfold register
    simp only [bind_assoc, exec_get_bind]
    cases hm : (s₂.loaders.get s.loaders.next).pluginMeta with
    | none =>
      simp only [present, exec_throw_bind]
      exact hunregistered hpre
    | some m =>
      simp only [present, pure_bind]
      -- the id is looked up last, and both caches are written together
      cases hid : s₂.idCache m.id with
      | some other =>
        simp only [exec_throw_bind]
        exact hunregistered hpre
      | none =>
        show Constructed path s (registered s.loaders.next path m.id s₂)
        have hget := get_registered s.loaders.next path m.id s₂
        refine ⟨hpre.next.trans hnext, fun l hl => ?_, .inr ⟨m, ?_, ?_, ?_, ?_, ?_, ?_⟩⟩
        · have hother : (registered s.loaders.next path m.id s₂).loaders.get l = s₂.loaders.get l :=
            if_neg hl
          exact hother.trans ((hpre.others l hl).trans (hothers l hl))
        · rw [hget]
          exact hm
        · rw [hget]
          refine hpre.path.trans ?_
          rw [hself]
        · rw [hget]
        · rw [← hcaches.1, ← hpre.idCache]
          exact hid
        · rw [← hcaches.1, ← hpre.idCache]
          rfl
        · rw [← hcaches.2, ← hpre.pathCache]
          rfl

/-! ### The caches over a run -/

inductive Op (B : Type)
  | get (path : Path)
  | reload (l : Ref) (newPath : Option Path)
  | delete (l : Ref) (raised : Option PyExc)
  /-- somebody writes or removes a file -/
  | write (path : Path) (bytes : Option B)

/-- A call, however it ends; there is a loader to call once `__init__` has returned. -/
def step (P : Platform B E C Y M) (op : Op B) (s : Loaders B E M) : Loaders B E M :=
  match op with
  | .get path         => ((getLoader P path).exec s).2
  | .reload l newPath =>
    if (s.loaders.get l).constructed then ((reload P l newPath).exec s).2 else s
  | .delete l raised  =>
    if (s.loaders.get l).constructed then ((delete P l raised).exec s).2 else s
  | .write path bytes => { s with files := Function.update s.files (abspath P.cwd path) bytes }

/-- The caches hold the same loaders, each one under its own id and its own path and under no
    other, and no two share an id or a path. -/
structure Consistent (s : Loaders B E M) : Prop where
  same    : ∀ l, (∃ i, s.idCache i = some l) ↔ ∃ p, s.pathCache p = some l
  id      : ∀ i l, s.idCache i = some l → ∃ m, (s.loaders.get l).pluginMeta = some m ∧ m.id = i
  path    : ∀ p l, s.pathCache p = some l → (s.loaders.get l).path = some p
  entries : ∀ l m p, (s.loaders.get l).pluginMeta = some m → (s.loaders.get l).path = some p →
    (∃ i, s.idCache i = some l) → s.idCache m.id = some l ∧ s.pathCache p = some l
  unique  : ∀ l l' i i', s.idCache i = some l → s.idCache i' = some l' →
    (i = i' ∨ (s.loaders.get l).path = (s.loaders.get l').path) → l = l'

/-- The path that a `reload` is given is not that of another live loader. -/
def Free (s : Loaders B E M) (op : Op B) : Prop :=
  match op with
  | .reload _ none     => True
  | .reload l (some p) => ∀ l', s.pathCache p = some l' → l' = l
  | _                  => True

/-- A loader that is not in the caches any more is not given another path, and is deleted only
    if the two caches have the same under its path and its id: nothing, or one other loader. -/
def Careful (s : Loaders B E M) (op : Op B) : Prop :=
  match op with
  | .reload _ none     => True
  | .reload l (some p) => (s.loaders.get l).constructed = true → ∀ q m,
    (s.loaders.get l).path = some q → (s.loaders.get l).pluginMeta = some m → q ≠ p →
      s.idCache m.id = some l
  | .delete l _        => (s.loaders.get l).constructed = true → ∀ q m,
    (s.loaders.get l).path = some q → (s.loaders.get l).pluginMeta = some m →
      s.pathCache q = s.idCache m.id
  | _                  => True

/-- Constructed loaders have their ids for good, until they have no metadata. -/
structure Steady (s s' : Loaders B E M) : Prop where
  constructed : ∀ l, (s.loaders.get l).constructed = true →
    (s'.loaders.get l).constructed = true
  id          : ∀ l, (s.loaders.get l).constructed = true → ∀ m',
    (s'.loaders.get l).pluginMeta = some m' →
      ∃ m, (s.loaders.get l).pluginMeta = some m ∧ m.id = m'.id

/-- Both caches at once. -/
structure Inv (s : Loaders B E M) : Prop where
  idCache   : ∀ i l, s.idCache i = some l → ∃ m p, (s.loaders.get l).pluginMeta = some m ∧
    m.id = i ∧ (s.loaders.get l).path = some p ∧ s.pathCache p = some l
  pathCache : ∀ p l, s.pathCache p = some l → (s.loaders.get l).path = some p ∧
    ∃ m, (s.loaders.get l).pluginMeta = some m ∧ s.idCache m.id = some l

/-- The invariant says that the caches are consistent. -/
theorem Inv.consistent (h : Inv s) : Consistent s where
  same l := by
    constructor
    · rintro ⟨i, hi⟩
      obtain ⟨m, p, -, -, -, hp⟩ := h.idCache i l hi
      exact ⟨p, hp⟩
    · rintro ⟨p, hp⟩
      obtain ⟨-, m, -, hi⟩ := h.pathCache p l hp
      exact ⟨m.id, hi⟩
  id i l hi := by
    obtain ⟨m, -, hm, hid, -⟩ := h.idCache i l hi
    exact ⟨m, hm, hid⟩
  path p l hp := (h.pathCache p l hp).1
  entries l m p hm hp := by
    rintro ⟨i, hi⟩
    obtain ⟨m', p', hm', rfl, hp', hcache⟩ := h.idCache i l hi
    obtain rfl : m = m' := Option.some.inj (hm.symm.trans hm')
    obtain rfl : p = p' := Option.some.inj (hp.symm.trans hp')
    exact ⟨hi, hcache⟩
  unique l l' i i' hi hi' := by
    rintro (rfl | hpath)
    · exact Option.some.inj (hi.symm.trans hi')
    · obtain ⟨-, p, -, -, hp, hcache⟩ := h.idCache i l hi
      obtain ⟨-, p', -, -, hp', hcache'⟩ := h.idCache i' l' hi'
      rw [hp, hp'] at hpath
      obtain rfl : p = p' := Option.some.inj hpath
      exact Option.some.inj (hcache.symm.trans hcache')

/-- And consistency is all of it. -/
theorem Consistent.inv (h : Consistent s) : Inv s where
  idCache i l hi := by
    obtain ⟨m, hm, hid⟩ := h.id i l hi
    obtain ⟨p, hp⟩ := (h.same l).mp ⟨i, hi⟩
    exact ⟨m, p, hm, hid, h.path p l hp, hp⟩
  pathCache p l hp := by
    obtain ⟨i, hi⟩ := (h.same l).mpr ⟨p, hp⟩
    obtain ⟨m, hm, hid⟩ := h.id i l hi
    exact ⟨h.path p l hp, m, hm, hid ▸ hi⟩

/-- A loader changes under an id and a path that it keeps. -/
theorem Inv.loads (h : Inv s) {l : Ref} (hl : Loads l s s') : Inv s' := by
  have hget : ∀ k m p, (s.loaders.get k).pluginMeta = some m → (s.loaders.get k).path = some p →
      (∃ m', (s'.loaders.get k).pluginMeta = some m' ∧ m'.id = m.id) ∧
        (s'.loaders.get k).path = some p := by
    intro k m p hm hp
    rcases eq_or_ne k l with rfl | hk
    · exact ⟨hl.pluginMeta m hm, hl.path.trans hp⟩
    · rw [hl.others k hk]
      exact ⟨⟨m, hm, rfl⟩, hp⟩
  refine ⟨fun i k hi => ?_, fun p k hp => ?_⟩
  · rw [hl.idCache] at hi
    obtain ⟨m, p, hm, rfl, hp, hcache⟩ := h.idCache i k hi
    obtain ⟨⟨m', hm', hid⟩, hp'⟩ := hget k m p hm hp
    exact ⟨m', p, hm', hid, hp', by rw [hl.pathCache]; exact hcache⟩
  · rw [hl.pathCache] at hp
    obtain ⟨hpath, m, hm, hi⟩ := h.pathCache p k hp
    obtain ⟨⟨m', hm', hid⟩, hp'⟩ := hget k m p hm hpath
    exact ⟨hp', m', hm', by rw [hl.idCache, hid]; exact hi⟩

/-- What a run keeps: loaders in the caches are constructed, and constructed loaders are old. -/
structure Whole (s : Loaders B E M) : Prop extends Inv s where
  constructed : ∀ i l, s.idCache i = some l → (s.loaders.get l).constructed = true
  old         : ∀ l, (s.loaders.get l).constructed = true → l < s.loaders.next

/-- A load keeps the caches whole. -/
theorem Whole.loads (h : Whole s) {l : Ref} (hl : Loads l s s') : Whole s' := by
  have hcon : ∀ k, (s'.loaders.get k).constructed = (s.loaders.get k).constructed := by
    intro k
    rcases eq_or_ne k l with rfl | hk
    · exact hl.constructed
    · rw [hl.others k hk]
  refine ⟨h.toInv.loads hl, fun i k hi => ?_, fun k hk => ?_⟩
  · rw [hcon]
    exact h.constructed i k (by rw [← hl.idCache]; exact hi)
  · rw [hl.next]
    exact h.old k (by rw [← hcon]; exact hk)

/-! ### One call -/

/-- The next loader is not constructed yet. -/
theorem Whole.not_constructed_next (h : Whole s) :
    (s.loaders.get s.loaders.next).constructed ≠ true := fun hc => Nat.lt_irrefl _ (h.old _ hc)

/-- It is in no cache. -/
theorem Whole.ne_next (h : Whole s) {i : String} {k : Ref} (hi : s.idCache i = some k) :
    k ≠ s.loaders.next := by
  rintro rfl
  exact h.not_constructed_next (h.constructed i _ hi)

/-- After it is made, the constructed ones are still old. -/
theorem Whole.old_next (h : Whole s) (hnext : s'.loaders.next = s.loaders.next + 1)
    (hothers : ∀ l, l ≠ s.loaders.next → s'.loaders.get l = s.loaders.get l) (k : Ref)
    (hk : (s'.loaders.get k).constructed = true) : k < s'.loaders.next := by
  rw [hnext]
  rcases eq_or_ne k s.loaders.next with rfl | hkn
  · exact Nat.lt_succ_self _
  · exact Nat.lt_succ_of_lt (h.old k (by rw [← hothers k hkn]; exact hk))

/-- A construction that failed leaves an object, and the caches as they were. -/
theorem Whole.made (h : Whole s) (hnext : s'.loaders.next = s.loaders.next + 1)
    (hothers : ∀ l, l ≠ s.loaders.next → s'.loaders.get l = s.loaders.get l)
    (hid : s'.idCache = s.idCache) (hpath : s'.pathCache = s.pathCache) : Whole s' := by
  refine ⟨⟨fun i k hi => ?_, fun p k hk => ?_⟩, fun i k hi => ?_, h.old_next hnext hothers⟩
  · rw [hid] at hi
    rw [hpath, hothers k (h.ne_next hi)]
    exact h.idCache i k hi
  · rw [hpath] at hk
    obtain ⟨hkp, m, hm, hi⟩ := h.pathCache p k hk
    rw [hid, hothers k (h.ne_next hi)]
    exact ⟨hkp, m, hm, hi⟩
  · rw [hid] at hi
    rw [hothers k (h.ne_next hi)]
    exact h.constructed i k hi

/-- A construction that returned has put the object in both caches. -/
theorem Whole.registered (h : Whole s) (hnext : s'.loaders.next = s.loaders.next + 1)
    (hothers : ∀ l, l ≠ s.loaders.next → s'.loaders.get l = s.loaders.get l) {q : Path}
    (hmiss : s.pathCache q = none) {m : PluginMeta}
    (hm : (s'.loaders.get s.loaders.next).pluginMeta = some m)
    (hp : (s'.loaders.get s.loaders.next).path = some q)
    (hcon : (s'.loaders.get s.loaders.next).constructed = true) (hfree : s.idCache m.id = none)
    (hid : s'.idCache = Function.update s.idCache m.id (some s.loaders.next))
    (hpath : s'.pathCache = Function.update s.pathCache q (some s.loaders.next)) : Whole s' := by
  refine ⟨⟨fun i k hi => ?_, fun p k hk => ?_⟩, fun i k hi => ?_, h.old_next hnext hothers⟩
  · rw [hid] at hi
    rw [hpath]
    rcases of_update_eq_some hi with ⟨rfl, hsome⟩ | ⟨-, hi⟩
    · obtain rfl := Option.some.inj hsome
      exact ⟨m, _, hm, rfl, hp, Function.update_self _ _ _⟩
    · obtain ⟨mk, pk, hmk, hidk, hpk, hcache⟩ := h.idCache i k hi
      -- the new path was in no cache, so no other loader has it
      have hpne : pk ≠ q := by
        rintro rfl
        rw [hmiss] at hcache
        cases hcache
      rw [hothers k (h.ne_next hi)]
      exact ⟨mk, pk, hmk, hidk, hpk, (Function.update_of_ne hpne _ _).trans hcache⟩
  · rw [hpath] at hk
    rw [hid]
    rcases of_update_eq_some hk with ⟨rfl, hsome⟩ | ⟨-, hk⟩
    · obtain rfl := Option.some.inj hsome
      exact ⟨hp, m, hm, Function.update_self _ _ _⟩
    · obtain ⟨hkp, mk, hmk, hi⟩ := h.pathCache p k hk
      -- nor the new id
      have hine : mk.id ≠ m.id := by
        intro he
        rw [he, hfree] at hi
        cases hi
      rw [hothers k (h.ne_next hi)]
      exact ⟨hkp, mk, hmk, (Function.update_of_ne hine _ _).trans hi⟩
  · rw [hid] at hi
    rcases of_update_eq_some hi with ⟨rfl, hsome⟩ | ⟨-, hi⟩
    · obtain rfl := Option.some.inj hsome
      exact hcon
    · rw [hothers k (h.ne_next hi)]
      exact h.constructed i k hi

/-- `get` keeps the caches whole. -/
theorem Whole.get (h : Whole s) (path : Path) : Whole ((getLoader P path).exec s).2 := by
  unfold getLoader
  rw [exec_get_bind]
  cases hmiss : s.pathCache (abspath P.cwd path) with
  | some l => exact h
  | none =>
    obtain ⟨hnext, hothers, hcaches⟩ := construct_cases (P := P) (abspath P.cwd path) s
    rcases hcaches with ⟨hid, hpath, -⟩ | ⟨m, hm, hp, hcon, hfree, hid, hpath⟩
    · exact h.made hnext hothers hid hpath
    · exact h.registered hnext hothers hmiss hm hp hcon hfree hid hpath

/-- A loader that moves has its new path and no class. -/
theorem get_moved (l : Ref) (q p : Path) (s : Loaders B E M) :
    (moved P l q p s).loaders.get l = { s.loaders.get l with loaded := none, path := some p } := by
  have hget : (moved P l q p s).loaders.get l =
      { (unloaded P l q s).loaders.get l with path := some p } :=
    Store.get_modify_self (unloaded P l q s).loaders l fun l => { l with path := some p }
  rw [hget, get_unloaded]

/-- The others stay. -/
theorem get_moved_ne {l k : Ref} (hk : k ≠ l) (q p : Path) (s : Loaders B E M) :
    (moved P l q p s).loaders.get k = s.loaders.get k :=
  (if_neg hk).trans (if_neg hk)

/-- A loader that is in the caches may go to a free path. -/
theorem Whole.moved (h : Whole s) {l : Ref} {q p : Path} {m : PluginMeta}
    (hp : (s.loaders.get l).path = some q) (hm : (s.loaders.get l).pluginMeta = some m)
    (hfree : ∀ l', s.pathCache p = some l' → l' = l) (hid : s.idCache m.id = some l) :
    Whole (moved P l q p s) := by
  have hq : s.pathCache q = some l := (h.consistent.entries l m q hm hp ⟨_, hid⟩).2
  have hcaches : (ZipLoader.moved P l q p s).idCache = s.idCache ∧
      (ZipLoader.moved P l q p s).pathCache =
        Function.update (Function.update s.pathCache q none) p (some l) := ⟨rfl, rfl⟩
  have hcon : ∀ k, ((ZipLoader.moved P l q p s).loaders.get k).constructed =
      (s.loaders.get k).constructed := by
    intro k
    rcases eq_or_ne k l with rfl | hk
    · rw [get_moved]
    · rw [get_moved_ne hk]
  refine ⟨⟨fun i k hi => ?_, fun p' k hk => ?_⟩, fun i k hi => ?_, fun k hk => ?_⟩
  · rw [hcaches.1] at hi
    rw [hcaches.2]
    obtain ⟨mk, pk, hmk, hidk, hpk, hcache⟩ := h.idCache i k hi
    rcases eq_or_ne k l with rfl | hk
    · rw [get_moved]
      exact ⟨mk, p, hmk, hidk, rfl, Function.update_self _ _ _⟩
    -- another loader is under neither of the two paths
    · have hpne : pk ≠ p := by
        rintro rfl
        exact hk (hfree k hcache)
      have hqne : pk ≠ q := by
        rintro rfl
        exact hk (Option.some.inj (hcache.symm.trans hq))
      rw [get_moved_ne hk]
      refine ⟨mk, pk, hmk, hidk, hpk, ?_⟩
      rw [Function.update_of_ne hpne, Function.update_of_ne hqne]
      exact hcache
  · rw [hcaches.2] at hk
    rw [hcaches.1]
    rcases of_update_eq_some hk with ⟨rfl, hsome⟩ | ⟨hp', hk⟩
    · obtain rfl := Option.some.inj hsome
      rw [get_moved]
      exact ⟨rfl, m, hm, hid⟩
    · rcases of_update_eq_some hk with ⟨-, hsome⟩ | ⟨hq', hk⟩
      · cases hsome
      · obtain ⟨hkp, mk, hmk, hi⟩ := h.pathCache p' k hk
        have hkl : k ≠ l := by
          rintro rfl
          exact hq' (Option.some.inj (hkp.symm.trans hp))
        rw [get_moved_ne hkl]
        exact ⟨hkp, mk, hmk, hi⟩
  · rw [hcon]
    exact h.constructed i k hi
  · rw [hcon] at hk
    exact h.old k hk

/-- Both entries go, and both are of one loader if there are any. -/
theorem Whole.removed (h : Whole s) {l : Ref} {q : Path} {m : PluginMeta}
    (hp : (s.loaders.get l).path = some q) (hm : (s.loaders.get l).pluginMeta = some m)
    (heq : s.pathCache q = s.idCache m.id) (hr : Removed l q m.id s s') : Whole s' := by
  have hcon : ∀ k, (s'.loaders.get k).constructed = (s.loaders.get k).constructed := by
    intro k
    rcases eq_or_ne k l with rfl | hk
    · exact hr.constructed
    · rw [hr.others k hk]
  refine ⟨⟨fun i k hi => ?_, fun p k hk => ?_⟩, fun i k hi => ?_, fun k hk => ?_⟩
  · rw [hr.idCache] at hi
    rcases of_update_eq_some hi with ⟨-, hsome⟩ | ⟨hi', hi⟩
    · cases hsome
    · obtain ⟨mk, pk, hmk, hidk, hpk, hcache⟩ := h.idCache i k hi
      -- an entry that is left belongs to another loader and to another path
      have hkl : k ≠ l := by
        rintro rfl
        obtain rfl : m = mk := Option.some.inj (hm.symm.trans hmk)
        exact hi' hidk.symm
      have hpq : pk ≠ q := by
        rintro rfl
        rw [heq] at hcache
        obtain ⟨mk', -, hmk', hidk', -⟩ := h.idCache m.id k hcache
        obtain rfl : mk = mk' := Option.some.inj (hmk.symm.trans hmk')
        exact hi' (hidk.symm.trans hidk')
      rw [hr.others k hkl, hr.pathCache]
      exact ⟨mk, pk, hmk, hidk, hpk, (Function.update_of_ne hpq _ _).trans hcache⟩
  · rw [hr.pathCache] at hk
    rcases of_update_eq_some hk with ⟨-, hsome⟩ | ⟨hp', hk⟩
    · cases hsome
    · obtain ⟨hkp, mk, hmk, hi⟩ := h.pathCache p k hk
      have hkl : k ≠ l := by
        rintro rfl
        exact hp' (Option.some.inj (hkp.symm.trans hp))
      have hine : mk.id ≠ m.id := by
        intro he
        rw [he, ← heq] at hi
        exact hp' (Option.some.inj (hkp.symm.trans (h.pathCache q k hi).1))
      rw [hr.others k hkl, hr.idCache]
      exact ⟨hkp, mk, hmk, (Function.update_of_ne hine _ _).trans hi⟩
  · rw [hr.idCache] at hi
    rcases of_update_eq_some hi with ⟨-, hsome⟩ | ⟨hi', hi⟩
    · cases hsome
    · rw [hcon]
      exact h.constructed i k hi
  · rw [hr.next]
    exact h.old k (by rw [← hcon]; exact hk)

/-! ### Runs -/

/-- A step of a constructed loader is the operation. -/
theorem step_reload {l : Ref} (h : (s.loaders.get l).constructed = true)
    (newPath : Option Path) : step P (.reload l newPath) s = ((reload P l newPath).exec s).2 :=
  if_pos h

/-- The same for a delete. -/
theorem step_delete {l : Ref} (h : (s.loaders.get l).constructed = true)
    (raised : Option PyExc) : step P (.delete l raised) s = ((delete P l raised).exec s).2 :=
  if_pos h

/-- A loader that has not been constructed is in nobody's hands. -/
theorem step_reload_absent {l : Ref} (h : ¬ (s.loaders.get l).constructed = true)
    (newPath : Option Path) : step P (.reload l newPath) s = s :=
  if_neg h

/-- A loader that does not exist is not deleted. -/
theorem step_delete_absent {l : Ref} (h : ¬ (s.loaders.get l).constructed = true)
    (raised : Option PyExc) : step P (.delete l raised) s = s :=
  if_neg h

/-- A step that is free and careful keeps the caches whole. -/
theorem whole_step (h : Whole s) (op : Op B) (hf : Free s op) (hc : Careful s op) :
    Whole (step P op s) := by
  cases op with
  | get path => exact h.get path
  | write path bytes => exact ⟨⟨h.idCache, h.pathCache⟩, h.constructed, h.old⟩
  | reload l newPath =>
    by_cases hcon : (s.loaders.get l).constructed = true
    · rw [step_reload hcon]
      rcases reload_cases (P := P) l newPath s with hb | ⟨q, p, m, rfl, hp, hq, hm⟩
      · exact h.loads hb.toLoads
      · exact (h.moved hp hm hf (hc hcon q m hp hm hq)).loads (loads_moved hp hm hq)
    · rw [step_reload_absent hcon]
      exact h
  | delete l raised =>
    by_cases hcon : (s.loaders.get l).constructed = true
    · rw [step_delete hcon]
      by_cases hboth : ∃ q m, (s.loaders.get l).path = some q ∧
          (s.loaders.get l).pluginMeta = some m
      · obtain ⟨q, m, hp, hm⟩ := hboth
        exact h.removed hp hm (hc hcon q m hp hm) (removed_delete hp hm raised)
      · exact h.loads (bare_delete (fun q m hp hm => hboth ⟨q, m, hp, hm⟩) raised).toLoads
    · rw [step_delete_absent hcon]
      exact h

/-- A loader that gets a path, and that its id does not find, is not in order there. -/
theorem not_inv_moved {l : Ref} {q p : Path} {m : PluginMeta}
    (hm : (s.loaders.get l).pluginMeta = some m) (hid : s.idCache m.id ≠ some l)
    (hloads : Loads l (moved P l q p s) s') : ¬ Inv s' := by
  intro h'
  have hcache : s'.pathCache p = some l := by
    rw [hloads.pathCache]
    exact Function.update_self _ _ _
  obtain ⟨-, m', hm', hid'⟩ := h'.pathCache p l hcache
  have hmoved : ((moved P l q p s).loaders.get l).pluginMeta = some m := by
    rw [get_moved]
    exact hm
  obtain ⟨m'', hm'', hsame⟩ := hloads.pluginMeta m hmoved
  obtain rfl : m' = m'' := Option.some.inj (hm'.symm.trans hm'')
  rw [hloads.idCache, hsame] at hid'
  exact hid hid'

/-- Where the path and the id find different loaders, removing both entries leaves one of the
    loaders with only one entry. -/
theorem not_inv_removed (h : Inv s) {l : Ref} {q : Path} {m : PluginMeta}
    (hp : (s.loaders.get l).path = some q) (hm : (s.loaders.get l).pluginMeta = some m)
    (hne : s.pathCache q ≠ s.idCache m.id) (hr : Removed l q m.id s s') : ¬ Inv s' := by
  intro h'
  cases hq : s.pathCache q with
  | some a =>
    -- the loader at the path keeps the entry under its own id
    obtain ⟨hpa, ma, hma, hia⟩ := h.pathCache q a hq
    have hine : ma.id ≠ m.id := by
      intro he
      rw [he] at hia
      exact hne (hq.trans hia.symm)
    have hal : a ≠ l := by
      rintro rfl
      exact hine (congrArg PluginMeta.id (Option.some.inj (hma.symm.trans hm)))
    have hia' : s'.idCache ma.id = some a := by
      rw [hr.idCache, Function.update_of_ne hine]
      exact hia
    obtain ⟨-, pa, -, -, hpa', hcache⟩ := h'.idCache ma.id a hia'
    rw [hr.others a hal] at hpa'
    obtain rfl : q = pa := Option.some.inj (hpa.symm.trans hpa')
    rw [hr.pathCache, Function.update_self] at hcache
    cases hcache
  | none =>
    -- the loader with the id keeps the entry at its own path
    obtain ⟨a, hia⟩ : ∃ a, s.idCache m.id = some a := by
      rw [hq] at hne
      exact Option.ne_none_iff_exists'.mp (Ne.symm hne)
    obtain ⟨ma, pa, hma, hida, hpa, hcache⟩ := h.idCache m.id a hia
    have hpq : pa ≠ q := by
      rintro rfl
      rw [hq] at hcache
      cases hcache
    have hal : a ≠ l := by
      rintro rfl
      exact hpq (Option.some.inj (hpa.symm.trans hp))
    have hcache' : s'.pathCache pa = some a := by
      rw [hr.pathCache, Function.update_of_ne hpq]
      exact hcache
    obtain ⟨-, ma', hma', hia'⟩ := h'.pathCache pa a hcache'
    rw [hr.others a hal] at hma'
    obtain rfl : ma = ma' := Option.some.inj (hma.symm.trans hma')
    rw [hida, hr.idCache, Function.update_self] at hia'
    cases hia'

/-- A careless call breaks the caches. -/
theorem not_consistent_of_careless (h : Whole s) (op : Op B) (hc : ¬ Careful s op) :
    ¬ Consistent (step P op s) := by
  intro hcon'
  have h' := hcon'.inv
  cases op with
  | get path => exact hc trivial
  | write path bytes => exact hc trivial
  | reload l newPath =>
    cases newPath with
    | none => exact hc trivial
    | some p =>
      simp only [Careful, not_forall] at hc
      obtain ⟨hcon, q, m, hp, hm, hq, hid⟩ := hc
      rw [step_reload hcon] at h'
      exact not_inv_moved hm hid (loads_moved (P := P) hp hm hq) h'
  | delete l raised =>
    simp only [Careful, not_forall] at hc
    obtain ⟨hcon, q, m, hp, hm, hne⟩ := hc
    rw [step_delete hcon] at h'
    exact not_inv_removed h.toInv hp hm hne (removed_delete (P := P) hp hm raised) h'

/-- Constructed loaders are older than the next one. -/
def Older (s : Loaders B E M) : Prop :=
  ∀ l, (s.loaders.get l).constructed = true → l < s.loaders.next

/-- A loader keeps its id over no step. -/
theorem Steady.refl (s : Loaders B E M) : Steady s s := ⟨fun _ h => h, fun _ _ m h => ⟨m, h, rfl⟩⟩

/-- It keeps it over two, if it does over each. -/
theorem Steady.trans {s'' : Loaders B E M} (h : Steady s s') (h' : Steady s' s'') :
    Steady s s'' := by
  refine ⟨fun l hl => h'.constructed l (h.constructed l hl), fun l hl m'' hm'' => ?_⟩
  obtain ⟨m', hm', hid'⟩ := h'.id l (h.constructed l hl) m'' hm''
  obtain ⟨m, hm, hid⟩ := h.id l hl m' hm'
  exact ⟨m, hm, hid.trans hid'⟩

/-- A call that touches one loader, and leaves it with an id it had, or without metadata. -/
theorem Steady.of_one {l : Ref} (hnext : s'.loaders.next = s.loaders.next)
    (hothers : ∀ k, k ≠ l → s'.loaders.get k = s.loaders.get k)
    (hcon : (s'.loaders.get l).constructed = (s.loaders.get l).constructed)
    (hid : ∀ m', (s'.loaders.get l).pluginMeta = some m' →
      ∃ m, (s.loaders.get l).pluginMeta = some m ∧ m.id = m'.id)
    (hold : Older s) : Steady s s' ∧ Older s' := by
  have hcons : ∀ k, (s'.loaders.get k).constructed = (s.loaders.get k).constructed := by
    intro k
    rcases eq_or_ne k l with rfl | hk
    · exact hcon
    · rw [hothers k hk]
  refine ⟨⟨fun k hk => (hcons k).trans hk, fun k _ m' hm' => ?_⟩, fun k hk => ?_⟩
  · rcases eq_or_ne k l with rfl | hkl
    · exact hid m' hm'
    · rw [hothers k hkl] at hm'
      exact ⟨m', hm', rfl⟩
  · rw [hnext]
    exact hold k (by rw [← hcons]; exact hk)

/-- What leaves the metadata is steady. -/
theorem Bare.steady {l : Ref} (h : Bare l s s') (hold : Older s) : Steady s s' ∧ Older s' := by
  refine Steady.of_one h.next h.others h.constructed (fun m' hm' => ?_) hold
  cases hm : (s.loaders.get l).pluginMeta with
  | none =>
    rw [h.bare hm] at hm'
    cases hm'
  | some m =>
    obtain ⟨m'', hm'', hid⟩ := h.pluginMeta m hm
    obtain rfl : m' = m'' := Option.some.inj (hm'.symm.trans hm'')
    exact ⟨m, rfl, hid.symm⟩

/-- No call gives a constructed loader another id. -/
theorem steady_step (h : Older s) (op : Op B) : Steady s (step P op s) ∧ Older (step P op s) := by
  cases op with
  | write path bytes => exact ⟨⟨fun _ hl => hl, fun _ _ m hm => ⟨m, hm, rfl⟩⟩, h⟩
  | get path =>
    show Steady s ((getLoader P path).exec s).2 ∧ Older ((getLoader P path).exec s).2
    unfold getLoader
    rw [exec_get_bind]
    cases s.pathCache (abspath P.cwd path) with
    | some l => exact ⟨Steady.refl s, h⟩
    | none =>
      obtain ⟨hnext, hothers, -⟩ := construct_cases (P := P) (abspath P.cwd path) s
      dsimp only
      generalize ((construct P (abspath P.cwd path)).exec s).2 = s' at hnext hothers
      -- a loader that is constructed is older than the one that is being made
      have hne : ∀ l, (s.loaders.get l).constructed = true → l ≠ s.loaders.next :=
        fun l hl => Nat.ne_of_lt (h l hl)
      refine ⟨⟨fun l hl => ?_, fun l hl m' hm' => ?_⟩, fun l hl => ?_⟩
      · rw [hothers l (hne l hl)]
        exact hl
      · rw [hothers l (hne l hl)] at hm'
        exact ⟨m', hm', rfl⟩
      · rw [hnext]
        rcases eq_or_ne l s.loaders.next with rfl | hln
        · exact Nat.lt_succ_self _
        · rw [hothers l hln] at hl
          exact Nat.lt_succ_of_lt (h l hl)
  | reload l newPath =>
    by_cases hcon : (s.loaders.get l).constructed = true
    · rw [step_reload hcon]
      -- either nothing is moved, or the path is, and the id stays the same
      rcases reload_cases (P := P) l newPath s with hb | ⟨q, p, m, rfl, hp, hq, hm⟩
      · exact hb.steady h
      · have hloads := loads_moved (P := P) hp hm hq
        refine Steady.of_one hloads.next
          (fun k hk => (hloads.others k hk).trans (get_moved_ne hk q p s)) ?_ (fun m' hm' => ?_) h
        · refine hloads.constructed.trans ?_
          rw [get_moved]
        · have hmoved : ((moved P l q p s).loaders.get l).pluginMeta = some m := by
            rw [get_moved]
            exact hm
          obtain ⟨m'', hm'', hid⟩ := hloads.pluginMeta m hmoved
          obtain rfl : m' = m'' := Option.some.inj (hm'.symm.trans hm'')
          exact ⟨m, hm, hid.symm⟩
    · rw [step_reload_absent hcon]
      exact ⟨Steady.refl s, h⟩
  | delete l raised =>
    by_cases hcon : (s.loaders.get l).constructed = true
    · rw [step_delete hcon]
      by_cases hboth : ∃ q m, (s.loaders.get l).path = some q ∧
          (s.loaders.get l).pluginMeta = some m
      · obtain ⟨q, m, hp, hm⟩ := hboth
        have hr := removed_delete (P := P) hp hm raised
        refine Steady.of_one hr.next hr.others hr.constructed (fun m' hm' => ?_) h
        rcases hr.meta_or with he | he
        · rw [he] at hm'
          exact ⟨m', hm', rfl⟩
        · rw [he] at hm'
          cases hm'
      · exact (bare_delete (fun q m hp hm => hboth ⟨q, m, hp, hm⟩) raised).steady h
    · rw [step_delete_absent hcon]
      exact ⟨Steady.refl s, h⟩

/-- Hence loaders keep their ids over every run. -/
theorem steady_run (h : Older s) {allowed : Loaders B E M → Op B → Prop}
    (hr : Reach (step P) allowed s s') : Steady s s' := by
  have hboth : Steady s s' ∧ Older s' :=
    hr.invariant (I := fun s' => Steady s s' ∧ Older s') ⟨Steady.refl s, h⟩ fun t op ht _ => by
      obtain ⟨hst, hold⟩ := steady_step (P := P) ht.2 op
      exact ⟨ht.1.trans hst, hold⟩
  exact hboth.1

/-- Before the first call. -/
structure Empty (s : Loaders B E M) : Prop where
  idCache     : ∀ i, s.idCache i = none
  pathCache   : ∀ p, s.pathCache p = none
  constructed : ∀ l, (s.loaders.get l).constructed = false

/-- Empty caches are whole. -/
theorem Empty.whole (h : Empty s) : Whole s := by
  refine ⟨⟨fun i l hi => ?_, fun p l hp => ?_⟩, fun i l hi => ?_, fun l hl => ?_⟩
  · rw [h.idCache] at hi
    cases hi
  · rw [h.pathCache] at hp
    cases hp
  · rw [h.idCache] at hi
    cases hi
  · rw [h.constructed] at hl
    cases hl

/-- **The caches stay consistent**, however each call ends, while no path of a live loader is
    given to another one and a loader that a failed `delete` has left is not used in a way that
    the caches show; the first call that does so breaks them.  No call ever changes the id of a
    constructed loader. -/
theorem consistent_of_careful (P : Platform B E C Y M) (s₀ : Loaders B E M) (h₀ : Empty s₀)
    (s : Loaders B E M)
    (h : Reach (step P) (fun s op => Free s op ∧ Careful s op) s₀ s) :
    Consistent s ∧ (∀ op, Free s op → (Consistent (step P op s) ↔ Careful s op)) ∧
      ∀ s', Reach (step P) (fun _ _ => True) s s' → Steady s s' := by
  have hwhole : Whole s := h.invariant h₀.whole fun _ op hs hop => whole_step hs op hop.1 hop.2
  refine ⟨hwhole.consistent, fun op hf => ⟨fun hcon => ?_, fun hc => ?_⟩, fun s' hs' => ?_⟩
  · by_contra hc
    exact not_consistent_of_careless hwhole op hc hcon
  · exact (whole_step hwhole op hf hc).consistent
  · exact steady_run hwhole.old hs'

/-! ### Two archives -/

open ZipTest

namespace CachesTest

def startup : Loaders PluginMeta Unit Unit where
  files p := if p = "/e".toList then some echo else none
  directoryCache _ := none
  loaders := ⟨fun _ => { path := none }, 0⟩
  modules := ()

/-- They are empty when the program starts. -/
theorem startup_empty : Empty startup := ⟨fun _ => rfl, fun _ => rfl, fun _ => rfl⟩

def run (ops : List (Op PluginMeta)) : Loaders PluginMeta Unit Unit :=
  ops.foldl (fun s op => step platform op s) startup

end CachesTest

open CachesTest in
/-- A plugin is found, moves to the archive of its update, and is deleted. -/
theorem consistent_of_careful_update :
    (run [.get "/e".toList, .write "/f".toList (some echo), .reload 0 (some "/f".toList)]).pathCache
      "/f".toList = some 0 ∧
    Consistent (run [.get "/e".toList, .write "/f".toList (some echo),
      .reload 0 (some "/f".toList), .delete 0 none]) := by
  have go : ∀ {s : Loaders PluginMeta Unit Unit} (op : Op PluginMeta),
      Reach (step platform) (fun s op => Free s op ∧ Careful s op) startup s →
      Free s op ∧ Careful s op →
      Reach (step platform) (fun s op => Free s op ∧ Careful s op) startup (step platform op s) :=
    fun op h hop => h.step op hop
  -- each step is careful: the new path is free, and the id finds the loader
  have h₁ := go (.write "/f".toList (some echo)) (go (.get "/e".toList) .start ⟨trivial, trivial⟩)
    ⟨trivial, trivial⟩
  refine ⟨by decide, (consistent_of_careful platform startup startup_empty _
    (go (.delete 0 none) (go (.reload 0 (some "/f".toList)) h₁ ⟨?_, ?_⟩) ⟨trivial, ?_⟩)).1⟩
  · intro l' hl'
    have hnone : (run [.get "/e".toList, .write "/f".toList (some echo)]).pathCache "/f".toList =
        none := by decide
    exact absurd (hnone.symm.trans hl') nofun
  · intro _ q m _ hm _
    have hecho :
        ((run [.get "/e".toList, .write "/f".toList (some echo)]).loaders.get 0).pluginMeta =
          some echo := by decide
    obtain rfl := Option.some.inj (hecho.symm.trans hm)
    exact (by decide : (run [.get "/e".toList, .write "/f".toList (some echo)]).idCache "echo" =
      some 0)
  · intro _ q m hq hm
    have hecho : ((run [.get "/e".toList, .write "/f".toList (some echo),
        .reload 0 (some "/f".toList)]).loaders.get 0).pluginMeta = some echo := by decide
    have hpath : ((run [.get "/e".toList, .write "/f".toList (some echo),
        .reload 0 (some "/f".toList)]).loaders.get 0).path = some "/f".toList := by decide
    obtain rfl := Option.some.inj (hecho.symm.trans hm)
    obtain rfl := Option.some.inj (hpath.symm.trans hq)
    exact (by decide : (run [.get "/e".toList, .write "/f".toList (some echo),
        .reload 0 (some "/f".toList)]).pathCache "/f".toList = (run [.get "/e".toList,
        .write "/f".toList (some echo), .reload 0 (some "/f".toList)]).idCache "echo")

namespace CachesTest

def denied : Option PyExc := some ⟨.osError, "Permission denied"⟩

/-- The file of the plugin cannot be removed; then the loader is used again. -/
def reused : List (Op PluginMeta) :=
  [.get "/e".toList, .delete 0 denied, .write "/f".toList (some echo),
    .reload 0 (some "/f".toList)]

/-- Another plugin is in the file when the loader is deleted again. -/
def twice : List (Op PluginMeta) :=
  [.get "/e".toList, .delete 0 denied, .write "/e".toList (some dice), .get "/e".toList,
    .delete 0 denied]

/-- A free step goes on with a run of free steps. -/
theorem free_reach {s : Loaders PluginMeta Unit Unit} (op : Op PluginMeta)
    (h : Reach (step platform) Free startup s) (hf : Free s op) :
    Reach (step platform) Free startup (step platform op s) := h.step op hf

/-- The run that uses a path again is one of free steps. -/
theorem reach_reused : Reach (step platform) Free startup (run reused) := by
  refine free_reach (.reload 0 (some "/f".toList)) (free_reach (.write "/f".toList (some echo))
    (free_reach (.delete 0 denied) (free_reach (.get "/e".toList) .start trivial) trivial)
    trivial) fun l' hl' => ?_
  have hnone : (run [.get "/e".toList, .delete 0 denied,
      .write "/f".toList (some echo)]).pathCache "/f".toList = none := by decide
  exact absurd (hnone.symm.trans hl') nofun

/-- So is the one that has an id twice. -/
theorem reach_twice : Reach (step platform) Free startup (run twice) :=
  free_reach (.delete 0 denied) (free_reach (.get "/e".toList) (free_reach
    (.write "/e".toList (some dice)) (free_reach (.delete 0 denied)
    (free_reach (.get "/e".toList) .start trivial) trivial) trivial) trivial) trivial

/-- Its caches: the path is found and the id is not. -/
theorem reused_caches : (run reused).pathCache "/f".toList = some 0 ∧
    (run reused).idCache "echo" = none := by decide

/-- Its caches: the id is found and the path is not. -/
theorem twice_caches : (run twice).idCache "dice" = some 1 ∧
    (run twice).pathCache "/e".toList = none := by decide

/-- The loader of the path still has its metadata. -/
theorem reused_meta : ((run reused).loaders.get 0).pluginMeta = some echo := by decide

/-- The loader of the id still has its path. -/
theorem twice_path : ((run twice).loaders.get 1).path = some "/e".toList := by decide

end CachesTest

open CachesTest in
/-- A `delete` that cannot remove the file: then `reload` with a new path puts the loader into
    one cache only, and a second `delete` takes the entry of another loader. -/
theorem deleted_loader_registered :
    (∃ s, Reach (step platform) Free startup s ∧ s.pathCache "/f".toList = some 0 ∧
      s.idCache "echo" = none ∧ ¬ Consistent s) ∧
    ∃ s, Reach (step platform) Free startup s ∧ s.idCache "dice" = some 1 ∧
      s.pathCache "/e".toList = none ∧ ¬ Consistent s := by
  refine ⟨⟨run reused, reach_reused, reused_caches.1, reused_caches.2, fun h => ?_⟩,
    ⟨run twice, reach_twice, twice_caches.1, twice_caches.2, fun h => ?_⟩⟩
  · obtain ⟨-, m, hm, hi⟩ := h.inv.pathCache _ 0 reused_caches.1
    obtain rfl := Option.some.inj (reused_meta.symm.trans hm)
    exact absurd (reused_caches.2.symm.trans hi) nofun
  · obtain ⟨-, p, -, -, hp, hcache⟩ := h.inv.idCache _ 1 twice_caches.1
    obtain rfl := Option.some.inj (twice_path.symm.trans hp)
    exact absurd (twice_caches.2.symm.trans hcache) nofun

end ZipLoader

end Maubot
