import Maubot.Lib.Runs
import Maubot.Lib.Store
import Mathlib.Data.Finset.Insert

namespace Maubot

/-!
# Lookups and deletions that overlap

`Client` and `PluginInstance` keep their objects the same way: a class-level `cache`, and a
table.  `get` looks in the cache, else reads the row and caches a new object for it, or
inserts a row; a lock lets one `get` of an id run at a time.  `delete` drops the cache entry
and then deletes the row.  Each statement runs some time after it was awaited, and the call
goes on some time after that.

* `step` — one id, with the `get` under the lock and any number of `delete`s;
* `Exclusive` — a `get` that misses the cache and a `delete` keep out of each other's way;
* `sound_of_exclusive` — then a cached object has its row, and there is one object at a time.
-/

/-- Where the `get` under the lock is. -/
inductive Getting
  /-- `super().get(id)`, whose statement has not run yet; whether `get` has the arguments
      that make it create a row -/
  | select (creates : Bool)
  | selected (creates found : Bool)
  /-- `insert()` of a new object -/
  | insert (object : Ref)
  | inserted (object : Ref)
  deriving DecidableEq, Repr

/-- Where a `delete` is. -/
inductive Deleting
  | execute (object : Ref)
  | executed (object : Ref)
  deriving DecidableEq, Repr

/-- One id: its cache entry, whether the table has its row, and the calls. -/
structure Registry where
  cache    : Option Ref := none
  row      : Bool
  getting  : Option Getting := none
  deleting : Nat → Option Deleting := fun _ => none
  /-- not in the source: the objects that a `get` returned, and those whose row was deleted -/
  returned : Finset Ref := ∅
  deleted  : Finset Ref := ∅
  /-- the next object -/
  next     : Ref := 0

namespace Registry

inductive Event
  /-- a `get` obtains the lock -/
  | get (creates : Bool)
  /-- its statement runs, and it goes on -/
  | select
  | endSelect
  | insert
  | endInsert
  /-- a new call `delete()` of an object, under a free number -/
  | delete (k : Nat) (object : Ref)
  /-- its statement runs, or is refused, and it goes on -/
  | executeDelete (k : Nat) (refused : Bool)
  | endDelete (k : Nat)
  deriving DecidableEq, Repr

/-- `postinit()` and `return` -/
def register (s : Registry) (o : Ref) : Registry :=
  { s with cache := some o, returned := insert o s.returned, getting := none }

def step (e : Event) (s : Registry) : Registry :=
  match e with
  | .get creates             =>
    match s.getting, s.cache with
    | some _, _    => s
    | none, some o => { s with returned := insert o s.returned }
    | none, none   => { s with getting := some (.select creates) }
  | .select                  =>
    match s.getting with
    | some (.select creates) => { s with getting := some (.selected creates s.row) }
    | _                      => s
  | .endSelect               =>
    match s.getting with
    | some (.selected creates found) =>
      if found then register { s with next := s.next + 1 } s.next
      else if creates then { s with getting := some (.insert s.next), next := s.next + 1 }
      else { s with getting := none }
    | _                              => s
  | .insert                  =>
    match s.getting with
    | some (.insert o) =>
      if s.row then { s with getting := none }
      else { s with row := true, getting := some (.inserted o) }
    | _                => s
  | .endInsert               =>
    match s.getting with
    | some (.inserted o) => s.register o
    | _                  => s
  | .delete k o              =>
    if (s.deleting k).isNone ∧ o ∈ s.returned then
      { s with cache := none, deleting := Function.update s.deleting k (some (.execute o)) }
    else s
  | .executeDelete k refused =>
    match s.deleting k with
    | some (.execute o) =>
      if refused then { s with deleting := Function.update s.deleting k none }
      else
        { s with
          row := false
          deleted := insert o s.deleted
          deleting := Function.update s.deleting k (some (.executed o)) }
    | _                 => s
  | .endDelete k             =>
    match s.deleting k with
    | some (.executed _) => { s with deleting := Function.update s.deleting k none }
    | _                  => s

/-! ### The property and the condition -/

/-- Returned by a `get` and not deleted. -/
def Live (s : Registry) (o : Ref) : Prop := o ∈ s.returned ∧ o ∉ s.deleted

/-- All calls have finished. -/
structure Finished (s : Registry) : Prop where
  getting  : s.getting = none
  deleting : ∀ k, s.deleting k = none

/-- There is one object at a time, and when all calls have finished a cached object has its
    row. -/
structure Sound (s : Registry) : Prop where
  unique : ∀ a b, s.Live a → s.Live b → a = b
  cached : s.Finished → ∀ o, s.cache = some o → s.row = true

/-- No `delete` waits for its statement. -/
def Undisturbed (s : Registry) : Prop := ∀ k o, s.deleting k ≠ some (.execute o)

/-- A `get` misses the cache only while no `delete` waits for its statement; a `delete`
    begins only while no `get` is past the cache, and on the cached object if there is one;
    and no statement of a `delete` is refused. -/
structure Exclusive (s : Registry) (e : Event) : Prop where
  get     : ∀ c, e = .get c → s.getting = none → s.cache = none → s.Undisturbed
  delete  : ∀ k o, e = .delete k o → (s.deleting k).isNone ∧ o ∈ s.returned →
    s.getting = none ∧ ∀ o', s.cache = some o' → o' = o
  refused : ∀ k, e ≠ .executeDelete k true

/-! ### The invariant -/

/-- What the `get` under the lock knows. -/
def Knows (s : Registry) : Getting → Prop
  | .select _         => True
  | .selected _ found => found = s.row
  | .insert o         => s.row = false ∧ o < s.next ∧ o ∉ s.returned
  | .inserted o       => s.row = true ∧ o < s.next ∧ o ∉ s.returned

/-- The cached object is the only live one, and nothing is under way. -/
structure Cached (s : Registry) (o : Ref) : Prop where
  returned    : o ∈ s.returned
  row         : s.row = true
  only        : ∀ a, s.Live a → a = o
  undisturbed : s.Undisturbed
  getting     : s.getting = none

structure Inv (s : Registry) : Prop where
  cached   : ∀ o, s.cache = some o → s.Cached o
  /-- without a cached object, each live one is being deleted -/
  uncached : s.cache = none → ∀ o, s.Live o → ∃ k, s.deleting k = some (.execute o)
  unique   : ∀ a b, s.Live a → s.Live b → a = b
  getting  : ∀ g, s.getting = some g → (∀ o, ¬ s.Live o) ∧ s.Undisturbed ∧ s.Knows g
  old      : ∀ o ∈ s.returned, o < s.next

variable {s : Registry}

/-- The invariant has what the claim asks. -/
theorem Inv.sound (h : Inv s) : Sound s where
  unique := h.unique
  cached _ o ho := (h.cached o ho).row

/-- While one gets the instance, the cache has none. -/
theorem Inv.uncached_of_getting (h : Inv s) {g : Getting} (hg : s.getting = some g) :
    s.cache = none := by
  cases hc : s.cache with
  | none => rfl
  | some o =>
    rw [(h.cached o hc).getting] at hg
    cases hg

/-- Without an object and without a `delete`, a `get` may read the table. -/
theorem Inv.setGetting (h : Inv s) (hc : s.cache = none) (hlive : ∀ o, ¬ s.Live o)
    (hun : s.Undisturbed) {g : Getting} {next : Ref} {row : Bool} (hnext : s.next ≤ next)
    (hknows : Knows { s with getting := some g, next := next, row := row } g) :
    Inv { s with getting := some g, next := next, row := row } where
  cached o ho := by
    rw [show s.cache = some o from ho] at hc
    cases hc
  uncached := h.uncached
  unique := h.unique
  getting g' hg' := by
    cases hg'
    exact ⟨hlive, hun, hknows⟩
  old o ho := Nat.lt_of_lt_of_le (h.old o ho) hnext

/-- A `get` that returns nothing or raises. -/
theorem Inv.endGetting (h : Inv s) : Inv { s with getting := none } where
  cached o ho :=
    { returned := (h.cached o ho).returned
      row := (h.cached o ho).row
      only := (h.cached o ho).only
      undisturbed := (h.cached o ho).undisturbed
      getting := rfl }
  uncached := h.uncached
  unique := h.unique
  getting g hg := by cases hg
  old := h.old

/-- A `get` that caches a new object. -/
theorem Inv.register (h : Inv s) {g : Getting} (hg : s.getting = some g) (hrow : s.row = true)
    {o next : Ref} (ho : o < next) (hnext : s.next ≤ next) :
    Inv (register { s with next := next } o) := by
  have hlive (a : Ref) (ha : Live (Registry.register { s with next := next } o) a) : a = o := by
    obtain ⟨hreturned, hdeleted⟩ := ha
    rcases Finset.mem_insert.mp hreturned with rfl | hreturned
    · rfl
    · exact absurd ⟨hreturned, hdeleted⟩ ((h.getting g hg).1 a)
  exact
    { cached := fun o' ho' => by
        cases ho'
        exact
          { returned := Finset.mem_insert_self _ _
            row := hrow
            only := hlive
            undisturbed := (h.getting g hg).2.1
            getting := rfl }
      uncached := fun hc => by cases hc
      unique := fun a b ha hb => (hlive a ha).trans (hlive b hb).symm
      getting := fun g' hg' => by cases hg'
      old := fun a ha => by
        rcases Finset.mem_insert.mp ha with rfl | ha
        · exact ho
        · exact Nat.lt_of_lt_of_le (h.old a ha) hnext }

/-! ### Steps of a lookup -/

/-- A lookup keeps the invariant, if it is exclusive. -/
theorem Inv.get (h : Inv s) {creates : Bool} (he : s.Exclusive (.get creates)) :
    Inv (step (.get creates) s) := by
  unfold step
  dsimp only
  split
  · exact h
  · rename_i o hg hc
    -- a hit returns the object once more
    rw [Finset.insert_eq_self.mpr (h.cached o hc).returned]
    exact h
  · rename_i hg hc
    have hun : s.Undisturbed := he.get creates rfl hg hc
    refine h.setGetting hc (fun o ho => ?_) hun (Nat.le_refl _) trivial
    obtain ⟨k, hk⟩ := h.uncached hc o ho
    exact hun k o hk

/-- So does the query that it makes, -/
theorem Inv.select (h : Inv s) : Inv (step .select s) := by
  unfold step
  dsimp only
  split
  · rename_i creates hg
    obtain ⟨hlive, hun, -⟩ := h.getting _ hg
    exact h.setGetting (h.uncached_of_getting hg) hlive hun (Nat.le_refl _) rfl
  · exact h

/-- its answer, -/
theorem Inv.endSelect (h : Inv s) : Inv (step .endSelect s) := by
  unfold step
  dsimp only
  split
  · rename_i creates found hg
    obtain ⟨hlive, hun, hknows⟩ := h.getting _ hg
    have hfound : found = s.row := hknows
    split
    · rename_i htrue
      exact h.register hg (by rw [← hfound, htrue]) (Nat.lt_succ_self _) (Nat.le_succ _)
    · rename_i hfalse
      split
      · refine h.setGetting (h.uncached_of_getting hg) hlive hun (Nat.le_succ _) ?_
        refine ⟨?_, Nat.lt_succ_self _, fun hreturned => Nat.lt_irrefl _ (h.old _ hreturned)⟩
        rw [Bool.not_eq_true] at hfalse
        exact hfound.symm.trans hfalse
      · exact h.endGetting
  · exact h

/-- the insertion -/
theorem Inv.insert (h : Inv s) : Inv (step .insert s) := by
  unfold step
  dsimp only
  split
  · rename_i o hg
    obtain ⟨hlive, hun, -, hlt, hnew⟩ := h.getting _ hg
    split
    · exact h.endGetting
    · exact h.setGetting (h.uncached_of_getting hg) hlive hun (Nat.le_refl _) ⟨rfl, hlt, hnew⟩
  · exact h

/-- and its end. -/
theorem Inv.endInsert (h : Inv s) : Inv (step .endInsert s) := by
  unfold step
  dsimp only
  split
  · rename_i o hg
    obtain ⟨-, -, hrow, hlt, -⟩ := h.getting _ hg
    exact h.register hg hrow hlt (Nat.le_refl _)
  · exact h

/-! ### Steps of a deletion -/

/-- So does a deletion that is exclusive, -/
theorem Inv.delete (h : Inv s) {k : Nat} {o : Ref} (he : s.Exclusive (.delete k o)) :
    Inv (step (.delete k o) s) := by
  unfold step
  dsimp only
  split
  · rename_i hk
    obtain ⟨hg, hcache⟩ := he.delete k o rfl hk
    exact
      { cached := fun o' ho' => by cases ho'
        uncached := fun _ a ha => by
          show ∃ j, Function.update s.deleting k (some (.execute o)) j = some (.execute a)
          cases hc : s.cache with
          | some o' =>
            -- the object is the only live one, and now it is being deleted
            have hao : a = o := ((h.cached o' hc).only a ha).trans (hcache o' hc)
            exact ⟨k, by rw [Function.update_self, hao]⟩
          | none =>
            obtain ⟨j, hj⟩ := h.uncached hc a ha
            refine ⟨j, ?_⟩
            rw [Function.update_of_ne, hj]
            rintro rfl
            rw [hj] at hk
            cases hk.1
        unique := h.unique
        getting := fun g hg' => by
          rw [show s.getting = some g from hg'] at hg
          cases hg
        old := h.old }
  · exact h

/-- its query -/
theorem Inv.executeDelete (h : Inv s) {k : Nat} {refused : Bool}
    (he : s.Exclusive (.executeDelete k refused)) : Inv (step (.executeDelete k refused) s) := by
  unfold step
  dsimp only
  split
  · rename_i o hk
    have hrefused : refused = false := by
      cases refused with
      | false => rfl
      | true => exact absurd rfl (he.refused k)
    have hc : s.cache = none := by
      cases hc : s.cache with
      | none => rfl
      | some o' => exact absurd hk ((h.cached o' hc).undisturbed k o)
    have hg : s.getting = none := by
      cases hg : s.getting with
      | none => rfl
      | some g => exact absurd hk ((h.getting g hg).2.1 k o)
    rw [hrefused, if_neg Bool.false_ne_true]
    -- the live objects are those of before without the deleted one
    exact
      { cached := fun o' ho' => by
          rw [show s.cache = some o' from ho'] at hc
          cases hc
        uncached := fun _ a ha => by
          show ∃ j, Function.update s.deleting k (some (.executed o)) j = some (.execute a)
          obtain ⟨hreturned, hdeleted⟩ := ha
          rw [Finset.mem_insert, not_or] at hdeleted
          obtain ⟨j, hj⟩ := h.uncached hc a ⟨hreturned, hdeleted.2⟩
          refine ⟨j, ?_⟩
          rw [Function.update_of_ne, hj]
          rintro rfl
          rw [hk] at hj
          cases hj
          exact hdeleted.1 rfl
        unique := fun a b ha hb =>
          h.unique a b ⟨ha.1, fun hd => ha.2 (Finset.mem_insert_of_mem hd)⟩
            ⟨hb.1, fun hd => hb.2 (Finset.mem_insert_of_mem hd)⟩
        getting := fun g hg' => by
          rw [show s.getting = some g from hg'] at hg
          cases hg
        old := h.old }
  · exact h

/-- and its end. -/
theorem Inv.endDelete (h : Inv s) {k : Nat} : Inv (step (.endDelete k) s) := by
  unfold step
  dsimp only
  split
  · rename_i o hk
    -- only a call past its statement ends
    have hpending (j : Nat) (a : Ref) :
        Function.update s.deleting k none j = some (.execute a) ↔
          s.deleting j = some (.execute a) := by
      rcases eq_or_ne j k with rfl | hj
      · rw [Function.update_self, hk]
        constructor
        · intro h
          cases h
        · intro h
          cases h
      · rw [Function.update_of_ne hj]
    have hun (hs : s.Undisturbed) (j : Nat) (a : Ref) :
        Function.update s.deleting k none j ≠ some (.execute a) := fun hj =>
      hs j a ((hpending j a).mp hj)
    exact
      { cached := fun o' ho' =>
          { returned := (h.cached o' ho').returned
            row := (h.cached o' ho').row
            only := (h.cached o' ho').only
            undisturbed := hun (h.cached o' ho').undisturbed
            getting := (h.cached o' ho').getting }
        uncached := fun hc a ha => by
          obtain ⟨j, hj⟩ := h.uncached hc a ha
          exact ⟨j, (hpending j a).mpr hj⟩
        unique := h.unique
        getting := fun g hg =>
          ⟨(h.getting g hg).1, hun (h.getting g hg).2.1, (h.getting g hg).2.2⟩
        old := h.old }
  · exact h

/-- **Step.**  An exclusive step keeps the invariant. -/
theorem Inv.step (h : Inv s) {e : Event} (he : s.Exclusive e) : Inv (step e s) := by
  cases e with
  | get creates => exact h.get he
  | select => exact h.select
  | endSelect => exact h.endSelect
  | insert => exact h.insert
  | endInsert => exact h.endInsert
  | delete k o => exact h.delete he
  | executeDelete k refused => exact h.executeDelete he
  | endDelete k => exact h.endDelete

/-! ### Runs -/

/-- Nothing is cached and no call has been made. -/
structure Fresh (s : Registry) : Prop extends Finished s where
  cache    : s.cache = none
  returned : s.returned = ∅

/-- At first nobody is there. -/
theorem Fresh.inv (h : Fresh s) : Inv s := by
  have hlive (o : Ref) : ¬ s.Live o := by
    rintro ⟨ho, -⟩
    rw [h.returned] at ho
    cases ho
  exact
    { cached := fun o ho => by
        rw [h.cache] at ho
        cases ho
      uncached := fun _ o ho => absurd ho (hlive o)
      unique := fun a _ ha _ => absurd ha (hlive a)
      getting := fun g hg => by
        rw [h.getting] at hg
        cases hg
      old := fun o ho => by
        rw [h.returned] at ho
        cases ho }

/-- **Lookups and deletions.**  In every run whose steps are exclusive, there is one object
    at a time, and a cached object has its row. -/
theorem sound_of_exclusive {s₀ : Registry} (h₀ : Fresh s₀) (h : Reach step Exclusive s₀ s) :
    Sound s :=
  (h.invariant h₀.inv fun _ _ hs he => hs.step he).sound

end Registry

/-! ### A row that is deleted while it is read -/

namespace RegistryTest

open Registry

/-- An id with a row. -/
def stored : Registry := { row := true }

/-- The registry of the witness is fresh. -/
theorem stored_fresh : Fresh stored where
  getting := rfl
  deleting _ := rfl
  cache := rfl
  returned := rfl

/-- After a `get`. -/
def cached : Registry := step .endSelect (step .select (step (.get false) stored))

/-- Where nobody disturbs, any other event is exclusive. -/
theorem exclusive_of_idle {s : Registry} (hs : s.Undisturbed) {e : Event}
    (hd : ∀ k o, e ≠ .delete k o) (hr : ∀ k, e ≠ .executeDelete k true) : Exclusive s e where
  get _ _ _ _ := hs
  delete k o h := absurd h (hd k o)
  refused := hr

/-- The run of the witness is one of exclusive events. -/
theorem cached_reached : Reach step Exclusive stored cached := by
  have hun (s : Registry) (hs : s.deleting = stored.deleting) : s.Undisturbed := fun k o => by
    rw [hs]
    simp [stored]
  have hget : Exclusive stored (.get false) :=
    exclusive_of_idle (hun _ (by rfl)) (by simp) (by simp)
  have hselect : Exclusive (step (.get false) stored) .select :=
    exclusive_of_idle (hun _ (by rfl)) (by simp) (by simp)
  have hend : Exclusive (step .select (step (.get false) stored)) .endSelect :=
    exclusive_of_idle (hun _ (by rfl)) (by simp) (by simp)
  exact ((Reach.start.step _ hget).step _ hselect).step _ hend

end RegistryTest

namespace Registry

open RegistryTest in
/-- A `get` reads the row before a `delete` of the object removes it, and caches a new object
    afterwards. -/
theorem overlapping_not_sound :
    ¬ ∀ s₀ : Registry, Fresh s₀ → ∀ s, Reach step (fun _ _ => True) s₀ s → Sound s := by
  intro h
  have hcached : Reach step (fun _ _ => True) stored cached :=
    ((Reach.start.step _ trivial).step _ trivial).step _ trivial
  have hrun := (((((hcached.step (.delete 0 0) trivial).step (.get false) trivial).step .select
    trivial).step (.executeDelete 0 false) trivial).step .endSelect trivial).step (.endDelete 0)
    trivial
  have hsound := (h stored stored_fresh _ hrun).cached
    ⟨by decide, fun k => by cases k <;> rfl⟩ 1 (by decide)
  exact absurd hsound (by decide)

open RegistryTest in
/-- A `get`, a `delete`, and a `get` that creates the row again. -/
theorem recreated_sound : Sound (step (.get true) (step (.endDelete 0)
    (step (.executeDelete 0 false) (step (.delete 0 0) cached)))) := by
  have hdelete : Exclusive cached (.delete 0 0) :=
    { get := fun c h => by cases h
      delete := fun k o h _ => by
        cases h
        exact ⟨by decide, fun o' ho' => by cases ho'; rfl⟩
      refused := fun k h => by cases h }
  have hexecute : Exclusive (step (.delete 0 0) cached) (.executeDelete 0 false) :=
    { get := fun c h => by cases h
      delete := fun k o h => by cases h
      refused := fun k h => by cases h }
  have hend : Exclusive (step (.executeDelete 0 false) (step (.delete 0 0) cached))
      (.endDelete 0) :=
    { get := fun c h => by cases h
      delete := fun k o h => by cases h
      refused := fun k h => by cases h }
  have hget : Exclusive (step (.endDelete 0) (step (.executeDelete 0 false)
      (step (.delete 0 0) cached))) (.get true) := by
    refine exclusive_of_idle (fun k o => ?_) (by simp) (by simp)
    cases k with
    | zero =>
      intro h
      cases h
    | succ k => simp [step, register, cached, stored, Function.update]
  exact sound_of_exclusive stored_fresh
    ((((cached_reached.step _ hdelete).step _ hexecute).step _ hend).step _ hget)

end Registry

end Maubot
