import Maubot.Errors
import Maubot.Handlers.Functions
import Maubot.Lib.Prog
import Maubot.Lib.RoseTree
import Maubot.Lib.Runs
import Maubot.Lib.Store
import Mathlib.Data.List.Forall2

namespace Maubot.Command

/-!
# Commands — handlers that are bound to an instance

A handler of the class of a plugin is found through `__get__`, which makes a copy for each
instance, with copies of its subcommands, and remembers it.

* `Bindable`, `getBound` — the objects, and `__get__`;
* `Sound` — what stands in the caches;
* `outcome_getBound` — what `__get__` does to a tree;
* `Copied` — the tree that is bound to an instance;
* `grows_reach` — what holds however often handlers are bound.
-/

open Prog

/-- `__mb_is_command_match__` -/
inductive MatchFunction (I : Type)
  /-- `__command_match_unset`, which raises -/
  | unset
  /-- the name that the handler `func` has when it is asked, or one of the aliases -/
  | name (func : Ref) (aliases : List Text)
  | accepts (p : Option I → Text → Bool)

/-- A `CommandHandler` object, which is bound to plugins `I`. -/
structure Bindable (I F V : Type) where
  func              : F
  parent            : Option Ref := none
  subcommands       : List Ref := []
  arguments         : List (Argument V) := []
  help              : Option Text := none
  getName           : Option I → Text := fun _ => "noname".toList
  isCommandMatch    : MatchFunction I := .unset
  requireSubcommand : Bool := true
  mustConsumeArgs   : Bool := true
  argFallthrough    : Bool := true
  eventHandler      : Bool := true
  eventTypes        : List String := ["m.room.message"]
  msgtypes          : List MessageType := [.text]
  /-- `__bound_copies__` -/
  boundCopies       : I → Option Ref := fun _ => none
  boundInstance     : Option I := none

abbrev Handlers (I F V : Type) := Store (Bindable I F V)

variable {I F V : Type}

/-- `__get__`, with what is left of the recursion limit; `truthy` is `bool(instance)`. -/
def getBound [DecidableEq I] (truthy : I → Bool) (inst : Option I) :
    Nat → Ref → Prog (Handlers I F V) PyExc Ref
  | 0, _            => throw ⟨.runtimeError, "maximum recursion depth exceeded"⟩
  | limit + 1, self => do
    let s ← get
    let h := s.get self
    match inst.filter truthy with
    | none   => pure self
    | some i =>
      if h.boundInstance.any truthy then pure self
      else
        match h.boundCopies i with
        | some copy => pure copy
        | none      =>
          modify fun s => s.alloc { h with boundCopies := fun _ => none, boundInstance := some i }
          let subcommands ← h.subcommands.mapM (getBound truthy inst limit)
          modify fun t => t.modify s.next fun newCh => { newCh with subcommands }
          modify fun t => t.modify self fun h =>
            { h with boundCopies := Function.update h.boundCopies i (some s.next) }
          pure s.next

/-! ### Trees of handlers -/

/-- The tree of a handler and its subcommands. -/
inductive Holds (s : Handlers I F V) : RoseTree Ref → Prop
  | node {r : Ref} {ts : List (RoseTree Ref)} (hr : r < s.next)
      (hsubs : (s.get r).subcommands = ts.map RoseTree.label) (hts : ∀ t ∈ ts, Holds s t) :
      Holds s (.node r ts)

/-- A handler apart from its cache. -/
def Bindable.plain (h : Bindable I F V) : Bindable I F V := { h with boundCopies := fun _ => none }

/-- `new_ch.__mb_subcommands__ = […]` -/
def Bindable.withSubcommands (cs : List Ref) (h : Bindable I F V) : Bindable I F V :=
  { h with subcommands := cs }

/-- `self.__bound_copies__[instance] = new_ch` -/
def Bindable.remember [DecidableEq I] (i : I) (c : Ref) (h : Bindable I F V) : Bindable I F V :=
  { h with boundCopies := Function.update h.boundCopies i (some c) }

/-- What the decorators leave (`decorated_reach`): trees of handlers that have not been bound,
    each with the parent that it is a subcommand of, and with a match function of its own. -/
structure Decorated (s : Handlers I F V) : Prop where
  tree          : ∀ r < s.next, ∃ t, t.label = r ∧ Holds s t
  parent        : ∀ r < s.next, ∀ sub ∈ (s.get r).subcommands, (s.get sub).parent = some r
  parent_lt     : ∀ r < s.next, ∀ q, (s.get r).parent = some q → q < s.next
  own           : ∀ r < s.next, ∀ func aliases,
    (s.get r).isCommandMatch = .name func aliases → func = r
  boundInstance : ∀ r, (s.get r).boundInstance = none
  boundCopies   : ∀ r i, (s.get r).boundCopies i = none

namespace Holds

variable {s s' : Handlers I F V} {t u : RoseTree Ref}

/-- The objects of a tree that is held exist. -/
theorem lt (h : Holds s t) {r : Ref} (hr : r ∈ t.labels) : r < s.next := by
  induction h with
  | node hr' _ _ ih =>
    rcases RoseTree.mem_labels_node.mp hr with rfl | ⟨t, ht, hmem⟩
    · exact hr'
    · exact ih t ht hmem

/-- The tree is determined by its root. -/
theorem unique (h : Holds s t) (h' : Holds s u) (hl : t.label = u.label) : t = u := by
  induction h generalizing u with
  | @node r ts _ hsubs _ ih =>
    cases h' with
    | @node r' us _ hsubs' hus =>
      obtain rfl : r = r' := hl
      have hlabels : ts.map RoseTree.label = us.map RoseTree.label := hsubs.symm.trans hsubs'
      congr 1
      refine List.ext_getElem (by simpa using congrArg List.length hlabels) fun n hn hn' => ?_
      refine ih _ (List.getElem_mem hn) (hus _ (List.getElem_mem hn')) ?_
      have hget := List.getElem_of_eq hlabels (by simpa using hn)
      simpa using hget

/-- The tree of a handler further down. -/
theorem subtree (h : Holds s t) {r : Ref} (hr : r ∈ t.labels) :
    ∃ u, Holds s u ∧ u.label = r ∧ u.height ≤ t.height := by
  induction h with
  | @node q ts hq hsubs hts ih =>
    rcases RoseTree.mem_labels_node.mp hr with rfl | ⟨t, ht, hmem⟩
    · exact ⟨_, .node hq hsubs hts, rfl, Nat.le_refl _⟩
    · obtain ⟨u, hu, hlabel, hheight⟩ := ih t ht hmem
      exact ⟨u, hu, hlabel, Nat.le_trans hheight (Nat.le_of_lt (RoseTree.height_lt_of_mem ht))⟩

/-- A subcommand is in the tree of its handler. -/
theorem mem_subcommands (h : Holds s t) {r sub : Ref} (hr : r ∈ t.labels)
    (hsub : sub ∈ (s.get r).subcommands) : sub ∈ t.labels := by
  induction h with
  | @node q ts _ hsubs _ ih =>
    rcases RoseTree.mem_labels_node.mp hr with rfl | ⟨u, hu, hmem⟩
    · rw [hsubs] at hsub
      obtain ⟨u, hu, rfl⟩ := List.mem_map.mp hsub
      exact RoseTree.mem_labels_node.mpr (.inr ⟨u, hu, u.label_mem_labels⟩)
    · exact RoseTree.mem_labels_node.mpr (.inr ⟨u, hu, ih u hu hmem⟩)

/-- A handler is not further down in its own tree. -/
theorem not_mem_child {r : Ref} {ts : List (RoseTree Ref)} (h : Holds s (.node r ts))
    (ht : t ∈ ts) : r ∉ t.labels := by
  intro hr
  cases h with
  | node hr' hsubs hts =>
    obtain ⟨u, hu, hlabel, hheight⟩ := (hts t ht).subtree hr
    obtain rfl := hu.unique (.node hr' hsubs hts) hlabel
    exact absurd (RoseTree.height_lt_of_mem ht) (Nat.not_lt_of_le hheight)

/-- The tree is in the lists of its handlers, and nowhere else. -/
theorem congr (h : Holds s t) (hnext : s.next ≤ s'.next)
    (hsubs : ∀ r ∈ t.labels, (s'.get r).subcommands = (s.get r).subcommands) : Holds s' t := by
  induction h with
  | @node r ts hr hlist _ ih =>
    refine .node (Nat.lt_of_lt_of_le hr hnext) ?_ fun u hu => ih u hu fun q hq => ?_
    · exact (hsubs r (RoseTree.label_mem_labels _)).trans hlist
    · exact hsubs q (RoseTree.mem_labels_node.mpr (.inr ⟨u, hu, hq⟩))

/-- Other caches do not matter, nor more handlers. -/
theorem mono (h : Holds s t) (hnext : s.next ≤ s'.next)
    (hplain : ∀ r < s.next, (s'.get r).plain = (s.get r).plain) : Holds s' t := by
  refine h.congr hnext fun r hr => ?_
  have hsubs := congrArg Bindable.subcommands (hplain r (h.lt hr))
  exact hsubs

end Holds

/-! ### The caches -/

/-- `c` is the copy of the handler `r` for `i`, with the copies of its subcommands. -/
structure IsCopy (s : Handlers I F V) (r : Ref) (i : I) (c : Ref) : Prop where
  handler_lt  : r < s.next
  lt          : c < s.next
  plain       : s.get c = { (s.get r).plain with
    boundInstance := some i, subcommands := (s.get c).subcommands }
  subcommands : List.Forall₂ (fun sub c' => (s.get sub).boundCopies i = some c')
    (s.get r).subcommands (s.get c).subcommands

/-- What a cache has is the copy of its handler, and of no other; copies have no caches. -/
structure Sound (s : Handlers I F V) : Prop where
  copy  : ∀ r i c, (s.get r).boundCopies i = some c → IsCopy s r i c
  once  : ∀ r i r' i' c, (s.get r).boundCopies i = some c → (s.get r').boundCopies i' = some c →
    r = r' ∧ i = i'
  bound : ∀ r i, (s.get r).boundInstance = some i → ∀ j, (s.get r).boundCopies j = none

/-- From `s` to `s'` new handlers have come, bound to true instances, and entries in the caches of
    the handlers in `labels`, of new handlers only. -/
structure Grows (truthy : I → Bool) (labels : Ref → Prop) (s s' : Handlers I F V) : Prop where
  next  : s.next ≤ s'.next
  plain : ∀ r < s.next, (s'.get r).plain = (s.get r).plain
  kept  : ∀ r < s.next, ∀ i c, (s.get r).boundCopies i = some c →
    (s'.get r).boundCopies i = some c
  fresh : ∀ r < s.next, ∀ i c, (s'.get r).boundCopies i = some c →
    (s.get r).boundCopies i = some c ∨ s.next ≤ c
  only  : ∀ r < s.next, ¬ labels r → (s'.get r).boundCopies = (s.get r).boundCopies
  bound : ∀ r, s.next ≤ r → r < s'.next →
    ∃ k, truthy k = true ∧ (s'.get r).boundInstance = some k

namespace Bindable

/-- An object is its plain part and its table of copies. -/
theorem eq_of_plain {h h' : Bindable I F V} (hp : h.plain = h'.plain)
    (hc : h.boundCopies = h'.boundCopies) : h = h' := by
  cases h
  cases h'
  simp only [plain, mk.injEq] at hp hc ⊢
  simp only [hp, hc, and_self]

/-- Whatever is read of a handler apart from its cache. -/
theorem view_eq {h h' : Bindable I F V} (hp : h.plain = h'.plain) {α : Type}
    (view : Bindable I F V → α) (hview : ∀ h, view h.plain = view h) : view h = view h' := by
  rw [← hview h, hp, hview]

end Bindable

namespace Grows

variable {truthy : I → Bool} {labels labels' : Ref → Prop} {s s' s'' : Handlers I F V}

/-- Nothing grows over no step. -/
theorem refl (truthy : I → Bool) (labels : Ref → Prop) (s : Handlers I F V) :
    Grows truthy labels s s where
  next             := Nat.le_refl _
  plain _ _        := rfl
  kept _ _ _ _ h   := h
  fresh _ _ _ _ h  := .inl h
  only _ _ _       := rfl
  bound _ hle hlt  := absurd hlt (Nat.not_lt_of_le hle)

/-- What grows at some objects grows at more. -/
theorem mono (h : Grows truthy labels s s') (hl : ∀ r, labels r → labels' r) :
    Grows truthy labels' s s' where
  next         := h.next
  plain        := h.plain
  kept         := h.kept
  fresh        := h.fresh
  only r hr hn := h.only r hr fun hr' => hn (hl r hr')
  bound        := h.bound

/-- What an object is bound to stays. -/
theorem boundInstance (h : Grows truthy labels s s') {r : Ref} (hr : r < s.next) :
    (s'.get r).boundInstance = (s.get r).boundInstance :=
  Bindable.view_eq (h.plain r hr) Bindable.boundInstance fun _ => rfl

/-- What grows in two steps grows. -/
theorem trans (h : Grows truthy labels s s') (h' : Grows truthy labels s' s'') :
    Grows truthy labels s s'' where
  next             := Nat.le_trans h.next h'.next
  plain r hr       := (h'.plain r (Nat.lt_of_lt_of_le hr h.next)).trans (h.plain r hr)
  kept r hr i c hc := h'.kept r (Nat.lt_of_lt_of_le hr h.next) i c (h.kept r hr i c hc)
  fresh r hr i c hc := by
    rcases h'.fresh r (Nat.lt_of_lt_of_le hr h.next) i c hc with hc' | hle
    · exact h.fresh r hr i c hc'
    · exact .inr (Nat.le_trans h.next hle)
  only r hr hn     :=
    (h'.only r (Nat.lt_of_lt_of_le hr h.next) hn).trans (h.only r hr hn)
  bound r hle hlt  := by
    by_cases hr : r < s'.next
    · rw [h'.boundInstance hr]
      exact h.bound r hle hr
    · exact h'.bound r (Nat.le_of_not_lt hr) hlt

/-- A handler that has no new entry is the same object as before. -/
theorem get_eq (h : Grows truthy labels s s') {r : Ref} (hr : r < s.next) (hn : ¬ labels r) :
    s'.get r = s.get r :=
  Bindable.eq_of_plain (h.plain r hr) (h.only r hr hn)

end Grows

/-- A copy stays one while its handler and itself stay the same, and the caches only grow. -/
theorem IsCopy.mono {s s' : Handlers I F V} {r c : Ref} {i : I} (h : IsCopy s r i c)
    (hnext : s.next ≤ s'.next) (hr : (s'.get r).plain = (s.get r).plain)
    (hc : s'.get c = s.get c) (hkept : ∀ q j d, (s.get q).boundCopies j = some d →
      (s'.get q).boundCopies j = some d) : IsCopy s' r i c where
  handler_lt  := Nat.lt_of_lt_of_le h.handler_lt hnext
  lt          := Nat.lt_of_lt_of_le h.lt hnext
  plain       := by
    rw [hc, hr]
    exact h.plain
  subcommands := by
    rw [hc, Bindable.view_eq hr Bindable.subcommands fun _ => rfl]
    exact h.subcommands.imp fun q d hd => hkept q i d hd

/-- A copy is bound. -/
theorem IsCopy.boundInstance {s : Handlers I F V} {r c : Ref} {i : I} (h : IsCopy s r i c) :
    (s.get c).boundInstance = some i := by
  rw [h.plain]

/-! ### One copy -/

section Copying

variable {s : Handlers I F V} {self c : Ref} {i : I} {cs : List Ref}

/-- The copy is there, with the subcommands of its handler. -/
def started (s : Handlers I F V) (self : Ref) (i : I) : Handlers I F V :=
  s.alloc { s.get self with boundCopies := fun _ => none, boundInstance := some i }

/-- A copy that is begun changes no object. -/
theorem get_started {r : Ref} (hr : r < s.next) : (started s self i).get r = s.get r :=
  Store.get_alloc_of_lt _ _ hr

/-- It is a plain one of its original, bound to the instance. -/
theorem get_started_next : (started s self i).get s.next =
    { s.get self with boundCopies := fun _ => none, boundInstance := some i } :=
  Store.get_alloc_self _ _

/-- So it only adds one. -/
theorem grows_started {truthy : I → Bool} (hi : truthy i = true) (self : Ref) :
    Grows truthy (fun _ => False) s (started s self i) where
  next               := Nat.le_succ _
  plain r hr         := by rw [get_started hr]
  kept r hr i c hc   := by rw [get_started hr]; exact hc
  fresh r hr i c hc  := by rw [get_started hr] at hc; exact .inl hc
  only r hr _        := by rw [get_started hr]
  bound r hle hlt    := by
    obtain rfl : r = s.next := Nat.le_antisymm (Nat.le_of_lt_succ hlt) hle
    rw [get_started_next]
    exact ⟨i, hi, rfl⟩

/-- And what is there stays sound. -/
theorem Sound.started (h : Sound s) (self : Ref) (i : I) : Sound (started s self i) := by
  have hmemo : ∀ {r j d}, ((Command.started s self i).get r).boundCopies j = some d →
      (s.get r).boundCopies j = some d := by
    intro r j d hd
    by_cases hr : r = s.next
    · subst hr
      rw [get_started_next] at hd
      cases hd
    · rwa [show (Command.started s self i).get r = s.get r from if_neg hr] at hd
  refine ⟨fun r j d hd => ?_, fun r j r' j' d hd hd' => h.once r j r' j' d (hmemo hd) (hmemo hd'),
    fun r j hb k => ?_⟩
  · have hcopy := h.copy r j d (hmemo hd)
    refine hcopy.mono (Nat.le_succ _) ?_ (get_started hcopy.lt) fun q j' d' hd' => ?_
    · rw [get_started hcopy.handler_lt]
    · rw [get_started (h.copy q j' d' hd').handler_lt]
      exact hd'
  · by_cases hr : r = s.next
    · subst hr
      rw [get_started_next]
    · rw [show (Command.started s self i).get r = s.get r from if_neg hr] at hb ⊢
      exact h.bound r j hb k

variable [DecidableEq I]

/-- The copy has got its subcommands, and is remembered. -/
def finished (s : Handlers I F V) (self : Ref) (i : I) (c : Ref) (cs : List Ref) :
    Handlers I F V :=
  (s.modify c (Bindable.withSubcommands cs)).modify self (Bindable.remember i c)

/-- A copy that is finished is entered in the table of its original, -/
theorem boundCopies_finished (r : Ref) (j : I) :
    ((finished s self i c cs).get r).boundCopies j =
      if r = self ∧ j = i then some c else (s.get r).boundCopies j := by
  have hsubs : ∀ q, ((s.modify c (Bindable.withSubcommands cs)).get q).boundCopies =
      (s.get q).boundCopies := fun q =>
    Store.view_modify s c (Bindable.withSubcommands cs) Bindable.boundCopies (fun _ => rfl) q
  unfold finished
  rw [Store.get_modify]
  by_cases hr : r = self
  · rw [if_pos hr]
    by_cases hj : j = i
    · rw [if_pos ⟨hr, hj⟩, hj]
      exact Function.update_self _ _ _
    · rw [if_neg fun h => hj h.2]
      exact (Function.update_of_ne hj _ _).trans (congrFun (hsubs r) j)
  · rw [if_neg hr, if_neg fun h => hr h.1, hsubs]

/-- with no other change to it, -/
theorem plain_finished (s : Handlers I F V) (self : Ref) (i : I) (cs : List Ref) {r : Ref}
    (hr : r ≠ c) :
    ((finished s self i c cs).get r).plain = (s.get r).plain := by
  unfold finished
  rw [Store.view_modify _ self (Bindable.remember i c) Bindable.plain (fun _ => rfl),
    Store.get_modify_ne _ _ hr]

/-- nor to what it is bound to. -/
theorem boundInstance_finished (r : Ref) :
    ((finished s self i c cs).get r).boundInstance = (s.get r).boundInstance := by
  unfold finished
  rw [Store.view_modify _ self (Bindable.remember i c) Bindable.boundInstance (fun _ => rfl),
    Store.view_modify _ c (Bindable.withSubcommands cs) Bindable.boundInstance (fun _ => rfl)]

/-- The copy has its subcommands then, and the others have theirs. -/
theorem subcommands_finished {r : Ref} (hr : r ≠ c) :
    ((finished s self i c cs).get r).subcommands = (s.get r).subcommands :=
  Bindable.view_eq (plain_finished s self i cs hr) Bindable.subcommands fun _ => rfl

/-- The copy itself, -/
theorem get_finished_copy (hc : c ≠ self) :
    (finished s self i c cs).get c = { s.get c with subcommands := cs } := by
  unfold finished
  rw [Store.get_modify_ne _ _ hc, Store.get_modify_self]
  rfl

/-- and the objects that are neither. -/
theorem get_finished_ne {r : Ref} (hc : r ≠ c) (hr : r ≠ self) :
    (finished s self i c cs).get r = s.get r := by
  unfold finished
  rw [Store.get_modify_ne _ _ hr, Store.get_modify_ne _ _ hc]

/-- What has to be there when a copy is finished. -/
structure Finishing (s : Handlers I F V) (r : Ref) (i : I) (c : Ref) (cs : List Ref) :
    Prop where
  handler_lt  : r < s.next
  lt          : c < s.next
  unbound     : (s.get r).boundInstance = none
  missing     : (s.get r).boundCopies i = none
  copy        : ∃ subs, s.get c = { (s.get r).plain with
    boundInstance := some i, subcommands := subs }
  unknown     : ∀ q j, (s.get q).boundCopies j ≠ some c
  subcommands : List.Forall₂ (fun sub c' => (s.get sub).boundCopies i = some c')
    (s.get r).subcommands cs

/-- Older entries of the tables stay. -/
theorem kept_finished (hmissing : (s.get self).boundCopies i = none) {q : Ref} {j : I} {d : Ref}
    (hd : (s.get q).boundCopies j = some d) :
    ((finished s self i c cs).get q).boundCopies j = some d := by
  rw [boundCopies_finished, if_neg]
  · exact hd
  · rintro ⟨rfl, rfl⟩
    rw [hmissing] at hd
    cases hd

/-- An entry is the new one, or was there. -/
theorem entry_finished {q : Ref} {j : I} {d : Ref}
    (hd : ((finished s self i c cs).get q).boundCopies j = some d) :
    (q = self ∧ j = i ∧ d = c) ∨ (s.get q).boundCopies j = some d := by
  rw [boundCopies_finished] at hd
  split at hd
  · next hnew => exact .inl ⟨hnew.1, hnew.2, (Option.some.inj hd).symm⟩
  · exact .inr hd

namespace Finishing

omit [DecidableEq I] in
/-- The copy that is being finished is bound. -/
theorem boundInstance (hf : Finishing s self i c cs) : (s.get c).boundInstance = some i := by
  obtain ⟨subs, hcopy⟩ := hf.copy
  rw [hcopy]

omit [DecidableEq I] in
/-- It is not its original. -/
theorem ne (hf : Finishing s self i c cs) : c ≠ self := by
  rintro rfl
  have hbound := hf.boundInstance
  rw [hf.unbound] at hbound
  cases hbound

/-- When it is finished it is a copy. -/
theorem isCopy (hf : Finishing s self i c cs) : IsCopy (finished s self i c cs) self i c := by
  obtain ⟨subs, hcopy⟩ := hf.copy
  refine ⟨hf.handler_lt, hf.lt, ?_, ?_⟩
  · rw [get_finished_copy hf.ne, plain_finished _ _ _ _ hf.ne.symm, hcopy]
  · rw [get_finished_copy hf.ne, subcommands_finished hf.ne.symm]
    exact hf.subcommands.imp fun q e he => kept_finished hf.missing he

/-- The other copies are neither the new one, which no cache knew, nor its handler. -/
theorem isCopy_old (hf : Finishing s self i c cs) (h : Sound s) {r : Ref} {j : I} {d : Ref}
    (hold : (s.get r).boundCopies j = some d) : IsCopy (finished s self i c cs) r j d := by
  have hcopy := h.copy r j d hold
  have hrc : r ≠ c := by
    rintro rfl
    rw [h.bound r i hf.boundInstance j] at hold
    cases hold
  have hdc : d ≠ c := fun hd => hf.unknown r j (hd ▸ hold)
  have hds : d ≠ self := by
    rintro rfl
    have hbound := hcopy.boundInstance
    rw [hf.unbound] at hbound
    cases hbound
  exact hcopy.mono (Nat.le_refl _) (plain_finished _ _ _ _ hrc) (get_finished_ne hdc hds)
    fun q k e he => kept_finished hf.missing he

end Finishing

/-- **One copy** more. -/
theorem Sound.finished (h : Sound s) (hf : Finishing s self i c cs) :
    Sound (finished s self i c cs) := by
  refine ⟨fun r j d hd => ?_, fun r j r' j' d hd hd' => ?_, fun r j hb k => ?_⟩
  · rcases entry_finished hd with ⟨rfl, rfl, rfl⟩ | hold
    · exact hf.isCopy
    · exact hf.isCopy_old h hold
  · rcases entry_finished hd with ⟨rfl, rfl, rfl⟩ | hold
    · rcases entry_finished hd' with ⟨rfl, rfl, -⟩ | hold'
      · exact ⟨rfl, rfl⟩
      · exact absurd hold' (hf.unknown r' j')
    · rcases entry_finished hd' with ⟨rfl, rfl, rfl⟩ | hold'
      · exact absurd hold (hf.unknown r j)
      · exact h.once r j r' j' d hold hold'
  · -- the handler that got the entry is not bound itself
    rw [boundInstance_finished] at hb
    rw [boundCopies_finished, if_neg]
    · exact h.bound r j hb k
    · rintro ⟨rfl, -⟩
      rw [hf.unbound] at hb
      cases hb

/-- Begin, subcommands and finish together only add objects and one entry. -/
theorem Grows.finished {truthy : I → Bool} {labels : Ref → Prop} {s' : Handlers I F V}
    (h : Grows truthy labels s s') (hself : labels self) (hc : s.next ≤ c)
    (hmissing : (s'.get self).boundCopies i = none) :
    Grows truthy labels s (finished s' self i c cs) where
  next           := h.next
  plain r hr     := by
    rw [plain_finished _ _ _ _ (Nat.ne_of_lt (Nat.lt_of_lt_of_le hr hc))]
    exact h.plain r hr
  kept r hr j d hd := kept_finished hmissing (h.kept r hr j d hd)
  fresh r hr j d hd := by
    rcases entry_finished hd with ⟨-, -, rfl⟩ | hold
    · exact .inr hc
    · exact h.fresh r hr j d hold
  only r hr hn   := by
    funext j
    rw [boundCopies_finished, if_neg, h.only r hr hn]
    rintro ⟨rfl, -⟩
    exact hn hself
  bound r hle hlt := by
    rw [boundInstance_finished]
    exact h.bound r hle hlt

end Copying

/-! ### `__get__` of a tree -/

section Binding

variable {truthy : I → Bool} {i : I}

def Unbound (s : Handlers I F V) (t : RoseTree Ref) : Prop :=
  ∀ r ∈ t.labels, (s.get r).boundInstance = none

/-- An unbound tree stays unbound. -/
theorem Unbound.mono {labels : Ref → Prop} {s s' : Handlers I F V} {t : RoseTree Ref}
    (h : Unbound s t) (ht : Holds s t) (hg : Grows truthy labels s s') : Unbound s' t := by
  intro r hr
  rw [hg.boundInstance (ht.lt hr)]
  exact h r hr

/-- What `__get__` leaves, and that it returns within the recursion limit. -/
structure Outcome (truthy : I → Bool) (i : I) (limit : Nat) (t : RoseTree Ref) (s : Handlers I F V)
    (run : Except PyExc Ref × Handlers I F V) : Prop where
  sound   : Sound run.2
  grows   : Grows truthy (fun r => r ∈ t.labels) s run.2
  result  : ∀ c, run.1 = .ok c → (run.2.get t.label).boundCopies i = some c
  returns : t.height ≤ limit → ∃ c, run.1 = .ok c

/-- The same of the subcommands, one after the other. -/
structure Outcomes (truthy : I → Bool) (i : I) (limit : Nat) (ts : List (RoseTree Ref))
    (s : Handlers I F V) (run : Except PyExc (List Ref) × Handlers I F V) : Prop where
  sound   : Sound run.2
  grows   : Grows truthy (fun r => ∃ t ∈ ts, r ∈ t.labels) s run.2
  result  : ∀ cs, run.1 = .ok cs →
    List.Forall₂ (fun t c => (run.2.get t.label).boundCopies i = some c) ts cs
  returns : (∀ t ∈ ts, t.height ≤ limit) → ∃ cs, run.1 = .ok cs

/-- The copies of the subcommands leave their handler without one, and its own copy alone. -/
theorem finishing_started {limit : Nat} {s s' : Handlers I F V} {r : Ref}
    {ts : List (RoseTree Ref)} {cs : List Ref} (hs : Sound s) (ht : Holds s (.node r ts))
    (hunbound : (s.get r).boundInstance = none) (hmissing : (s.get r).boundCopies i = none)
    (h : Outcomes truthy i limit ts (started s r i) (.ok cs, s')) : Finishing s' r i s.next cs := by
  have hr : r < s.next := ht.lt (RoseTree.label_mem_labels _)
  have hr' : r < (started s r i).next := Nat.lt_succ_of_lt hr
  have hgrows := h.grows
  -- the handler is not among its own subcommands,
  have hself : ¬ ∃ t ∈ ts, r ∈ t.labels := fun ⟨t, htmem, hmem⟩ => ht.not_mem_child htmem hmem
  have hplain : (s'.get r).plain = (s.get r).plain := by
    rw [hgrows.plain r hr', get_started hr]
  -- and neither is its copy
  have hnew : ¬ ∃ t ∈ ts, s.next ∈ t.labels := by
    rintro ⟨t, htmem, hmem⟩
    exact Nat.lt_irrefl _ (ht.lt (RoseTree.mem_labels_node.mpr (.inr ⟨t, htmem, hmem⟩)))
  refine ⟨Nat.lt_of_lt_of_le hr' hgrows.next, hgrows.next, ?_, ?_, ?_, fun q j hq => ?_, ?_⟩
  · rw [hgrows.boundInstance hr', get_started hr]
    exact hunbound
  · rw [hgrows.only r hr' hself, get_started hr]
    exact hmissing
  · refine ⟨(s.get r).subcommands, ?_⟩
    rw [hgrows.get_eq (Nat.lt_succ_self _) hnew, get_started_next, hplain]
    rfl
  · -- no cache knows the new copy: neither the old ones nor those of new handlers
    have hcopy := h.sound.copy q j s.next hq
    by_cases hlt : q < (started s r i).next
    · rcases hgrows.fresh q hlt j s.next hq with hold | hle
      · by_cases hqs : q < s.next
        · rw [get_started hqs] at hold
          exact Nat.lt_irrefl _ (hs.copy q j s.next hold).lt
        · obtain rfl : q = s.next := Nat.le_antisymm (Nat.le_of_lt_succ hlt) (Nat.le_of_not_lt hqs)
          rw [get_started_next] at hold
          cases hold
      · exact Nat.lt_irrefl _ hle
    · obtain ⟨k, -, hk⟩ := hgrows.bound q (Nat.le_of_not_lt hlt) hcopy.handler_lt
      have hempty := h.sound.bound q k hk j
      rw [hq] at hempty
      cases hempty
  · cases ht with
    | node _ hsubs _ =>
      rw [Bindable.view_eq hplain Bindable.subcommands fun _ => rfl, hsubs,
        List.forall₂_map_left_iff]
      exact h.result cs rfl

variable [DecidableEq I]

/-- A copy is found again. -/
theorem exec_getBound_again {s : Handlers I F V} {r c : Ref} (hi : truthy i = true)
    (hunbound : (s.get r).boundInstance = none) (hc : (s.get r).boundCopies i = some c)
    (limit : Nat) : (getBound truthy (some i) (limit + 1) r).exec s = (.ok c, s) := by
  rw [getBound, exec_get_bind]
  simp only [Option.filter_some, hi, if_true, hunbound, Option.any_none, Bool.false_eq_true,
    if_false, hc]
  rfl

/-- The subcommands one after the other, each from what the one before left. -/
theorem outcomes_mapM {limit : Nat} {ts : List (RoseTree Ref)}
    (ih : ∀ t ∈ ts, ∀ s : Handlers I F V, Sound s → Holds s t → Unbound s t →
      Outcome truthy i limit t s ((getBound truthy (some i) limit t.label).exec s))
    (s : Handlers I F V) (hs : Sound s) (hts : ∀ t ∈ ts, Holds s t ∧ Unbound s t) :
    Outcomes truthy i limit ts s
      (((ts.map RoseTree.label).mapM (getBound truthy (some i) limit)).exec s) := by
  induction ts generalizing s with
  | nil =>
    refine ⟨hs, Grows.refl _ _ s, fun cs hcs => ?_, fun _ => ⟨[], rfl⟩⟩
    cases hcs
    exact .nil
  -- the rest begins where the first subcommand left the handlers
  | cons t ts ihts =>
    obtain ⟨ht, hunbound⟩ := hts t List.mem_cons_self
    have hhead := ih t List.mem_cons_self s hs ht hunbound
    rw [List.map_cons, List.mapM_cons]
    rcases hrun : (getBound truthy (some i) limit t.label).exec s with ⟨e | c, s₁⟩
    · rw [hrun] at hhead
      rw [exec_bind_error hrun]
      refine ⟨hhead.sound, hhead.grows.mono fun r hr => ⟨t, List.mem_cons_self, hr⟩, nofun,
        fun hlimit => ?_⟩
      obtain ⟨c, hc⟩ := hhead.returns (hlimit t List.mem_cons_self)
      cases hc
    · rw [hrun] at hhead
      rw [exec_bind_ok hrun]
      have htail := ihts (fun u hu => ih u (List.mem_cons_of_mem _ hu)) s₁ hhead.sound fun u hu =>
        ⟨(hts u (List.mem_cons_of_mem _ hu)).1.mono hhead.grows.next hhead.grows.plain,
          (hts u (List.mem_cons_of_mem _ hu)).2.mono (hts u (List.mem_cons_of_mem _ hu)).1
            hhead.grows⟩
      have hgrows : Grows truthy (fun r => ∃ u ∈ t :: ts, r ∈ u.labels) s
          (((ts.map RoseTree.label).mapM (getBound truthy (some i) limit)).exec s₁).2 :=
        (hhead.grows.mono fun r hr => ⟨t, List.mem_cons_self, hr⟩).trans
          (htail.grows.mono fun r ⟨u, hu, hr⟩ => ⟨u, List.mem_cons_of_mem _ hu, hr⟩)
      rcases hrest : ((ts.map RoseTree.label).mapM (getBound truthy (some i) limit)).exec s₁ with
        ⟨e | cs, s₂⟩
      · rw [hrest] at htail hgrows
        rw [exec_bind_error hrest]
        refine ⟨htail.sound, hgrows, nofun, fun hlimit => ?_⟩
        obtain ⟨cs, hcs⟩ := htail.returns fun u hu => hlimit u (List.mem_cons_of_mem _ hu)
        cases hcs
      · rw [hrest] at htail hgrows
        rw [exec_bind_ok hrest]
        refine ⟨htail.sound, hgrows, fun cs' hcs' => ?_, fun _ => ⟨_, rfl⟩⟩
        cases hcs'
        have hlt : t.label < s₁.next :=
          Nat.lt_of_lt_of_le (ht.lt t.label_mem_labels) hhead.grows.next
        -- the copy of the first is still in its table
        exact .cons (htail.grows.kept t.label hlt i c (hhead.result c rfl)) (htail.result cs rfl)

/-- A handler without a copy gets one, once its subcommands have theirs. -/
theorem outcome_copying (hi : truthy i = true) {limit : Nat} {s : Handlers I F V} {r : Ref}
    {ts : List (RoseTree Ref)} (hs : Sound s) (ht : Holds s (.node r ts))
    (hunbound : (s.get r).boundInstance = none) (hmissing : (s.get r).boundCopies i = none)
    (hsubs : Outcomes truthy i limit ts (started s r i)
      (((ts.map RoseTree.label).mapM (getBound truthy (some i) limit)).exec (started s r i))) :
    Outcome truthy i (limit + 1) (.node r ts) s
      ((getBound truthy (some i) (limit + 1) r).exec s) := by
  -- the children of the tree are the subcommands, in their order
  have hlabels : (s.get r).subcommands = ts.map RoseTree.label := by
    cases ht with
    | node _ hsubs _ => exact hsubs
  have hgrows : Grows truthy (fun q => q ∈ (RoseTree.node r ts).labels) s (started s r i) :=
    (grows_started hi r).mono fun _ => False.elim
  have hall : ∀ {s' : Handlers I F V} {x : Except PyExc (List Ref)},
      Outcomes truthy i limit ts (started s r i) (x, s') →
      Grows truthy (fun q => q ∈ (RoseTree.node r ts).labels) s s' := fun h =>
    hgrows.trans (h.grows.mono fun q hq => RoseTree.mem_labels_node.mpr (.inr hq))
  rw [getBound, exec_get_bind]
  simp only [Option.filter_some, hi, if_true, hunbound, Option.any_none, Bool.false_eq_true,
    if_false, hmissing]
  rw [exec_modify_bind]
  change Outcome truthy i (limit + 1) (.node r ts) s (Prog.exec
    ((s.get r).subcommands.mapM (getBound truthy (some i) limit) >>= _) (started s r i))
  rw [hlabels]
  rcases hrun : ((ts.map RoseTree.label).mapM (getBound truthy (some i) limit)).exec
    (started s r i) with ⟨e | cs, s'⟩
  · -- a subcommand was too deep: the copy stays without an entry
    rw [hrun] at hsubs
    rw [exec_bind_error hrun]
    refine ⟨hsubs.sound, hall hsubs, fun c hc => ?_, fun hheight => ?_⟩
    · cases hc
    · obtain ⟨cs, hcs⟩ := hsubs.returns fun t htmem =>
        Nat.le_of_lt_succ (Nat.lt_of_lt_of_le (RoseTree.height_lt_of_mem htmem) hheight)
      cases hcs
  · rw [hrun] at hsubs
    rw [exec_bind_ok hrun]
    have hf := finishing_started hs ht hunbound hmissing hsubs
    refine ⟨hsubs.sound.finished hf, (hall hsubs).finished (RoseTree.label_mem_labels _)
      (Nat.le_refl _) hf.missing, fun c hc => ?_, fun _ => ⟨_, rfl⟩⟩
    cases hc
    exact (boundCopies_finished r i).trans (if_pos ⟨rfl, rfl⟩)

/-- **`__get__` of a tree** that has not been bound, for a true instance. -/
theorem outcome_getBound (hi : truthy i = true) (limit : Nat) :
    ∀ (t : RoseTree Ref) (s : Handlers I F V), Sound s → Holds s t → Unbound s t →
      Outcome truthy i limit t s ((getBound truthy (some i) limit t.label).exec s) := by
  -- by induction on the recursion limit, which is below the height if it is not enough
  induction limit with
  | zero =>
    intro t s hs ht hunbound
    refine ⟨hs, Grows.refl _ _ s, fun c hc => ?_, fun hheight => ?_⟩
    · cases hc
    · obtain ⟨r, ts⟩ := t
      rw [RoseTree.height] at hheight
      exact absurd hheight (Nat.not_succ_le_zero _)
  | succ limit ih =>
    rintro ⟨r, ts⟩ s hs ht hunbound
    have hnone : (s.get r).boundInstance = none := hunbound r (RoseTree.label_mem_labels _)
    cases hmemo : (s.get r).boundCopies i with
    | some copy =>
      rw [RoseTree.label_node, exec_getBound_again hi hnone hmemo]
      refine ⟨hs, Grows.refl _ _ s, fun c hc => ?_, fun _ => ⟨copy, rfl⟩⟩
      cases hc
      exact hmemo
    | none =>
      -- the subcommands are trees of the same kind, also beside the new copy
      have hts : ∀ t ∈ ts, Holds (started s r i) t ∧ Unbound (started s r i) t := by
        intro t htmem
        have hgrows := grows_started (s := s) hi r
        have hchild : Holds s t := by
          cases ht with
          | node _ _ hts => exact hts t htmem
        have hfree : Unbound s t := fun q hq =>
          hunbound q (RoseTree.mem_labels_node.mpr (.inr ⟨t, htmem, hq⟩))
        exact ⟨hchild.mono hgrows.next hgrows.plain, hfree.mono hchild hgrows⟩
      exact outcome_copying hi hs ht hnone hmemo
        (outcomes_mapM (fun t _ => ih t) (started s r i) (hs.started r i) hts)

end Binding

/-! ### The tree of an instance -/

/-- The copy of a handler for `i` -/
def copyOf (s : Handlers I F V) (i : I) (r : Ref) : Ref := ((s.get r).boundCopies i).getD 0

/-- `f` leads from the handlers of a tree to its copies, which are a tree of the same shape. -/
structure Copied (s : Handlers I F V) (t : RoseTree Ref) (i : I) (f : Ref → Ref) : Prop where
  holds  : Holds s (t.map f)
  memo   : ∀ r ∈ t.labels, (s.get r).boundCopies i = some (f r)
  handler : ∀ r ∈ t.labels, s.get (f r) = { (s.get r).plain with
    boundInstance := some i, subcommands := (s.get r).subcommands.map f }

/-- An element of the first list has a partner. -/
theorem exists_of_forall₂ {α β : Type} {R : α → β → Prop} {as : List α} {bs : List β}
    (h : List.Forall₂ R as bs) {a : α} (ha : a ∈ as) : ∃ b, R a b := by
  induction h with
  | nil => cases ha
  | @cons x y xs ys hxy _ ih =>
    rcases List.mem_cons.mp ha with rfl | ha
    · exact ⟨y, hxy⟩
    · exact ih ha

section Copies

variable {s : Handlers I F V} {t : RoseTree Ref} {i : I} {c : Ref}

/-- Where the root has been copied, all have. -/
theorem memo_of_root (hs : Sound s) (ht : Holds s t)
    (hroot : (s.get t.label).boundCopies i = some c) :
    ∀ r ∈ t.labels, (s.get r).boundCopies i = some (copyOf s i r) := by
  induction ht generalizing c with
  | @node r ts _ hsubs _ ih =>
    intro q hq
    rcases RoseTree.mem_labels_node.mp hq with rfl | ⟨t, htmem, hmem⟩
    · rw [copyOf, show (s.get q).boundCopies i = some c from hroot]
      rfl
    · -- with the copy of a handler stand those of its subcommands
      have hcopies := (hs.copy r i c hroot).subcommands
      rw [hsubs] at hcopies
      obtain ⟨d, hd⟩ := exists_of_forall₂ hcopies (List.mem_map_of_mem htmem)
      exact ih t htmem hd q hmem

/-- Where the tables say which copy an object has, the copy is the object with its subcommands'
    copies. -/
theorem handler_of_memo (hs : Sound s) {f : Ref → Ref}
    (hf : ∀ r c, (s.get r).boundCopies i = some c → f r = c) {r : Ref}
    (hr : (s.get r).boundCopies i = some (f r)) : s.get (f r) = { (s.get r).plain with
      boundInstance := some i, subcommands := (s.get r).subcommands.map f } := by
  have hcopy := hs.copy r i (f r) hr
  have hsubs : (s.get (f r)).subcommands = (s.get r).subcommands.map f := by
    have heq := hcopy.subcommands.imp fun sub d hd => hf sub d hd
    rw [← List.forall₂_map_left_iff (f := f) (R := Eq), List.forall₂_eq_eq_eq] at heq
    exact heq.symm
  rw [hcopy.plain, hsubs]

/-- So the copies of a tree are a tree. -/
theorem holds_map (hs : Sound s) {f : Ref → Ref}
    (hf : ∀ r c, (s.get r).boundCopies i = some c → f r = c) (ht : Holds s t)
    (hmemo : ∀ r ∈ t.labels, (s.get r).boundCopies i = some (f r)) : Holds s (t.map f) := by
  induction ht with
  | @node r ts _ hsubs _ ih =>
    have hr := hmemo r (RoseTree.label_mem_labels _)
    rw [RoseTree.map_node]
    refine .node (hs.copy r i (f r) hr).lt ?_ fun t ht => ?_
    · rw [handler_of_memo hs hf hr]
      dsimp only
      rw [hsubs, List.map_map, List.map_map]
      exact List.map_congr_left fun t _ => (RoseTree.label_map f t).symm
    · obtain ⟨u, hu, rfl⟩ := List.mem_map.mp ht
      exact ih u hu fun q hq => hmemo q (RoseTree.mem_labels_node.mpr (.inr ⟨u, hu, hq⟩))

/-- **The tree of an instance.** -/
theorem copied_of_root (hs : Sound s) (ht : Holds s t)
    (hroot : (s.get t.label).boundCopies i = some c) : Copied s t i (copyOf s i) := by
  have hf : ∀ r d, (s.get r).boundCopies i = some d → copyOf s i r = d := by
    intro r d hd
    rw [copyOf, hd]
    rfl
  have hmemo := memo_of_root hs ht hroot
  exact ⟨holds_map hs hf ht hmemo, hmemo, fun r hr => handler_of_memo hs hf (hmemo r hr)⟩

end Copies

/-! ### Runs -/

/-- A call of `__get__` -/
structure Get (I : Type) where
  handler : Ref
  inst    : Option I
  limit   : Nat

section Runs

variable [DecidableEq I] {truthy : I → Bool} {s₀ s s' : Handlers I F V} {t : RoseTree Ref}

def Get.exec (truthy : I → Bool) (g : Get I) (s : Handlers I F V) : Handlers I F V :=
  ((getBound truthy g.inst g.limit g.handler).exec s).2

/-- The handler that is asked is there. -/
def Allocated (s : Handlers I F V) (g : Get I) : Prop := g.handler < s.next

/-- What holds since the class was made. -/
structure Since (truthy : I → Bool) (s₀ s : Handlers I F V) : Prop where
  sound : Sound s
  grows : Grows truthy (fun _ => True) s₀ s

omit [DecidableEq I] in
/-- Right after the decorators nothing has been bound. -/
theorem Decorated.since (h₀ : Decorated s₀) : Since truthy s₀ s₀ := by
  have hnone : ∀ r i c, (s₀.get r).boundCopies i ≠ some c := by
    intro r i c hc
    rw [h₀.boundCopies r i] at hc
    cases hc
  exact ⟨⟨fun r i c hc => absurd hc (hnone r i c), fun r i _ _ c hc => absurd hc (hnone r i c),
    fun r _ _ j => h₀.boundCopies r j⟩, Grows.refl _ _ s₀⟩

/-- `__get__` of a bound handler, or for a false instance, returns the handler. -/
theorem exec_getBound_idle {inst : Option I} {r : Ref}
    (h : inst.filter truthy = none ∨ (s.get r).boundInstance.any truthy = true) (limit : Nat) :
    ((getBound truthy inst limit r).exec s).2 = s := by
  cases limit with
  | zero => rfl
  | succ limit =>
    rw [getBound, exec_get_bind]
    dsimp only
    split
    · rfl
    · next i hi =>
      rw [if_pos]
      · rfl
      · rcases h with hnone | hbound
        · rw [hnone] at hi
          cases hi
        · exact hbound

omit [DecidableEq I] in
/-- The trees of the class are still there, -/
theorem Since.holds (h : Since truthy s₀ s) (ht : Holds s₀ t) : Holds s t :=
  ht.mono h.grows.next h.grows.plain

omit [DecidableEq I] in
/-- and unbound. -/
theorem Since.unbound (h₀ : Decorated s₀) (h : Since truthy s₀ s) (ht : Holds s₀ t) :
    Unbound s t := by
  intro r hr
  rw [h.grows.boundInstance (ht.lt hr)]
  exact h₀.boundInstance r

/-- **One call** of `__get__`, of whatever handler, for whatever instance, and however it ends. -/
theorem grows_get (h₀ : Decorated s₀) (h : Since truthy s₀ s) (g : Get I) (hg : Allocated s g) :
    Sound (g.exec truthy s) ∧ Grows truthy (fun _ => True) s (g.exec truthy s) := by
  have hidle : g.exec truthy s = s →
      Sound (g.exec truthy s) ∧ Grows truthy (fun _ => True) s (g.exec truthy s) := by
    intro heq
    rw [heq]
    exact ⟨h.sound, Grows.refl _ _ s⟩
  obtain ⟨r, inst, limit⟩ := g
  -- a handler of the class gets a copy, and a copy is returned as it is
  by_cases hr : r < s₀.next
  · cases hinst : inst.filter truthy with
    | none => exact hidle (exec_getBound_idle (.inl hinst) limit)
    | some i =>
      obtain ⟨rfl, hi⟩ := Option.filter_eq_some_iff.mp hinst
      obtain ⟨t, rfl, ht⟩ := h₀.tree r hr
      have hrun := outcome_getBound hi limit t s h.sound (h.holds ht) (Since.unbound h₀ h ht)
      exact ⟨hrun.sound, hrun.grows.mono fun _ _ => trivial⟩
  · obtain ⟨k, hk, hbound⟩ := h.grows.bound r (Nat.le_of_not_lt hr) hg
    refine hidle (exec_getBound_idle (.inr ?_) limit)
    rw [hbound]
    exact hk

/-- Every `__get__` keeps that. -/
theorem since_get (h₀ : Decorated s₀) (h : Since truthy s₀ s) (g : Get I) (hg : Allocated s g) :
    Since truthy s₀ (g.exec truthy s) := by
  obtain ⟨hsound, hgrows⟩ := grows_get h₀ h g hg
  exact ⟨hsound, h.grows.trans hgrows⟩

/-- **A run** of calls, from any state of it. -/
theorem grows_reach (h₀ : Decorated s₀) (h : Since truthy s₀ s)
    (hreach : Reach (Get.exec truthy) Allocated s s') :
    Since truthy s₀ s' ∧ Grows truthy (fun _ => True) s s' := by
  refine hreach.invariant (I := fun u => Since truthy s₀ u ∧ Grows truthy (fun _ => True) s u)
    ⟨h, Grows.refl _ _ s⟩ fun u g hu hg => ?_
  exact ⟨since_get h₀ hu.1 g hg, hu.2.trans (grows_get h₀ hu.1 g hg).2⟩

omit [DecidableEq I] in
/-- A bound handler stays as it is. -/
theorem get_bound {i : I} {c : Ref} (hs : Sound s) (hs' : Sound s')
    (hg : Grows truthy (fun _ => True) s s') (hc : c < s.next)
    (hbound : (s.get c).boundInstance = some i) : s'.get c = s.get c := by
  have hbound' : (s'.get c).boundInstance = some i := by
    rw [hg.boundInstance hc]
    exact hbound
  refine Bindable.eq_of_plain (hg.plain c hc) ?_
  funext j
  rw [hs.bound c i hbound j, hs'.bound c i hbound' j]

end Runs

end Maubot.Command
