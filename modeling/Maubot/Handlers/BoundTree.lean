import Maubot.Handlers.Decorators

namespace Maubot.Command

/-!
# Commands — the tree of an instance

A message is dispatched on a tree of handler objects as on the tree of what they hold, where the
name and the match function of a handler are asked with the instance that it is bound to.

* `denote` — the tree that is dispatched on;
* `Independent` — names and match functions that do not depend on the instance;
* `denote_copied` — the tree of an instance is the unbound one, with other functions;
* `bound_tree` — `__get__` gives an instance that tree, for good, and shares it with no other.
-/

open Prog

variable {I F V : Type}

/-- What is called in the end: the function of a handler, with its instance if it has one. -/
structure Call (I F : Type) where
  handler : Ref
  func    : F
  inst    : Option I
  deriving DecidableEq

/-- The same function, called by the copy of its handler. -/
def Call.rebind (f : Ref → Ref) (i : I) (c : Call I F) : Call I F where
  handler := f c.handler
  func    := c.func
  inst    := some i

/-- `__mb_is_command_match__(instance, val)`, where one is set -/
def MatchFunction.accepts? (s : Handlers I F V) (inst : Option I) (val : Text) :
    MatchFunction I → Bool
  | .unset             => false
  | .name func aliases => val == (s.get func).getName inst || aliases.contains val
  | .accepts p         => p inst val

/-- A handler without its subcommands, as it is asked for its name and called. -/
def nodeAt (truthy : I → Bool) (s : Handlers I F V) (r : Ref) : Node (Call I F) V :=
  let h := s.get r
  { func              := ⟨r, h.func, h.boundInstance.filter truthy⟩
    name              := h.getName h.boundInstance
    help              := h.help
    aliases           := .accepts fun val => h.isCommandMatch.accepts? s h.boundInstance val
    arguments         := h.arguments
    requireSubcommand := h.requireSubcommand
    argFallthrough    := h.argFallthrough
    mustConsumeArgs   := h.mustConsumeArgs
    msgtypes          := h.msgtypes }

/-- The tree that is dispatched on. -/
def denote (truthy : I → Bool) (s : Handlers I F V) : RoseTree Ref → CommandHandler (Call I F) V
  | .node r ts => .mk (nodeAt truthy s r) (ts.map (denote truthy s))

/-- The name in front of a handler's own in `__mb_prefix__`. -/
def parentName (s : Handlers I F V) (r : Ref) : Option Text :=
  (s.get r).parent.map fun q => (s.get q).getName (s.get r).boundInstance

/-- The parent of each subcommand goes by the name of the handler that lists it. -/
def Named (truthy : I → Bool) (s : Handlers I F V) (t : RoseTree Ref) : Prop :=
  ∀ r ∈ t.labels, ∀ sub ∈ (s.get r).subcommands,
    parentName s sub = some (nodeAt truthy s r).name

/-- The names and the match functions of a tree are there, and the same for every instance, and
    so is the name of the handler that its root is a subcommand of, if it is one. -/
structure Independent (s : Handlers I F V) (t : RoseTree Ref) : Prop where
  set    : ∀ r ∈ t.labels, (s.get r).isCommandMatch ≠ .unset
  name   : ∀ r ∈ t.labels, ∀ inst, (s.get r).getName inst = (s.get r).getName none
  accept : ∀ r ∈ t.labels, ∀ p, (s.get r).isCommandMatch = .accepts p → ∀ inst, p inst = p none
  parent : ∀ q, (s.get t.label).parent = some q →
    ∀ inst, (s.get q).getName inst = (s.get q).getName none

section Dispatch

variable {truthy : I → Bool} {s s' : Handlers I F V} {t : RoseTree Ref} {i : I} {f : Ref → Ref}

/-- The node at a reference is that of its object. -/
theorem nodeAt_eq {r : Ref} {h : Bindable I F V} (hr : s.get r = h) :
    nodeAt truthy s r =
      { func              := ⟨r, h.func, h.boundInstance.filter truthy⟩
        name              := h.getName h.boundInstance
        help              := h.help
        aliases           := .accepts fun val =>
          h.isCommandMatch.accepts? s h.boundInstance val
        arguments         := h.arguments
        requireSubcommand := h.requireSubcommand
        argFallthrough    := h.argFallthrough
        mustConsumeArgs   := h.mustConsumeArgs
        msgtypes          := h.msgtypes } := by
  subst hr
  rfl

/-- A name is part of the plain object. -/
theorem getName_of_plain {r : Ref} (hplain : (s'.get r).plain = (s.get r).plain) :
    (s'.get r).getName = (s.get r).getName :=
  Bindable.view_eq hplain Bindable.getName fun _ => rfl

/-- The match function of a handler is its own, and asks its own name. -/
theorem accepts?_copied (h₀ : Decorated s) (hind : Independent s t) {r : Ref}
    (hr : r ∈ t.labels) (hlt : r < s.next) (hplain : (s'.get r).plain = (s.get r).plain)
    (inst : Option I) (val : Text) :
    (s.get r).isCommandMatch.accepts? s' inst val =
      (s.get r).isCommandMatch.accepts? s none val := by
  cases hm : (s.get r).isCommandMatch with
  | unset => exact absurd hm (hind.set r hr)
  | name func aliases =>
    obtain rfl := h₀.own r hlt func aliases hm
    show (val == (s'.get func).getName inst || aliases.contains val) =
      (val == (s.get func).getName none || aliases.contains val)
    rw [getName_of_plain hplain, hind.name func hr inst]
  | accepts p =>
    show p inst val = p none val
    rw [hind.accept r hr p hm inst]

/-- **One handler** of the tree of an instance. -/
theorem nodeAt_copied (h₀ : Decorated s) (ht : Holds s t) (hind : Independent s t)
    (hi : truthy i = true) (hplain : ∀ r ∈ t.labels, (s'.get r).plain = (s.get r).plain)
    (hcopied : Copied s' t i f) {r : Ref} (hr : r ∈ t.labels) :
    nodeAt truthy s' (f r) = (nodeAt truthy s r).mapFunc (Call.rebind f i) := by
  have hget : s'.get (f r) = { (s.get r).plain with
      boundInstance := some i, subcommands := (s'.get r).subcommands.map f } := by
    rw [hcopied.handler r hr, hplain r hr]
  have hnone := h₀.boundInstance r
  rw [nodeAt_eq hget, nodeAt, Node.mapFunc]
  dsimp only [Bindable.plain, Call.rebind]
  rw [hnone, Option.filter_some, if_pos hi, hind.name r hr (some i)]
  -- the match functions are left
  congr 1
  congr 1
  funext val
  exact accepts?_copied h₀ hind hr (ht.lt hr) (hplain r hr) (some i) val

/-- **The tree of an instance** is the unbound one, with the functions called by the copies. -/
theorem denote_copied (h₀ : Decorated s) (ht : Holds s t) (hind : Independent s t)
    (hi : truthy i = true) (hplain : ∀ r ∈ t.labels, (s'.get r).plain = (s.get r).plain)
    (hcopied : Copied s' t i f) :
    denote truthy s' (t.map f) = (denote truthy s t).mapFunc (Call.rebind f i) := by
  -- by induction on a part of the tree
  have hpart : ∀ u : RoseTree Ref, (∀ r ∈ u.labels, r ∈ t.labels) →
      denote truthy s' (u.map f) = (denote truthy s u).mapFunc (Call.rebind f i) := by
    intro u
    induction u using RoseTree.induct with
    | node r ts ih =>
      intro hu
      have hr := hu r (RoseTree.label_mem_labels _)
      rw [RoseTree.map_node, denote, denote, CommandHandler.mapFunc,
        nodeAt_copied h₀ ht hind hi hplain hcopied hr, List.map_map, List.map_map]
      congr 1
      apply List.map_congr_left
      intro v hv
      exact ih v hv fun q hq => hu q (RoseTree.mem_labels_node.mpr (.inr ⟨v, hv, hq⟩))
  exact hpart t fun _ hr => hr

/-- Every message has the same effects, with the instance in the place of none. -/
theorem handle_copied (h₀ : Decorated s) (ht : Holds s t) (hind : Independent s t)
    (hi : truthy i = true) (hplain : ∀ r ∈ t.labels, (s'.get r).plain = (s.get r).plain)
    (hcopied : Copied s' t i f) (S : Strings) (bot : Text) (evt : Message) :
    (denote truthy s' (t.map f)).handle S bot evt =
      ((denote truthy s t).handle S bot evt).map (Effect.mapFunc (Call.rebind f i)) := by
  rw [denote_copied h₀ ht hind hi hplain hcopied, CommandHandler.handle_mapFunc]

/-! ### The names of the parents -/

/-- Decorated handlers have the names of their class. -/
theorem named_of_decorated (h₀ : Decorated s) (ht : Holds s t) : Named truthy s t := by
  intro r hr sub hsub
  rw [parentName, h₀.parent r (ht.lt hr) sub hsub, h₀.boundInstance sub]
  show some ((s.get r).getName none) = some ((s.get r).getName (s.get r).boundInstance)
  rw [h₀.boundInstance r]

/-- A copy has the parent's name of its original, -/
theorem parentName_copied (h₀ : Decorated s) {r q : Ref} (hlt : r < s.next)
    (hq : (s.get r).parent = some q)
    (hname : ∀ inst, (s.get q).getName inst = (s.get q).getName none)
    (hplain : ∀ r < s.next, (s'.get r).plain = (s.get r).plain)
    (hget : s'.get (f r) = { (s'.get r).plain with
      boundInstance := some i, subcommands := (s'.get r).subcommands.map f }) :
    parentName s' (f r) = parentName s r := by
  have hparent : (s'.get (f r)).parent = some q := by
    rw [hget, hplain r hlt]
    exact hq
  have hinst : (s'.get (f r)).boundInstance = some i := by rw [hget]
  rw [parentName, parentName, hparent, hq, hinst, h₀.boundInstance r]
  show some ((s'.get q).getName (some i)) = some ((s.get q).getName none)
  rw [getName_of_plain (hplain q (h₀.parent_lt r hlt q hq)), hname (some i)]

/-- and so has the root. -/
theorem parentName_root (h₀ : Decorated s) (ht : Holds s t) (hind : Independent s t)
    (hplain : ∀ r < s.next, (s'.get r).plain = (s.get r).plain) (hcopied : Copied s' t i f) :
    parentName s' (f t.label) = parentName s t.label := by
  have hroot := t.label_mem_labels
  cases hq : (s.get t.label).parent with
  | some q =>
    exact parentName_copied h₀ (ht.lt hroot) hq (hind.parent q hq) hplain
      (hcopied.handler _ hroot)
  | none =>
    have hparent : (s'.get (f t.label)).parent = none := by
      rw [hcopied.handler _ hroot, hplain _ (ht.lt hroot)]
      exact hq
    rw [parentName, parentName, hparent, hq]
    rfl

/-- So the copies are named as the originals. -/
theorem named_copied (h₀ : Decorated s) (ht : Holds s t) (hind : Independent s t)
    (hi : truthy i = true) (hplain : ∀ r < s.next, (s'.get r).plain = (s.get r).plain)
    (hcopied : Copied s' t i f) : Named truthy s' (t.map f) := by
  intro c hc sub hsub
  rw [RoseTree.labels_map] at hc
  obtain ⟨r, hr, rfl⟩ := List.mem_map.mp hc
  have hlt := ht.lt hr
  rw [hcopied.handler r hr, Bindable.view_eq (hplain r hlt) Bindable.subcommands fun _ => rfl]
    at hsub
  obtain ⟨q, hq, rfl⟩ := List.mem_map.mp hsub
  have hqt : q ∈ t.labels := ht.mem_subcommands hr hq
  have hname : parentName s q = some (nodeAt truthy s r).name :=
    named_of_decorated h₀ ht r hr q hq
  rw [parentName_copied h₀ (ht.lt hqt) (h₀.parent r hlt q hq) (hind.name r hr) hplain
    (hcopied.handler q hqt), hname,
    nodeAt_copied h₀ ht hind hi (fun r hr => hplain r (ht.lt hr)) hcopied hr]
  rfl

end Dispatch

/-! ### The law of `__get__` -/

/-- The copies of a tree are the tree of the class with the instance: distinct objects, of the
    same shape, on which every message goes the same way and ends with the instance. -/
structure BoundTo (truthy : I → Bool) (s₀ s : Handlers I F V) (t : RoseTree Ref) (i : I)
    (f : Ref → Ref) : Prop where
  copied    : Copied s t i f
  injective : ∀ r ∈ t.labels, ∀ q ∈ t.labels, f r = f q → r = q
  plain     : ∀ r ∈ t.labels, (s.get r).plain = (s₀.get r).plain
  named     : Named truthy s₀ t ∧ Named truthy s (t.map f)
  dispatch  : ∀ (S : Strings) (bot : Text) (evt : Message)
    (path' : List (CommandHandler (Call I F) V)) (effect' : Option (Effect (Call I F) V)),
    CommandHandler.DispatchedFrom S bot evt (denote truthy s (t.map f)) (parentName s (f t.label))
      path' effect' ↔
    ∃ path effect, CommandHandler.DispatchedFrom S bot evt (denote truthy s₀ t)
        (parentName s₀ t.label) path effect ∧
      path' = path.map (CommandHandler.mapFunc (Call.rebind f i)) ∧
      effect' = effect.map (Effect.mapFunc (Call.rebind f i))

section Law

variable {truthy : I → Bool} {s₀ s s' s'' u : Handlers I F V} {t : RoseTree Ref} {i j : I}
  {f g : Ref → Ref}

/-- And they are bound to the instance. -/
theorem BoundTo.of_copied (h₀ : Decorated s₀) (h : Since truthy s₀ s) (ht : Holds s₀ t)
    (hind : Independent s₀ t) (hi : truthy i = true) (hcopied : Copied s t i f) :
    BoundTo truthy s₀ s t i f where
  copied    := hcopied
  injective := by
    intro r hr q hq heq
    have hmemo := hcopied.memo q hq
    rw [← heq] at hmemo
    exact (h.sound.once r i q i (f r) (hcopied.memo r hr) hmemo).1
  plain r hr := h.grows.plain r (ht.lt hr)
  named     := ⟨named_of_decorated h₀ ht, named_copied h₀ ht hind hi h.grows.plain hcopied⟩
  dispatch  := by
    intro S bot evt path' effect'
    rw [denote_copied h₀ ht hind hi (fun r hr => h.grows.plain r (ht.lt hr)) hcopied,
      parentName_root h₀ ht hind h.grows.plain hcopied]
    exact CommandHandler.dispatchedFrom_mapFunc_iff _

/-- The copies of two instances are different objects. -/
theorem Copied.ne (hs : Sound s) (hf : Copied s t i f) (hg : Copied s t j g) (hij : j ≠ i)
    {r q : Ref} (hr : r ∈ t.labels) (hq : q ∈ t.labels) : f r ≠ g q := by
  intro heq
  have hmemo := hg.memo q hq
  rw [← heq] at hmemo
  exact hij (hs.once r i q j (f r) (hf.memo r hr) hmemo).2.symm

/-- The copies of a tree stay the copies, and the same objects. -/
theorem Copied.mono (hs : Sound s) (hs' : Sound s') (ht : Holds s t)
    (hg : Grows truthy (fun _ => True) s s') (hcopied : Copied s t i f) :
    Copied s' t i f ∧ ∀ r ∈ t.labels, s'.get (f r) = s.get (f r) := by
  have hmemo : ∀ r ∈ t.labels, (s'.get r).boundCopies i = some (f r) := fun r hr =>
    hg.kept r (ht.lt hr) i (f r) (hcopied.memo r hr)
  have hsame : ∀ r ∈ t.labels, s'.get (f r) = s.get (f r) := by
    intro r hr
    have hcopy := hs.copy r i (f r) (hcopied.memo r hr)
    exact get_bound hs hs' hg hcopy.lt hcopy.boundInstance
  refine ⟨⟨hcopied.holds.mono hg.next hg.plain, hmemo, fun r hr => ?_⟩, hsame⟩
  rw [hsame r hr, hcopied.handler r hr, hg.plain r (ht.lt hr),
    Bindable.view_eq (hg.plain r (ht.lt hr)) Bindable.subcommands fun _ => rfl]

variable [DecidableEq I]

/-- **`__get__`** makes the tree of the instance, or finds it. -/
theorem exists_copied (h₀ : Decorated s₀) (h : Since truthy s₀ s) (ht : Holds s₀ t)
    (hi : truthy i = true) {limit : Nat} (hlimit : t.height ≤ limit) :
    ∃ s' f, (getBound truthy (some i) limit t.label).exec s = (.ok (f t.label), s') ∧
      Since truthy s₀ s' ∧ Grows truthy (fun _ => True) s s' ∧ Copied s' t i f := by
  have hrun := outcome_getBound hi limit t s h.sound (h.holds ht) (Since.unbound h₀ h ht)
  rcases hget : (getBound truthy (some i) limit t.label).exec s with ⟨result, s'⟩
  rw [hget] at hrun
  obtain ⟨c, rfl⟩ := hrun.returns hlimit
  have hgrows : Grows truthy (fun _ => True) s s' := hrun.grows.mono fun _ _ => trivial
  have hsince : Since truthy s₀ s' := ⟨hrun.sound, h.grows.trans hgrows⟩
  have hcopied := copied_of_root hrun.sound (hsince.holds ht) (hrun.result c rfl)
  refine ⟨s', copyOf s' i, ?_, hsince, hgrows, hcopied⟩
  rw [copyOf, hrun.result c rfl]
  rfl

/-- **The law of `__get__`.**  On the handlers of a class, whatever has been bound before, a tree
    whose names and match functions do not depend on the instance becomes the tree of `i`.
    However the run goes on, that tree stays as it is, each of its handlers is found again, and
    the tree of another instance has none of them. -/
theorem bound_tree (h₀ : Decorated s₀) (hreach : Reach (Get.exec truthy) Allocated s₀ s)
    (ht : Holds s₀ t) (hind : Independent s₀ t) (hi : truthy i = true) {limit : Nat}
    (hlimit : t.height ≤ limit) :
    ∃ s' f, (getBound truthy (some i) limit t.label).exec s = (.ok (f t.label), s') ∧
      ∀ s'', Reach (Get.exec truthy) Allocated s' s'' →
        BoundTo truthy s₀ s'' t i f ∧
        (∀ r ∈ t.labels, s''.get (f r) = s'.get (f r) ∧
          ∀ n, (getBound truthy (some i) (n + 1) r).exec s'' = (.ok (f r), s'')) ∧
        ∀ j limit', truthy j = true → j ≠ i → t.height ≤ limit' →
          ∃ u g, (getBound truthy (some j) limit' t.label).exec s'' = (.ok (g t.label), u) ∧
            BoundTo truthy s₀ u t j g ∧ BoundTo truthy s₀ u t i f ∧
            ∀ r ∈ t.labels, u.get (f r) = s'.get (f r) ∧ ∀ q ∈ t.labels, f r ≠ g q := by
  -- the copies are there from the first call on, and each later state keeps them
  obtain ⟨hs, -⟩ := grows_reach h₀ h₀.since hreach
  obtain ⟨s', f, hget, hsince, -, hcopied⟩ := exists_copied h₀ hs ht hi hlimit
  refine ⟨s', f, hget, fun s'' hreach' => ?_⟩
  obtain ⟨hsince', hgrows⟩ := grows_reach h₀ hsince hreach'
  have hkept := hcopied.mono hsince.sound hsince'.sound (hsince.holds ht) hgrows
  refine ⟨.of_copied h₀ hsince' ht hind hi hkept.1, fun r hr => ⟨hkept.2 r hr, fun n => ?_⟩, ?_⟩
  · exact exec_getBound_again hi (Since.unbound h₀ hsince' ht r hr) (hkept.1.memo r hr) n
  · -- the tree of the other instance comes after, and may be there already
    intro j limit' hj hij hlimit'
    obtain ⟨u, g, hget', hu, hgrows', hcopied'⟩ := exists_copied h₀ hsince' ht hj hlimit'
    have hkept' := hkept.1.mono hsince'.sound hu.sound (hsince'.holds ht) hgrows'
    refine ⟨u, g, hget', .of_copied h₀ hu ht hind hj hcopied',
      .of_copied h₀ hu ht hind hi hkept'.1, fun r hr => ⟨?_, fun q hq => ?_⟩⟩
    · rw [hkept'.2 r hr, hkept.2 r hr]
    · exact hkept'.1.ne hu.sound hcopied' hij hr hq

end Law

namespace BindingTest

/-- A function with `@new`, and one that has `CommandHandler(…)` only. -/
def bare : Handlers Bool Text Unit :=
  Decorator.exec id (.handler "out_loud".toList)
    (Decorator.exec id (.new { name := .text "echo".toList } 0)
      (Decorator.exec id (.handler "echo".toList) (noHandlers [])))

/-- The second is a subcommand of the first. -/
def echo : Handlers Bool Text Unit :=
  Decorator.exec id (.subcommand 0 { aliases := .names ["loud".toList] } 1) bare

def echoTree : RoseTree Ref := .node 0 [.node 1 []]

/-- The handlers of the witness are decorated, -/
theorem echo_decorated : Decorated echo := by
  have hbare : Decorated bare := by
    refine decorated_exec (decorated_exec (decorated_exec (.noHandlers _) _ ?_) _ ?_) _ ?_
    · trivial
    · exact Nat.zero_lt_one
    · trivial
  refine decorated_exec hbare _ ⟨Nat.zero_lt_two, Nat.one_lt_two, rfl, ?_⟩
  -- the new handler is alone in its tree
  rintro ⟨r, ts⟩ ht rfl hmem
  cases ht with
  | node _ hsubs _ =>
    obtain rfl : ts = [] := List.map_eq_nil_iff.mp hsubs.symm
    cases (RoseTree.mem_labels_node.mp hmem).resolve_right nofun

/-- their tree is there, -/
theorem echo_holds : Holds echo echoTree := by
  refine .node Nat.zero_lt_two rfl fun t ht => ?_
  obtain rfl := List.mem_singleton.mp ht
  exact .node Nat.one_lt_two rfl nofun

/-- nobody else uses it, -/
theorem echo_independent : Independent echo echoTree := by
  have hcases : ∀ {r}, r ∈ echoTree.labels → r = 0 ∨ r = 1 := by
    intro r hr
    rcases RoseTree.mem_labels_node.mp hr with rfl | ⟨t, ht, hmem⟩
    · exact .inl rfl
    · obtain rfl := List.mem_singleton.mp ht
      exact .inr ((RoseTree.mem_labels_node.mp hmem).resolve_right nofun)
  refine ⟨fun r hr => ?_, fun r hr inst => ?_, fun r hr p hp => ?_, fun q hq => ?_⟩
  · rcases hcases hr with rfl | rfl <;> nofun
  · rcases hcases hr with rfl | rfl <;> rfl
  · rcases hcases hr with rfl | rfl <;> cases hp
  · cases hq

/-- and it is of height two. -/
theorem echo_height : echoTree.height = 2 := by
  simp [echoTree, RoseTree.height]

/-- Nothing has been bound yet. -/
theorem bound_tree_echo : ∃ s' f,
    (getBound (fun _ => true) (some true) 2 0).exec echo = (.ok (f 0), s') ∧
      BoundTo (fun _ => true) echo s' echoTree true f := by
  obtain ⟨s', f, hget, hlaw⟩ := bound_tree (I := Bool) echo_decorated
    (.start : Reach (Get.exec fun _ => true) Allocated echo echo) echo_holds echo_independent
    (i := true) rfl (Nat.le_of_eq echo_height)
  exact ⟨s', f, hget, (hlaw s' .start).1⟩

end BindingTest

end Maubot.Command
