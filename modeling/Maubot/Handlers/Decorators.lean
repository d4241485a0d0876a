import Maubot.Handlers.Binding

namespace Maubot.Command

/-!
# Commands — the decorators and their objects

The body of a plugin class makes handlers one decorator after the other.  No handler is bound
before the class is there.

* `Decorator.exec` — the decorators `argument`, `new` and `subcommand`, on the objects;
* `Decorator.Fits` — what keeps the handlers trees;
* `decorated_reach` — what a class body leaves, whatever it is made of.
-/

variable {I F V : Type}

/-- The name that a decorator is given: none, a text, or a function. -/
inductive NameOption (I : Type)
  | unset
  | text (t : Text)
  | callable (p : Option I → Text)

/-- The aliases that a decorator is given: none, a list, or a function. -/
inductive AliasOption (I : Type)
  | unset
  | names (list : List Text)
  | callable (p : Option I → Text → Bool)

/-- The arguments of `new` -/
structure NewOptions (I : Type) where
  name              : NameOption I := .unset
  help              : Option Text := none
  aliases           : AliasOption I := .unset
  eventType         : String := "m.room.message"
  msgtypes          : List MessageType := []
  requireSubcommand : Bool := true
  argFallthrough    : Bool := true
  mustConsumeArgs   : Bool := true

/-- The arguments of `subcommand` -/
structure SubcommandOptions (I : Type) where
  name               : NameOption I := .unset
  help               : Option Text := none
  aliases            : AliasOption I := .unset
  requiredSubcommand : Bool := true
  argFallthrough     : Bool := true

/-- What `subcommand` gives to `new` -/
def SubcommandOptions.toNew (o : SubcommandOptions I) : NewOptions I where
  name              := o.name
  help              := o.help
  aliases           := o.aliases
  requireSubcommand := o.requiredSubcommand
  argFallthrough    := o.argFallthrough

/-- `func.__name__.replace("_", "-")` -/
def nameOf (funcName : Text) : Text := funcName.map fun c => if c = '_' then '-' else c

/-- `__mb_get_name__`; `funcName` is the `__name__` of the function. -/
def NameOption.getName (funcName : Text) : NameOption I → Option I → Text
  | .callable p => p
  | .text t     => fun _ => if t.isEmpty then nameOf funcName else t
  | .unset      => fun _ => nameOf funcName

/-- `__mb_is_command_match__` -/
def AliasOption.isCommandMatch (func : Ref) : AliasOption I → MatchFunction I
  | .callable p => .accepts p
  | .names list => .name func list
  | .unset      => .name func []

/-- `new(…)(func)` -/
def NewOptions.apply (funcName : F → Text) (o : NewOptions I) (func : Ref) (h : Bindable I F V) :
    Bindable I F V :=
  { h with
    help              := o.help
    getName           := o.name.getName (funcName h.func)
    isCommandMatch    := o.aliases.isCommandMatch func
    -- decorators are executed last to first
    arguments         := h.arguments.reverse
    requireSubcommand := o.requireSubcommand
    argFallthrough    := o.argFallthrough
    mustConsumeArgs   := o.mustConsumeArgs
    eventTypes        := [o.eventType]
    msgtypes          := if o.msgtypes.isEmpty then h.msgtypes else o.msgtypes }

/-- One decorator, on a function that is a handler already. -/
inductive Decorator (I F V : Type)
  /-- `CommandHandler(func)`, which the first decorator of a function begins with -/
  | handler (func : F)
  | argument (arg : Argument V) (func : Ref)
  | new (o : NewOptions I) (func : Ref)
  | subcommand (parent : Ref) (o : SubcommandOptions I) (func : Ref)

def Bindable.addArgument (arg : Argument V) (h : Bindable I F V) : Bindable I F V :=
  { h with arguments := h.arguments ++ [arg] }

/-- `func.__mb_parent__ = self` -/
def Bindable.setParent (parent : Ref) (h : Bindable I F V) : Bindable I F V :=
  { h with parent := some parent, eventHandler := false }

def Bindable.addSubcommand (func : Ref) (h : Bindable I F V) : Bindable I F V :=
  { h with subcommands := h.subcommands ++ [func] }

def Decorator.exec (funcName : F → Text) : Decorator I F V → Handlers I F V → Handlers I F V
  | .handler func, s             => s.alloc { func }
  | .argument arg func, s        => s.modify func (Bindable.addArgument arg)
  | .new o func, s               => s.modify func (o.apply funcName func)
  | .subcommand parent o func, s =>
    ((s.modify func (o.toNew.apply funcName func)).modify func (Bindable.setParent parent)).modify
      parent (Bindable.addSubcommand func)

/-- The handlers are there.  One becomes a subcommand of one handler only, and of none that is in
    its own tree. -/
def Decorator.Fits (s : Handlers I F V) : Decorator I F V → Prop
  | .handler _                => True
  | .argument _ func          => func < s.next
  | .new _ func               => func < s.next
  | .subcommand parent _ func => parent < s.next ∧ func < s.next ∧ (s.get func).parent = none ∧
    ∀ t, Holds s t → t.label = func → parent ∉ t.labels

/-- A class body begins without handlers. -/
def noHandlers (func : F) : Handlers I F V where
  get _ := { func }
  next  := 0

namespace Decorated

variable {s : Handlers I F V} {funcName : F → Text}

/-- A class without handlers is decorated. -/
theorem noHandlers (func : F) : Decorated (Command.noHandlers func : Handlers I F V) where
  tree _ hr         := absurd hr (Nat.not_lt_zero _)
  parent _ hr       := absurd hr (Nat.not_lt_zero _)
  parent_lt _ hr    := absurd hr (Nat.not_lt_zero _)
  own _ hr          := absurd hr (Nat.not_lt_zero _)
  boundInstance _   := rfl
  boundCopies _ _   := rfl

/-- A new handler has no parent and no subcommands. -/
theorem alloc (h : Decorated s) (func : F) : Decorated (s.alloc { func }) := by
  have hcases : ∀ {r}, r < (s.alloc { func }).next → r < s.next ∨ r = s.next := fun hr =>
    Nat.lt_or_eq_of_le (Nat.le_of_lt_succ hr)
  -- an old handler keeps its tree; the new one is a tree of its own
  have hold : ∀ {r}, r < s.next → (s.alloc { func }).get r = s.get r := fun hr =>
    Store.get_alloc_of_lt _ _ hr
  have hnew : (s.alloc { func }).get s.next = { func } := Store.get_alloc_self _ _
  refine ⟨fun r hr => ?_, fun r hr sub hsub => ?_, fun r hr q hq => ?_,
    fun r hr func' aliases hm => ?_, fun r => ?_, fun r i => ?_⟩
  · rcases hcases hr with hlt | rfl
    · obtain ⟨t, hlabel, ht⟩ := h.tree r hlt
      refine ⟨t, hlabel, ht.congr (Nat.le_succ _) fun q hq => ?_⟩
      rw [hold (ht.lt hq)]
    · refine ⟨.node s.next [], rfl, .node (Nat.lt_succ_self _) ?_ nofun⟩
      rw [hnew]
      rfl
  · rcases hcases hr with hlt | rfl
    · rw [hold hlt] at hsub
      obtain ⟨t, rfl, ht⟩ := h.tree r hlt
      rw [hold (ht.lt (ht.mem_subcommands t.label_mem_labels hsub))]
      exact h.parent t.label hlt sub hsub
    · rw [hnew] at hsub
      cases hsub
  · rcases hcases hr with hlt | rfl
    · rw [hold hlt] at hq
      exact Nat.lt_succ_of_lt (h.parent_lt r hlt q hq)
    · rw [hnew] at hq
      cases hq
  · rcases hcases hr with hlt | rfl
    · rw [hold hlt] at hm
      exact h.own r hlt func' aliases hm
    · rw [hnew] at hm
      cases hm
  · rw [Store.get_alloc]
    split
    · rfl
    · exact h.boundInstance r
  · rw [Store.get_alloc]
    split
    · rfl
    · exact h.boundCopies r i

/-- A decorator of one handler leaves its place in the trees alone, and does not bind it. -/
theorem modify (h : Decorated s) {r : Ref} {f : Bindable I F V → Bindable I F V}
    (hplace : ∀ h, (f h).subcommands = h.subcommands ∧ (f h).parent = h.parent ∧
      (f h).boundInstance = h.boundInstance ∧ (f h).boundCopies = h.boundCopies)
    (hown : ∀ func aliases, (f (s.get r)).isCommandMatch = .name func aliases → r < s.next →
      func = r) : Decorated (s.modify r f) := by
  have hsubs := Store.view_modify s r f Bindable.subcommands fun h => (hplace h).1
  have hparent := Store.view_modify s r f Bindable.parent fun h => (hplace h).2.1
  refine ⟨fun q hq => ?_, fun q hq sub hsub => ?_, fun q hq p hp => ?_,
    fun q hq func aliases hm => ?_, fun q => ?_, fun q i => ?_⟩
  · obtain ⟨t, hlabel, ht⟩ := h.tree q hq
    exact ⟨t, hlabel, ht.congr (Nat.le_refl _) fun p _ => hsubs p⟩
  · rw [hsubs] at hsub
    rw [hparent]
    exact h.parent q hq sub hsub
  · rw [hparent] at hp
    exact h.parent_lt q hq p hp
  · rw [Store.get_modify] at hm
    split at hm
    · next heq =>
      subst heq
      exact hown func aliases hm hq
    · exact h.own q hq func aliases hm
  · rw [Store.view_modify s r f Bindable.boundInstance fun h => (hplace h).2.2.1]
    exact h.boundInstance q
  · rw [Store.view_modify s r f Bindable.boundCopies fun h => (hplace h).2.2.2]
    exact h.boundCopies q i

/-- The match function of `new` asks the handler that it is put on. -/
theorem new (h : Decorated s) (o : NewOptions I) (r : Ref) :
    Decorated (s.modify r (o.apply funcName r)) := by
  refine h.modify (fun _ => ⟨rfl, rfl, rfl, rfl⟩) fun func aliases hm _ => ?_
  have hm' : o.aliases.isCommandMatch r = .name func aliases := hm
  cases ho : o.aliases with
  | callable p =>
    rw [ho] at hm'
    cases hm'
  | names list =>
    rw [ho] at hm'
    cases hm'
    rfl
  | unset =>
    rw [ho] at hm'
    cases hm'
    rfl

end Decorated

/-! ### One more subcommand -/

section Attaching

variable {s : Handlers I F V} {parent func : Ref} {t u : RoseTree Ref}

/-- The last lines of `subcommand` -/
def attach (s : Handlers I F V) (parent func : Ref) : Handlers I F V :=
  (s.modify func (Bindable.setParent parent)).modify parent (Bindable.addSubcommand func)

/-- A handler that is attached is a subcommand of its parent, -/
theorem subcommands_attach (r : Ref) : ((attach s parent func).get r).subcommands =
    if r = parent then (s.get r).subcommands ++ [func] else (s.get r).subcommands := by
  have hset := Store.view_modify s func (Bindable.setParent parent) Bindable.subcommands
    (fun _ => rfl) r
  unfold attach
  rw [Store.get_modify]
  split
  · show ((s.modify func _).get r).subcommands ++ [func] = _
    rw [hset]
  · exact hset

/-- which is its parent. -/
theorem parent_attach (r : Ref) : ((attach s parent func).get r).parent =
    if r = func then some parent else (s.get r).parent := by
  unfold attach
  rw [Store.view_modify _ parent (Bindable.addSubcommand func) Bindable.parent (fun _ => rfl),
    Store.get_modify]
  split
  · rfl
  · rfl

/-- Whatever is neither the parent nor a list of subcommands -/
theorem view_attach {α : Type} (view : Bindable I F V → α)
    (hparent : ∀ h, view (h.setParent parent) = view h)
    (hsubs : ∀ h, view (h.addSubcommand func) = view h) (r : Ref) :
    view ((attach s parent func).get r) = view (s.get r) := by
  unfold attach
  rw [Store.view_modify _ parent _ view hsubs, Store.view_modify _ func _ view hparent]

/-- The tree that is put below another handler stays as it is. -/
theorem holds_attach_of_not_mem (hu : Holds s u) (hparent : parent ∉ u.labels) :
    Holds (attach s parent func) u := by
  refine hu.congr (Nat.le_refl _) fun r hr => ?_
  rw [subcommands_attach, if_neg]
  rintro rfl
  exact hparent hr

/-- Every tree is one again, with the new one in the place of the parent's last subcommand. -/
theorem exists_holds_attach (ht : Holds s t) (hu : Holds s u) (hparent : parent ∉ u.labels) :
    ∃ t', t'.label = t.label ∧ Holds (attach s parent u.label) t' := by
  have hu' : Holds (attach s parent u.label) u := holds_attach_of_not_mem hu hparent
  induction ht with
  | @node r ts hr hsubs _ ih =>
    have : Nonempty (RoseTree Ref) := ⟨u⟩
    -- the children, each with the new tree in its place
    choose! f hf using ih
    have hlabels : (ts.map f).map RoseTree.label = ts.map RoseTree.label := by
      rw [List.map_map]
      exact List.map_congr_left fun t ht => (hf t ht).1
    have hts : ∀ t' ∈ ts.map f, Holds (attach s parent u.label) t' := by
      intro t' ht'
      obtain ⟨t, ht, rfl⟩ := List.mem_map.mp ht'
      exact (hf t ht).2
    by_cases hrp : r = parent
    · refine ⟨.node r (ts.map f ++ [u]), rfl, .node hr ?_ fun t' ht' => ?_⟩
      · rw [subcommands_attach, if_pos hrp, hsubs, List.map_append, hlabels]
        rfl
      · rcases List.mem_append.mp ht' with hmem | hmem
        · exact hts t' hmem
        · rwa [List.mem_singleton.mp hmem]
    · refine ⟨.node r (ts.map f), rfl, .node hr ?_ hts⟩
      rw [subcommands_attach, if_neg hrp, hsubs, hlabels]

/-- **One more subcommand** leaves trees, if it had no parent and its parent is not below it. -/
theorem Decorated.attach (h : Decorated s) (hparent : parent < s.next) (hfunc : func < s.next)
    (hfree : (s.get func).parent = none)
    (hbelow : ∀ t, Holds s t → t.label = func → parent ∉ t.labels) :
    Decorated (attach s parent func) := by
  obtain ⟨u, rfl, hu⟩ := h.tree func hfunc
  refine ⟨fun r hr => ?_, fun r hr sub hsub => ?_, fun r hr q hq => ?_,
    fun r hr func aliases hm => ?_, fun r => ?_, fun r i => ?_⟩
  · obtain ⟨t, rfl, ht⟩ := h.tree r hr
    exact exists_holds_attach ht hu (hbelow u hu rfl)
  · rw [subcommands_attach] at hsub
    rw [parent_attach]
    -- the new subcommand stands in no other list, since it had no parent
    have hold : sub ∈ (s.get r).subcommands → sub ≠ u.label := by
      rintro hmem rfl
      rw [h.parent r hr u.label hmem] at hfree
      cases hfree
    split at hsub
    · next hrp =>
      rcases List.mem_append.mp hsub with hmem | hmem
      · rw [if_neg (hold hmem)]
        exact h.parent r hr sub hmem
      · rw [if_pos (List.mem_singleton.mp hmem), hrp]
    · rw [if_neg (hold hsub)]
      exact h.parent r hr sub hsub
  · rw [parent_attach] at hq
    split at hq
    · cases hq
      exact hparent
    · exact h.parent_lt r hr q hq
  · rw [view_attach Bindable.isCommandMatch (fun _ => rfl) fun _ => rfl] at hm
    exact h.own r hr func aliases hm
  · rw [view_attach Bindable.boundInstance (fun _ => rfl) fun _ => rfl]
    exact h.boundInstance r
  · rw [view_attach Bindable.boundCopies (fun _ => rfl) fun _ => rfl]
    exact h.boundCopies r i

end Attaching

/-! ### A class body -/

section Body

variable {funcName : F → Text} {s : Handlers I F V}

/-- Other names and matches do not make other trees. -/
theorem holds_new {o : NewOptions I} {r : Ref} {t : RoseTree Ref}
    (ht : Holds (s.modify r (o.apply funcName r)) t) : Holds s t :=
  ht.congr (Nat.le_refl _) fun q _ =>
    (Store.view_modify s r (o.apply funcName r) Bindable.subcommands (fun _ => rfl) q).symm

/-- So a decorator that fits leaves a class that is decorated. -/
theorem decorated_exec (h : Decorated s) (d : Decorator I F V) (hd : d.Fits s) :
    Decorated (d.exec funcName s) := by
  cases d with
  | handler func => exact h.alloc func
  | argument arg func =>
    exact h.modify (fun _ => ⟨rfl, rfl, rfl, rfl⟩) fun func' aliases hm hlt =>
      h.own func hlt func' aliases hm
  | new o func => exact h.new o func
  | subcommand parent o func =>
    obtain ⟨hparent, hfunc, hfree, hbelow⟩ := hd
    -- the last lines come after `new`
    refine (h.new o.toNew func).attach hparent hfunc ?_ fun t ht => hbelow t (holds_new ht)
    rw [Store.view_modify s func (o.toNew.apply funcName func) Bindable.parent fun _ => rfl]
    exact hfree

/-- **A class body** leaves handlers in trees that have not been bound. -/
theorem decorated_reach {func : F}
    (h : Reach (Decorator.exec funcName) (fun s d => Decorator.Fits s d) (noHandlers func) s) :
    Decorated s :=
  h.invariant (Decorated.noHandlers func) fun _ d hs hd => decorated_exec hs d hd

end Body

end Maubot.Command
