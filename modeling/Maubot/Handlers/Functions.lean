import Maubot.Handlers.Spelling

namespace Maubot.Command

/-!
# Commands — other functions in the same tree

The functions of a tree of handlers are called at the end of a dispatch, and looked at nowhere
else: with other functions in the same places, a message takes the same path.

* `CommandHandler.mapFunc` — the tree with other functions;
* `turn_mapFunc` — each handler does the same;
* `dispatchedFrom_mapFunc_iff`, `handle_mapFunc` — so does the whole tree.
-/

open Words

variable {S : Strings} {F G V : Type} {bot : Text} {evt : Message}

def Node.mapFunc (g : F → G) (n : Node F V) : Node G V where
  func              := g n.func
  name              := n.name
  help              := n.help
  aliases           := n.aliases
  arguments         := n.arguments
  requireSubcommand := n.requireSubcommand
  argFallthrough    := n.argFallthrough
  mustConsumeArgs   := n.mustConsumeArgs
  msgtypes          := n.msgtypes

namespace Node

variable (g : F → G) (n : Node F V)

/-- A handler with other functions has the same name, -/
@[simp] theorem name_mapFunc : (n.mapFunc g).name = n.name := rfl
/-- help, -/
@[simp] theorem help_mapFunc : (n.mapFunc g).help = n.help := rfl
/-- arguments, -/
@[simp] theorem arguments_mapFunc : (n.mapFunc g).arguments = n.arguments := rfl

/-- need of a subcommand -/
@[simp] theorem requireSubcommand_mapFunc :
    (n.mapFunc g).requireSubcommand = n.requireSubcommand := rfl

/-- and fallthrough. -/
@[simp] theorem argFallthrough_mapFunc : (n.mapFunc g).argFallthrough = n.argFallthrough := rfl

end Node

def Effect.mapFunc (g : F → G) : Effect F V → Effect G V
  | .reply text     => .reply text
  | .call func args => .call (g func) args

namespace CommandHandler

def mapFunc (g : F → G) : CommandHandler F V → CommandHandler G V
  | .mk node subs => .mk (node.mapFunc g) (subs.map (mapFunc g))

def Turn.mapFunc (g : F → G) : Turn F V → Turn G V
  | .down sub callArgs rest => .down (sub.mapFunc g) callArgs rest
  | .done effect            => .done (effect.mapFunc g)

variable (g : F → G) (h : CommandHandler F V) {parent : Option Text} {existingArgs : CallArgs V}
  {remaining : Text}

/-- The node of the tree is mapped, -/
@[simp] theorem node_mapFunc : (h.mapFunc g).node = h.node.mapFunc g := by
  cases h
  rw [mapFunc]
  rfl

/-- and so are the subcommands. -/
@[simp] theorem subcommands_mapFunc :
    (h.mapFunc g).subcommands = h.subcommands.map (mapFunc g) := by
  cases h
  rw [mapFunc]
  rfl

/-! ### What is said and matched -/

/-- It is called by the same words. -/
@[simp] theorem isCommandMatch_mapFunc (val : Text) :
    (h.mapFunc g).isCommandMatch val = h.isCommandMatch val := by
  unfold isCommandMatch
  rw [node_mapFunc]
  rfl

/-- It accepts the same messages. -/
theorem accepts_mapFunc : (h.mapFunc g).node.accepts bot evt = h.node.accepts bot evt := by
  rw [node_mapFunc]
  rfl

/-- Its usage text has the same arguments, -/
@[simp] theorem usageArgs_mapFunc : (h.mapFunc g).usageArgs = h.usageArgs := by
  unfold usageArgs
  simp only [node_mapFunc, subcommands_mapFunc, Node.arguments_mapFunc,
    Node.argFallthrough_mapFunc, ne_eq, List.map_eq_nil_iff]

/-- the same help, -/
@[simp] theorem helpText_mapFunc : (h.mapFunc g).helpText = h.helpText := by
  unfold helpText
  rw [node_mapFunc, Node.help_mapFunc]

/-- the same line, -/
@[simp] theorem usageInline_mapFunc : (h.mapFunc g).usageInline = h.usageInline := by
  unfold usageInline
  simp only [usageArgs_mapFunc, helpText_mapFunc, node_mapFunc, Node.name_mapFunc,
    Node.argFallthrough_mapFunc]

/-- and the same list of subcommands. -/
@[simp] theorem subcommandsList_mapFunc : (h.mapFunc g).subcommandsList = h.subcommandsList := by
  unfold subcommandsList
  simp only [subcommands_mapFunc, List.map_map, Function.comp_def, node_mapFunc,
    Node.name_mapFunc]

/-- So the text without them is the same, -/
@[simp] theorem usageWithoutSubcommands_mapFunc :
    (h.mapFunc g).usageWithoutSubcommands parent = h.usageWithoutSubcommands parent := by
  unfold usageWithoutSubcommands mbPrefix
  simp only [usageArgs_mapFunc, node_mapFunc, Node.name_mapFunc, Node.arguments_mapFunc,
    Node.argFallthrough_mapFunc]

/-- the text with them, -/
theorem usage_mapFunc : (h.mapFunc g).usage parent = h.usage parent := by
  unfold usage
  simp only [usageWithoutSubcommands_mapFunc, subcommandsList_mapFunc, subcommands_mapFunc,
    List.isEmpty_map]

/-- and the whole help. -/
theorem fullHelp_mapFunc : (h.mapFunc g).fullHelp parent = h.fullHelp parent := by
  unfold fullHelp mbPrefix
  simp only [usageWithoutSubcommands_mapFunc, usageArgs_mapFunc, helpText_mapFunc, node_mapFunc,
    Node.name_mapFunc, Node.requireSubcommand_mapFunc, subcommands_mapFunc, List.map_map,
    Function.comp_def, usageInline_mapFunc]

/-! ### One handler -/

/-- The subcommand that is found is the mapped one. -/
theorem findSubcommand_mapFunc :
    (h.mapFunc g).findSubcommand S remaining =
      (h.findSubcommand S remaining).map fun found => (found.1.mapFunc g, found.2) := by
  unfold findSubcommand
  simp only [subcommands_mapFunc, List.find?_map, Function.comp_def, isCommandMatch_mapFunc,
    Option.map_map]

/-- What a handler finishes with is mapped. -/
theorem finish_mapFunc (callArgs : CallArgs V) :
    (h.mapFunc g).finish S parent callArgs remaining =
      (h.finish S parent callArgs remaining).mapFunc g := by
  unfold finish
  rw [fullHelp_mapFunc, node_mapFunc]
  show (if h.node.mustConsumeArgs = true ∧ strip S.space remaining ≠ [] then _ else _) = _
  by_cases hc : h.node.mustConsumeArgs = true ∧ strip S.space remaining ≠ []
  · rw [if_pos hc, if_pos hc]
    rfl
  · rw [if_neg hc, if_neg hc]
    rfl

/-- **One handler** does the same. -/
theorem turn_mapFunc : (h.mapFunc g).turn S parent existingArgs remaining =
    (h.turn S parent existingArgs remaining).mapFunc g := by
  unfold turn
  simp only [findSubcommand_mapFunc, usage_mapFunc, fullHelp_mapFunc, finish_mapFunc, node_mapFunc,
    Node.argFallthrough_mapFunc, Node.arguments_mapFunc, Node.requireSubcommand_mapFunc,
    subcommands_mapFunc, List.isEmpty_map]
  cases hf : h.node.argFallthrough with
  | false =>
    simp only [Bool.false_eq_true, if_false, false_and]
    cases h.findSubcommand S remaining with
    | some found => rfl
    | none =>
      cases parseArgs S (h.usage parent) h.node.arguments existingArgs remaining <;> rfl
  | true =>
    simp only [if_true, true_and]
    cases parseArgs S (h.usage parent) h.node.arguments existingArgs remaining with
    | error text => rfl
    | ok r =>
      cases hs : h.subcommands.isEmpty with
      | true => rfl
      | false =>
        cases hfound : h.findSubcommand S r.2 with
        | some found =>
          simp only [hfound, Option.map_some]
          rfl
        | none =>
          simp only [hfound, Option.map_none]
          cases h.node.requireSubcommand <;> rfl

/-! ### The path of a message -/

variable {h} {path : List (CommandHandler F V)} {effect : Option (Effect F V)}

/-- Where the way goes down, it goes down to the mapped subcommand. -/
theorem turn_mapFunc_down {sub : CommandHandler F V} {callArgs : CallArgs V} {rest : Text}
    (hturn : h.turn S parent existingArgs remaining = .down sub callArgs rest) :
    (h.mapFunc g).turn S parent existingArgs remaining = .down (sub.mapFunc g) callArgs rest := by
  rw [turn_mapFunc, hturn]
  rfl

/-- So a message lands at the mapped end of the same way. -/
theorem lands_mapFunc (hl : Lands S bot evt h parent existingArgs remaining path effect) :
    Lands S bot evt (h.mapFunc g) parent existingArgs remaining (path.map (mapFunc g))
      (effect.map (Effect.mapFunc g)) := by
  induction hl with
  | done hturn =>
    apply Lands.done
    rw [turn_mapFunc, hturn]
    rfl
  | dropped hturn haccepts =>
    exact .dropped (turn_mapFunc_down g hturn) ((accepts_mapFunc g _).trans haccepts)
  | down hturn haccepts _ ih =>
    refine .down (turn_mapFunc_down g hturn) ((accepts_mapFunc g _).trans haccepts) ?_
    rw [node_mapFunc]
    exact ih

/-- And a body is accepted by both trees or by neither. -/
theorem accepts_mapFunc_iff {body : Text} :
    Accepts S bot evt (h.mapFunc g) body ↔ Accepts S bot evt h body := by
  constructor
  · rintro ⟨haccepts, htext, hcommand⟩
    exact ⟨(accepts_mapFunc g h).symm.trans haccepts, htext,
      (isCommandMatch_mapFunc g h _).symm.trans hcommand⟩
  · rintro ⟨haccepts, htext, hcommand⟩
    exact ⟨(accepts_mapFunc g h).trans haccepts, htext,
      (isCommandMatch_mapFunc g h _).trans hcommand⟩

/-- The message is dispatched by a handler that may have a parent. -/
def DispatchedFrom (S : Strings) (bot : Text) (evt : Message) (h : CommandHandler F V)
    (parent : Option Text) (path : List (CommandHandler F V)) (effect : Option (Effect F V)) :
    Prop :=
  ∃ body, Accepts S bot evt h body ∧
    Lands S bot evt h parent [] (splitInTwo body).2 path effect

/-- A handler without a parent is dispatched from the top. -/
theorem dispatchedFrom_none :
    DispatchedFrom S bot evt h none path effect ↔ DispatchedTo S bot evt h path effect :=
  Iff.rfl

/-- **The same dispatch.**  A message takes the same path down the tree with other functions, and
    the same is done at its end, with the other function. -/
theorem dispatchedFrom_mapFunc_iff {path' : List (CommandHandler G V)}
    {effect' : Option (Effect G V)} :
    DispatchedFrom S bot evt (h.mapFunc g) parent path' effect' ↔ ∃ path effect,
      DispatchedFrom S bot evt h parent path effect ∧ path' = path.map (mapFunc g) ∧
        effect' = effect.map (Effect.mapFunc g) := by
  constructor
  · rintro ⟨body, haccepts, hl⟩
    obtain ⟨path, effect, hl'⟩ := exists_lands h parent [] (splitInTwo body).2
    obtain ⟨rfl, rfl⟩ := lands_unique hl (lands_mapFunc g hl')
    exact ⟨path, effect, ⟨body, (accepts_mapFunc_iff g).mp haccepts, hl'⟩, rfl, rfl⟩
  · rintro ⟨path, effect, ⟨body, haccepts, hl⟩, rfl, rfl⟩
    exact ⟨body, (accepts_mapFunc_iff g).mpr haccepts, lands_mapFunc g hl⟩

/-- **The same calls**, with the other functions. -/
theorem handle_mapFunc :
    (h.mapFunc g).handle S bot evt = (h.handle S bot evt).map (Effect.mapFunc g) := by
  by_cases hd : ∃ body, Accepts S bot evt h body
  · obtain ⟨body, haccepts⟩ := hd
    obtain ⟨path, effect, hl⟩ := exists_lands h none [] (splitInTwo body).2
    have hleft : DispatchedTo S bot evt (h.mapFunc g) _ _ :=
      ⟨body, (accepts_mapFunc_iff g).mpr haccepts, lands_mapFunc g hl⟩
    have hright : DispatchedTo S bot evt h path effect := ⟨body, haccepts, hl⟩
    rw [handle_of_dispatchedTo hleft, handle_of_dispatchedTo hright]
    cases effect <;> rfl
  · -- neither is asked to
    have hnone : ∀ body, ¬ Accepts S bot evt (h.mapFunc g) body := fun body haccepts =>
      hd ⟨body, (accepts_mapFunc_iff g).mp haccepts⟩
    rw [handle_of_not_accepts hnone, handle_of_not_accepts fun body haccepts => hd ⟨body, haccepts⟩]
    rfl

end CommandHandler

end Maubot.Command
