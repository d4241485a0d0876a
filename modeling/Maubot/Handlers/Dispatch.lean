import Maubot.Handlers.Command

namespace Maubot.Command

/-!
# Commands — one effect for each message

`dispatch` walks down the tree: a handler hands the message to one of its subcommands, or does
the one thing that is seen of it.

* `turn` — what one handler does, and `dispatch_eq`;
* `took` — what that can be;
* `one_effect_iff` — when a message that the root accepts has one effect.
-/

open Words

variable {S : Strings} {F V : Type} {bot : Text} {evt : Message}

namespace CommandHandler

/-- Trees are well-founded. -/
theorem tree_induction {p : CommandHandler F V → Prop}
    (step : ∀ h, (∀ sub ∈ h.subcommands, p sub) → p h) (h : CommandHandler F V) : p h := by
  induction hn : sizeOf h using Nat.strongRecOn generalizing h with
  | ind n ih =>
    refine step h fun sub hsub => ih (sizeOf sub) ?_ sub rfl
    cases h with
    | mk node subcommands =>
      have hlt : sizeOf sub < sizeOf subcommands := List.sizeOf_lt_of_mem hsub
      rw [← hn]
      simp only [mk.sizeOf_spec]
      omega

/-- The node of a handler. -/
@[simp] theorem node_mk (node : Node F V) (subs : List (CommandHandler F V)) :
    (mk node subs).node = node := rfl

/-- Its subcommands. -/
@[simp] theorem subcommands_mk (node : Node F V) (subs : List (CommandHandler F V)) :
    (mk node subs).subcommands = subs := rfl

/-! ### One handler -/

/-- A handler hands the message down, with what its arguments were and what is left of the text,
    or does something. -/
inductive Turn (F V : Type)
  | down (sub : CommandHandler F V) (callArgs : CallArgs V) (remaining : Text)
  | done (effect : Effect F V)

/-- The subcommand that the next word calls, and the text behind it. -/
def findSubcommand (S : Strings) (h : CommandHandler F V) (remaining : Text) :
    Option (CommandHandler F V × Text) :=
  let command := splitInTwo (strip S.space remaining)
  (h.subcommands.find? fun sub => sub.isCommandMatch command.1).map fun sub => (sub, command.2)

/-- `__parse_args__` is called: no subcommand comes before the arguments. -/
def Parses (S : Strings) (h : CommandHandler F V) (remaining : Text) : Prop :=
  h.node.argFallthrough = true ∨ h.findSubcommand S remaining = none

def turn (S : Strings) (h : CommandHandler F V) (parent : Option Text) (existingArgs : CallArgs V)
    (remaining : Text) : Turn F V :=
  match if h.node.argFallthrough then none else h.findSubcommand S remaining with
  | some (sub, rest) => .down sub existingArgs rest
  | none             =>
    match parseArgs S (h.usage parent) h.node.arguments existingArgs remaining with
    | .error text          => .done (.reply text)
    | .ok (callArgs, rest) =>
      if h.node.argFallthrough ∧ ¬ h.subcommands.isEmpty then
        match h.findSubcommand S rest with
        | some (sub, rest) => .down sub callArgs rest
        | none             =>
          if h.node.requireSubcommand then .done (.reply (h.fullHelp parent))
          else .done (h.finish S parent callArgs rest)
      else .done (h.finish S parent callArgs rest)

/-- The first subcommand that is called is. -/
theorem callSubcommand_eq (subs : List (CommandHandler F V)) (parent : Text)
    (callArgs : CallArgs V) (command : Text × Text) :
    callSubcommand S bot evt subs parent callArgs command =
      (subs.find? fun sub => sub.isCommandMatch command.1).map fun sub =>
        if sub.node.accepts bot evt then sub.dispatch S bot evt (some parent) callArgs command.2
        else [] := by
  induction subs with
  | nil => rfl
  | cons sub subs ih =>
    rw [callSubcommand, List.find?_cons]
    by_cases hm : sub.isCommandMatch command.1 = true
    · rw [if_pos hm, hm]
      rfl
    · rw [if_neg hm, show sub.isCommandMatch command.1 = false by simpa using hm]
      exact ih

/-- It is the one that is found. -/
theorem callSubcommand_find (h : CommandHandler F V) (callArgs : CallArgs V) (remaining : Text) :
    callSubcommand S bot evt h.subcommands h.node.name callArgs
        (splitInTwo (strip S.space remaining)) =
      (h.findSubcommand S remaining).map fun found =>
        if found.1.node.accepts bot evt then
          found.1.dispatch S bot evt (some h.node.name) callArgs found.2
        else [] := by
  rw [callSubcommand_eq, findSubcommand, Option.map_map]
  rfl

/-- **Turn by turn.** -/
theorem dispatch_eq (h : CommandHandler F V) (parent : Option Text) (existingArgs : CallArgs V)
    (remaining : Text) :
    h.dispatch S bot evt parent existingArgs remaining =
      match h.turn S parent existingArgs remaining with
      | .down sub callArgs rest =>
        if sub.node.accepts bot evt then
          sub.dispatch S bot evt (some h.node.name) callArgs rest
        else []
      | .done effect            => [effect] := by
  obtain ⟨node, subs⟩ := h
  have hfind (callArgs : CallArgs V) (val : Text) : callSubcommand S bot evt subs node.name callArgs
      (splitInTwo (strip S.space val)) = _ := callSubcommand_find (.mk node subs) callArgs val
  conv_lhs => unfold dispatch
  unfold turn
  simp only [hfind, node_mk, subcommands_mk]
  by_cases hf : node.argFallthrough = true
  · cases hp : parseArgs S ((mk node subs).usage parent) node.arguments existingArgs remaining with
    | error text => simp [hf]
    | ok r =>
      by_cases hs : subs = []
      · simp [hf, hs]
      · cases hfound : (mk node subs).findSubcommand S r.2 with
        | none => by_cases hr : node.requireSubcommand = true <;> simp [hf, hs, hr, hfound]
        | some found => simp [hf, hs, hfound]
  · cases hfound : (mk node subs).findSubcommand S remaining with
    | none =>
      cases hp : parseArgs S ((mk node subs).usage parent) node.arguments existingArgs
        remaining <;> simp [hf]
    | some found => simp [hf]

/-- What is found is a subcommand, -/
theorem findSubcommand_mem {h sub : CommandHandler F V} {val rest : Text}
    (hfound : h.findSubcommand S val = some (sub, rest)) : sub ∈ h.subcommands := by
  unfold findSubcommand at hfound
  obtain ⟨found, hfind, heq⟩ := Option.map_eq_some_iff.mp hfound
  obtain rfl : found = sub := congrArg Prod.fst heq
  exact List.mem_of_find?_eq_some hfind

/-- so there is one. -/
theorem not_isEmpty_of_findSubcommand {h sub : CommandHandler F V} {val rest : Text}
    (hfound : h.findSubcommand S val = some (sub, rest)) : ¬ h.subcommands.isEmpty = true := by
  intro hempty
  have hmem := findSubcommand_mem hfound
  rw [List.isEmpty_iff.mp hempty] at hmem
  cases hmem

/-- What one handler does, by the outcome of its arguments. -/
inductive Took (S : Strings) (h : CommandHandler F V) (parent : Option Text)
    (existingArgs : CallArgs V) (remaining : Text) : Turn F V → Prop
  /-- a subcommand before the arguments -/
  | before {sub : CommandHandler F V} {rest : Text} (hf : h.node.argFallthrough = false)
      (hfound : h.findSubcommand S remaining = some (sub, rest)) :
      Took S h parent existingArgs remaining (.down sub existingArgs rest)
  | refused (hp : h.Parses S remaining) {text : Text}
      (he : parseArgs S (h.usage parent) h.node.arguments existingArgs remaining = .error text) :
      Took S h parent existingArgs remaining (.done (.reply text))
  /-- a subcommand behind the arguments -/
  | behind (hp : h.Parses S remaining) {callArgs : CallArgs V} {val : Text}
      (hok : parseArgs S (h.usage parent) h.node.arguments existingArgs remaining =
        .ok (callArgs, val))
      (hf : h.node.argFallthrough = true) {sub : CommandHandler F V} {rest : Text}
      (hfound : h.findSubcommand S val = some (sub, rest)) :
      Took S h parent existingArgs remaining (.down sub callArgs rest)
  | missing (hp : h.Parses S remaining) {callArgs : CallArgs V} {val : Text}
      (hok : parseArgs S (h.usage parent) h.node.arguments existingArgs remaining =
        .ok (callArgs, val))
      (hs : h.subcommands.isEmpty = false) :
      Took S h parent existingArgs remaining (.done (.reply (h.fullHelp parent)))
  | finished (hp : h.Parses S remaining) {callArgs : CallArgs V} {val : Text}
      (hok : parseArgs S (h.usage parent) h.node.arguments existingArgs remaining =
        .ok (callArgs, val)) :
      Took S h parent existingArgs remaining (.done (h.finish S parent callArgs val))

/-- What a handler's turn is, in its cases. -/
theorem took (S : Strings) (h : CommandHandler F V) (parent : Option Text)
    (existingArgs : CallArgs V)
    (remaining : Text) :
    Took S h parent existingArgs remaining (h.turn S parent existingArgs remaining) := by
  unfold turn
  -- with fall-through the arguments come before the subcommand, else behind
  by_cases hf : h.node.argFallthrough = true
  · rw [if_pos hf]
    dsimp only
    rcases hparse : parseArgs S (h.usage parent) h.node.arguments existingArgs remaining with
      text | ⟨callArgs, val⟩
    · exact .refused (.inl hf) hparse
    · dsimp only
      split
      · next hsub =>
        rcases hfound : h.findSubcommand S val with _ | ⟨sub, rest⟩
        · dsimp only
          split
          · exact .missing (.inl hf) hparse (by simpa using hsub.2)
          · exact .finished (.inl hf) hparse
        · exact .behind (.inl hf) hparse hf hfound
      · exact .finished (.inl hf) hparse
  · rw [if_neg hf]
    rcases hfound : h.findSubcommand S remaining with _ | ⟨sub, rest⟩
    · dsimp only
      rcases hparse : parseArgs S (h.usage parent) h.node.arguments existingArgs remaining with
        text | ⟨callArgs, val⟩
      · exact .refused (.inr hfound) hparse
      · dsimp only
        rw [if_neg fun hsub => hf hsub.1]
        exact .finished (.inr hfound) hparse
    · exact .before (by simpa using hf) hfound

/-- The way goes down to a subcommand. -/
theorem mem_of_down {h sub : CommandHandler F V} {parent : Option Text}
    {existingArgs callArgs : CallArgs V} {remaining rest : Text}
    (hturn : h.turn S parent existingArgs remaining = .down sub callArgs rest) :
    sub ∈ h.subcommands := by
  have htook := took S h parent existingArgs remaining
  rw [hturn] at htook
  cases htook with
  | before _ hfound => exact findSubcommand_mem hfound
  | behind _ _ _ hfound => exact findSubcommand_mem hfound

/-- The function that a handler calls is its own, with arguments that were parsed. -/
theorem of_done_call {h : CommandHandler F V} {parent : Option Text}
    {existingArgs callArgs : CallArgs V} {remaining : Text} {func : F}
    (hturn : h.turn S parent existingArgs remaining = .done (.call func callArgs)) :
    func = h.node.func ∧ h.Parses S remaining ∧ ∃ val,
      parseArgs S (h.usage parent) h.node.arguments existingArgs remaining =
        .ok (callArgs, val) := by
  have htook := took S h parent existingArgs remaining
  rw [hturn] at htook
  generalize ht : Turn.done (.call func callArgs) = t at htook
  cases htook with
  | before => cases ht
  | behind => cases ht
  | refused => cases ht
  | missing => cases ht
  | finished hp hok =>
    unfold finish at ht
    split at ht
    · cases ht
    · cases ht
      exact ⟨rfl, hp, _, hok⟩

/-! ### One effect -/

/-- A handler of the tree. -/
inductive Within : CommandHandler F V → CommandHandler F V → Prop
  | root (h : CommandHandler F V) : Within h h
  | sub {h sub handler : CommandHandler F V} (hsub : sub ∈ h.subcommands)
      (hw : Within handler sub) : Within handler h

/-- One reply, or one call of the function of a handler of the tree. -/
def OneEffect (h : CommandHandler F V) (effects : List (Effect F V)) : Prop :=
  ∃ effect, effects = [effect] ∧ ∀ func callArgs, effect = .call func callArgs →
    ∃ handler, Within handler h ∧ handler.node.func = func

/-- The message is handed to `handler` in the course of the dispatch. -/
inductive HandedTo (S : Strings) : CommandHandler F V → Option Text → CallArgs V → Text →
    CommandHandler F V → Prop
  | here {h sub : CommandHandler F V} {parent : Option Text} {existingArgs callArgs : CallArgs V}
      {remaining rest : Text} (h' : h.turn S parent existingArgs remaining =
        .down sub callArgs rest) : HandedTo S h parent existingArgs remaining sub
  | deeper {h sub handler : CommandHandler F V} {parent : Option Text}
      {existingArgs callArgs : CallArgs V} {remaining rest : Text}
      (h' : h.turn S parent existingArgs remaining = .down sub callArgs rest)
      (hbelow : HandedTo S sub (some h.node.name) callArgs rest handler) :
      HandedTo S h parent existingArgs remaining handler

/-- Every function that is called is one of the tree. -/
theorem called_within (h : CommandHandler F V) (parent : Option Text) (existingArgs : CallArgs V)
    (remaining : Text) {func : F} {callArgs : CallArgs V}
    (hcall : .call func callArgs ∈ h.dispatch S bot evt parent existingArgs remaining) :
    ∃ handler, Within handler h ∧ handler.node.func = func := by
  induction h using tree_induction generalizing parent existingArgs remaining with
  | step h ih =>
    rw [dispatch_eq] at hcall
    cases hturn : h.turn S parent existingArgs remaining with
    | done effect =>
      rw [hturn] at hcall
      obtain rfl := List.mem_singleton.mp hcall
      exact ⟨h, .root h, (of_done_call hturn).1.symm⟩
    | down sub callArgs rest =>
      rw [hturn] at hcall
      dsimp only at hcall
      split at hcall
      · have hsub := mem_of_down hturn
        obtain ⟨handler, hw, hfunc⟩ := ih sub hsub _ _ _ hcall
        exact ⟨handler, .sub hsub hw, hfunc⟩
      · cases hcall

/-- There is an effect unless a subcommand does not take the message, and then there is none. -/
theorem dispatch_one_iff (h : CommandHandler F V) (parent : Option Text)
    (existingArgs : CallArgs V) (remaining : Text) :
    (∃ effect, h.dispatch S bot evt parent existingArgs remaining = [effect]) ↔
      ∀ handler, HandedTo S h parent existingArgs remaining handler →
        handler.node.accepts bot evt = true := by
  -- by induction on the tree: a turn goes to one subcommand, or ends here
  induction h using tree_induction generalizing parent existingArgs remaining with
  | step h ih =>
    rw [dispatch_eq]
    cases hturn : h.turn S parent existingArgs remaining with
    | done effect =>
      refine ⟨fun _ handler hhanded => ?_, fun _ => ⟨effect, rfl⟩⟩
      cases hhanded with
      | here h' => rw [hturn] at h'; cases h'
      | deeper h' => rw [hturn] at h'; cases h'
    | down sub callArgs rest =>
      have hsub := mem_of_down hturn
      dsimp only
      constructor
      · intro hone handler hhanded
        have haccepts : sub.node.accepts bot evt = true := by
          by_contra hno
          rw [if_neg hno] at hone
          obtain ⟨effect, heq⟩ := hone
          cases heq
        rw [if_pos haccepts] at hone
        cases hhanded with
        | here h' =>
          rw [hturn] at h'
          cases h'
          exact haccepts
        | deeper h' hbelow =>
          rw [hturn] at h'
          cases h'
          exact (ih sub hsub _ _ _).mp hone handler hbelow
      · intro hall
        rw [if_pos (hall sub (.here hturn))]
        exact (ih sub hsub _ _ _).mpr fun handler hbelow => hall handler (.deeper hturn hbelow)

/-- The root takes the message for its command. -/
structure Accepts (S : Strings) (bot : Text) (evt : Message) (h : CommandHandler F V)
    (body : Text) : Prop where
  accepts : h.node.accepts bot evt = true
  text    : evt.body = '!' :: body
  command : h.isCommandMatch (S.lower (splitInTwo body).1) = true

/-- A message that is accepted is dispatched, -/
theorem handle_of_accepts {h : CommandHandler F V} {body : Text} (ha : Accepts S bot evt h body) :
    h.handle S bot evt = h.dispatch S bot evt none [] (splitInTwo body).2 := by
  rw [handle, if_pos ha.accepts, ha.text]
  exact if_pos ha.command

/-- and another one does nothing. -/
theorem handle_of_not_accepts {h : CommandHandler F V} (hn : ∀ body, ¬ Accepts S bot evt h body) :
    h.handle S bot evt = [] := by
  unfold handle
  split
  · next haccepts =>
    split
    · next body htext =>
      rw [if_neg]
      exact fun hcommand => hn body ⟨haccepts, htext, hcommand⟩
    · rfl
  · rfl

/-- **One effect for each message.**  Exactly if each subcommand that the message is handed to
    takes messages of its type. -/
theorem one_effect_iff (h : CommandHandler F V) {body : Text} (ha : Accepts S bot evt h body) :
    OneEffect h (h.handle S bot evt) ↔ ∀ handler,
      HandedTo S h none [] (splitInTwo body).2 handler → evt.msgtype ∈ handler.node.msgtypes := by
  have hsender : evt.sender ≠ bot := by
    have haccepts := ha.accepts
    simp only [Node.accepts, decide_eq_true_eq] at haccepts
    exact haccepts.1
  have hiff : ∀ handler : CommandHandler F V,
      handler.node.accepts bot evt = true ↔ evt.msgtype ∈ handler.node.msgtypes := by
    intro handler
    simp only [Node.accepts, decide_eq_true_eq]
    exact ⟨fun haccepts => haccepts.2, fun hm => ⟨hsender, hm⟩⟩
  simp only [← hiff]
  rw [← dispatch_one_iff, handle_of_accepts ha]
  constructor
  · rintro ⟨effect, heq, -⟩
    exact ⟨effect, heq⟩
  · rintro ⟨effect, heq⟩
    refine ⟨effect, heq, fun func callArgs hcall => ?_⟩
    have hmem : .call func callArgs ∈ h.dispatch S bot evt none [] (splitInTwo body).2 := by
      rw [heq, hcall]
      exact List.mem_singleton_self _
    exact called_within h none [] (splitInTwo body).2 hmem

end CommandHandler

/-! ### A subcommand of another type -/

namespace CommandTest

/-- The strings of ASCII. -/
def strings : Strings where
  lower t     := t.map Char.toLower
  space c     := c = ' ' || c = '\t' || c = '\n'
  space_blank := rfl

/-- `@new("echo", msgtypes=(TEXT, NOTICE))` with `@echo.subcommand("loud")` -/
def echo : CommandHandler String Unit :=
  subcommand "loud".toList none .none true true (ofFunc "loud" "loud".toList)
    (new "echo".toList none .none [.text, .notice] true true true (ofFunc "echo" "echo".toList))

def echoLoud (msgtype : MessageType) : Message where
  sender  := "@user:example.com".toList
  msgtype := msgtype
  body    := "!echo loud".toList

def botId : Text := "@bot:example.com".toList

/-- The command of the witness accepts its message, -/
theorem accepts_echo (msgtype : MessageType) (h : msgtype ∈ [MessageType.text, .notice]) :
    CommandHandler.Accepts strings botId (echoLoud msgtype) echo "echo loud".toList where
  accepts := by
    have hsender : (echoLoud msgtype).sender ≠ botId := by
      show "@user:example.com".toList ≠ "@bot:example.com".toList
      decide
    have hm : (echoLoud msgtype).msgtype ∈ echo.node.msgtypes := h
    simp only [Node.accepts, decide_eq_true_eq]
    exact ⟨hsender, hm⟩
  text    := rfl
  command := by decide

/-- and dispatches it. -/
theorem handle_echo (msgtype : MessageType) (h : msgtype ∈ [MessageType.text, .notice]) :
    echo.handle strings botId (echoLoud msgtype) =
      echo.dispatch strings botId (echoLoud msgtype) none [] "loud".toList := by
  have hrest : (splitInTwo "echo loud".toList).2 = "loud".toList := by decide
  rw [CommandHandler.handle_of_accepts (accepts_echo msgtype h), hrest]

end CommandTest

open CommandTest CommandHandler in
/-- A text is handed to the subcommand, which is called. -/
theorem one_effect_iff_loud :
    OneEffect echo (echo.handle strings botId (echoLoud .text)) ∧ ∀ handler,
      HandedTo strings echo none [] "loud".toList handler →
        MessageType.text ∈ handler.node.msgtypes := by
  have hhandle : echo.handle strings botId (echoLoud .text) = [.call "loud" []] := by
    rw [handle_echo .text (by decide)]
    decide
  have hone : OneEffect echo (echo.handle strings botId (echoLoud .text)) := by
    refine ⟨_, hhandle, fun func callArgs hcall => ?_⟩
    cases hcall
    exact ⟨_, .sub List.mem_cons_self (.root _), rfl⟩
  exact ⟨hone, (one_effect_iff echo (accepts_echo .text (by decide))).mp hone⟩

open CommandTest CommandHandler in
/-- A notice is accepted by the root, and dropped by the subcommand. -/
theorem notice_dropped :
    Accepts strings botId (echoLoud .notice) echo "echo loud".toList ∧
    echo.handle strings botId (echoLoud .notice) = [] ∧
    ¬ OneEffect echo (echo.handle strings botId (echoLoud .notice)) := by
  have hnil : echo.handle strings botId (echoLoud .notice) = [] := by
    rw [handle_echo .notice (by decide)]
    decide
  refine ⟨accepts_echo .notice (by decide), hnil, ?_⟩
  rw [hnil]
  rintro ⟨effect, heq, -⟩
  cases heq

end Maubot.Command
