import Maubot.Handlers.Usage

namespace Maubot.Command

/-!
# Commands — how a message is spelled

The words of a message may be separated by any whitespace, and the words that call commands may
be in any case; but a command's word is split off at a blank, and only the first is lowered.

* `match_alike`, `parseArgs_alike` — arguments see the words only;
* `Respelled` — two texts with the same words, up to the case of those that call subcommands;
* `Plain` — a message whose command words are followed by a blank, and lowered;
* `SpelledAlike` — the command words of two spellings are spelled well or badly together;
* `same_of_spelledAlike` — then they are dispatched alike, and another spelling of a plain message
  is dispatched alike only if it is plain.
-/

open Words

variable {S : Strings} {F V : Type} {bot : Text} {evt : Message}

/-! ### Arguments -/

/-- The argument looks at one word of the text.  A match of a regular expression lies in the word
    that it was asked for. -/
def Matcher.Wordy : Matcher V → Prop
  | .simple passRaw  => passRaw = false
  | .regex passRaw r => passRaw = false ∧
    ∀ word m, r word = some m → m.start ≤ m.stop ∧ m.stop ≤ word.length
  | .custom _        => True
  | .customRaw _     => False

/-- Two texts with the same words. -/
def Alike (S : Strings) (val val' : Text) : Prop := words S.space val = words S.space val'

/-- Of two texts that are alike both have words or none. -/
theorem Alike.strip_nil {val val' : Text} (h : Alike S val val') :
    strip S.space val = [] ↔ strip S.space val' = [] := by
  rw [strip_eq_nil_iff, strip_eq_nil_iff, h]

/-- They have the same first word, -/
theorem Alike.first_eq {val val' : Text} (h : Alike S val val') :
    first S.space (strip S.space val) = first S.space (strip S.space val') := by
  rw [first_strip, first_strip, h]

/-- and are alike behind it. -/
theorem Alike.after {val val' : Text} (h : Alike S val val') :
    Alike S (after S.space (strip S.space val)) (after S.space (strip S.space val')) := by
  rw [Alike, words_after_strip, words_after_strip, h]

/-- What is left of a text when a part of its first word is taken. -/
theorem words_take_drop {val : Text} {i j : Nat} (hij : i ≤ j)
    (hj : j ≤ (first S.space val).length) :
    words S.space (val.take i ++ val.drop j) =
      if (first S.space val).take i ++ (first S.space val).drop j = [] then
        words S.space (after S.space val)
      else ((first S.space val).take i ++ (first S.space val).drop j) ::
        words S.space (after S.space val) := by
  have hval := first_append_after S.space val
  have htake : val.take i = (first S.space val).take i := by
    conv_lhs => rw [← hval]
    exact List.take_append_of_le_length (hij.trans hj)
  have hdrop : val.drop j = (first S.space val).drop j ++ Words.after S.space val := by
    conv_lhs => rw [← hval]
    exact List.drop_append_of_le_length hj
  rw [htake, hdrop, ← List.append_assoc, words_word_append ?_ fun c t h => after_head h]
  intro c hc
  rcases List.mem_append.mp hc with hc | hc
  · exact first_no_space (List.mem_of_mem_take hc)
  · exact first_no_space (List.mem_of_mem_drop hc)

/-- **An argument sees the words.**  It raises the same, or takes the same value and leaves texts
    with the same words. -/
theorem match_alike {arg : Argument V} (harg : arg.matcher.Wordy) {val val' : Text}
    (h : Alike S val val') :
    (∃ e, arg.match S (strip S.space val) = .error e ∧
      arg.match S (strip S.space val') = .error e) ∨
    ∃ value rest rest', arg.match S (strip S.space val) = .ok (rest, value) ∧
      arg.match S (strip S.space val') = .ok (rest', value) ∧ Alike S rest rest' := by
  obtain ⟨name, label, required, matcher⟩ := arg
  have hfirst := h.first_eq
  have hwords : words S.space (strip S.space val) = words S.space (strip S.space val') := by
    rw [words_strip, words_strip, h]
  unfold Argument.match
  -- a wordy matcher reads the first word only, which is the same
  cases matcher with
  | simple passRaw =>
    obtain rfl : passRaw = false := harg
    right
    refine ⟨_, _, _, rfl, by rw [hfirst], ?_⟩
    rw [drop_first, ← hfirst, hfirst, drop_first]
    exact h.after
  | custom matcher =>
    dsimp only
    rw [← hfirst]
    cases hm : matcher (first S.space (strip S.space val)) with
    | error e => exact .inl ⟨e, rfl, rfl⟩
    | ok value =>
      right
      cases value with
      | none => exact ⟨_, _, _, rfl, rfl, hwords⟩
      | some v =>
        refine ⟨_, _, _, rfl, rfl, ?_⟩
        rw [drop_first, hfirst, drop_first]
        exact h.after
  | customRaw matcher => exact harg.elim
  | regex passRaw regex =>
    obtain ⟨rfl, hmatch⟩ := harg
    dsimp only
    right
    simp only [Bool.false_eq_true, if_false]
    rw [← hfirst]
    cases hm : regex (first S.space (strip S.space val)) with
    | none => exact ⟨_, _, _, rfl, rfl, hwords⟩
    | some m =>
      obtain ⟨hle, hlen⟩ := hmatch _ m hm
      refine ⟨_, _, _, rfl, rfl, ?_⟩
      have hafter : words S.space (Words.after S.space (strip S.space val)) =
          words S.space (Words.after S.space (strip S.space val')) := h.after
      rw [Alike, words_take_drop hle hlen, words_take_drop hle (by rw [← hfirst]; exact hlen),
        ← hfirst, hafter]

/-- **So do the arguments of a handler.** -/
theorem parseArgs_alike (usage : Text) {args : List (Argument V)}
    (hargs : ∀ arg ∈ args, arg.matcher.Wordy) (callArgs : CallArgs V) {val val' : Text}
    (h : Alike S val val') :
    (∃ text, parseArgs S usage args callArgs val = .error text ∧
      parseArgs S usage args callArgs val' = .error text) ∨
    ∃ out rest rest', parseArgs S usage args callArgs val = .ok (out, rest) ∧
      parseArgs S usage args callArgs val' = .ok (out, rest') ∧ Alike S rest rest' := by
  induction args generalizing callArgs val val' with
  | nil => exact .inr ⟨callArgs, val, val', rfl, rfl, h⟩
  | cons arg args ih =>
    have hargs' : ∀ a ∈ args, a.matcher.Wordy := fun a ha => hargs a (List.mem_cons_of_mem _ ha)
    unfold parseArgs
    rcases match_alike (hargs arg List.mem_cons_self) h with
      ⟨e, he, he'⟩ | ⟨value, rest, rest', hm, hm', hrest⟩
    · left
      rw [he, he']
      cases e with
      | valueError => exact ⟨_, rfl, rfl⟩
      | argumentSyntaxError message showUsage => exact ⟨_, rfl, rfl⟩
    · rw [hm, hm']
      dsimp only
      by_cases hr : arg.required = true ∧ value.isNone = true
      · rw [if_pos hr, if_pos hr]
        exact .inl ⟨_, rfl, rfl⟩
      · rw [if_neg hr, if_neg hr]
        exact ih hargs' _ hrest

/-- The text that arguments leave, if they are there. -/
def restOf (r : Except Text (CallArgs V × Text)) : Option Text :=
  match r with
  | .ok (_, rest) => some rest
  | .error _      => none

/-- What the arguments leave of a message does not depend on what was parsed before. -/
theorem restOf_parseArgs (usage usage' : Text) (args : List (Argument V))
    (callArgs callArgs' : CallArgs V) (remaining : Text) :
    restOf (parseArgs S usage args callArgs remaining) =
      restOf (parseArgs S usage' args callArgs' remaining) := by
  induction args generalizing callArgs callArgs' remaining with
  | nil => rfl
  | cons arg args ih =>
    unfold parseArgs
    rcases arg.match S (strip S.space remaining) with (_ | ⟨_, _⟩) | ⟨rest, value⟩
    · rfl
    · rfl
    · dsimp only
      split
      · rfl
      · exact ih _ _ rest

namespace CommandHandler

/-! ### Where a handler looks for a subcommand -/

/-- The text in which the handler looks for a subcommand, if it gets to that. -/
def looksIn (S : Strings) (h : CommandHandler F V) (remaining : Text) : Option Text :=
  if h.node.argFallthrough then restOf (parseArgs S [] h.node.arguments [] remaining)
  else some remaining

/-- The next word of a text. -/
def word (S : Strings) (val : Text) : Text := first S.space (strip S.space val)

/-- What stands behind it. -/
def behind (S : Strings) (val : Text) : Text :=
  strip S.space (after S.space (strip S.space val))

/-- The subcommand that the next word calls, in any case. -/
def called (S : Strings) (h : CommandHandler F V) (val : Text) : Option (CommandHandler F V) :=
  h.subcommands.find? fun sub => sub.isCommandMatch (S.lower (word S val))

/-- No other whitespace than a blank follows the first word of a text. -/
def BlankNext (S : Strings) (val : Text) : Prop := ∀ c t, after S.space val = c :: t → c = ' '

/-- The next word is lowered, and a blank follows it. -/
structure Spelled (S : Strings) (val : Text) : Prop where
  lower : S.lower (word S val) = word S val
  blank : BlankNext S (strip S.space val)

/-- The handlers of a tree answer to words in lower case only, and their arguments look at one
    word each. -/
structure Spellable (S : Strings) (h : CommandHandler F V) : Prop where
  lower    : ∀ handler, Within handler h → ∀ val, handler.isCommandMatch val = true →
    S.lower val = val
  no_space : ∀ handler, Within handler h → ∀ val, handler.isCommandMatch val = true →
    ∀ c ∈ val, S.space c = false
  wordy    : ∀ handler, Within handler h → ∀ arg ∈ handler.node.arguments, arg.matcher.Wordy

/-- The handlers below a spellable one are spellable. -/
theorem Spellable.sub {h sub : CommandHandler F V} (hs : Spellable S h)
    (hsub : sub ∈ h.subcommands) : Spellable S sub where
  lower handler hw    := hs.lower handler (.sub hsub hw)
  no_space handler hw := hs.no_space handler (.sub hsub hw)
  wordy handler hw    := hs.wordy handler (.sub hsub hw)

/-- A handler that is called is one below. -/
theorem called_mem {h sub : CommandHandler F V} {val : Text} (hcalled : called S h val = some sub) :
    sub ∈ h.subcommands := List.mem_of_find?_eq_some hcalled

/-- A token without whitespace is the first word, with a blank behind it. -/
theorem splitInTwo_of_no_space {val : Text}
    (h : ∀ c ∈ (splitInTwo val).1, S.space c = false) :
    (splitInTwo val).1 = first S.space val ∧ BlankNext S val := by
  have hval : (splitInTwo val).1 ++ val.dropWhile (· != ' ') = val :=
    List.takeWhile_append_dropWhile
  have hhead : ∀ c t, val.dropWhile (· != ' ') = c :: t → c = ' ' := by
    intro c t heq
    have hne : val.dropWhile (· != ' ') ≠ [] := by
      rw [heq]
      nofun
    have hhead := List.head_dropWhile_not (· != ' ') (l := val) hne
    simpa [heq] using hhead
  have hspace : ∀ c t, val.dropWhile (· != ' ') = c :: t → S.space c = true := by
    intro c t heq
    rw [hhead c t heq]
    exact S.space_blank
  refine ⟨?_, fun c t heq => hhead c t ?_⟩
  · conv_rhs => rw [← hval]
    exact (first_append h hspace).symm
  · rw [← heq]
    conv_rhs => rw [← hval]
    exact (after_append h hspace).symm

/-- The first word with a blank behind it is split off. -/
theorem splitInTwo_of_blank {val : Text} (h : BlankNext S val) :
    (splitInTwo val).1 = first S.space val ∧
      strip S.space (splitInTwo val).2 = strip S.space (after S.space val) := by
  have hval := first_append_after S.space val
  have hno : ∀ c ∈ first S.space val, S.space c = false := fun _ hc => first_no_space hc
  cases hafter : after S.space val with
  | nil =>
    rw [hafter, List.append_nil] at hval
    have hsplit := splitInTwo_word hno
    rw [hval] at hsplit
    rw [hsplit]
    exact ⟨hval.symm, rfl⟩
  | cons c t =>
    obtain rfl := h c t hafter
    rw [hafter] at hval
    have hsplit := splitInTwo_append hno t
    rw [hval] at hsplit
    rw [hsplit]
    refine ⟨rfl, ?_⟩
    rw [strip, strip, lstrip_cons_space S.space_blank]

/-- **A subcommand is found** if the next word, which is spelled well, calls it. -/
theorem findSubcommand_iff {h sub : CommandHandler F V} (hs : Spellable S h) {val rest : Text} :
    h.findSubcommand S val = some (sub, rest) ↔ called S h val = some sub ∧ Spelled S val ∧
      rest = (splitInTwo (strip S.space val)).2 := by
  unfold findSubcommand called
  constructor
  · intro hfound
    obtain ⟨found, hfind, heq⟩ := Option.map_eq_some_iff.mp hfound
    cases heq
    have hmatch := List.find?_some hfind
    have hwithin : Within sub h := .sub (List.mem_of_find?_eq_some hfind) (.root sub)
    obtain ⟨htoken, hblank⟩ := splitInTwo_of_no_space (hs.no_space sub hwithin _ hmatch)
    have hlower := hs.lower sub hwithin _ hmatch
    rw [htoken] at hlower hfind
    refine ⟨?_, ⟨hlower, hblank⟩, rfl⟩
    rw [word, hlower]
    exact hfind
  · rintro ⟨hcalled, hspelled, rfl⟩
    have htoken := (splitInTwo_of_blank hspelled.blank).1
    rw [hspelled.lower, word] at hcalled
    dsimp only
    rw [htoken, hcalled]
    rfl

/-- Where the way goes down, a subcommand was looked for and found. -/
theorem looksIn_of_down {h sub : CommandHandler F V} {parent : Option Text}
    {existingArgs callArgs : CallArgs V} {remaining rest : Text}
    (hturn : h.turn S parent existingArgs remaining = .down sub callArgs rest) :
    ∃ val, looksIn S h remaining = some val ∧ h.findSubcommand S val = some (sub, rest) := by
  have htook := took S h parent existingArgs remaining
  rw [hturn] at htook
  unfold looksIn
  cases htook with
  | before hf hfound => exact ⟨remaining, by rw [hf]; rfl, hfound⟩
  | behind _ hok hf hfound =>
    refine ⟨_, ?_, hfound⟩
    rw [if_pos hf, restOf_parseArgs [] (h.usage parent) _ [] existingArgs, hok]
    rfl

/-- And where one is found, the way goes down to it. -/
theorem down_of_looksIn {h sub : CommandHandler F V} {remaining val rest : Text}
    (hlooks : looksIn S h remaining = some val)
    (hfound : h.findSubcommand S val = some (sub, rest)) (parent : Option Text)
    (existingArgs : CallArgs V) :
    ∃ callArgs, h.turn S parent existingArgs remaining = .down sub callArgs rest := by
  unfold looksIn at hlooks
  unfold turn
  by_cases hf : h.node.argFallthrough = true
  · rw [if_pos hf, restOf_parseArgs [] (h.usage parent) _ [] existingArgs] at hlooks
    rw [if_pos hf]
    have hsubs : ¬ h.subcommands.isEmpty = true := not_isEmpty_of_findSubcommand hfound
    cases hp : parseArgs S (h.usage parent) h.node.arguments existingArgs remaining with
    | error text =>
      rw [hp] at hlooks
      cases hlooks
    | ok r =>
      rw [hp] at hlooks
      obtain rfl : r.2 = val := Option.some.inj hlooks
      refine ⟨r.1, ?_⟩
      dsimp only
      rw [if_pos ⟨hf, hsubs⟩, hfound]
  · rw [if_neg hf] at hlooks
    obtain rfl := Option.some.inj hlooks
    rw [if_neg hf, hfound]
    exact ⟨existingArgs, rfl⟩

/-! ### Where a message ends up -/

/-- The message goes down a path of handlers; the last one does something, or it does not take the
    message. -/
inductive Lands (S : Strings) (bot : Text) (evt : Message) : CommandHandler F V → Option Text →
    CallArgs V → Text → List (CommandHandler F V) → Option (Effect F V) → Prop
  | done {h : CommandHandler F V} {parent : Option Text} {existingArgs : CallArgs V}
      {remaining : Text} {effect : Effect F V}
      (hturn : h.turn S parent existingArgs remaining = .done effect) :
      Lands S bot evt h parent existingArgs remaining [] (some effect)
  | dropped {h sub : CommandHandler F V} {parent : Option Text}
      {existingArgs callArgs : CallArgs V} {remaining rest : Text}
      (hturn : h.turn S parent existingArgs remaining = .down sub callArgs rest)
      (haccepts : sub.node.accepts bot evt = false) :
      Lands S bot evt h parent existingArgs remaining [sub] none
  | down {h sub : CommandHandler F V} {path : List (CommandHandler F V)} {parent : Option Text}
      {existingArgs callArgs : CallArgs V} {remaining rest : Text} {effect : Option (Effect F V)}
      (hturn : h.turn S parent existingArgs remaining = .down sub callArgs rest)
      (haccepts : sub.node.accepts bot evt = true)
      (h' : Lands S bot evt sub (some h.node.name) callArgs rest path effect) :
      Lands S bot evt h parent existingArgs remaining (sub :: path) effect

section Lands

variable {h sub : CommandHandler F V} {parent : Option Text} {existingArgs callArgs : CallArgs V}
  {remaining rest val : Text} {path : List (CommandHandler F V)} {effect : Option (Effect F V)}

/-- That is what is seen of the message. -/
theorem dispatch_of_lands (hl : Lands S bot evt h parent existingArgs remaining path effect) :
    h.dispatch S bot evt parent existingArgs remaining = effect.toList := by
  induction hl with
  | done hturn =>
    rw [dispatch_eq, hturn]
    rfl
  | dropped hturn haccepts =>
    rw [dispatch_eq, hturn]
    dsimp only
    rw [if_neg (by rw [haccepts]; nofun)]
    rfl
  | down hturn haccepts _ ih =>
    rw [dispatch_eq, hturn]
    dsimp only
    rw [if_pos haccepts, ih]

/-- A message lands somewhere in every tree, -/
theorem exists_lands (h : CommandHandler F V) (parent : Option Text) (existingArgs : CallArgs V)
    (remaining : Text) :
    ∃ path effect, Lands S bot evt h parent existingArgs remaining path effect := by
  induction h using tree_induction generalizing parent existingArgs remaining with
  | step h ih =>
    cases hturn : h.turn S parent existingArgs remaining with
    | done effect => exact ⟨[], some effect, .done hturn⟩
    | down sub callArgs rest =>
      cases haccepts : sub.node.accepts bot evt with
      | false => exact ⟨[sub], none, .dropped hturn haccepts⟩
      | true =>
        obtain ⟨path, effect, hl⟩ := ih sub (mem_of_down hturn) (some h.node.name) callArgs rest
        exact ⟨sub :: path, effect, .down hturn haccepts hl⟩

/-- and nowhere else. -/
theorem lands_unique {path' : List (CommandHandler F V)} {effect' : Option (Effect F V)}
    (hl : Lands S bot evt h parent existingArgs remaining path effect)
    (hl' : Lands S bot evt h parent existingArgs remaining path' effect') :
    path = path' ∧ effect = effect' := by
  -- the turn is a function of the rest, so both derivations take the same steps
  induction hl generalizing path' effect' with
  | done hturn =>
    cases hl' with
    | done hturn' =>
      rw [hturn] at hturn'
      cases hturn'
      exact ⟨rfl, rfl⟩
    | dropped hturn' => rw [hturn] at hturn'; cases hturn'
    | down hturn' => rw [hturn] at hturn'; cases hturn'
  | dropped hturn haccepts =>
    cases hl' with
    | done hturn' => rw [hturn] at hturn'; cases hturn'
    | dropped hturn' =>
      rw [hturn] at hturn'
      cases hturn'
      exact ⟨rfl, rfl⟩
    | down hturn' haccepts' =>
      rw [hturn] at hturn'
      cases hturn'
      rw [haccepts] at haccepts'
      cases haccepts'
  | down hturn haccepts _ ih =>
    cases hl' with
    | done hturn' => rw [hturn] at hturn'; cases hturn'
    | dropped hturn' haccepts' =>
      rw [hturn] at hturn'
      cases hturn'
      rw [haccepts] at haccepts'
      cases haccepts'
    | down hturn' _ h' =>
      rw [hturn] at hturn'
      cases hturn'
      obtain ⟨rfl, rfl⟩ := ih h'
      exact ⟨rfl, rfl⟩

/-- Below a handler that accepts, it lands where it lands there. -/
theorem lands_down_iff (hturn : h.turn S parent existingArgs remaining = .down sub callArgs rest)
    (haccepts : sub.node.accepts bot evt = true) :
    Lands S bot evt h parent existingArgs remaining (sub :: path) effect ↔
      Lands S bot evt sub (some h.node.name) callArgs rest path effect := by
  constructor
  · intro hl
    cases hl with
    | dropped hturn' haccepts' =>
      rw [hturn] at hturn'
      cases hturn'
      rw [haccepts] at haccepts'
      cases haccepts'
    | down hturn' _ h' =>
      rw [hturn] at hturn'
      cases hturn'
      exact h'
  · exact .down hturn haccepts

/-- The whitespace around a text does not matter. -/
theorem turn_strip (h : CommandHandler F V) (parent : Option Text) (existingArgs : CallArgs V)
    (remaining : Text) : h.turn S parent existingArgs (strip S.space remaining) =
      h.turn S parent existingArgs remaining := by
  have hstrip : strip S.space (strip S.space remaining) = strip S.space remaining :=
    strip_strip remaining
  have hfind := findSubcommand_congr h hstrip
  unfold turn
  rw [hfind]
  cases hargs : h.node.arguments with
  | nil =>
    simp only [parseArgs, hfind, finish, hstrip]
  | cons arg args =>
    simp only [parseArgs, hstrip]

/-- Spaces around the message do not matter. -/
theorem lands_strip :
    Lands S bot evt h parent existingArgs (strip S.space remaining) path effect ↔
      Lands S bot evt h parent existingArgs remaining path effect := by
  have hturn := turn_strip (S := S) h parent existingArgs remaining
  constructor
  · intro hl
    cases hl with
    | done h' => exact .done (hturn.symm.trans h')
    | dropped h' haccepts => exact .dropped (hturn.symm.trans h') haccepts
    | down h' haccepts hl => exact .down (hturn.symm.trans h') haccepts hl
  · intro hl
    cases hl with
    | done h' => exact .done (hturn.trans h')
    | dropped h' haccepts => exact .dropped (hturn.trans h') haccepts
    | down h' haccepts hl => exact .down (hturn.trans h') haccepts hl

end Lands

/-! ### Plain texts -/

/-- On the way of the message, each word that calls a subcommand in any case is lowered, and a
    blank follows it. -/
inductive PlainFrom (S : Strings) (bot : Text) (evt : Message) :
    CommandHandler F V → Text → Prop
  | stays {h : CommandHandler F V} {remaining : Text}
      (hstays : ∀ val, looksIn S h remaining = some val → called S h val = none) :
      PlainFrom S bot evt h remaining
  | down {h sub : CommandHandler F V} {remaining val : Text}
      (hlooks : looksIn S h remaining = some val) (hcalled : called S h val = some sub)
      (hspelled : Spelled S val)
      (h' : sub.node.accepts bot evt = true → PlainFrom S bot evt sub (behind S val)) :
      PlainFrom S bot evt h remaining

/-- Two texts with the same words, up to the case of words that call the same subcommands. -/
inductive Respelled (S : Strings) : CommandHandler F V → Text → Text → Prop
  | alike {h : CommandHandler F V} {remaining remaining' : Text}
      (halike : Alike S remaining remaining') : Respelled S h remaining remaining'
  | down {h sub : CommandHandler F V} {remaining remaining' val val' w w' : Text}
      {front ws ws' : List Text}
      (hlooks : looksIn S h remaining = some val) (hlooks' : looksIn S h remaining' = some val')
      (hval : words S.space val = w :: ws) (hval' : words S.space val' = w' :: ws')
      (hwords : words S.space remaining = front ++ w :: ws)
      (hwords' : words S.space remaining' = front ++ w' :: ws')
      (hlower : S.lower w = S.lower w') (hcalled : called S h val = some sub)
      (h' : Respelled S sub (behind S val) (behind S val')) : Respelled S h remaining remaining'

/-- On the way of the message, the words that call subcommands in some case are spelled well in both
    texts, down to where that is so in neither of them and they have the same words. -/
inductive SpelledAlike (S : Strings) (bot : Text) (evt : Message) :
    CommandHandler F V → Text → Text → Prop
  | stays {h : CommandHandler F V} {remaining remaining' : Text}
      (hstays : ∀ val, looksIn S h remaining = some val → called S h val = none) :
      SpelledAlike S bot evt h remaining remaining'
  | strays {h : CommandHandler F V} {remaining remaining' val val' : Text}
      (hlooks : looksIn S h remaining = some val) (hlooks' : looksIn S h remaining' = some val')
      (hspelled : ¬ Spelled S val) (hspelled' : ¬ Spelled S val')
      (halike : Alike S remaining remaining') : SpelledAlike S bot evt h remaining remaining'
  | down {h sub : CommandHandler F V} {remaining remaining' val val' : Text}
      (hlooks : looksIn S h remaining = some val) (hlooks' : looksIn S h remaining' = some val')
      (hcalled : called S h val = some sub) (hspelled : Spelled S val) (hspelled' : Spelled S val')
      (h' : sub.node.accepts bot evt = true →
        SpelledAlike S bot evt sub (behind S val) (behind S val')) :
      SpelledAlike S bot evt h remaining remaining'

section Plain

variable {h sub : CommandHandler F V} {parent : Option Text}
  {existingArgs existingArgs' : CallArgs V} {remaining remaining' val val' : Text}

/-- Behind the first word are the other ones. -/
theorem words_behind (val : Text) : words S.space (behind S val) = (words S.space val).tail := by
  rw [behind, words_strip, words_after_strip]

/-- What is behind is alike in texts that are alike. -/
theorem alike_behind (halike : Alike S val val') : Alike S (behind S val) (behind S val') := by
  rw [Alike, words_behind, words_behind, halike]

/-- The word that is looked up is the first one. -/
theorem word_eq {w : Text} {ws : List Text} (hval : words S.space val = w :: ws) :
    word S val = w := by
  rw [word, first_strip, hval]
  rfl

/-- Only its lower case matters to who is called. -/
theorem called_congr (h : CommandHandler F V)
    (hlower : S.lower (word S val) = S.lower (word S val')) :
    called S h val = called S h val' := by
  rw [called, called, hlower]

/-- So texts that are alike call the same handler. -/
theorem called_alike (h : CommandHandler F V) (halike : Alike S val val') :
    called S h val = called S h val' :=
  called_congr h (congrArg S.lower halike.first_eq)

/-- And a subcommand is looked for in both or in neither. -/
theorem looksIn_alike (hs : Spellable S h) (halike : Alike S remaining remaining') :
    (looksIn S h remaining = none ∧ looksIn S h remaining' = none) ∨
    ∃ val val', looksIn S h remaining = some val ∧ looksIn S h remaining' = some val' ∧
      Alike S val val' := by
  unfold looksIn
  by_cases hf : h.node.argFallthrough = true
  · rw [if_pos hf, if_pos hf]
    rcases parseArgs_alike [] (hs.wordy h (.root h)) [] halike with
      ⟨text, he, he'⟩ | ⟨out, rest, rest', hok, hok', hrest⟩
    · rw [he, he']
      exact .inl ⟨rfl, rfl⟩
    · rw [hok, hok']
      exact .inr ⟨rest, rest', rfl, rfl, hrest⟩
  · rw [if_neg hf, if_neg hf]
    exact .inr ⟨remaining, remaining', rfl, rfl, halike⟩

/-- A respelling may be taken back. -/
theorem Respelled.symm (hr : Respelled S h remaining remaining') :
    Respelled S h remaining' remaining := by
  induction hr with
  | alike halike => exact .alike halike.symm
  | down hlooks hlooks' hval hval' hwords hwords' hlower hcalled _ ih =>
    refine .down hlooks' hlooks hval' hval hwords' hwords hlower.symm ?_ ih
    rw [← hcalled]
    refine (called_congr _ ?_).symm
    rw [word_eq hval, word_eq hval', hlower]

/-- The other spelling calls the same subcommand. -/
theorem respelled_down (hs : Spellable S h) (hr : Respelled S h remaining remaining')
    (hlooks : looksIn S h remaining = some val) (hcalled : called S h val = some sub) :
    ∃ val', looksIn S h remaining' = some val' ∧ called S h val' = some sub ∧
      Respelled S sub (behind S val) (behind S val') := by
  cases hr with
  | alike halike =>
    rcases looksIn_alike hs halike with ⟨hnone, -⟩ | ⟨v, val', hv, hlooks', hval⟩
    · rw [hlooks] at hnone
      cases hnone
    · rw [hlooks] at hv
      obtain rfl := Option.some.inj hv
      have hcalled' := (called_alike h hval).symm.trans hcalled
      exact ⟨val', hlooks', hcalled', .alike (alike_behind hval)⟩
  | down hlooks₁ hlooks' hval hval' _ _ hlower hcalled₁ h' =>
    rw [hlooks] at hlooks₁
    obtain rfl := Option.some.inj hlooks₁
    rw [hcalled] at hcalled₁
    obtain rfl := Option.some.inj hcalled₁
    refine ⟨_, hlooks', ?_, h'⟩
    rw [← hcalled]
    refine (called_congr _ ?_).symm
    rw [word_eq hval, word_eq hval', hlower]

/-- A word that is spelled well takes the message down, to the text behind it. -/
theorem down_of_spelled (hs : Spellable S h) (hlooks : looksIn S h remaining = some val)
    (hcalled : called S h val = some sub) (hspelled : Spelled S val) (parent : Option Text)
    (existingArgs : CallArgs V) :
    ∃ callArgs rest, h.turn S parent existingArgs remaining = .down sub callArgs rest ∧
      strip S.space rest = behind S val := by
  obtain ⟨callArgs, hturn⟩ := down_of_looksIn hlooks
    ((findSubcommand_iff hs).mpr ⟨hcalled, hspelled, rfl⟩) parent existingArgs
  exact ⟨callArgs, _, hturn, (splitInTwo_of_blank hspelled.blank).2⟩

/-- A message that goes down has a word that is spelled well. -/
theorem spelled_of_down (hs : Spellable S h) {callArgs : CallArgs V} {rest : Text}
    (hturn : h.turn S parent existingArgs remaining = .down sub callArgs rest) :
    ∃ val, looksIn S h remaining = some val ∧ called S h val = some sub ∧ Spelled S val := by
  obtain ⟨val, hlooks, hfound⟩ := looksIn_of_down hturn
  obtain ⟨hcalled, hspelled, -⟩ := (findSubcommand_iff hs).mp hfound
  exact ⟨val, hlooks, hcalled, hspelled⟩

/-- The handlers on the way are those the way goes down to. -/
theorem mem_path_of_lands {path : List (CommandHandler F V)} {effect : Option (Effect F V)}
    (hl : Lands S bot evt h parent existingArgs remaining (sub :: path) effect) :
    ∃ callArgs rest, h.turn S parent existingArgs remaining = .down sub callArgs rest := by
  cases hl with
  | dropped hturn _ => exact ⟨_, _, hturn⟩
  | down hturn _ _ => exact ⟨_, _, hturn⟩

/-- **A spelling that is dispatched like a plain one is plain.** -/
theorem plain_of_same (hs : Spellable S h) (hplain : PlainFrom S bot evt h remaining)
    (hr : Respelled S h remaining remaining')
    (hsame : ∀ path effect, Lands S bot evt h parent existingArgs remaining path effect →
      ∃ effect', Lands S bot evt h parent existingArgs' remaining' path effect') :
    PlainFrom S bot evt h remaining' := by
  induction hplain generalizing remaining' parent existingArgs existingArgs' with
  | stays hstays =>
    refine .stays fun val' hlooks' => ?_
    cases hcalled : called S _ val' with
    | none => rfl
    | some sub =>
      obtain ⟨val, hlooks, hcalled', -⟩ := respelled_down hs hr.symm hlooks' hcalled
      rw [hstays val hlooks] at hcalled'
      cases hcalled'
  | @down h sub remaining val hlooks hcalled hspelled _ ih =>
    obtain ⟨val', hlooks', hcalled', hr'⟩ := respelled_down hs hr hlooks hcalled
    obtain ⟨callArgs, rest, hturn, hrest⟩ :=
      down_of_spelled hs hlooks hcalled hspelled parent existingArgs
    -- the other spelling goes down too
    have hdown : ∃ callArgs' rest', h.turn S parent existingArgs' remaining' =
        .down sub callArgs' rest' := by
      cases haccepts : sub.node.accepts bot evt with
      | false =>
        obtain ⟨effect', hl'⟩ := hsame [sub] none (.dropped hturn haccepts)
        exact mem_path_of_lands hl'
      | true =>
        obtain ⟨path, effect, hl⟩ : ∃ path effect,
            Lands S bot evt sub (some h.node.name) callArgs rest path effect := exists_lands _ _ _ _
        obtain ⟨effect', hl'⟩ := hsame (sub :: path) effect (.down hturn haccepts hl)
        exact mem_path_of_lands hl'
    obtain ⟨callArgs', rest', hturn'⟩ := hdown
    have hspelled' : Spelled S val' := by
      obtain ⟨v, hv, -, hspelled'⟩ := spelled_of_down hs hturn'
      rw [hlooks'] at hv
      obtain rfl := Option.some.inj hv
      exact hspelled'
    obtain ⟨callArgs₁, rest₁, hturn₁, hrest'⟩ :=
      down_of_spelled hs hlooks' hcalled' hspelled' parent existingArgs'
    refine .down hlooks' hcalled' hspelled' fun haccepts => ?_
    have hbelow : ∀ path effect,
        Lands S bot evt sub (some h.node.name) callArgs (behind S val) path effect →
        ∃ effect', Lands S bot evt sub (some h.node.name) callArgs₁ (behind S val') path
          effect' := by
      intro path effect hl
      rw [← hrest, lands_strip] at hl
      obtain ⟨effect', hl'⟩ := hsame (sub :: path) effect (.down hturn haccepts hl)
      rw [lands_down_iff hturn₁ haccepts] at hl'
      rw [← hrest']
      exact ⟨effect', lands_strip.mpr hl'⟩
    exact ih haccepts (hs.sub (called_mem hcalled)) hr' hbelow

/-- Where the way ends, the handler gets the same arguments. -/
theorem finish_alike (h : CommandHandler F V) (parent : Option Text) (callArgs : CallArgs V)
    (halike : Alike S val val') :
    h.finish S parent callArgs val = h.finish S parent callArgs val' := by
  unfold finish
  by_cases hnil : strip S.space val = []
  · rw [if_neg fun hc => hc.2 hnil, if_neg fun hc => hc.2 (halike.strip_nil.mp hnil)]
  · have hnil' : strip S.space val' ≠ [] := fun h' => hnil (halike.strip_nil.mpr h')
    by_cases hm : h.node.mustConsumeArgs = true
    · rw [if_pos ⟨hm, hnil⟩, if_pos ⟨hm, hnil'⟩]
    · rw [if_neg fun hc => hm hc.1, if_neg fun hc => hm hc.1]

/-- A subcommand is found in two texts with the same words, or in neither, if the word that calls it
    is spelled well in both or in neither. -/
theorem findSubcommand_alike (hs : Spellable S h) (halike : Alike S val val')
    (hspelled : ∀ sub, called S h val = some sub → (Spelled S val ↔ Spelled S val')) :
    (h.findSubcommand S val = none ∧ h.findSubcommand S val' = none) ∨
    ∃ sub rest rest', h.findSubcommand S val = some (sub, rest) ∧
      h.findSubcommand S val' = some (sub, rest') ∧ Alike S rest rest' := by
  have hcalled' := called_alike h halike
  cases hcalled : called S h val with
  | none =>
    rw [hcalled] at hcalled'
    refine .inl ⟨Option.eq_none_iff_forall_ne_some.mpr fun found hfound => ?_,
      Option.eq_none_iff_forall_ne_some.mpr fun found hfound => ?_⟩
    · have h' := ((findSubcommand_iff hs).mp hfound).1
      rw [hcalled] at h'
      cases h'
    · have h' := ((findSubcommand_iff hs).mp hfound).1
      rw [← hcalled'] at h'
      cases h'
  | some sub =>
    by_cases hspell : Spelled S val
    · have hspell' : Spelled S val' := (hspelled sub hcalled).mp hspell
      refine .inr ⟨sub, _, _, (findSubcommand_iff hs).mpr ⟨hcalled, hspell, rfl⟩,
        (findSubcommand_iff hs).mpr ⟨hcalled'.symm.trans hcalled, hspell', rfl⟩, ?_⟩
      rw [Alike, ← words_strip, (splitInTwo_of_blank hspell.blank).2,
        ← words_strip (splitInTwo _).2, (splitInTwo_of_blank hspell'.blank).2]
      exact alike_behind halike
    · refine .inl ⟨Option.eq_none_iff_forall_ne_some.mpr fun found hfound => ?_,
        Option.eq_none_iff_forall_ne_some.mpr fun found hfound => ?_⟩
      · exact hspell ((findSubcommand_iff hs).mp hfound).2.1
      · exact hspell ((hspelled sub hcalled).mpr ((findSubcommand_iff hs).mp hfound).2.1)

/-- What a handler does with two texts with the same words, where a word that calls a subcommand is
    spelled well in both or in neither. -/
theorem turn_alike (hs : Spellable S h) (halike : Alike S remaining remaining')
    (hspelled : ∀ val val' sub, looksIn S h remaining = some val →
      looksIn S h remaining' = some val' → called S h val = some sub →
        (Spelled S val ↔ Spelled S val')) (parent : Option Text) (existingArgs : CallArgs V) :
    (∃ effect, h.turn S parent existingArgs remaining = .done effect ∧
      h.turn S parent existingArgs remaining' = .done effect) ∨
    ∃ sub callArgs rest rest',
      h.turn S parent existingArgs remaining = .down sub callArgs rest ∧
      h.turn S parent existingArgs remaining' = .down sub callArgs rest' ∧
      Alike S rest rest' := by
  have hparse := parseArgs_alike (h.usage parent) (hs.wordy h (.root h)) existingArgs halike
  unfold looksIn at hspelled
  unfold turn
  -- with a fallthrough the arguments are parsed before the subcommand is looked for
  by_cases hf : h.node.argFallthrough = true
  · simp only [if_pos hf] at hspelled ⊢
    rcases hparse with ⟨text, he, he'⟩ | ⟨out, rest, rest', hok, hok', hrest⟩
    · rw [he, he']
      exact .inl ⟨_, rfl, rfl⟩
    · have hlooks : restOf (parseArgs S [] h.node.arguments [] remaining) = some rest := by
        rw [restOf_parseArgs [] (h.usage parent) _ [] existingArgs, hok]
        rfl
      have hlooks' : restOf (parseArgs S [] h.node.arguments [] remaining') = some rest' := by
        rw [restOf_parseArgs [] (h.usage parent) _ [] existingArgs, hok']
        rfl
      rw [hok, hok']
      dsimp only
      split
      · rcases findSubcommand_alike hs hrest fun sub hc =>
            hspelled rest rest' sub hlooks hlooks' hc with
          ⟨hnone, hnone'⟩ | ⟨sub, r, r', hfound, hfound', hr⟩
        · rw [hnone, hnone']
          dsimp only
          rw [finish_alike h parent out hrest]
          split
          · exact .inl ⟨_, rfl, rfl⟩
          · exact .inl ⟨_, rfl, rfl⟩
        · rw [hfound, hfound']
          exact .inr ⟨sub, out, r, r', rfl, rfl, hr⟩
      · rw [finish_alike h parent out hrest]
        exact .inl ⟨_, rfl, rfl⟩
  · simp only [if_neg hf] at hspelled ⊢
    rcases findSubcommand_alike hs halike fun sub hc =>
        hspelled remaining remaining' sub rfl rfl hc with
      ⟨hnone, hnone'⟩ | ⟨sub, r, r', hfound, hfound', hr⟩
    · rw [hnone, hnone']
      dsimp only
      rcases hparse with ⟨text, he, he'⟩ | ⟨out, rest, rest', hok, hok', hrest⟩
      · rw [he, he']
        exact .inl ⟨_, rfl, rfl⟩
      · rw [hok, hok']
        dsimp only
        rw [if_neg fun hc => hf hc.1, if_neg fun hc => hf hc.1, finish_alike h parent out hrest]
        exact .inl ⟨_, rfl, rfl⟩
    · rw [hfound, hfound']
      exact .inr ⟨sub, existingArgs, r, r', rfl, rfl, hr⟩

/-- A plain text spells the words well that call subcommands, and is plain behind them. -/
theorem PlainFrom.spelled {val : Text} (hplain : PlainFrom S bot evt h remaining)
    (hlooks : looksIn S h remaining = some val) (hcalled : called S h val = some sub) :
    Spelled S val ∧
      (sub.node.accepts bot evt = true → PlainFrom S bot evt sub (behind S val)) := by
  cases hplain with
  | stays hstays =>
    rw [hstays val hlooks] at hcalled
    cases hcalled
  | down hlooks' hcalled' hspelled h' =>
    rw [hlooks] at hlooks'
    obtain rfl := Option.some.inj hlooks'
    rw [hcalled] at hcalled'
    obtain rfl := Option.some.inj hcalled'
    exact ⟨hspelled, h'⟩

/-- Texts that are spelled alike spell the word together, and what is behind it too. -/
theorem SpelledAlike.spelled (hspell : SpelledAlike S bot evt h remaining remaining')
    (hlooks : looksIn S h remaining = some val) (hlooks' : looksIn S h remaining' = some val')
    (hcalled : called S h val = some sub) : (Spelled S val ↔ Spelled S val') ∧
      (Spelled S val → sub.node.accepts bot evt = true →
        SpelledAlike S bot evt sub (behind S val) (behind S val')) := by
  cases hspell with
  | stays hstays =>
    rw [hstays val hlooks] at hcalled
    cases hcalled
  | strays hv hv' hspelled hspelled' _ =>
    obtain rfl := Option.some.inj (hlooks.symm.trans hv)
    obtain rfl := Option.some.inj (hlooks'.symm.trans hv')
    exact ⟨iff_of_false hspelled hspelled', fun h => absurd h hspelled⟩
  | down hv hv' hsub hspelled hspelled' h' =>
    obtain rfl := Option.some.inj (hlooks.symm.trans hv)
    obtain rfl := Option.some.inj (hlooks'.symm.trans hv')
    obtain rfl := Option.some.inj (hcalled.symm.trans hsub)
    exact ⟨iff_of_true hspelled hspelled', fun _ => h'⟩

/-- Where they spell it badly they have the same words. -/
theorem SpelledAlike.alike (hspell : SpelledAlike S bot evt h remaining remaining')
    (hlooks : looksIn S h remaining = some val) (hcalled : called S h val = some sub)
    (hspelled : ¬ Spelled S val) : Alike S remaining remaining' := by
  cases hspell with
  | stays hstays =>
    rw [hstays val hlooks] at hcalled
    cases hcalled
  | strays _ _ _ _ halike => exact halike
  | down hv _ _ hwell _ _ =>
    obtain rfl := Option.some.inj (hlooks.symm.trans hv)
    exact absurd hwell hspelled

/-- Two plain spellings are spelled alike. -/
theorem spelledAlike_of_plain (hs : Spellable S h) (hr : Respelled S h remaining remaining')
    (hplain : PlainFrom S bot evt h remaining) (hplain' : PlainFrom S bot evt h remaining') :
    SpelledAlike S bot evt h remaining remaining' := by
  induction hplain generalizing remaining' with
  | stays hstays => exact .stays hstays
  | down hlooks hcalled hspelled _ ih =>
    obtain ⟨val', hlooks', hcalled', hr'⟩ := respelled_down hs hr hlooks hcalled
    obtain ⟨hspelled', hbelow'⟩ := hplain'.spelled hlooks' hcalled'
    exact .down hlooks hlooks' hcalled hspelled hspelled' fun haccepts =>
      ih haccepts (hs.sub (called_mem hcalled)) hr' (hbelow' haccepts)

/-- **Two texts with the same words** that are spelled alike land alike. -/
theorem lands_of_alike (hs : Spellable S h) (halike : Alike S remaining remaining')
    (hspell : SpelledAlike S bot evt h remaining remaining')
    {path : List (CommandHandler F V)} {effect : Option (Effect F V)}
    (hl : Lands S bot evt h parent existingArgs remaining path effect) :
    Lands S bot evt h parent existingArgs remaining' path effect := by
  induction h using tree_induction generalizing parent existingArgs remaining remaining' path effect
    with
  | step h ih =>
    have hturn := turn_alike hs halike (fun val val' sub hlooks hlooks' hcalled =>
      (hspell.spelled hlooks hlooks' hcalled).1) parent existingArgs
    -- both turns end with one effect, or go down to one subcommand
    rcases hturn with ⟨effect', he, he'⟩ | ⟨sub, callArgs, rest, rest', hd, hd', hrest⟩
    · obtain ⟨rfl, rfl⟩ := lands_unique hl (.done he)
      exact .done he'
    · obtain ⟨val, hlooks, hcalled, hspelled⟩ := spelled_of_down hs hd
      obtain ⟨val', hlooks', hcalled', hspelled'⟩ := spelled_of_down hs hd'
      cases haccepts : sub.node.accepts bot evt with
      | false =>
        obtain ⟨rfl, rfl⟩ := lands_unique hl (.dropped hd haccepts)
        exact .dropped hd' haccepts
      | true =>
        obtain ⟨callArgs₁, rest₁, hd₁, hstrip⟩ :=
          down_of_spelled hs hlooks hcalled hspelled parent existingArgs
        obtain ⟨callArgs₂, rest₂, hd₂, hstrip'⟩ :=
          down_of_spelled hs hlooks' hcalled' hspelled' parent existingArgs
        obtain ⟨-, rfl, rfl⟩ := Turn.down.inj (hd.symm.trans hd₁)
        obtain ⟨-, rfl, rfl⟩ := Turn.down.inj (hd'.symm.trans hd₂)
        -- below it the texts are alike again, and spelled alike
        have hbehind := (hspell.spelled hlooks hlooks' hcalled).2 hspelled haccepts
        have halike' : Alike S (behind S val) (behind S val') := by
          rw [← hstrip, ← hstrip', Alike, words_strip, words_strip, hrest]
        cases hl with
        | done hdone =>
          rw [hd] at hdone
          cases hdone
        | dropped hdown hno =>
          rw [hd] at hdown
          cases hdown
          rw [haccepts] at hno
          cases hno
        | down hdown _ hl =>
          rw [hd] at hdown
          cases hdown
          rw [← lands_strip, hstrip] at hl
          have hl' := ih sub (called_mem hcalled) (hs.sub (called_mem hcalled)) halike' hbehind hl
          rw [← hstrip', lands_strip] at hl'
          exact .down hd' haccepts hl'

/-- Spellings that are spelled alike have the same words, or a handler on their way does not take
    the message. -/
theorem alike_of_spelledAlike (hs : Spellable S h) (hr : Respelled S h remaining remaining')
    (hspell : SpelledAlike S bot evt h remaining remaining') :
    Alike S remaining remaining' ∨ ∃ path, ∀ parent existingArgs,
      Lands S bot evt h parent existingArgs remaining path none ∧
      Lands S bot evt h parent existingArgs remaining' path none := by
  induction hr with
  | alike halike => exact .inl halike
  | @down h sub remaining remaining' val val' w w' front ws ws' hlooks hlooks' hval hval' hwords
      hwords' hlower hcalled _ ih =>
    have hcalled' : called S h val' = some sub := by
      rw [← hcalled]
      refine (called_congr _ ?_).symm
      rw [word_eq hval, word_eq hval', hlower]
    by_cases hspelled : Spelled S val
    · obtain ⟨hiff, hbelow⟩ := hspell.spelled hlooks hlooks' hcalled
      have hspelled' : Spelled S val' := hiff.mp hspelled
      -- both words are lowered
      have hw : w = w' := by
        have h₁ := hspelled.lower
        have h₂ := hspelled'.lower
        rw [word_eq hval] at h₁
        rw [word_eq hval'] at h₂
        rw [← h₁, ← h₂, hlower]
      cases haccepts : sub.node.accepts bot evt with
      | false =>
        refine .inr ⟨[sub], fun parent existingArgs => ?_⟩
        obtain ⟨_, _, hd, -⟩ := down_of_spelled hs hlooks hcalled hspelled parent existingArgs
        obtain ⟨_, _, hd', -⟩ := down_of_spelled hs hlooks' hcalled' hspelled' parent existingArgs
        exact ⟨.dropped hd haccepts, .dropped hd' haccepts⟩
      | true =>
        rcases ih (hs.sub (called_mem hcalled)) (hbelow hspelled haccepts) with
          halike | ⟨path, hl⟩
        · left
          rw [Alike, words_behind, words_behind, hval, hval'] at halike
          rw [Alike, hwords, hwords', hw, show ws = ws' from halike]
        · refine .inr ⟨sub :: path, fun parent existingArgs => ?_⟩
          obtain ⟨callArgs, rest, hd, hstrip⟩ :=
            down_of_spelled hs hlooks hcalled hspelled parent existingArgs
          obtain ⟨callArgs', rest', hd', hstrip'⟩ :=
            down_of_spelled hs hlooks' hcalled' hspelled' parent existingArgs
          refine ⟨.down hd haccepts ?_, .down hd' haccepts ?_⟩
          · rw [← lands_strip, hstrip]
            exact (hl _ _).1
          · rw [← lands_strip, hstrip']
            exact (hl _ _).2
    · exact .inl (hspell.alike hlooks hcalled hspelled)

/-- **Two texts that are spelled alike land alike.** -/
theorem lands_of_spelledAlike (hs : Spellable S h) (hr : Respelled S h remaining remaining')
    (hspell : SpelledAlike S bot evt h remaining remaining')
    {path : List (CommandHandler F V)} {effect : Option (Effect F V)} :
    Lands S bot evt h parent existingArgs remaining path effect ↔
      Lands S bot evt h parent existingArgs remaining' path effect := by
  have hforth {path : List (CommandHandler F V)} {effect : Option (Effect F V)}
      (hl : Lands S bot evt h parent existingArgs remaining path effect) :
      Lands S bot evt h parent existingArgs remaining' path effect := by
    rcases alike_of_spelledAlike hs hr hspell with halike | ⟨path', hboth⟩
    · exact lands_of_alike hs halike hspell hl
    · obtain ⟨hdropped, hdropped'⟩ := hboth parent existingArgs
      obtain ⟨rfl, rfl⟩ := lands_unique hl hdropped
      exact hdropped'
  refine ⟨hforth, fun hl' => ?_⟩
  -- a text lands in one place, so it is where the other text lands
  obtain ⟨path₀, effect₀, hl⟩ :
      ∃ path effect, Lands S bot evt h parent existingArgs remaining path effect :=
    exists_lands h parent existingArgs remaining
  obtain ⟨rfl, rfl⟩ := lands_unique hl' (hforth hl)
  exact hl

end Plain

/-! ### Messages -/

end CommandHandler

/-- The message with another text behind its `!`. -/
def Message.withBody (evt : Message) (body : Text) : Message := { evt with body := '!' :: body }

namespace CommandHandler

/-- The message is dispatched: it goes down a path of handlers, and the last one does something or
    does not take it. -/
def DispatchedTo (S : Strings) (bot : Text) (evt : Message) (h : CommandHandler F V)
    (path : List (CommandHandler F V)) (effect : Option (Effect F V)) : Prop :=
  ∃ body, Accepts S bot evt h body ∧
    Lands S bot evt h none [] (splitInTwo body).2 path effect

/-- Two bodies with the same words, up to the case of those that call commands. -/
structure BodyRespelled (S : Strings) (h : CommandHandler F V) (body body' : Text) : Prop where
  word  : first S.space body ≠ []
  word' : first S.space body' ≠ []
  lower : S.lower (first S.space body) = S.lower (first S.space body')
  rest  : Respelled S h (strip S.space (after S.space body)) (strip S.space (after S.space body'))

/-- Where the root takes the message, a blank follows the command, and the rest is plain. -/
def Plain (S : Strings) (bot : Text) (evt : Message) (h : CommandHandler F V) (body : Text) :
    Prop :=
  h.node.accepts bot evt = true → h.isCommandMatch (S.lower (first S.space body)) = true →
    BlankNext S body ∧ PlainFrom S bot evt h (strip S.space (after S.space body))

/-- Where the root takes the message, a blank follows the command in both bodies or in neither, and
    then the rest is spelled alike. -/
def BodySpelledAlike (S : Strings) (bot : Text) (evt : Message) (h : CommandHandler F V)
    (body body' : Text) : Prop :=
  h.node.accepts bot evt = true → h.isCommandMatch (S.lower (first S.space body)) = true →
    (BlankNext S body ↔ BlankNext S body') ∧
    (BlankNext S body → SpelledAlike S bot evt h (strip S.space (after S.space body))
      (strip S.space (after S.space body')))

/-- Both bodies are dispatched to the same handler, which does the same, or none is. -/
def SameDispatch (S : Strings) (bot : Text) (evt : Message) (h : CommandHandler F V)
    (body body' : Text) : Prop :=
  ∀ path effect, DispatchedTo S bot (evt.withBody body) h path effect ↔
    DispatchedTo S bot (evt.withBody body') h path effect

section Messages

variable {h : CommandHandler F V} {path : List (CommandHandler F V)}
  {effect : Option (Effect F V)} {body body' : Text}

/-- What `handle` does is the effect at the end of the way. -/
theorem handle_of_dispatchedTo (hd : DispatchedTo S bot evt h path effect) :
    h.handle S bot evt = effect.toList := by
  obtain ⟨body, haccepts, hl⟩ := hd
  rw [handle_of_accepts haccepts, dispatch_of_lands hl]

/-- Which handlers take a message does not depend on its body. -/
theorem lands_of_body {evt' : Message} (hsender : evt.sender = evt'.sender)
    (hmsgtype : evt.msgtype = evt'.msgtype) {parent : Option Text} {existingArgs : CallArgs V}
    {remaining : Text} (hl : Lands S bot evt h parent existingArgs remaining path effect) :
    Lands S bot evt' h parent existingArgs remaining path effect := by
  have haccepts : ∀ node : Node F V, node.accepts bot evt' = node.accepts bot evt := by
    intro node
    rw [Node.accepts, Node.accepts, hsender, hmsgtype]
  induction hl with
  | done hturn => exact .done hturn
  | dropped hturn hno => exact .dropped hturn ((haccepts _).trans hno)
  | down hturn hyes _ ih => exact .down hturn ((haccepts _).trans hyes) ih

/-- The way depends on the body and on who sent it. -/
theorem lands_withBody {remaining : Text} :
    Lands S bot (evt.withBody body) h none [] remaining path effect ↔
      Lands S bot evt h none [] remaining path effect := by
  have hsender : (evt.withBody body).sender = evt.sender := rfl
  have hmsgtype : (evt.withBody body).msgtype = evt.msgtype := rfl
  exact ⟨lands_of_body hsender hmsgtype, lands_of_body hsender.symm hmsgtype.symm⟩

/-- **Which messages are dispatched**: those whose first word, in any case, calls the root and has
    a blank behind it. -/
theorem dispatchedTo_iff (hs : Spellable S h)
    (hlower : ∀ t, (∀ c ∈ S.lower t, S.space c = false) → ∀ c ∈ t, S.space c = false) :
    DispatchedTo S bot (evt.withBody body) h path effect ↔ h.node.accepts bot evt = true ∧
      h.isCommandMatch (S.lower (first S.space body)) = true ∧ BlankNext S body ∧
        Lands S bot evt h none [] (strip S.space (after S.space body)) path effect := by
  constructor
  · rintro ⟨b, ha, hl⟩
    obtain rfl : body = b := (List.cons.inj ha.text).2
    have hno := hlower _ (hs.no_space h (.root h) _ ha.command)
    obtain ⟨htoken, hblank⟩ := splitInTwo_of_no_space hno
    have hcommand := ha.command
    rw [htoken] at hcommand
    refine ⟨ha.accepts, hcommand, hblank, ?_⟩
    rw [← (splitInTwo_of_blank hblank).2, lands_strip]
    exact lands_withBody.mp hl
  · rintro ⟨haccepts, hcommand, hblank, hl⟩
    obtain ⟨htoken, hstrip⟩ := splitInTwo_of_blank hblank
    rw [← htoken] at hcommand
    rw [← hstrip, lands_strip] at hl
    exact ⟨body, ⟨haccepts, rfl, hcommand⟩, lands_withBody.mpr hl⟩

/-- Bodies that are spelled alike are dispatched alike. -/
theorem same_of_bodySpelledAlike (hs : Spellable S h)
    (hlower : ∀ t, (∀ c ∈ S.lower t, S.space c = false) → ∀ c ∈ t, S.space c = false)
    (hr : BodyRespelled S h body body') (hspell : BodySpelledAlike S bot evt h body body') :
    SameDispatch S bot evt h body body' := by
  intro path effect
  rw [dispatchedTo_iff hs hlower, dispatchedTo_iff hs hlower, ← hr.lower]
  refine and_congr_right fun haccepts => and_congr_right fun hcommand => ?_
  obtain ⟨hblank, hrest⟩ := hspell haccepts hcommand
  rw [← hblank]
  exact and_congr_right fun h => lands_of_spelledAlike hs hr.rest (hrest h)

/-- Two plain bodies are spelled alike. -/
theorem bodySpelledAlike_of_plain (hs : Spellable S h) (hr : BodyRespelled S h body body')
    (hplain : Plain S bot evt h body) (hplain' : Plain S bot evt h body') :
    BodySpelledAlike S bot evt h body body' := by
  intro haccepts hcommand
  have hcommand' := hcommand
  rw [hr.lower] at hcommand'
  obtain ⟨hblank, hfrom⟩ := hplain haccepts hcommand
  obtain ⟨hblank', hfrom'⟩ := hplain' haccepts hcommand'
  exact ⟨iff_of_true hblank hblank', fun _ => spelledAlike_of_plain hs hr.rest hfrom hfrom'⟩

/-- **A body that is dispatched like a plain one** is plain. -/
theorem plain_of_sameDispatch (hs : Spellable S h)
    (hlower : ∀ t, (∀ c ∈ S.lower t, S.space c = false) → ∀ c ∈ t, S.space c = false)
    (hr : BodyRespelled S h body body') (hplain : Plain S bot evt h body)
    (hsame : SameDispatch S bot evt h body body') : Plain S bot evt h body' := by
  intro haccepts hcommand'
  have hcommand := hcommand'
  rw [← hr.lower] at hcommand
  obtain ⟨hblank, hfrom⟩ := hplain haccepts hcommand
  have hlands : ∀ path effect,
      Lands S bot evt h none [] (strip S.space (after S.space body)) path effect →
      BlankNext S body' ∧
        Lands S bot evt h none [] (strip S.space (after S.space body')) path effect := by
    intro path effect hl
    have hd := (dispatchedTo_iff hs hlower).mpr ⟨haccepts, hcommand, hblank, hl⟩
    exact ((dispatchedTo_iff hs hlower).mp ((hsame path effect).mp hd)).2.2
  obtain ⟨path, effect, hl⟩ : ∃ path effect,
      Lands S bot evt h none [] (strip S.space (after S.space body)) path effect :=
    exists_lands _ _ _ _
  refine ⟨(hlands path effect hl).1, ?_⟩
  exact plain_of_same hs hfrom hr.rest fun path effect hl => ⟨effect, (hlands path effect hl).2⟩

/-- A body with other whitespace behind its command is not dispatched, and another spelling of it is
    if it has a blank there. -/
theorem same_iff_of_not_blank (hs : Spellable S h)
    (hlower : ∀ t, (∀ c ∈ S.lower t, S.space c = false) → ∀ c ∈ t, S.space c = false)
    (hr : BodyRespelled S h body body') (haccepts : h.node.accepts bot evt = true)
    (hcommand : h.isCommandMatch (S.lower (first S.space body)) = true)
    (hno : ¬ BlankNext S body) :
    SameDispatch S bot evt h body body' ↔ ¬ BlankNext S body' := by
  constructor
  · intro hsame hblank'
    obtain ⟨path, effect, hl⟩ : ∃ path effect,
        Lands S bot evt h none [] (strip S.space (after S.space body')) path effect :=
      exists_lands _ _ _ _
    have hcommand' := hcommand
    rw [hr.lower] at hcommand'
    have hd' := (dispatchedTo_iff hs hlower).mpr ⟨haccepts, hcommand', hblank', hl⟩
    obtain ⟨-, -, hblank, -⟩ := (dispatchedTo_iff hs hlower).mp ((hsame path effect).mpr hd')
    exact hno hblank
  · intro hno'
    exact same_of_bodySpelledAlike hs hlower hr fun _ _ =>
      ⟨iff_of_false hno hno', fun hblank => absurd hblank hno⟩

/-- **Two spellings of a message** are dispatched alike if their command words are spelled alike.
    That is so if both are plain, and another spelling of a plain body is dispatched alike only if
    it is plain too.  It is also so if both have other whitespace than a blank behind the command,
    and another spelling of such a body is dispatched alike only if it has it too. -/
theorem same_of_spelledAlike (hs : Spellable S h)
    (hlower : ∀ t, (∀ c ∈ S.lower t, S.space c = false) → ∀ c ∈ t, S.space c = false)
    (hr : BodyRespelled S h body body') :
    (BodySpelledAlike S bot evt h body body' → SameDispatch S bot evt h body body') ∧
    (Plain S bot evt h body →
      (SameDispatch S bot evt h body body' ↔ Plain S bot evt h body')) ∧
    (h.node.accepts bot evt = true →
      h.isCommandMatch (S.lower (first S.space body)) = true → ¬ BlankNext S body →
      (SameDispatch S bot evt h body body' ↔ ¬ BlankNext S body')) := by
  refine ⟨same_of_bodySpelledAlike hs hlower hr, fun hplain => ?_,
    same_iff_of_not_blank hs hlower hr⟩
  exact ⟨plain_of_sameDispatch hs hlower hr hplain, fun hplain' =>
    same_of_bodySpelledAlike hs hlower hr (bodySpelledAlike_of_plain hs hr hplain hplain')⟩

end Messages

end CommandHandler

/-! ### A subcommand in capitals -/

namespace CommandTest

open CommandHandler

/-- `@echo.subcommand("loud")` -/
def loud : CommandHandler String Unit :=
  new "loud".toList none .none [] true true true (ofFunc "loud" "loud".toList)

/-- The command of the witness has one subcommand. -/
theorem subcommands_echo : echo.subcommands = [loud] := rfl

/-- There are two handlers in its tree, -/
theorem within_echo {handler : CommandHandler String Unit} (hw : Within handler echo) :
    handler = echo ∨ handler = loud := by
  cases hw with
  | root => exact .inl rfl
  | sub hsub hw =>
    rw [subcommands_echo] at hsub
    obtain rfl := List.mem_singleton.mp hsub
    cases hw with
    | root => exact .inr rfl
    | sub hsub _ => cases hsub

/-- each with its name. -/
theorem match_echo {handler : CommandHandler String Unit} (hw : Within handler echo) {val : Text}
    (hm : handler.isCommandMatch val = true) : val = "echo".toList ∨ val = "loud".toList := by
  rcases within_echo hw with rfl | rfl
  · exact .inl (of_decide_eq_true hm)
  · exact .inr (of_decide_eq_true hm)

/-- So the tree is spellable. -/
theorem spellable_echo : Spellable strings echo where
  lower handler hw val hm := by
    rcases match_echo hw hm with rfl | rfl <;> decide
  no_space handler hw val hm := by
    have hfirst : first strings.space val = val := by
      rcases match_echo hw hm with rfl | rfl <;> decide
    rw [← hfirst]
    exact fun _ => first_no_space
  wordy handler hw arg harg := by
    rcases within_echo hw with rfl | rfl <;> cases harg

/-- Lowering keeps whitespace. -/
theorem no_space_of_lower (t : Text) (h : ∀ c ∈ strings.lower t, strings.space c = false) :
    ∀ c ∈ t, strings.space c = false := by
  intro c hc
  have hlower := h c.toLower (List.mem_map_of_mem hc)
  by_contra hno
  have hspace : strings.space c = true := by simpa using hno
  have hc' : c = ' ' ∨ c = '\t' ∨ c = '\n' := by
    simpa [strings, or_assoc] using hspace
  rcases hc' with rfl | rfl | rfl <;> exact absurd hlower (by decide)

/-- A text that is split before the subcommand. -/
theorem plain_loud {remaining : Text} (hword : word strings remaining = "loud".toList)
    (hblank : BlankNext strings (strip strings.space remaining)) (evt : Message) :
    PlainFrom strings botId evt echo remaining := by
  have hlooks : looksIn strings echo remaining = some remaining := rfl
  have hcalled : called strings echo remaining = some loud := by
    rw [called, hword]
    rfl
  have hlower : strings.lower (word strings remaining) = word strings remaining := by
    rw [hword]
    decide
  exact .down hlooks hcalled ⟨hlower, hblank⟩ fun _ => .stays fun _ _ => rfl

/-- Nothing behind the word is blank. -/
theorem blankNext_of_nil {val : Text} (h : after strings.space val = []) :
    BlankNext strings val := by
  intro c t heq
  rw [h] at heq
  cases heq

/-- A body with a blank behind the command. -/
theorem plain_body_loud {body t : Text} (hafter : after strings.space body = ' ' :: t)
    (hword : word strings (strip strings.space (after strings.space body)) = "loud".toList)
    (hblank : BlankNext strings
      (strip strings.space (strip strings.space (after strings.space body)))) (evt : Message) :
    Plain strings botId evt echo body := by
  intro _ _
  refine ⟨fun c t heq => ?_, plain_loud hword hblank evt⟩
  rw [hafter] at heq
  exact (List.cons.inj heq).1.symm

/-- The message of the witness is plain. -/
theorem plain_echo_loud (evt : Message) :
    Plain strings botId evt echo "echo loud".toList := by
  have hafter : after strings.space "echo loud".toList = " loud".toList := rfl
  exact plain_body_loud hafter (by decide) (blankNext_of_nil (by decide)) evt

end CommandTest

open CommandTest CommandHandler in
/-- Capitals in the command, and more blanks. -/
theorem same_of_spelledAlike_loud :
    SameDispatch strings botId (echoLoud .text) echo "echo loud".toList "ECHO  loud".toList := by
  have hplain := plain_echo_loud (echoLoud .text)
  have hafter : after strings.space "ECHO  loud".toList = "  loud".toList := rfl
  have hplain' := plain_body_loud hafter (by decide) (blankNext_of_nil (by decide))
    (echoLoud .text)
  have hresp : BodyRespelled strings echo "echo loud".toList "ECHO  loud".toList :=
    ⟨by decide, by decide, by decide, .alike (by unfold Alike; decide)⟩
  have hiff := (same_of_spelledAlike spellable_echo no_space_of_lower hresp).2.1 hplain
  exact hiff.mpr hplain'

open CommandTest CommandHandler in
/-- Capitals in the subcommand. -/
theorem not_same_capitals :
    BodyRespelled strings echo "echo loud".toList "echo LOUD".toList ∧
    ¬ SameDispatch strings botId (echoLoud .text) echo "echo loud".toList "echo LOUD".toList := by
  have hlooks : looksIn strings echo "loud".toList = some "loud".toList := rfl
  have hlooks' : looksIn strings echo "LOUD".toList = some "LOUD".toList := rfl
  have hcalled : called strings echo "loud".toList = some loud := rfl
  have hwords : words strings.space "loud".toList = [] ++ ["loud".toList] := rfl
  have hwords' : words strings.space "LOUD".toList = [] ++ ["LOUD".toList] := rfl
  have hresp : BodyRespelled strings echo "echo loud".toList "echo LOUD".toList :=
    ⟨by decide, by decide, by decide,
      .down hlooks hlooks' rfl rfl hwords hwords' (by decide) hcalled (.alike rfl)⟩
  refine ⟨hresp, fun hsame => ?_⟩
  have hplain := plain_echo_loud (echoLoud .text)
  have hplain' := plain_of_sameDispatch spellable_echo no_space_of_lower hresp hplain hsame
  obtain ⟨-, hfrom⟩ := hplain' (by decide) (by decide)
  have hlower := (hfrom.spelled hlooks' rfl).1.lower
  exact absurd hlower (by decide)

end Maubot.Command
