import Maubot.Handlers.Dispatch

namespace Maubot.Command

/-!
# Commands — what the usage says

The usage of a handler starts with `__mb_prefix__`: the name of the handler, and before it the
name of its parent.  A message goes down the whole tree.

* `Leads` — the way of a message;
* `prefix_dispatches_iff` — when the prefix of a handler leads to it.
-/

open Words

variable {S : Strings} {F V : Type} {bot : Text} {evt : Message}

namespace CommandHandler

/-- The message goes down a path, through handlers that take it. -/
inductive Leads (S : Strings) (bot : Text) (evt : Message) : CommandHandler F V → Option Text →
    CallArgs V → Text → List (CommandHandler F V) → Text → Prop
  | here (h : CommandHandler F V) (parent : Option Text) (callArgs : CallArgs V)
      (remaining : Text) : Leads S bot evt h parent callArgs remaining [] remaining
  | down {h sub : CommandHandler F V} {path : List (CommandHandler F V)} {parent : Option Text}
      {existingArgs callArgs : CallArgs V} {remaining rest val : Text}
      (hturn : h.turn S parent existingArgs remaining = .down sub callArgs rest)
      (haccepts : sub.node.accepts bot evt = true)
      (h' : Leads S bot evt sub (some h.node.name) callArgs rest path val) :
      Leads S bot evt h parent existingArgs remaining (sub :: path) val

/-- Each handler is a subcommand of the one before it. -/
def IsPath : CommandHandler F V → List (CommandHandler F V) → Prop
  | _, []          => True
  | h, sub :: path => sub ∈ h.subcommands ∧ sub.IsPath path

/-- The handlers above the last one take no arguments. -/
def NoArguments : CommandHandler F V → List (CommandHandler F V) → Prop
  | _, []          => True
  | h, sub :: path => h.node.arguments = [] ∧ sub.NoArguments path

/-- The last handler of a path. -/
def target : CommandHandler F V → List (CommandHandler F V) → CommandHandler F V
  | h, []          => h
  | _, sub :: path => sub.target path

/-- The name of the handler before the last one. -/
def parentName : CommandHandler F V → List (CommandHandler F V) → Option Text
  | _, []               => none
  | h, [_]              => some h.node.name
  | _, sub :: s :: path => sub.parentName (s :: path)

/-- A name that a word of a message can be. -/
structure Proper (S : Strings) (name : Text) : Prop where
  ne_nil   : name ≠ []
  no_space : ∀ c ∈ name, S.space c = false
  lower    : S.lower name = name

/-- The names of the tree are proper, those of siblings are distinct, and no handler answers to
    the empty word. -/
structure Tidy (S : Strings) (h : CommandHandler F V) : Prop where
  proper   : ∀ handler, Within handler h → Proper S handler.node.name
  distinct : ∀ handler, Within handler h →
    (handler.subcommands.map fun sub => sub.node.name).Nodup
  answers  : ∀ handler, Within handler h → handler.isCommandMatch [] = false

/-- The arguments of the last handler of the path are parsed from the text, and nothing else has
    been done before. -/
def Dispatched (S : Strings) (bot : Text) (evt : Message) (h : CommandHandler F V)
    (path : List (CommandHandler F V)) (text : Text) : Prop :=
  ∃ body, Accepts S bot evt h body ∧ ∃ val,
    Leads S bot evt h none [] (splitInTwo body).2 path val ∧ (h.target path).Parses S val ∧
      strip S.space val = strip S.space text

/-- The last handler of a path answers to its name, and no sibling before it does. -/
def Answers (h : CommandHandler F V) : List (CommandHandler F V) → Prop
  | []          => True
  | sub :: path =>
    (h.subcommands.find? fun s => s.isCommandMatch sub.node.name) = some sub ∧ sub.Answers path

/-! ### The text that a handler sees -/

/-- Spaces around the text do not matter to who is found, -/
theorem findSubcommand_congr (h : CommandHandler F V) {val val' : Text}
    (heq : strip S.space val = strip S.space val') :
    h.findSubcommand S val = h.findSubcommand S val' := by
  rw [findSubcommand, findSubcommand, heq]

/-- nor to whether the arguments are parsed. -/
theorem parses_congr (h : CommandHandler F V) {val val' : Text}
    (heq : strip S.space val = strip S.space val') : h.Parses S val ↔ h.Parses S val' := by
  rw [Parses, Parses, findSubcommand_congr h heq]

/-- A name without spaces has no blank. -/
theorem ne_blank {name : Text} (hname : ∀ c ∈ name, S.space c = false) :
    ∀ c ∈ name, (c != ' ') = true := by
  intro c hc
  rw [bne_iff_ne]
  rintro rfl
  have hspace := hname ' ' hc
  rw [S.space_blank] at hspace
  cases hspace

/-- So it is split from the text behind it, -/
theorem splitInTwo_append {name : Text} (hname : ∀ c ∈ name, S.space c = false) (text : Text) :
    splitInTwo (name ++ ' ' :: text) = (name, text) := by
  have hne := ne_blank hname
  rw [splitInTwo, List.takeWhile_append_of_pos hne, List.dropWhile_append_of_pos hne]
  simp

/-- or stands alone. -/
theorem splitInTwo_word {name : Text} (hname : ∀ c ∈ name, S.space c = false) :
    splitInTwo name = (name, []) := by
  have hne := ne_blank hname
  rw [splitInTwo, List.takeWhile_eq_self_iff.mpr hne, List.dropWhile_eq_nil_iff.mpr hne]
  rfl

/-- The next word of a text that is handed down. -/
theorem splitInTwo_strip {name : Text} (hname : Proper S name) (text : Text) :
    ∃ rest, splitInTwo (strip S.space (name ++ ' ' :: text)) = (name, rest) ∧
      strip S.space rest = strip S.space text := by
  by_cases hblank : strip S.space text = []
  · have hspaces : ∀ c ∈ ' ' :: text, S.space c = true := by
      intro c hc
      rcases List.mem_cons.mp hc with rfl | hc
      · exact S.space_blank
      · exact spaces_of_strip hblank c hc
    refine ⟨[], ?_, hblank.symm⟩
    rw [strip_word_spaces hname.no_space hspaces, splitInTwo_word hname.no_space]
  · have hcons : strip S.space (' ' :: text) = strip S.space text := by
      rw [strip, lstrip_cons_space S.space_blank]
      rfl
    have hdrop : (' ' :: text).rdropWhile S.space = ' ' :: text.rdropWhile S.space := by
      have hrest : ¬ (text.reverse.dropWhile S.space).isEmpty = true := by
        intro hempty
        refine hblank (strip_of_spaces fun c hc => ?_)
        exact List.dropWhile_eq_nil_iff.mp (List.isEmpty_iff.mp hempty) c
          (List.mem_reverse.mpr hc)
      rw [List.rdropWhile, List.reverse_cons, List.dropWhile_append, if_neg hrest,
        List.reverse_append]
      rfl
    refine ⟨text.rdropWhile S.space, ?_, strip_rdropWhile text⟩
    rw [strip_word_append hname.no_space hname.ne_nil (by rw [hcons]; exact hblank), hdrop,
      splitInTwo_append hname.no_space]

/-- A handler without arguments hands the text down as it is. -/
theorem turn_down_iff {h sub : CommandHandler F V} (hargs : h.node.arguments = [])
    {parent : Option Text} {existingArgs callArgs : CallArgs V} {remaining rest : Text} :
    h.turn S parent existingArgs remaining = .down sub callArgs rest ↔
      callArgs = existingArgs ∧ h.findSubcommand S remaining = some (sub, rest) := by
  have hparse : parseArgs S (h.usage parent) h.node.arguments existingArgs remaining =
      .ok (existingArgs, remaining) := by
    rw [hargs]
    rfl
  constructor
  · intro hturn
    have htook := took S h parent existingArgs remaining
    rw [hturn] at htook
    cases htook with
    | before _ hfound => exact ⟨rfl, hfound⟩
    | behind _ hok _ hfound =>
      rw [hparse] at hok
      cases hok
      exact ⟨rfl, hfound⟩
  · rintro ⟨rfl, hfound⟩
    unfold turn
    by_cases hf : h.node.argFallthrough = true
    · have hsubs : ¬ h.subcommands.isEmpty = true := not_isEmpty_of_findSubcommand hfound
      rw [if_pos hf, hparse]
      dsimp only
      rw [if_pos ⟨hf, hsubs⟩, hfound]
    · rw [if_neg hf, hfound]

/-! ### Words on the way -/

/-- Each step down takes a word. -/
theorem words_findSubcommand {h sub : CommandHandler F V} {remaining rest : Text}
    (hanswers : sub.isCommandMatch [] = false)
    (hfound : h.findSubcommand S remaining = some (sub, rest)) :
    (words S.space rest).length + 1 ≤ (words S.space remaining).length := by
  unfold findSubcommand at hfound
  obtain ⟨found, hfind, heq⟩ := Option.map_eq_some_iff.mp hfound
  obtain ⟨rfl, rfl⟩ := Prod.mk.inj heq
  have hmatch := List.find?_some hfind
  rw [← words_strip remaining]
  generalize hval : strip S.space remaining = val at hmatch ⊢
  -- what is cut off has a word, since no subcommand answers to nothing
  have hcommand : val.takeWhile (· != ' ') ≠ [] := by
    intro hnil
    rw [show (splitInTwo val).1 = [] from hnil, hanswers] at hmatch
    cases hmatch
  have hsplit := List.takeWhile_append_dropWhile (p := fun c : Char => c != ' ') (l := val)
  obtain ⟨c, t, ht⟩ := List.exists_cons_of_ne_nil hcommand
  have hword : 1 ≤ (words S.space (val.takeWhile (· != ' '))).length := by
    have hhead : S.space c = false := by
      rw [ht, List.cons_append] at hsplit
      exact strip_head (hval.trans hsplit.symm)
    rw [ht, words_cons hhead, List.length_cons]
    omega
  cases hdrop : val.dropWhile (· != ' ') with
  | nil =>
    rw [hdrop, List.append_nil] at hsplit
    rw [splitInTwo, hdrop, ← hsplit]
    simpa using hword
  | cons d rest =>
    obtain rfl : d = ' ' := by
      have hne : val.dropWhile (· != ' ') ≠ [] := by
        rw [hdrop]
        nofun
      have hhead := List.head_dropWhile_not (fun c : Char => c != ' ') hne
      simpa [hdrop] using hhead
    rw [hdrop] at hsplit
    rw [splitInTwo, hdrop, ← hsplit, words_append_space S.space_blank, List.length_append]
    show (words S.space rest).length + 1 ≤ _
    omega

/-- The handlers below a tidy one are tidy. -/
theorem Tidy.sub {h sub : CommandHandler F V} (ht : Tidy S h) (hsub : sub ∈ h.subcommands) :
    Tidy S sub where
  proper handler hw   := ht.proper handler (.sub hsub hw)
  distinct handler hw := ht.distinct handler (.sub hsub hw)
  answers handler hw  := ht.answers handler (.sub hsub hw)

/-- **Words on the way.** -/
theorem words_leads {h : CommandHandler F V} {path : List (CommandHandler F V)}
    {parent : Option Text} {callArgs : CallArgs V} {remaining val : Text}
    (hleads : Leads S bot evt h parent callArgs remaining path val) (ht : Tidy S h)
    (hargs : h.NoArguments path) :
    (words S.space val).length + path.length ≤ (words S.space remaining).length := by
  induction hleads with
  | here => exact le_refl _
  | down hturn _ _ ih =>
    have hsub := mem_of_down hturn
    obtain ⟨-, hfound⟩ := (turn_down_iff hargs.1).mp hturn
    have hstep := words_findSubcommand (ht.answers _ (.sub hsub (.root _))) hfound
    have hrest := ih (ht.sub hsub) hargs.2
    rw [List.length_cons]
    omega

/-! ### The prefix -/

/-- The command of a message that starts with the name of the root. -/
theorem accepts_iff {h : CommandHandler F V} (hname : Proper S h.node.name) {text body : Text}
    (hbody : evt.body = '!' :: h.node.name ++ ' ' :: text) :
    Accepts S bot evt h body ↔ body = h.node.name ++ ' ' :: text ∧
      h.node.accepts bot evt = true ∧ h.isCommandMatch h.node.name = true := by
  constructor
  · intro ha
    have heq : body = h.node.name ++ ' ' :: text :=
      (List.cons.inj (ha.text.symm.trans hbody)).2
    have hcommand := ha.command
    rw [heq, splitInTwo_append hname.no_space] at hcommand
    dsimp only at hcommand
    rw [hname.lower] at hcommand
    exact ⟨heq, ha.accepts, hcommand⟩
  · rintro ⟨rfl, haccepts, hmatch⟩
    refine ⟨haccepts, hbody, ?_⟩
    rw [splitInTwo_append hname.no_space]
    dsimp only
    rwa [hname.lower]

/-- The root is dispatched to with the text behind its name. -/
theorem dispatched_root_iff {root : CommandHandler F V} (hname : Proper S root.node.name)
    {text : Text} (hbody : evt.body = root.mbPrefix none ++ ' ' :: text) :
    Dispatched S bot evt root [] text ↔ root.node.accepts bot evt = true ∧
      root.isCommandMatch root.node.name = true ∧ root.Parses S text := by
  have hiff : ∀ body, Accepts S bot evt root body ↔ _ := fun _ => accepts_iff hname hbody
  constructor
  · rintro ⟨body, ha, val, hleads, hparses, heq⟩
    obtain ⟨-, haccepts, hmatch⟩ := (hiff body).mp ha
    exact ⟨haccepts, hmatch, (parses_congr root heq).mp hparses⟩
  · rintro ⟨haccepts, hmatch, hparses⟩
    refine ⟨_, (hiff _).mpr ⟨rfl, haccepts, hmatch⟩, text, ?_, hparses, rfl⟩
    rw [splitInTwo_append hname.no_space]
    exact .here root none [] text

/-- A subcommand of the root is dispatched to with the text behind the two names. -/
theorem dispatched_sub_iff {root sub : CommandHandler F V} (hroot : Proper S root.node.name)
    (hsub : Proper S sub.node.name) (hargs : root.node.arguments = []) {text : Text}
    (hbody : evt.body = sub.mbPrefix (some root.node.name) ++ ' ' :: text) :
    Dispatched S bot evt root [sub] text ↔ root.node.accepts bot evt = true ∧
      root.isCommandMatch root.node.name = true ∧ sub.node.accepts bot evt = true ∧
        root.Answers [sub] ∧ sub.Parses S text := by
  have hbody' : evt.body = '!' :: root.node.name ++ ' ' :: (sub.node.name ++ ' ' :: text) := by
    rw [hbody, mbPrefix]
    simp
  have hiff : ∀ body, Accepts S bot evt root body ↔ _ := fun _ => accepts_iff hroot hbody'
  obtain ⟨rest, hsplit, hrest⟩ := splitInTwo_strip hsub text
  -- the subcommand is found by its name, since its siblings have others
  have hfind : ∀ s r, root.findSubcommand S (sub.node.name ++ ' ' :: text) = some (s, r) ↔
      (root.subcommands.find? fun c => c.isCommandMatch sub.node.name) = some s ∧ rest = r := by
    intro s r
    unfold findSubcommand
    rw [hsplit]
    simp [Option.map_eq_some_iff]
  constructor
  · rintro ⟨body, ha, val, hleads, hparses, heq⟩
    obtain ⟨rfl, haccepts, hmatch⟩ := (hiff body).mp ha
    rw [splitInTwo_append hroot.no_space] at hleads
    cases hleads with
    | down hturn hsubAccepts h' =>
      cases h' with
      | here =>
        obtain ⟨-, hfound⟩ := (turn_down_iff hargs).mp hturn
        obtain ⟨hanswers, -⟩ := (hfind _ _).mp hfound
        exact ⟨haccepts, hmatch, hsubAccepts, ⟨hanswers, trivial⟩,
          (parses_congr sub heq).mp hparses⟩
  · rintro ⟨haccepts, hmatch, hsubAccepts, ⟨hanswers, -⟩, hparses⟩
    refine ⟨_, (hiff _).mpr ⟨rfl, haccepts, hmatch⟩, rest, ?_,
      (parses_congr sub hrest.symm).mp hparses, hrest⟩
    rw [splitInTwo_append hroot.no_space]
    exact .down ((turn_down_iff hargs).mpr ⟨rfl, (hfind _ _).mpr ⟨hanswers, rfl⟩⟩) hsubAccepts
      (.here _ _ _ _)

/-- The handler at the end of a path is within the tree, -/
theorem target_within (h : CommandHandler F V) {path : List (CommandHandler F V)}
    (hpath : h.IsPath path) : Within (h.target path) h := by
  induction path generalizing h with
  | nil => exact .root h
  | cons sub path ih => exact .sub hpath.1 (ih sub hpath.2)

/-- and so is its parent. -/
theorem parentName_within (h sub : CommandHandler F V) {path : List (CommandHandler F V)}
    (hpath : h.IsPath (sub :: path)) :
    ∃ parent, Within parent h ∧ h.parentName (sub :: path) = some parent.node.name := by
  induction path generalizing h sub with
  | nil => exact ⟨h, .root h, rfl⟩
  | cons s path ih =>
    obtain ⟨parent, hw, hname⟩ := ih sub s hpath.2
    exact ⟨parent, .sub hpath.1 hw, hname⟩

/-- The names that the prefix leaves out are missing. -/
theorem not_dispatched_deeper {root s sub : CommandHandler F V}
    {path : List (CommandHandler F V)} (ht : Tidy S root) (hpath : root.IsPath (s :: sub :: path))
    (hargs : root.NoArguments (s :: sub :: path)) {text : Text}
    (hbody : evt.body = (root.target (s :: sub :: path)).mbPrefix
      (root.parentName (s :: sub :: path)) ++ ' ' :: text) :
    ¬ Dispatched S bot evt root (s :: sub :: path) text := by
  rintro ⟨body, ha, val, hleads, -, heq⟩
  obtain ⟨parent, hparent, hname⟩ := parentName_within root s hpath
  have htarget := ht.proper _ (target_within root hpath)
  generalize root.target (s :: sub :: path) = handler at hbody htarget
  rw [hname, mbPrefix, ha.text] at hbody
  have hbody' : body = parent.node.name ++ ' ' :: (handler.node.name ++ ' ' :: text) := by
    simpa using hbody
  rw [hbody', splitInTwo_append (ht.proper _ hparent).no_space] at hleads
  have hwords := words_leads hleads ht hargs
  rw [words_append_space S.space_blank, words_word htarget.no_space htarget.ne_nil,
    List.length_append, List.length_singleton, ← words_strip val, heq, words_strip,
    List.length_cons, List.length_cons] at hwords
  omega

/-- **What the prefix leads to.**  The handler whose usage shows it, exactly if that is the root
    or a subcommand of the root, takes such messages as the root does, answers to its name, and
    does not take the text for one of its subcommands before its arguments. -/
theorem prefix_dispatches_iff {root : CommandHandler F V} {path : List (CommandHandler F V)}
    (ht : Tidy S root) (hpath : root.IsPath path) (hargs : root.NoArguments path) {text : Text}
    (hbody : evt.body = (root.target path).mbPrefix (root.parentName path) ++ ' ' :: text) :
    Dispatched S bot evt root path text ↔ path.length ≤ 1 ∧
      (∀ h ∈ root :: path, h.node.accepts bot evt = true) ∧
      root.isCommandMatch root.node.name = true ∧ root.Answers path ∧
      (root.target path).Parses S text := by
  have hroot := ht.proper root (.root root)
  match path with
  | [] =>
    rw [dispatched_root_iff hroot hbody]
    simp only [List.length_nil, Nat.zero_le, List.mem_singleton, forall_eq, true_and, target,
      Answers]
  | [sub] =>
    rw [dispatched_sub_iff hroot (ht.proper sub (.sub hpath.1 (.root sub))) hargs.1 hbody]
    simp only [List.length_singleton, le_refl, List.forall_mem_cons, List.not_mem_nil,
      IsEmpty.forall_iff, implies_true, and_true, true_and, target]
    tauto
  | s :: sub :: path =>
    constructor
    · exact fun h => absurd h (not_dispatched_deeper ht hpath hargs hbody)
    · rintro ⟨hle, -⟩
      simp at hle

/-- Without aliases, every handler of a tidy tree answers to its name before its siblings do. -/
theorem answers_of_plain {h : CommandHandler F V} {path : List (CommandHandler F V)}
    (ht : Tidy S h) (hplain : ∀ handler, Within handler h → handler.node.aliases = .none)
    (hpath : h.IsPath path) : h.isCommandMatch h.node.name = true ∧ h.Answers path := by
  have hmatch : ∀ handler, Within handler h → ∀ val,
      handler.isCommandMatch val = true ↔ val = handler.node.name := by
    intro handler hw val
    rw [isCommandMatch, hplain handler hw]
    exact decide_eq_true_iff
  refine ⟨(hmatch h (.root h) _).mpr rfl, ?_⟩
  induction path generalizing h with
  | nil => trivial
  | cons sub path ih =>
    refine ⟨?_, ih (ht.sub hpath.1) (fun handler hw => hplain handler (.sub hpath.1 hw)) hpath.2
      fun handler hw => hmatch handler (.sub hpath.1 hw)⟩
    -- names of siblings differ, so the search comes to the handler of the path
    have hdistinct := ht.distinct h (.root h)
    have hsubs : ∀ s ∈ h.subcommands, ∀ val, s.isCommandMatch val = true ↔ val = s.node.name :=
      fun s hs => hmatch s (.sub hs (.root s))
    have hmem := hpath.1
    generalize h.subcommands = subs at hdistinct hsubs hmem
    induction subs with
    | nil => cases hmem
    | cons s subs ih' =>
      rw [List.find?_cons]
      rw [List.map_cons, List.nodup_cons] at hdistinct
      rcases List.mem_cons.mp hmem with rfl | hmem
      · rw [(hsubs sub List.mem_cons_self _).mpr rfl]
      · -- an earlier sibling with this name would be the same one
        have hno : s.isCommandMatch sub.node.name = false := by
          by_contra hyes
          have heq := (hsubs s List.mem_cons_self _).mp (by simpa using hyes)
          exact hdistinct.1 (heq ▸ List.mem_map_of_mem hmem)
        rw [hno]
        exact ih' hdistinct.2 (fun c hc => hsubs c (List.mem_cons_of_mem _ hc)) hmem

end CommandHandler

/-! ### A subcommand of a subcommand -/

namespace CommandTest

/-- `@b.subcommand("c")` -/
def gamma : CommandHandler String Unit :=
  new "c".toList none .none [] true true true (ofFunc "c" "c".toList)

/-- `@a.subcommand("b")` -/
def beta : CommandHandler String Unit := .mk { func := "b", name := "b".toList } [gamma]

/-- `@new("a")` -/
def alpha : CommandHandler String Unit := .mk { func := "a", name := "a".toList } [beta]

/-- The tree of the witness has three handlers. -/
theorem within_alpha {handler : CommandHandler String Unit}
    (hw : CommandHandler.Within handler alpha) :
    handler = alpha ∨ handler = beta ∨ handler = gamma := by
  cases hw with
  | root => exact .inl rfl
  | sub hsub hw =>
    obtain rfl := List.mem_singleton.mp hsub
    cases hw with
    | root => exact .inr (.inl rfl)
    | sub hsub hw =>
      obtain rfl := List.mem_singleton.mp hsub
      cases hw with
      | root => exact .inr (.inr rfl)
      | sub hsub _ => cases hsub

/-- It is tidy. -/
theorem tidy_alpha : CommandHandler.Tidy strings alpha where
  proper handler hw := by
    rcases within_alpha hw with rfl | rfl | rfl <;>
      refine ⟨by decide, fun c hc => ?_, by decide⟩ <;>
      obtain rfl := List.mem_singleton.mp hc <;> decide
  distinct handler hw := by
    rcases within_alpha hw with rfl | rfl | rfl <;> decide
  answers handler hw := by
    rcases within_alpha hw with rfl | rfl | rfl <;> decide

/-- A text message from a user -/
def textMessage (body : String) : Message where
  sender  := "@user:example.com".toList
  msgtype := .text
  body    := body.toList

end CommandTest

open CommandTest CommandHandler in
/-- The prefix of a subcommand leads to it. -/
theorem prefix_dispatches_iff_beta :
    Dispatched strings botId (textMessage "!a b x") alpha [beta] "x".toList := by
  have hpath : alpha.IsPath [beta] := ⟨List.mem_singleton_self _, trivial⟩
  have hargs : alpha.NoArguments [beta] := ⟨rfl, trivial⟩
  refine (prefix_dispatches_iff tidy_alpha hpath hargs (by decide)).mpr
    ⟨le_refl _, ?_, by decide, ⟨by rfl, trivial⟩, .inl rfl⟩
  intro h hh
  rcases List.mem_cons.mp hh with rfl | hh
  · decide
  · obtain rfl := List.mem_singleton.mp hh
    decide

open CommandTest CommandHandler in
/-- The usage of the third handler shows the names of the second and its own. -/
theorem third_not_dispatched :
    gamma.mbPrefix (alpha.parentName [beta, gamma]) = "!b c".toList ∧
    ¬ Dispatched strings botId (textMessage "!b c x") alpha [beta, gamma] "x".toList := by
  have hpath : alpha.IsPath [beta, gamma] :=
    ⟨List.mem_singleton_self _, List.mem_singleton_self _, trivial⟩
  have hargs : alpha.NoArguments [beta, gamma] := ⟨rfl, rfl, trivial⟩
  refine ⟨by decide, not_dispatched_deeper tidy_alpha hpath hargs ?_⟩
  decide

end Maubot.Command
