import Maubot.Handlers.Dispatch

namespace Maubot.Command

/-!
# Commands — arguments

`__parse_args__` matches one argument after the other against what the earlier ones have left of
the text.

* `Tries` — which text an argument is matched against;
* `required_iff` — when the arguments that are required are there;
* `parseArgs_simple` — simple arguments take one word each.
-/

open Words

variable {S : Strings} {F V : Type} {bot : Text} {evt : Message}

/-! ### What an argument is matched against -/

/-- The argument at `i` is matched against `val`. -/
inductive Tries (S : Strings) : List (Argument V) → Text → Nat → Text → Prop
  | head (arg : Argument V) (args : List (Argument V)) (remaining : Text) :
      Tries S (arg :: args) remaining 0 (strip S.space remaining)
  | tail {arg : Argument V} {args : List (Argument V)} {remaining rest val : Text} {i : Nat}
      {value : Option (Value V)} (hm : arg.match S (strip S.space remaining) = .ok (rest, value))
      (hr : ¬ (arg.required = true ∧ value.isNone = true)) (h : Tries S args rest i val) :
      Tries S (arg :: args) remaining (i + 1) val

/-- An argument that matches is set, and the others parse what is left. -/
theorem parseArgs_cons_ok (usage : Text) {arg : Argument V} {args : List (Argument V)}
    {callArgs : CallArgs V} {remaining rest : Text} {value : Option (Value V)}
    (hm : arg.match S (strip S.space remaining) = .ok (rest, value))
    (hr : ¬ (arg.required = true ∧ value.isNone = true)) :
    parseArgs S usage (arg :: args) callArgs remaining =
      parseArgs S usage args (callArgs.set arg.name value) rest := by
  rw [parseArgs, hm]
  exact if_neg hr

/-- One that is required and does not match ends the parse. -/
theorem parseArgs_cons_required (usage : Text) {arg : Argument V} {args : List (Argument V)}
    {callArgs : CallArgs V} {remaining rest : Text} {value : Option (Value V)}
    (hm : arg.match S (strip S.space remaining) = .ok (rest, value))
    (hr : arg.required = true ∧ value.isNone = true) :
    parseArgs S usage (arg :: args) callArgs remaining = .error usage := by
  rw [parseArgs, hm]
  exact if_pos hr

/-- When the arguments are there, each one was matched. -/
theorem tries_of_parseArgs {usage : Text} {args : List (Argument V)} {callArgs out : CallArgs V}
    {remaining rest : Text} (hok : parseArgs S usage args callArgs remaining = .ok (out, rest))
    {i : Nat} (hi : i < args.length) : ∃ val, Tries S args remaining i val := by
  induction args generalizing callArgs remaining i with
  | nil => exact absurd hi (Nat.not_lt_zero i)
  | cons arg args ih =>
    cases i with
    | zero => exact ⟨_, .head arg args remaining⟩
    | succ i =>
      unfold parseArgs at hok
      rcases hm : arg.match S (strip S.space remaining) with e | ⟨val, value⟩
      · rw [hm] at hok
        cases e <;> cases hok
      · rw [hm] at hok
        dsimp only at hok
        split at hok
        · cases hok
        · next hr =>
          obtain ⟨val', htries⟩ := ih hok (Nat.lt_of_succ_lt_succ hi)
          exact ⟨val', .tail hm hr htries⟩

/-! ### Nothing left -/

/-- The argument takes the empty text: a simple one does, and a regular expression that
    matches it. -/
def Matcher.takesNothing : Matcher V → Bool
  | .simple _       => true
  | .regex _ r      => (r []).isSome
  | .custom _       => false
  | .customRaw _    => false

/-- A parser returns `None` for the empty word. -/
def Matcher.RejectsNothing : Matcher V → Prop
  | .custom f    => f [] = .ok none
  | .customRaw f => f [] = .ok ([], none)
  | _            => True

/-- With nothing left, an argument leaves nothing, and is there if it takes nothing. -/
theorem match_nil {arg : Argument V} (h : arg.matcher.RejectsNothing) :
    ∃ value, arg.match S [] = .ok ([], value) ∧ value.isSome = arg.matcher.takesNothing := by
  obtain ⟨name, label, required, matcher⟩ := arg
  unfold Argument.match
  cases matcher with
  | simple passRaw => cases passRaw <;> exact ⟨_, rfl, rfl⟩
  | regex passRaw regex =>
    have hword : (if passRaw then ([] : Text) else first S.space []) = [] := by
      cases passRaw <;> rfl
    dsimp only
    rw [hword]
    cases hm : regex [] with
    | none => exact ⟨none, rfl, by simp [Matcher.takesNothing, hm]⟩
    | some m =>
      refine ⟨some (if m.groups = [] then .text [] else .groups m.groups), by simp, ?_⟩
      simp [Matcher.takesNothing, hm]
  | custom matcher =>
    have hnone : matcher [] = .ok none := h
    refine ⟨none, ?_, rfl⟩
    dsimp only
    rw [show first S.space ([] : Text) = [] from rfl, hnone]
  | customRaw matcher =>
    have hnone : matcher [] = .ok ([], none) := h
    refine ⟨none, ?_, rfl⟩
    dsimp only
    rw [hnone]
    rfl

/-- With nothing left, the arguments are there if the required ones take nothing. -/
theorem parseArgs_nil_ok (usage : Text) {args : List (Argument V)}
    (hreject : ∀ arg ∈ args, arg.matcher.RejectsNothing)
    (htakes : ∀ arg ∈ args, arg.required = true → arg.matcher.takesNothing = true)
    (callArgs : CallArgs V) {remaining : Text} (hnil : strip S.space remaining = []) :
    ∃ out rest, parseArgs S usage args callArgs remaining = .ok (out, rest) ∧
      strip S.space rest = [] := by
  induction args generalizing callArgs remaining with
  | nil => exact ⟨callArgs, remaining, rfl, hnil⟩
  | cons arg args ih =>
    obtain ⟨value, hm, hvalue⟩ := match_nil (S := S) (hreject arg List.mem_cons_self)
    rw [← hnil] at hm
    have hr : ¬ (arg.required = true ∧ value.isNone = true) := by
      rintro ⟨hreq, hnone⟩
      rw [htakes arg List.mem_cons_self hreq] at hvalue
      rw [Option.isNone_iff_eq_none.mp hnone] at hvalue
      cases hvalue
    rw [parseArgs_cons_ok usage hm hr]
    exact ih (fun a ha => hreject a (List.mem_cons_of_mem _ ha))
      (fun a ha => htakes a (List.mem_cons_of_mem _ ha)) _ (by rw [strip_strip, hnil])

/-- With nothing left, the reply is the usage if a required argument does not take nothing. -/
theorem parseArgs_nil_error (usage : Text) {args : List (Argument V)}
    (hreject : ∀ arg ∈ args, arg.matcher.RejectsNothing) {arg : Argument V} (harg : arg ∈ args)
    (hreq : arg.required = true) (htakes : arg.matcher.takesNothing = false)
    (callArgs : CallArgs V) {remaining : Text} (hnil : strip S.space remaining = []) :
    parseArgs S usage args callArgs remaining = .error usage := by
  induction args generalizing callArgs remaining with
  | nil => cases harg
  | cons a args ih =>
    obtain ⟨value, hm, hvalue⟩ := match_nil (S := S) (hreject a List.mem_cons_self)
    rw [← hnil] at hm
    by_cases hr : a.required = true ∧ value.isNone = true
    · exact parseArgs_cons_required usage hm hr
    · rw [parseArgs_cons_ok usage hm hr]
      rcases List.mem_cons.mp harg with rfl | harg
      · rw [htakes] at hvalue
        exact absurd ⟨hreq, by simpa using hvalue⟩ hr
      · exact ih (fun b hb => hreject b (List.mem_cons_of_mem _ hb)) harg _
          (by rw [strip_strip, hnil])

/-- The arguments from `i` on are matched against what is left there. -/
theorem parseArgs_of_tries (usage : Text) {args : List (Argument V)} {remaining val : Text}
    {i : Nat} (h : Tries S args remaining i val) (callArgs : CallArgs V) :
    ∃ callArgs' rest, strip S.space rest = val ∧
      parseArgs S usage args callArgs remaining =
        parseArgs S usage (args.drop i) callArgs' rest := by
  induction h generalizing callArgs with
  | head arg args remaining => exact ⟨callArgs, remaining, rfl, rfl⟩
  | tail hm hr _ ih =>
    obtain ⟨callArgs', rest, hrest, heq⟩ := ih (callArgs.set _ _)
    exact ⟨callArgs', rest, hrest, (parseArgs_cons_ok usage hm hr).trans heq⟩

/-- Where the text runs out before an argument, and it or a later one is required and does not
    take the empty text -/
theorem parseArgs_error_of_tries (usage : Text) {args : List (Argument V)} {remaining : Text}
    {i : Nat} (h : Tries S args remaining i [])
    (hreject : ∀ arg ∈ args.drop i, arg.matcher.RejectsNothing) {arg : Argument V}
    (harg : arg ∈ args.drop i) (hreq : arg.required = true)
    (htakes : arg.matcher.takesNothing = false) (callArgs : CallArgs V) :
    parseArgs S usage args callArgs remaining = .error usage := by
  obtain ⟨callArgs', rest, hrest, heq⟩ := parseArgs_of_tries usage h callArgs
  rw [heq]
  exact parseArgs_nil_error usage hreject harg hreq htakes callArgs' hrest

/-- Where none of them is -/
theorem parseArgs_ok_of_tries (usage : Text) {args : List (Argument V)} {remaining : Text}
    {i : Nat} (h : Tries S args remaining i [])
    (hreject : ∀ arg ∈ args.drop i, arg.matcher.RejectsNothing)
    (htakes : ∀ arg ∈ args.drop i, arg.required = true → arg.matcher.takesNothing = true)
    (callArgs : CallArgs V) :
    ∃ out rest, parseArgs S usage args callArgs remaining = .ok (out, rest) ∧
      strip S.space rest = [] := by
  obtain ⟨callArgs', rest, hrest, heq⟩ := parseArgs_of_tries usage h callArgs
  obtain ⟨out, rest', hok, hblank⟩ := parseArgs_nil_ok usage hreject htakes callArgs' hrest
  exact ⟨out, rest', heq.trans hok, hblank⟩

/-! ### Required arguments -/

namespace CommandHandler

/-- The function is called only with the required arguments matched against text that is not
    empty.  Where the text runs out before one, the usage is sent. -/
structure RequiredThere (S : Strings) (h : CommandHandler F V) (parent : Option Text)
    (existingArgs : CallArgs V) (remaining : Text) : Prop where
  matched : ∀ callArgs, h.turn S parent existingArgs remaining =
    .done (.call h.node.func callArgs) → ∀ i arg, h.node.arguments[i]? = some arg →
      arg.required = true → ∃ val, val ≠ [] ∧ Tries S h.node.arguments remaining i val
  usage   : h.Parses S remaining → ∀ i arg, h.node.arguments[i]? = some arg →
    arg.required = true → Tries S h.node.arguments remaining i [] →
      h.turn S parent existingArgs remaining = .done (.reply (h.usage parent)) ∧
      ∀ bot evt, h.dispatch S bot evt parent existingArgs remaining = [.reply (h.usage parent)]

/-- Where the parse fails, the handler answers with its text. -/
theorem turn_of_error {h : CommandHandler F V} {parent : Option Text}
    {existingArgs : CallArgs V} {remaining text : Text} (hp : h.Parses S remaining)
    (he : parseArgs S (h.usage parent) h.node.arguments existingArgs remaining = .error text) :
    h.turn S parent existingArgs remaining = .done (.reply text) := by
  unfold turn
  rcases hp with hf | hfound
  · rw [if_pos hf, he]
  · by_cases hf : h.node.argFallthrough = true
    · rw [if_pos hf, he]
    · rw [if_neg hf, hfound, he]

/-- The usage and the whole help are different texts. -/
theorem usage_ne_fullHelp {h : CommandHandler F V} (hs : h.subcommands.isEmpty = false)
    (parent : Option Text) : h.fullHelp parent ≠ h.usage parent := by
  unfold fullHelp usage
  rw [if_neg (show ¬ h.subcommands.isEmpty = true by rw [hs]; nofun)]
  simp only [List.append_assoc]
  intro heq
  have htail := List.append_cancel_left heq
  exact absurd (List.cons.inj htail).1 (by decide)

/-- The turn of arguments that were parsed to the end is a call or the full help, or goes on. -/
theorem turn_ne_usage {h : CommandHandler F V} {parent : Option Text}
    {existingArgs callArgs : CallArgs V} {remaining val : Text}
    (hok : parseArgs S (h.usage parent) h.node.arguments existingArgs remaining =
      .ok (callArgs, val)) (hblank : strip S.space val = []) :
    h.turn S parent existingArgs remaining ≠ .done (.reply (h.usage parent)) := by
  intro hturn
  have htook := took S h parent existingArgs remaining
  rw [hturn] at htook
  generalize ht : Turn.done (.reply (h.usage parent)) = t at htook
  cases htook with
  | before => cases ht
  | behind => cases ht
  | refused _ he =>
    rw [hok] at he
    cases he
  | missing _ _ hs =>
    injection ht with heffect
    injection heffect with htext
    exact usage_ne_fullHelp hs parent htext.symm
  | finished _ hok' =>
    rw [hok] at hok'
    cases hok'
    rw [finish, if_neg fun hextra => hextra.2 hblank] at ht
    cases ht

/-- **When required arguments are there.**  Exactly if, where the text runs out before a required
    argument, it or a later one is required and does not take the empty text. -/
theorem required_iff (h : CommandHandler F V) (parent : Option Text) (existingArgs : CallArgs V)
    (remaining : Text) (hreject : ∀ arg ∈ h.node.arguments, arg.matcher.RejectsNothing) :
    RequiredThere S h parent existingArgs remaining ↔
      (h.Parses S remaining → ∀ i arg, h.node.arguments[i]? = some arg → arg.required = true →
        Tries S h.node.arguments remaining i [] → ∃ arg' ∈ h.node.arguments.drop i,
          arg'.required = true ∧ arg'.matcher.takesNothing = false) := by
  have hreject' : ∀ i, ∀ arg ∈ h.node.arguments.drop i, arg.matcher.RejectsNothing :=
    fun i arg harg => hreject arg (List.mem_of_mem_drop harg)
  constructor
  · -- left to right: if all required arguments match, the parse goes through to a call
    intro hthere hp i arg hi hreq htries
    by_contra hno
    -- else each required argument from here on takes an empty text,
    have htakes : ∀ arg' ∈ h.node.arguments.drop i, arg'.required = true →
        arg'.matcher.takesNothing = true := by
      intro arg' harg' hreq'
      by_contra htakes
      exact hno ⟨arg', harg', hreq', by simpa using htakes⟩
    -- and the command is called
    obtain ⟨out, rest, hok, hblank⟩ :=
      parseArgs_ok_of_tries (h.usage parent) htries (hreject' i) htakes existingArgs
    exact turn_ne_usage hok hblank (hthere.usage hp i arg hi hreq htries).1
  · -- right to left: what was parsed before a required argument does not matter to it
    intro hcond
    -- an argument that takes something does not match behind the end of the text
    have husage : h.Parses S remaining → ∀ i arg, h.node.arguments[i]? = some arg →
        arg.required = true → Tries S h.node.arguments remaining i [] →
          parseArgs S (h.usage parent) h.node.arguments existingArgs remaining =
            .error (h.usage parent) := by
      intro hp i arg hi hreq htries
      obtain ⟨arg', harg', hreq', htakes'⟩ := hcond hp i arg hi hreq htries
      exact parseArgs_error_of_tries (h.usage parent) htries (hreject' i) harg' hreq' htakes'
        existingArgs
    refine ⟨fun callArgs hcall i arg hi hreq => ?_, fun hp i arg hi hreq htries => ?_⟩
    · -- a call comes of arguments that were parsed, so of one that took something
      obtain ⟨-, hp, rest, hok⟩ := of_done_call hcall
      obtain ⟨hlt, -⟩ := List.getElem?_eq_some_iff.mp hi
      obtain ⟨val, htries⟩ := tries_of_parseArgs hok hlt
      refine ⟨val, ?_, htries⟩
      rintro rfl
      rw [husage hp i arg hi hreq htries] at hok
      cases hok
    · have hturn := turn_of_error hp (husage hp i arg hi hreq htries)
      refine ⟨hturn, fun bot evt => ?_⟩
      rw [dispatch_eq, hturn]

end CommandHandler

namespace CommandTest

def message : Argument Unit := ⟨"message".toList, "message".toList, true, .simple false⟩

/-- Only `1` is parsed. -/
def count : Argument Unit :=
  ⟨"count".toList, "count".toList, true,
    .custom fun word => .ok (if word = ['1'] then some () else none)⟩

/-- `@new("say")` with one argument -/
def say (arg : Argument Unit) : CommandHandler String Unit :=
  new "say".toList none .none [] true true true (arg.decorate (ofFunc "say" "say".toList))

end CommandTest

open CommandTest CommandHandler in
/-- The parser of a required argument has no word left. -/
theorem required_iff_count : RequiredThere strings (say count) none [] [] := by
  have hreject : ∀ arg ∈ (say count).node.arguments, arg.matcher.RejectsNothing := by
    intro arg harg
    obtain rfl := List.mem_singleton.mp harg
    rfl
  refine (required_iff (say count) none [] [] hreject).mpr fun _ i arg hi hreq _ => ?_
  obtain ⟨hlt, rfl⟩ := List.getElem?_eq_some_iff.mp hi
  obtain rfl : i = 0 := Nat.lt_one_iff.mp hlt
  exact ⟨count, List.mem_cons_self, rfl, rfl⟩

open CommandTest CommandHandler in
/-- A required simple argument is the empty text, and the function is called. -/
theorem nothing_said :
    (say message).dispatch strings botId (echoLoud .text) none [] [] =
      [.call "say" [("message".toList, some (.text []))]] ∧
    ¬ RequiredThere strings (say message) none [] [] := by
  have hcall : (say message).dispatch strings botId (echoLoud .text) none [] [] =
      [.call "say" [("message".toList, some (.text []))]] := by decide
  refine ⟨hcall, fun hthere => ?_⟩
  have hsent := (hthere.usage (.inl rfl) 0 message rfl rfl (.head message [] [])).2 botId
    (echoLoud .text)
  rw [hcall] at hsent
  cases hsent

/-! ### Simple arguments -/

/-- An argument that is set has its value, -/
theorem lookup_set_self (name : Text) (value : Option (Value V)) (callArgs : CallArgs V) :
    List.lookup name (callArgs.set name value) = some value := by
  induction callArgs with
  | nil => simp [CallArgs.set]
  | cons a callArgs ih =>
    obtain ⟨n, v⟩ := a
    by_cases hn : n = name
    · simp [CallArgs.set, hn]
    · rw [CallArgs.set, if_neg hn, List.lookup_cons, show (name == n) = false by
        simpa using Ne.symm hn]
      exact ih

/-- and the others have theirs. -/
theorem lookup_set_ne {name name' : Text} (hne : name' ≠ name) (value : Option (Value V))
    (callArgs : CallArgs V) :
    List.lookup name' (callArgs.set name value) = List.lookup name' callArgs := by
  induction callArgs with
  | nil =>
    rw [CallArgs.set, List.lookup_cons, show (name' == name) = false by simpa using hne]
  | cons a callArgs ih =>
    obtain ⟨n, v⟩ := a
    by_cases hn : n = name
    · subst hn
      rw [CallArgs.set, if_pos rfl, List.lookup_cons, List.lookup_cons,
        show (name' == n) = false by simpa using hne]
    · rw [CallArgs.set, if_neg hn, List.lookup_cons, List.lookup_cons, ih]

/-- The arguments only set their own names. -/
theorem lookup_parseArgs {usage : Text} {args : List (Argument V)} {callArgs out : CallArgs V}
    {remaining rest : Text} (hok : parseArgs S usage args callArgs remaining = .ok (out, rest))
    {name : Text} (hname : name ∉ args.map Argument.name) :
    List.lookup name out = List.lookup name callArgs := by
  induction args generalizing callArgs remaining with
  | nil =>
    cases hok
    rfl
  | cons arg args ih =>
    rw [List.map_cons, List.mem_cons, not_or] at hname
    unfold parseArgs at hok
    rcases hm : arg.match S (strip S.space remaining) with e | ⟨val, value⟩
    · rw [hm] at hok
      cases e <;> cases hok
    · rw [hm] at hok
      dsimp only at hok
      split at hok
      · cases hok
      · rw [ih hok hname.2, lookup_set_ne hname.1]

/-- The next word of a text, and those behind it. -/
theorem words_getD_zero (s : Text) :
    (words S.space s).getD 0 [] = first S.space (strip S.space s) := by
  by_cases hs : strip S.space s = []
  · rw [strip_eq_nil_iff.mp hs, hs]
    rfl
  · rw [words_of_strip_ne hs]
    rfl

/-- The next words are those behind the first one. -/
theorem words_getD_succ (s : Text) (i : Nat) :
    (words S.space s).getD (i + 1) [] =
      (words S.space (after S.space (strip S.space s))).getD i [] := by
  by_cases hs : strip S.space s = []
  · rw [strip_eq_nil_iff.mp hs, hs]
    rfl
  · rw [words_of_strip_ne hs]
    rfl

/-- There is one less of them. -/
theorem words_length_le_succ (s : Text) (k : Nat) :
    (words S.space s).length ≤ k + 1 ↔
      (words S.space (after S.space (strip S.space s))).length ≤ k := by
  by_cases hs : strip S.space s = []
  · rw [strip_eq_nil_iff.mp hs, hs]
    simp [after]
  · rw [words_of_strip_ne hs, List.length_cons]
    exact Nat.succ_le_succ_iff

/-- **Simple arguments.**  The i-th one is the i-th word, a raw one behind them the rest of the
    text; without it the remaining text is blank exactly if no words are left. -/
theorem parseArgs_simple (usage : Text) {args : List (Argument V)}
    (hsimple : ∀ arg ∈ args, arg.matcher = .simple false) {raw : Option (Argument V)}
    (hraw : ∀ arg ∈ raw, arg.matcher = .simple true)
    (hnames : ((args ++ raw.toList).map Argument.name).Nodup) (callArgs : CallArgs V) (s : Text) :
    ∃ out rest, parseArgs S usage (args ++ raw.toList) callArgs s = .ok (out, rest) ∧
      (∀ i arg, args[i]? = some arg →
        List.lookup arg.name out = some (some (.text ((words S.space s).getD i [])))) ∧
      (∀ arg ∈ raw, List.lookup arg.name out =
        some (some (.text (strip S.space (dropWords S.space args.length s))))) ∧
      (raw = none → (strip S.space rest = [] ↔ (words S.space s).length ≤ args.length)) := by
  -- by induction on the arguments: each takes a word and leaves what is behind it
  induction args generalizing callArgs s with
  | nil =>
    cases raw with
    | none =>
      refine ⟨callArgs, s, rfl, nofun, nofun, fun _ => ?_⟩
      rw [strip_eq_nil_iff, List.length_nil, Nat.le_zero, List.length_eq_zero_iff]
    | some arg =>
      have hm : arg.match S (strip S.space s) = .ok ([], some (.text (strip S.space s))) := by
        unfold Argument.match
        rw [hraw arg rfl]
      refine ⟨callArgs.set arg.name (some (.text (strip S.space s))), [], ?_, nofun, ?_, nofun⟩
      · exact parseArgs_cons_ok usage hm fun hr => by cases hr.2
      · intro arg' harg'
        obtain rfl := Option.some.inj harg'
        exact lookup_set_self _ _ _
  | cons arg args ih =>
    have hm : arg.match S (strip S.space s) = .ok (after S.space (strip S.space s),
        some (.text (first S.space (strip S.space s)))) := by
      unfold Argument.match
      rw [hsimple arg List.mem_cons_self]
      dsimp only
      rw [drop_first]
    rw [List.cons_append, List.map_cons, List.nodup_cons] at hnames
    obtain ⟨out, rest, hok, hwords, hrest, hblank⟩ :=
      ih (fun a ha => hsimple a (List.mem_cons_of_mem _ ha)) hnames.2
        (callArgs.set arg.name (some (.text (first S.space (strip S.space s)))))
        (after S.space (strip S.space s))
    refine ⟨out, rest, ?_, fun i a ha => ?_, fun a ha => ?_, fun hnone => ?_⟩
    · rw [List.cons_append]
      exact (parseArgs_cons_ok usage hm fun hr => by cases hr.2).trans hok
    · cases i with
      | zero =>
        obtain rfl : arg = a := Option.some.inj ha
        rw [lookup_parseArgs hok hnames.1, lookup_set_self, words_getD_zero]
      | succ i => rw [words_getD_succ, hwords i a ha]
    · rw [hrest a ha, List.length_cons, strip_dropWords_succ]
    · rw [hblank hnone, List.length_cons, words_length_le_succ]

/-- **Simple arguments of a handler.** -/
theorem simple_arguments (h : CommandHandler F V) {args : List (Argument V)}
    (hsimple : ∀ arg ∈ args, arg.matcher = .simple false) {raw : Option (Argument V)}
    (hraw : ∀ arg ∈ raw, arg.matcher = .simple true)
    (hargs : h.node.arguments = args ++ raw.toList)
    (hnames : (h.node.arguments.map Argument.name).Nodup) (parent : Option Text)
    (callArgs : CallArgs V) (s : Text) :
    ∃ out rest, parseArgs S (h.usage parent) h.node.arguments callArgs s = .ok (out, rest) ∧
      (∀ i arg, args[i]? = some arg →
        List.lookup arg.name out = some (some (.text ((words S.space s).getD i [])))) ∧
      (∀ arg ∈ raw, List.lookup arg.name out =
        some (some (.text (strip S.space (dropWords S.space args.length s))))) ∧
      (raw = none → (strip S.space rest = [] ↔ (words S.space s).length ≤ args.length)) ∧
      (raw = none → h.subcommands = [] → h.node.mustConsumeArgs = true → ∀ bot evt,
        h.dispatch S bot evt parent callArgs s =
          if (words S.space s).length ≤ args.length then [.call h.node.func out]
          else [.reply (h.fullHelp parent)]) := by
  rw [hargs] at hnames ⊢
  obtain ⟨out, rest, hok, hwords, hrest, hblank⟩ :=
    parseArgs_simple (S := S) (h.usage parent) hsimple hraw hnames callArgs s
  refine ⟨out, rest, hok, hwords, hrest, hblank, fun hnone hsubs hmust bot evt => ?_⟩
  -- without subcommands the text is parsed,
  have hturn : h.turn S parent callArgs s = .done (h.finish S parent out rest) := by
    have hfound : h.findSubcommand S s = none := by
      rw [CommandHandler.findSubcommand, hsubs]
      rfl
    unfold CommandHandler.turn
    rw [hfound, ite_self, hargs, hok]
    dsimp only
    rw [if_neg fun hsub => hsub.2 (by rw [hsubs]; rfl)]
  rw [CommandHandler.dispatch_eq, hturn]
  dsimp only
  rw [CommandHandler.finish]
  -- and an extra word is what is left of it
  by_cases hle : (words S.space s).length ≤ args.length
  · rw [if_pos hle, if_neg fun hextra => hextra.2 ((hblank hnone).mpr hle)]
  · rw [if_neg hle, if_pos ⟨hmust, fun hnil => hle ((hblank hnone).mp hnil)⟩]

namespace CommandTest

def target : Argument Unit := ⟨"target".toList, "target".toList, true, .simple false⟩
def reason : Argument Unit := ⟨"reason".toList, "reason".toList, false, .simple true⟩

/-- `@new("kick")` with a word and the rest of the text -/
def kick : CommandHandler String Unit :=
  new "kick".toList none .none [] true true true
    (target.decorate (reason.decorate (ofFunc "kick" "kick".toList)))

end CommandTest

open CommandTest in
/-- The word and the rest, in spite of the whitespace. -/
theorem simple_arguments_kick :
    ∃ out rest, parseArgs strings (kick.usage none) kick.node.arguments []
        "\tyou  no  reason ".toList = .ok (out, rest) ∧
      List.lookup "target".toList out = some (some (.text "you".toList)) ∧
      List.lookup "reason".toList out = some (some (.text "no  reason".toList)) := by
  obtain ⟨out, rest, hok, hwords, hrest, -⟩ := @simple_arguments strings _ _ kick [target]
    (fun arg harg => by rw [List.mem_singleton.mp harg]; rfl) (some reason)
    (fun arg harg => by rw [← Option.some.inj harg]; rfl) rfl (by decide) none []
    "\tyou  no  reason ".toList
  refine ⟨out, rest, hok, ?_, ?_⟩
  · exact (hwords 0 target rfl).trans (by decide)
  · exact (hrest reason rfl).trans (by decide)

end Maubot.Command
