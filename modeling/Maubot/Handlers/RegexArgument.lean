import Maubot.Handlers.Dispatch
import Maubot.Lib.RegexSyntax

namespace Maubot.Command

/-!
# Arguments that match a regular expression — `RegexArgument`

The expression is pasted between `^` and `$` as a text, and matched at the beginning of the next
word.

* `RegexArgument`, `argument` — the constructor and the decorator;
* `MatchesWord` — an argument takes the words of the language of its expression, each of them
  whole, and no others;
* `matchesWord_iff` — the expressions and the words where it does.
-/

open Words Re

variable {V : Type}

/-- `self.regex.match(val)` -/
def regexMatch (c : Compiled) (val : Text) : Option Match :=
  (c.pattern.first val).map fun p =>
    { start := 0, stop := p.pos, groups := (List.range c.groups).map fun n => p.get (n + 1) }

/-- `Argument.__init__`: an argument without a label has its name for one. -/
def labelOf (name : Text) (label : Option Text) : Text :=
  match label with
  | some (c :: t) => c :: t
  | _             => name

/-- `RegexArgument(name, label, required, pass_raw, matches)`, or nothing where the expression is
    refused. -/
def RegexArgument (A : Alphabet) (name : Text) (label : Option Text) (required passRaw : Bool)
    (pattern : Text) : Option (Argument V) :=
  let pattern := if passRaw then '^' :: pattern else '^' :: (pattern ++ ['$'])
  (compile A pattern).map fun regex =>
    { name     := name
      label    := labelOf name label
      required := required
      matcher  := .regex passRaw (regexMatch regex) }

/-- `argument(name, label, required, matches, parser, pass_raw)`.  The parser is a
    `CustomArgument`'s, for a word or for the whole text. -/
def argument (A : Alphabet) (name : Text) (label : Option Text) (required : Bool)
    (pattern : Option Text) (parser : Option (Matcher V)) (passRaw : Bool) :
    Option (Argument V) :=
  match pattern, parser with
  | some (c :: t), _ => RegexArgument A name label required passRaw (c :: t)
  | _, some matcher  => some ⟨name, labelOf name label, required, matcher⟩
  | _, none          => some ⟨name, labelOf name label, required, .simple passRaw⟩

/-- **The argument matches words**: it takes the next word if that is in the language of the
    expression, and leaves the rest; and else takes nothing. -/
def MatchesWord (S : Strings) (e : Pattern) (arg : Argument V) (val : Text) : Prop :=
  let word := first S.space val
  (e.Takes word → ∃ value, arg.match S val = .ok (val.drop word.length, some value)) ∧
  (¬ e.Takes word → arg.match S val = .ok (val, none))

/-- Where it does: an empty expression is none at all and takes every word.  Any other has no
    global flags, and in front of its last alternative the first match in the word, if there is
    one, is the whole word. -/
def Anchorable (c : Compiled) (pattern word : Text) : Prop :=
  if pattern = [] then word = [] else c.global? = none ∧ c.pattern.FrontWhole word

section Regex

variable {S : Strings} {A : Alphabet} {name : Text} {label : Option Text} {required : Bool}
  {c c' : Compiled} {pattern val : Text} {arg : Argument V} {p : Point}

/-- A pattern that matches the first word takes what it matched, -/
theorem match_of_first (harg : arg.matcher = .regex false (regexMatch c))
    (h : c.pattern.first (first S.space val) = some p) :
    ∃ value, arg.match S val = .ok (val.drop p.pos, some value) := by
  have hmatch : regexMatch c (first S.space val) =
      some ⟨0, p.pos, (List.range c.groups).map fun n => p.get (n + 1)⟩ := by
    rw [regexMatch, h]
    rfl
  unfold Argument.match
  rw [harg]
  dsimp only
  rw [if_neg Bool.false_ne_true, hmatch]
  exact ⟨_, rfl⟩

/-- and one that does not takes nothing. -/
theorem match_of_first_none (harg : arg.matcher = .regex false (regexMatch c))
    (h : c.pattern.first (first S.space val) = none) : arg.match S val = .ok (val, none) := by
  have hmatch : regexMatch c (first S.space val) = none := by
    rw [regexMatch, h]
    rfl
  unfold Argument.match
  rw [harg]
  dsimp only
  rw [if_neg Bool.false_ne_true, hmatch]

/-- The first word is no longer than the text. -/
theorem first_length_le : (first S.space val).length ≤ val.length :=
  (List.takeWhile_prefix _).length_le

/-- An argument whose expression is anchored matches words if and only if the alternatives in
    front of the last let it. -/
theorem matchesWord_anchored (hnewline : S.space '\n' = true)
    (harg : arg.matcher = .regex false (regexMatch c'))
    (hc' : c'.pattern = c.pattern.anchored) :
    MatchesWord S c.pattern arg val ↔ c.pattern.FrontWhole (first S.space val) := by
  have hline : '\n' ∉ first S.space val := fun hmem => by
    rw [first_no_space hmem] at hnewline
    cases hnewline
  rw [frontWhole_iff hline]
  constructor
  · rintro ⟨htakes, hnot⟩ p hp
    rw [← hc'] at hp
    obtain ⟨value, hmatch⟩ := match_of_first harg hp
    -- the match of the anchored text ends where the word does, or there is none
    by_cases ht : c.pattern.Takes (first S.space val)
    · obtain ⟨value', hmatch'⟩ := htakes ht
      rw [hmatch] at hmatch'
      injection hmatch' with hpair
      have hdrop := congrArg List.length (congrArg Prod.fst hpair)
      have hle : p.pos ≤ (first S.space val).length := by
        rw [hc'] at hp
        exact ways_within (List.mem_of_mem_head? hp)
      have hword : (first S.space val).length ≤ val.length := first_length_le
      simp only [List.length_drop] at hdrop
      omega
    · rw [hnot ht] at hmatch
      injection hmatch with hpair
      cases congrArg Prod.snd hpair
  · intro hwhole
    constructor
    · intro ht
      obtain ⟨p, hp⟩ := first_of_takes hline ht
      have hpos := hwhole p hp
      rw [← hc'] at hp
      rw [← hpos]
      exact match_of_first harg hp
    · intro ht
      refine match_of_first_none harg ?_
      rw [hc']
      cases hp : c.pattern.anchored.first (first S.space val) with
      | none => rfl
      | some p => exact absurd (takes_of_first hline hp (hwhole p hp)) ht

/-- The empty pattern takes the empty word. -/
theorem takes_empty {word : Text} (hc : compile A [] = some c) :
    c.pattern.Takes word ↔ word = [] := by
  obtain rfl : ⟨⟨[], []⟩, 0, none⟩ = c := Option.some.inj hc
  constructor
  · rintro ⟨p, hp, hpos⟩
    obtain rfl : p = start := List.mem_singleton.mp hp
    exact List.length_eq_zero_iff.mp hpos.symm
  · rintro rfl
    exact ⟨start, List.mem_singleton.mpr rfl, rfl⟩

/-- Without an expression the argument takes every word. -/
theorem matchesWord_empty (hc : compile A [] = some c) (harg : arg.matcher = .simple false) :
    MatchesWord S c.pattern arg val ↔ first S.space val = [] := by
  have hmatch : arg.match S val =
      .ok (val.drop (first S.space val).length, some (.text (first S.space val))) := by
    unfold Argument.match
    rw [harg]
  unfold MatchesWord
  dsimp only
  rw [takes_empty hc, hmatch]
  constructor
  · rintro ⟨-, hnot⟩
    by_contra hne
    injection hnot hne with hpair
    cases congrArg Prod.snd hpair
  · intro hnil
    exact ⟨fun _ => ⟨_, rfl⟩, fun hne => absurd hnil hne⟩

/-- **When a regular expression is matched against the whole word**: exactly where anchors around
    its text anchor all of it. -/
theorem matchesWord_iff (hnewline : S.space '\n' = true) (hc : compile A pattern = some c) :
    (∃ arg : Argument V, argument A name label required (some pattern) none false = some arg ∧
      MatchesWord S c.pattern arg val) ↔ Anchorable c pattern (first S.space val) := by
  unfold Anchorable
  cases pattern with
  -- no pattern: the argument takes every word
  | nil =>
    have harg : argument A name label required (some []) none false =
        some (⟨name, labelOf name label, required, .simple false⟩ : Argument V) := rfl
    rw [if_pos rfl, harg]
    constructor
    · rintro ⟨arg, heq, hmatches⟩
      obtain rfl := Option.some.inj heq
      exact (matchesWord_empty hc rfl).mp hmatches
    · intro hnil
      exact ⟨_, rfl, (matchesWord_empty hc rfl).mpr hnil⟩
  -- a pattern is compiled with anchors around it, which its flags may forbid
  | cons d t =>
    rw [if_neg (List.cons_ne_nil d t)]
    have hanchored := compile_anchored hc
    have harg : argument (V := V) A name label required (some (d :: t)) none false =
        RegexArgument A name label required false (d :: t) := rfl
    rw [harg, RegexArgument, if_neg Bool.false_ne_true, hanchored]
    cases hglobal : c.global? with
    | some f =>
      constructor
      · rintro ⟨arg, heq, -⟩
        cases heq
      · rintro ⟨hnone, -⟩
        cases hnone
    | none =>
      constructor
      · rintro ⟨arg, heq, hmatches⟩
        obtain rfl := Option.some.inj heq
        exact ⟨rfl, (matchesWord_anchored hnewline rfl rfl).mp hmatches⟩
      · rintro ⟨-, hwhole⟩
        exact ⟨_, rfl, (matchesWord_anchored hnewline rfl rfl).mpr hwhole⟩

end Regex

/-! ### Two alternatives -/

namespace CommandTest

/-- The characters of ASCII. -/
def ascii : Alphabet where
  digit   := Char.isDigit
  space c := c = ' ' || c = '\t' || c = '\n'
  word c  := c.isAlphanum || c = '_'
  cases c := [c.toLower, c.toUpper]
  named _ := none

/-- `foo|bar` -/
def fooBar : Compiled where
  pattern := ⟨["foo".toList.map (ascii.literal {})], "bar".toList.map (ascii.literal {})⟩
  groups  := 0
  global? := none

/-- The pattern of the counterexample. -/
theorem compile_fooBar : compile ascii "foo|bar".toList = some fooBar := rfl

end CommandTest

open CommandTest in
/-- The last alternative, and another word behind it. -/
theorem matchesWord_iff_bar :
    ∃ arg : Argument Unit,
      argument ascii "name".toList none true (some "foo|bar".toList) none false = some arg ∧
        MatchesWord strings fooBar.pattern arg "bar baz".toList := by
  have hanchorable : Anchorable fooBar "foo|bar".toList (first strings.space "bar baz".toList) :=
    ⟨rfl, by decide⟩
  exact (matchesWord_iff rfl compile_fooBar).mpr hanchorable

open CommandTest in
/-- A word that only begins with the first alternative. -/
theorem not_matchesWord_fooX :
    compile ascii "foo|bar".toList = some fooBar ∧
    ¬ ∃ arg : Argument Unit,
      argument ascii "name".toList none true (some "foo|bar".toList) none false = some arg ∧
        MatchesWord strings fooBar.pattern arg "fooX".toList := by
  refine ⟨compile_fooBar, ?_⟩
  rintro ⟨arg, harg, -, hnot⟩
  obtain rfl := Option.some.inj harg
  have htakes : ¬ fooBar.pattern.Takes (first strings.space "fooX".toList) := by decide
  cases hnot htakes

end Maubot.Command
