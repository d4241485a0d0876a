import Mathlib.Data.List.Basic
import Mathlib.Tactic.Common

namespace Maubot.Re

/-!
# Regular expressions — ordered matching by backtracking

A regular expression is tried at a place of a text. It is matched in zero, one or several ways,
in the order in which backtracking finds them, and a search takes the first.

* `Regex.runs` — the ways to match, in their order;
* `runs_within` — each of them ends in the text;
* `Pattern` — the alternatives of a whole expression, `Pattern.first` — the first way;
* `Pattern.anchored` — `^` before the first alternative, and `$` behind the last;
* `anchored_ways`, `frontWhole_iff` — what these two anchors hold, and where they suffice.
-/

abbrev Text := List Char

/-- A place in a text, and the texts of the groups matched on the way, the latest first. -/
structure Point where
  pos    : Nat
  groups : List (Nat × Text)
  deriving DecidableEq, Repr

/-- How a repetition goes on: as often as it can, as seldom as it can, or as often as it can
    without ever giving back. -/
inductive Repetition
  | greedy
  | lazy
  | possessive
  deriving DecidableEq, Repr

inductive Regex
  | empty
  | char (has : Char → Bool)
  | anchor (holds : Text → Nat → Bool)
  | cat (r s : Regex)
  | alt (r s : Regex)
  | rep (r : Regex) (min : Nat) (max : Option Nat) (repetition : Repetition)
  | group (n : Nat) (r : Regex)
  | backref (n : Nat) (same : Char → Char → Bool) (width : Option Nat)
  | ahead (negative : Bool) (r : Regex)
  | behind (negative : Bool) (width : Nat) (r : Regex)
  | atomic (r : Regex)
  | cond (n : Nat) (yes no : Regex)

/-- The number of characters of every match, if it is always the same. -/
def Regex.width : Regex → Option Nat
  | .empty           => some 0
  | .char _          => some 1
  | .anchor _        => some 0
  | .cat r s         => return (← r.width) + (← s.width)
  | .alt r s         => if r.width = s.width then r.width else none
  | .rep r min max _ =>
    if max = some min ∨ r.width = some 0 then r.width.map (· * min) else none
  | .group _ r       => r.width
  | .backref _ _ w   => w
  | .ahead _ _       => some 0
  | .behind _ _ _    => some 0
  | .atomic r        => r.width
  | .cond _ yes no   => if yes.width = no.width then yes.width else none

section Runs

variable (step : Point → List Point)

/-- `n` times. -/
def times : Nat → Point → List Point
  | 0, p     => [p]
  | n + 1, p => (step p).flatMap (times n)

/-- At most `n` times. What takes no character is not repeated, but it is tried once. -/
def upTo (greedy : Bool) : Nat → Point → List Point
  | 0, p     => [p]
  | n + 1, p =>
    let more := (step p).flatMap fun q => if q.pos ≤ p.pos then [q] else upTo greedy n q
    if greedy then more ++ [p] else p :: more

end Runs

/-- The characters between two places. -/
def slice (w : Text) (i j : Nat) : Text := (w.take j).drop i

/-- The text of a group, if it was matched. -/
def Point.get (p : Point) (n : Nat) : Option Text :=
  (p.groups.find? fun g => g.1 = n).map (·.2)

/-- The first of several ways, without a way back to the others. -/
def commit (ps : List Point) : List Point := ps.head?.toList

/-- What is repeated: a possessive repetition gives nothing back in any of its turns. -/
def once (how : Repetition) (step : Point → List Point) (p : Point) : List Point :=
  if how = .possessive then commit (step p) else step p

/-- A test in front of a place or behind it: it takes no character. -/
def test (negative : Bool) (p : Point) (ps : List Point) : List Point :=
  match ps.head?, negative with
  | none, true    => [p]
  | some q, false => [{ p with groups := q.groups }]
  | _, _          => []

/-- **The ways to match** at a place, in their order. -/
def Regex.runs (w : Text) : Regex → Point → List Point
  | .empty, p                => [p]
  | .char has, p             =>
    match w[p.pos]? with
    | some c => if has c then [{ p with pos := p.pos + 1 }] else []
    | none   => []
  | .anchor holds, p         => if holds w p.pos then [p] else []
  | .cat r s, p              => (r.runs w p).flatMap (s.runs w)
  | .alt r s, p              => r.runs w p ++ s.runs w p
  | .rep r min max how, p    =>
    -- without a bound each turn but the last takes a character
    once how (fun p => (times (once how (r.runs w)) min p).flatMap fun q =>
      upTo (once how (r.runs w)) (how ≠ .lazy)
        ((max.map (· - min)).getD (w.length - q.pos + 1)) q) p
  | .group n r, p            =>
    (r.runs w p).map fun q => { q with groups := (n, slice w p.pos q.pos) :: q.groups }
  | .backref n same _, p     =>
    match p.get n with
    | some t =>
      let rest := w.drop p.pos
      if t.length ≤ rest.length ∧ (t.zip rest).all fun c => same c.1 c.2 then
        [{ p with pos := p.pos + t.length }]
      else []
    | none   => []
  | .ahead negative r, p     => test negative p (r.runs w p)
  | .behind negative n r, p  =>
    test negative p (if n ≤ p.pos then r.runs w { p with pos := p.pos - n } else [])
  | .atomic r, p             => commit (r.runs w p)
  | .cond n yes no, p        => if (p.get n).isSome then yes.runs w p else no.runs w p

/-! ### The ways to match end in the text -/

/-- The second place is not before the first, and in the text if the first is. -/
structure Within (w : Text) (p q : Point) : Prop where
  le     : p.pos ≤ q.pos
  inside : p.pos ≤ w.length → q.pos ≤ w.length

section Within

variable {w : Text} {p q r : Point} {step : Point → List Point}

/-- A point is within the text behind itself. -/
theorem Within.refl (w : Text) (p : Point) : Within w p p := ⟨Nat.le_refl _, id⟩

/-- And behind what is behind it. -/
theorem Within.trans (h : Within w p q) (h' : Within w q r) : Within w p r :=
  ⟨Nat.le_trans h.le h'.le, fun hp => h'.inside (h.inside hp)⟩

/-- So is what several steps reach, -/
theorem within_times (hstep : ∀ p, ∀ q ∈ step p, Within w p q) (n : Nat) :
    ∀ p, ∀ q ∈ times step n p, Within w p q := by
  induction n with
  | zero =>
    intro p q hq
    obtain rfl := List.mem_singleton.mp hq
    exact .refl w q
  | succ n ih =>
    intro p r hr
    obtain ⟨q, hq, hr⟩ := List.mem_flatMap.mp hr
    exact (hstep p q hq).trans (ih q r hr)

/-- and what up to several reach. -/
theorem within_upTo (hstep : ∀ p, ∀ q ∈ step p, Within w p q) (greedy : Bool) (n : Nat) :
    ∀ p, ∀ q ∈ upTo step greedy n p, Within w p q := by
  induction n with
  | zero =>
    intro p q hq
    obtain rfl := List.mem_singleton.mp hq
    exact .refl w q
  | succ n ih =>
    intro p r hr
    have hcases : r = p ∨ r ∈ (step p).flatMap fun q =>
        if q.pos ≤ p.pos then [q] else upTo step greedy n q := by
      unfold upTo at hr
      cases greedy with
      | true  => exact (List.mem_append.mp hr).symm.imp_left List.mem_singleton.mp
      | false => exact List.mem_cons.mp hr
    rcases hcases with rfl | hmore
    · exact .refl w r
    · obtain ⟨q, hq, hr⟩ := List.mem_flatMap.mp hmore
      have hwithin := hstep p q hq
      split at hr
      · obtain rfl := List.mem_singleton.mp hr
        exact hwithin
      · exact hwithin.trans (ih q r hr)

/-- A choice that is committed to is one of the choices. -/
theorem mem_of_mem_commit {ps : List Point} (h : q ∈ commit ps) : q ∈ ps := by
  unfold commit at h
  exact List.mem_of_mem_head? (Option.mem_toList.mp h)

/-- What is repeated once is one of the ways to match. -/
theorem mem_of_mem_once {how : Repetition} (h : q ∈ once how step p) : q ∈ step p := by
  unfold once at h
  split at h
  · exact mem_of_mem_commit h
  · exact h

/-- A test stays where it is. -/
theorem pos_of_mem_test {negative : Bool} {ps : List Point} (h : q ∈ test negative p ps) :
    q.pos = p.pos := by
  unfold test at h
  split at h
  · obtain rfl := List.mem_singleton.mp h
    rfl
  · obtain rfl := List.mem_singleton.mp h
    rfl
  · cases h

/-- **Every way to match ends in the text**, behind the place where it began. -/
theorem runs_within (w : Text) (e : Regex) : ∀ p, ∀ q ∈ e.runs w p, Within w p q := by
  -- what only looks, or only records a group, stays where it is
  have hsame {p q : Point} (h : q.pos = p.pos) : Within w p q :=
    ⟨Nat.le_of_eq h.symm, fun hp => h ▸ hp⟩
  induction e with
  | empty =>
    intro p q hq
    obtain rfl := List.mem_singleton.mp hq
    exact .refl w q
  | char has =>
    intro p q hq
    unfold Regex.runs at hq
    split at hq
    · next c hc =>
      split at hq
      · obtain rfl := List.mem_singleton.mp hq
        have hlt := (List.getElem?_eq_some_iff.mp hc).1
        exact ⟨Nat.le_succ _, fun _ => hlt⟩
      · cases hq
    · cases hq
  | anchor holds =>
    intro p q hq
    unfold Regex.runs at hq
    split at hq
    · obtain rfl := List.mem_singleton.mp hq
      exact .refl w q
    · cases hq
  | cat r s ihr ihs =>
    intro p q hq
    obtain ⟨m, hm, hq⟩ := List.mem_flatMap.mp hq
    exact (ihr p m hm).trans (ihs m q hq)
  | alt r s ihr ihs =>
    intro p q hq
    exact (List.mem_append.mp hq).elim (ihr p q) (ihs p q)
  | rep r min max how ih =>
    intro p q hq
    have hstep : ∀ p, ∀ q ∈ once how (r.runs w) p, Within w p q :=
      fun p q hq => ih p q (mem_of_mem_once hq)
    obtain ⟨m, hm, hq⟩ := List.mem_flatMap.mp (mem_of_mem_once hq)
    exact (within_times hstep min p m hm).trans (within_upTo hstep _ _ m q hq)
  | group n r ih =>
    intro p q hq
    obtain ⟨m, hm, rfl⟩ := List.mem_map.mp hq
    exact (ih p m hm).trans (hsame rfl)
  | backref n same width =>
    intro p q hq
    unfold Regex.runs at hq
    split at hq
    · next t ht =>
      dsimp only at hq
      split at hq
      · next hsame =>
        obtain rfl := List.mem_singleton.mp hq
        have hlen := hsame.1
        rw [List.length_drop] at hlen
        exact ⟨Nat.le_add_right _ _, fun hp => by dsimp only; omega⟩
      · cases hq
    · cases hq
  | ahead negative r _ => exact fun p q hq => hsame (pos_of_mem_test hq)
  | behind negative n r _ => exact fun p q hq => hsame (pos_of_mem_test hq)
  | atomic r ih => exact fun p q hq => ih p q (mem_of_mem_commit hq)
  | cond n yes no ihyes ihno =>
    intro p q hq
    unfold Regex.runs at hq
    split at hq
    · exact ihyes p q hq
    · exact ihno p q hq

end Within

/-! ### Alternatives -/

/-- One behind the other. -/
def runsAll (w : Text) : List Regex → Point → List Point
  | [], p      => [p]
  | r :: rs, p => (r.runs w p).flatMap (runsAll w rs)

/-- The alternatives of an expression: those in front of the last `|`, and the last. -/
structure Pattern where
  front : List (List Regex)
  last  : List Regex

/-- Where a search begins that does not move on. -/
def start : Point := ⟨0, []⟩

/-- `^` -/
def caret : Regex := .anchor fun _ i => i == 0

/-- `$`: the end of the text, or of the line it ends with. -/
def dollar : Regex :=
  .anchor fun w i => i == w.length || (i + 1 == w.length && w[i]? == some '\n')

namespace Pattern

/-- The ways of the alternatives in front of the last. -/
def frontWays (e : Pattern) (w : Text) : List Point := e.front.flatMap fun b => runsAll w b start

/-- The ways to match at the beginning of a text. -/
def ways (e : Pattern) (w : Text) : List Point := e.frontWays w ++ runsAll w e.last start

/-- The first of them. -/
def first (e : Pattern) (w : Text) : Option Point := (e.ways w).head?

/-- The language of an expression: a way of matching takes the whole text. -/
def Takes (e : Pattern) (w : Text) : Prop := ∃ p ∈ e.ways w, p.pos = w.length

instance (e : Pattern) (w : Text) : Decidable (e.Takes w) :=
  inferInstanceAs (Decidable (∃ p ∈ e.ways w, p.pos = w.length))

/-- `^` in front of the first alternative, and `$` behind the last. -/
def anchored (e : Pattern) : Pattern :=
  match e.front with
  | []      => ⟨[], caret :: (e.last ++ [dollar])⟩
  | b :: bs => ⟨(caret :: b) :: bs, e.last ++ [dollar]⟩

end Pattern

section Alternatives

variable {e : Pattern} {w : Text} {p : Point}

/-- Hence what a sequence reaches is, -/
theorem runsAll_within (rs : List Regex) : ∀ p, ∀ q ∈ runsAll w rs p, Within w p q := by
  induction rs with
  | nil =>
    intro p q hq
    obtain rfl := List.mem_singleton.mp hq
    exact .refl w q
  | cons r rs ih =>
    intro p q hq
    obtain ⟨m, hm, hq⟩ := List.mem_flatMap.mp hq
    exact (runs_within w r p m hm).trans (ih m q hq)

/-- and no way leaves the text. -/
theorem ways_within (h : p ∈ e.ways w) : p.pos ≤ w.length := by
  rcases List.mem_append.mp h with hfront | hlast
  · obtain ⟨b, -, hb⟩ := List.mem_flatMap.mp hfront
    exact (runsAll_within b start p hb).inside (Nat.zero_le _)
  · exact (runsAll_within e.last start p hlast).inside (Nat.zero_le _)

/-- The last item runs from where the others end. -/
theorem runsAll_concat (rs : List Regex) (r : Regex) :
    ∀ p, runsAll w (rs ++ [r]) p = (runsAll w rs p).flatMap (r.runs w) := by
  induction rs with
  | nil =>
    intro p
    simp only [List.nil_append, runsAll, List.flatMap_singleton', List.flatMap_singleton]
  | cons m rs ih =>
    intro p
    simp only [List.cons_append, runsAll, List.flatMap_assoc, List.flatMap_congr fun q _ => ih q]

/-- A caret lets the beginning pass. -/
theorem runsAll_caret (rs : List Regex) : runsAll w (caret :: rs) start = runsAll w rs start := by
  simp [runsAll, caret, Regex.runs, start]

/-- In a text of one line, `$` keeps the ways that take the whole text. -/
theorem runs_dollar (hline : '\n' ∉ w) (p : Point) :
    dollar.runs w p = if p.pos = w.length then [p] else [] := by
  have hnot : w[p.pos]? ≠ some '\n' := fun h => hline (List.mem_of_getElem? h)
  simp [dollar, Regex.runs, hnot]

/-- A dollar lets the end pass, in a text of one line. -/
theorem flatMap_dollar (hline : '\n' ∉ w) (ps : List Point) :
    ps.flatMap (dollar.runs w) = ps.filter fun p => p.pos = w.length := by
  induction ps with
  | nil => rfl
  | cons p ps ih =>
    rw [List.flatMap_cons, ih, runs_dollar hline]
    by_cases h : p.pos = w.length
    · simp [h]
    · simp [h]

/-- **What the anchors hold**: `$` holds the last alternative to the end of the text, and no
    other. -/
theorem anchored_ways (hline : '\n' ∉ w) (e : Pattern) :
    e.anchored.ways w =
      e.frontWays w ++ (runsAll w e.last start).filter fun p => p.pos = w.length := by
  obtain ⟨front, last⟩ := e
  cases front with
  | nil =>
    have hlast : runsAll w (caret :: (last ++ [dollar])) start =
        (runsAll w last start).flatMap (dollar.runs w) := by
      rw [runsAll_caret, runsAll_concat]
    rw [flatMap_dollar hline] at hlast
    exact hlast
  | cons b bs =>
    have hlast : runsAll w (last ++ [dollar]) start =
        (runsAll w last start).flatMap (dollar.runs w) := runsAll_concat last dollar start
    rw [flatMap_dollar hline] at hlast
    simp only [Pattern.ways, Pattern.frontWays, Pattern.anchored, List.flatMap_cons, hlast,
      runsAll_caret]

/-- The alternatives in front of the last match no beginning of the text, or all of it first. -/
def Pattern.FrontWhole (e : Pattern) (w : Text) : Prop :=
  ∀ p, (e.frontWays w).head? = some p → p.pos = w.length

instance (e : Pattern) (w : Text) : Decidable (e.FrontWhole w) :=
  match h : (e.frontWays w).head? with
  | none   => .isTrue fun p hp => by rw [h] at hp; cases hp
  | some p => decidable_of_iff (p.pos = w.length)
      ⟨fun hp q hq => by rw [h] at hq; cases hq; exact hp, fun hall => hall p h⟩

/-- **Where the anchors suffice**: every search between them takes the whole text. -/
theorem frontWhole_iff (hline : '\n' ∉ w) (e : Pattern) :
    e.FrontWhole w ↔ ∀ p, e.anchored.first w = some p → p.pos = w.length := by
  unfold Pattern.first
  rw [anchored_ways hline e]
  constructor
  · intro hfront p hp
    cases hways : e.frontWays w with
    | nil =>
      rw [hways] at hp
      have hmem := List.mem_of_mem_head? hp
      exact of_decide_eq_true (List.mem_filter.mp hmem).2
    | cons q qs =>
      rw [hways] at hp
      refine hfront p ?_
      rw [hways]
      exact hp
  · intro hall p hp
    refine hall p ?_
    rw [List.head?_append, hp]
    rfl

/-- A text of the language is found between the anchors. -/
theorem first_of_takes (hline : '\n' ∉ w) (h : e.Takes w) :
    ∃ p, e.anchored.first w = some p := by
  obtain ⟨p, hp, hpos⟩ := h
  have hmem : p ∈ e.anchored.ways w := by
    rw [anchored_ways hline e]
    rcases List.mem_append.mp hp with hp | hp
    · exact List.mem_append_left _ hp
    · exact List.mem_append_right _ (List.mem_filter.mpr ⟨hp, decide_eq_true hpos⟩)
  exact ⟨_, List.head?_eq_some_head (List.ne_nil_of_mem hmem)⟩

/-- A search between the anchors that takes the whole text has found it in the language. -/
theorem takes_of_first (hline : '\n' ∉ w) (h : e.anchored.first w = some p)
    (hpos : p.pos = w.length) : e.Takes w := by
  have hmem : p ∈ e.anchored.ways w := List.mem_of_mem_head? h
  rw [anchored_ways hline e] at hmem
  refine ⟨p, ?_, hpos⟩
  rcases List.mem_append.mp hmem with hp | hp
  · exact List.mem_append_left _ hp
  · exact List.mem_append_right _ (List.mem_of_mem_filter hp)

end Alternatives

end Maubot.Re
