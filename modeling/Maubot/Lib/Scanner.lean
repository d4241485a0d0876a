import Mathlib.Data.List.Basic

namespace Maubot

/-!
# Scanners — successive matches in a text

A scanner finds the first match from a place on.  Scanning a text, the next search begins where
the last match ended, and behind an empty match it must not find an empty one at the same place.

* `Scanner` — a search and what holds of its matches;
* `scan` — all matches of a text, in order;
* `Successive` — they follow each other;
* `weave_slices` — the parts between the matches and the matches themselves make up the text.
-/

/-- The part of a text between two places. -/
def slice {α : Type} (text : List α) (start stop : Nat) : List α := (text.take stop).drop start

/-- A part of a text that is the whole text. -/
theorem slice_eq_self {α : Type} {text : List α} {i j : Nat} (hij : i ≤ j)
    (hj : j ≤ text.length) : slice text i j = text ↔ i = 0 ∧ j = text.length := by
  constructor
  · intro h
    have hlength := congrArg List.length h
    simp only [slice, List.length_drop, List.length_take] at hlength
    omega
  · rintro ⟨rfl, rfl⟩
    simp [slice]

/-- `search text pos advance` finds the first match from `pos` on, or the first one that is not
    empty at `pos`. -/
structure Scanner (α M : Type) (start stop : M → Nat) where
  search     : List α → Nat → Bool → Option M
  pos_le     : ∀ {text pos advance m}, search text pos advance = some m → pos ≤ start m
  start_le   : ∀ {text pos advance m}, search text pos advance = some m → start m ≤ stop m
  stop_le    : ∀ {text pos advance m}, search text pos advance = some m → stop m ≤ text.length
  advances   : ∀ {text pos m}, search text pos true = some m → start m = pos → pos < stop m

namespace Scanner

variable {α M : Type} {start stop : M → Nat} (R : Scanner α M start stop)

/-- How far a scan can still go; an empty match takes one of the two steps at its place. -/
def room (text : List α) (pos : Nat) (advance : Bool) : Nat :=
  2 * (text.length - pos) + if advance then 0 else 1

/-- Every match leaves less room. -/
theorem room_lt {text : List α} {pos : Nat} {advance : Bool} {m : M}
    (h : R.search text pos advance = some m) :
    room text (stop m) (decide (start m = stop m)) < room text pos advance := by
  have hpos := R.pos_le h
  have hstart := R.start_le h
  have hstop := R.stop_le h
  unfold room
  by_cases hempty : start m = stop m
  · rw [if_pos (decide_eq_true hempty)]
    cases advance with
    | false =>
      simp only [Bool.false_eq_true, if_false]
      omega
    | true =>
      -- the match is not at the place where the search began
      have hne : start m ≠ pos := by
        intro heq
        have hlt := R.advances h heq
        omega
      simp only [if_true]
      omega
  · rw [if_neg (by simpa using hempty)]
    split <;> omega

/-- The matches from a place on. -/
def scanFrom (text : List α) (pos : Nat) (advance : Bool) : List M :=
  match _h : R.search text pos advance with
  | none   => []
  | some m => m :: scanFrom text (stop m) (decide (start m = stop m))
termination_by room text pos advance
decreasing_by exact R.room_lt _h

/-- All matches of a text. -/
def scan (text : List α) : List M := R.scanFrom text 0 false

/-! ### Successive matches -/

/-- The matches lie in the text from a place on, one behind the other; where `advance` is set,
    the first one is not empty at that place. -/
inductive Successive (start stop : M → Nat) (length : Nat) : Nat → Bool → List M → Prop
  | nil {pos : Nat} {advance : Bool} : Successive start stop length pos advance []
  | cons {pos : Nat} {advance : Bool} {m : M} {ms : List M} (hpos : pos ≤ start m)
      (hstart : start m ≤ stop m) (hstop : stop m ≤ length)
      (hadvance : advance = true → start m = pos → pos < stop m)
      (hrest : Successive start stop length (stop m) (decide (start m = stop m)) ms) :
      Successive start stop length pos advance (m :: ms)

/-- So the matches are successive, -/
theorem successive_scanFrom (text : List α) (pos : Nat) (advance : Bool) :
    Successive start stop text.length pos advance (R.scanFrom text pos advance) := by
  fun_induction scanFrom R text pos advance with
  | case1 pos advance h => exact .nil
  | case2 pos advance m h ih =>
    refine .cons (R.pos_le h) (R.start_le h) (R.stop_le h) (fun hadvance => ?_) ih
    rw [hadvance] at h
    exact R.advances h

variable {R}

/-- and inside the text. -/
theorem Successive.bounds {length pos : Nat} {advance : Bool} {ms : List M}
    (h : Successive start stop length pos advance ms) :
    ∀ m ∈ ms, start m ≤ stop m ∧ stop m ≤ length := by
  induction h with
  | nil => nofun
  | cons _ hstart hstop _ _ ih =>
    intro m hm
    rcases List.mem_cons.mp hm with rfl | hm
    · exact ⟨hstart, hstop⟩
    · exact ih m hm

/-- Matches that cover the whole text: there is no other match. -/
theorem Successive.eq_singleton {length : Nat} {m : M} {ms : List M}
    (h : Successive start stop length 0 false (m :: ms))
    (hwhole : ∀ m' ∈ m :: ms, start m' = 0 ∧ stop m' = length) : ms = [] := by
  cases h with
  | cons _ _ _ _ hrest =>
    obtain ⟨hm, hm'⟩ := hwhole m List.mem_cons_self
    cases hrest with
    | nil => rfl
    | @cons _ _ m₂ _ hpos _ _ hadvance _ =>
      obtain ⟨h₂, h₂'⟩ := hwhole m₂ (List.mem_cons_of_mem _ List.mem_cons_self)
      -- the second match can only be the empty one, at the place of the first
      have hzero : length = 0 := by omega
      have hlt := hadvance (decide_eq_true (by omega)) (by omega)
      omega

/-! ### The text between the matches -/

/-- The parts of the text between the matches, with another text in place of each match. -/
def weave (start stop : M → Nat) (text : List α) : Nat → List (M × List α) → List α
  | pos, []           => text.drop pos
  | pos, (m, t) :: ms => slice text pos (start m) ++ t ++ weave start stop text (stop m) ms

/-- A slice and what follows it. -/
theorem slice_append_drop (text : List α) {i j : Nat} (h : i ≤ j) :
    slice text i j ++ text.drop j = text.drop i := by
  have hlength : (text.take j).length ≤ j := List.length_take_le j text
  conv_rhs => rw [← List.take_append_drop j text]
  by_cases hi : i ≤ (text.take j).length
  · rw [List.drop_append_of_le_length hi, slice]
  · have hj : text.length ≤ j := by
      rw [List.length_take] at hi
      omega
    have hi' : text.length ≤ i := by
      rw [List.length_take] at hi
      omega
    rw [slice, List.take_of_length_le hj, List.drop_eq_nil_of_le hj, List.append_nil,
      List.append_nil]

/-- **The parts between the matches and the matches make up the text.** -/
theorem weave_slices {text : List α} {pos : Nat} {advance : Bool} {ms : List M}
    (h : Successive start stop text.length pos advance ms) :
    weave start stop text pos (ms.map fun m => (m, slice text (start m) (stop m))) =
      text.drop pos := by
  induction h with
  | nil => rfl
  | cons hpos hstart _ _ _ ih =>
    rw [List.map_cons, weave, ih, List.append_assoc, slice_append_drop text hstart,
      slice_append_drop text hpos]

end Scanner

end Maubot
