import Mathlib.Data.List.DropRight
import Mathlib.Tactic.Common

namespace Maubot.Words

/-!
# Words — texts with whitespace between their words

A text is a list of characters, some of which are whitespace.

* `strip`, `first`, `after`, `words` — the surrounding whitespace, the first word, the rest and
  the words of a text;
* `words_eq` — the words are the first one and those of the rest;
* `strip_pad`, `words_pad` — whitespace around a text changes neither;
* `dropWords` — the text after its first words.
-/

variable {α : Type} (space : α → Bool)

/-- Without the whitespace in front. -/
def lstrip (s : List α) : List α := s.dropWhile space

/-- `str.strip` -/
def strip (s : List α) : List α := (lstrip space s).rdropWhile space

/-- The characters in front of the first whitespace. -/
def first (s : List α) : List α := s.takeWhile fun c => !space c

/-- What follows them. -/
def after (s : List α) : List α := s.dropWhile fun c => !space c

/-- `str.split()` -/
def words : List α → List (List α)
  | []     => []
  | c :: s =>
    if space c then words s
    else
      match s with
      | []     => [[c]]
      | d :: _ => if space d then [c] :: words s else (words s).modifyHead (c :: ·)

/-- The text behind its first `k` words. -/
def dropWords : Nat → List α → List α
  | 0, s     => s
  | k + 1, s => dropWords k (after space (lstrip space s))

variable {space} {s a b : List α} {c : α}

/-! ### The first word -/

/-- The first word and what is after it are the text. -/
theorem first_append_after (space : α → Bool) (s : List α) : first space s ++ after space s = s :=
  List.takeWhile_append_dropWhile

/-- What is after it is what is left. -/
theorem drop_first (space : α → Bool) (s : List α) :
    s.drop (first space s).length = after space s := by
  have h : (first space s ++ after space s).drop (first space s).length = after space s :=
    List.drop_left
  rwa [first_append_after] at h

/-- The first word has no space. -/
theorem first_no_space {c : α} (h : c ∈ first space s) : space c = false := by
  have hc := List.mem_takeWhile_imp h
  simpa using hc

/-- It is empty before a space. -/
theorem first_cons_space (h : space c = true) (s : List α) : first space (c :: s) = [] := by
  simp [first, h]

/-- It grows by a character that is none. -/
theorem first_cons (h : space c = false) (s : List α) :
    first space (c :: s) = c :: first space s := by
  simp [first, h]

/-- A space is after it, -/
theorem after_cons_space (h : space c = true) (s : List α) : after space (c :: s) = c :: s := by
  simp [after, h]

/-- and another character is not. -/
theorem after_cons (h : space c = false) (s : List α) : after space (c :: s) = after space s := by
  simp [after, h]

/-- A word with a text behind it that does not go on with it. -/
theorem first_append {w t : List α} (hw : ∀ c ∈ w, space c = false)
    (ht : ∀ c t', t = c :: t' → space c = true) : first space (w ++ t) = w := by
  induction w with
  | nil =>
    cases t with
    | nil => rfl
    | cons c t' => exact first_cons_space (ht c t' rfl) t'
  | cons c w ih =>
    rw [List.cons_append, first_cons (hw c List.mem_cons_self),
      ih fun d hd => hw d (List.mem_cons_of_mem _ hd)]

/-- The first word ends where the spaces begin. -/
theorem after_append {w t : List α} (hw : ∀ c ∈ w, space c = false)
    (ht : ∀ c t', t = c :: t' → space c = true) : after space (w ++ t) = t := by
  have h := drop_first space (w ++ t)
  rw [first_append hw ht, List.drop_left] at h
  exact h.symm

/-- What follows the first word starts with whitespace. -/
theorem after_head {t : List α} (h : after space s = c :: t) : space c = true := by
  have hne : after space s ≠ [] := by
    rw [h]
    nofun
  have hhead := List.head_dropWhile_not (fun c => !space c) (l := s) hne
  simp only [after] at h
  simpa [h] using hhead

/-- Whitespace at the end of a text stays behind its first word. -/
theorem after_append_spaces (hb : ∀ c ∈ b, space c = true) (s : List α) :
    after space (s ++ b) = after space s ++ b := by
  have hhead : ∀ c t, after space s ++ b = c :: t → space c = true := by
    intro c t h
    cases hafter : after space s with
    | nil =>
      rw [hafter] at h
      exact hb c (by rw [show b = c :: t from h]; exact List.mem_cons_self)
    | cons d u =>
      rw [hafter] at h
      obtain ⟨rfl, -⟩ := List.cons.inj h
      exact after_head hafter
  conv_lhs => rw [← first_append_after space s, List.append_assoc]
  exact after_append (fun _ => first_no_space) hhead

/-- Spaces at the end are not in the first word. -/
theorem first_append_spaces (hb : ∀ c ∈ b, space c = true) (s : List α) :
    first space (s ++ b) = first space s := by
  have h := first_append_after space (s ++ b)
  rw [after_append_spaces hb, ← List.append_assoc] at h
  have hs := (List.append_cancel_right h).trans (first_append_after space s).symm
  exact List.append_cancel_right hs

/-! ### Words -/

/-- The empty text has no words. -/
@[simp] theorem words_nil : words space ([] : List α) = [] := rfl

/-- A space in front does not matter. -/
theorem words_cons_space (h : space c = true) (s : List α) :
    words space (c :: s) = words space s := by
  conv_lhs => unfold words
  rw [if_pos h]

/-- Any other character begins a word. -/
theorem words_cons (h : space c = false) (s : List α) :
    words space (c :: s) = (c :: first space s) :: words space (after space s) := by
  induction s generalizing c with
  | nil => simp [words, h, first, after]
  | cons d s ih =>
    have hstep : words space (c :: d :: s) =
        if space d then [c] :: words space (d :: s)
        else (words space (d :: s)).modifyHead (c :: ·) := by
      conv_lhs => unfold words
      rw [if_neg (by rw [h]; nofun)]
    rw [hstep]
    by_cases hd : space d = true
    · rw [if_pos hd, first_cons_space hd, after_cons_space hd]
    · have hd' : space d = false := by simpa using hd
      rw [if_neg hd, ih hd', first_cons hd', after_cons hd']
      rfl

/-- **The words** of a text that does not start with whitespace. -/
theorem words_eq (hs : s ≠ []) (h : ∀ c t, s = c :: t → space c = false) :
    words space s = first space s :: words space (after space s) := by
  cases s with
  | nil => exact absurd rfl hs
  | cons c s =>
    have hc := h c s rfl
    rw [words_cons hc, first_cons hc, after_cons hc]

/-- Nor do many spaces in front, -/
theorem words_spaces_append (ha : ∀ c ∈ a, space c = true) (s : List α) :
    words space (a ++ s) = words space s := by
  induction a with
  | nil => rfl
  | cons c a ih =>
    rw [List.cons_append, words_cons_space (ha c List.mem_cons_self),
      ih fun d hd => ha d (List.mem_cons_of_mem _ hd)]

/-- or at the end. -/
theorem words_append_spaces (hb : ∀ c ∈ b, space c = true) (s : List α) :
    words space (s ++ b) = words space s := by
  have hnil : words space b = [] := by
    have h := words_spaces_append hb []
    rwa [List.append_nil] at h
  induction hn : s.length using Nat.strongRecOn generalizing s with
  | ind n ih =>
    cases s with
    | nil => exact hnil
    | cons c s =>
      by_cases hc : space c = true
      · rw [List.cons_append, words_cons_space hc, words_cons_space hc]
        exact ih s.length (by simp [← hn]) s rfl
      · have hc' : space c = false := by simpa using hc
        rw [List.cons_append, words_cons hc', words_cons hc', first_append_spaces hb,
          after_append_spaces hb, ih (after space s).length ?_ (after space s) rfl]
        have hle : (after space s).length ≤ s.length := (List.dropWhile_suffix _).length_le
        simp only [List.length_cons] at hn
        omega

/-- **Words split at whitespace.** -/
theorem words_append_space (hc : space c = true) (s t : List α) :
    words space (s ++ c :: t) = words space s ++ words space t := by
  induction hn : s.length using Nat.strongRecOn generalizing s with
  | ind n ih =>
    cases s with
    | nil => exact words_cons_space hc t
    | cons d s =>
      by_cases hd : space d = true
      · rw [List.cons_append, words_cons_space hd, words_cons_space hd]
        exact ih s.length (by simp [← hn]) s rfl
      · have hd' : space d = false := by simpa using hd
        have hhead : ∀ e u, after space s ++ c :: t = e :: u → space e = true := by
          intro e u h
          cases hafter : after space s with
          | nil =>
            rw [hafter] at h
            obtain ⟨rfl, -⟩ := List.cons.inj h
            exact hc
          | cons f v =>
            rw [hafter] at h
            obtain ⟨rfl, -⟩ := List.cons.inj h
            exact after_head hafter
        -- the first word ends before the space that was put in
        have hsplit : s ++ c :: t = first space s ++ (after space s ++ c :: t) := by
          rw [← List.append_assoc, first_append_after]
        rw [List.cons_append, words_cons hd', words_cons hd', hsplit,
          first_append (fun _ => first_no_space) hhead,
          after_append (fun _ => first_no_space) hhead,
          ih (after space s).length ?_ (after space s) rfl, List.cons_append]
        -- and what is behind it is shorter
        have hle : (after space s).length ≤ s.length := (List.dropWhile_suffix _).length_le
        simp only [List.length_cons] at hn
        omega

/-- A text without spaces is one word. -/
theorem words_word {w : List α} (hw : ∀ c ∈ w, space c = false) (hne : w ≠ []) :
    words space w = [w] := by
  have hfirst : first space w = w := by
    have h := first_append (t := []) hw nofun
    rwa [List.append_nil] at h
  have hafter : after space w = [] := by
    have h := after_append (t := []) hw nofun
    rwa [List.append_nil] at h
  rw [words_eq hne fun c t h => hw c (by rw [h]; exact List.mem_cons_self), hfirst, hafter]
  rfl

/-- So spaces on both sides do not matter. -/
theorem words_pad (ha : ∀ c ∈ a, space c = true) (hb : ∀ c ∈ b, space c = true) (s : List α) :
    words space (a ++ s ++ b) = words space s := by
  rw [words_append_spaces hb, words_spaces_append ha]

/-! ### Stripping -/

/-- `lstrip` takes a space away, -/
theorem lstrip_cons_space (h : space c = true) (s : List α) :
    lstrip space (c :: s) = lstrip space s := by
  simp [lstrip, h]

/-- and stops at another character. -/
theorem lstrip_cons (h : space c = false) (s : List α) : lstrip space (c :: s) = c :: s := by
  simp [lstrip, h]

/-- It takes all spaces in front. -/
theorem lstrip_spaces_append (ha : ∀ c ∈ a, space c = true) (s : List α) :
    lstrip space (a ++ s) = lstrip space s := by
  induction a with
  | nil => rfl
  | cons c a ih =>
    rw [List.cons_append, lstrip_cons_space (ha c List.mem_cons_self),
      ih fun d hd => ha d (List.mem_cons_of_mem _ hd)]

/-- What it leaves begins with no space. -/
theorem lstrip_head {t : List α} (h : lstrip space s = c :: t) : space c = false := by
  have hne : lstrip space s ≠ [] := by
    rw [h]
    nofun
  have hhead := List.head_dropWhile_not space (l := s) hne
  simp only [lstrip] at h
  simpa [h] using hhead

/-- `rstrip` takes all spaces at the end. -/
theorem rdropWhile_append_spaces (hb : ∀ c ∈ b, space c = true) (s : List α) :
    (s ++ b).rdropWhile space = s.rdropWhile space := by
  induction b using List.reverseRecOn with
  | nil => rw [List.append_nil]
  | append_singleton b c ih =>
    rw [← List.append_assoc, List.rdropWhile_concat_pos _ _ _ (hb c (by simp)),
      ih fun d hd => hb d (by simp [hd])]

/-- `strip` takes both. -/
theorem strip_pad (ha : ∀ c ∈ a, space c = true) (hb : ∀ c ∈ b, space c = true) (s : List α) :
    strip space (a ++ s ++ b) = strip space s := by
  unfold strip
  rw [List.append_assoc, lstrip_spaces_append ha]
  by_cases hs : lstrip space s = []
  · have hspaces : ∀ c ∈ s, space c = true := List.dropWhile_eq_nil_iff.mp hs
    have hall : lstrip space (s ++ b) = [] := by
      rw [lstrip_spaces_append hspaces]
      exact List.dropWhile_eq_nil_iff.mpr hb
    rw [hs, hall]
  · have happend : lstrip space (s ++ b) = lstrip space s ++ b := by
      unfold lstrip at hs ⊢
      rw [List.dropWhile_append, if_neg (by simpa using hs)]
    rw [happend, rdropWhile_append_spaces hb]

/-- A text is what remains when it is stripped, between whitespace. -/
theorem exists_strip (space : α → Bool) (s : List α) : ∃ a b, (∀ c ∈ a, space c = true) ∧
    (∀ c ∈ b, space c = true) ∧ s = a ++ strip space s ++ b := by
  refine ⟨s.takeWhile space, (lstrip space s).rtakeWhile space,
    fun _ h => List.mem_takeWhile_imp h, fun _ h => List.mem_rtakeWhile_imp h, ?_⟩
  rw [List.append_assoc, strip, List.rdropWhile_append_rtakeWhile, lstrip,
    List.takeWhile_append_dropWhile]

/-- Nothing is left of nothing. -/
@[simp] theorem strip_nil : strip space ([] : List α) = [] := rfl

/-- It leaves the words. -/
theorem words_strip (s : List α) : words space (strip space s) = words space s := by
  obtain ⟨a, b, ha, hb, hs⟩ := exists_strip space s
  conv_rhs => rw [hs]
  exact (words_pad ha hb _).symm

/-- It takes nothing the second time. -/
theorem strip_strip (s : List α) : strip space (strip space s) = strip space s := by
  obtain ⟨a, b, ha, hb, hs⟩ := exists_strip space s
  conv_rhs => rw [hs]
  exact (strip_pad ha hb _).symm

/-- What it leaves begins with no space. -/
theorem strip_head {t : List α} (h : strip space s = c :: t) : space c = false := by
  have hprefix : strip space s <+: lstrip space s := List.rdropWhile_prefix _ _
  rw [h] at hprefix
  obtain ⟨u, hu⟩ := hprefix
  exact lstrip_head hu.symm

/-- It leaves nothing exactly of a text without words. -/
theorem strip_eq_nil_iff : strip space s = [] ↔ words space s = [] := by
  constructor
  · intro h
    rw [← words_strip, h]
    rfl
  · intro h
    by_contra hne
    rw [← words_strip, words_eq hne fun c t => strip_head] at h
    cases h

/-- Otherwise the text begins with its first word. -/
theorem words_of_strip_ne (h : strip space s ≠ []) :
    words space s = first space (strip space s) :: words space (after space (strip space s)) := by
  rw [← words_strip, words_eq h fun c t => strip_head]

/-- The first word, and the words behind it. -/
theorem first_strip (s : List α) : first space (strip space s) = (words space s).headD [] := by
  by_cases h : strip space s = []
  · rw [h, strip_eq_nil_iff.mp h]
    rfl
  · rw [words_of_strip_ne h]
    rfl

/-- And behind it are the other words. -/
theorem words_after_strip (s : List α) :
    words space (after space (strip space s)) = (words space s).tail := by
  by_cases h : strip space s = []
  · rw [h, strip_eq_nil_iff.mp h]
    rfl
  · rw [words_of_strip_ne h]
    rfl

/-- A word, or nothing, with a text behind it that does not go on with it. -/
theorem words_word_append {w t : List α} (hw : ∀ c ∈ w, space c = false)
    (ht : ∀ c t', t = c :: t' → space c = true) :
    words space (w ++ t) = if w = [] then words space t else w :: words space t := by
  split
  · next h => rw [h, List.nil_append]
  · next h =>
    have hhead : ∀ c u, w ++ t = c :: u → space c = false := by
      intro c u heq
      obtain ⟨d, w', rfl⟩ := List.exists_cons_of_ne_nil h
      obtain ⟨rfl, -⟩ := List.cons.inj heq
      exact hw d List.mem_cons_self
    rw [words_eq (by simp [h]) hhead, first_append hw ht, after_append hw ht]

/-- A text with nothing but whitespace. -/
theorem strip_of_spaces (h : ∀ c ∈ s, space c = true) : strip space s = [] := by
  have hpad := strip_pad (a := s) (b := []) h nofun []
  rwa [List.append_nil, List.append_nil] at hpad

/-- Spaces at the end do not matter to it. -/
theorem strip_append_spaces (hb : ∀ c ∈ b, space c = true) (s : List α) :
    strip space (s ++ b) = strip space s := by
  have h := strip_pad (a := []) nofun hb s
  rwa [List.nil_append] at h

/-- A word with more words behind it. -/
theorem strip_word_append {w : List α} (hw : ∀ c ∈ w, space c = false) (hne : w ≠ [])
    (hs : strip space s ≠ []) : strip space (w ++ s) = w ++ s.rdropWhile space := by
  have hlstrip : lstrip space (w ++ s) = w ++ s := by
    obtain ⟨c, w, rfl⟩ := List.exists_cons_of_ne_nil hne
    exact lstrip_cons (hw c List.mem_cons_self) (w ++ s)
  have hrest : ¬ (s.reverse.dropWhile space).isEmpty = true := by
    intro hempty
    refine hs (strip_of_spaces fun c hc => ?_)
    exact List.dropWhile_eq_nil_iff.mp (List.isEmpty_iff.mp hempty) c (List.mem_reverse.mpr hc)
  rw [strip, hlstrip, List.rdropWhile, List.reverse_append, List.dropWhile_append, if_neg hrest,
    List.reverse_append, List.reverse_reverse]
  rfl

/-- A word with nothing but whitespace behind it. -/
theorem strip_word_spaces {w : List α} (hw : ∀ c ∈ w, space c = false)
    (hs : ∀ c ∈ s, space c = true) : strip space (w ++ s) = w := by
  rw [strip_append_spaces hs]
  have hlstrip : lstrip space w = w := by
    cases w with
    | nil => rfl
    | cons c w => exact lstrip_cons (hw c List.mem_cons_self) w
  rw [strip, hlstrip, List.rdropWhile_eq_self_iff]
  intro hl hspace
  rw [hw _ (List.getLast_mem hl)] at hspace
  cases hspace

/-- Nor whether they have been taken before. -/
theorem strip_rdropWhile (s : List α) : strip space (s.rdropWhile space) = strip space s := by
  have h := strip_append_spaces (b := s.rtakeWhile space) (fun _ h => List.mem_rtakeWhile_imp h)
    (s.rdropWhile space)
  rw [List.rdropWhile_append_rtakeWhile] at h
  exact h.symm

/-- A text of which nothing is left consists of spaces. -/
theorem spaces_of_strip (h : strip space s = []) : ∀ c ∈ s, space c = true := by
  obtain ⟨a, b, ha, hb, hs⟩ := exists_strip space s
  rw [h, List.append_nil] at hs
  intro c hc
  rw [hs] at hc
  rcases List.mem_append.mp hc with hc | hc
  · exact ha c hc
  · exact hb c hc

/-! ### The text behind the first words -/

/-- Whitespace at the end of a text stays behind its first words, or there are no more. -/
theorem dropWords_append_spaces (k : Nat) (hb : ∀ c ∈ b, space c = true) (s : List α) :
    ∃ b', (∀ c ∈ b', space c = true) ∧ dropWords space k (s ++ b) = dropWords space k s ++ b' := by
  induction k generalizing s b with
  | zero => exact ⟨b, hb, rfl⟩
  | succ k ih =>
    unfold dropWords
    by_cases hs : lstrip space s = []
    · have hspaces : ∀ c ∈ s, space c = true := List.dropWhile_eq_nil_iff.mp hs
      refine ⟨[], nofun, ?_⟩
      rw [lstrip_spaces_append hspaces, hs, List.append_nil]
      rw [show lstrip space b = [] from List.dropWhile_eq_nil_iff.mpr hb]
    · have happend : lstrip space (s ++ b) = lstrip space s ++ b := by
        unfold lstrip at hs ⊢
        rw [List.dropWhile_append, if_neg (by simpa using hs)]
      rw [happend, after_append_spaces hb]
      exact ih hb _

/-- **Word by word.**  Stripping before each word leaves the same text at the end. -/
theorem strip_dropWords_succ (k : Nat) (s : List α) :
    strip space (dropWords space (k + 1) s) =
      strip space (dropWords space k (after space (strip space s))) := by
  have hlstrip : lstrip space s = strip space s ++ (lstrip space s).rtakeWhile space :=
    List.rdropWhile_append_rtakeWhile.symm
  have hb : ∀ c ∈ (lstrip space s).rtakeWhile space, space c = true :=
    fun _ h => List.mem_rtakeWhile_imp h
  rw [dropWords, hlstrip, after_append_spaces hb]
  obtain ⟨b', hb', h⟩ := dropWords_append_spaces k hb (after space (strip space s))
  rw [h, strip_append_spaces hb']

end Maubot.Words
