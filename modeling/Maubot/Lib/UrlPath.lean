import Mathlib.Data.List.Basic
import Mathlib.Tactic.Common

namespace Maubot.UrlPath

/-!
# URL paths — separators and percent-decoding

A path is a list of characters.  Its segments and its decoding are developed here, for an
arbitrary separator and an arbitrary percent-decoder:

* `split` / `join` — the segments between separators, and their inverse
  (`join_split`, `split_join`);
* `Inside` / `Under` — one path starts another up to a separator;
* `unquote keep` — percent-decoding that leaves the triples of the characters in
  `keep` encoded.  Decoding never looks across a separator (`unquote_join`), so the
  fully decoded path is the join of the decoded segments, whatever the segments hold.
-/

/-! ### Segments -/

section Segments

variable {α : Type} (sep : α)

/-- Put `c` in front of the first segment. -/
def consHead (c : α) : List (List α) → List (List α)
  | []      => [[c]]
  | s :: ss => (c :: s) :: ss

/-- Put the segments together again, a separator between neighbours. -/
def join : List (List α) → List α
  | []      => []
  | s :: ss => s ++ ss.flatMap (fun t => sep :: t)

/-- No segments are joined to nothing, -/
@[simp] theorem join_nil : join sep [] = [] := rfl

/-- and one to itself. -/
@[simp] theorem join_singleton (s : List α) : join sep [s] = s := by simp [join]

/-- Between two there is a separator. -/
theorem join_cons_cons (s t : List α) (ss : List (List α)) :
    join sep (s :: t :: ss) = s ++ sep :: join sep (t :: ss) := by
  simp [join]

/-- A character in front belongs to the first segment. -/
theorem join_consHead (c : α) {ss : List (List α)} (h : ss ≠ []) :
    join sep (consHead c ss) = c :: join sep ss := by
  cases ss with
  | nil => exact absurd rfl h
  | cons s ts => simp [consHead, join]

variable [DecidableEq α]

/-- The segments between the separators; there is always at least one. -/
def split : List α → List (List α)
  | []      => [[]]
  | c :: cs => if c = sep then [] :: split cs else consHead c (split cs)

/-- There is always a segment. -/
theorem split_ne_nil (l : List α) : split sep l ≠ [] := by
  cases l with
  | nil => simp [split]
  | cons c cs =>
    simp only [split]
    split
    · simp
    · cases UrlPath.split sep cs <;> simp [consHead]

/-- A separator-free prefix up to a separator is the first segment. -/
theorem split_append_sep {a : List α} (ha : sep ∉ a) (b : List α) :
    split sep (a ++ sep :: b) = a :: split sep b := by
  induction a with
  | nil => simp [split]
  | cons c cs ih =>
    have hc : c ≠ sep := fun h => ha (by simp [h])
    have ih' := ih (fun h => ha (by simp [h]))
    simp only [List.cons_append, split, if_neg hc, ih', consHead]

/-- A separator divides the segments. -/
theorem split_append (a b : List α) : split sep (a ++ sep :: b) = split sep a ++ split sep b := by
  induction a with
  | nil => simp [split]
  | cons c cs ih =>
    by_cases hc : c = sep
    · simp only [List.cons_append, split, if_pos hc, ih]
    · obtain ⟨s, ss, hs⟩ := List.exists_cons_of_ne_nil (split_ne_nil sep cs)
      simp only [List.cons_append, split, if_neg hc, ih, hs, consHead]

/-- Without one there is one segment. -/
theorem split_of_not_mem {a : List α} (ha : sep ∉ a) : split sep a = [a] := by
  induction a with
  | nil => rfl
  | cons c cs ih =>
    have hc : c ≠ sep := fun h => ha (by simp [h])
    simp only [split, if_neg hc, ih (fun h => ha (by simp [h])), consHead]

/-- Splitting what was joined gives the segments back. -/
theorem split_join (ss : List (List α)) (hne : ss ≠ []) (hss : ∀ s ∈ ss, sep ∉ s) :
    split sep (join sep ss) = ss := by
  induction ss with
  | nil => exact absurd rfl hne
  | cons s ts ih =>
    cases ts with
    | nil => rw [join_singleton]; exact split_of_not_mem sep (hss s (by simp))
    | cons t ts =>
      rw [join_cons_cons, split_append_sep sep (hss s (by simp)),
        ih (by simp) (fun u hu => hss u (by simp [hu]))]

/-- Joining the segments of a path gives the path back. -/
theorem join_split (l : List α) : join sep (split sep l) = l := by
  induction l with
  | nil => rfl
  | cons c cs ih =>
    simp only [split]
    split
    · rename_i h
      obtain ⟨s, ss, hs⟩ := List.exists_cons_of_ne_nil (split_ne_nil sep cs)
      rw [hs, join_cons_cons, ← hs, ih, h]; rfl
    · rw [join_consHead sep c (split_ne_nil sep cs), ih]

/-- No segment has a separator, -/
theorem not_mem_of_mem_split {l s : List α} (hs : s ∈ split sep l) : sep ∉ s := by
  induction l generalizing s with
  | nil => simp only [split, List.mem_singleton] at hs; simp [hs]
  | cons c cs ih =>
    simp only [split] at hs
    split at hs
    · rcases List.mem_cons.mp hs with rfl | hs
      · simp
      · exact ih hs
    · rename_i hc
      obtain ⟨t, ts, ht⟩ := List.exists_cons_of_ne_nil (split_ne_nil sep cs)
      rw [ht] at hs ih
      rcases List.mem_cons.mp hs with rfl | hs
      · have := ih (s := t) (by simp)
        simp only [List.mem_cons, not_or]
        exact ⟨fun h => hc h.symm, this⟩
      · exact ih (by simp [hs])

/-- There is a last one. -/
theorem exists_split_concat (l : List α) : ∃ init last, split sep l = init ++ [last] := by
  obtain ⟨init, last, h⟩ := (List.eq_nil_or_concat (split sep l)).resolve_left (split_ne_nil sep l)
  exact ⟨init, last, h.trans (List.concat_eq_append ..)⟩

/-- A path is its last segment, or has a separator in front of it. -/
theorem split_last_cases (l : List α) : ∃ last, (split sep l).getLast? = some last ∧
    sep ∉ last ∧ (l = last ∨ ∃ front, l = front ++ sep :: last) := by
  obtain ⟨init, last, h⟩ := exists_split_concat sep l
  have hl : l = join sep (init ++ [last]) := by rw [← h, join_split]
  refine ⟨last, by rw [h, List.getLast?_concat],
    not_mem_of_mem_split sep (l := l) (by simp [h]), ?_⟩
  cases init with
  | nil => exact .inl (by simpa using hl)
  | cons s ss => exact .inr ⟨join sep (s :: ss), hl.trans (by simp [join, List.flatMap_append])⟩

/-- The last segment of one path and the first of the other are one segment of both together. -/
theorem split_append_glue {a b : List α} {init ss : List (List α)} {s t : List α}
    (ha : split sep a = init ++ [s]) (hb : split sep b = t :: ss) :
    split sep (a ++ b) = init ++ (s ++ t) :: ss := by
  induction a generalizing init s with
  | nil =>
    have hinit : init = [] := by
      cases init with
      | nil => rfl
      | cons i init => simp [split] at ha
    subst hinit
    obtain rfl : [] = s := (List.cons.inj ha).1
    exact hb
  | cons c a ih =>
    rw [List.cons_append, split]
    rw [split] at ha
    -- a separator closes a segment; any other character belongs to the first one
    by_cases hc : c = sep
    · rw [if_pos hc] at ha ⊢
      cases init with
      | nil => exact absurd (List.cons.inj ha).2 (split_ne_nil sep a)
      | cons i init =>
        obtain ⟨rfl, htail⟩ := List.cons.inj ha
        rw [ih htail, List.cons_append]
    · rw [if_neg hc] at ha ⊢
      obtain ⟨u, us, hus⟩ := List.exists_cons_of_ne_nil (split_ne_nil sep a)
      rw [hus, consHead] at ha
      cases init with
      | nil =>
        obtain ⟨rfl, rfl⟩ := List.cons.inj ha
        rw [@ih [] u hus]
        rfl
      | cons i init =>
        obtain ⟨rfl, rfl⟩ := List.cons.inj ha
        rw [@ih (u :: init) s hus]
        rfl

end Segments

/-! ### Segment boundaries -/

section Boundaries

variable {α : Type} (sep : α)

/-- `path` goes on after `dir` and a separator. -/
def Inside (dir path : List α) : Prop := dir ++ [sep] <+: path

/-- `path` is `dir`, or is inside it. -/
def Under (dir path : List α) : Prop := path = dir ∨ Inside sep dir path

variable {sep} {dir path rest : List α}

instance [DecidableEq α] : Decidable (Inside sep dir path) :=
  inferInstanceAs (Decidable (_ <+: _))

instance [DecidableEq α] : Decidable (Under sep dir path) :=
  inferInstanceAs (Decidable (_ ∨ _))

/-- A path is inside a directory if it goes on behind a separator. -/
theorem inside_iff : Inside sep dir path ↔ ∃ rest, path = dir ++ sep :: rest := by
  constructor
  · rintro ⟨rest, rfl⟩
    exact ⟨rest, by simp⟩
  · rintro ⟨rest, rfl⟩
    exact ⟨rest, by simp⟩

/-- What is under a directory begins with it. -/
theorem Under.isPrefix (h : Under sep dir path) : dir <+: path := by
  rcases h with rfl | h
  · exact List.prefix_refl _
  · exact (List.prefix_append dir [sep]).trans h

/-- What stands behind `dir` is nothing, or starts with a separator. -/
theorem under_append_iff : Under sep dir (dir ++ rest) ↔ rest = [] ∨ ∃ cs, rest = sep :: cs := by
  unfold Under
  rw [inside_iff]
  simp

end Boundaries

/-! ### Percent-decoding -/

/-- The value of a hexadecimal digit. -/
def hexDigit (c : Char) : Option Nat :=
  if '0' ≤ c ∧ c ≤ '9' then some (c.toNat - '0'.toNat)
  else if 'a' ≤ c ∧ c ≤ 'f' then some (c.toNat - 'a'.toNat + 10)
  else if 'A' ≤ c ∧ c ≤ 'F' then some (c.toNat - 'A'.toNat + 10)
  else none

/-- The character a pair of hexadecimal digits stands for. -/
def hexPair (a b : Char) : Option Char :=
  match hexDigit a, hexDigit b with
  | some x, some y => some (Char.ofNat (16 * x + y))
  | _, _           => none

/-- Percent-decode, leaving the triples of the characters in `keep` as they are.  A `%`
    that starts no triple is an ordinary character. -/
def unquote (keep : Char → Bool) : List Char → List Char
  | '%' :: a :: b :: rest =>
    match hexPair a b with
    | some c => if keep c then '%' :: a :: b :: unquote keep rest else c :: unquote keep rest
    | none   => '%' :: unquote keep (a :: b :: rest)
  | c :: rest => c :: unquote keep rest
  | [] => []

/-- Nothing is unquoted to nothing. -/
@[simp] theorem unquote_nil (keep : Char → Bool) : unquote keep [] = [] := by
  simp [unquote]

/-- A character that is no percent sign stays. -/
theorem unquote_cons_ne {c : Char} (keep : Char → Bool) (hc : c ≠ '%') (rest : List Char) :
    unquote keep (c :: rest) = c :: unquote keep rest := by
  rw [unquote.eq_def]
  split
  · rename_i h; simp only [List.cons.injEq] at h; exact absurd h.1 hc
  · rename_i h; simp only [List.cons.injEq] at h; rw [h.1, h.2]
  · simp_all

/-- Without a `%` there is nothing to decode. -/
theorem unquote_eq_self (keep : Char → Bool) {s : List Char} (h : '%' ∉ s) :
    unquote keep s = s := by
  induction s with
  | nil => exact unquote_nil keep
  | cons c s ih =>
    have hc : c ≠ '%' := fun hc => h (hc ▸ List.mem_cons_self)
    rw [unquote_cons_ne keep hc, ih fun hs => h (List.mem_cons_of_mem _ hs)]

/-- No triple reaches across a separator: a slash is no hexadecimal digit. -/
theorem hexPair_slash_left (b : Char) : hexPair '/' b = none := by
  simp [hexPair, show hexDigit '/' = none by decide]

/-- A slash is no digit of a pair. -/
theorem hexPair_slash_right (a : Char) : hexPair a '/' = none := by
  simp only [hexPair, show hexDigit '/' = none by decide]
  cases hexDigit a <;> rfl

/-- **Decoding is segment-wise.** A separator ends whatever stands before it. -/
theorem unquote_append_slash (keep : Char → Bool) (a b : List Char) :
    unquote keep (a ++ '/' :: b) = unquote keep a ++ '/' :: unquote keep b := by
  fun_induction unquote keep a with
  | case1 x y rest c hxy hk ih => simp [unquote, hxy, hk, ih]
  | case2 x y rest c hxy hk ih => simp [unquote, hxy, hk, ih]
  | case3 x y rest hxy ih =>
    simp only [List.cons_append] at ih ⊢
    rw [unquote.eq_def]
    simp only [hxy, ih]
  | case4 c rest hne ih =>
    by_cases hc : c = '%'
    · subst hc
      -- fewer than two characters follow the `%`, so the slash is one of the two digits
      match rest, hne with
      | [], _ =>
        cases b with
        | nil => simp [unquote]
        | cons d ds => simp [unquote, hexPair_slash_left]
      | [x], _ =>
        simp only [List.cons_append, List.nil_append] at ih ⊢
        rw [unquote.eq_def]
        simp only [hexPair_slash_right, ih]
      | x :: y :: zs, hne => exact absurd rfl (hne x y zs rfl)
    · rw [List.cons_append, unquote_cons_ne keep hc, ih, List.cons_append]
  | case5 => simp [unquote_cons_ne keep (show ('/' : Char) ≠ '%' by decide)]

/-- The decoded path is the join of the decoded segments. -/
theorem unquote_join (keep : Char → Bool) (ss : List (List Char)) :
    unquote keep (join '/' ss) = join '/' (ss.map (unquote keep)) := by
  induction ss with
  | nil => simp
  | cons s ts ih =>
    cases ts with
    | nil => simp
    | cons t ts =>
      simp only [join_cons_cons, unquote_append_slash, ih, List.map_cons]

/-- A decoder that keeps the slash encoded brings no slash into a segment. -/
theorem slash_not_mem_unquote {keep : Char → Bool} (hk : keep '/' = true) {s : List Char}
    (hs : '/' ∉ s) : '/' ∉ unquote keep s := by
  fun_induction unquote keep s with
  | case1 x y rest c hxy hc ih => simp_all
  | case2 x y rest c hxy hc ih =>
    have hne : '/' ≠ c := by rintro rfl; exact hc hk
    simp_all
  | case3 x y rest hxy ih => simp_all
  | case4 c rest hne ih => simp_all
  | case5 => simp

/-- Where a decoder left no `%` behind, it decoded everything. -/
theorem unquote_of_no_percent {keep : Char → Bool} {s : List Char}
    (hs : '%' ∉ unquote keep s) : unquote (fun _ => false) s = unquote keep s := by
  fun_induction unquote keep s with
  | case1 x y rest c hxy hc ih => simp at hs
  | case2 x y rest c hxy hc ih =>
    simp only [List.mem_cons, not_or] at hs
    simp [unquote, hxy, ih hs.2]
  | case3 x y rest hxy ih => simp at hs
  | case4 c rest hne ih =>
    simp only [List.mem_cons, not_or] at hs
    rw [unquote_cons_ne _ (fun h => hs.1 h.symm), ih hs.2]
  | case5 => simp

/-- A decoder that keeps the slash encoded keeps the segments: they are the decoded
    segments of the raw path. -/
theorem split_unquote {keep : Char → Bool} (hk : keep '/' = true) (l : List Char) :
    split '/' (unquote keep l) = (split '/' l).map (unquote keep) := by
  conv_lhs => rw [← join_split '/' l, unquote_join]
  refine split_join '/' _ (by simp [split_ne_nil]) ?_
  intro s hs
  obtain ⟨t, ht, rfl⟩ := List.mem_map.mp hs
  exact slash_not_mem_unquote hk (not_mem_of_mem_split '/' ht)

end Maubot.UrlPath
