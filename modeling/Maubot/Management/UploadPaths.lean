import Maubot.Management.PluginUpload

namespace Maubot

/-!
# Plugin uploads — which file is written

The file of a new plugin is named after its id and version; that of an update is the old name
with the new version in the place of the old one, wherever the text of the old version stands.

* `Replaced` — two texts that differ in the version only; `subVersion` computes the second;
* `NamedAfter` — the names that uploads give to files; they tell the id;
* `Conventional` — the files of a directory have such names, or names of another kind;
* `upload_paths_safe` — between such files, an upload writes to a new one in the right directory if
  the id does not lead elsewhere, or the version that is replaced is not in the id.
-/

namespace ZipLoader

open Zipimport OsPath UrlPath

/-! ### Replacing a version -/

/-- What `(-ts[0-9]+)?` matches, and what follows it. -/
inductive Timestamp : List Char → List Char → Prop
  | none {rest : List Char}
      (h : ∀ c cs, rest = "-ts".toList ++ c :: cs → c.isDigit = false) : Timestamp [] rest
  | digits {ds rest : List Char} (hne : ds ≠ []) (hds : ∀ c ∈ ds, c.isDigit = true)
      (h : ∀ c cs, rest = c :: cs → c.isDigit = false) : Timestamp ("-ts".toList ++ ds) rest

/-- The second text is the first one with `new` for each `old` and its timestamp, from left to
    right. -/
inductive Replaced (old new : List Char) : List Char → List Char → Prop
  | nil : Replaced old new [] []
  | keep {c : Char} {cs cs' : List Char} (h : ¬ old <+: c :: cs) (hcs : Replaced old new cs cs') :
      Replaced old new (c :: cs) (c :: cs')
  | swap {ts rest rest' : List Char} (h : Timestamp ts rest) (hrest : Replaced old new rest rest') :
      Replaced old new (old ++ (ts ++ rest)) (new ++ rest')

/-- Digits end where no digit follows. -/
theorem takeWhile_append_of_digits {ds rest : List Char} (hds : ∀ c ∈ ds, c.isDigit = true)
    (h : ∀ c cs, rest = c :: cs → c.isDigit = false) :
    (ds ++ rest).takeWhile Char.isDigit = ds := by
  rw [List.takeWhile_append_of_pos hds]
  cases rest with
  | nil => simp
  | cons c cs => simp [h c cs rfl]

/-- So the length of a timestamp is its own. -/
theorem timestampLength_eq {ts rest : List Char} (h : Timestamp ts rest) :
    timestampLength (ts ++ rest) = ts.length := by
  cases h with
  | none h =>
    rw [List.nil_append]
    unfold timestampLength
    split
    · next hp =>
      obtain ⟨t, rfl⟩ := List.isPrefixOf_iff_prefix.mp hp
      have hdrop : ("-ts".toList ++ t).drop 3 = t := rfl
      rw [hdrop]
      cases t with
      | nil => rfl
      | cons c cs => simp [h c cs rfl]
    · rfl
  | @digits ds _ hne hds h =>
    unfold timestampLength
    have hp : "-ts".toList.isPrefixOf ("-ts".toList ++ ds ++ rest) = true := by
      rw [List.isPrefixOf_iff_prefix, List.append_assoc]
      exact List.prefix_append _ _
    have hdrop : ("-ts".toList ++ ds ++ rest).drop 3 = ds ++ rest := rfl
    rw [if_pos hp, hdrop, takeWhile_append_of_digits hds h]
    cases ds with
    | nil => exact absurd rfl hne
    | cons d ds =>
      simp only [List.length_append, List.length_cons]
      rfl

/-- Every text begins with a timestamp, or with none. -/
theorem exists_timestamp (text : List Char) :
    ∃ ts rest, text = ts ++ rest ∧ Timestamp ts rest := by
  by_cases h : ∃ c cs, text = "-ts".toList ++ c :: cs ∧ c.isDigit = true
  · obtain ⟨c, cs, rfl, hc⟩ := h
    refine ⟨"-ts".toList ++ (c :: cs).takeWhile Char.isDigit, (c :: cs).dropWhile Char.isDigit,
      ?_, .digits (by simp [hc]) (fun d hd => ?_) fun d ds hd => ?_⟩
    · rw [List.append_assoc, List.takeWhile_append_dropWhile]
    · exact List.mem_takeWhile_imp hd
    · have := List.head?_dropWhile_not Char.isDigit (c :: cs)
      rw [hd] at this
      simpa using this
  · refine ⟨[], text, rfl, .none fun c cs he => ?_⟩
    cases hc : c.isDigit with
    | false => rfl
    | true => exact absurd ⟨c, cs, he, hc⟩ h

/-- The substitution skips what it has replaced, -/
theorem subVersion_skip (old new : List Char) (k : Nat) (text : List Char) :
    subVersion old new k text = subVersion old new 0 (text.drop k) := by
  induction k generalizing text with
  | zero => rfl
  | succ k ih =>
    cases text with
    | nil => rfl
    | cons c cs => exact ih cs

/-- keeps a character where no version begins, -/
theorem subVersion_keep {old new : List Char} {c : Char} {cs : List Char}
    (h : ¬ old <+: c :: cs) : subVersion old new 0 (c :: cs) = c :: subVersion old new 0 cs := by
  rw [← List.isPrefixOf_iff_prefix] at h
  simp only [subVersion, if_neg h]

/-- and replaces one with its timestamp. -/
theorem subVersion_swap {old new ts rest : List Char} (hne : old ≠ []) (h : Timestamp ts rest) :
    subVersion old new 0 (old ++ (ts ++ rest)) = new ++ subVersion old new 0 rest := by
  obtain ⟨c, old, rfl⟩ := List.exists_cons_of_ne_nil hne
  have hp : (c :: old).isPrefixOf (c :: (old ++ (ts ++ rest))) = true := by
    rw [List.isPrefixOf_iff_prefix, ← List.cons_append]
    exact List.prefix_append _ _
  have hdrop : (c :: (old ++ (ts ++ rest))).drop (c :: old).length = ts ++ rest := by
    rw [← List.cons_append, List.drop_left]
  have hlen : (c :: old).length + ts.length - 1 = (old ++ ts).length := by
    simp only [List.length_cons, List.length_append]
    omega
  rw [List.cons_append, subVersion, if_pos hp, hdrop, timestampLength_eq h]
  dsimp only
  rw [subVersion_skip _ _ ((c :: old).length + ts.length - 1), hlen, ← List.append_assoc,
    List.drop_left]

/-- **What `re.sub` does** -/
theorem replaced_iff {old new text text' : List Char} (hne : old ≠ []) :
    Replaced old new text text' ↔ subVersion old new 0 text = text' := by
  constructor
  · intro h
    induction h with
    | nil => rfl
    | keep h _ ih => rw [subVersion_keep h, ih]
    | swap h _ ih => rw [subVersion_swap hne h, ih]
  · -- the substitution goes on behind what it has replaced, so by induction on the length
    rintro rfl
    generalize hn : text.length = n
    induction n using Nat.strongRecOn generalizing text with
    | ind n ih =>
      cases text with
      | nil => exact .nil
      | cons c cs =>
        by_cases hp : old <+: c :: cs
        · obtain ⟨t, ht⟩ := hp
          obtain ⟨ts, rest, rfl, hts⟩ := exists_timestamp t
          rw [← ht, subVersion_swap hne hts]
          have hlt : rest.length < n := by
            have hpos := List.length_pos_of_ne_nil hne
            rw [← hn, ← ht]
            simp only [List.length_append]
            omega
          exact .swap hts (ih _ hlt rfl)
        · rw [subVersion_keep hp]
          have hlt : cs.length < n := by
            rw [← hn]
            exact Nat.lt_succ_self _
          exact .keep hp (ih _ hlt rfl)

/-! ### Names that are their own replacements -/

/-- A replaced text has the characters of the text and of the new version. -/
theorem mem_of_replaced {old new text text' : List Char} (h : Replaced old new text text')
    {c : Char} (hc : c ∈ text') : c ∈ text ∨ c ∈ new := by
  induction h with
  | nil => exact .inl hc
  | keep _ _ ih =>
    rcases List.mem_cons.mp hc with rfl | hc
    · exact .inl List.mem_cons_self
    · exact (ih hc).imp_left (List.mem_cons_of_mem _)
  | swap _ _ ih =>
    rcases List.mem_append.mp hc with hc | hc
    · exact .inr hc
    · exact (ih hc).imp_left fun h => List.mem_append_right _ (List.mem_append_right _ h)

/-- What stands for an occurrence is in the second text. -/
theorem mem_replaced {old new text text' : List Char} (hne : old ≠ [])
    (h : Replaced old new text text') (ho : old <:+: text) {c : Char} (hc : c ∈ new) :
    c ∈ text' := by
  induction h with
  | nil => exact absurd (List.infix_nil.mp ho) hne
  | keep hp _ ih =>
    rcases List.infix_cons_iff.mp ho with ho | ho
    · exact absurd ho hp
    · exact List.mem_cons_of_mem _ (ih ho)
  | swap _ _ _ => exact List.mem_append_left _ hc

/-- Dashes and lengths of two texts: `k` occurrences, `t` of them with timestamps, which have
    `n` characters together. -/
theorem replaced_counts {old new text text' : List Char} (hold : '-' ∉ old) (hne : old ≠ [])
    (h : Replaced old new text text') : ∃ k t n, t ≤ k ∧ (t = 0 → n = 0) ∧
      (old <:+: text → 0 < k) ∧
      text'.count '-' + t = text.count '-' + k * new.count '-' ∧
      text'.length + k * old.length + n = text.length + k * new.length := by
  have hold0 : old.count '-' = 0 := List.count_eq_zero.mpr hold
  -- `k` versions are replaced, `t` of them with a timestamp, which take `n` characters in all
  induction h with
  | nil =>
    exact ⟨0, 0, 0, le_rfl, fun _ => rfl, fun ho => absurd (List.infix_nil.mp ho) hne, by simp,
      by simp⟩
  | keep hp _ ih =>
    obtain ⟨k, t, n, htk, htn, hpos, hdash, hlen⟩ := ih
    refine ⟨k, t, n, htk, htn, fun ho => ?_, ?_, ?_⟩
    · rcases List.infix_cons_iff.mp ho with ho | ho
      · exact absurd ho hp
      · exact hpos ho
    · simp only [List.count_cons]
      omega
    · simp only [List.length_cons]
      omega
  | swap hts _ ih =>
    obtain ⟨k, t, n, htk, htn, -, hdash, hlen⟩ := ih
    cases hts with
    | none _ =>
      refine ⟨k + 1, t, n, by omega, htn, fun _ => Nat.succ_pos k, ?_, ?_⟩
      · simp only [List.count_append, List.count_nil, Nat.add_one_mul]
        omega
      · simp only [List.length_append, List.length_nil, Nat.add_one_mul]
        omega
    | @digits ds _ hds hdigits _ =>
      have hdash0 : ds.count '-' = 0 := List.count_eq_zero.mpr fun hmem =>
        absurd (hdigits _ hmem) (by decide)
      have hts1 : "-ts".toList.count '-' = 1 := by decide
      have hts3 : "-ts".toList.length = 3 := by decide
      refine ⟨k + 1, t + 1, n + (3 + ds.length), by omega, fun h => absurd h (Nat.succ_ne_zero t),
        fun _ => Nat.succ_pos k, ?_, ?_⟩
      · simp only [List.count_append, Nat.add_one_mul]
        omega
      · simp only [List.length_append, Nat.add_one_mul]
        omega

/-- With texts of one length, only the same version leaves a name as it is. -/
theorem eq_of_replaced_self {old new text text' : List Char} (hne : old ≠ [])
    (h : Replaced old new text text') (hself : text = text') (ho : old <:+: text)
    (hlen : old.length = new.length) : old = new := by
  induction h with
  | nil => exact absurd (List.infix_nil.mp ho) hne
  | keep hp _ ih =>
    rcases List.infix_cons_iff.mp ho with ho | ho
    · exact absurd ho hp
    · exact ih (List.cons.inj hself).2 ho
  | swap _ _ _ => exact (List.append_inj hself hlen).1

/-- **Another version, another name.** -/
theorem not_replaced_self {old new text : List Char} (hold : '-' ∉ old) (hnew : '-' ∉ new)
    (hne : old ≠ []) (ho : old <:+: text) (hdiff : old ≠ new) : ¬ Replaced old new text text := by
  intro h
  obtain ⟨k, t, n, -, htn, hpos, hdash, hlen⟩ := replaced_counts hold hne h
  have hnew0 : new.count '-' = 0 := List.count_eq_zero.mpr hnew
  have ht : t = 0 := by
    rw [hnew0] at hdash
    omega
  have hn := htn ht
  have hk : k * old.length = k * new.length := by omega
  exact hdiff (eq_of_replaced_self hne h rfl ho (Nat.eq_of_mul_eq_mul_left (hpos ho) hk))

/-- Each occurrence of the version in the text has this timestamp. -/
inductive Stamped (version digits : List Char) : List Char → Prop
  | nil : Stamped version digits []
  | keep {c : Char} {cs : List Char} (h : ¬ version <+: c :: cs) (hcs : Stamped version digits cs) :
      Stamped version digits (c :: cs)
  | stamp {rest : List Char} (h : ∀ c cs, rest = c :: cs → c.isDigit = false)
      (hrest : Stamped version digits rest) :
      Stamped version digits (version ++ ("-ts".toList ++ digits ++ rest))

/-- A version that is there has the timestamp behind it. -/
theorem Stamped.isInfix {version digits text : List Char} (hne : version ≠ [])
    (h : Stamped version digits text) (ho : version <:+: text) :
    "-ts".toList ++ digits <:+: text := by
  induction h with
  | nil => exact absurd (List.infix_nil.mp ho) hne
  | @keep c cs hp _ ih =>
    rcases List.infix_cons_iff.mp ho with ho | ho
    · exact absurd ho hp
    · exact (ih ho).trans (List.suffix_cons c cs).isInfix
  | @stamp rest _ _ _ => exact ⟨version, rest, by simp only [List.append_assoc]⟩

/-- A version with a timestamp is replaced by itself. -/
theorem replaced_of_stamped {version digits text : List Char} (hne : digits ≠ [])
    (hdigits : ∀ c ∈ digits, c.isDigit = true) (h : Stamped version digits text) :
    Replaced version (version ++ ("-ts".toList ++ digits)) text text := by
  induction h with
  | nil => exact .nil
  | keep h _ ih => exact .keep h ih
  | stamp h _ ih =>
    have hswap : Replaced version (version ++ ("-ts".toList ++ digits)) _ _ :=
      .swap (.digits hne hdigits h) ih
    rwa [List.append_assoc version] at hswap

/-- Cut at the first dash. -/
theorem append_dash_inj {a b x y : List Char} (ha : '-' ∉ a) (hb : '-' ∉ b)
    (h : a ++ '-' :: x = b ++ '-' :: y) : a = b ∧ x = y := by
  induction a generalizing b with
  | nil =>
    cases b with
    | nil => exact ⟨rfl, (List.cons.inj h).2⟩
    | cons c b => exact absurd ((List.cons.inj h).1 ▸ List.mem_cons_self) hb
  | cons c a ih =>
    cases b with
    | nil => exact absurd ((List.cons.inj h).1 ▸ List.mem_cons_self) ha
    | cons d b =>
      obtain ⟨rfl, ht⟩ := List.cons.inj h
      obtain ⟨rfl, hxy⟩ := ih (fun hm => ha (List.mem_cons_of_mem _ hm))
        (fun hm => hb (List.mem_cons_of_mem _ hm)) ht
      exact ⟨rfl, hxy⟩

/-- The same version: a name with the timestamp of now in each place. -/
theorem stamped_of_replaced_self {old new digits text text' : List Char} (hold : '-' ∉ old)
    (hnew : '-' ∉ new) (hfirst : ∃ c rest, old = c :: rest ∧ c.isDigit = true)
    (hdigits : ∀ c ∈ digits, c.isDigit = true)
    (h : Replaced old (new ++ ("-ts".toList ++ digits)) text text') (hself : text = text') :
    Stamped old digits text ∧ (old <:+: text → old = new) := by
  have hne : old ≠ [] := by
    obtain ⟨c, rest, rfl, -⟩ := hfirst
    exact List.cons_ne_nil _ _
  have hcount : (new ++ ("-ts".toList ++ digits)).count '-' = 1 := by
    have hnew0 : new.count '-' = 0 := List.count_eq_zero.mpr hnew
    have hdigits0 : digits.count '-' = 0 := List.count_eq_zero.mpr fun hm =>
      absurd (hdigits '-' hm) (by decide)
    have hts1 : "-ts".toList.count '-' = 1 := by decide
    rw [List.count_append, List.count_append]
    omega
  induction h with
  | nil => exact ⟨.nil, fun ho => absurd (List.infix_nil.mp ho) hne⟩
  | keep hp _ ih =>
    obtain ⟨hst, heq⟩ := ih (List.cons.inj hself).2
    refine ⟨.keep hp hst, fun ho => ?_⟩
    rcases List.infix_cons_iff.mp ho with ho | ho
    · exact absurd ho hp
    · exact heq ho
  | @swap ts rest rest' hts hrest ih =>
    obtain ⟨k, t, n, htk, -, -, hdash, -⟩ := replaced_counts hold hne hrest
    rw [hcount] at hdash
    cases hts with
    | none _ =>
      -- one dash more in the second text, at least
      have hc := congrArg (List.count '-') hself
      have hold0 : old.count '-' = 0 := List.count_eq_zero.mpr hold
      rw [List.nil_append, List.count_append, List.count_append, hcount] at hc
      omega
    | @digits ds _ hds hdigits' hend =>
      have hcut : old ++ '-' :: ('t' :: 's' :: (ds ++ rest)) =
          new ++ '-' :: ('t' :: 's' :: (digits ++ rest')) := by
        simpa using hself
      obtain ⟨rfl, hrests⟩ := append_dash_inj hold hnew hcut
      have htail : ds ++ rest = digits ++ rest' := by simpa using hrests
      -- neither rest goes on with a digit
      have hend' : ∀ c cs, rest' = c :: cs → c.isDigit = false := by
        cases hrest with
        | nil => exact fun c cs hc => by cases hc
        | keep _ _ =>
          intro c cs hc
          obtain ⟨rfl, -⟩ := List.cons.inj hc
          exact hend _ _ rfl
        | swap _ _ =>
          obtain ⟨c, old', rfl, hc⟩ := hfirst
          have := hend c _ rfl
          rw [hc] at this
          cases this
      have hsame : ds = digits := by
        have hw := congrArg (List.takeWhile Char.isDigit) htail
        rwa [takeWhile_append_of_digits hdigits' hend,
          takeWhile_append_of_digits hdigits hend'] at hw
      subst hsame
      obtain ⟨hst, -⟩ := ih (List.append_cancel_left htail)
      exact ⟨.stamp hend hst, fun _ => rfl⟩

/-! ### File names -/

/-- What a version looks like as text: it starts with a digit, and it has neither slashes nor
    dashes. -/
structure VersionText (version : Version) : Prop where
  digit : ∃ c rest, version.str.toList = c :: rest ∧ c.isDigit = true
  slash : '/' ∉ version.str.toList
  dash  : '-' ∉ version.str.toList

/-- No version is empty. -/
theorem VersionText.ne_nil {version : Version} (h : VersionText version) :
    version.str.toList ≠ [] := by
  obtain ⟨c, rest, hc, -⟩ := h.digit
  rw [hc]
  exact List.cons_ne_nil _ _

/-- The digits of the clock. -/
theorem clock_digits (now : Nat) : (toString now).toList ≠ [] ∧
    ∀ c ∈ (toString now).toList, c.isDigit = true := by
  rw [Nat.toString_eq_repr, Nat.toList_repr]
  exact ⟨Nat.toDigits_ne_nil, fun c hc => Nat.isDigit_of_mem_toDigits (by decide) (by decide) hc⟩

/-- What the file of an update is called, by the name of the old file and the versions. -/
def Renamed (U : Uploads) (old new : Version) (now : Nat) (name name' : List Char) : Prop :=
  if old.str.toList <:+: name then
    Replaced old.str.toList (if U.sameVersion old new then
      new.str.toList ++ ("-ts".toList ++ (toString now).toList) else new.str.toList) name name'
  else name' = name.rdropWhile (fun c => ".mbp".toList.contains c) ++ "-v".toList ++
    new.str.toList ++ ".mbp".toList

/-- A name is renamed to what the substitution gives. -/
theorem renamed_iff (U : Uploads) {old : Version} (h : VersionText old) (new : Version) (now : Nat)
    (name name' : List Char) : Renamed U old new now name name' ↔
      replacementFilename U old new now name = name' := by
  unfold Renamed replacementFilename
  split
  · rw [replaced_iff h.ne_nil]
    cases U.sameVersion old new <;> simp
  · exact eq_comm

/-- Characters that are not stripped stay, with all that is before them. -/
theorem length_rdropWhile {p : Char → Bool} {c : Char} (hc : p c = false) (a b : List Char) :
    a.length < ((a ++ c :: b).rdropWhile p).length := by
  induction b using List.reverseRecOn with
  | nil =>
    rw [List.rdropWhile_concat_neg _ _ _ (by simp [hc])]
    simp
  | append_singleton b x ih =>
    rw [← List.cons_append, ← List.append_assoc]
    by_cases hx : p x = true
    · rwa [List.rdropWhile_concat_pos _ _ _ hx]
    · rw [List.rdropWhile_concat_neg _ _ _ hx]
      simp

/-- **A name that an update keeps**: a file of the same version that has the timestamp of now. -/
theorem renamed_self_iff (U : Uploads) {old new : Version} (hold : VersionText old)
    (hnew : VersionText new) (hsame : U.sameVersion old new = false → old.str ≠ new.str)
    (now : Nat) (name : List Char) : Renamed U old new now name name ↔
      old.str.toList <:+: name ∧ U.sameVersion old new = true ∧ old.str = new.str ∧
        Stamped old.str.toList (toString now).toList name := by
  unfold Renamed
  by_cases ho : old.str.toList <:+: name
  · rw [if_pos ho]
    cases hs : U.sameVersion old new with
    | false =>
      simp only [Bool.false_eq_true, if_false, false_and, and_false, iff_false]
      exact not_replaced_self hold.dash hnew.dash hold.ne_nil ho fun he =>
        hsame hs (String.toList_injective he)
    | true =>
      simp only [if_true, true_and]
      constructor
      · intro h
        obtain ⟨hst, heq⟩ := stamped_of_replaced_self hold.dash hnew.dash hold.digit
          (clock_digits now).2 h rfl
        exact ⟨ho, String.toList_injective (heq ho), hst⟩
      · rintro ⟨-, heq, hst⟩
        rw [← heq]
        exact replaced_of_stamped (clock_digits now).1 (clock_digits now).2 hst
  · rw [if_neg ho]
    refine ⟨fun h => ?_, fun h => absurd h.1 ho⟩
    -- the stem is at least as long as what it was stripped from
    have hlen := length_rdropWhile (p := fun c => ".mbp".toList.contains c) (c := '-') (by decide)
      (name.rdropWhile fun c => ".mbp".toList.contains c)
      ('v' :: (new.str.toList ++ ".mbp".toList))
    have hname : (name.rdropWhile fun c => ".mbp".toList.contains c) ++
        '-' :: 'v' :: (new.str.toList ++ ".mbp".toList) = name := by
      rw [List.append_assoc, List.append_assoc] at h
      exact h.symm
    rw [hname] at hlen
    exact absurd hlen (Nat.lt_irrefl _)

/-! ### Names after an id and a version -/

/-- A text without dashes that a text with a dash begins with ends before the dash. -/
theorem prefix_of_append_dash {old a b : List Char} (hold : '-' ∉ old) (h : old <+: a ++ '-' :: b) :
    old <+: a := by
  rcases List.prefix_or_prefix_of_prefix h (List.prefix_append a _) with hpre | ⟨t, rfl⟩
  · exact hpre
  · rw [List.prefix_append_right_inj] at h
    cases t with
    | nil => simp
    | cons c t =>
      obtain ⟨rfl, -⟩ := List.cons_prefix_cons.mp h
      exact absurd (by simp) hold

/-- Cut at the last dash. -/
theorem append_dash_inj_right {a b x y : List Char} (hx : '-' ∉ x) (hy : '-' ∉ y)
    (h : a ++ '-' :: x = b ++ '-' :: y) : a = b ∧ x = y := by
  have hreverse : x.reverse ++ '-' :: a.reverse = y.reverse ++ '-' :: b.reverse := by
    simpa using congrArg List.reverse h
  obtain ⟨hxy, hab⟩ := append_dash_inj (by simpa using hx) (by simpa using hy) hreverse
  exact ⟨List.reverse_injective hab, List.reverse_injective hxy⟩

/-- Where there is no version, none is replaced. -/
theorem replaced_of_absent {old new text : List Char} (h : ¬ old <:+: text) :
    Replaced old new text text := by
  induction text with
  | nil => exact .nil
  | cons c cs ih =>
    exact .keep (fun hp => h hp.isInfix) (ih fun ho => h (ho.trans (List.suffix_cons c cs).isInfix))

/-- A timestamp ends before a dash. -/
theorem Timestamp.append_dash {ts rest b : List Char} (h : Timestamp ts rest) :
    Timestamp ts (rest ++ '-' :: 'v' :: b) := by
  cases h with
  | none h =>
    refine .none fun c cs he => ?_
    -- what follows the dash is a `v`, so `-ts` is in the rest already
    match rest with
    | [] => exact absurd (congrArg (fun t => t[1]?) he) (by simp)
    | [x] => exact absurd (congrArg (fun t => t[1]?) he) (by simp)
    | [x, y] => exact absurd (congrArg (fun t => t[2]?) he) (by simp)
    | [x, y, z] =>
      have hc : some '-' = some c := congrArg (fun t => t[3]?) he
      rw [← Option.some.inj hc]
      decide
    | x :: y :: z :: d :: rest =>
      obtain ⟨rfl, rfl, rfl, rfl, -⟩ : x = '-' ∧ y = 't' ∧ z = 's' ∧ d = c ∧ _ := by
        simpa using he
      exact h d rest rfl
  | digits hne hds h =>
    refine .digits hne hds fun c cs he => ?_
    cases rest with
    | nil =>
      obtain ⟨rfl, -⟩ := List.cons.inj he
      decide
    | cons d rest =>
      obtain ⟨rfl, -⟩ := List.cons.inj he
      exact h d rest rfl

/-- A version has no dash, so what is before `-v` and what is behind it are replaced apart. -/
theorem Replaced.append_dash {old new a a' b b' : List Char} (hold : '-' ∉ old)
    (h : Replaced old new a a') (hb : Replaced old new ('-' :: 'v' :: b) b') :
    Replaced old new (a ++ '-' :: 'v' :: b) (a' ++ b') := by
  induction h with
  | nil => exact hb
  | keep hp _ ih => exact .keep (fun hpre => hp (prefix_of_append_dash hold hpre)) ih
  | swap hts _ ih =>
    have hswap := @Replaced.swap old new _ _ _ (hts.append_dash (b := b)) ih
    simpa only [List.append_assoc] using hswap

/-- The name that an upload gives to a file: `{id}-v{version}.mbp`, or with a timestamp behind the
    version. -/
def NamedAfter (id version name : List Char) : Prop :=
  ∃ ts, Timestamp ts ".mbp".toList ∧
    name = id ++ ("-v".toList ++ (version ++ (ts ++ ".mbp".toList)))

/-- There is a `-v` in such a name. -/
theorem NamedAfter.isInfix {id version name : List Char} (h : NamedAfter id version name) :
    "-v".toList <:+: name := by
  obtain ⟨ts, -, rfl⟩ := h
  exact ⟨id, version ++ (ts ++ ".mbp".toList), by rw [List.append_assoc]⟩

/-- **The name tells the id.** -/
theorem NamedAfter.id_eq {id id' version version' name : List Char} (hv : '-' ∉ version)
    (hv' : '-' ∉ version') (h : NamedAfter id version name) (h' : NamedAfter id' version' name) :
    id = id' := by
  obtain ⟨ts, hts, rfl⟩ := h
  obtain ⟨ts', hts', he⟩ := h'
  have hcut : (id ++ '-' :: 'v' :: version) ++ ts = (id' ++ '-' :: 'v' :: version') ++ ts' := by
    refine @List.append_cancel_right _ _ ".mbp".toList _ ?_
    simpa using he
  have hdash {v : List Char} (hv : '-' ∉ v) : '-' ∉ 'v' :: v := by
    simpa using hv
  have hdigits {ds : List Char} (hds : ∀ c ∈ ds, c.isDigit = true) :
      '-' ∉ 't' :: 's' :: ds := by
    intro hmem
    simp only [List.mem_cons, Char.reduceEq, false_or] at hmem
    exact absurd (hds _ hmem) (by decide)
  -- the last dash is that of the timestamp, if there is one, and what follows it tells which
  cases hts with
  | none =>
    cases hts' with
    | none =>
      rw [List.append_nil, List.append_nil] at hcut
      exact (append_dash_inj_right (hdash hv) (hdash hv') hcut).1
    | digits hne hds =>
      rw [List.append_nil] at hcut
      have hlast := (append_dash_inj_right (hdash hv) (hdigits hds) hcut).2
      exact absurd (List.cons.inj hlast).1 (by decide)
  | digits hne hds =>
    cases hts' with
    | none =>
      rw [List.append_nil] at hcut
      have hlast := (append_dash_inj_right (hdigits hds) (hdash hv') hcut).2
      exact absurd (List.cons.inj hlast).1 (by decide)
    | digits hne' hds' =>
      have hstem := (append_dash_inj_right (hdigits hds) (hdigits hds') hcut).1
      exact (append_dash_inj_right (hdash hv) (hdash hv') hstem).1

/-- What stands behind the new version: the timestamp of now, if the versions are equal. -/
def stamp (U : Uploads) (old new : Version) (now : Nat) : List Char :=
  if U.sameVersion old new then "-ts".toList ++ (toString now).toList else []

/-- It is a timestamp, or none. -/
theorem timestamp_stamp (U : Uploads) (old new : Version) (now : Nat) :
    Timestamp (stamp U old new now) ".mbp".toList := by
  unfold stamp
  split
  · refine .digits (clock_digits now).1 (clock_digits now).2 fun c cs he => ?_
    obtain ⟨rfl, -⟩ := List.cons.inj he
    decide
  · exact .none fun c cs he => absurd (List.cons.inj he).1 (by decide)

/-- **An update of a file that is named after an id and the old version** replaces the version at
    its place, and what there is of it in the id. -/
theorem replacementFilename_named (U : Uploads) {old : Version} (hold : VersionText old)
    (new : Version) (now : Nat) {id id' name : List Char}
    (hname : NamedAfter id old.str.toList name)
    (hid : Replaced old.str.toList (new.str.toList ++ stamp U old new now) id id') :
    replacementFilename U old new now name =
      id' ++ ("-v".toList ++ (new.str.toList ++ (stamp U old new now ++ ".mbp".toList))) := by
  obtain ⟨ts, hts, rfl⟩ := hname
  obtain ⟨c, rest, hc, hdigit⟩ := hold.digit
  -- a version begins with a digit, so it begins at neither character of `-v`
  have hfirst {x : Char} {xs : List Char} (hx : x.isDigit = false) :
      ¬ old.str.toList <+: x :: xs := by
    rw [hc]
    intro hp
    obtain ⟨rfl, -⟩ := List.cons_prefix_cons.mp hp
    exact absurd (hdigit.symm.trans hx) (by decide)
  -- nor in the ending, which has no digit
  have hend : ¬ old.str.toList <:+: ".mbp".toList := by
    rw [hc]
    intro ho
    have hmem : c ∈ ".mbp".toList := ho.subset List.mem_cons_self
    have hnone : ".mbp".toList.any Char.isDigit = false := rfl
    exact List.any_eq_false.mp hnone c hmem hdigit
  have hdash : '-'.isDigit = false := rfl
  have hv : 'v'.isDigit = false := rfl
  -- behind the id the version is replaced where it stands
  have hbehind : Replaced old.str.toList (new.str.toList ++ stamp U old new now)
      ('-' :: 'v' :: (old.str.toList ++ (ts ++ ".mbp".toList)))
      ('-' :: 'v' :: (new.str.toList ++ stamp U old new now ++ ".mbp".toList)) :=
    .keep (hfirst hdash) (.keep (hfirst hv) (.swap hts (replaced_of_absent hend)))
  have ho : old.str.toList <:+: id ++ ("-v".toList ++ (old.str.toList ++ (ts ++ ".mbp".toList))) :=
    ⟨id ++ "-v".toList, ts ++ ".mbp".toList, by simp only [List.append_assoc]⟩
  have hall := hid.append_dash hold.dash hbehind
  have hreplacement : (if U.sameVersion old new = true then
      new.str.toList ++ ("-ts".toList ++ (toString now).toList) else new.str.toList) =
        new.str.toList ++ stamp U old new now := by
    unfold stamp
    split
    · rfl
    · rw [List.append_nil]
  refine (renamed_iff U hold new now _ _).mp ?_
  rw [Renamed, if_pos ho, hreplacement]
  rw [List.append_assoc] at hall
  exact hall

/-- A file whose name has not the old version: the new one is put behind its stem. -/
theorem replacementFilename_plain (U : Uploads) {old : Version} (new : Version) (now : Nat)
    {name : List Char} (h : ¬ old.str.toList <:+: name) :
    NamedAfter (name.rdropWhile fun c => ".mbp".toList.contains c) new.str.toList
      (replacementFilename U old new now name) := by
  refine ⟨[], .none fun c cs he => absurd (List.cons.inj he).1 (by decide), ?_⟩
  unfold replacementFilename
  rw [if_neg h]
  simp only [List.append_assoc, List.nil_append]

/-- **The id of an update.**  A file that is named after an id and the old version is replaced by
    one that is named after the new version and the same id, exactly if the text of the old version
    is not in the id; else after another id. -/
theorem namedAfter_replacementFilename (U : Uploads) {old new : Version} (hold : VersionText old)
    (hnew : VersionText new) (hsame : U.sameVersion old new = false → old.str ≠ new.str) (now : Nat)
    {id name : List Char} (hname : NamedAfter id old.str.toList name)
    (hnow : ¬ "-ts".toList ++ (toString now).toList <:+: id) :
    ∃ id', NamedAfter id' new.str.toList (replacementFilename U old new now name) ∧
      (id' = id ↔ ¬ old.str.toList <:+: id) := by
  have hnamed {id' : List Char}
      (hid : Replaced old.str.toList (new.str.toList ++ stamp U old new now) id id') :
      NamedAfter id' new.str.toList (replacementFilename U old new now name) :=
    ⟨_, timestamp_stamp U old new now, replacementFilename_named U hold new now hname hid⟩
  by_cases ho : old.str.toList <:+: id
  · have hid : Replaced old.str.toList (new.str.toList ++ stamp U old new now) id _ :=
      (replaced_iff hold.ne_nil).mpr rfl
    refine ⟨_, hnamed hid, iff_of_false (fun heq => ?_) (not_not_intro ho)⟩
    rw [heq] at hid
    unfold stamp at hid
    cases hs : U.sameVersion old new with
    | false =>
      rw [hs, if_neg (by decide), List.append_nil] at hid
      exact not_replaced_self hold.dash hnew.dash hold.ne_nil ho
        (fun he => hsame hs (String.toList_injective he)) hid
    | true =>
      rw [hs, if_pos rfl] at hid
      obtain ⟨hstamped, -⟩ := stamped_of_replaced_self hold.dash hnew.dash hold.digit
        (clock_digits now).2 hid rfl
      exact hnow (hstamped.isInfix hold.ne_nil ho)
  · exact ⟨id, hnamed (replaced_of_absent ho), iff_of_true rfl ho⟩

/-! ### Places -/

variable {B E C Y M : Type} (P : Platform B E C Y M) (U : Uploads)

/-- The name of a file: not empty, not `.` and not `..`, and without a slash. -/
def FileName (name : List Char) : Prop := OsPath.Proper name ∧ name ≠ ['.', '.']

/-- A file name is one more component, -/
theorem FileName.visit {name : List Char} (h : FileName name) (comps : List (List Char)) :
    visit true comps name = comps ++ [name] := by
  obtain ⟨⟨hne, hdot, -⟩, hdots⟩ := h
  unfold OsPath.visit
  rw [if_neg (by rintro (h | h) <;> contradiction), if_pos (.inl hdots)]

/-- also as a whole path. -/
theorem FileName.walk {name : List Char} (h : FileName name) (comps : List (List Char)) :
    walk true comps name = comps ++ [name] := by
  unfold OsPath.walk
  rw [split_of_not_mem '/' h.1.2.2, List.foldl_cons, List.foldl_nil, h.visit]

/-- Where a path leads. -/
def Platform.placeOf (path : Path) : Place := place (join P.cwd path)

/-- A file below a place. -/
def below (d : Place) (name : List Char) : Place := ⟨d.slashes, d.comps ++ [name]⟩

/-- Two files are the same if their directories and names are. -/
theorem below_inj {d d' : Place} {name name' : List Char} :
    below d name = below d' name' ↔ d = d' ∧ name = name' := by
  obtain ⟨n, c⟩ := d
  obtain ⟨n', c'⟩ := d'
  simp only [below, Place.mk.injEq]
  constructor
  · rintro ⟨rfl, hc⟩
    obtain ⟨rfl, hn⟩ := List.append_inj' hc rfl
    exact ⟨⟨rfl, rfl⟩, (List.cons.inj hn).1⟩
  · rintro ⟨⟨rfl, rfl⟩, rfl⟩
    exact ⟨rfl, rfl⟩

/-- The file at a path is below its directory. -/
theorem placeOf_eq_below {path : Path} (h : FileName (basename path)) :
    P.placeOf path = below (P.placeOf (dirname path)) (basename path) := by
  unfold Platform.placeOf below
  rw [place_dirname P.cwd_absolute path, h.walk]

/-- A file in a directory is below it. -/
theorem placeOf_join (dir : Path) {name : List Char} (h : FileName name) :
    P.placeOf (join dir name) = below (P.placeOf dir) name := by
  unfold Platform.placeOf below
  rw [place_join_join P.cwd_absolute dir (relative_of_not_mem h.1.2.2), h.walk]

/-- Two paths are the same if their places are. -/
theorem abspath_eq_iff (a b : Path) :
    abspath P.cwd a = abspath P.cwd b ↔ P.placeOf a = P.placeOf b := normpath_eq_iff _ _

/-- The directory that the part of an id before its last slash leads to, from the directory for
    uploads or, for an id that starts with a slash, from the root. -/
def idDirectory (dir pid : Path) : Place :=
  let segments := (split '/' pid).dropLast
  if ['/'].isPrefixOf pid then ⟨initialSlashes pid, segments.foldl (visit true) []⟩
  else ⟨(P.placeOf dir).slashes, segments.foldl (visit true) (P.placeOf dir).comps⟩

/-- The name of the file of a new plugin -/
def newFilename (pid : String) (version : Version) : List Char :=
  ((split '/' pid.toList).getLast?).getD [] ++
    ("-v".toList ++ version.str.toList ++ ".mbp".toList)

/-- Text without slashes goes to the last segment. -/
theorem split_append_of_not_mem (a : List Char) {b : List Char} (hb : '/' ∉ b) :
    split '/' (a ++ b) = (split '/' a).dropLast ++ [((split '/' a).getLast?).getD [] ++ b] := by
  obtain ⟨init, last, hinit⟩ := (List.eq_nil_or_concat (split '/' a)).resolve_left
    (split_ne_nil '/' a)
  rw [List.concat_eq_append] at hinit
  rw [hinit]
  have ha : a = UrlPath.join '/' (init ++ [last]) := by rw [← hinit, join_split]
  have hsegments : ∀ s ∈ init ++ [last ++ b], '/' ∉ s := by
    intro s hs
    have hmem : ∀ t ∈ init ++ [last], '/' ∉ t := by
      intro t ht
      rw [← hinit] at ht
      exact not_mem_of_mem_split '/' ht
    rcases List.mem_append.mp hs with hs | hs
    · exact hmem s (List.mem_append_left _ hs)
    · rw [List.mem_singleton.mp hs]
      intro hslash
      rcases List.mem_append.mp hslash with h | h
      · exact hmem last (by simp) h
      · exact hb h
  have hab : a ++ b = UrlPath.join '/' (init ++ [last ++ b]) := by
    rw [ha]
    cases init with
    | nil => simp
    | cons s ss => simp [UrlPath.join, List.flatMap_append]
  rw [hab, split_join '/' _ (by simp) hsegments]
  simp

/-- The name of a new plugin's file is one. -/
theorem newFilename_isFile (pid : String) {version : Version} (h : VersionText version) :
    FileName (newFilename pid version) := by
  have hsegment : '/' ∉ ((split '/' pid.toList).getLast?).getD [] := by
    cases hl : (split '/' pid.toList).getLast? with
    | none => simp
    | some s => exact not_mem_of_mem_split '/' (List.mem_of_getLast? hl)
  have hmem : 'v' ∈ newFilename pid version := by
    unfold newFilename
    simp
  refine ⟨⟨fun he => ?_, fun he => ?_, fun hslash => ?_⟩, fun he => ?_⟩
  · rw [he] at hmem
    exact absurd hmem (by decide)
  · rw [he] at hmem
    exact absurd hmem (by decide)
  · unfold newFilename at hslash
    simp only [List.mem_append] at hslash
    rcases hslash with hs | (hs | hs) | hs
    · exact hsegment hs
    · exact absurd hs (by decide)
    · exact h.slash hs
    · exact absurd hs (by decide)
  · rw [he] at hmem
    exact absurd hmem (by decide)

/-- **Where a new plugin is written.** -/
theorem placeOf_uploadPath (pid : String) {version : Version} (h : VersionText version) :
    P.placeOf (uploadPath U.directory pid version) =
      below (idDirectory P U.directory pid.toList) (newFilename pid version) := by
  -- the suffix has no slash, so it belongs to the last segment of the id
  have hsuffix : '/' ∉ "-v".toList ++ version.str.toList ++ ".mbp".toList := by
    simp only [List.mem_append]
    rintro ((hs | hs) | hs)
    · exact absurd hs (by decide)
    · exact h.slash hs
    · exact absurd hs (by decide)
  have hrel := relative_of_not_mem hsuffix
  have hwalk : ∀ comps, OsPath.walk true comps
      (pid.toList ++ ("-v".toList ++ version.str.toList ++ ".mbp".toList)) =
        (split '/' pid.toList).dropLast.foldl (visit true) comps ++ [newFilename pid version] := by
    intro comps
    unfold OsPath.walk
    rw [split_append_of_not_mem _ hsuffix, List.foldl_append, List.foldl_cons, List.foldl_nil]
    exact (newFilename_isFile pid h).visit _
  have hname : uploadPath U.directory pid version = join U.directory
      (pid.toList ++ ("-v".toList ++ version.str.toList ++ ".mbp".toList)) := by
    unfold uploadPath
    simp only [List.append_assoc]
  rw [hname]
  unfold idDirectory below
  generalize "-v".toList ++ version.str.toList ++ ".mbp".toList = suffix at *
  have hp := isPrefixOf_append_relative 1 pid.toList hrel
  simp only [List.replicate] at hp
  -- an id that begins with a slash leaves the directory
  by_cases habs : ['/'].isPrefixOf pid.toList = true
  · have hfull : Absolute (pid.toList ++ suffix) := hp.trans habs
    rw [if_pos habs, join_absolute hfull]
    unfold Platform.placeOf
    rw [join_absolute hfull]
    unfold place
    rw [initialSlashes_append _ hrel, rooted_of_absolute habs, hwalk]
  · have hfull : Relative (pid.toList ++ suffix) :=
      (relative_iff _).mpr (hp.trans (eq_false_of_ne_true habs))
    rw [if_neg habs]
    unfold Platform.placeOf
    rw [place_join_join P.cwd_absolute _ hfull, hwalk]

/-! ### The file that is written -/

variable {P U} {s : Loaders B E M}

/-- A live loader has this path. -/
def Holds (s : Loaders B E M) (l : Ref) (path : Path) : Prop :=
  (∃ i, s.idCache i = some l) ∧ (s.loaders.get l).path = some path

/-- A path that leads below a directory. -/
structure Inside (P : Platform B E C Y M) (dir path : Path) : Prop where
  slashes : (P.placeOf path).slashes = (P.placeOf dir).slashes
  comps   : (P.placeOf dir).comps <+: (P.placeOf path).comps
  ne      : (P.placeOf dir).comps ≠ (P.placeOf path).comps

/-- The file that is written to is not that of a live loader, and it is in the directory. -/
structure Safe (P : Platform B E C Y M) (s : Loaders B E M) (dir path : Path) : Prop where
  free   : ∀ l q, Holds s l q → abspath P.cwd q ≠ abspath P.cwd path
  inside : Inside P dir path

/-- The id does not lead out of the directory for uploads. -/
structure Within (P : Platform B E C Y M) (U : Uploads) (pid : String) : Prop where
  slashes : (idDirectory P U.directory pid.toList).slashes = (P.placeOf U.directory).slashes
  comps   : (P.placeOf U.directory).comps <+: (idDirectory P U.directory pid.toList).comps

/-- The name that the file of a new plugin is given is not taken. -/
def NewFree (P : Platform B E C Y M) (U : Uploads) (s : Loaders B E M) (pid : String)
    (version : Version) : Prop :=
  ∀ l q, Holds s l q → P.placeOf (dirname q) = idDirectory P U.directory pid.toList →
    basename q ≠ newFilename pid version

/-- The name that the file of an update is given is not that of another file in the directory, and
    it is not the old one. -/
structure UpdateFree (P : Platform B E C Y M) (U : Uploads) (s : Loaders B E M)
    (old new : Version) (now : Nat) (path : Path) : Prop where
  names : ∀ l q, Holds s l q → P.placeOf (dirname q) = P.placeOf (dirname path) →
    basename q ≠ basename path → ¬ Renamed U old new now (basename path) (basename q)
  stamp : ¬ (old.str.toList <:+: basename path ∧ U.sameVersion old new = true ∧
    old.str = new.str ∧ Stamped old.str.toList (toString now).toList (basename path))

/-- A plugin with its id, whose file is in this directory. -/
structure LiveIn (P : Platform B E C Y M) (s : Loaders B E M) (dir : Place) (i : String) (l : Ref)
    (q : Path) : Prop where
  id   : s.idCache i = some l
  path : (s.loaders.get l).path = some q
  dir  : P.placeOf (dirname q) = dir

/-- In the directory, each plugin's file is named after its id and version, as uploads name files,
    or it has no `-v` in its name. -/
def Conventional (P : Platform B E C Y M) (s : Loaders B E M) (dir : Place) : Prop :=
  ∀ i l q, LiveIn P s dir i l q →
    (∃ m, (s.loaders.get l).pluginMeta = some m ∧ VersionText m.version ∧
      NamedAfter i.toList m.version.str.toList (basename q)) ∨ ¬ "-v".toList <:+: basename q

/-- No plugin in the directory that the id leads to has its last segment as its id.  An id without
    a slash is its own last segment, and not the id of a plugin: else it is an update. -/
def NewAllowed (P : Platform B E C Y M) (U : Uploads) (s : Loaders B E M) (pid : String) : Prop :=
  ∀ i l q, LiveIn P s (idDirectory P U.directory pid.toList) i l q →
    i.toList ≠ ((split '/' pid.toList).getLast?).getD []

/-- The file of the plugin `i` is named after its id and its version, which is not in the id, and
    has not the timestamp of now; or the version is not in its name, and what `rstrip` leaves of the
    name is not the id of another plugin in the directory. -/
inductive UpdateAllowed (P : Platform B E C Y M) (s : Loaders B E M) (i : String) (old : Version)
    (now : Nat) (path : Path) : Prop
  | named (h : NamedAfter i.toList old.str.toList (basename path))
      (hid : ¬ old.str.toList <:+: i.toList)
      (hnow : ¬ "-ts".toList ++ (toString now).toList <:+: basename path)
  | plain (h : ¬ old.str.toList <:+: basename path)
      (hstem : ∀ j l q, LiveIn P s (P.placeOf (dirname path)) j l q → j ≠ i →
        j.toList ≠ (basename path).rdropWhile fun c => ".mbp".toList.contains c)

/-- A path below a place is inside a directory if the place is. -/
theorem inside_below {dir path : Path} {d : Place} {name : List Char}
    (h : P.placeOf path = below d name) : Inside P dir path ↔
      d.slashes = (P.placeOf dir).slashes ∧ (P.placeOf dir).comps <+: d.comps := by
  constructor
  · rintro ⟨hs, hc, hne⟩
    rw [h] at hs hc hne
    refine ⟨hs, ?_⟩
    rcases List.prefix_concat_iff.mp hc with he | hp
    · exact absurd he hne
    · exact hp
  · rintro ⟨hs, hc⟩
    refine ⟨by rw [h]; exact hs, by rw [h]; exact hc.trans (List.prefix_append _ _), fun he => ?_⟩
    rw [h] at he
    have hlen := hc.length_le
    rw [he] at hlen
    simp only [below, List.length_append, List.length_cons, List.length_nil] at hlen
    omega

/-- A new plugin: the file that is written is a new one in the directory, if the id does not lead
    out of it and the name is not taken. -/
theorem safe_new_iff (hfiles : ∀ l q, Holds s l q → FileName (basename q)) (pid : String)
    {version : Version} (h : VersionText version) :
    Safe P s U.directory (uploadPath U.directory pid version) ↔
      Within P U pid ∧ NewFree P U s pid version := by
  have hplace := placeOf_uploadPath P U pid h
  have hfree : ∀ l q, Holds s l q →
      (abspath P.cwd q ≠ abspath P.cwd (uploadPath U.directory pid version) ↔
        ¬ (P.placeOf (dirname q) = idDirectory P U.directory pid.toList ∧
          basename q = newFilename pid version)) := by
    intro l q hq
    rw [Ne, abspath_eq_iff, hplace, placeOf_eq_below P (hfiles l q hq), below_inj]
  constructor
  · intro hs
    obtain ⟨hslashes, hcomps⟩ := (inside_below hplace).mp hs.inside
    refine ⟨⟨hslashes, hcomps⟩, fun l q hq hdir hname => ?_⟩
    exact (hfree l q hq).mp (hs.free l q hq) ⟨hdir, hname⟩
  · rintro ⟨hwithin, hnames⟩
    refine ⟨fun l q hq => (hfree l q hq).mpr ?_,
      (inside_below hplace).mpr ⟨hwithin.slashes, hwithin.comps⟩⟩
    rintro ⟨hdir, hname⟩
    exact hnames l q hq hdir hname

/-- The name of an update is the name of a file again. -/
theorem replacementFilename_isFile {old new : Version} (hold : VersionText old)
    (hnew : VersionText new) (now : Nat) {name : List Char} (h : '/' ∉ name) :
    FileName (replacementFilename U old new now name) := by
  -- there is a digit or a `v` in it, and no slash
  suffices hsuff : (∃ c ∈ replacementFilename U old new now name, c ≠ '.') ∧
      '/' ∉ replacementFilename U old new now name by
    obtain ⟨⟨c, hc, hdot⟩, hslash⟩ := hsuff
    refine ⟨⟨fun he => ?_, fun he => ?_, hslash⟩, fun he => ?_⟩ <;> rw [he] at hc
    · exact absurd hc List.not_mem_nil
    · exact hdot (List.mem_singleton.mp hc)
    · simp only [List.mem_cons, List.not_mem_nil, or_false, or_self] at hc
      exact hdot hc
  have hrenamed := (renamed_iff U hold new now name _).mpr rfl
  generalize replacementFilename U old new now name = name' at hrenamed
  unfold Renamed at hrenamed
  by_cases ho : old.str.toList <:+: name
  · rw [if_pos ho] at hrenamed
    generalize hr : (if U.sameVersion old new = true then
      new.str.toList ++ ("-ts".toList ++ (toString now).toList) else new.str.toList) = repl
      at hrenamed
    obtain ⟨c, rest, hc, hdigit⟩ := hnew.digit
    have hmem : c ∈ repl := by
      rw [← hr]
      split <;> simp [hc]
    refine ⟨⟨c, mem_replaced hold.ne_nil hrenamed ho hmem, fun he => ?_⟩, fun hslash => ?_⟩
    · rw [he] at hdigit
      exact absurd hdigit (by decide)
    · rcases mem_of_replaced hrenamed hslash with hs | hs
      · exact h hs
      · rw [← hr] at hs
        split at hs
        · simp only [List.mem_append] at hs
          rcases hs with hs | hs | hs
          · exact hnew.slash hs
          · exact absurd hs (by decide)
          · exact absurd ((clock_digits now).2 _ hs) (by decide)
        · exact hnew.slash hs
  · rw [if_neg ho] at hrenamed
    subst hrenamed
    refine ⟨⟨'v', by simp, by decide⟩, fun hslash => ?_⟩
    simp only [List.mem_append] at hslash
    rcases hslash with ((hs | hs) | hs) | hs
    · exact h ((List.rdropWhile_prefix _ _).subset hs)
    · exact absurd hs (by decide)
    · exact hnew.slash hs
    · exact absurd hs (by decide)

/-- An update: the file that is written is a new one, if the name is not taken. -/
theorem safe_update_iff (hfiles : ∀ l q, Holds s l q → FileName (basename q)) {l : Ref}
    {path : Path} (hl : Holds s l path) {old new : Version} (hold : VersionText old)
    (hnew : VersionText new) (hsame : U.sameVersion old new = false → old.str ≠ new.str)
    (now : Nat) : Safe P s (dirname path) (replacementPath U old new now path) ↔
      UpdateFree P U s old new now path := by
  have hname : FileName (replacementFilename U old new now (basename path)) :=
    replacementFilename_isFile hold hnew now (hfiles l path hl).1.2.2
  have hplace := placeOf_join P (dirname path) hname
  -- two paths are one file if directory and name agree, and the name is computed
  have hfree : ∀ k q, Holds s k q →
      (abspath P.cwd q ≠ abspath P.cwd (replacementPath U old new now path) ↔
        ¬ (P.placeOf (dirname q) = P.placeOf (dirname path) ∧
          Renamed U old new now (basename path) (basename q))) := by
    intro k q hq
    rw [Ne, abspath_eq_iff, replacementPath, hplace, placeOf_eq_below P (hfiles k q hq),
      below_inj, renamed_iff U hold]
    constructor
    · exact fun h ⟨hd, hn⟩ => h ⟨hd, hn.symm⟩
    · exact fun h ⟨hd, hn⟩ => h ⟨hd, hn.symm⟩
  constructor
  · -- a loader's own file is in its way only if the stamp repeats
    intro hs
    refine ⟨fun k q hq hdir _ hren => (hfree k q hq).mp (hs.free k q hq) ⟨hdir, hren⟩,
      fun hst => ?_⟩
    have hself := (renamed_self_iff U hold hnew hsame now (basename path)).mpr hst
    exact (hfree l path hl).mp (hs.free l path hl) ⟨rfl, hself⟩
  · intro ha
    refine ⟨fun k q hq => (hfree k q hq).mpr ?_, (inside_below hplace).mpr ⟨rfl, List.prefix_rfl⟩⟩
    rintro ⟨hdir, hren⟩
    by_cases he : basename q = basename path
    · rw [he] at hren
      exact ha.stamp ((renamed_self_iff U hold hnew hsame now (basename path)).mp hren)
    · exact ha.names k q hq hdir he hren

/-- Writing to a safe path leaves the files of all plugins alone, and removing any of these leaves
    what was written. -/
theorem Safe.files {dir path : Path} (h : Safe P s dir path) {l : Ref} {q : Path}
    (hq : Holds s l q) (content : B) :
    (((writeFile P path content none).exec s).2).bytesAt P q = s.bytesAt P q ∧
      (((writeFile P path content none >>= fun _ => trash P q none).exec s).2).bytesAt P path =
        some content := by
  have hne := h.free l q hq
  refine ⟨Function.update_of_ne hne _ _, ?_⟩
  refine (Function.update_of_ne (Ne.symm hne) _ _).trans ?_
  exact Function.update_self _ _ _

/-- A file with such a name in a directory where the convention holds is that of the plugin with
    this id. -/
theorem Conventional.id_eq {dir : Place} (hconv : Conventional P s dir) {i : String} {l : Ref}
    {q : Path} (hlive : LiveIn P s dir i l q) {id : List Char} {version : Version}
    (hversion : VersionText version) (hname : NamedAfter id version.str.toList (basename q)) :
    i.toList = id := by
  rcases hconv i l q hlive with ⟨m, -, hm, hnamed⟩ | hnot
  · exact hnamed.id_eq hm.dash hversion.dash hname
  · exact absurd hname.isInfix hnot

/-- No file of a plugin with another id has the name of a new one. -/
theorem NewAllowed.free {pid : String} (h : NewAllowed P U s pid)
    (hconv : Conventional P s (idDirectory P U.directory pid.toList)) {version : Version}
    (hversion : VersionText version) : NewFree P U s pid version := by
  rintro l q ⟨⟨i, hi⟩, hq⟩ hdir hname
  have hlive : LiveIn P s (idDirectory P U.directory pid.toList) i l q := ⟨hi, hq, hdir⟩
  have hnamed : NamedAfter (((split '/' pid.toList).getLast?).getD []) version.str.toList
      (basename q) := by
    refine ⟨[], .none fun c cs he => absurd (List.cons.inj he).1 (by decide), ?_⟩
    rw [hname, newFilename]
    simp only [List.append_assoc, List.nil_append]
  exact h i l q hlive (hconv.id_eq hlive hversion hnamed)

/-- The file of an update is named after the id of the plugin, or after the stem of its name, and no
    other file is. -/
theorem UpdateAllowed.free {i : String} {l : Ref} {path : Path} {old new : Version} {now : Nat}
    (h : UpdateAllowed P s i old now path) (hi : s.idCache i = some l)
    (hpath : (s.loaders.get l).path = some path)
    (hconv : Conventional P s (P.placeOf (dirname path))) (hold : VersionText old)
    (hnew : VersionText new) : UpdateFree P U s old new now path := by
  have hrenamed {q : Path} (hr : Renamed U old new now (basename path) (basename q)) :
      replacementFilename U old new now (basename path) = basename q :=
    (renamed_iff U hold new now _ _).mp hr
  cases h with
  | named h hid hnow =>
    refine ⟨?_, fun ⟨ho, _, _, hstamped⟩ => hnow (hstamped.isInfix hold.ne_nil ho)⟩
    rintro k q ⟨⟨j, hj⟩, hq⟩ hdir hne hr
    have hnamed : NamedAfter i.toList new.str.toList (basename q) := by
      rw [← hrenamed hr]
      exact ⟨_, timestamp_stamp U old new now,
        replacementFilename_named U hold new now h (replaced_of_absent hid)⟩
    -- so the other file belongs to the same plugin
    obtain rfl := String.toList_injective (hconv.id_eq ⟨hj, hq, hdir⟩ hnew hnamed)
    obtain rfl := Option.some.inj (hj.symm.trans hi)
    obtain rfl := Option.some.inj (hq.symm.trans hpath)
    exact hne rfl
  | plain h hstem =>
    refine ⟨?_, fun ⟨ho, _⟩ => h ho⟩
    rintro k q ⟨⟨j, hj⟩, hq⟩ hdir hne hr
    have hlive : LiveIn P s (P.placeOf (dirname path)) j k q := ⟨hj, hq, hdir⟩
    have hnamed := replacementFilename_plain U new now h
    rw [hrenamed hr] at hnamed
    have hji : j ≠ i := by
      rintro rfl
      obtain rfl := Option.some.inj (hj.symm.trans hi)
      obtain rfl := Option.some.inj (hq.symm.trans hpath)
      exact hne rfl
    exact hstem j k q hlive hji (hconv.id_eq hlive hnew hnamed)

/-- **Uploads write to files of their own**, where the files in the directory are named by the
    convention.  A new plugin is written to one in the directory for uploads exactly if its id does
    not lead out of it; an update is, if its file is named after its id and version and the version
    is not in the id, or the version is not in the name of the file.  If the version is in the id,
    the update is written to a file that is named after another id.  Where the path is safe, no
    archive of a plugin is overwritten, and removing the old one leaves the new one. -/
theorem upload_paths_safe (P : Platform B E C Y M) (U : Uploads) (s : Loaders B E M)
    (hfiles : ∀ l q, Holds s l q → FileName (basename q)) :
    (∀ pid version, VersionText version →
      Conventional P s (idDirectory P U.directory pid.toList) → NewAllowed P U s pid →
      (Safe P s U.directory (uploadPath U.directory pid version) ↔ Within P U pid)) ∧
    (∀ i l path m new now, s.idCache i = some l → (s.loaders.get l).path = some path →
      (s.loaders.get l).pluginMeta = some m → VersionText m.version → VersionText new →
      (U.sameVersion m.version new = false → m.version.str ≠ new.str) →
      Conventional P s (P.placeOf (dirname path)) → UpdateAllowed P s i m.version now path →
      Safe P s (dirname path) (replacementPath U m.version new now path)) ∧
    (∀ old new now id name, VersionText old → VersionText new →
      (U.sameVersion old new = false → old.str ≠ new.str) →
      NamedAfter id old.str.toList name → ¬ "-ts".toList ++ (toString now).toList <:+: id →
      ∃ id', NamedAfter id' new.str.toList (replacementFilename U old new now name) ∧
        (id' = id ↔ ¬ old.str.toList <:+: id)) ∧
    ∀ dir path, Safe P s dir path → ∀ l q, Holds s l q → ∀ content,
      (((writeFile P path content none).exec s).2).bytesAt P q = s.bytesAt P q ∧
        (((writeFile P path content none >>= fun _ => trash P q none).exec s).2).bytesAt P path =
          some content := by
  refine ⟨fun pid version hversion hconv hallowed => ?_, ?_, ?_,
    fun _ _ h _ _ hq content => h.files hq content⟩
  · rw [safe_new_iff hfiles pid hversion]
    exact and_iff_left (hallowed.free hconv hversion)
  · intro i l path m new now hi hpath _ hold hnew hsame hconv hallowed
    refine (safe_update_iff hfiles ⟨⟨i, hi⟩, hpath⟩ hold hnew hsame now).mpr ?_
    exact hallowed.free hi hpath hconv hold hnew
  · intro old new now id name hold hnew hsame hname hnow
    exact namedAfter_replacementFilename U hold hnew hsame now hname hnow

/-! ### Two plugins -/

namespace UploadTest

open ZipTest

def uploads : Uploads := ⟨"/p".toList, fun v w => v = w⟩

def startup : Loaders PluginMeta Unit Unit where
  files _ := none
  directoryCache _ := none
  loaders := ⟨fun _ => { path := none }, 0⟩
  modules := ()

def one : PluginMeta := ⟨"foo1", ⟨"1"⟩, ["foo"], "Foo", ⟨"0.5"⟩, false, .sqlalchemy, false⟩
def two : PluginMeta := ⟨"foo2", ⟨"2"⟩, ["foo"], "Foo", ⟨"0.5"⟩, false, .sqlalchemy, false⟩

def uploadedOne : Loaders PluginMeta Unit Unit :=
  ((uploadNewPlugin platform uploads one "foo1" ⟨"1"⟩ {}).exec startup).2

def uploadedBoth : Loaders PluginMeta Unit Unit :=
  ((uploadNewPlugin platform uploads two "foo2" ⟨"2"⟩ {}).exec uploadedOne).2

def echoOne : PluginMeta := ⟨"echo", ⟨"1"⟩, ["foo"], "Foo", ⟨"0.5"⟩, false, .sqlalchemy, false⟩

def uploadedEcho : Loaders PluginMeta Unit Unit :=
  ((uploadNewPlugin platform uploads echoOne "echo" ⟨"1"⟩ {}).exec startup).2

/-- A version of one digit -/
theorem versionText_digit {c : Char} (hc : c.isDigit = true) : VersionText ⟨String.ofList [c]⟩ := by
  have hslash : c ≠ '/' := by
    rintro rfl
    exact absurd hc (by decide)
  have hdash : c ≠ '-' := by
    rintro rfl
    exact absurd hc (by decide)
  exact ⟨⟨c, [], by simp, hc⟩, by simpa using hslash.symm, by simpa using hdash.symm⟩

/-- The one plugin that is loaded -/
theorem live_uploadedEcho {i : String} {l : Ref} {q : Path} (hi : uploadedEcho.idCache i = some l)
    (hq : (uploadedEcho.loaders.get l).path = some q) :
    i = "echo" ∧ l = 0 ∧ q = "/p/echo-v1.mbp".toList := by
  have hcache : uploadedEcho.idCache = Function.update (fun _ => none) "echo" (some 0) := rfl
  have hpath : (uploadedEcho.loaders.get 0).path = some "/p/echo-v1.mbp".toList := by decide
  rw [hcache] at hi
  rcases of_update_eq_some hi with ⟨rfl, hsome⟩ | ⟨hne, hi⟩
  · obtain rfl := Option.some.inj hsome
    exact ⟨rfl, rfl, Option.some.inj (hq.symm.trans hpath)⟩
  · cases hi

/-- It has the name that its upload gave to its file. -/
theorem namedAfter_echo :
    NamedAfter "echo".toList "1".toList (basename "/p/echo-v1.mbp".toList) :=
  ⟨[], .none fun c cs he => absurd (List.cons.inj he).1 (by decide), by decide⟩

end UploadTest

open UploadTest ZipTest in
/-- Another plugin may be uploaded, and another version of the first. -/
theorem upload_paths_safe_echo :
    Safe platform uploadedEcho "/p".toList (uploadPath "/p".toList "foo2" ⟨"2"⟩) ∧
    Safe platform uploadedEcho "/p".toList "/p/echo-v2.mbp".toList := by
  have hone : VersionText ⟨"1"⟩ := versionText_digit (c := '1') rfl
  have htwo : VersionText ⟨"2"⟩ := versionText_digit (c := '2') rfl
  have hfiles : ∀ l q, Holds uploadedEcho l q → FileName (basename q) := by
    rintro l q ⟨⟨i, hi⟩, hq⟩
    rw [(live_uploadedEcho hi hq).2.2]
    exact ⟨⟨by decide, by decide, by decide⟩, by decide⟩
  have hconv (dir : Place) : Conventional platform uploadedEcho dir := by
    intro i l q hlive
    obtain ⟨rfl, rfl, rfl⟩ := live_uploadedEcho hlive.id hlive.path
    exact .inl ⟨echoOne, by decide, hone, namedAfter_echo⟩
  have hsafe := upload_paths_safe platform uploads uploadedEcho hfiles
  refine ⟨(hsafe.1 "foo2" ⟨"2"⟩ htwo (hconv _) fun i l q hlive => ?_).mpr ⟨by decide, by decide⟩,
    hsafe.2.1 "echo" 0 "/p/echo-v1.mbp".toList echoOne ⟨"2"⟩ 0 (by decide) (by decide) (by decide)
      hone htwo (fun _ => by decide) (hconv _) (.named namedAfter_echo ?_ ?_)⟩
  · obtain ⟨rfl, -⟩ := live_uploadedEcho hlive.id hlive.path
    decide
  · decide
  · decide

open UploadTest ZipTest in
/-- The update of `foo1` to version 2 is written over the archive of `foo2`, and an id can lead
    out of the directory. -/
theorem update_overwrites_plugin :
    (uploadedBoth.idCache "foo2" = some 1 ∧ Holds uploadedBoth 1 "/p/foo2-v2.mbp".toList ∧
      replacementPath uploads ⟨"1"⟩ ⟨"2"⟩ 0 "/p/foo1-v1.mbp".toList = "/p/foo2-v2.mbp".toList ∧
      ¬ Safe platform uploadedBoth "/p".toList
        (replacementPath uploads ⟨"1"⟩ ⟨"2"⟩ 0 "/p/foo1-v1.mbp".toList)) ∧
    abspath "/".toList (uploadPath "/p".toList "../etc/x" ⟨"1"⟩) = "/etc/x-v1.mbp".toList ∧
    ¬ Safe platform uploadedBoth "/p".toList (uploadPath "/p".toList "../etc/x" ⟨"1"⟩) := by
  have hholds : Holds uploadedBoth 1 "/p/foo2-v2.mbp".toList := ⟨⟨"foo2", by decide⟩, by decide⟩
  have hpath : replacementPath uploads ⟨"1"⟩ ⟨"2"⟩ 0 "/p/foo1-v1.mbp".toList =
      "/p/foo2-v2.mbp".toList := by decide
  refine ⟨⟨by decide, hholds, hpath, fun h => ?_⟩, by decide, fun h => ?_⟩
  · exact h.free 1 _ hholds (by rw [hpath])
  · exact absurd h.inside.comps (by decide)

end ZipLoader

end Maubot
