import Maubot.Lib.UrlPath
import Mathlib.Data.List.DropRight

namespace Maubot.OsPath

/-!
# POSIX paths — `os.path.join` and `os.path.normpath`

A path is a list of characters.  Normalising it walks through its components; what is left
of them, with the number of slashes in front, is the `Place` the path names.

* `normpath_eq_iff` — two paths have one normal form exactly if they name one place;
* `place_join` — where a path below a directory leads, or an absolute one;
* `place_normpath` — the normal form of an absolute path names the place that the path names;
* `place_dirname` — the place of a path is its base name below the place of its directory.
-/

open UrlPath

/-- `os.path.join(a, b)` -/
def join (a b : List Char) : List Char :=
  if ['/'].isPrefixOf b then b
  else if a = [] ∨ a.getLast? = some '/' then a ++ b
  else a ++ '/' :: b

/-- `os.path.basename` -/
def basename (path : List Char) : List Char := ((split '/' path).getLast?).getD []

/-- `os.path.dirname`: without the slashes at its end, unless there is nothing else. -/
def dirname (path : List Char) : List Char :=
  let head := path.take (path.length - (basename path).length)
  if head.all (· = '/') then head else head.rdropWhile (· = '/')

/-- The slashes in front that `normpath` keeps: exactly two count as two. -/
def initialSlashes (path : List Char) : Nat :=
  if ['/'].isPrefixOf path = false then 0
  else if ['/', '/'].isPrefixOf path ∧ ['/', '/', '/'].isPrefixOf path = false then 2
  else 1

/-- One turn of the loop of `normpath`; `rooted` is whether the path starts with a slash. -/
def visit (rooted : Bool) (comps : List (List Char)) (comp : List Char) : List (List Char) :=
  if comp = [] ∨ comp = ['.'] then comps
  else if comp ≠ ['.', '.'] ∨ (rooted = false ∧ comps = []) ∨ comps.getLast? = some ['.', '.'] then
    comps ++ [comp]
  else comps.dropLast

/-- The walk through the components of a path. -/
def walk (rooted : Bool) (comps : List (List Char)) (path : List Char) : List (List Char) :=
  (split '/' path).foldl (visit rooted) comps

/-- What a path names. -/
structure Place where
  slashes : Nat
  comps   : List (List Char)
  deriving DecidableEq, Repr

def place (path : List Char) : Place where
  slashes := initialSlashes path
  comps   := walk (initialSlashes path ≠ 0) [] path

def Place.render (p : Place) : List Char :=
  let path := List.replicate p.slashes '/' ++ UrlPath.join '/' p.comps
  if p.comps = [] ∧ p.slashes = 0 then ['.'] else path

/-- `os.path.normpath(path)` -/
def normpath (path : List Char) : List Char := (place path).render

/-! ### Components -/

/-- What the loop keeps. -/
def Proper (comp : List Char) : Prop := comp ≠ [] ∧ comp ≠ ['.'] ∧ '/' ∉ comp

/-- A segment that is visited leaves proper components. -/
theorem visit_proper {rooted : Bool} {comps : List (List Char)} {comp : List Char}
    (h : ∀ c ∈ comps, Proper c) (hc : '/' ∉ comp) : ∀ c ∈ visit rooted comps comp, Proper c := by
  unfold visit
  split
  · exact h
  · next hne =>
    split
    · intro c hmem
      rcases List.mem_append.mp hmem with hmem | hmem
      · exact h c hmem
      · rw [List.mem_singleton.mp hmem]
        exact ⟨fun he => hne (.inl he), fun he => hne (.inr he), hc⟩
    · exact fun c hmem => h c (List.dropLast_subset comps hmem)

/-- So do all segments. -/
theorem foldl_visit_proper {rooted : Bool} {segments : List (List Char)}
    (hs : ∀ s ∈ segments, '/' ∉ s) {comps : List (List Char)} (h : ∀ c ∈ comps, Proper c) :
    ∀ c ∈ segments.foldl (visit rooted) comps, Proper c := by
  induction segments generalizing comps with
  | nil => exact h
  | cons s segments ih =>
    exact ih (fun t ht => hs t (List.mem_cons_of_mem _ ht))
      (visit_proper h (hs s List.mem_cons_self))

/-- So the components of a place are proper. -/
theorem place_proper (path : List Char) : ∀ c ∈ (place path).comps, Proper c :=
  foldl_visit_proper (fun _ hs => not_mem_of_mem_split '/' hs) nofun

/-! ### Normal forms -/

/-- The components that are joined do not begin with a slash. -/
theorem join_head_ne {comps : List (List Char)} (h : ∀ c ∈ comps, Proper c) (rest : List Char) :
    UrlPath.join '/' comps ≠ '/' :: rest := by
  cases comps with
  | nil => simp
  | cons c comps =>
    obtain ⟨hne, -, hslash⟩ := h c List.mem_cons_self
    cases c with
    | nil => exact absurd rfl hne
    | cons x c =>
      intro he
      obtain rfl : x = '/' := (List.cons.inj he).1
      exact hslash List.mem_cons_self

/-- Proper components are read off their join. -/
theorem join_injective {a b : List (List Char)} (ha : ∀ c ∈ a, Proper c) (hb : ∀ c ∈ b, Proper c)
    (h : UrlPath.join '/' a = UrlPath.join '/' b) : a = b := by
  -- components are not empty, so no joined list is that of no components
  have hnil : ∀ {l : List (List Char)}, (∀ c ∈ l, Proper c) → UrlPath.join '/' l = [] → l = [] := by
    intro l hl he
    cases l with
    | nil => rfl
    | cons c l =>
      have : c = [] := (List.append_eq_nil_iff.mp he).1
      exact absurd this (hl c List.mem_cons_self).1
  by_cases hae : a = []
  · subst hae
    exact (hnil hb h.symm).symm
  · by_cases hbe : b = []
    · subst hbe
      exact hnil ha h
    · rw [← split_join '/' a hae (fun c hc => (ha c hc).2.2), h,
        split_join '/' b hbe (fun c hc => (hb c hc).2.2)]

/-- Slashes in front are told from what follows. -/
theorem replicate_append_inj {n m : Nat} {a b : List Char} (ha : ∀ rest, a ≠ '/' :: rest)
    (hb : ∀ rest, b ≠ '/' :: rest)
    (h : List.replicate n '/' ++ a = List.replicate m '/' ++ b) : n = m ∧ a = b := by
  induction n generalizing m with
  | zero =>
    cases m with
    | zero => exact ⟨rfl, h⟩
    | succ m => exact absurd h (ha _)
  | succ n ih =>
    cases m with
    | zero => exact absurd h.symm (hb _)
    | succ m =>
      obtain ⟨rfl, hab⟩ := ih (List.cons.inj h).2
      exact ⟨rfl, hab⟩

/-- A rendered place names itself only. -/
theorem render_injective {p q : Place} (hp : ∀ c ∈ p.comps, Proper c)
    (hq : ∀ c ∈ q.comps, Proper c) (h : p.render = q.render) : p = q := by
  -- the dot is the text of the empty place only
  have hdot : ∀ {p : Place}, (∀ c ∈ p.comps, Proper c) →
      List.replicate p.slashes '/' ++ UrlPath.join '/' p.comps ≠ ['.'] := by
    intro p hp he
    have hslash : List.replicate p.slashes '/' ++ UrlPath.join '/' p.comps =
        List.replicate 0 '/' ++ ['.'] := he
    obtain ⟨-, hjoin⟩ := replicate_append_inj (join_head_ne hp) (by simp) hslash
    obtain ⟨c, hc⟩ : ∃ c, p.comps = [c] := by
      rw [← split_join '/' p.comps ?_ (fun c hc => (hp c hc).2.2), hjoin]
      · exact ⟨['.'], rfl⟩
      · intro hnil
        rw [hnil] at hjoin
        cases hjoin
    rw [hc, join_singleton] at hjoin
    exact (hp c (by rw [hc]; exact List.mem_cons_self)).2.1 hjoin
  obtain ⟨n, a⟩ := p
  obtain ⟨m, b⟩ := q
  simp only [Place.render] at h
  split at h
  · next hpe =>
    split at h
    · next hqe =>
      obtain ⟨rfl, rfl⟩ := hpe
      obtain ⟨rfl, rfl⟩ := hqe
      rfl
    · exact absurd h.symm (hdot (p := ⟨m, b⟩) hq)
  · split at h
    · exact absurd h (hdot (p := ⟨n, a⟩) hp)
    · obtain ⟨rfl, hab⟩ := replicate_append_inj (join_head_ne hp) (join_head_ne hq) h
      rw [show a = b from join_injective hp hq hab]

/-- **Normal forms are places.** -/
theorem normpath_eq_iff (a b : List Char) : normpath a = normpath b ↔ place a = place b := by
  constructor
  · exact render_injective (place_proper a) (place_proper b)
  · intro h
    unfold normpath
    rw [h]

/-! ### Joining -/

/-- A walk along two paths is one walk after the other. -/
theorem walk_append (rooted : Bool) (comps : List (List Char)) (a b : List Char) :
    walk rooted comps (a ++ '/' :: b) = walk rooted (walk rooted comps a) b := by
  unfold walk
  rw [split_append, List.foldl_append]

/-- A walk along nothing stays. -/
@[simp] theorem walk_nil (rooted : Bool) (comps : List (List Char)) :
    walk rooted comps [] = comps := rfl

/-- A slash at the end of a directory makes no difference. -/
theorem walk_concat_slash (rooted : Bool) (comps : List (List Char)) (a : List Char) :
    walk rooted comps (a ++ ['/']) = walk rooted comps a := by
  rw [walk_append, walk_nil]

/-- Not an absolute path. -/
def Relative (x : List Char) : Prop := ∀ rest, x ≠ '/' :: rest

/-- A relative path begins with no slash. -/
theorem relative_iff (x : List Char) : Relative x ↔ ['/'].isPrefixOf x = false := by
  cases x with
  | nil => simp [Relative]
  | cons c x =>
    constructor
    · intro h
      have hc : '/' ≠ c := fun hc => h x (by rw [hc])
      simp [List.isPrefixOf, hc]
    · rintro h rest he
      obtain ⟨rfl, -⟩ := List.cons.inj he
      simp [List.isPrefixOf] at h

/-- Whether a list starts with slashes is decided before a relative path behind it. -/
theorem isPrefixOf_append_relative (n : Nat) (d : List Char) {x : List Char} (hx : Relative x) :
    (List.replicate n '/').isPrefixOf (d ++ x) = (List.replicate n '/').isPrefixOf d := by
  induction n generalizing d with
  | zero => simp
  | succ n ih =>
    cases d with
    | nil =>
      cases x with
      | nil => rfl
      | cons c x =>
        have hc : '/' ≠ c := fun hc => hx x (by rw [hc])
        simp [List.replicate_succ, List.isPrefixOf, hc]
    | cons c d => simp only [List.replicate_succ, List.cons_append, List.isPrefixOf, ih]

/-- A relative path behind another does not change the slashes in front. -/
theorem initialSlashes_append (d : List Char) {x : List Char} (hx : Relative x) :
    initialSlashes (d ++ x) = initialSlashes d := by
  have h₁ := isPrefixOf_append_relative 1 d hx
  have h₂ := isPrefixOf_append_relative 2 d hx
  have h₃ := isPrefixOf_append_relative 3 d hx
  simp only [List.replicate] at h₁ h₂ h₃
  unfold initialSlashes
  rw [h₁, h₂, h₃]

/-- A slash behind a path that has something other than slashes. -/
theorem initialSlashes_slash {d : List Char} (hne : d ≠ []) (hlast : d.getLast? ≠ some '/')
    (x : List Char) : initialSlashes (d ++ '/' :: x) = initialSlashes d := by
  -- the last character is a relative path of its own
  obtain ⟨d', c, rfl⟩ := (List.eq_nil_or_concat d).resolve_left hne
  rw [List.concat_eq_append] at hlast ⊢
  have hc : c ≠ '/' := by simpa using hlast
  have hrel : ∀ y, Relative (c :: y) := fun y rest he => hc (List.cons.inj he).1
  rw [List.append_assoc, List.singleton_append, initialSlashes_append d' (hrel _),
    initialSlashes_append d' (hrel _)]

/-- So joined paths have the slashes of the first one. -/
theorem initialSlashes_join (d : List Char) {x : List Char} (hx : Relative x) :
    initialSlashes (join d x) = initialSlashes d := by
  unfold join
  rw [if_neg (by rw [(relative_iff x).mp hx]; nofun)]
  by_cases hd : d = [] ∨ d.getLast? = some '/'
  · rw [if_pos hd]
    exact initialSlashes_append d hx
  · rw [if_neg hd]
    rw [not_or] at hd
    exact initialSlashes_slash hd.1 hd.2 x

/-- The walk along a joined path. -/
theorem walk_join (rooted : Bool) (comps : List (List Char)) (d : List Char) {x : List Char}
    (hx : Relative x) : walk rooted comps (join d x) = walk rooted (walk rooted comps d) x := by
  unfold join
  rw [if_neg (by rw [(relative_iff x).mp hx]; nofun)]
  by_cases hd : d = []
  · rw [if_pos (.inl hd), hd]
    rfl
  · by_cases hlast : d.getLast? = some '/'
    · rw [if_pos (.inr hlast)]
      obtain ⟨d', c, rfl⟩ := (List.eq_nil_or_concat d).resolve_left hd
      rw [List.concat_eq_append] at hlast ⊢
      obtain rfl : c = '/' := by simpa using hlast
      rw [walk_concat_slash, List.append_assoc, List.singleton_append, walk_append]
    · rw [if_neg (by rintro (h | h) <;> contradiction), walk_append]

/-- **Where a joined path leads**: an absolute one to its own place, another one on from the
    directory. -/
theorem place_join (d x : List Char) : place (join d x) =
    if ['/'].isPrefixOf x then place x
    else ⟨initialSlashes d, walk (initialSlashes d ≠ 0) (place d).comps x⟩ := by
  by_cases hx : ['/'].isPrefixOf x = true
  · rw [if_pos hx, join, if_pos hx]
  · have hrel : Relative x := (relative_iff x).mpr (eq_false_of_ne_true hx)
    rw [if_neg hx]
    unfold place
    rw [initialSlashes_join d hrel, walk_join _ _ d hrel]

/-! ### Absolute paths -/

/-- A path that starts with a slash. -/
def Absolute (path : List Char) : Prop := ['/'].isPrefixOf path = true

/-- An absolute path has one of them or two. -/
theorem initialSlashes_pos {path : List Char} (h : Absolute path) :
    initialSlashes path = 1 ∨ initialSlashes path = 2 := by
  unfold initialSlashes
  rw [if_neg (by rw [h]; nofun)]
  split
  · exact .inr rfl
  · exact .inl rfl

/-- Below the root, `..` never stays. -/
theorem foldl_visit_no_dots {segments comps : List (List Char)}
    (h : ∀ c ∈ comps, c ≠ ['.', '.']) :
    ∀ c ∈ segments.foldl (visit true) comps, c ≠ ['.', '.'] := by
  induction segments generalizing comps with
  | nil => exact h
  | cons s segments ih =>
    refine ih fun c hc => ?_
    unfold visit at hc
    split at hc
    · exact h c hc
    · split at hc
      · next hkeep =>
        rcases List.mem_append.mp hc with hc | hc
        · exact h c hc
        · obtain rfl := List.mem_singleton.mp hc
          rcases hkeep with hne | ⟨hroot, -⟩ | hlast
          · exact hne
          · cases hroot
          · exact absurd rfl (h _ (List.mem_of_getLast? hlast))
      · exact h c (List.dropLast_subset comps hc)

/-- Of components without `..`, the walk leaves out the empty ones and the dots. -/
theorem foldl_visit_kept {segments : List (List Char)} (h : ∀ s ∈ segments, s ≠ ['.', '.'])
    (rooted : Bool) (comps : List (List Char)) : segments.foldl (visit rooted) comps =
      comps ++ segments.filter fun s => s ≠ [] ∧ s ≠ ['.'] := by
  induction segments generalizing comps with
  | nil => simp
  | cons s segments ih =>
    obtain ⟨hs, hsegments⟩ := List.forall_mem_cons.mp h
    rw [List.foldl_cons, ih hsegments, visit, List.filter_cons]
    by_cases hkept : s = [] ∨ s = ['.']
    · rw [if_pos hkept, if_neg]
      simpa [or_iff_not_imp_left] using hkept
    · rw [if_neg hkept, if_pos (.inl hs), if_pos, List.append_assoc, List.singleton_append]
      simpa [not_or] using hkept

/-- Proper components without `..` are all kept. -/
theorem foldl_visit_proper_eq {segments : List (List Char)}
    (h : ∀ c ∈ segments, Proper c ∧ c ≠ ['.', '.']) (comps : List (List Char)) :
    segments.foldl (visit true) comps = comps ++ segments := by
  induction segments generalizing comps with
  | nil => simp
  | cons s segments ih =>
    obtain ⟨⟨hne, hdot, -⟩, hdots⟩ := h s List.mem_cons_self
    have hvisit : visit true comps s = comps ++ [s] := by
      unfold visit
      rw [if_neg (by rintro (h | h) <;> contradiction), if_pos (.inl hdots)]
    rw [List.foldl_cons, hvisit, ih (fun c hc => h c (List.mem_cons_of_mem _ hc)),
      List.append_assoc, List.singleton_append]

/-- A name stands behind the components of its directory. -/
theorem comps_join {d x : List Char} (hd : Absolute d) (hx : Proper x) (hdots : x ≠ ['.', '.']) :
    (place (join d x)).comps = (place d).comps ++ [x] := by
  have hrel : ¬ ['/'].isPrefixOf x = true := by
    intro h
    obtain ⟨t, rfl⟩ := List.isPrefixOf_iff_prefix.mp h
    exact hx.2.2 List.mem_cons_self
  have hrooted : decide (initialSlashes d ≠ 0) = true := by
    rcases initialSlashes_pos hd with h | h <;> rw [h] <;> rfl
  rw [place_join, if_neg hrel]
  dsimp only
  rw [hrooted, walk, UrlPath.split_of_not_mem _ hx.2.2]
  exact foldl_visit_proper_eq (fun c hc => List.mem_singleton.mp hc ▸ ⟨hx, hdots⟩) _

/-- A rooted place is the one that its rendering names. -/
theorem place_render {p : Place} (hs : p.slashes = 1 ∨ p.slashes = 2)
    (hp : ∀ c ∈ p.comps, Proper c ∧ c ≠ ['.', '.']) : place p.render = p := by
  obtain ⟨n, comps⟩ := p
  have hhead := join_head_ne fun c hc => (hp c hc).1
  have hrender : Place.render ⟨n, comps⟩ = List.replicate n '/' ++ UrlPath.join '/' comps := by
    unfold Place.render
    rw [if_neg (by rintro ⟨-, h⟩; rcases hs with hs | hs <;> rw [hs] at h <;> cases h)]
  -- an empty segment for each slash, then the components
  have hwalk : (split '/' (UrlPath.join '/' comps)).foldl (visit true) [] = comps := by
    by_cases hnil : comps = []
    · subst hnil
      rfl
    · rw [split_join '/' comps hnil fun c hc => (hp c hc).1.2.2, foldl_visit_proper_eq hp,
        List.nil_append]
  have hcons : ∀ rest, (split '/' ('/' :: rest)).foldl (visit true) [] =
      (split '/' rest).foldl (visit true) [] := by
    intro rest
    simp [split, visit]
  have hrel : Relative (UrlPath.join '/' comps) := hhead
  have hfalse : ['/'].isPrefixOf (UrlPath.join '/' comps) = false := (relative_iff _).mp hrel
  rw [hrender]
  generalize UrlPath.join '/' comps = x at hwalk hfalse
  rcases hs with rfl | rfl
  · have hslashes : initialSlashes (List.replicate 1 '/' ++ x) = 1 := by
      cases x <;> simp_all [initialSlashes, List.isPrefixOf]
    unfold place walk
    rw [hslashes]
    exact congrArg (Place.mk 1) ((hcons x).trans hwalk)
  · have hslashes : initialSlashes (List.replicate 2 '/' ++ x) = 2 := by
      cases x <;> simp_all [initialSlashes, List.isPrefixOf, List.replicate]
    unfold place walk
    rw [hslashes]
    exact congrArg (Place.mk 2) ((hcons ('/' :: x)).trans ((hcons x).trans hwalk))

/-- **Normal forms of absolute paths** name the places of the paths. -/
theorem place_normpath {path : List Char} (h : Absolute path) :
    place (normpath path) = place path := by
  have hs := initialSlashes_pos h
  refine place_render hs fun c hc => ⟨place_proper path c hc, ?_⟩
  have hroot : decide (initialSlashes path ≠ 0) = true := by
    rcases hs with hs | hs <;> rw [hs] <;> rfl
  have hmem : c ∈ (split '/' path).foldl (visit true) [] := by
    have : (place path).comps = (split '/' path).foldl (visit true) [] := by
      show walk _ [] path = _
      rw [hroot]
      rfl
    rw [← this]
    exact hc
  exact foldl_visit_no_dots (fun _ h => absurd h List.not_mem_nil) c hmem

/-- The normal form of an absolute path is absolute. -/
theorem absolute_normpath {path : List Char} (h : Absolute path) : Absolute (normpath path) := by
  unfold normpath Place.render Absolute
  rw [if_neg (by rintro ⟨-, h0⟩; rcases initialSlashes_pos h with hs | hs <;>
    rw [show (place path).slashes = initialSlashes path from rfl, hs] at h0 <;> cases h0)]
  rcases initialSlashes_pos h with hs | hs <;>
    simp [show (place path).slashes = initialSlashes path from rfl, hs, List.replicate,
      List.isPrefixOf]

/-- A path joined to an absolute one is absolute. -/
theorem absolute_join {d x : List Char} (h : Absolute d) : Absolute (join d x) := by
  unfold join
  split
  · assumption
  · cases d with
    | nil => cases h
    | cons c d =>
      have hc : '/' = c := by simpa [Absolute, List.isPrefixOf] using h
      subst hc
      split <;> simp [Absolute, List.isPrefixOf]

/-- An absolute path replaces what it is joined to. -/
theorem join_absolute {d x : List Char} (h : Absolute x) : join d x = x := if_pos h

/-! ### Directories -/

/-- Relative paths are joined to a relative one. -/
theorem relative_join {d x : List Char} (hd : Relative d) (hx : Relative x) :
    Relative (join d x) := by
  unfold join
  rw [if_neg (by rw [(relative_iff x).mp hx]; nofun)]
  cases d with
  | nil => exact hx
  | cons c d =>
    have hc : c ≠ '/' := fun hc => hd d (by rw [hc])
    split <;> exact fun rest he => hc (List.cons.inj he).1

/-- An absolute path is rooted. -/
theorem rooted_of_absolute {path : List Char} (h : Absolute path) :
    decide (initialSlashes path ≠ 0) = true := by
  rcases initialSlashes_pos h with hs | hs <;> rw [hs] <;> rfl

/-- **Below a directory**, seen from an absolute one. -/
theorem place_join_join {cwd : List Char} (hcwd : Absolute cwd) (d : List Char) {x : List Char}
    (hx : Relative x) : place (join cwd (join d x)) =
      ⟨(place (join cwd d)).slashes, walk true (place (join cwd d)).comps x⟩ := by
  have hxf : ¬ ['/'].isPrefixOf x = true := by rw [(relative_iff x).mp hx]; nofun
  by_cases hd : Absolute d
  · rw [join_absolute (absolute_join hd), join_absolute hd, place_join, if_neg hxf,
      rooted_of_absolute hd]
    rfl
  · have hdrel : Relative d := (relative_iff d).mpr (eq_false_of_ne_true hd)
    have hrel := relative_join hdrel hx
    have hrf : ¬ ['/'].isPrefixOf (join d x) = true := by rw [(relative_iff _).mp hrel]; nofun
    have hdf : ¬ ['/'].isPrefixOf d = true := hd
    rw [place_join cwd (join d x), if_neg hrf, place_join cwd d, if_neg hdf,
      rooted_of_absolute hcwd, walk_join true _ d hx]

/-- The same with whatever stands behind a slash. -/
theorem place_join_slash {cwd : List Char} (hcwd : Absolute cwd) {d : List Char} (hne : d ≠ [])
    (hlast : d.getLast? ≠ some '/') (y : List Char) : place (join cwd (d ++ '/' :: y)) =
      ⟨(place (join cwd d)).slashes, walk true (place (join cwd d)).comps y⟩ := by
  obtain ⟨c, d', rfl⟩ := List.exists_cons_of_ne_nil hne
  by_cases hc : '/' = c
  · subst hc
    have hd : Absolute ('/' :: d') := by simp [Absolute, List.isPrefixOf]
    have hdy : Absolute ('/' :: d' ++ '/' :: y) := by simp [Absolute, List.isPrefixOf]
    rw [join_absolute hd, join_absolute hdy]
    have hslashes := initialSlashes_slash hne hlast y
    unfold place
    rw [hslashes, walk_append, rooted_of_absolute hd]
  · have hd : ¬ ['/'].isPrefixOf (c :: d') = true := by simp [List.isPrefixOf, hc]
    have hdy : ¬ ['/'].isPrefixOf (c :: d' ++ '/' :: y) = true := by simp [List.isPrefixOf, hc]
    rw [place_join, if_neg hdy, place_join, if_neg hd, rooted_of_absolute hcwd, walk_append]

/-- Empty components make no difference. -/
theorem walk_slashes (rooted : Bool) (comps : List (List Char)) (k : Nat) (x : List Char) :
    walk rooted comps (List.replicate k '/' ++ x) = walk rooted comps x := by
  induction k with
  | zero => rfl
  | succ k ih =>
    rw [← ih]
    unfold walk
    simp [List.replicate_succ, split, visit]

/-- A path is its base name, or it has a directory in front of it. -/
theorem basename_cases (q : List Char) : '/' ∉ basename q ∧
    (q = basename q ∨ ∃ head, q = head ++ '/' :: basename q) := by
  obtain ⟨last, hlast, hslash, hq⟩ := split_last_cases '/' q
  have hbase : basename q = last := by rw [basename, hlast, Option.getD_some]
  rw [hbase]
  exact ⟨hslash, hq⟩

/-- A path without slashes is relative. -/
theorem relative_of_not_mem {x : List Char} (h : '/' ∉ x) : Relative x :=
  fun rest he => h (by rw [he]; exact List.mem_cons_self)

/-- **The directory of a path**, followed by its base name. -/
theorem place_dirname {cwd : List Char} (hcwd : Absolute cwd) (q : List Char) :
    place (join cwd q) = ⟨(place (join cwd (dirname q))).slashes,
      walk true (place (join cwd (dirname q))).comps (basename q)⟩ := by
  obtain ⟨hslash, hq⟩ := basename_cases q
  unfold dirname
  generalize basename q = base at hslash hq
  have hrel := relative_of_not_mem hslash
  -- without a slash, or split at the last one
  rcases hq with rfl | ⟨head, rfl⟩
  · have hdir : (if (q.take (q.length - q.length)).all (· = '/') then q.take (q.length - q.length)
        else (q.take (q.length - q.length)).rdropWhile (· = '/')) = [] := by simp
    dsimp only
    rw [hdir, ← place_join_join hcwd [] hrel, show join [] q = q by simp [join]]
  · have htake : (head ++ '/' :: base).take ((head ++ '/' :: base).length - base.length) =
        head ++ ['/'] := by
      have hlen : (head ++ '/' :: base).length - base.length = (head ++ ['/']).length := by
        simp only [List.length_append, List.length_cons, List.length_nil]
        omega
      rw [hlen, show head ++ '/' :: base = (head ++ ['/']) ++ base by simp, List.take_left]
    dsimp only
    rw [htake]
    by_cases hall : (head ++ ['/']).all (· = '/') = true
    · rw [if_pos hall, ← place_join_join hcwd _ hrel]
      congr 2
      unfold join
      rw [if_neg (by rw [(relative_iff _).mp hrel]; nofun), if_pos (.inr (by simp))]
      simp
    · -- the directory, the slashes that `dirname` drops, and the base name
      rw [if_neg hall, List.rdropWhile_concat_pos _ _ _ (by simp)]
      have hhead : head.rdropWhile (fun c => decide (c = '/')) ++
          head.rtakeWhile (fun c => decide (c = '/')) = head := List.rdropWhile_append_rtakeWhile
      have hrep : head.rtakeWhile (fun c => decide (c = '/')) =
          List.replicate (head.rtakeWhile fun c => decide (c = '/')).length '/' :=
        List.eq_replicate_of_mem fun c hc => by simpa using List.mem_rtakeWhile_imp hc
      rw [hrep] at hhead
      generalize (head.rtakeWhile fun c => decide (c = '/')).length = k at hhead
      have hne : head.rdropWhile (fun c => decide (c = '/')) ≠ [] := by
        intro hnil
        rw [List.rdropWhile_eq_nil_iff] at hnil
        refine hall (List.all_eq_true.mpr fun c hc => ?_)
        rcases List.mem_append.mp hc with hc | hc
        · exact hnil c hc
        · simpa using hc
      have hlast : (head.rdropWhile fun c => decide (c = '/')).getLast? ≠ some '/' := by
        intro hsome
        have hnot := List.rdropWhile_last_not (fun c : Char => decide (c = '/')) head hne
        rw [List.getLast?_eq_getLast_of_ne_nil hne] at hsome
        rw [Option.some.inj hsome] at hnot
        exact hnot (by simp)
      generalize head.rdropWhile (fun c => decide (c = '/')) = d at hhead hne hlast
      have hslashes : List.replicate k '/' ++ '/' :: base =
          '/' :: (List.replicate k '/' ++ base) := by
        clear hhead
        induction k with
        | zero => rfl
        | succ k ih => simpa [List.replicate_succ] using ih
      rw [← hhead, List.append_assoc, hslashes, place_join_slash hcwd hne hlast, walk_slashes]

end Maubot.OsPath
