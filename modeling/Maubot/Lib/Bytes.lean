import Mathlib.Data.List.Infix
import Mathlib.Tactic.Ring

namespace Maubot

/-!
# Bytes — numbers in them, parts of them, and the last place of a pattern

* `toLE`, `ofLE` — numbers as bytes, the least significant first; `u16` and `u32` are those of
  two and four bytes, and every two or four bytes are one of them (`exists_u16`, `exists_u32`);
* `chunk` — the bytes at a place, as a file or a slice gives them;
* `rfind` — the last place of a pattern (`rfind_eq_some_iff`);
* `replace` — another text for every place of a pattern.
-/

abbrev Bytes := List UInt8

namespace Bytes

/-! ### Numbers -/

/-- The bytes of a number, as many as there is room for -/
def toLE : Nat → Nat → Bytes
  | 0, _     => []
  | w + 1, n => UInt8.ofNat n :: toLE w (n / 256)

/-- `int.from_bytes(data, "little")` -/
def ofLE : Bytes → Nat
  | []     => 0
  | b :: l => b.toNat + 256 * ofLE l

/-- A number of `w` bytes has them. -/
@[simp] theorem length_toLE (w n : Nat) : (toLE w n).length = w := by
  induction w generalizing n with
  | zero => rfl
  | succ w ih => rw [toLE, List.length_cons, ih]

/-- It is read back if it fits. -/
theorem ofLE_toLE {w n : Nat} (h : n < 256 ^ w) : ofLE (toLE w n) = n := by
  induction w generalizing n with
  | zero => exact (Nat.lt_one_iff.mp h).symm
  | succ w ih =>
    have hrest : n / 256 < 256 ^ w := by
      rw [Nat.pow_succ] at h
      exact Nat.div_lt_of_lt_mul (by rwa [Nat.mul_comm] at h)
    rw [toLE, ofLE, ih hrest, UInt8.toNat_ofNat']
    exact Nat.mod_add_div n 256

/-- And bytes are, as the number that they are. -/
theorem toLE_ofLE (l : Bytes) : toLE l.length (ofLE l) = l := by
  induction l with
  | nil => rfl
  | cons b l ih =>
    have hb : b.toNat < 256 := b.toNat_lt
    have hdiv : (b.toNat + 256 * ofLE l) / 256 = ofLE l := by omega
    have hhead : UInt8.ofNat (b.toNat + 256 * ofLE l) = b := by
      apply UInt8.toNat_inj.mp
      rw [UInt8.toNat_ofNat']
      omega
    rw [List.length_cons, ofLE, toLE, hdiv, ih, hhead]

/-- So many bytes are no larger number. -/
theorem ofLE_lt (l : Bytes) : ofLE l < 256 ^ l.length := by
  induction l with
  | nil => exact Nat.one_pos
  | cons b l ih =>
    have hb : b.toNat < 256 := b.toNat_lt
    rw [ofLE, List.length_cons, Nat.pow_succ]
    omega

def u16 (x : UInt16) : Bytes := toLE 2 x.toNat

def u32 (x : UInt32) : Bytes := toLE 4 x.toNat

/-- Two bytes. -/
@[simp] theorem length_u16 (x : UInt16) : (u16 x).length = 2 := rfl

/-- Four bytes. -/
@[simp] theorem length_u32 (x : UInt32) : (u32 x).length = 4 := rfl

/-- Two bytes are read back, -/
@[simp] theorem ofLE_u16 (x : UInt16) : ofLE (u16 x) = x.toNat := ofLE_toLE x.toNat_lt

/-- and so are four. -/
@[simp] theorem ofLE_u32 (x : UInt32) : ofLE (u32 x) = x.toNat := ofLE_toLE x.toNat_lt

/-- Every two bytes are a number. -/
theorem exists_u16 {l : Bytes} (h : 2 ≤ l.length) : ∃ x rest, l = u16 x ++ rest := by
  have hlen : (l.take 2).length = 2 := List.length_take_of_le h
  have hlt : ofLE (l.take 2) < 256 ^ (l.take 2).length := ofLE_lt _
  refine ⟨UInt16.ofNat (ofLE (l.take 2)), l.drop 2, ?_⟩
  have hn : (UInt16.ofNat (ofLE (l.take 2))).toNat = ofLE (l.take 2) :=
    UInt16.toNat_ofNat_of_lt' (by rw [hlen] at hlt; exact hlt)
  have htake := toLE_ofLE (l.take 2)
  rw [hlen] at htake
  rw [u16, hn, htake, List.take_append_drop]

/-- Four bytes in front are a number. -/
theorem exists_u32 {l : Bytes} (h : 4 ≤ l.length) : ∃ x rest, l = u32 x ++ rest := by
  have hlen : (l.take 4).length = 4 := List.length_take_of_le h
  have hlt : ofLE (l.take 4) < 256 ^ (l.take 4).length := ofLE_lt _
  refine ⟨UInt32.ofNat (ofLE (l.take 4)), l.drop 4, ?_⟩
  have hn : (UInt32.ofNat (ofLE (l.take 4))).toNat = ofLE (l.take 4) :=
    UInt32.toNat_ofNat_of_lt' (by rw [hlen] at hlt; exact hlt)
  have htake := toLE_ofLE (l.take 4)
  rw [hlen] at htake
  rw [u32, hn, htake, List.take_append_drop]

/-! ### Parts -/

section Parts

variable {α : Type} {l a b c : List α} {i n : Nat}

/-- The bytes that are read at a place, fewer at the end -/
def chunk (l : List α) (i n : Nat) : List α := (l.drop i).take n

/-- A part behind what is in front. -/
theorem chunk_append_right (a l : List α) (i n : Nat) :
    chunk (a ++ l) (a.length + i) n = chunk l i n := by
  rw [chunk, chunk, List.drop_append, List.drop_eq_nil_of_le (Nat.le_add_right _ _),
    Nat.add_sub_cancel_left, List.nil_append]

/-- What stands behind is not read. -/
theorem chunk_append_left (h : i + n ≤ l.length) (b : List α) :
    chunk (l ++ b) i n = chunk l i n := by
  have hi : i ≤ l.length := Nat.le_of_add_right_le h
  have hn : n ≤ (l.drop i).length := by rw [List.length_drop]; omega
  rw [chunk, chunk, List.drop_append_of_le_length hi, List.take_append_of_le_length hn]

/-- The part in the middle. -/
theorem chunk_middle (a b c : List α) : chunk (a ++ (b ++ c)) a.length b.length = b := by
  rw [chunk, List.drop_left, List.take_left]

/-- A part that is inside has its length. -/
theorem length_chunk (h : i + n ≤ l.length) : (chunk l i n).length = n := by
  rw [chunk, List.length_take, List.length_drop]
  omega

/-- As many bytes as were asked for: the place is inside. -/
theorem le_of_length_chunk (hn : 0 < n) (h : (chunk l i n).length = n) : i + n ≤ l.length := by
  rw [chunk, List.length_take, List.length_drop] at h
  omega

/-- A part and what follows it. -/
theorem chunk_append_drop (l : List α) (i n : Nat) : chunk l i n ++ l.drop (i + n) = l.drop i := by
  rw [chunk, ← List.drop_drop, List.take_append_drop]

end Parts

/-! ### The last place of a pattern -/

section Rfind

variable {α : Type} [DecidableEq α] {pat l : List α} {i : Nat}

/-- `data.rfind(pattern)` -/
def rfind (pat : List α) : List α → Option Nat
  | []     => if pat = [] then some 0 else none
  | c :: l =>
    match rfind pat l with
    | some i => some (i + 1)
    | none   => if pat.isPrefixOf (c :: l) then some 0 else none

/-- A pattern stands at a place. -/
def At (pat l : List α) (i : Nat) : Prop := pat <+: l.drop i

/-- The last occurrence is found, and nothing where there is none. -/
theorem rfind_spec (pat l : List α) :
    (∀ i, rfind pat l = some i → i ≤ l.length ∧ At pat l i ∧
      ∀ j, i < j → j ≤ l.length → ¬ At pat l j) ∧
    (rfind pat l = none → ∀ j, j ≤ l.length → ¬ At pat l j) := by
  induction l with
  -- at the end of the text only the empty pattern stands
  | nil =>
    unfold rfind
    by_cases hp : pat = []
    · rw [if_pos hp]
      refine ⟨fun i hi => ?_, nofun⟩
      obtain rfl := Option.some.inj hi
      refine ⟨Nat.le_refl 0, ?_, fun j hj hle => absurd hj (Nat.not_lt.mpr hle)⟩
      rw [hp]
      exact List.nil_prefix
    · rw [if_neg hp]
      refine ⟨nofun, fun _ j hj hat => hp ?_⟩
      rw [At, List.drop_nil] at hat
      exact List.prefix_nil.mp hat
  | cons c l ih =>
    obtain ⟨hsome, hnone⟩ := ih
    unfold rfind
    cases hr : rfind pat l with
    -- a place in the rest is behind this one
    | some i =>
      obtain ⟨hle, hat, hlast⟩ := hsome i hr
      refine ⟨fun k hk => ?_, nofun⟩
      obtain rfl := Option.some.inj hk
      refine ⟨Nat.succ_le_succ hle, hat, fun j hj hjl => ?_⟩
      obtain ⟨j, rfl⟩ := Nat.exists_eq_succ_of_ne_zero (Nat.ne_of_gt (Nat.zero_lt_of_lt hj))
      exact hlast j (Nat.lt_of_succ_lt_succ hj) (Nat.le_of_succ_le_succ hjl)
    | none =>
      have hrest : ∀ j, 0 < j → j ≤ (c :: l).length → ¬ At pat (c :: l) j := by
        intro j hj hjl
        obtain ⟨j, rfl⟩ := Nat.exists_eq_succ_of_ne_zero (Nat.ne_of_gt hj)
        exact hnone hr j (Nat.le_of_succ_le_succ hjl)
      -- there is none in the rest, so the first place is the last
      by_cases hp : pat.isPrefixOf (c :: l) = true
      · rw [if_pos hp]
        refine ⟨fun k hk => ?_, nofun⟩
        obtain rfl := Option.some.inj hk
        exact ⟨Nat.zero_le _, List.isPrefixOf_iff_prefix.mp hp, hrest⟩
      · rw [if_neg hp]
        refine ⟨nofun, fun _ j hj => ?_⟩
        rcases Nat.eq_zero_or_pos j with rfl | hpos
        · exact fun hat => hp (List.isPrefixOf_iff_prefix.mpr hat)
        · exact hrest j hpos hj

/-- It is the last one. -/
theorem rfind_eq_some_iff : rfind pat l = some i ↔
    i ≤ l.length ∧ At pat l i ∧ ∀ j, i < j → j ≤ l.length → ¬ At pat l j := by
  refine ⟨(rfind_spec pat l).1 i, fun ⟨hle, hat, hlast⟩ => ?_⟩
  cases hr : rfind pat l with
  | none => exact absurd hat ((rfind_spec pat l).2 hr i hle)
  | some k =>
    obtain ⟨hk, hkat, hklast⟩ := (rfind_spec pat l).1 k hr
    rcases Nat.lt_trichotomy i k with h | rfl | h
    · exact absurd hkat (hlast k h hk)
    · rfl
    · exact absurd hat (hklast i h hle)

end Rfind

/-! ### Replacing a pattern -/

section Replace

variable {α : Type} [DecidableEq α]

/-- `data.replace(pattern, new)`, for a pattern `p :: pat` -/
def replace (p : α) (pat new : List α) : List α → List α
  | []     => []
  | c :: l =>
    if (p :: pat).isPrefixOf (c :: l) then new ++ replace p pat new (l.drop pat.length)
    else c :: replace p pat new l
termination_by l => l.length

/-- A pattern of one byte -/
theorem replace_single (p : α) (new l : List α) :
    replace p [] new l = l.flatMap fun c => if c = p then new else [c] := by
  induction l with
  | nil => rw [replace, List.flatMap_nil]
  | cons c l ih =>
    rw [replace, List.flatMap_cons, List.length_nil, List.drop_zero, ih]
    by_cases hc : p = c
    · simp [hc]
    · simp [hc, Ne.symm hc]

end Replace

end Bytes

end Maubot
