import Mathlib.Data.List.TakeWhile
import Mathlib.Tactic.Common

namespace Maubot.RowDeletion

/-!
# The database view — deleting a row

`deleteRow` of the frontend builds the condition of a `DELETE` from the texts of a row.

* `sqlEscape`, `whereClause` — the clause, with each text between quotes;
* `readLiteral`, `readWhere` — what SQL reads there;
* `reads_row_iff` — when that is the row.
-/

abbrev Text := List Char

/-! ### The clause -/

/-- The characters that `sqlEscape` replaces, each with what it puts behind a backslash. -/
def escapes : List (Char × Char) :=
  [(Char.ofNat 0, '0'), (Char.ofNat 8, 'b'), (Char.ofNat 9, 't'), (Char.ofNat 26, 'z'),
    ('\n', 'n'), ('\r', 'r'), ('"', '"'), ('\'', '\''), ('\\', '\\'), ('%', '%')]

def Special (c : Char) : Prop := (escapes.lookup c).isSome = true

instance (c : Char) : Decidable (Special c) := by unfold Special; infer_instance

def escapeChar (c : Char) : Text :=
  match escapes.lookup c with
  | some d => ['\\', d]
  | none   => [c]

/-- `sqlEscape` -/
def sqlEscape (str : Text) : Text := str.flatMap escapeChar

/-- A cell of the row: the name of its column, and its text. -/
abbrev Cell := Text × Text

/-- `${key}='${this.sqlEscape(val.toString())}'` -/
def condition (cell : Cell) : Text :=
  cell.1 ++ "='".toList ++ sqlEscape cell.2 ++ ['\'']

/-- `condition.join(" AND ")` -/
def whereClause : List Cell → Text
  | []            => []
  | [cell]        => condition cell
  | cell :: cells => condition cell ++ " AND ".toList ++ whereClause cells

/-! ### How SQL reads it -/

/-- A string literal, behind its first quote: two quotes stand for one, and a backslash is an
    ordinary character.  What follows the literal is left over. -/
def readLiteral : Text → Option (Text × Text)
  | []                => none
  | '\'' :: '\'' :: t => (readLiteral t).map fun r => ('\'' :: r.1, r.2)
  | '\'' :: t         => some ([], t)
  | c :: t            => (readLiteral t).map fun r => (c :: r.1, r.2)

/-- The characters of plain identifiers -/
def isIdentifierChar (c : Char) : Bool := c.isAlphanum || c = '_'

/-- `column = literal` -/
def readCondition (text : Text) : Option (Cell × Text) :=
  match text.dropWhile isIdentifierChar with
  | '=' :: '\'' :: t =>
    (readLiteral t).map fun r => ((text.takeWhile isIdentifierChar, r.1), r.2)
  | _                => none

/-- A conjunction of conditions; `fuel` bounds their number. -/
def readConditions : Nat → Text → Option (List Cell)
  | 0, _           => none
  | fuel + 1, text =>
    match readCondition text with
    | none              => none
    | some (cell, rest) =>
      if rest = [] then some [cell]
      else if " AND ".toList.isPrefixOf rest then
        (readConditions fuel (rest.drop 5)).map (cell :: ·)
      else none

/-- The whole clause; there are not more conditions than characters. -/
def readWhere (text : Text) : Option (List Cell) := readConditions text.length text

/-- The query removes a row (each column with its text, if it is not null). -/
def Removes (clause : Text) (row : Text → Option Text) : Prop :=
  ∃ cells, readWhere clause = some cells ∧ ∀ cell ∈ cells, row cell.1 = some cell.2

/-! ### Literals -/

/-- A quote is special. -/
theorem special_quote : Special '\'' := by decide

/-- A special character gets a backslash, -/
theorem escapeChar_of_special {c : Char} (h : Special c) : ∃ d, escapeChar c = ['\\', d] := by
  obtain ⟨d, hd⟩ := Option.isSome_iff_exists.mp h
  exact ⟨d, by rw [escapeChar, hd]⟩

/-- and another stays. -/
theorem escapeChar_of_not_special {c : Char} (h : ¬ Special c) : escapeChar c = [c] := by
  have hnone : escapes.lookup c = none := Option.not_isSome_iff_eq_none.mp h
  rw [escapeChar, hnone]

/-- Escaping makes no text shorter, and one with a special character longer. -/
theorem length_le_sqlEscape (v : Text) : v.length ≤ (sqlEscape v).length := by
  induction v with
  | nil => exact Nat.le_refl 0
  | cons c v ih =>
    rw [sqlEscape, List.flatMap_cons, List.length_append, List.length_cons]
    change _ ≤ _ + (sqlEscape v).length
    by_cases hc : Special c
    · obtain ⟨d, hd⟩ := escapeChar_of_special hc
      rw [hd, List.length_cons]
      omega
    · rw [escapeChar_of_not_special hc, List.length_singleton]
      omega

/-- So a text stays exactly if it has none. -/
theorem sqlEscape_eq_self_iff (v : Text) : sqlEscape v = v ↔ ∀ c ∈ v, ¬ Special c := by
  induction v with
  | nil => exact iff_of_true rfl nofun
  | cons c v ih =>
    rw [List.forall_mem_cons, ← ih, sqlEscape, List.flatMap_cons]
    change escapeChar c ++ sqlEscape v = c :: v ↔ _
    by_cases hc : Special c
    · refine iff_of_false (fun heq => ?_) fun h => h.1 hc
      obtain ⟨d, hd⟩ := escapeChar_of_special hc
      have hlength := congrArg List.length heq
      have hle := length_le_sqlEscape v
      rw [hd] at hlength
      simp only [List.length_append, List.length_cons, List.length_nil] at hlength
      omega
    · rw [escapeChar_of_not_special hc, List.singleton_append, List.cons.injEq]
      exact ⟨fun h => ⟨hc, h.2⟩, fun h => ⟨rfl, h.2⟩⟩

/-- The special characters other than the quote do not become quotes. -/
theorem quote_not_mem_sqlEscape {v : Text} (h : '\'' ∉ v) : '\'' ∉ sqlEscape v := by
  intro hmem
  obtain ⟨c, hc, hquote⟩ := List.mem_flatMap.mp hmem
  have hne : c ≠ '\'' := by
    rintro rfl
    exact h hc
  unfold escapeChar at hquote
  cases hd : escapes.lookup c with
  | none =>
    rw [hd] at hquote
    exact hne (List.mem_singleton.mp hquote).symm
  | some d =>
    rw [hd] at hquote
    have hentry : (c, d) ∈ escapes := by
      obtain ⟨before, behind, heq, -⟩ := List.lookup_eq_some_iff.mp hd
      rw [heq]
      exact List.mem_append_right _ List.mem_cons_self
    rcases List.mem_cons.mp hquote with hquote | hquote
    · exact absurd hquote (by decide)
    · obtain rfl := List.mem_singleton.mp hquote
      have honly : ∀ e ∈ escapes, e.2 = '\'' → e.1 = '\'' := by decide
      exact hne (honly _ hentry rfl)

/-- A text without quotes is read as it is. -/
theorem readLiteral_append {v : Text} (h : '\'' ∉ v) (t : Text) :
    readLiteral (v ++ t) = (readLiteral t).map fun r => (v ++ r.1, r.2) := by
  induction v with
  | nil => simp
  | cons c v ih =>
    rw [List.mem_cons, not_or] at h
    have hstep : readLiteral (c :: (v ++ t)) =
        (readLiteral (v ++ t)).map fun r => (c :: r.1, r.2) := by
      rw [readLiteral]
      · exact fun _ hc _ => h.1 hc.symm
      · exact fun hc => h.1 hc.symm
    rw [List.cons_append, hstep, ih h.2, Option.map_map]
    rfl

/-- A literal ends at a single quote. -/
theorem readLiteral_end {rest : Text} (h : rest.head? ≠ some '\'') :
    readLiteral ('\'' :: rest) = some ([], rest) := by
  cases rest with
  | nil => rfl
  | cons c rest =>
    have hc : c ≠ '\'' := fun heq => h (congrArg some heq)
    rw [readLiteral]
    exact fun _ heq => hc (List.cons.inj heq).1

/-- Behind a quote, a literal ends or goes on with a quote. -/
theorem readLiteral_quote {t : Text} {r : Text × Text}
    (h : readLiteral ('\'' :: t) = some r) : r.1 = [] ∨ ∃ l, r.1 = '\'' :: l := by
  by_cases ht : t.head? = some '\''
  · obtain ⟨t', rfl⟩ : ∃ t', t = '\'' :: t' := by
      cases t with
      | nil => cases ht
      | cons c t' => exact ⟨t', by rw [Option.some.inj ht]⟩
    rw [readLiteral] at h
    obtain ⟨r', -, rfl⟩ := Option.map_eq_some_iff.mp h
    exact .inr ⟨r'.1, rfl⟩
  · rw [readLiteral_end ht] at h
    obtain rfl := Option.some.inj h
    exact .inl rfl

/-- What is in front of the first quote -/
theorem takeWhile_quote {t l : Text} (ht : '\'' ∉ t) (hl : l = [] ∨ ∃ l', l = '\'' :: l') :
    (t ++ l).takeWhile (fun c => c ≠ '\'') = t := by
  have hpos : ∀ c ∈ t, decide (c ≠ '\'') = true := by
    intro c hc
    exact decide_eq_true fun heq => ht (heq ▸ hc)
  rw [List.takeWhile_append_of_pos hpos]
  rcases hl with rfl | ⟨l', rfl⟩
  · rw [List.takeWhile_nil, List.append_nil]
  · rw [List.takeWhile_cons_of_neg (by decide), List.append_nil]

/-- A literal has its first quote further behind than the text that was escaped, or none. -/
theorem not_denotes_quote {v rest rest' : Text} (hquote : '\'' ∈ v) :
    readLiteral (sqlEscape v ++ rest) ≠ some (v, rest') := by
  intro h
  obtain ⟨p, q, rfl, hp⟩ := List.eq_append_cons_of_mem hquote
  have hsplit : sqlEscape (p ++ '\'' :: q) = sqlEscape p ++ ['\\'] ++ '\'' :: sqlEscape q := by
    rw [sqlEscape, List.flatMap_append, List.flatMap_cons, List.append_assoc]
    rfl
  have hno : '\'' ∉ sqlEscape p ++ ['\\'] := by
    rw [List.mem_append, not_or]
    exact ⟨quote_not_mem_sqlEscape hp, by decide⟩
  rw [hsplit, List.append_assoc, readLiteral_append hno] at h
  obtain ⟨r, hr, heq⟩ := Option.map_eq_some_iff.mp h
  have hsame : sqlEscape p ++ ['\\'] ++ r.1 = p ++ '\'' :: q := congrArg Prod.fst heq
  have hfirst : sqlEscape p ++ ['\\'] = p := by
    rw [← takeWhile_quote hno (readLiteral_quote hr), hsame, takeWhile_quote hp (.inr ⟨q, rfl⟩)]
  have hlength := congrArg List.length hfirst
  have hle := length_le_sqlEscape p
  simp only [List.length_append, List.length_cons, List.length_nil] at hlength
  omega

/-- **A literal denotes the text that was escaped** exactly if that has no special character. -/
theorem readLiteral_sqlEscape {v rest rest' : Text} (hrest : rest.head? ≠ some '\'') :
    readLiteral (sqlEscape v ++ '\'' :: rest) = some (v, rest') ↔
      (∀ c ∈ v, ¬ Special c) ∧ rest' = rest := by
  by_cases hquote : '\'' ∈ v
  · exact iff_of_false (not_denotes_quote hquote) fun h => h.1 _ hquote special_quote
  · rw [readLiteral_append (quote_not_mem_sqlEscape hquote), readLiteral_end hrest,
      Option.map_some, List.append_nil, Option.some.injEq, Prod.mk.injEq, sqlEscape_eq_self_iff]
    exact and_congr_right fun _ => eq_comm

/-! ### Clauses -/

/-- A condition is read up to its literal. -/
theorem readCondition_append {cell : Cell} (hkey : ∀ c ∈ cell.1, isIdentifierChar c = true)
    (tail : Text) : readCondition (condition cell ++ tail) =
      (readLiteral (sqlEscape cell.2 ++ '\'' :: tail)).map fun r => ((cell.1, r.1), r.2) := by
  have htext : condition cell ++ tail =
      cell.1 ++ '=' :: '\'' :: (sqlEscape cell.2 ++ '\'' :: tail) := by
    simp [condition]
  have hequals : isIdentifierChar '=' ≠ true := by decide
  unfold readCondition
  rw [htext, List.dropWhile_append_of_pos hkey, List.takeWhile_append_of_pos hkey,
    List.dropWhile_cons_of_neg hequals, List.takeWhile_cons_of_neg hequals, List.append_nil]
  rfl

/-- What is read behind a condition -/
def readTail (fuel : Nat) (tail : Text) : Option (List Cell) :=
  if tail = [] then some []
  else if " AND ".toList.isPrefixOf tail then readConditions fuel (tail.drop 5)
  else none

/-- The conditions are read one after the other. -/
theorem readConditions_of_condition {text rest : Text} {cell : Cell} (fuel : Nat)
    (h : readCondition text = some (cell, rest)) :
    readConditions (fuel + 1) text = (readTail fuel rest).map (cell :: ·) := by
  rw [readConditions, h, readTail]
  dsimp only
  split
  · rfl
  · split
    · rfl
    · rfl

/-- One condition of the clause, in front of the rest of it -/
theorem readConditions_condition {cell : Cell}
    (hkey : ∀ c ∈ cell.1, isIdentifierChar c = true) {tail : Text}
    (htail : tail.head? ≠ some '\'') (fuel : Nat) (cells : List Cell) :
    readConditions (fuel + 1) (condition cell ++ tail) = some (cell :: cells) ↔
      (∀ c ∈ cell.2, ¬ Special c) ∧ readTail fuel tail = some cells := by
  have hread := readCondition_append hkey tail
  constructor
  · intro h
    cases hliteral : readLiteral (sqlEscape cell.2 ++ '\'' :: tail) with
    | none =>
      rw [hliteral, Option.map_none] at hread
      rw [readConditions, hread] at h
      cases h
    | some r =>
      rw [hliteral, Option.map_some] at hread
      rw [readConditions_of_condition fuel hread] at h
      obtain ⟨cells', hcells, heq⟩ := Option.map_eq_some_iff.mp h
      obtain ⟨hcell, rfl⟩ := List.cons.inj heq
      have hvalue : r.1 = cell.2 := congrArg Prod.snd hcell
      have hdenotes : readLiteral (sqlEscape cell.2 ++ '\'' :: tail) = some (cell.2, r.2) := by
        rw [hliteral, ← hvalue]
      obtain ⟨hplain, hrest⟩ := (readLiteral_sqlEscape htail).mp hdenotes
      rw [hrest] at hcells
      exact ⟨hplain, hcells⟩
  · rintro ⟨hplain, hcells⟩
    rw [(readLiteral_sqlEscape htail).mpr ⟨hplain, rfl⟩, Option.map_some] at hread
    rw [readConditions_of_condition fuel hread, hcells]
    rfl

/-- There are no more of them than characters. -/
theorem length_le_whereClause (cells : List Cell) : cells.length ≤ (whereClause cells).length := by
  have hcondition (cell : Cell) : 1 ≤ (condition cell).length := by
    simp only [condition, List.length_append, List.length_singleton]
    omega
  induction cells with
  | nil => exact Nat.le_refl 0
  | cons cell cells ih =>
    have hcell := hcondition cell
    cases cells with
    | nil => exact hcell
    | cons cell' cells =>
      rw [whereClause, List.length_append, List.length_append]
      · simp only [List.length_cons] at ih ⊢
        omega
      · nofun

/-- So the clause is read as the conditions that were written, up to their literals. -/
theorem readConditions_whereClause {cells : List Cell}
    (hkeys : ∀ cell ∈ cells, ∀ c ∈ cell.1, isIdentifierChar c = true) {fuel : Nat}
    (hfuel : cells.length ≤ fuel) (hcells : cells ≠ []) :
    readConditions fuel (whereClause cells) = some cells ↔
      ∀ cell ∈ cells, ∀ c ∈ cell.2, ¬ Special c := by
  induction cells generalizing fuel with
  | nil => exact absurd rfl hcells
  | cons cell cells ih =>
    rw [List.length_cons] at hfuel
    obtain ⟨fuel, rfl⟩ : ∃ n, fuel = n + 1 := Nat.exists_eq_succ_of_ne_zero (by omega)
    obtain ⟨hkey, hkeys⟩ := List.forall_mem_cons.mp hkeys
    rw [List.forall_mem_cons]
    cases cells with
    | nil =>
      have hstep := @readConditions_condition cell hkey [] nofun fuel []
      rw [List.append_nil] at hstep
      rw [whereClause, hstep]
      exact and_congr_right fun _ => iff_of_true rfl nofun
    | cons cell' cells =>
      have hclause : whereClause (cell :: cell' :: cells) =
          condition cell ++ (" AND ".toList ++ whereClause (cell' :: cells)) := by
        rw [whereClause, List.append_assoc]
        nofun
      have htail : readTail fuel (" AND ".toList ++ whereClause (cell' :: cells)) =
          readConditions fuel (whereClause (cell' :: cells)) := rfl
      have hspace : (" AND ".toList ++ whereClause (cell' :: cells)).head? = some ' ' := rfl
      have hquote : (" AND ".toList ++ whereClause (cell' :: cells)).head? ≠ some '\'' := by
        rw [hspace]
        decide
      rw [hclause, readConditions_condition hkey hquote, htail]
      exact and_congr_right fun _ => ih hkeys (by omega) (List.cons_ne_nil _ _)

/-- **The clause denotes the row**, and the query removes no other rows, exactly if no text of
    the row has one of the characters that are replaced. -/
theorem reads_row_iff {cells : List Cell}
    (hkeys : ∀ cell ∈ cells, ∀ c ∈ cell.1, isIdentifierChar c = true) :
    (readWhere (whereClause cells) = some cells ∧ ∀ row, Removes (whereClause cells) row →
      ∀ cell ∈ cells, row cell.1 = some cell.2) ↔
    cells ≠ [] ∧ ∀ cell ∈ cells, ∀ c ∈ cell.2, ¬ Special c := by
  constructor
  · rintro ⟨hread, -⟩
    have hcells : cells ≠ [] := by
      rintro rfl
      cases hread
    exact ⟨hcells,
      (readConditions_whereClause hkeys (length_le_whereClause cells) hcells).mp hread⟩
  · rintro ⟨hcells, hplain⟩
    have hread : readWhere (whereClause cells) = some cells :=
      (readConditions_whereClause hkeys (length_le_whereClause cells) hcells).mpr hplain
    refine ⟨hread, fun row hrow => ?_⟩
    obtain ⟨cells', hread', hmatch⟩ := hrow
    obtain rfl := Option.some.inj (hread.symm.trans hread')
    exact hmatch

/-- A check of all cells is one of each. -/
theorem forall_text {cells : List Cell} {f : Cell → Text} {p : Char → Bool}
    (h : cells.all (fun cell => (f cell).all p) = true) :
    ∀ cell ∈ cells, ∀ c ∈ f cell, p c = true := by
  intro cell hcell c hc
  exact List.all_eq_true.mp (List.all_eq_true.mp h cell hcell) c hc

/-- A row without special characters is read. -/
theorem reads_row_plain :
    readWhere (whereClause [("id".toList, "1".toList), ("name".toList, "room".toList)]) =
      some [("id".toList, "1".toList), ("name".toList, "room".toList)] := by
  have hplain : ∀ cell ∈ [("id".toList, "1".toList), ("name".toList, "room".toList)],
      ∀ c ∈ cell.2, decide (¬ Special c) = true := forall_text (by decide)
  refine ((reads_row_iff (forall_text (by decide))).mpr ⟨List.cons_ne_nil _ _, ?_⟩).1
  intro cell hcell c hc
  exact of_decide_eq_true (hplain cell hcell c hc)

/-- A quote in the cell ends the literal, and the rest of the cell is part of the query. -/
theorem not_reads_row : ¬ ∀ cells : List Cell, cells ≠ [] →
    (∀ cell ∈ cells, ∀ c ∈ cell.1, isIdentifierChar c = true) →
    readWhere (whereClause cells) = some cells := by
  intro h
  have hrow := h [("name".toList, "it's".toList)] (List.cons_ne_nil _ _)
    (forall_text (by decide))
  exact absurd hrow (by decide)

end Maubot.RowDeletion
