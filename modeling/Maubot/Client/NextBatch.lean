import Maubot.Lib.Runs
import Maubot.Client.Basic

namespace Maubot

open Prog

/-!
# Clients — sync tokens and row updates that overlap

`put_next_batch` and `update` of `db/client.py` on one client, cut at their `await`: a
statement runs in the database some time after its values were taken, and the call goes on
some time after that.  The sync loop makes its calls one after the other.

* `step` — a call begins, its statement runs, or it returns;
* `Current` — an update writes the token that the row already holds;
* `tokens_of_current` — then row and memory end up with the last token; a step that is not
  current leaves them apart (`synced_iff_current`).
-/

/-- Where `put_next_batch` is. -/
inductive PutAwait
  /-- the statement has not run yet -/
  | execute (token : String)
  | executed (token : String)
  deriving DecidableEq, Repr

/-- Where `update` is. -/
inductive UpdateAwait
  /-- the statement has not run yet -/
  | execute (values : ClientRow)
  | executed
  deriving DecidableEq, Repr

/-- A client with its row and the calls that write it. -/
structure BatchClient where
  memory  : ClientRow
  row     : ClientRow
  put     : Option PutAwait := none
  updates : Nat → Option UpdateAwait := fun _ => none
  /-- not in the source: the token of the last `put_next_batch` that returned -/
  last    : String

namespace BatchClient

inductive Event
  /-- the sync loop calls `put_next_batch` -/
  | put (token : String)
  /-- its statement runs, and it returns -/
  | executePut
  | returnPut
  /-- a new call `update()`, under a free number -/
  | update (k : Nat)
  | executeUpdate (k : Nat)
  | returnUpdate (k : Nat)
  /-- the other fields of the object are assigned -/
  | assign (row : ClientRow)
  deriving DecidableEq, Repr

/-- `UPDATE client SET …` with the values of an `update()` -/
def writeRow (s : BatchClient) (k : Nat) (values : ClientRow) : BatchClient :=
  { s with
    row := if values.notNull then values else s.row
    updates := Function.update s.updates k (some .executed) }

def step (e : Event) (s : BatchClient) : BatchClient :=
  match e with
  | .put token       => if s.put.isNone then { s with put := some (.execute token) } else s
  | .executePut      =>
    match s.put with
    | some (.execute t) =>
      { s with row := { s.row with nextBatch := t }, put := some (.executed t) }
    | _                 => s
  | .returnPut       =>
    match s.put with
    | some (.executed t) =>
      { s with memory := { s.memory with nextBatch := t }, put := none, last := t }
    | _                  => s
  | .update k        =>
    if (s.updates k).isNone then
      { s with updates := Function.update s.updates k (some (.execute s.memory)) }
    else s
  | .executeUpdate k =>
    match s.updates k with
    | some (.execute values) => s.writeRow k values
    | _                      => s
  | .returnUpdate k  =>
    match s.updates k with
    | some .executed => { s with updates := Function.update s.updates k none }
    | _              => s
  | .assign row      => { s with memory := { row with nextBatch := s.memory.nextBatch } }

/-! ### The property and the condition -/

/-- All calls have returned. -/
structure Complete (s : BatchClient) : Prop where
  put     : s.put = none
  updates : ∀ k, s.updates k = none

/-- Row and memory hold the last token. -/
structure Tokens (s : BatchClient) : Prop where
  row    : s.row.nextBatch = s.memory.nextBatch
  memory : s.memory.nextBatch = s.last

/-- The token that memory holds, or will hold once `put_next_batch` returns. -/
def token (s : BatchClient) : String :=
  match s.put with
  | some (.executed t) => t
  | _                  => s.memory.nextBatch

/-- The statement of an `update` that runs writes the token that the row holds. -/
def Current (s : BatchClient) (e : Event) : Prop :=
  ∀ k values, e = .executeUpdate k → s.updates k = some (.execute values) →
    values.notNull = true → values.nextBatch = s.row.nextBatch

/-! ### The invariant -/

/-- The row holds the token of memory, or the one that memory is about to get. -/
structure Synced (s : BatchClient) : Prop where
  row    : s.row.nextBatch = s.token
  memory : s.memory.nextBatch = s.last

variable {s : BatchClient}

/-- What is synced has its tokens. -/
theorem Synced.tokens (h : Synced s) (hc : Complete s) : Tokens s where
  row := by
    rw [h.row, token, hc.put]
  memory := h.memory

/-- A row that is written leaves the token in use. -/
theorem token_writeRow (k : Nat) (values : ClientRow) :
    (s.writeRow k values).token = s.token := rfl

/-- Only the statement of an `update` can write another token. -/
theorem Synced.other (h : Synced s) {e : Event} (he : ∀ k, e ≠ .executeUpdate k) :
    Synced (step e s) := by
  cases e with
  | put t =>
    unfold step
    dsimp only
    split
    · rename_i hput
      refine ⟨?_, h.memory⟩
      show s.row.nextBatch = s.memory.nextBatch
      rw [h.row, token, Option.isNone_iff_eq_none.mp hput]
    · exact h
  -- row and memory are written together
  | executePut =>
    unfold step
    dsimp only
    split
    · exact ⟨rfl, h.memory⟩
    · exact h
  | returnPut =>
    unfold step
    dsimp only
    split
    · rename_i t hput
      refine ⟨?_, rfl⟩
      show s.row.nextBatch = t
      rw [h.row, token, hput]
    · exact h
  | update k =>
    unfold step
    dsimp only
    split
    · exact ⟨h.row, h.memory⟩
    · exact h
  | returnUpdate k =>
    unfold step
    dsimp only
    split
    · exact ⟨h.row, h.memory⟩
    · exact h
  | assign row =>
    refine ⟨?_, h.memory⟩
    show s.row.nextBatch = (step (.assign row) s).token
    rw [h.row]
    rfl
  | executeUpdate k => exact absurd rfl (he k)

/-- The statement writes the token, if the row may be written at all. -/
theorem synced_writeRow_iff (h : Synced s) (k : Nat) (values : ClientRow) :
    Synced (s.writeRow k values) ↔
      (values.notNull = true → values.nextBatch = s.row.nextBatch) := by
  have hrow (hn : values.notNull = true) : (s.writeRow k values).row = values := if_pos hn
  constructor
  · intro hs hn
    rw [← hrow hn, hs.row, token_writeRow, h.row]
  · intro hcurrent
    refine ⟨?_, h.memory⟩
    rw [token_writeRow, ← h.row]
    by_cases hn : values.notNull = true
    · rw [hrow hn]
      exact hcurrent hn
    · rw [show (s.writeRow k values).row = s.row from if_neg hn]

/-- **Step.**  A step keeps the invariant just in case it is current. -/
theorem synced_iff_current (h : Synced s) (e : Event) : Synced (step e s) ↔ s.Current e := by
  by_cases he : ∃ k values, e = .executeUpdate k ∧ s.updates k = some (.execute values)
  · obtain ⟨k, values, rfl, hk⟩ := he
    have hstep : step (.executeUpdate k) s = s.writeRow k values := by simp only [step, hk]
    rw [hstep, synced_writeRow_iff h]
    constructor
    · intro hcurrent j values' hj hv
      cases hj
      rw [hk] at hv
      cases hv
      exact hcurrent
    · intro hcurrent
      exact hcurrent k values rfl hk
  · -- nothing is written
    refine ⟨fun _ k values hj hv _ => absurd ⟨k, values, hj, hv⟩ he, fun _ => ?_⟩
    by_cases hex : ∃ k, e = .executeUpdate k
    · obtain ⟨k, rfl⟩ := hex
      have hstep : step (.executeUpdate k) s = s := by
        simp only [step]
        split
        · next values hk => exact absurd ⟨k, values, rfl, hk⟩ he
        · rfl
      rw [hstep]
      exact h
    · exact h.other fun k hk => hex ⟨k, hk⟩

/-- A client without calls whose row shows its token. -/
structure Settled (s : BatchClient) : Prop extends Complete s, Tokens s

/-- What is settled is synced. -/
theorem Settled.synced (h : Settled s) : Synced s where
  row := by
    rw [token, h.put]
    exact h.row
  memory := h.memory

/-- **Sync tokens.**  In every run whose updates are current, row and memory hold the last
    token when all calls have returned.  Once an update is not current, the row misses the
    token that memory holds or is about to get. -/
theorem tokens_of_current {s₀ : BatchClient} (h₀ : Settled s₀) (h : Reach step Current s₀ s) :
    (Complete s → Tokens s) ∧
      ∀ e, ¬ s.Current e → (step e s).row.nextBatch ≠ (step e s).token := by
  have hs : Synced s := h.invariant h₀.synced fun s e hs he => (synced_iff_current hs e).mpr he
  refine ⟨hs.tokens, fun e he hrow => he ((synced_iff_current hs e).mp ⟨hrow, ?_⟩)⟩
  -- a step that is not current changes the row only
  cases e with
  | executeUpdate k =>
    show (step (.executeUpdate k) s).memory.nextBatch = (step (.executeUpdate k) s).last
    unfold step
    dsimp only
    split
    · exact hs.memory
    · exact hs.memory
  | _ => exact absurd (fun k values hk => by cases hk) he

end BatchClient

/-! ### An update overtaken by a token -/

namespace BatchTest

def row : ClientRow :=
  { homeserver := some "h", accessToken := some "t", deviceId := "", enabled := true
    nextBatch := "s1" }

def settled : BatchClient := { memory := row, row := row, last := "s1" }

/-- The client of the witness is settled. -/
theorem settled_settled : BatchClient.Settled settled where
  put := rfl
  updates _ := rfl
  row := rfl
  memory := rfl

end BatchTest

namespace BatchClient

open BatchTest in
/-- An update takes its values, a token is put, then the update's statement runs: the row
    has the old token again. -/
theorem overtaken_not_tokens :
    ¬ ∀ s₀ : BatchClient, Settled s₀ → ∀ s, Reach step (fun _ _ => True) s₀ s →
      Complete s → Tokens s := by
  intro h
  have hrun : Reach step (fun _ _ => True) settled
      (step (.returnUpdate 0) (step .returnPut (step (.executeUpdate 0) (step .executePut
        (step (.put "s2") (step (.update 0) settled)))))) :=
    (((((Reach.start.step _ trivial).step _ trivial).step _ trivial).step _ trivial).step _
      trivial).step _ trivial
  have htokens := h settled settled_settled _ hrun
    ⟨by decide, fun k => by cases k <;> rfl⟩
  exact absurd htokens.row (by decide)

open BatchTest in
/-- The update's statement runs before the token is put. -/
theorem put_after_update_tokens :
    Tokens (step .returnPut (step .executePut (step (.put "s2") (step (.returnUpdate 0)
      (step (.executeUpdate 0) (step (.update 0) settled)))))) := by
  have hexecute : Current (step (.update 0) settled) (.executeUpdate 0) := by
    rintro k values ⟨⟩ hv _
    cases hv
    rfl
  have hother {s : BatchClient} {e : Event} (he : ∀ k, e ≠ .executeUpdate k) : Current s e :=
    fun k _ hk => absurd hk (he k)
  have hstart : Reach step Current settled settled := .start
  have hrun := ((((hstart.step (.update 0) (hother (by simp))).step _ hexecute).step
    (.returnUpdate 0) (hother (by simp))).step (.put "s2") (hother (by simp))).step
    .executePut (hother (by simp))
  exact (tokens_of_current settled_settled (hrun.step .returnPut (hother (by simp)))).1
    ⟨by decide, fun k => by cases k <;> rfl⟩

end BatchClient

end Maubot
