import Maubot.Management.LogSockets
import Mathlib.Data.List.Nodup

namespace Maubot.Management

/-!
# Management API — the stream of records that a log websocket gets

A socket that authenticates is sent the history, and the live records after that.  The
history is taken before the socket listens, the records are sent by tasks of their own, and
each task goes through the list of listeners by index, while that list changes.

* `Gapless` — history and live records are consecutive records, and the missing ones are
  still on their way;
* `Steady` — what a step would have to respect for that;
* `gapless_of_steady` — runs of such steps are gapless.
-/

namespace LogServer

variable {ρ : Type}

/-- The live records among the messages. -/
def records (traffic : List (Traffic ρ)) : List ρ :=
  traffic.filterMap fun m =>
    match m with
    | .record r => some r
    | _         => none

/-- The socket was sent this history, and these live records after it. -/
def HistoryThen (traffic : List (Traffic ρ)) (lines : List ρ) (s : Nat) (live : List ρ) : Prop :=
  ∃ before after, traffic = before ++ .history lines s :: after ∧ records after = live

/-- **The stream has no gap.**  History and live records are the records from the first line
    of the history on, each once and in order, and while the socket is connected, a record
    that is missing is still being sent. -/
def Gapless (w : LogServer ρ) : Prop :=
  ∀ k lines s live, HistoryThen (w.conns k).traffic lines s live →
    lines ++ live = (w.emitted.take (s + live.length)).drop (s - maxLines) ∧
      ((w.conns k).connected = true →
        ∀ n, s + live.length ≤ n → n < w.emitted.length → (w.sends n).ended = false)

/-! ### What a step would have to respect -/

/-- The task of record `n` still has the socket before it. -/
def Ahead (w : LogServer ρ) (n ws : Nat) : Prop :=
  (w.sends n).ended = false ∧ ws ∈ w.listeners.drop (w.sends n).pos

/-- When a socket starts to listen, the tasks that will reach it are those of the records
    emitted since its history was taken. -/
def RegistersInTime (w : LogServer ρ) (k : Nat) : Prop :=
  ∀ lines s, .history lines s ∈ (w.conns k).traffic → ∀ n, n < w.emitted.length →
    ((w.sends n).ended = false ∧ (w.sends n).pos ≤ w.listeners.length ↔ s ≤ n)

/-- No task ends whose record a socket misses that is still being sent its history. -/
def EndsInTime (w : LogServer ρ) (n : Nat) : Prop :=
  w.listeners[(w.sends n).pos]? = none → ∀ k, (w.conns k).connected = true →
    (w.conns k).authenticated = false →
      ∀ lines s, .history lines s ∈ (w.conns k).traffic → n < s

/-- A record is sent to a socket after the earlier ones. -/
def SendsInOrder (w : LogServer ρ) (n : Nat) : Prop :=
  ∀ ws, w.listeners[(w.sends n).pos]? = some ws → (w.conns ws).connected = true →
    ∀ m, m < n → ¬ Ahead w m ws

/-- A socket that listens asks for the history again when no record is on its way. -/
def ResendsInTime (w : LogServer ρ) (k : Nat) : Prop :=
  (w.conns k).connected = true → (w.conns k).authenticated = true →
    ∀ n, n < w.emitted.length → ¬ Ahead w n k

/-- A socket that leaves does not shift a listener that some task has before it. -/
def LeavesCleanly (w : LogServer ρ) (k : Nat) : Prop :=
  ∀ n, n < w.emitted.length → (w.sends n).ended = false →
    w.listeners.idxOf k < (w.sends n).pos → w.listeners.length ≤ (w.sends n).pos

def Steady (w : LogServer ρ) (e : Event ρ) : Prop :=
  match e with
  | .resume k input =>
    match (w.conns k).phase, input with
    | .sendingSuccess, .ok => ResendsInTime w k
    | .sendingHistory, .ok =>
      (w.conns k).connected = true → (w.conns k).authenticated = false → RegistersInTime w k
    | .receiving, .closed | .closing, .ok | .closing, .raised =>
      (w.conns k).authenticated = true → LeavesCleanly w k
    | _, _                 => True
  | .send n         => (w.sends n).ended = false → SendsInOrder w n ∧ EndsInTime w n
  | _               => True

/-! ### Histories -/

/-- The last message is the history or a message behind it. -/
theorem historyThen_concat {l : List (Traffic ρ)} {m : Traffic ρ} {lines live : List ρ} {s : Nat}
    (h : HistoryThen (l ++ [m]) lines s live) :
    (m = .history lines s ∧ live = []) ∨
      ∃ live', HistoryThen l lines s live' ∧ live = live' ++ records [m] := by
  obtain ⟨before, after, he, rfl⟩ := h
  rcases concat_eq_append_cons he with ⟨rfl, rfl, rfl⟩ | ⟨after', rfl, rfl⟩
  · exact .inl ⟨rfl, rfl⟩
  · exact .inr ⟨records after', ⟨before, after', rfl, rfl⟩, List.filterMap_append⟩

/-- The history has been sent. -/
theorem HistoryThen.mem {l : List (Traffic ρ)} {lines live : List ρ} {s : Nat}
    (h : HistoryThen l lines s live) : .history lines s ∈ l := by
  obtain ⟨before, after, rfl, -⟩ := h
  simp

/-- The deque keeps the last records. -/
theorem append_drop (l : List ρ) (r : ρ) :
    append (l.drop (l.length - maxLines)) r = (l ++ [r]).drop ((l ++ [r]).length - maxLines) := by
  have hpos : 0 < maxLines := by decide
  unfold append
  rw [List.length_drop, List.length_append, List.length_singleton]
  generalize maxLines = m at hpos
  by_cases h : l.length < m
  · have h₀ : l.length - m = 0 := by omega
    have h₁ : l.length + 1 - m = 0 := by omega
    rw [h₀, h₁, if_pos (by omega), List.drop_zero, List.drop_zero]
  · have h₁ : l.length + 1 - m = l.length - m + 1 := by omega
    rw [if_neg (by omega), h₁, List.drop_drop, List.drop_append_of_le_length (by omega)]

/-- A segment that ends before record `n`, and the one that ends with it. -/
theorem segment_succ {l : List ρ} {a n : Nat} {r : ρ} (ha : a ≤ n) (hn : l[n]? = some r) :
    (l.take (n + 1)).drop a = (l.take n).drop a ++ [r] := by
  obtain ⟨hlt, -⟩ := List.getElem?_eq_some_iff.mp hn
  rw [List.take_add_one, hn, List.drop_append_of_le_length]
  · rfl
  · rw [List.length_take]
    omega

/-- Whether the handler has closed its connection. -/
def Phase.isOver : Phase → Bool
  | .closing | .returned => true
  | _ => false

/-- What holds of one connection. -/
structure StreamOk (w : LogServer ρ) (k : Nat) (c : Conn ρ) : Prop where
  segment : ∀ lines s live, HistoryThen c.traffic lines s live →
    s + live.length ≤ w.emitted.length ∧
      lines ++ live = (w.emitted.take (s + live.length)).drop (s - maxLines)
  /-- the tasks that will reach a listening socket are those of the records it misses -/
  live    : c.connected = true → c.authenticated = true → ∀ lines s live,
    HistoryThen c.traffic lines s live →
      ∀ n, n < w.emitted.length → (Ahead w n k ↔ s + live.length ≤ n)
  /-- before it listens, those tasks have not ended -/
  waiting : c.connected = true → c.authenticated = false → ∀ lines s live,
    HistoryThen c.traffic lines s live →
      live = [] ∧ ∀ n, s ≤ n → n < w.emitted.length → (w.sends n).ended = false
  gone    : c.phase.isOver = true → c.connected = false

structure Stream (w : LogServer ρ) : Prop where
  lines : w.lines = w.emitted.drop (w.emitted.length - maxLines)
  conn  : ∀ k, StreamOk w k (w.conns k)

/-- A new server has no connections. -/
theorem stream_new : Stream ({} : LogServer ρ) where
  lines  := by simp
  conn k := by
    have hno : ∀ (lines : List ρ) s live, ¬ HistoryThen [] lines s live := by
      intro lines s live h
      simpa using h.mem
    exact ⟨fun _ _ _ h => absurd h (hno _ _ _), fun _ _ _ _ _ h => absurd h (hno _ _ _),
      fun _ _ _ _ _ h => absurd h (hno _ _ _), fun _ => rfl⟩

/-- Where the streams are right, no record is missing from any. -/
theorem Stream.gapless {w : LogServer ρ} (h : Stream w) : Gapless w := by
  intro k lines s live hist
  have hk := h.conn k
  refine ⟨(hk.segment lines s live hist).2, fun hc n hle hlt => ?_⟩
  by_cases ha : (w.conns k).authenticated = true
  · exact ((hk.live hc ha lines s live hist n hlt).mpr hle).1
  · exact (hk.waiting hc (by simpa using ha) lines s live hist).2 n (by omega) hlt

/-! ### Emission -/

variable {cfg : Setup ρ} {w : LogServer ρ} {k j n : Nat}

/-- A new record is not ahead in the send of an older one. -/
theorem ahead_emit_of_lt {r : ρ} {ws : Nat} (hn : n < w.emitted.length) :
    Ahead (w.emit r) n ws ↔ Ahead w n ws := by
  have : (w.emit r).sends n = w.sends n := Function.update_of_ne (Nat.ne_of_lt hn) _ _
  unfold Ahead
  rw [this]
  rfl

/-- It has a send of its own, which has not begun. -/
theorem sends_emit_self (r : ρ) : (w.emit r).sends w.emitted.length = {} :=
  Function.update_self _ _ _

/-- The new record is on its way to every listener. -/
theorem StreamOk.emit {c : Conn ρ} (h : StreamOk w k c) (r : ρ)
    (hk : c.connected = true → c.authenticated = true → k ∈ w.listeners) :
    StreamOk (w.emit r) k c := by
  have hlength : (w.emit r).emitted.length = w.emitted.length + 1 :=
    List.length_append
  refine ⟨fun lines s live hist => ?_, fun hc ha lines s live hist n hn => ?_,
    fun hc ha lines s live hist => ?_, h.gone⟩
  · obtain ⟨hle, heq⟩ := h.segment lines s live hist
    refine ⟨by omega, heq.trans ?_⟩
    show _ = List.drop _ (List.take _ (w.emitted ++ [r]))
    rw [List.take_append_of_le_length hle]
  · have hle := (h.segment lines s live hist).1
    rcases Nat.lt_or_ge n w.emitted.length with hlt | hge
    · rw [ahead_emit_of_lt hlt]
      exact h.live hc ha lines s live hist n hlt
    · obtain rfl : n = w.emitted.length := by omega
      refine ⟨fun _ => hle, fun _ => ?_⟩
      unfold Ahead
      rw [sends_emit_self]
      exact ⟨rfl, hk hc ha⟩
  · obtain ⟨hnil, hover⟩ := h.waiting hc ha lines s live hist
    refine ⟨hnil, fun n hs hn => ?_⟩
    rcases Nat.lt_or_ge n w.emitted.length with hlt | hge
    · rw [show (w.emit r).sends n = w.sends n from Function.update_of_ne (Nat.ne_of_lt hlt) _ _]
      exact hover n hs hlt
    · obtain rfl : n = w.emitted.length := by omega
      rw [sends_emit_self]

/-- A listening socket is in the list. -/
theorem Sound.mem_listeners (h : Sound cfg w) (ha : (w.conns k).authenticated = true)
    (hp : (w.conns k).phase ≠ .returned) : k ∈ w.listeners := by
  rw [← List.count_pos_iff, (h k).listening, if_pos ⟨ha, hp⟩]
  exact Nat.one_pos

/-- No socket listens twice. -/
theorem Sound.nodup_listeners (h : Sound cfg w) : w.listeners.Nodup := by
  rw [List.nodup_iff_count_le_one]
  intro k
  rw [(h k).listening]
  split <;> omega

/-- A socket that listens has authenticated. -/
theorem Sound.authenticated_of_mem (h : Sound cfg w) (hk : k ∈ w.listeners) :
    (w.conns k).authenticated = true := by
  by_contra ha
  have := List.count_pos_iff.mpr hk
  rw [(h k).listening, if_neg (fun hand => ha hand.1)] at this
  omega

/-- Every authenticated socket that is connected listens. -/
def Listening (w : LogServer ρ) : Prop :=
  ∀ k, (w.conns k).connected = true → (w.conns k).authenticated = true → k ∈ w.listeners

/-- So everybody who listens has had the history. -/
theorem Stream.listening (h : Stream w) (hs : Sound cfg w) : Listening w := by
  intro k hc ha
  refine hs.mem_listeners ha fun hp => ?_
  rw [(h.conn k).gone (by rw [hp]; rfl)] at hc
  cases hc

/-- A record that is logged keeps the streams right. -/
theorem Stream.emit (h : Stream w) (hl : Listening w) (r : ρ) : Stream (w.emit r) where
  lines := by
    show append w.lines r = _
    rw [h.lines]
    exact append_drop w.emitted r
  conn k := (h.conn k).emit r (hl k)

/-- So does what the server logs itself. -/
theorem Stream.debug (h : Stream w) (cfg : Setup ρ) (hl : Listening w) (k : Nat) (msg : String) :
    Stream (w.debug cfg k msg) := by
  unfold LogServer.debug
  split
  · exact h.emit hl _
  · exact h

/-- A step that only changes the set of open sockets. -/
theorem Stream.setSockets (h : Stream w) (sockets : List Nat) :
    Stream { w with sockets := sockets } where
  lines  := h.lines
  conn j := ⟨(h.conn j).segment, (h.conn j).live, (h.conn j).waiting, (h.conn j).gone⟩

/-! ### Steps of one connection -/

/-- A step that changes one connection only. -/
theorem Stream.setConn (h : Stream w) (k : Nat) {c : Conn ρ} (hk : StreamOk w k c) :
    Stream (w.setConn k c) where
  lines := h.lines
  conn j := by
    by_cases hj : j = k
    · subst hj
      rw [setConn_conns_self]
      exact ⟨hk.segment, hk.live, hk.waiting, hk.gone⟩
    · rw [setConn_conns_ne w c hj]
      exact ⟨(h.conn j).segment, (h.conn j).live, (h.conn j).waiting, (h.conn j).gone⟩

/-- The connection may close, and its handler go on. -/
theorem StreamOk.forget {c c' : Conn ρ} (h : StreamOk w k c) (ht : c'.traffic = c.traffic)
    (ha : c'.connected = true → c'.authenticated = c.authenticated ∧ c.connected = true)
    (hp : c'.phase.isOver = true → c'.connected = false) : StreamOk w k c' := by
  obtain ⟨hsegment, hlive, hwaiting, -⟩ := h
  refine ⟨?_, fun hc hauth => ?_, fun hc hauth => ?_, hp⟩
  · rw [ht]
    exact hsegment
  · rw [ht]
    exact hlive (ha hc).2 ((ha hc).1.symm.trans hauth)
  · rw [ht]
    exact hwaiting (ha hc).2 ((ha hc).1.symm.trans hauth)

/-- A socket that closes misses nothing that was promised. -/
theorem Stream.close (h : Stream w) (k : Nat) : Stream (w.close k) :=
  h.setConn k ((h.conn k).forget rfl nofun fun _ => rfl)

/-- A handler may go on. -/
theorem Stream.setPhase (h : Stream w) (k : Nat) {p : Phase}
    (hp : p.isOver = true → (w.conns k).connected = false) : Stream (w.setPhase k p) :=
  h.setConn k ((h.conn k).forget rfl (fun hc => ⟨rfl, hc⟩) hp)

/-- The handler closes its connection. -/
theorem Stream.closeTo (h : Stream w) (k : Nat) (p : Phase) :
    Stream ((w.close k).setPhase k p) := by
  refine (h.close k).setPhase k fun _ => ?_
  unfold LogServer.close
  rw [setConn_conns_self]

/-- A message that is neither a history nor a record. -/
theorem Stream.pass (h : Stream w) (k : Nat) {m : Traffic ρ} (hm : m.isLog = false) :
    Stream (w.pass k m) := by
  have hrecords : records [m] = [] := by
    cases m with
    | record r => cases hm
    | text | authSuccess | history => rfl
  have hhist : ∀ lines s live, HistoryThen ((w.conns k).traffic ++ [m]) lines s live →
      HistoryThen (w.conns k).traffic lines s live := by
    intro lines s live hist
    rcases historyThen_concat hist with ⟨rfl, -⟩ | ⟨live', hist', rfl⟩
    · cases hm
    · rw [hrecords, List.append_nil]
      exact hist'
  obtain ⟨hsegment, hlive, hwaiting, hgone⟩ := h.conn k
  exact h.setConn k ⟨fun lines s live hist => hsegment lines s live (hhist _ _ _ hist),
    fun hc ha lines s live hist => hlive hc ha lines s live (hhist _ _ _ hist),
    fun hc ha lines s live hist => hwaiting hc ha lines s live (hhist _ _ _ hist), hgone⟩

/-- A message that is no record may be sent. -/
theorem Stream.sendJson (h : Stream w) (k : Nat) {m : Traffic ρ} {p : Phase}
    (hm : m.isLog = false) (hp : p.isOver = false) : Stream (w.sendJson k m p) := by
  unfold LogServer.sendJson
  split
  · exact (h.pass k hm).setPhase k (fun hover => by rw [hp] at hover; cases hover)
  · exact h.closeTo k .closing

/-- The history is taken: every record was emitted before, and a listening socket has them. -/
theorem Stream.sendHistory (h : Stream w) (k : Nat)
    (hr : ResendsInTime w k) :
    Stream (w.sendJson k (.history w.lines w.emitted.length) .sendingHistory) := by
  unfold LogServer.sendJson
  split
  · next hc =>
    refine Stream.setPhase ?_ k nofun
    obtain ⟨hsegment, hlive, hwaiting, hgone⟩ := h.conn k
    refine h.setConn k ⟨fun lines s live hist => ?_, fun _ ha lines s live hist n hn => ?_,
      fun _ ha lines s live hist => ?_, hgone⟩
    · rcases historyThen_concat hist with ⟨hm, rfl⟩ | ⟨live', hist', rfl⟩
      · obtain ⟨rfl, rfl⟩ : w.lines = lines ∧ w.emitted.length = s := by
          injection hm with h₁ h₂
          exact ⟨h₁, h₂⟩
        refine ⟨Nat.le_refl _, ?_⟩
        rw [List.append_nil, List.length_nil, Nat.add_zero, List.take_length]
        exact h.lines
      · simpa [records] using hsegment lines s live' hist'
    · rcases historyThen_concat hist with ⟨hm, rfl⟩ | ⟨live', hist', rfl⟩
      · obtain rfl : w.emitted.length = s := by injection hm
        refine ⟨fun hahead => absurd hahead (hr hc ha n hn), fun hle => ?_⟩
        simp at hle
        omega
      · simpa [records] using hlive hc ha lines s live' hist' n hn
    · rcases historyThen_concat hist with ⟨hm, rfl⟩ | ⟨live', hist', rfl⟩
      · obtain rfl : w.emitted.length = s := by injection hm
        exact ⟨rfl, fun n hs hn => by omega⟩
      · simpa [records] using hwaiting hc ha lines s live' hist'
  · exact h.closeTo k .closing

/-- A socket that registers in time still does after a record, -/
theorem RegistersInTime.emit (h : RegistersInTime w k) (hw : Stream w) (r : ρ) :
    RegistersInTime (w.emit r) k := by
  intro lines s hmem n hn
  rcases Nat.lt_or_ge n w.emitted.length with hlt | hge
  · rw [show (w.emit r).sends n = w.sends n from Function.update_of_ne (Nat.ne_of_lt hlt) _ _]
    exact h lines s hmem n hlt
  · have hlength : (w.emit r).emitted.length = w.emitted.length + 1 := List.length_append
    obtain rfl : n = w.emitted.length := by omega
    rw [sends_emit_self]
    obtain ⟨before, after, ht⟩ := List.append_of_mem hmem
    have hle := ((hw.conn k).segment lines s (records after) ⟨before, after, ht, rfl⟩).1
    exact ⟨fun _ => by omega, fun _ => ⟨rfl, Nat.zero_le _⟩⟩

/-- also after one of the server's own. -/
theorem RegistersInTime.debug (h : RegistersInTime w k) (hw : Stream w) (msg : String) :
    RegistersInTime (w.debug cfg k msg) k := by
  unfold LogServer.debug
  split
  · exact h.emit hw _
  · exact h

/-- What a socket that starts to listen, as the last one, has ahead. -/
theorem mem_drop_concat_self {l : List Nat} {pos : Nat} :
    k ∈ (l ++ [k]).drop pos ↔ pos ≤ l.length := by
  rw [List.drop_append]
  constructor
  · intro h
    by_contra hgt
    rw [List.drop_eq_nil_of_le (show l.length ≤ pos by omega), List.nil_append,
      List.drop_eq_nil_of_le (by simp; omega)] at h
    cases h
  · intro h
    rw [Nat.sub_eq_zero_of_le h, List.drop_zero]
    exact List.mem_append_right _ List.mem_cons_self

/-- A socket at the end of the list is after everyone. -/
theorem mem_drop_concat_ne {l : List Nat} {pos : Nat} (hj : j ≠ k) :
    j ∈ (l ++ [k]).drop pos ↔ j ∈ l.drop pos := by
  rw [List.drop_append, List.mem_append]
  constructor
  · rintro (h | h)
    · exact h
    · exact absurd (List.mem_singleton.mp (List.mem_of_mem_drop h)) hj
  · exact .inl

/-- **A socket starts to listen in time.** -/
theorem Stream.register (h : Stream w) (hs : Sound cfg w) (k : Nat)
    (hp : (w.conns k).phase = .sendingHistory)
    (hr : (w.conns k).connected = true → (w.conns k).authenticated = false →
      RegistersInTime w k) : Stream (w.register cfg k) := by
  unfold LogServer.register
  by_cases ha : (w.conns k).authenticated = true
  · rw [if_pos ha]
    exact h.setPhase k nofun
  · rw [if_neg ha]
    have ha' : (w.conns k).authenticated = false := by simpa using ha
    -- the server's own record is logged before the socket listens
    let w₁ := w.debug cfg k "authenticated"
    have h₁ : Stream w₁ := h.debug cfg (h.listening hs) k _
    have hconns₁ : w₁.conns = w.conns := debug_conns k _
    show Stream (({ w₁ with listeners := w₁.listeners ++ [k] } : LogServer ρ).setConn k
      { w₁.conns k with authenticated := true, phase := .receiving })
    refine ⟨h₁.lines, fun j => ?_⟩
    by_cases hj : j = k
    · subst hj
      rw [setConn_conns_self]
      obtain ⟨hsegment, -, hwaiting, -⟩ := h₁.conn j
      refine ⟨hsegment, fun hc _ lines s live hist n hn => ?_, fun _ hfalse => ?_, nofun⟩
      · -- it has ahead exactly what was emitted since its history
        have hc' : (w.conns j).connected = true := by rw [← hconns₁]; exact hc
        have hnil := (hwaiting hc (by rw [hconns₁]; exact ha') lines s live hist).1
        have hin : RegistersInTime w₁ j := (hr hc' ha').debug h _
        rw [hnil, List.length_nil, Nat.add_zero, ← hin lines s hist.mem n hn]
        show _ ∧ j ∈ (w₁.listeners ++ [j]).drop _ ↔ _
        rw [mem_drop_concat_self]
        rfl
      · cases hfalse
    · rw [setConn_conns_ne _ _ hj]
      obtain ⟨hsegment, hlive, hwaiting, hgone⟩ := h₁.conn j
      refine ⟨hsegment, fun hc hauth lines s live hist n hn => ?_, hwaiting, hgone⟩
      rw [← hlive hc hauth lines s live hist n hn]
      show _ ∧ j ∈ (w₁.listeners ++ [k]).drop _ ↔ _ ∧ j ∈ w₁.listeners.drop _
      rw [mem_drop_concat_ne hj]
      rfl

/-- A handler begins with streams that are right. -/
theorem Stream.enter (h : Stream w) (hs : Sound cfg w) (k : Nat) : Stream (w.enter cfg k) := by
  have hno : ∀ (lines : List ρ) s live, ¬ HistoryThen [] lines s live := by
    intro lines s live hist
    simpa using hist.mem
  have hdebug := (h.setSockets (w.sockets ++ [k])).debug cfg (h.listening hs) k "opened"
  exact hdebug.setConn k ⟨fun _ _ _ hist => absurd hist (hno _ _ _),
    fun _ _ _ _ _ hist => absurd hist (hno _ _ _), fun _ _ _ _ _ hist => absurd hist (hno _ _ _),
    nofun⟩

/-! ### A listener leaves -/

/-- What is ahead of another listener, if no loop has gone past the one that leaves. -/
theorem mem_drop_erase {l : List Nat} {pos : Nat} (hj : j ≠ k)
    (h : l.idxOf k < pos → l.length ≤ pos) : j ∈ (l.erase k).drop pos ↔ j ∈ l.drop pos := by
  induction l generalizing pos with
  | nil => simp
  | cons a l ih =>
    by_cases hak : a = k
    · subst hak
      rw [List.erase_cons_head]
      cases pos with
      | zero => simp [hj]
      | succ pos =>
        -- the loop has gone past it, so it has gone past all
        have hlen := h (by rw [List.idxOf_cons_self]; omega)
        rw [List.drop_eq_nil_of_le hlen, List.drop_eq_nil_of_le (by simp at hlen ⊢; omega)]
    · rw [List.erase_cons_tail (by simpa using hak)]
      cases pos with
      | zero =>
        have := @ih 0 nofun
        simp only [List.drop_zero] at this
        simp only [List.drop_zero, List.mem_cons, this]
      | succ pos =>
        refine ih (fun hlt => ?_)
        have := h (by rw [List.idxOf_cons_ne _ hak]; omega)
        simp only [List.length_cons] at this
        omega

/-- **A socket leaves cleanly.** -/
theorem Stream.finish (h : Stream w) (hs : Sound cfg w) (k : Nat)
    (hc : (w.conns k).connected = false)
    (hl : (w.conns k).authenticated = true → LeavesCleanly w k) : Stream (w.finish cfg k) := by
  let w₁ : LogServer ρ :=
    if (w.conns k).authenticated then { w with listeners := w.listeners.erase k } else w
  have hsame : w₁.lines = w.lines ∧ w₁.emitted = w.emitted ∧ w₁.sends = w.sends ∧
      w₁.conns = w.conns := by
    unfold w₁
    split <;> exact ⟨rfl, rfl, rfl, rfl⟩
  obtain ⟨hlines, hemitted, hsends, hconns⟩ := hsame
  -- the listeners are gone through while records are sent, so `k` must leave them cleanly
  have hahead : ∀ n j, n < w.emitted.length → j ≠ k → (Ahead w₁ n j ↔ Ahead w n j) := by
    intro n j hn hj
    unfold Ahead
    rw [hsends]
    by_cases ha : (w.conns k).authenticated = true
    · have hlisteners : w₁.listeners = w.listeners.erase k := by
        unfold w₁
        rw [if_pos ha]
      rw [hlisteners]
      constructor
      · rintro ⟨hover, hmem⟩
        exact ⟨hover, (mem_drop_erase hj (hl ha n hn hover)).mp hmem⟩
      · rintro ⟨hover, hmem⟩
        exact ⟨hover, (mem_drop_erase hj (hl ha n hn hover)).mpr hmem⟩
    · have hlisteners : w₁.listeners = w.listeners := by
        unfold w₁
        rw [if_neg ha]
      rw [hlisteners]
  have h₁ : Stream w₁ := by
    refine ⟨by rw [hlines, hemitted]; exact h.lines, fun j => ?_⟩
    obtain ⟨hsegment, hlive, hwaiting, hgone⟩ := h.conn j
    rw [hconns]
    refine ⟨by rw [hemitted]; exact hsegment, fun hcj haj lines s live hist n hn => ?_,
      by rw [hemitted, hsends]; exact hwaiting, hgone⟩
    have hj : j ≠ k := by
      rintro rfl
      rw [hc] at hcj
      cases hcj
    rw [hemitted] at hn
    rw [hahead n j hn hj]
    exact hlive hcj haj lines s live hist n hn
  -- the log entry of the closed socket is one more record for those that listen
  have hlistening : Listening w₁ := by
    intro j hcj haj
    rw [hconns] at hcj haj
    have hmem := h.listening hs j hcj haj
    unfold w₁
    split
    · refine (List.mem_erase_of_ne ?_).mpr hmem
      rintro rfl
      rw [hc] at hcj
      cases hcj
    · exact hmem
  have hdebug := h₁.debug cfg hlistening k "closed"
  refine (hdebug.setSockets _).setConn k (((hdebug.setSockets _).conn k).forget rfl ?_ ?_)
  · intro hck
    exact ⟨rfl, hck⟩
  · intro _
    show (LogServer.conns (w₁.debug cfg k "closed") k).connected = false
    rw [debug_conns, hconns]
    exact hc

/-! ### A task goes on -/

/-- A send ends behind the last listener. -/
theorem sendNext_end {r : ρ} (hpos : w.listeners[(w.sends n).pos]? = none) :
    w.sendNext n r =
      { w with sends := Function.update w.sends n { w.sends n with ended := true } } := by
  simp only [LogServer.sendNext, hpos]

/-- The task goes on to its next listener. -/
def advanced (w : LogServer ρ) (n : Nat) : LogServer ρ :=
  { w with sends := Function.update w.sends n { w.sends n with pos := (w.sends n).pos + 1 } }

/-- Before it, the listener gets the record if its socket is open. -/
theorem sendNext_next {r : ρ} {ws : Nat} (hpos : w.listeners[(w.sends n).pos]? = some ws) :
    w.sendNext n r =
      if (w.conns ws).connected then (advanced w n).pass ws (.record r) else advanced w n := by
  simp only [LogServer.sendNext, hpos, advanced]

/-- A send that goes on ends no other. -/
theorem advanced_ended (w : LogServer ρ) (n m : Nat) :
    ((advanced w n).sends m).ended = (w.sends m).ended := by
  by_cases hmn : m = n
  · subst hmn
    simp [advanced]
  · simp [advanced, hmn]

/-- **A task ends.** -/
theorem Stream.sendEnd (h : Stream w) {r : ρ} (hpos : w.listeners[(w.sends n).pos]? = none)
    (he : EndsInTime w n) : Stream (w.sendNext n r) := by
  rw [sendNext_end hpos]
  have hlen : w.listeners.length ≤ (w.sends n).pos := List.getElem?_eq_none_iff.mp hpos
  refine ⟨h.lines, fun k => ?_⟩
  obtain ⟨hsegment, hlive, hwaiting, hgone⟩ := h.conn k
  refine ⟨hsegment, fun hc ha lines s live hist m hm => ?_, fun hc ha lines s live hist => ?_,
    hgone⟩
  · rw [← hlive hc ha lines s live hist m hm]
    unfold Ahead
    by_cases hmn : m = n
    · -- it had nothing ahead any more
      subst hmn
      simp [List.drop_eq_nil_of_le hlen]
    · simp [hmn]
  · obtain ⟨hnil, hover⟩ := hwaiting hc ha lines s live hist
    refine ⟨hnil, fun m hs hm => ?_⟩
    have hmn : m ≠ n := by
      rintro rfl
      have := he hpos k hc ha lines s hist.mem
      omega
    simpa [hmn] using hover m hs hm

/-- The other listeners are still ahead. -/
theorem mem_drop_succ_ne {l : List Nat} {pos ws : Nat} (hpos : l[pos]? = some ws) (hj : j ≠ ws) :
    j ∈ l.drop (pos + 1) ↔ j ∈ l.drop pos := by
  obtain ⟨hlt, hget⟩ := List.getElem?_eq_some_iff.mp hpos
  rw [List.drop_eq_getElem_cons hlt, hget, List.mem_cons]
  simp [hj]

/-- The one that was served is not, -/
theorem not_mem_drop_succ {l : List Nat} {pos ws : Nat} (hl : l.Nodup)
    (hpos : l[pos]? = some ws) : ws ∉ l.drop (pos + 1) := by
  obtain ⟨hlt, hget⟩ := List.getElem?_eq_some_iff.mp hpos
  have hdrop : (l.drop pos).Nodup := hl.sublist (List.drop_sublist pos l)
  rw [List.drop_eq_getElem_cons hlt, hget] at hdrop
  exact (List.nodup_cons.mp hdrop).1

/-- as it was before. -/
theorem mem_drop_self {l : List Nat} {pos ws : Nat} (hpos : l[pos]? = some ws) :
    ws ∈ l.drop pos := by
  obtain ⟨hlt, hget⟩ := List.getElem?_eq_some_iff.mp hpos
  rw [List.drop_eq_getElem_cons hlt, hget]
  exact List.mem_cons_self

/-- Only for the record of the task and the socket it was about to write to is there a change. -/
theorem ahead_advanced {ws m k : Nat} (hpos : w.listeners[(w.sends n).pos]? = some ws)
    (hor : m ≠ n ∨ k ≠ ws) : Ahead (advanced w n) m k ↔ Ahead w m k := by
  by_cases hmn : m = n
  · subst hmn
    unfold Ahead
    rw [advanced_ended]
    simp only [advanced, Function.update_self,
      mem_drop_succ_ne hpos (hor.resolve_left (by simp))]
  · simp [Ahead, advanced, hmn]

/-- For the other sockets, and for one that is closed, nothing changes. -/
theorem StreamOk.advanced {ws k : Nat} (h : StreamOk w k (w.conns k))
    (hpos : w.listeners[(w.sends n).pos]? = some ws)
    (hk : k ≠ ws ∨ (w.conns k).connected = false) :
    StreamOk (LogServer.advanced w n) k (w.conns k) := by
  obtain ⟨hsegment, hlive, hwaiting, hgone⟩ := h
  refine ⟨hsegment, fun hc ha lines s live hist m hm => ?_, fun hc ha lines s live hist => ?_,
    hgone⟩
  · have hne : k ≠ ws := hk.resolve_right (by rw [hc]; nofun)
    rw [ahead_advanced hpos (.inr hne)]
    exact hlive hc ha lines s live hist m hm
  · obtain ⟨hnil, hoverk⟩ := hwaiting hc ha lines s live hist
    exact ⟨hnil, fun m hsm hm => (advanced_ended w n m).trans (hoverk m hsm hm)⟩

/-- A socket that has the earlier records misses first the one that is sent to it. -/
theorem Stream.next_missed (h : Stream w) {k : Nat} (hlt : n < w.emitted.length)
    (hover : (w.sends n).ended = false) (hpos : w.listeners[(w.sends n).pos]? = some k)
    (ho : SendsInOrder w n) (hc : (w.conns k).connected = true)
    (ha : (w.conns k).authenticated = true) {lines live : List ρ} {s : Nat}
    (hist : HistoryThen (w.conns k).traffic lines s live) : s + live.length = n := by
  obtain ⟨-, hlive, -, -⟩ := h.conn k
  have hle := (hlive hc ha lines s live hist n hlt).mp ⟨hover, mem_drop_self hpos⟩
  by_contra hne
  have hlt' : s + live.length < n := by omega
  exact ho k hpos hc _ hlt'
    ((hlive hc ha lines s live hist (s + live.length) (by omega)).mpr (Nat.le_refl _))

/-- The socket that the record is written to. -/
theorem Stream.received (h : Stream w) (hs : Sound cfg w) {r : ρ} {k : Nat}
    (hn : w.emitted[n]? = some r) (hover : (w.sends n).ended = false)
    (hpos : w.listeners[(w.sends n).pos]? = some k) (ho : SendsInOrder w n)
    (hc : (w.conns k).connected = true) :
    StreamOk ((advanced w n).pass k (.record r)) k
      { w.conns k with traffic := (w.conns k).traffic ++ [.record r] } := by
  obtain ⟨hlt, -⟩ := List.getElem?_eq_some_iff.mp hn
  have ha : (w.conns k).authenticated = true :=
    hs.authenticated_of_mem (List.mem_of_getElem? hpos)
  obtain ⟨hsegment, hlive, -, hgone⟩ := h.conn k
  -- a history that was sent has the new record at its end now
  have hhist : ∀ lines s live, HistoryThen ((w.conns k).traffic ++ [.record r]) lines s live →
      ∃ live', HistoryThen (w.conns k).traffic lines s live' ∧ live = live' ++ [r] ∧
        s + live'.length = n ∧ s + live.length = n + 1 := by
    intro lines s live hist
    rcases historyThen_concat hist with ⟨hm, -⟩ | ⟨live', hist', happend⟩
    · cases hm
    obtain rfl : live = live' ++ [r] := happend
    have hnext := h.next_missed hlt hover hpos ho hc ha hist'
    refine ⟨live', hist', rfl, hnext, ?_⟩
    rw [List.length_append, List.length_singleton]
    omega
  refine ⟨fun lines s live hist => ?_, fun _ _ lines s live hist m hm => ?_,
    fun _ hfalse => ?_, hgone⟩
  · obtain ⟨live', hist', rfl, hnext, hlength⟩ := hhist lines s live hist
    obtain ⟨hle, heq⟩ := hsegment lines s live' hist'
    refine ⟨by rw [hlength]; exact hlt, ?_⟩
    rw [hlength, ← List.append_assoc, heq, hnext]
    exact (segment_succ (by omega) hn).symm
  · obtain ⟨live', hist', rfl, hnext, hlength⟩ := hhist lines s live hist
    rw [hlength]
    by_cases hmn : m = n
    · -- the task has this listener behind it now
      subst hmn
      refine ⟨fun hah => ?_, fun hle => by omega⟩
      have hmem : k ∈ w.listeners.drop ((w.sends m).pos + 1) := by
        have hdrop := hah.2
        simpa [LogServer.advanced, LogServer.pass, LogServer.setConn] using hdrop
      exact absurd hmem (not_mem_drop_succ hs.nodup_listeners hpos)
    · show Ahead (LogServer.advanced w n) m k ↔ _
      rw [ahead_advanced hpos (.inl hmn), hlive hc ha lines s live' hist' m hm, hnext]
      omega
  · rw [ha] at hfalse
    cases hfalse

/-- **A record is sent to a listener**, which has all earlier ones. -/
theorem Stream.sendOne (h : Stream w) (hs : Sound cfg w) {r : ρ} {ws : Nat}
    (hn : w.emitted[n]? = some r) (hover : (w.sends n).ended = false)
    (hpos : w.listeners[(w.sends n).pos]? = some ws) (ho : SendsInOrder w n) :
    Stream (w.sendNext n r) := by
  rw [sendNext_next hpos]
  by_cases hc : (w.conns ws).connected = true
  · rw [if_pos hc]
    refine ⟨h.lines, fun k => ?_⟩
    by_cases hk : k = ws
    · subst hk
      unfold LogServer.pass
      rw [setConn_conns_self]
      exact h.received hs hn hover hpos ho hc
    · unfold LogServer.pass
      rw [setConn_conns_ne _ _ hk]
      obtain ⟨h₁, h₂, h₃, h₄⟩ := (h.conn k).advanced hpos (.inl hk)
      exact ⟨h₁, h₂, h₃, h₄⟩
  · rw [if_neg hc]
    refine ⟨h.lines, fun k => (h.conn k).advanced hpos ?_⟩
    by_cases hk : k = ws
    · subst hk
      exact .inr (by simpa using hc)
    · exact .inl hk

/-! ### Runs -/

/-- A message that is received keeps the streams right. -/
theorem Stream.onText (h : Stream w) (k : Nat) (data : Text) : Stream (w.onText cfg k data) := by
  have hpass : Stream (w.pass k (.text data)) := h.pass k rfl
  unfold LogServer.onText
  dsimp only
  split
  · exact hpass.sendJson k rfl rfl
  · split
    · exact hpass.sendJson k rfl rfl
    · exact hpass

/-- So does an exception of the handler, -/
theorem Stream.raise (h : Stream w) (k : Nat) : Stream (w.raise k) := h.closeTo k .closing

/-- and its cancellation. -/
theorem Stream.cancel (h : Stream w) (k : Nat) : Stream (w.cancel k) := h.closeTo k .cancelled

/-- The end of a handler whose connection is closed, or is closed by it. -/
theorem Stream.closeFinish (h : Stream w) (hs : Sound cfg w) (k : Nat)
    (hl : (w.conns k).authenticated = true → LeavesCleanly w k) :
    Stream ((w.close k).finish cfg k) := by
  have hconn : (w.close k).conns k = { w.conns k with connected := false } :=
    setConn_conns_self w k _
  refine (h.close k).finish (hs.close k) k ?_ ?_
  · rw [hconn]
  · rw [hconn]
    exact hl

/-- Hence each part of a handler does. -/
theorem Stream.resume (h : Stream w) (hs : Sound cfg w) (k : Nat) (input : Input)
    (hsteady : Steady w (.resume k input)) :
    Stream (w.resume cfg k input) := by
  simp only [Steady] at hsteady
  cases hp : (w.conns k).phase with
  | idle => cases input <;> simpa only [LogServer.resume, hp] using h
  | preparing =>
    cases input with
    | ok => simpa only [LogServer.resume, hp] using h.enter hs k
    | raised | cancelled =>
      simpa only [LogServer.resume, hp] using
        h.setPhase k (p := .refused) fun hover => by cases hover
    | text | other | closed => simpa only [LogServer.resume, hp] using h
  -- a socket that the peer closes is taken off while no record is on its way to it
  | receiving =>
    cases input with
    | text data => simpa only [LogServer.resume, hp] using h.onText k data
    | closed =>
      simp only [hp] at hsteady
      simpa only [LogServer.resume, hp] using h.closeFinish hs k hsteady
    | raised => simpa only [LogServer.resume, hp] using h.raise k
    | cancelled => simpa only [LogServer.resume, hp] using h.cancel k
    | ok | other => simpa only [LogServer.resume, hp] using h
  | sendingSuccess =>
    cases input with
    | ok =>
      simp only [hp] at hsteady
      simpa only [LogServer.resume, hp] using h.sendHistory k hsteady
    | raised => simpa only [LogServer.resume, hp] using h.raise k
    | cancelled => simpa only [LogServer.resume, hp] using h.cancel k
    | text | other | closed => simpa only [LogServer.resume, hp] using h
  -- between the history and the registration no record is logged
  | sendingHistory =>
    cases input with
    | ok =>
      simp only [hp] at hsteady
      simpa only [LogServer.resume, hp] using h.register hs k hp hsteady
    | raised => simpa only [LogServer.resume, hp] using h.raise k
    | cancelled => simpa only [LogServer.resume, hp] using h.cancel k
    | text | other | closed => simpa only [LogServer.resume, hp] using h
  | sendingFailure =>
    cases input with
    | ok =>
      simpa only [LogServer.resume, hp] using
        h.setPhase k (p := .receiving) fun hover => by cases hover
    | raised => simpa only [LogServer.resume, hp] using h.raise k
    | cancelled => simpa only [LogServer.resume, hp] using h.cancel k
    | text | other | closed => simpa only [LogServer.resume, hp] using h
  | closing =>
    cases input with
    | ok | raised =>
      simp only [hp] at hsteady
      have hgone : (w.conns k).connected = false := (h.conn k).gone (by rw [hp]; rfl)
      simpa only [LogServer.resume, hp] using h.finish hs k hgone hsteady
    | cancelled => simpa only [LogServer.resume, hp] using h.cancel k
    | text | other | closed => simpa only [LogServer.resume, hp] using h
  | returned | refused | cancelled => cases input <;> simpa only [LogServer.resume, hp] using h

/-- And so does every step of the server. -/
theorem stream_step (h : Stream w) (hs : Sound cfg w) (e : Event ρ) (hsteady : Steady w e) :
    Stream (step cfg e w) := by
  cases e with
  | emit r => exact h.emit (h.listening hs) r
  | connect k =>
    simp only [step]
    split
    · exact h.setPhase k fun hover => by cases hover
    · exact h
  -- the parts of a handler are steps of their own
  | resume k input => exact h.resume hs k input hsteady
  | disconnect k => exact h.close k
  | timeout k =>
    simp only [step]
    split
    · exact h
    · exact h
    · exact h
    · split
      · exact h
      · exact (h.close k).debug cfg ((h.close k).listening (hs.close k)) k _
  | send n =>
    simp only [step]
    cases hn : w.emitted[n]? with
    | none => exact h
    | some r =>
      dsimp only
      by_cases hover : (w.sends n).ended = true
      · rw [if_pos hover]
        exact h
      · rw [if_neg hover]
        have hover' : (w.sends n).ended = false := by simpa using hover
        obtain ⟨ho, he⟩ := hsteady hover'
        cases hpos : w.listeners[(w.sends n).pos]? with
        | none => exact h.sendEnd hpos he
        | some ws => exact h.sendOne hs hn hover' hpos ho

/-- **Runs of steady steps have no gaps.** -/
theorem gapless_of_steady (cfg : Setup ρ) (w : LogServer ρ)
    (h : Reach (step cfg) (fun w e => Steady w e) {} w) : Gapless w := by
  have hboth : Sound cfg w ∧ Stream w :=
    h.invariant (I := fun w => Sound cfg w ∧ Stream w) ⟨sound_new, stream_new⟩
      (fun w e hw he => ⟨sound_step hw.1 e, stream_step hw.2 hw.1 e he⟩)
  exact hboth.2.gapless

/-- A record before the history, one while it is sent, and both arrive. -/
theorem gapless_of_steady_once :
    let w := demoRun [.emit "a", .send 0, .connect 0, .resume 0 .ok, .resume 0 (.text ['t']),
      .resume 0 .ok, .emit "b", .resume 0 .ok, .send 1]
    (w.conns 0).traffic = [.text ['t'], .authSuccess true, .history ["a"] 1, .record "b"] ∧
      Gapless w := by
  intro w
  have go : ∀ {w : LogServer String} (e : Event String),
      Reach (step demo) (fun w e => Steady w e) {} w → Steady w e →
        Reach (step demo) (fun w e => Steady w e) {} (step demo e w) := fun e h he => h.step e he
  have h₁ := go (.send 0) (go (.emit "a") Reach.start trivial) fun _ =>
    ⟨nofun, fun _ k hc => by cases hc⟩
  have h₂ := go (.resume 0 (.text ['t'])) (go (.resume 0 .ok) (go (.connect 0) h₁ trivial) trivial)
    trivial
  have h₃ := go (.emit "b") (go (.resume 0 .ok) h₂ fun _ hfalse => by cases hfalse) trivial
  have h₄ := go (.resume 0 .ok) h₃ fun _ _ lines s hmem n hn => by
    obtain ⟨-, rfl⟩ : lines = ["a"] ∧ s = 1 := by
      have ht : .history lines s ∈
          [.text ['t'], .authSuccess true, (.history ["a"] 1 : Traffic String)] := hmem
      simpa using ht
    obtain rfl | rfl : n = 0 ∨ n = 1 := by
      have : n < 2 := hn
      omega
    · decide
    · decide
  have h₅ := go (.send 1) h₄ fun _ => ⟨fun ws _ _ m hm hahead => by
    obtain rfl : m = 0 := by omega
    exact absurd hahead.1 (by decide), fun hnone => absurd hnone (by decide)⟩
  exact ⟨by decide, gapless_of_steady demo _ h₅⟩

/-- Two runs that are not steady: a record is emitted while the history is sent, and its task
    ends before the socket listens; a record is emitted before the history is taken, and its
    task starts after the socket listens. -/
theorem lost_and_repeated :
    (∃ w, Reach (step demo) (fun _ _ => True) {} w ∧ (w.conns 0).connected = true ∧
      (w.conns 0).traffic = [.text ['t'], .authSuccess true, .history [] 0] ∧
      w.emitted = ["a"] ∧ (w.sends 0).ended = true ∧ ¬ Gapless w) ∧
    ∃ w, Reach (step demo) (fun _ _ => True) {} w ∧
      (w.conns 0).traffic = [.text ['t'], .authSuccess true, .history ["a"] 1, .record "a"] ∧
      w.emitted = ["a"] ∧ ¬ Gapless w := by
  refine ⟨⟨_, Reach.replay [.connect 0, .resume 0 .ok, .resume 0 (.text ['t']), .resume 0 .ok,
    .emit "a", .send 0, .resume 0 .ok], by decide, by decide, by decide, by decide, ?_⟩,
    ⟨_, Reach.replay [.connect 0, .resume 0 .ok, .emit "a", .resume 0 (.text ['t']),
    .resume 0 .ok, .resume 0 .ok, .send 0], by decide, by decide, ?_⟩⟩
  · intro h
    have := (h 0 [] 0 [] ⟨[.text ['t'], .authSuccess true], [], by decide, rfl⟩).2 (by decide) 0
      (by decide) (by decide)
    exact absurd this (by decide)
  · intro h
    have := (h 0 ["a"] 1 ["a"] ⟨[.text ['t'], .authSuccess true], [.record "a"], by decide, rfl⟩).1
    exact absurd this (by decide)

end LogServer

end Maubot.Management
