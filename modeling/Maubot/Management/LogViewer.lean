import Maubot.Management.LogStream

namespace Maubot.Management

/-!
# The log of the dashboard — `frontend/src/api.js` and `pages/dashboard/index.js`

The dashboard keeps a websocket to the server's log, opens a new one some time after it was closed,
and shows the lines that it got.

* `ConnStep`, `connStep_step` — what a step of the server does to one connection;
* `Viewer`, `closeHandler`, `messageHandler` — the socket of the dashboard, and its lines;
* `viewer_socket` — there is one socket, or one timer that will open it;
* `viewer_lines` — the lines are a part of the log without a gap, and nothing that was sent is
  missing.
-/

namespace LogServer

variable {ρ : Type} {cfg : Setup ρ} {w : LogServer ρ} {k n : Nat}

/-! ### One connection -/

/-- Whether the websocket is not there yet -/
def Phase.isFresh : Phase → Bool
  | .idle | .preparing => true
  | _                  => false

/-- What a step of the server does to a connection -/
inductive ConnStep (c : Conn ρ) : Conn ρ → Prop
  /-- messages that are none of the log, another phase, the connection is lost -/
  | talk (messages : List (Traffic ρ)) (phase : Phase) (connected : Bool)
      (hlog : ∀ m ∈ messages, m.isLog = false)
      (hsending : phase = .sendingHistory → c.phase = .sendingHistory)
      (hfresh : phase.isFresh = true → c.phase.isFresh = true ∧ messages = []) :
      ConnStep c { c with traffic := c.traffic ++ messages, phase := phase, connected := connected }
  | enter (h : c.phase = .preparing) :
      ConnStep c { phase := .receiving, authenticated := false, connected := true }
  | history (lines : List ρ) (n : Nat) : ConnStep c
      { c with traffic := c.traffic ++ [.history lines n], phase := .sendingHistory }
  | register (h : c.phase = .sendingHistory) :
      ConnStep c { c with authenticated := true, phase := .receiving }
  | record (r : ρ) (h : c.authenticated = true) :
      ConnStep c { c with traffic := c.traffic ++ [.record r] }

/-- A step without a message -/
theorem ConnStep.quiet (c : Conn ρ) {phase : Phase} {connected : Bool}
    (hsending : phase = .sendingHistory → c.phase = .sendingHistory)
    (hfresh : phase.isFresh = true → c.phase.isFresh = true) :
    ConnStep c { c with phase := phase, connected := connected } := by
  have h := ConnStep.talk (c := c) [] phase connected (by simp) hsending fun hf => ⟨hfresh hf, rfl⟩
  rwa [List.append_nil] at h

/-- Nothing happens on a connection. -/
theorem ConnStep.refl (c : Conn ρ) : ConnStep c c := ConnStep.quiet c id id

/-- What a step does to all of them -/
def ConnSteps (w w' : LogServer ρ) : Prop := ∀ k, ConnStep (w.conns k) (w'.conns k)

/-- Nor on any of them. -/
theorem connSteps_refl {w' : LogServer ρ} (h : w'.conns = w.conns) : ConnSteps w w' := by
  intro k
  rw [h]
  exact .refl _

/-- Only one connection changes. -/
theorem connSteps_setConn {w' : LogServer ρ} (hw : w'.conns = w.conns) {c : Conn ρ}
    (h : ConnStep (w.conns k) c) : ConnSteps w (w'.setConn k c) := by
  intro j
  by_cases hj : j = k
  · rw [hj, setConn_conns_self]
    exact h
  · rw [setConn_conns_ne _ _ hj, hw]
    exact .refl _

/-- A handler goes on, without history and not back to the beginning. -/
theorem connSteps_setPhase {p : Phase} (hsending : p ≠ .sendingHistory)
    (hfresh : p.isFresh = true → (w.conns k).phase.isFresh = true) :
    ConnSteps w (w.setPhase k p) :=
  connSteps_setConn rfl (ConnStep.quiet _ (fun h => absurd h hsending) hfresh)

/-- A socket is closed. -/
theorem connSteps_close (k : Nat) : ConnSteps w (w.close k) :=
  connSteps_setConn rfl (ConnStep.quiet _ id id)

/-- The connection is closed, and the handler goes on. -/
theorem connSteps_closeTo {p : Phase} (hsending : p ≠ .sendingHistory)
    (hfresh : p.isFresh = false) : ConnSteps w ((w.close k).setPhase k p) := by
  intro j
  by_cases hj : j = k
  · rw [hj, setPhase, setConn_conns_self, close, setConn_conns_self]
    exact ConnStep.quiet _ (fun h => absurd h hsending) fun h => by rw [hfresh] at h; cases h
  · rw [setPhase, setConn_conns_ne _ _ hj, close, setConn_conns_ne _ _ hj]
    exact .refl _

/-- A handler that returns changes its own phase only. -/
theorem conns_finish (k : Nat) :
    (w.finish cfg k).conns = (w.setPhase k .returned).conns := by
  unfold finish
  split <;> simp [setPhase, setConn]

/-- Its connection has a step by that, -/
theorem connSteps_finish (k : Nat) : ConnSteps w (w.finish cfg k) := by
  intro j
  rw [conns_finish]
  exact connSteps_setPhase (p := .returned) (by simp) (by simp [Phase.isFresh]) j

/-- also where the socket is closed first. -/
theorem connSteps_closeFinish (k : Nat) : ConnSteps w ((w.close k).finish cfg k) := by
  intro j
  rw [conns_finish]
  exact connSteps_closeTo (p := .returned) (by simp) rfl j

/-- A message that is none of the log, or the connection is closed -/
theorem connSteps_onText (k : Nat) (data : Text) (hp : (w.conns k).phase = .receiving) :
    ConnSteps w (w.onText cfg k data) := by
  -- the text has arrived, whatever the answer is
  have hpass : (w.pass k (.text data)).conns k =
      { w.conns k with traffic := (w.conns k).traffic ++ [.text data] } := setConn_conns_self ..
  have htext : ConnStep (w.conns k) ((w.pass k (.text data)).conns k) := by
    rw [hpass]
    exact .talk [.text data] _ _ (List.forall_mem_singleton.mpr rfl) id fun h => by
      rw [hp] at h
      cases h
  have hother : ∀ j, j ≠ k → (w.pass k (.text data)).conns j = w.conns j := fun j hj =>
    setConn_conns_ne _ _ hj
  -- an answer that cannot be sent closes the connection
  have hsend : ∀ (b : Bool) (p : Phase), p ≠ .sendingHistory → p.isFresh = false →
      ConnSteps w ((w.pass k (.text data)).sendJson k (.authSuccess b) p) := by
    intro b p hsending hfresh j
    by_cases hj : j = k
    · subst hj
      unfold sendJson
      split
      · rw [setPhase, setConn_conns_self, pass, setConn_conns_self, hpass, List.append_assoc]
        exact .talk _ p _ (by simp [Traffic.isLog]) (fun h => absurd h hsending) fun h => by
          rw [hfresh] at h
          cases h
      · rw [raise, setPhase, setConn_conns_self, close, setConn_conns_self, hpass]
        exact .talk [.text data] .closing false (List.forall_mem_singleton.mpr rfl) (by simp)
          (by simp [Phase.isFresh])
    · unfold sendJson
      split
      · rw [setPhase, setConn_conns_ne _ _ hj, pass, setConn_conns_ne _ _ hj, hother j hj]
        exact .refl _
      · rw [raise, setPhase, setConn_conns_ne _ _ hj, close, setConn_conns_ne _ _ hj, hother j hj]
        exact .refl _
  unfold onText
  dsimp only
  split
  · exact hsend true _ (by simp) rfl
  · split
    · exact hsend false _ (by simp) rfl
    · intro j
      by_cases hj : j = k
      · rw [hj]
        exact htext
      · rw [hother j hj]
        exact .refl _

/-- The history is sent, -/
theorem connSteps_sendHistory (k : Nat) :
    ConnSteps w (w.sendJson k (.history w.lines w.emitted.length) .sendingHistory) := by
  unfold sendJson
  split
  · intro j
    by_cases hj : j = k
    · rw [hj, setPhase, setConn_conns_self, pass, setConn_conns_self]
      exact .history _ _
    · rw [setPhase, setConn_conns_ne _ _ hj, pass, setConn_conns_ne _ _ hj]
      exact .refl _
  · exact connSteps_closeTo (by simp) rfl

/-- the listener registered behind it, -/
theorem connSteps_register (hp : (w.conns k).phase = .sendingHistory) :
    ConnSteps w (w.register cfg k) := by
  unfold register
  split
  · exact connSteps_setPhase (by simp) (by simp [Phase.isFresh])
  · have hdebug : (w.debug cfg k "authenticated").conns = w.conns := debug_conns k _
    refine @connSteps_setConn _ w k { w.debug cfg k "authenticated" with listeners := _ }
      hdebug _ ?_
    rw [hdebug]
    exact .register hp

/-- or the handler entered. -/
theorem connSteps_enter (hp : (w.conns k).phase = .preparing) : ConnSteps w (w.enter cfg k) := by
  have henter : w.enter cfg k =
      (debug cfg { w with sockets := w.sockets ++ [k] } k "opened").setConn k
      { phase := .receiving, authenticated := false, connected := true } := rfl
  have hconns : (debug cfg { w with sockets := w.sockets ++ [k] } k "opened").conns = w.conns :=
    debug_conns k _
  rw [henter]
  exact connSteps_setConn hconns (.enter hp)

/-- Hence each part of the handler is such a step. -/
theorem connSteps_resume (k : Nat) (input : Input) : ConnSteps w (w.resume cfg k input) := by
  have hsame : ConnSteps w w := connSteps_refl rfl
  have hraise : ConnSteps w (w.raise k) := connSteps_closeTo (by simp) rfl
  have hcancel : ConnSteps w (w.cancel k) := connSteps_closeTo (by simp) rfl
  have hrefuse : ConnSteps w (w.setPhase k .refused) :=
    connSteps_setPhase (by simp) (by simp [Phase.isFresh])
  unfold resume
  split
  next hp => exact connSteps_enter hp
  next => exact hrefuse
  next => exact hrefuse
  next data hp => exact connSteps_onText k data hp
  next => exact connSteps_closeFinish k
  next => exact hraise
  next => exact connSteps_sendHistory k
  next hp => exact connSteps_register hp
  next => exact connSteps_setPhase (by simp) (by simp [Phase.isFresh])
  all_goals first | exact hraise | exact hcancel | exact connSteps_finish k | exact hsame

/-- A listener has authenticated. -/
theorem Sound.authenticated_of_listening (h : Sound cfg w) {ws : Nat} (hmem : ws ∈ w.listeners) :
    (w.conns ws).authenticated = true := by
  have hpos : 0 < w.listeners.count ws := List.count_pos_iff.mpr hmem
  rw [(h ws).listening] at hpos
  by_contra ha
  rw [if_neg fun hand => ha hand.1] at hpos
  omega

/-- **What a step of the server does to its connections** -/
theorem connSteps_step (h : Sound cfg w) (e : Event ρ) : ConnSteps w (step cfg e w) := by
  have hsame : ConnSteps w w := connSteps_refl rfl
  cases e with
  | emit r => exact connSteps_refl rfl
  | connect k =>
    simp only [step]
    split
    next hp => exact connSteps_setPhase (by simp) fun _ => by rw [hp]; rfl
    next => exact hsame
  | resume k input => exact connSteps_resume k input
  | disconnect k => exact connSteps_close k
  | timeout k =>
    simp only [step]
    split
    next => exact hsame
    next => exact hsame
    next => exact hsame
    next =>
      split
      · exact hsame
      · intro j
        rw [debug_conns]
        exact connSteps_close k j
  -- only a record on its way is sent outside of a handler
  | send n =>
    simp only [step]
    split
    next => exact hsame
    next r _ =>
      split
      · exact hsame
      · unfold sendNext
        dsimp only
        cases hws : w.listeners[(w.sends n).pos]? with
        | none => exact connSteps_refl rfl
        | some ws =>
          dsimp only
          split
          · exact @connSteps_setConn _ w ws { w with sends := _ } rfl _
              (.record r (h.authenticated_of_listening (List.mem_of_getElem? hws)))
          · exact connSteps_refl rfl

/-! ### The messages of one connection -/

/-- What holds of what passed over a connection: before the websocket was there it is nothing, and
    a record comes after a history. -/
structure ConnLog (c : Conn ρ) : Prop where
  fresh   : c.phase.isFresh = true → c.traffic = [] ∧ c.authenticated = false
  opened  : c.authenticated = true ∨ c.phase = .sendingHistory →
    ∃ lines s, .history lines s ∈ c.traffic
  records : ∀ before r after, c.traffic = before ++ .record r :: after →
    ∃ lines s, .history lines s ∈ before

/-- Nothing has been sent on a new connection. -/
theorem connLog_new : ConnLog ({} : Conn ρ) where
  fresh _                := ⟨rfl, rfl⟩
  opened h               := by rcases h with h | h <;> cases h
  records before r after := by simp

/-- A message that is no record may follow. -/
theorem records_concat {l : List (Traffic ρ)} {m : Traffic ρ}
    (h : ∀ before r after, l = before ++ .record r :: after →
      ∃ lines s, .history lines s ∈ before)
    (hm : ∀ r, m = .record r → ∃ lines s, .history lines s ∈ l) :
    ∀ before r after, l ++ [m] = before ++ .record r :: after →
      ∃ lines s, .history lines s ∈ before := by
  intro before r after he
  rcases concat_eq_append_cons he with ⟨-, rfl, rfl⟩ | ⟨after', -, rfl⟩
  · exact hm r rfl
  · exact h before r after' rfl

/-- Messages that are no log records do not come between the records and their history. -/
theorem records_talk {l : List (Traffic ρ)} (messages : List (Traffic ρ))
    (h : ∀ before r after, l = before ++ .record r :: after →
      ∃ lines s, .history lines s ∈ before)
    (hlog : ∀ m ∈ messages, m.isLog = false) :
    ∀ before r after, l ++ messages = before ++ .record r :: after →
      ∃ lines s, .history lines s ∈ before := by
  induction messages using List.reverseRecOn with
  | nil => rwa [List.append_nil]
  | append_singleton messages m ih =>
    rw [← List.append_assoc]
    refine records_concat (ih fun m' hm' => hlog m' (List.mem_append_left _ hm')) ?_
    rintro r rfl
    have hrecord := hlog _ (List.mem_append_right messages List.mem_cons_self)
    cases hrecord

/-- The messages of a connection stay, and what holds of them. -/
theorem ConnLog.step {c c' : Conn ρ} (h : ConnLog c) (hstep : ConnStep c c') :
    ConnLog c' ∧ c.traffic <+: c'.traffic := by
  cases hstep with
  | talk messages phase connected hlog hsending hfresh =>
    refine ⟨⟨fun hf => ?_, fun hopen => ?_, records_talk messages h.records hlog⟩,
      List.prefix_append _ _⟩
    · obtain ⟨hold, rfl⟩ := hfresh hf
      exact ⟨by rw [(h.fresh hold).1]; rfl, (h.fresh hold).2⟩
    · obtain ⟨lines, s, hmem⟩ := h.opened (hopen.imp_right hsending)
      exact ⟨lines, s, List.mem_append_left _ hmem⟩
  | enter hp =>
    have hfresh := h.fresh (by rw [hp]; rfl)
    refine ⟨⟨by simp [Phase.isFresh], fun hopen => ?_, by simp⟩, hfresh.1 ▸ List.prefix_rfl⟩
    rcases hopen with hopen | hopen <;> cases hopen
  | history lines n =>
    exact ⟨⟨by simp [Phase.isFresh],
      fun _ => ⟨lines, n, List.mem_append_right _ List.mem_cons_self⟩,
      records_concat h.records (by simp)⟩, List.prefix_append _ _⟩
  | register hp =>
    exact ⟨⟨by simp [Phase.isFresh], fun _ => h.opened (.inr hp), h.records⟩, List.prefix_rfl⟩
  | record r ha =>
    refine ⟨⟨fun hf => ?_, fun hopen => ?_, records_concat h.records fun r' _ => ?_⟩,
      List.prefix_append _ _⟩
    · rw [(h.fresh hf).2] at ha
      cases ha
    · obtain ⟨lines, s, hmem⟩ := h.opened hopen
      exact ⟨lines, s, List.mem_append_left _ hmem⟩
    · exact h.opened (.inl ha)

/-! ### The records -/

/-- What the server logs itself is a record too. -/
theorem emitted_debug (k : Nat) (msg : String) : w.emitted <+: (w.debug cfg k msg).emitted := by
  unfold debug
  split
  · exact List.prefix_append _ _
  · exact List.prefix_rfl

/-- A message that is sent is none. -/
theorem emitted_sendJson (k : Nat) (m : Traffic ρ) (p : Phase) :
    (w.sendJson k m p).emitted = w.emitted := by
  unfold sendJson
  split <;> rfl

/-- Nor is one that is received. -/
theorem emitted_onText (k : Nat) (data : Text) : (w.onText cfg k data).emitted = w.emitted := by
  unfold onText
  dsimp only
  split
  · rw [emitted_sendJson]
    rfl
  · split
    · rw [emitted_sendJson]
      rfl
    · rfl

/-- The end of a handler is logged. -/
theorem emitted_finish (k : Nat) : w.emitted <+: (w.finish cfg k).emitted := by
  unfold finish
  split
  · exact emitted_debug (w := { w with listeners := w.listeners.erase k }) k _
  · exact emitted_debug k _

/-- So the records only become more. -/
theorem emitted_resume (k : Nat) (input : Input) :
    w.emitted <+: (w.resume cfg k input).emitted := by
  unfold resume
  split
  next => exact emitted_debug (w := { w with sockets := w.sockets ++ [k] }) k _
  next => exact List.prefix_rfl
  next => exact List.prefix_rfl
  next data _ =>
    simp only [emitted_onText, List.prefix_rfl]
  next => exact emitted_finish (w := w.close k) k
  next => exact List.prefix_rfl
  next =>
    simp only [emitted_sendJson, List.prefix_rfl]
  next =>
    unfold register
    split
    · exact List.prefix_rfl
    · exact emitted_debug k _
  next => exact List.prefix_rfl
  all_goals first | exact List.prefix_rfl | exact emitted_finish k

/-- Records stay. -/
theorem emitted_step (e : Event ρ) : w.emitted <+: (step cfg e w).emitted := by
  cases e with
  | emit r => exact List.prefix_append _ _
  | connect k =>
    simp only [step]
    split <;> exact List.prefix_rfl
  | resume k input => exact emitted_resume k input
  | disconnect k => exact List.prefix_rfl
  | timeout k =>
    simp only [step]
    split
    next => exact List.prefix_rfl
    next => exact List.prefix_rfl
    next => exact List.prefix_rfl
    next =>
      split
      · exact List.prefix_rfl
      · exact emitted_debug (w := w.close k) k _
  | send n =>
    simp only [step]
    split
    next => exact List.prefix_rfl
    next =>
      split
      · exact List.prefix_rfl
      · unfold sendNext
        dsimp only
        split
        · exact List.prefix_rfl
        · split <;> exact List.prefix_rfl

/-! ### What the dashboard shows of a connection -/

/-- `onHistory` and `onLog`: the lines after a message -/
def showMessage (lines : List ρ) (m : Traffic ρ) : List ρ :=
  match m with
  | .history history _ => history
  | .record r          => lines ++ [r]
  | _                  => lines

def shown (old : List ρ) (messages : List (Traffic ρ)) : List ρ := messages.foldl showMessage old

/-- What is shown is folded over the messages. -/
theorem shown_concat (old : List ρ) (messages : List (Traffic ρ)) (m : Traffic ρ) :
    shown old (messages ++ [m]) = showMessage (shown old messages) m := by
  rw [shown, List.foldl_append]
  rfl

/-- The lines from before, or those of the last history and the records behind it -/
theorem shown_cases (old : List ρ) {messages : List (Traffic ρ)}
    (h : ∀ before r after, messages = before ++ .record r :: after →
      ∃ lines s, .history lines s ∈ before) :
    (shown old messages = old ∧ ∀ lines s, .history lines s ∉ messages) ∨
      ∃ before lines s after, messages = before ++ .history lines s :: after ∧
        shown old messages = lines ++ records after := by
  induction messages using List.reverseRecOn with
  | nil => exact .inl ⟨rfl, fun _ _ => List.not_mem_nil⟩
  | append_singleton messages m ih =>
    have hprefix : ∀ before r after, messages = before ++ .record r :: after →
        ∃ lines s, .history lines s ∈ before := fun before r after he =>
      h before r (after ++ [m]) (by rw [he, List.append_assoc, List.cons_append])
    rw [shown_concat]
    -- a message that is none of the log
    have hother : (∀ l, showMessage l m = l) → (∀ lines s, m ≠ .history lines s) →
        records [m] = [] → (showMessage (shown old messages) m = old ∧
          ∀ lines s, .history lines s ∉ messages ++ [m]) ∨
        ∃ before lines s after, messages ++ [m] = before ++ .history lines s :: after ∧
          showMessage (shown old messages) m = lines ++ records after := by
      intro hshow hne hnone
      rw [hshow]
      rcases ih hprefix with ⟨hshown, hno⟩ | ⟨before, lines, s, after, hmessages, hshown⟩
      · refine .inl ⟨hshown, fun lines s hmem => ?_⟩
        rcases List.mem_append.mp hmem with hmem | hmem
        · exact hno lines s hmem
        · exact hne lines s (List.mem_singleton.mp hmem).symm
      · refine .inr ⟨before, lines, s, after ++ [m], ?_, ?_⟩
        · rw [hmessages, List.append_assoc, List.cons_append]
        · have happend : records (after ++ [m]) = records after ++ records [m] :=
            List.filterMap_append
          rw [hshown, happend, hnone, List.append_nil]
    cases m with
    | history lines s => exact .inr ⟨messages, lines, s, [], rfl, (List.append_nil lines).symm⟩
    | record r =>
      obtain ⟨lines, s, hmem⟩ := h messages r [] rfl
      rcases ih hprefix with ⟨-, hno⟩ | ⟨before, lines', s', after, hmessages, hshown⟩
      · exact absurd hmem (hno lines s)
      · refine .inr ⟨before, lines', s', after ++ [.record r], ?_, ?_⟩
        · rw [hmessages, List.append_assoc, List.cons_append]
        · rw [showMessage, hshown, List.append_assoc]
          simp [records]
    | text data           => exact hother (fun _ => rfl) (by simp) rfl
    | authSuccess success => exact hother (fun _ => rfl) (by simp) rfl

/-- A prefix of what was sent shows a part of the log. -/
theorem shown_part (hw : Stream w) (hlog : ConnLog (w.conns k)) {old : List ρ}
    (hold : old <:+: w.emitted) {messages : List (Traffic ρ)}
    (hmessages : messages <+: (w.conns k).traffic) : shown old messages <:+: w.emitted := by
  obtain ⟨rest, hrest⟩ := hmessages
  have hrecords : ∀ before r after, messages = before ++ .record r :: after →
      ∃ lines s, .history lines s ∈ before := fun before r after he =>
    hlog.records before r (after ++ rest) (by
      rw [← hrest, he, List.append_assoc, List.cons_append])
  rcases shown_cases old hrecords with ⟨hshown, -⟩ | ⟨before, lines, s, after, he, hshown⟩
  · rw [hshown]
    exact hold
  · have hhistory : HistoryThen (w.conns k).traffic lines s (records (after ++ rest)) :=
      ⟨before, after ++ rest, by rw [← hrest, he, List.append_assoc, List.cons_append], rfl⟩
    obtain ⟨-, hsegment⟩ := (hw.conn k).segment _ _ _ hhistory
    have happend : records (after ++ rest) = records after ++ records rest :=
      List.filterMap_append
    rw [happend, ← List.append_assoc] at hsegment
    have hpart : lines ++ records after <:+: lines ++ records after ++ records rest :=
      (List.prefix_append _ _).isInfix
    rw [hsegment] at hpart
    rw [hshown]
    exact hpart.trans ((List.drop_suffix _ _).isInfix.trans (List.take_prefix _ _).isInfix)

/-- What was sent as a record is one of the log. -/
theorem mem_emitted_of_record (hw : Stream w) (hlog : ConnLog (w.conns k)) {r : ρ}
    (h : .record r ∈ (w.conns k).traffic) : r ∈ w.emitted := by
  obtain ⟨before, after, he⟩ := List.append_of_mem h
  obtain ⟨lines, s, hmem⟩ := hlog.records before r after he
  obtain ⟨first, middle, hbefore⟩ := List.append_of_mem hmem
  -- it is among the records behind the history
  have htraffic : (w.conns k).traffic =
      first ++ .history lines s :: (middle ++ .record r :: after) := by
    rw [he, hbefore, List.append_assoc, List.cons_append]
  obtain ⟨-, hsegment⟩ := (hw.conn k).segment _ _ _ ⟨first, _, htraffic, rfl⟩
  have hlive : r ∈ lines ++ records (middle ++ .record r :: after) := by
    refine List.mem_append_right _ (List.mem_filterMap.mpr ⟨.record r, ?_, rfl⟩)
    exact List.mem_append_right _ List.mem_cons_self
  rw [hsegment] at hlive
  exact List.mem_of_mem_take (List.mem_of_mem_drop hlive)

end LogServer

open LogServer

/-! ### The socket of the dashboard -/

/-- What the dashboard takes a record for -/
inductive Reading (ρ : Type)
  /-- it has a key `auth_success` -/
  | auth (success : Bool)
  /-- else a key `history`, which is true: a list of entries, or what `onHistory` fails with -/
  | history (lines : List ρ)
  | fails
  /-- it has neither -/
  | entry

/-- The object that `openLogSocket` returns, the page's lines, and what the browser keeps -/
structure Viewer (ρ : Type) where
  /-- the connection of `wrapper.socket` -/
  socket        : Option Nat := none
  connected     : Bool := false
  authenticated : Bool := false
  fails         : Int := -1
  /-- the delays of the timers that have not gone off -/
  timers        : List Nat := []
  logLines      : List ρ := []
  /-- the websockets that are not closed -/
  live          : List Nat := []
  /-- how far the messages of each connection were delivered; those of the dashboard itself are
      passed over -/
  received      : Nat → Nat := fun _ => 0

namespace Viewer

variable {ρ : Type} (v : Viewer ρ)

/-- `Math.min(wrapper.fails * 5 * SECOND, 30 * SECOND)` -/
def delay (fails : Int) : Nat := (min (fails * 5 * 1000) (30 * 1000)).toNat

def closeHandler : Viewer ρ :=
  { v with
    connected := false
    socket    := none
    fails     := v.fails + 1
    timers    := v.timers ++ [delay (v.fails + 1)] }

/-- A timer goes off: `new WebSocket(url)`, which is connection `k` -/
def openSocket (i k : Nat) : Viewer ρ :=
  { v with socket := some k, timers := v.timers.eraseIdx i, live := v.live ++ [k] }

/-- `openHandler`, without the token that it sends -/
def openHandler : Viewer ρ := { v with connected := true }

def onAuth (success : Bool) : Viewer ρ :=
  if success then { v with authenticated := true, fails := -1 } else v

/-- `messageHandler`, which knows the messages by their keys: a record that has one of them is
    taken for such a message. -/
def messageHandler (reading : ρ → Reading ρ) (m : Traffic ρ) : Viewer ρ :=
  match m with
  | .text _              => v
  | .authSuccess success => v.onAuth success
  | .history lines _     => { v with logLines := lines }
  | .record r            =>
    match reading r with
    | .auth success  => v.onAuth success
    | .history lines => { v with logLines := lines }
    | .fails         => v
    | .entry         => { v with logLines := v.logLines ++ [r] }

/-- A message changes `fails` when it is taken for a successful authentication. -/
theorem fails_messageHandler (reading : ρ → Reading ρ) (m : Traffic ρ) :
    (v.messageHandler reading m).fails = v.fails ∨ (v.messageHandler reading m).fails = -1 := by
  have hauth (success : Bool) :
      (v.onAuth success).fails = v.fails ∨ (v.onAuth success).fails = -1 := by
    cases success with
    | false => exact .inl rfl
    | true => exact .inr rfl
  cases m with
  | authSuccess success => exact hauth success
  | record r =>
    rw [messageHandler]
    cases reading r with
    | auth success => exact hauth success
    | _ => exact .inl rfl
  | _ => exact .inl rfl

/-- A message does not touch the socket. -/
theorem socket_messageHandler (reading : ρ → Reading ρ) (m : Traffic ρ) :
    (v.messageHandler reading m).socket = v.socket := by
  have hauth (success : Bool) : (v.onAuth success).socket = v.socket := by
    cases success <;> rfl
  cases m with
  | authSuccess success => exact hauth success
  | record r =>
    rw [messageHandler]
    cases reading r with
    | auth success => exact hauth success
    | _ => rfl
  | _ => rfl

/-- A message, if it is no record that is taken for another one -/
theorem logLines_messageHandler {reading : ρ → Reading ρ} {m : Traffic ρ}
    (h : ∀ r, m = .record r → reading r = .entry) :
    (v.messageHandler reading m).logLines = showMessage v.logLines m := by
  cases m with
  | authSuccess success => cases success <;> rfl
  | record r => rw [messageHandler, h r rfl]; rfl
  | _ => rfl

end Viewer

/-- A dashboard and the server -/
structure Desk (ρ : Type) where
  viewer : Viewer ρ
  server : LogServer ρ := {}

namespace Desk

variable {ρ : Type} (cfg : Setup ρ) (reading : ρ → Reading ρ)

inductive Event (ρ : Type)
  | server (e : LogServer.Event ρ)
  /-- the timer at a place goes off, and opens a connection -/
  | timer (i k : Nat)
  /-- what the browser calls the handlers of a websocket for -/
  | opened (k : Nat)
  | message (k : Nat)
  | closed (k : Nat)

/-- `openLogSocket` -/
def start : Desk ρ := { viewer := Viewer.closeHandler {} }

/-- The browser delivers a message of a connection, if there is one. -/
def deliver (d : Desk ρ) (k : Nat) : Desk ρ :=
  match (d.server.conns k).traffic[d.viewer.received k]? with
  | none   => d
  | some m => { d with viewer := { d.viewer.messageHandler reading m with
      received := Function.update d.viewer.received k (d.viewer.received k + 1) } }

/-- Handlers are called for websockets that are not closed. -/
def step (e : Event ρ) (d : Desk ρ) : Desk ρ :=
  match e with
  | .server e  => { d with server := LogServer.step cfg e d.server }
  | .timer i k =>
    if i < d.viewer.timers.length then { d with viewer := d.viewer.openSocket i k } else d
  | .opened k  => if k ∈ d.viewer.live then { d with viewer := d.viewer.openHandler } else d
  | .message k => if k ∈ d.viewer.live then d.deliver reading k else d
  | .closed k  =>
    if k ∈ d.viewer.live then
      { d with viewer := { d.viewer with live := d.viewer.live.erase k }.closeHandler }
    else d

/-- The server's steps are steady, and a new connection has not been used. -/
def Allowed (d : Desk ρ) (e : Event ρ) : Prop :=
  match e with
  | .server e  => Steady d.server e
  | .timer _ k => d.viewer.received k = 0 ∧ k ∉ d.viewer.live
  | _          => True

/-! ### One socket -/

/-- The websocket that is not closed is `wrapper.socket`, and there is one, or one timer. -/
structure OneSocket (v : Viewer ρ) : Prop where
  live      : v.live = v.socket.toList
  one       : v.socket.toList.length + v.timers.length = 1
  fails     : -1 ≤ v.fails
  delays    : ∀ d ∈ v.timers, 0 ≤ v.fails ∧ d = Viewer.delay v.fails
  connected : v.connected = true → v.socket.isSome = true

/-- At first there is no socket. -/
theorem oneSocket_start : OneSocket (start : Desk ρ).viewer where
  live      := rfl
  one       := rfl
  fails     := by change (-1 : Int) ≤ 0; decide
  delays    := List.forall_mem_singleton.mpr ⟨Int.le_refl 0, rfl⟩
  connected := nofun

/-- A live socket is the only one, and no reconnect is waiting. -/
theorem OneSocket.eq_of_mem {v : Viewer ρ} (h : OneSocket v) {k : Nat} (hk : k ∈ v.live) :
    v.socket = some k ∧ v.live = [k] ∧ v.timers = [] := by
  have hone := h.one
  rw [h.live] at hk ⊢
  cases hs : v.socket with
  | none => rw [hs] at hk; cases hk
  | some j =>
    rw [hs] at hk hone
    obtain rfl := List.mem_singleton.mp hk
    refine ⟨rfl, rfl, List.length_eq_zero_iff.mp ?_⟩
    simp only [Option.toList_some, List.length_singleton] at hone
    omega

/-- Where a reconnect is waiting there is no socket. -/
theorem OneSocket.eq_of_timer {v : Viewer ρ} (h : OneSocket v) {i : Nat}
    (hi : i < v.timers.length) : v.socket = none ∧ v.live = [] ∧ v.timers.eraseIdx i = [] := by
  have hone := h.one
  have hnone : v.socket = none := by
    cases hs : v.socket with
    | none   => rfl
    | some j =>
      rw [hs] at hone
      simp only [Option.toList_some, List.length_singleton] at hone
      omega
  refine ⟨hnone, by rw [h.live, hnone]; rfl, List.length_eq_zero_iff.mp ?_⟩
  rw [hnone] at hone
  rw [List.length_eraseIdx_of_lt hi]
  simp only [Option.toList_none, List.length_nil] at hone
  omega

/-- Messages open and close nothing. -/
theorem OneSocket.message {v : Viewer ρ} (h : OneSocket v) {k : Nat} (hk : k ∈ v.live)
    (m : Traffic ρ) (received : Nat → Nat) :
    OneSocket { v.messageHandler reading m with received := received } := by
  obtain ⟨hsocket, -, htimers⟩ := h.eq_of_mem hk
  obtain ⟨hlive, hone, hfails, hdelays, hconnected⟩ := h
  have hauth (success : Bool) : OneSocket { v.onAuth success with received := received } := by
    cases success with
    | false => exact ⟨hlive, hone, hfails, hdelays, hconnected⟩
    | true =>
      refine ⟨hlive, hone, Int.le_refl _, fun d hd => ?_, hconnected⟩
      change d ∈ v.timers at hd
      rw [htimers] at hd
      cases hd
  unfold Viewer.messageHandler
  cases m with
  | authSuccess success => exact hauth success
  | text data => exact ⟨hlive, hone, hfails, hdelays, hconnected⟩
  | history lines n => exact ⟨hlive, hone, hfails, hdelays, hconnected⟩
  | record r =>
    dsimp only
    cases reading r with
    | auth success => exact hauth success
    | history lines => exact ⟨hlive, hone, hfails, hdelays, hconnected⟩
    | fails => exact ⟨hlive, hone, hfails, hdelays, hconnected⟩
    | entry => exact ⟨hlive, hone, hfails, hdelays, hconnected⟩

/-- Hence every step of the viewer keeps one socket at most. -/
theorem OneSocket.step {d : Desk ρ} (h : OneSocket d.viewer) (e : Event ρ) :
    OneSocket (step cfg reading e d).viewer := by
  cases e with
  | server e => exact h
  -- a timer opens the one socket and is gone
  | timer i k =>
    unfold Desk.step
    dsimp only
    split
    next hi =>
      obtain ⟨-, hlive, htimers⟩ := h.eq_of_timer hi
      refine ⟨?_, ?_, h.fails, fun d hd => ?_, fun _ => rfl⟩
      · change d.viewer.live ++ [k] = [k]
        rw [hlive, List.nil_append]
      · change 1 + (d.viewer.timers.eraseIdx i).length = 1
        rw [htimers]
        rfl
      · rw [Viewer.openSocket, htimers] at hd
        cases hd
    next => exact h
  | opened k =>
    unfold Desk.step
    dsimp only
    split
    next hk =>
      refine ⟨h.live, h.one, h.fails, h.delays, fun _ => ?_⟩
      change d.viewer.socket.isSome = true
      rw [(h.eq_of_mem hk).1]
      rfl
    next => exact h
  | message k =>
    unfold Desk.step deliver
    dsimp only
    split
    next hk =>
      split
      · exact h
      · exact h.message reading hk _ _
    next => exact h
  -- the closed socket was the only one; its timer is the only one now
  | closed k =>
    unfold Desk.step
    dsimp only
    split
    next hk =>
      obtain ⟨-, hlive, htimers⟩ := h.eq_of_mem hk
      have hfails := h.fails
      refine ⟨?_, ?_, ?_, ?_, nofun⟩
      · change d.viewer.live.erase k = []
        rw [hlive, List.erase_cons_head]
      · change 0 + (d.viewer.timers ++ [_]).length = 1
        rw [htimers]
        rfl
      · change -1 ≤ d.viewer.fails + 1
        omega
      · change ∀ t ∈ d.viewer.timers ++ [Viewer.delay (d.viewer.fails + 1)],
          0 ≤ d.viewer.fails + 1 ∧ _
        rw [htimers]
        exact List.forall_mem_singleton.mpr ⟨by omega, rfl⟩
    next => exact h

/-- **One socket.**  In every run there is one websocket, `wrapper.socket`, or one timer that will
    open it, after at most thirty seconds, and at once after a connection that was authenticated;
    so a handler never finds another socket, or none, in the wrapper. -/
theorem viewer_socket {d : Desk ρ} (h : Reach (step cfg reading) (fun _ _ => True) start d) :
    ((∃ k, d.viewer.live = [k] ∧ d.viewer.socket = some k ∧ d.viewer.timers = []) ∨
      (d.viewer.live = [] ∧ d.viewer.socket = none ∧ d.viewer.connected = false ∧
        0 ≤ d.viewer.fails ∧ d.viewer.timers = [Viewer.delay d.viewer.fails] ∧
        Viewer.delay d.viewer.fails ≤ 30000)) ∧
      ∀ e, (step cfg reading e d).viewer.fails = d.viewer.fails ∨
        (step cfg reading e d).viewer.fails = d.viewer.fails + 1 ∨
        (step cfg reading e d).viewer.fails = -1 := by
  have hone : OneSocket d.viewer := h.invariant (I := fun d => OneSocket d.viewer) oneSocket_start
    fun d e hd _ => hd.step cfg reading e
  constructor
  · cases hs : d.viewer.socket with
    -- a socket is open: there is no timer
    | some k =>
      obtain ⟨-, hlive, htimers⟩ := hone.eq_of_mem (k := k) (by rw [hone.live, hs]; simp)
      exact .inl ⟨k, hlive, rfl, htimers⟩
    -- or a timer runs, and only one
    | none =>
      have hlength := hone.one
      rw [hs, Option.toList_none, List.length_nil, Nat.zero_add] at hlength
      obtain ⟨t, ht⟩ := List.length_eq_one_iff.mp hlength
      obtain ⟨hfails, rfl⟩ := hone.delays t (by rw [ht]; exact List.mem_cons_self)
      refine .inr ⟨by rw [hone.live, hs]; rfl, rfl, ?_, hfails, ht, ?_⟩
      · by_contra hconnected
        have hsome := hone.connected (by simpa using hconnected)
        rw [hs] at hsome
        cases hsome
      · unfold Viewer.delay
        omega
  · intro e
    cases e with
    | server e => exact .inl rfl
    | timer i k =>
      unfold Desk.step
      dsimp only
      split <;> exact .inl rfl
    | opened k =>
      unfold Desk.step
      dsimp only
      split <;> exact .inl rfl
    -- only a message of the socket in use counts, and it resets the failures or leaves them
    | message k =>
      unfold Desk.step deliver
      dsimp only
      split
      · split
        · exact .inl rfl
        · exact (d.viewer.fails_messageHandler reading _).imp_right .inr
      · exact .inl rfl
    -- only the socket in use is missed
    | closed k =>
      unfold Desk.step
      dsimp only
      split
      · exact .inr (.inl rfl)
      · exact .inl rfl

def demoRun (events : List (Event String)) : Desk String :=
  events.foldl (fun d e => step demo (fun _ => .entry) e d) start

/-- A connection that closes before it is open, and then a delay of five seconds -/
theorem viewer_socket_closed :
    let d := demoRun [.timer 0 0, .closed 0]
    d.viewer.live = [] ∧ d.viewer.fails = 1 ∧ d.viewer.timers = [5000] := by
  intro d
  have hlive : d.viewer.live = [] := by decide
  rcases (viewer_socket demo _ (d := d) (Reach.replay _)).1 with ⟨k, hk, -, -⟩ | ⟨-, -, -, -, ht, -⟩
  · rw [hlive] at hk
    cases hk
  · exact ⟨hlive, by decide, by rw [ht]; decide⟩

/-! ### The lines -/

/-- The lines are those from before the connection and what was delivered of it. -/
structure Shows (d : Desk ρ) : Prop where
  one      : OneSocket d.viewer
  sound    : Sound cfg d.server
  stream   : Stream d.server
  log      : ∀ k, ConnLog (d.server.conns k)
  received : ∀ k, d.viewer.received k ≤ (d.server.conns k).traffic.length
  lines    : ∃ old, old <:+: d.server.emitted ∧
    d.viewer.logLines = match d.viewer.socket with
      | none   => old
      | some k => shown old ((d.server.conns k).traffic.take (d.viewer.received k))

/-- At first nothing is shown. -/
theorem shows_start : Shows cfg (start : Desk ρ) where
  one        := oneSocket_start
  sound      := sound_new
  stream     := stream_new
  log _      := connLog_new
  received _ := Nat.le_refl 0
  lines      := ⟨[], List.infix_rfl, rfl⟩

variable {cfg}

/-- What is shown is a part of what was logged. -/
theorem Shows.part {d : Desk ρ} (h : Shows cfg d) : d.viewer.logLines <:+: d.server.emitted := by
  obtain ⟨old, hold, hlines⟩ := h.lines
  rw [hlines]
  split
  · exact hold
  · next k _ => exact shown_part h.stream (h.log k) hold (List.take_prefix _ _)

/-- A step of the server adds at the end of that. -/
theorem Shows.server {d : Desk ρ} (h : Shows cfg d) (e : LogServer.Event ρ)
    (he : Steady d.server e) : Shows cfg (step cfg reading (.server e) d) := by
  have hconns := connSteps_step h.sound e
  have hgrow : ∀ k, ConnLog ((LogServer.step cfg e d.server).conns k) ∧
      (d.server.conns k).traffic <+: ((LogServer.step cfg e d.server).conns k).traffic :=
    fun k => (h.log k).step (hconns k)
  refine ⟨h.one, sound_step h.sound e, stream_step h.stream h.sound e he, fun k => (hgrow k).1,
    fun k => Nat.le_trans (h.received k) (hgrow k).2.length_le, ?_⟩
  obtain ⟨old, hold, hlines⟩ := h.lines
  refine ⟨old, hold.trans (emitted_step e).isInfix, ?_⟩
  change d.viewer.logLines = match d.viewer.socket with
    | none   => old
    | some k => shown old
      (((LogServer.step cfg e d.server).conns k).traffic.take (d.viewer.received k))
  rw [hlines]
  split
  · rfl
  · next k _ =>
    obtain ⟨rest, hrest⟩ := (hgrow k).2
    rw [← hrest, List.take_append_of_le_length (h.received k)]

/-- A message that arrives is shown where it belongs. -/
theorem Shows.deliver {d : Desk ρ} (h : Shows cfg d)
    (hplain : ∀ r ∈ d.server.emitted, reading r = .entry) {k : Nat} (hk : k ∈ d.viewer.live) :
    Shows cfg (d.deliver reading k) := by
  unfold Desk.deliver
  cases hm : (d.server.conns k).traffic[d.viewer.received k]? with
  | none => exact h
  | some m =>
    have hsocket := (h.one.eq_of_mem hk).1
    obtain ⟨hlt, hget⟩ := List.getElem?_eq_some_iff.mp hm
    refine ⟨h.one.message reading hk m _, h.sound, h.stream, h.log, fun j => ?_, ?_⟩
    · change Function.update d.viewer.received k (d.viewer.received k + 1) j ≤ _
      by_cases hj : j = k
      · rw [hj, Function.update_self]
        exact hlt
      · rw [Function.update_of_ne hj]
        exact h.received j
    · obtain ⟨old, hold, hlines⟩ := h.lines
      refine ⟨old, hold, ?_⟩
      have hentry : ∀ r, m = .record r → reading r = .entry := by
        rintro r rfl
        exact hplain r (mem_emitted_of_record h.stream (h.log k) (List.mem_of_getElem? hm))
      have hkeep := (d.viewer.socket_messageHandler reading m).trans hsocket
      have hshow := d.viewer.logLines_messageHandler hentry
      dsimp only
      rw [hkeep, hshow, hlines, hsocket]
      dsimp only
      rw [Function.update_self, List.take_add_one, hm, Option.toList_some, shown_concat]

/-- So every step keeps the lines right. -/
theorem Shows.step {d : Desk ρ} (h : Shows cfg d)
    (hplain : ∀ r ∈ d.server.emitted, reading r = .entry) (e : Event ρ) (he : Allowed d e) :
    Shows cfg (step cfg reading e d) := by
  have hone := h.one.step cfg reading e
  cases e with
  | server e => exact h.server reading e he
  -- a new socket: what was shown before stays in front
  | timer i k =>
    unfold Desk.step at hone ⊢
    dsimp only at hone ⊢
    split at hone
    next hi =>
      rw [if_pos hi]
      refine ⟨hone, h.sound, h.stream, h.log, h.received, ?_⟩
      obtain ⟨old, hold, hlines⟩ := h.lines
      rw [(h.one.eq_of_timer hi).1] at hlines
      refine ⟨old, hold, ?_⟩
      change d.viewer.logLines = shown old ((d.server.conns k).traffic.take (d.viewer.received k))
      rw [he.1, hlines]
      rfl
    next hi =>
      rw [if_neg hi]
      exact h
  | opened k =>
    unfold Desk.step at hone ⊢
    dsimp only at hone ⊢
    split at hone
    next hk =>
      rw [if_pos hk]
      exact ⟨hone, h.sound, h.stream, h.log, h.received, h.lines⟩
    next hk =>
      rw [if_neg hk]
      exact h
  | message k =>
    unfold Desk.step
    dsimp only
    split
    next hk => exact h.deliver reading hplain hk
    next => exact h
  -- a closed one: what is shown is old from now on
  | closed k =>
    unfold Desk.step at hone ⊢
    dsimp only at hone ⊢
    split at hone
    next hk =>
      rw [if_pos hk]
      exact ⟨hone, h.sound, h.stream, h.log, h.received, d.viewer.logLines, h.part, rfl⟩
    next hk =>
      rw [if_neg hk]
      exact h

/-- The records stay. -/
theorem emitted_step (d : Desk ρ) (e : Event ρ) :
    d.server.emitted <+: (step cfg reading e d).server.emitted := by
  cases e with
  | server e => exact LogServer.emitted_step e
  | message k =>
    unfold Desk.step deliver
    dsimp only
    split
    · split <;> exact List.prefix_rfl
    · exact List.prefix_rfl
  | _ =>
    unfold Desk.step
    dsimp only
    split <;> exact List.prefix_rfl

/-- **The dashboard shows the log without a gap,** in every run in which the server's steps are
    steady and no record is taken for another message: through lost connections and new ones, the
    lines are successive records, in order and each once.  When all that was sent on an open
    connection has arrived, and with it a history, only records that are still being sent are
    missing. -/
theorem viewer_lines {d : Desk ρ} (h : Reach (step cfg reading) Allowed start d)
    (hplain : ∀ r ∈ d.server.emitted, reading r = .entry) :
    d.viewer.logLines <:+: d.server.emitted ∧
      ∀ k lines s, d.viewer.socket = some k → (d.server.conns k).connected = true →
        d.viewer.received k = (d.server.conns k).traffic.length →
        .history lines s ∈ (d.server.conns k).traffic →
        ∃ i j, d.viewer.logLines = (d.server.emitted.take j).drop i ∧
          ∀ n, j ≤ n → n < d.server.emitted.length → (d.server.sends n).ended = false := by
  -- records stay, so that they were plain in every state before
  have hshows : (∀ r ∈ d.server.emitted, reading r = .entry) → Shows cfg d := by
    refine h.invariant (I := fun d => (∀ r ∈ d.server.emitted, reading r = .entry) → Shows cfg d)
      (fun _ => shows_start cfg) fun d e hd he hplain => ?_
    have hbefore : ∀ r ∈ d.server.emitted, reading r = .entry := fun r hr =>
      hplain r ((emitted_step reading d e).subset hr)
    exact (hd hbefore).step reading hbefore e he
  replace hshows := hshows hplain
  refine ⟨hshows.part, fun k lines s hsocket hconnected hreceived hmem => ?_⟩
  obtain ⟨old, -, hlines⟩ := hshows.lines
  rw [hsocket] at hlines
  dsimp only at hlines
  rw [hreceived, List.take_length] at hlines
  rcases shown_cases old (hshows.log k).records with
    ⟨-, hno⟩ | ⟨before, lines', s', after, he, hshown⟩
  · exact absurd hmem (hno lines s)
  · obtain ⟨hsegment, hsending⟩ :=
      hshows.stream.gapless k lines' s' (records after) ⟨before, after, he, rfl⟩
    exact ⟨s' - maxLines, s' + (records after).length, by rw [hlines, hshown, hsegment],
      hsending hconnected⟩

/-- A record, a connection that shows it and is lost, and another connection -/
theorem viewer_lines_again :
    let d := demoRun [.server (.emit "a"), .server (.send 0), .timer 0 0, .server (.connect 0),
      .server (.resume 0 .ok), .server (.resume 0 (.text ['t'])), .server (.resume 0 .ok),
      .message 0, .message 0, .message 0, .closed 0, .timer 0 1]
    d.viewer.socket = some 1 ∧ d.viewer.logLines = ["a"] ∧
      d.viewer.logLines <:+: d.server.emitted := by
  intro d
  have go : ∀ {d : Desk String} (e : Event String),
      Reach (step demo fun _ => .entry) Allowed start d → Allowed d e →
      Reach (step demo fun _ => .entry) Allowed start (step demo (fun _ => .entry) e d) :=
    fun e h he => h.step e he
  have h₁ := go (.server (.send 0)) (go (.server (.emit "a")) Reach.start trivial) fun _ =>
    ⟨nofun, fun _ k hc => by cases hc⟩
  have h₂ := go (.server (.connect 0)) (go (.timer 0 0) h₁ ⟨rfl, List.not_mem_nil⟩) trivial
  have h₃ :=
    go (.server (.resume 0 (.text ['t']))) (go (.server (.resume 0 .ok)) h₂ trivial) trivial
  have h₄ := go (.server (.resume 0 .ok)) h₃ fun _ hfalse => by cases hfalse
  have h₅ := go (.message 0) (go (.message 0) (go (.message 0) h₄ trivial) trivial) trivial
  have h₆ := go (.timer 0 1) (go (.closed 0) h₅ trivial) ⟨by decide, by decide⟩
  exact ⟨by decide, by decide, (viewer_lines _ h₆ fun _ _ => rfl).1⟩

end Desk

end Maubot.Management
