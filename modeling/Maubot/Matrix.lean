import Maubot.Errors

namespace Maubot

/-!
# Messages — answers to an event

`respond` of `matrix.py`, up to the call that sends the content.  Where replies are disabled on
the client, the sender of the event is named in front of the text instead.

* `parseFormatted` — the two forms of a text;
* `respond` — the content that is sent;
* `named_iff` — when the sender is named once in each of its forms.
-/

namespace MaubotMessageEvent

abbrev Text := List Char

/-- `escape` of Python's `html` -/
def escapeChar (c : Char) : Text :=
  if c = '&' then "&amp;".toList
  else if c = '<' then "&lt;".toList
  else if c = '>' then "&gt;".toList
  else if c = '"' then "&quot;".toList
  else if c = '\'' then "&#x27;".toList
  else [c]

def escape (text : Text) : Text := text.flatMap escapeChar

/-- `.replace("\n", "<br>")` -/
def breakLines (text : Text) : Text :=
  text.flatMap fun c => if c = '\n' then "<br>".toList else [c]

/-- A message content; `R` is what else it has, such as its relations to other events. -/
structure Content (R : Type) where
  msgtype       : String
  body          : Text
  format        : Option String := none
  formattedBody : Option Text := none
  rest          : R

/-- What mautrix does. -/
structure Mautrix (R V : Type) where
  /-- `markdown.render(message, allow_html=…)` -/
  render          : Text → Bool → Except PyExc Text
  /-- `MaubotHTMLParser().parse(html)` and its `text` -/
  parseText       : Text → Except PyExc Text
  /-- the relations of a content that is made from a text -/
  noRelations     : R
  setEdit         : Content R → Content R
  setThreadParent : Content R → Content R
  setReply        : Content R → Content R
  /-- `content[k] = v` -/
  setItem         : String × V → Content R → Content R

variable {R V : Type} (M : Mautrix R V)

/-- The plain form of an HTML text, which is cut off where both are too long for an event -/
def plainText (html : Text) : Except PyExc Text :=
  (M.parseText html).map fun text =>
    if text.length > 100 ∧ text.length + html.length > 40000 then
      text.take 100 ++ "[long message cut off]".toList
    else text

/-- `parse_formatted` -/
def parseFormatted (message : Text) (allowHtml renderMarkdown : Bool) :
    Except PyExc (Text × Text) :=
  if renderMarkdown then do
    let html ← M.render message allowHtml
    let text ← plainText M html
    pure (text, html)
  else if allowHtml then do
    let text ← plainText M message
    pure (text, message)
  else pure (message, escape message)

/-- `content: str | MessageEventContent` -/
inductive Given (R : Type)
  | text (s : Text)
  | content (c : Content R)

/-- The argument `reply` -/
inductive Reply
  | no
  | yes
  | force
  deriving DecidableEq, Repr

/-- The other arguments of `respond`, and what it asks the event for. -/
structure Arguments (V : Type) where
  markdown       : Bool := true
  allowHtml      : Bool := false
  reply          : Reply := .no
  inThread       : Option Bool := none
  edits          : Bool := false
  extraContent   : List (String × V) := []
  sender         : Text
  disableReply   : Bool
  /-- the event is in a thread -/
  threaded       : Bool := false

/-- The content before it gets relations and a name -/
def toContent (given : Given R) (a : Arguments V) : Except PyExc (Content R) :=
  match given with
  | .content c => pure c
  | .text s    =>
    let content : Content R := { msgtype := "m.notice", body := s, rest := M.noRelations }
    if a.allowHtml || a.markdown then do
      let (body, formattedBody) ← parseFormatted M content.body a.allowHtml a.markdown
      pure { content with format := some "org.matrix.custom.html", body,
                          formattedBody := some formattedBody }
    else pure content

/-- `a or b`, for a text -/
def orElse (a : Option Text) (b : Text) : Text :=
  match a with
  | none   => b
  | some t => if t.isEmpty then b else t

/-- The pill of a user -/
def pill (sender : Text) : Text :=
  "<a href=\"https://matrix.to/#/".toList ++ sender ++ "\">".toList ++ sender ++ "</a>".toList

/-- The sender in front of both forms, one after the other -/
def nameSender (sender : Text) (content : Content R) : Content R :=
  let content := { content with body := sender ++ ": ".toList ++ content.body }
  let fmtBody := orElse content.formattedBody (breakLines (escape content.body))
  { content with formattedBody := some (pill sender ++ ": ".toList ++ fmtBody) }

/-- `content.set_thread_parent(self)`, where the answer belongs into a thread -/
def inThread (a : Arguments V) (content : Content R) : Content R :=
  if !a.edits && a.inThread ≠ some false && (a.inThread = some true || a.threaded) then
    M.setThreadParent content
  else content

/-- `respond`, up to the content that is sent -/
def respond (given : Given R) (a : Arguments V) : Except PyExc (Content R) := do
  let content ← toContent M given a
  let content := if a.edits then M.setEdit content else content
  let content := inThread M a content
  let content :=
    if a.reply ≠ .no ∧ a.edits = false then
      if a.reply ≠ .force ∧ a.disableReply then nameSender a.sender content
      else M.setReply content
    else content
  pure (a.extraContent.foldl (fun content item => M.setItem item content) content)

/-! ### The two forms of an answer -/

/-- The HTML form of a content: its `formatted_body`, or the escaped body with line breaks. -/
def htmlForm (content : Content R) : Text :=
  orElse content.formattedBody (breakLines (escape content.body))

/-- The sender is named once in both forms. -/
structure Named (sender : Text) (content sent : Content R) : Prop where
  body          : sent.body = sender ++ ": ".toList ++ content.body
  formattedBody : sent.formattedBody = some (pill sender ++ ": ".toList ++ htmlForm content)

/-- The answer is given with an HTML form that is not empty. -/
def HasHtml (given : Given R) (a : Arguments V) : Prop :=
  match given with
  | .content c => c.formattedBody.getD [] ≠ []
  | .text s    =>
    if a.markdown then ∀ html, M.render s a.allowHtml = .ok html → html ≠ []
    else a.allowHtml = true ∧ s ≠ []

variable {M} {given : Given R} {a : Arguments V} {content : Content R}

/-- A text that is not empty is taken, -/
theorem orElse_of_ne {t : Option Text} (h : t.getD [] ≠ []) (b : Text) :
    orElse t b = t.getD [] := by
  cases t with
  | none => exact absurd rfl h
  | some t =>
    cases t with
    | nil => exact absurd rfl h
    | cons c t => rfl

/-- and otherwise the other one. -/
theorem orElse_of_eq {t : Option Text} (h : t.getD [] = []) (b : Text) : orElse t b = b := by
  cases t with
  | none => rfl
  | some t =>
    obtain rfl : t = [] := h
    rfl

/-- Escaping goes over the parts of a text, -/
theorem escape_append (s t : Text) : escape (s ++ t) = escape s ++ escape t :=
  List.flatMap_append

/-- and so does breaking lines. -/
theorem breakLines_append (s t : Text) : breakLines (s ++ t) = breakLines s ++ breakLines t :=
  List.flatMap_append

/-- The form that is made from the body names the sender a second time. -/
theorem nameSender_formattedBody (sender : Text) (content : Content R) :
    (nameSender sender content).formattedBody =
      some (pill sender ++ ": ".toList ++ htmlForm content) ↔
        content.formattedBody.getD [] ≠ [] := by
  by_cases h : content.formattedBody.getD [] = []
  · refine iff_of_false (fun heq => ?_) (not_not.mpr h)
    unfold nameSender htmlForm at heq
    dsimp only at heq
    rw [orElse_of_eq h, orElse_of_eq h] at heq
    have hform := List.append_cancel_left (Option.some.inj heq)
    -- the name and the colon are there before the body
    have hlength := congrArg List.length hform
    rw [escape_append, escape_append, breakLines_append, breakLines_append] at hlength
    have hcolon : (breakLines (escape ": ".toList)).length = 2 := rfl
    simp only [List.length_append] at hlength
    omega
  · refine iff_of_true ?_ h
    unfold nameSender htmlForm
    dsimp only
    rw [orElse_of_ne h, orElse_of_ne h]

/-- The HTML form of a text that is parsed. -/
theorem parseFormatted_snd {s : Text} {allowHtml markdown : Bool} {r : Text × Text}
    (h : parseFormatted M s allowHtml markdown = .ok r) (hhtml : (allowHtml || markdown) = true) :
    if markdown then M.render s allowHtml = .ok r.2 else r.2 = s := by
  unfold parseFormatted at h
  cases markdown with
  -- the HTML form is the rendered one, if it can be rendered and read
  | true =>
    rw [if_pos rfl] at h ⊢
    cases hrender : M.render s allowHtml with
    | error e =>
      rw [hrender] at h
      cases h
    | ok html =>
      rw [hrender] at h
      change (do let text ← plainText M html; pure (text, html)) = Except.ok r at h
      cases htext : plainText M html with
      | error e =>
        rw [htext] at h
        cases h
      | ok text =>
        rw [htext] at h
        obtain rfl := Except.ok.inj h
        rfl
  -- without markdown it is the message itself
  | false =>
    obtain rfl : allowHtml = true := by simpa using hhtml
    rw [if_neg (by decide), if_pos rfl] at h
    rw [if_neg (by decide)]
    cases htext : plainText M s with
    | error e =>
      rw [htext] at h
      cases h
    | ok text =>
      rw [htext] at h
      obtain rfl := Except.ok.inj h
      rfl

/-- What the content is made from decides whether it has an HTML form. -/
theorem formattedBody_toContent (hcontent : toContent M given a = .ok content) :
    content.formattedBody.getD [] ≠ [] ↔ HasHtml M given a := by
  cases given with
  | content c =>
    obtain rfl := Except.ok.inj hcontent
    exact Iff.rfl
  -- a text gets an HTML form exactly if markdown or HTML is asked for
  | text s =>
    unfold toContent at hcontent
    unfold HasHtml
    dsimp only at hcontent ⊢
    by_cases hhtml : (a.allowHtml || a.markdown) = true
    · rw [if_pos hhtml] at hcontent
      cases hparse : parseFormatted M s a.allowHtml a.markdown with
      | error e =>
        rw [hparse] at hcontent
        cases hcontent
      | ok r =>
        rw [hparse] at hcontent
        obtain rfl := Except.ok.inj hcontent
        have hsnd := parseFormatted_snd hparse hhtml
        cases hm : a.markdown with
        | true =>
          rw [hm, if_pos rfl] at hsnd
          rw [if_pos rfl, hsnd]
          exact ⟨fun hne html heq => Except.ok.inj heq ▸ hne, fun h => h r.2 rfl⟩
        | false =>
          rw [hm, if_neg (by decide)] at hsnd
          rw [hm, Bool.or_false] at hhtml
          rw [if_neg (by decide), ← hsnd]
          exact ⟨fun hne => ⟨hhtml, hne⟩, fun h => h.2⟩
    · rw [if_neg hhtml] at hcontent
      obtain rfl := Except.ok.inj hcontent
      obtain ⟨hallow, hm⟩ : a.allowHtml = false ∧ a.markdown = false := by simpa using hhtml
      simp [hallow, hm]

/-- Both forms are as they were. -/
def SameForms (c c' : Content R) : Prop := c'.body = c.body ∧ c'.formattedBody = c.formattedBody

/-- Items that leave the two forms leave them one after the other. -/
theorem sameForms_foldl {items : List (String × V)}
    (h : ∀ item ∈ items, ∀ c, SameForms c (M.setItem item c)) (c : Content R) :
    SameForms c (items.foldl (fun content item => M.setItem item content) c) := by
  induction items generalizing c with
  | nil => exact ⟨rfl, rfl⟩
  | cons item items ih =>
    obtain ⟨hbody, hformatted⟩ := h item List.mem_cons_self c
    obtain ⟨hbody', hformatted'⟩ :=
      ih (fun i hi => h i (List.mem_cons_of_mem _ hi)) (M.setItem item c)
    exact ⟨hbody'.trans hbody, hformatted'.trans hformatted⟩

/-- **Who is answered.**  The sender is named once in each of the two forms exactly if the answer
    is given with an HTML form. -/
theorem named_iff (hthread : ∀ c, SameForms c (M.setThreadParent c))
    (hextra : ∀ item ∈ a.extraContent, ∀ c, SameForms c (M.setItem item c))
    (hreply : a.reply = .yes) (hdisable : a.disableReply = true) (hedits : a.edits = false)
    (hcontent : toContent M given a = .ok content) :
    ∃ sent, respond M given a = .ok sent ∧ (Named a.sender content sent ↔ HasHtml M given a) := by
  have hin : SameForms content (inThread M a content) := by
    unfold inThread
    split
    · exact hthread content
    · exact ⟨rfl, rfl⟩
  have hsent : respond M given a =
      .ok (a.extraContent.foldl (fun content item => M.setItem item content)
        (nameSender a.sender (inThread M a content))) := by
    unfold respond
    rw [hcontent]
    simp only [hreply, hdisable, hedits, Bool.false_eq_true, if_false]
    rfl
  obtain ⟨hbody, hformatted⟩ := sameForms_foldl hextra (nameSender a.sender (inThread M a content))
  have hform : htmlForm (inThread M a content) = htmlForm content := by
    rw [htmlForm, htmlForm, hin.1, hin.2]
  have hnamed := nameSender_formattedBody a.sender (inThread M a content)
  rw [hin.2, hform, formattedBody_toContent hcontent, ← hformatted] at hnamed
  refine ⟨_, hsent, fun h => hnamed.mp h.formattedBody, fun h => ⟨?_, hnamed.mpr h⟩⟩
  rw [hbody, ← hin.1]
  rfl

namespace MatrixTest

/-- A text is a paragraph, and the text of a paragraph is what stands in it. -/
def mautrix : Mautrix Unit Text where
  render message _ := .ok ("<p>".toList ++ escape message ++ "</p>\n".toList)
  parseText html := .ok ((html.drop 3).dropLast.dropLast.dropLast.dropLast.dropLast)
  noRelations := ()
  setEdit content := content
  setThreadParent content := content
  setReply content := content
  setItem _ content := content

/-- An answer to a user, where replies are disabled -/
def reply (markdown : Bool) : Arguments Text where
  markdown := markdown
  reply := .yes
  sender := "@user:example.com".toList
  disableReply := true

end MatrixTest

open MatrixTest in
/-- A text with markdown -/
theorem named_iff_markdown : ∃ content sent,
    toContent mautrix (.text "hi".toList) (reply true) = .ok content ∧
    respond mautrix (.text "hi".toList) (reply true) = .ok sent ∧
    Named "@user:example.com".toList content sent := by
  have hsame : ∀ c : Content Unit, SameForms c c := fun _ => ⟨rfl, rfl⟩
  obtain ⟨content, hcontent⟩ :
      ∃ content, toContent mautrix (.text "hi".toList) (reply true) = .ok content := ⟨_, rfl⟩
  obtain ⟨sent, hsent, hiff⟩ := named_iff hsame (fun _ _ => hsame) rfl rfl rfl hcontent
  refine ⟨content, sent, hcontent, hsent, hiff.mpr fun html hhtml => ?_⟩
  obtain rfl := Except.ok.inj hhtml
  decide

open MatrixTest in
/-- The same text without markdown: the HTML form names the user twice. -/
theorem not_named_plain : ∃ content sent,
    toContent mautrix (.text "hi".toList) (reply false) = .ok content ∧
    respond mautrix (.text "hi".toList) (reply false) = .ok sent ∧
    sent.formattedBody = some (pill "@user:example.com".toList ++
      ": @user:example.com: hi".toList) ∧
    ¬ Named "@user:example.com".toList content sent := by
  refine ⟨_, _, rfl, rfl, rfl, fun h => ?_⟩
  exact absurd h.formattedBody (by decide)

end MaubotMessageEvent

end Maubot
