import Maubot.Handlers.Command
import Maubot.Instance.Operations
import Maubot.Lib.Scanner
import Maubot.Plugin.Script

namespace Maubot.Command

/-!
# Commands — passive handlers

A passive handler is called for the messages in which a regular expression matches.  A method
can be decorated several times.

* `Passive.value` — what is handed to the method;
* `Passive.decorate` — `passive(…)`, which combines a decorated method with a new handler;
* `covered_iff` — when the values say what was matched;
* `fan_out_iff` — when an event reaches all decorators of a method that it is for.
-/

open Prog

/-! ### Regular expressions -/

/-- A compiled regular expression, by its matches from a place on. -/
abbrev Pattern := Scanner Char Match Match.start Match.stop

/-- `match.pos` and `match.endpos`, the bounds of the search: it goes through the whole text. -/
def Match.pos (_ : Match) : Nat := 0

def Match.endpos (data : Text) (_ : Match) : Nat := data.length

/-- `regex.search(data)` -/
def Pattern.search (regex : Pattern) (data : Text) : Option Match :=
  Scanner.search regex data 0 false

/-- `regex.finditer(data)` -/
def Pattern.finditer (regex : Pattern) (data : Text) : List Match := Scanner.scan regex data

/-! ### One decorator -/

/-- An event; `msgtype` raises where its content has none. -/
structure Event (X : Type) where
  sender  : String
  type    : EventType
  msgtype : Except PyExc MessageType
  content : X

/-- The arguments of `passive(…)` -/
structure Passive (X : Type) where
  regex     : Pattern
  msgtypes  : List MessageType := [.text]
  field     : Event X → Except PyExc Text
  eventType : EventType := "m.room.message"
  multiple  : Bool := false

/-- What a handler gets for a match: a part of the text, and the groups. -/
abbrev MatchTuple := Text × List (Option Text)

inductive PassiveValue
  | single (t : MatchTuple)
  | many (ts : List MatchTuple)

/-- `(data[match.pos : match.endpos], *match.groups())` -/
def Match.tuple (data : Text) (m : Match) : MatchTuple :=
  (slice data m.pos (m.endpos data), m.groups)

/-- A call of the decorated method. -/
structure PassiveCall (X : Type) where
  passive : Passive X
  evt     : Event X
  val     : PassiveValue

/-- What an event does: calls of methods, and exceptions. -/
abbrev Handling (X α : Type) := Prog (List (PassiveCall X)) PyExc α

namespace Passive

variable {X : Type}

/-- `val`, if it counts as true -/
def value (d : Passive X) (data : Text) : Option PassiveValue :=
  if d.multiple then
    let val := (d.regex.finditer data).map (Match.tuple data)
    if val.isEmpty then none else some (.many val)
  else (d.regex.search data).map fun m => .single (m.tuple data)

/-- `msgtypes and evt.content.msgtype not in msgtypes` -/
def ignores (d : Passive X) (evt : Event X) : Except PyExc Bool :=
  if d.msgtypes.isEmpty then .ok false
  else evt.msgtype.map fun msgtype => decide (msgtype ∉ d.msgtypes)

/-- `func(self, evt, val)`; `raises` is what the method raises. -/
def callFunc (raises : PassiveCall X → Option PyExc) (call : PassiveCall X) : Handling X Unit := do
  modify (· ++ [call])
  raiseIf (raises call)

/-- `replacement`.  An object that counts as false is not passed on, and the method misses an
    argument. -/
def replacement (d : Passive X) (raises : PassiveCall X → Option PyExc) (mxid : String)
    (self : Bool) (evt : Event X) : Handling X Unit :=
  if evt.sender = mxid then pure ()
  else do
    if ← outcome (d.ignores evt) then pure ()
    else do
      let data ← outcome (d.field evt)
      match d.value data with
      | none     => pure ()
      | some val =>
        if self then callFunc raises ⟨d, evt, val⟩
        else throw { cls := .typeError }

end Passive

/-! ### Decorated functions -/

/-- The attributes of a function. -/
structure Attrs where
  /-- `__mb_event_handler__` -/
  eventHandler : Bool := false
  /-- `__mb_event_types__` -/
  eventTypes   : Option (List EventType) := none
  deriving DecidableEq, Repr

/-- `event.on(event_type)` -/
def Attrs.on (eventType : EventType) (attrs : Attrs) : Attrs where
  eventHandler := true
  eventTypes :=
    match attrs.eventTypes with
    | some types => some (if eventType ∈ types then types else types ++ [eventType])
    | none       => some [eventType]

/-- A function, with the attributes of `__mb_passive_orig__` if there is one. -/
structure Function (X : Type) where
  run   : (mxid : String) → (self : Bool) → Event X → Handling X Unit
  attrs : Attrs := {}
  orig  : Option Attrs := none

namespace Passive

variable {X : Type} (raises : PassiveCall X → Option PyExc)

/-- The decorator.  `functools.wraps` copies the attributes of the method itself; both functions
    are run where there is one already, each to its end. -/
def decorate (d : Passive X) (func : Function X) : Function X :=
  let attrs := (func.orig.getD func.attrs).on d.eventType
  let orig := some (func.orig.getD func.attrs)
  match func.orig with
  | none   => { run := d.replacement raises, attrs, orig }
  | some _ =>
    { run := fun mxid self evt =>
        gather [func.run mxid self evt, d.replacement raises mxid self evt]
      attrs, orig }

/-- A method of a plugin with a stack of decorators, the innermost first. -/
def decorated (stack : List (Passive X)) : Function X :=
  stack.foldl (fun func d => d.decorate raises func) { run := fun _ _ _ => pure () }

end Passive

/-- The method as `dir(obj)` lists it. -/
def Function.attribute {X : Type} (func : Function X) (val : Ref) : Attribute where
  val := val
  eventTypes := if func.attrs.eventHandler then func.attrs.eventTypes.getD [] else []

/-! ### What is handed over -/

/-- The matches that a value is made of. -/
def PassiveValue.tuples : PassiveValue → List MatchTuple
  | .single t => [t]
  | .many ts  => ts

namespace Passive

variable {X : Type} {raises : PassiveCall X → Option PyExc} {mxid : String} {self : Bool}
  {d : Passive X} {evt : Event X} {data : Text}

/-- The matches that the method is called for: all of them, or the first one. -/
def found (d : Passive X) (data : Text) : List Match :=
  if d.multiple then d.regex.finditer data else (d.regex.search data).toList

/-- A value with a text for each match that is found. -/
def valueOf (d : Passive X) (tuples : List MatchTuple) : Option PassiveValue :=
  if d.multiple then if tuples.isEmpty then none else some (.many tuples)
  else tuples.head?.map .single

/-- The value that is given comes from the matches that are found. -/
theorem value_eq (d : Passive X) (data : Text) :
    d.value data = d.valueOf ((d.found data).map (Match.tuple data)) := by
  unfold value valueOf found
  split
  · rfl
  · cases d.regex.search data <;> rfl

/-- The tuple that says what was matched: the part of the text, and the groups. -/
def covered (data : Text) (m : Match) : MatchTuple := (slice data m.start m.stop, m.groups)

/-- They are successive. -/
theorem successive_found (d : Passive X) (data : Text) :
    Scanner.Successive Match.start Match.stop data.length 0 false (d.found data) := by
  unfold found
  split
  · exact Scanner.successive_scanFrom d.regex data 0 false
  · cases h : d.regex.search data with
    | none => exact .nil
    | some m =>
      exact .cons (d.regex.pos_le h) (d.regex.start_le h) (d.regex.stop_le h)
        (fun hno => absurd hno (by decide)) .nil

/-- Different matches give different values. -/
theorem valueOf_inj {ts ts' : List MatchTuple}
    (hsingle : d.multiple = false → ts.length ≤ 1 ∧ ts'.length ≤ 1) :
    d.valueOf ts = d.valueOf ts' ↔ ts = ts' := by
  refine ⟨fun h => ?_, congrArg _⟩
  unfold valueOf at h
  cases hm : d.multiple with
  | true =>
    rw [if_pos hm, if_pos hm] at h
    cases ts with
    | nil =>
      cases ts' with
      | nil => rfl
      | cons t' ts' => cases h
    | cons t ts =>
      cases ts' with
      | nil => cases h
      | cons t' ts' =>
        have hmany := PassiveValue.many.inj (Option.some.inj h)
        exact hmany
  | false =>
    have hno : ¬ d.multiple = true := by rw [hm]; decide
    rw [if_neg hno, if_neg hno] at h
    obtain ⟨hlen, hlen'⟩ := hsingle hm
    -- at most one match each
    match ts, ts' with
    | [], []      => rfl
    | [], _ :: _  => cases h
    | _ :: _, []  => cases h
    | [t], [t']   =>
      have ht := PassiveValue.single.inj (Option.some.inj h)
      rw [ht]
    | [_], _ :: _ :: _    => simp at hlen'
    | _ :: _ :: _, _ :: _ => simp at hlen

/-- The first elements of the tuples that calls of the method get. -/
def received (calls : List (PassiveCall X)) : List Text :=
  calls.flatMap fun call => call.val.tuples.map Prod.fst

/-- The method gets a tuple for each match, which says what was matched: together with the parts
    of the text between the matches, their first elements make up the text. -/
structure TellsMatches (d : Passive X) (evt : Event X) (data : Text)
    (calls : List (PassiveCall X)) : Prop where
  values : calls = (d.valueOf ((d.found data).map (covered data))).toList.map (⟨d, evt, ·⟩)
  whole : Scanner.weave Match.start Match.stop data 0 ((d.found data).zip (received calls)) = data

/-- The calls that a handler makes for an event from somebody else. -/
theorem exec_replacement_ok (raises : PassiveCall X → Option PyExc) (hsender : evt.sender ≠ mxid)
    (hadmits : d.ignores evt = .ok false) (hfield : d.field evt = .ok data) :
    ((d.replacement raises mxid true evt).exec []).2 =
      (d.value data).toList.map (⟨d, evt, ·⟩) := by
  unfold replacement
  rw [if_neg hsender, hadmits, exec_bind_ok (exec_outcome _ _)]
  simp only [Bool.false_eq_true, if_false]
  rw [hfield, exec_bind_ok (exec_outcome _ _)]
  cases d.value data with
  | none => rfl
  | some val =>
    simp only [if_true, callFunc, exec_modify_bind]
    cases raises ⟨d, evt, val⟩ <;> rfl

/-- So the function receives what was found. -/
theorem received_valueOf (hsingle : d.multiple = false → (d.found data).length ≤ 1)
    (f : Match → MatchTuple) :
    received ((d.valueOf ((d.found data).map f)).toList.map fun val =>
        (⟨d, evt, val⟩ : PassiveCall X)) =
      (d.found data).map fun m => (f m).1 := by
  unfold valueOf received
  cases hm : d.multiple with
  | true =>
    rw [if_pos rfl]
    cases d.found data with
    | nil => rfl
    | cons m ms => simp [PassiveValue.tuples]
  | false =>
    have hlen := hsingle hm
    match hfound : d.found data, hlen with
    | [], _   => rfl
    | [m], _  => rfl

/-- **What a passive handler is told.**  The tuples say what was matched exactly if nothing but
    the whole text is. -/
theorem covered_iff (raises : PassiveCall X → Option PyExc) (hsender : evt.sender ≠ mxid)
    (hadmits : d.ignores evt = .ok false) (hfield : d.field evt = .ok data) :
    d.TellsMatches evt data ((d.replacement raises mxid true evt).exec []).2 ↔
      d.found data = [] ∨ ∃ m, d.found data = [m] ∧ m.start = 0 ∧ m.stop = data.length := by
  have hsingle : d.multiple = false → (d.found data).length ≤ 1 := by
    intro hm
    rw [found, if_neg (by rw [hm]; decide)]
    cases d.regex.search data <;> simp
  have hcalls := exec_replacement_ok raises hsender hadmits hfield
  -- the tuples say the same where each match is of the whole text
  have hall : (d.found data).map (Match.tuple data) = (d.found data).map (covered data) ↔
      ∀ m ∈ d.found data, m.start = 0 ∧ m.stop = data.length := by
    rw [List.map_inj_left]
    refine forall₂_congr fun m hm => ?_
    obtain ⟨hle, hlen⟩ := (successive_found d data).bounds m hm
    have hself : slice data m.pos (m.endpos data) = data :=
      (slice_eq_self (Nat.zero_le _) (Nat.le_refl _)).mpr ⟨rfl, rfl⟩
    rw [Match.tuple, covered, hself, Prod.mk.injEq, eq_comm]
    rw [slice_eq_self hle hlen]
    simp
  constructor
  · intro h
    have heq := h.values
    rw [hcalls, value_eq] at heq
    have hvalue : d.valueOf ((d.found data).map (Match.tuple data)) =
        d.valueOf ((d.found data).map (covered data)) := by
      revert heq
      cases d.valueOf ((d.found data).map (Match.tuple data)) <;>
        cases d.valueOf ((d.found data).map (covered data)) <;> simp
    rw [valueOf_inj fun hm => by simp [hsingle hm], hall] at hvalue
    cases hfound : d.found data with
    | nil => exact .inl rfl
    | cons m ms =>
      rw [hfound] at hvalue
      -- a match behind one of the whole text would have to begin behind its end
      have hsucc := successive_found d data
      rw [hfound] at hsucc
      obtain rfl := hsucc.eq_singleton hvalue
      exact .inr ⟨m, rfl, hvalue m List.mem_cons_self⟩
  · intro h
    have hwhole : ∀ m ∈ d.found data, m.start = 0 ∧ m.stop = data.length := by
      intro m hm
      rcases h with hnil | ⟨m', hfound, hm'⟩
      · rw [hnil] at hm
        cases hm
      · rw [hfound] at hm
        obtain rfl := List.mem_singleton.mp hm
        exact hm'
    have hvalue : d.value data = d.valueOf ((d.found data).map (covered data)) := by
      rw [value_eq, hall.mpr hwhole]
    rw [hcalls, hvalue]
    refine ⟨rfl, ?_⟩
    -- the matches are successive, so with the text between them they make the whole
    have hzip : (d.found data).zip ((d.found data).map fun m => (covered data m).1) =
        (d.found data).map fun m => (m, slice data m.start m.stop) := by
      conv_lhs => rw [← List.map_id (d.found data), List.map_map, List.zip_map']
      rfl
    rw [received_valueOf hsingle, hzip]
    exact Scanner.weave_slices (successive_found d data)

/-! ### Stacks of decorators -/

/-- What the method gets for an event that passes the checks and in which something matches. -/
def gives (d : Passive X) (evt : Event X) : Option PassiveValue :=
  match d.ignores evt, d.field evt with
  | .ok false, .ok data => d.value data
  | _, _                => none

/-- A program makes these calls, however it ends. -/
def Makes (m : Handling X Unit) (calls : List (PassiveCall X)) : Prop :=
  ∀ log, (m.exec log).2 = log ++ calls

/-- No handlers make no calls. -/
theorem makes_gather_nil : Makes (gather [] : Handling X Unit) [] := fun log =>
  (List.append_nil log).symm

/-- Handlers side by side make the calls of each. -/
theorem makes_gather_cons {m : Handling X Unit} {ms : List (Handling X Unit)}
    {calls calls' : List (PassiveCall X)} (hm : Makes m calls) (hms : Makes (gather ms) calls') :
    Makes (gather (m :: ms)) (calls ++ calls') := by
  intro log
  rw [exec_gather_cons_snd, hm, hms, List.append_assoc]

/-- The decorated function calls for each value, and for others' messages only if it is to. -/
theorem makes_replacement (raises : PassiveCall X → Option PyExc) (self : Bool)
    (hsender : evt.sender ≠ mxid) :
    Makes (d.replacement raises mxid self evt)
      (if self then (d.gives evt).toList.map (⟨d, evt, ·⟩) else []) := by
  intro log
  unfold replacement gives
  rw [if_neg hsender, exec_bind, exec_outcome]
  rcases d.ignores evt with e | b
  · cases self <;> simp
  cases b with
  | true => cases self <;> simp
  | false =>
    simp only [Bool.false_eq_true, if_false]
    rw [exec_bind, exec_outcome]
    rcases d.field evt with e | data
    · cases self <;> simp
    · dsimp only
      cases d.value data with
      | none => cases self <;> simp
      | some val =>
        cases self with
        | false => simp
        | true =>
          simp only [if_true, callFunc, exec_modify_bind]
          cases raises ⟨d, evt, val⟩ <;> rfl

/-- The last decorator is outermost. -/
theorem decorated_concat (stack : List (Passive X)) (d : Passive X) :
    decorated raises (stack ++ [d]) = d.decorate raises (decorated raises stack) := by
  rw [decorated, List.foldl_append]
  rfl

/-- The attributes of the plain method stay empty below the decorators. -/
theorem orig_decorated (raises : PassiveCall X → Option PyExc) (stack : List (Passive X)) :
    (decorated raises stack).orig.getD (decorated raises stack).attrs = {} := by
  induction stack using List.reverseRecOn with
  | nil => rfl
  | append_singleton stack d ih =>
    rw [decorated_concat]
    unfold decorate
    split <;> exact ih

/-- The outermost decorator decides on the event type. -/
theorem attrs_decorated (stack : List (Passive X)) (d : Passive X) :
    (decorated raises (stack ++ [d])).attrs = ⟨true, some [d.eventType]⟩ := by
  have horig := orig_decorated raises stack
  rw [decorated_concat]
  unfold decorate
  rw [horig]
  split <;> rfl

/-- **Fan-out.**  Whatever their event types are, all decorators are asked. -/
theorem makes_decorated (raises : PassiveCall X → Option PyExc) (self : Bool)
    (hsender : evt.sender ≠ mxid) (stack : List (Passive X)) :
    Makes ((decorated raises stack).run mxid self evt)
      (if self then stack.filterMap fun d => (d.gives evt).map (⟨d, evt, ·⟩) else []) := by
  induction stack using List.reverseRecOn with
  | nil =>
    intro log
    cases self <;> exact (List.append_nil log).symm
  | append_singleton stack d ih =>
    have hd := makes_replacement (d := d) raises self hsender
    rw [decorated_concat]
    unfold decorate
    cases horig : (decorated raises stack).orig with
    | none =>
      -- the first decorator
      obtain rfl : stack = [] := by
        rcases List.eq_nil_or_concat stack with rfl | ⟨front, last, rfl⟩
        · rfl
        · rw [List.concat_eq_append, decorated_concat] at horig
          unfold decorate at horig
          split at horig <;> cases horig
      cases self with
      | false => exact hd
      | true =>
        cases hgives : d.gives evt <;> simpa [hgives] using hd
    | some orig =>
      have hboth := makes_gather_cons ih (makes_gather_cons hd makes_gather_nil)
      rw [List.append_nil] at hboth
      cases self with
      | false => exact hboth
      | true =>
        cases hgives : d.gives evt <;> simpa [hgives] using hboth

end Passive

/-! ### Events of a client -/

/-- `EventType.ALL` -/
def allEvents : EventType := "__ALL__"

/-- A handler that is registered for a type is called for events of the type, or for all. -/
def Covers (registered type : EventType) : Prop := registered = type ∨ registered = allEvents

instance (registered type : EventType) : Decidable (Covers registered type) := by
  unfold Covers; infer_instance

/-- What an event does to one method: it is called for each entry of the client that is for it. -/
def dispatchTo {X : Type} (entries : List (EventType × Handler)) (val : Ref)
    (run : Event X → Handling X Unit) (evt : Event X) : Handling X Unit :=
  gather ((entries.filter fun h => h.2 = .plugin val ∧ Covers h.1 evt.type).map fun _ => run evt)

namespace Passive

variable {X L : Type} {raises : PassiveCall X → Option PyExc} {mxid : String} {self : Bool}
  {evt : Event X} {stack : List (Passive X)} {w w' : World L} {p val : Ref} {obj : List Attribute}

/-- The event handlers of the plugin's client. -/
def entriesOf (w : World L) (p : Ref) : List (EventType × Handler) :=
  w.eventHandlers.get (w.matrixClients.get (w.plugins.get p).client).eventHandlers

/-- Exactly one call for each decorator that is for the type of the event, whose message types
    admit it and whose regular expression matches, and no other call. -/
def FansOut (stack : List (Passive X)) (evt : Event X) (calls : List (PassiveCall X)) : Prop :=
  calls.Perm ((stack.filter fun d => Covers d.eventType evt.type).filterMap fun d =>
    (d.gives evt).map (⟨d, evt, ·⟩))

/-- The event types that a value is registered for by a script. -/
theorem events_attributeScript (webapp : Bool) (a : Attribute) :
    Plugin.events (Plugin.attributeScript webapp a) =
      if a.gettable then a.eventTypes.map (·, a.val) else [] := by
  have hroutes (handlers : List WebHandler) :
      Plugin.events (handlers.flatMap (Plugin.webHandlerScript a.val)) = [] := by
    induction handlers with
    | nil => rfl
    | cons h handlers ih =>
      rw [List.flatMap_cons, Plugin.events_append, ih]
      unfold Plugin.webHandlerScript
      cases h.refused <;> rfl
  have htypes (types : List EventType) :
      Plugin.events (types.map (.event · a.val)) = types.map (·, a.val) := by
    induction types with
    | nil => rfl
    | cons t types ih => rw [List.map_cons, Plugin.events_event, ih, List.map_cons]
  unfold Plugin.attributeScript
  split
  · rw [Plugin.events_append, htypes]
    split
    · rw [hroutes, List.append_nil]
    · rw [Plugin.events_nil, List.append_nil]
  · rfl

/-- The handlers of one function are those of its attributes. -/
theorem filter_events (webapp : Bool) (val : Ref) (obj : List Attribute) :
    (Plugin.events (obj.flatMap (Plugin.attributeScript webapp))).filter (fun h => h.2 = val) =
      Plugin.events
        ((obj.filter fun a => a.val = val).flatMap (Plugin.attributeScript webapp)) := by
  induction obj with
  | nil => rfl
  | cons a obj ih =>
    rw [List.flatMap_cons, Plugin.events_append, List.filter_append, ih, events_attributeScript]
    by_cases ha : a.val = val
    · rw [List.filter_cons_of_pos (by simpa using ha), List.flatMap_cons, Plugin.events_append,
        events_attributeScript]
      congr 1
      rw [List.filter_eq_self]
      intro h hh
      split at hh
      · obtain ⟨t, -, rfl⟩ := List.mem_map.mp hh
        simpa using ha
      · cases hh
    · rw [List.filter_cons_of_neg (by simpa using ha)]
      have hnone : (if a.gettable = true then a.eventTypes.map (·, a.val) else []).filter
          (fun h => h.2 = val) = [] := by
        rw [List.filter_eq_nil_iff]
        intro h hh
        split at hh
        · obtain ⟨t, -, rfl⟩ := List.mem_map.mp hh
          simpa using ha
        · cases hh
      rw [hnone, List.nil_append]

/-- **What is registered for a method** that an object has under one name. -/
theorem entries_of_registered (hfresh : ∀ h ∈ entriesOf w p, h.2 ≠ .plugin val)
    {func : Function X} (hmethod : obj.filter (fun a => a.val = val) = [func.attribute val])
    (hreg : (Plugin.registerHandlerClass p obj).exec w = (.ok (), w')) :
    (entriesOf w' p).filter (fun h => h.2 = .plugin val) =
      (func.attribute val).eventTypes.map (·, .plugin val) := by
  obtain ⟨w₁, hexec, hw₁⟩ :=
    Plugin.performs_registerHandlerClass obj w rfl
  obtain ⟨hending, rfl⟩ := Prod.mk.inj (hexec.symm.trans hreg)
  have hnone : Plugin.raised (obj.flatMap
      (Plugin.attributeScript (w.plugins.get p).webapp.isSome)) = none := by
    unfold Plugin.ending at hending
    split at hending
    · assumption
    · cases hending
  rw [Plugin.done_of_raised_none hnone] at hw₁
  -- the new entries come behind those that the client had
  have hclient : (w₁.matrixClients.get (w₁.plugins.get p).client).eventHandlers =
      (w.matrixClients.get (w.plugins.get p).client).eventHandlers := by
    rw [hw₁.matrixClients, hw₁.plugin]
  have hentries := hw₁.handlers (w.matrixClients.get (w.plugins.get p).client).eventHandlers
  rw [if_pos rfl] at hentries
  have hold : (entriesOf w p).filter (fun h => h.2 = .plugin val) = [] := by
    rw [List.filter_eq_nil_iff]
    intro h hh
    simpa using hfresh h hh
  rw [entriesOf, hclient, hentries, List.filter_append]
  refine (congrArg (· ++ _) hold).trans ?_
  have hplugin : (fun h : EventType × Ref => decide ((Plugin.handlerEntry h).2 = .plugin val)) =
      fun h => decide (h.2 = val) := by
    funext h
    simp [Plugin.handlerEntry]
  have hfilter : ((Plugin.events (obj.flatMap
      (Plugin.attributeScript (w.plugins.get p).webapp.isSome))).map Plugin.handlerEntry).filter
        (fun h => h.2 = .plugin val) =
      ((Plugin.events (obj.flatMap
        (Plugin.attributeScript (w.plugins.get p).webapp.isSome))).filter
          (fun h => h.2 = val)).map Plugin.handlerEntry := by
    rw [List.filter_map, ← hplugin]
    rfl
  have hgettable : (func.attribute val).gettable = true := rfl
  rw [List.nil_append, hfilter, filter_events, hmethod, List.flatMap_cons, List.flatMap_nil,
    List.append_nil, events_attributeScript, if_pos hgettable, List.map_map]
  rfl

/-- The outermost decorator is for events of the type. -/
def Routed (stack : List (Passive X)) (type : EventType) : Prop :=
  ∃ d, stack.getLast? = some d ∧ Covers d.eventType type

/-- What an event does to a decorated method, once that is registered. -/
def onEvent (stack : List (Passive X)) (raises : PassiveCall X → Option PyExc) (self : Bool)
    (w : World L) (p val : Ref) (evt : Event X) : List (PassiveCall X) :=
  let mxid := (w.matrixClients.get (w.plugins.get p).client).mxid
  ((dispatchTo (entriesOf w p) val ((decorated raises stack).run mxid self) evt).exec []).2

/-- So an event leads to the calls of the function's decorators. -/
theorem makes_onEvent (self : Bool)
    (hsender : evt.sender ≠ (w'.matrixClients.get (w'.plugins.get p).client).mxid)
    (hfresh : ∀ h ∈ entriesOf w p, h.2 ≠ .plugin val)
    (hmethod : obj.filter (fun a => a.val = val) = [(decorated raises stack).attribute val])
    (hreg : (Plugin.registerHandlerClass p obj).exec w = (.ok (), w')) :
    (self = true ∧ Routed stack evt.type ∧ onEvent stack raises self w' p val evt =
      stack.filterMap fun d => (d.gives evt).map (⟨d, evt, ·⟩)) ∨
    ¬ (self = true ∧ Routed stack evt.type) ∧ onEvent stack raises self w' p val evt = [] := by
  have hentries := entries_of_registered hfresh hmethod hreg
  have hrun := makes_decorated raises self hsender stack
  have hfor : (entriesOf w' p).filter (fun h => h.2 = .plugin val ∧ Covers h.1 evt.type) =
      (((decorated raises stack).attribute val).eventTypes.map (·, Handler.plugin val)).filter
        fun h => Covers h.1 evt.type := by
    rw [← hentries, List.filter_filter]
    refine List.filter_congr fun h _ => ?_
    rw [Bool.decide_and, Bool.and_comm]
  unfold onEvent dispatchTo
  dsimp only
  rw [hfor]
  -- only the outermost decorator says for which type the method is registered
  rcases List.eq_nil_or_concat stack with rfl | ⟨front, d, rfl⟩
  · refine .inr ⟨?_, rfl⟩
    rintro ⟨-, d, hlast, -⟩
    cases hlast
  · rw [List.concat_eq_append] at hrun ⊢
    have htypes : ((decorated raises (front ++ [d])).attribute val).eventTypes = [d.eventType] := by
      rw [Function.attribute, attrs_decorated]
      rfl
    have hrouted : Routed (front ++ [d]) evt.type ↔ Covers d.eventType evt.type := by
      simp [Routed]
    rw [htypes, hrouted, List.map_singleton]
    by_cases hcovers : Covers d.eventType evt.type
    · have hone := makes_gather_cons hrun makes_gather_nil []
      rw [List.filter_cons_of_pos (by simpa using hcovers), List.filter_nil, List.map_singleton]
      rw [List.append_nil, List.nil_append] at hone
      cases self with
      | true => exact .inl ⟨rfl, hcovers, hone⟩
      | false => exact .inr ⟨fun h => Bool.false_ne_true h.1, hone⟩
    · rw [List.filter_cons_of_neg (by simpa using hcovers), List.filter_nil, List.map_nil]
      exact .inr ⟨fun h => hcovers h.2, rfl⟩

/-- **Fan-out of an event.**  It reaches the decorators that it is for exactly if each one in
    which it matches is for its type if and only if the outermost one is, and the object does not
    count as false. -/
theorem fan_out_iff (raises : PassiveCall X → Option PyExc)
    (hsender : evt.sender ≠ (w'.matrixClients.get (w'.plugins.get p).client).mxid)
    (hfresh : ∀ h ∈ entriesOf w p, h.2 ≠ .plugin val)
    (hmethod : obj.filter (fun a => a.val = val) = [(decorated raises stack).attribute val])
    (hreg : (Plugin.registerHandlerClass p obj).exec w = (.ok (), w')) :
    FansOut stack evt (onEvent stack raises self w' p val evt) ↔
      ∀ d ∈ stack, (d.gives evt).isSome = true →
        (Covers d.eventType evt.type ↔ self = true ∧ Routed stack evt.type) := by
  have hmem : ∀ (ds : List (Passive X)) d (val : PassiveValue), d ∈ ds → d.gives evt = some val →
      (⟨d, evt, val⟩ : PassiveCall X) ∈ ds.filterMap fun d => (d.gives evt).map (⟨d, evt, ·⟩) := by
    intro ds d val hd hval
    exact List.mem_filterMap.mpr ⟨d, hd, by rw [hval]; rfl⟩
  have hpassive : ∀ (ds : List (Passive X)) (call : PassiveCall X),
      call ∈ (ds.filterMap fun d => (d.gives evt).map (⟨d, evt, ·⟩)) → call.passive ∈ ds := by
    intro ds call hcall
    obtain ⟨d, hd, heq⟩ := List.mem_filterMap.mp hcall
    obtain ⟨val, -, rfl⟩ := Option.map_eq_some_iff.mp heq
    exact hd
  rcases makes_onEvent self hsender hfresh hmethod hreg with
    ⟨hself, hrouted, hcalls⟩ | ⟨hno, hcalls⟩
  · rw [hcalls]
    constructor
    · intro hperm d hd hsome
      obtain ⟨val, hval⟩ := Option.isSome_iff_exists.mp hsome
      have hcall := (hperm.mem_iff).mp (hmem stack d val hd hval)
      have hfor := (List.mem_filter.mp (hpassive _ _ hcall)).2
      exact ⟨fun _ => ⟨hself, hrouted⟩, fun _ => of_decide_eq_true hfor⟩
    · intro h
      -- all decorators in which it matches are for the event
      have hall : (stack.filter fun d => Covers d.eventType evt.type).filterMap
          (fun d => (d.gives evt).map (⟨d, evt, ·⟩ : PassiveValue → PassiveCall X)) =
          stack.filterMap fun d => (d.gives evt).map (⟨d, evt, ·⟩) := by
        rw [List.filterMap_filter]
        refine List.filterMap_congr fun d hd => ?_
        split
        · rfl
        · next hcovers =>
          cases hgives : d.gives evt with
          | none => rfl
          | some val =>
            have hyes := (h d hd (by rw [hgives]; rfl)).mpr ⟨hself, hrouted⟩
            exact absurd (decide_eq_true hyes) hcovers
      unfold FansOut
      rw [hall]
  -- nothing is called, so nothing may match that is for the event
  · rw [hcalls]
    constructor
    · intro hperm d hd hsome
      obtain ⟨val, hval⟩ := Option.isSome_iff_exists.mp hsome
      refine ⟨fun hcovers => ?_, fun h => absurd h hno⟩
      have hcall := hmem (stack.filter fun d => Covers d.eventType evt.type) d val
        (List.mem_filter.mpr ⟨hd, decide_eq_true hcovers⟩) hval
      cases (hperm.mem_iff).mpr hcall
    · intro h
      have hnone : (stack.filter fun d => Covers d.eventType evt.type).filterMap
          (fun d => (d.gives evt).map (⟨d, evt, ·⟩ : PassiveValue → PassiveCall X)) = [] := by
        rw [List.filterMap_eq_nil_iff]
        intro d hd
        obtain ⟨hd, hcovers⟩ := List.mem_filter.mp hd
        cases hgives : d.gives evt with
        | none => rfl
        | some val =>
          exact absurd ((h d hd (by rw [hgives]; rfl)).mp (of_decide_eq_true hcovers)) hno
      unfold FansOut
      rw [hnone]

end Passive

/-! ### A letter -/

namespace PassiveTest

/-- `re.compile("a")`, for a letter -/
def letter (c : Char) : Pattern where
  search text pos _ :=
    ((text.drop pos).findIdx? (· = c)).map fun i => ⟨pos + i, pos + i + 1, []⟩
  pos_le {text pos advance m} h := by
    obtain ⟨i, -, rfl⟩ := Option.map_eq_some_iff.mp h
    exact Nat.le_add_right pos i
  start_le {text pos advance m} h := by
    obtain ⟨i, -, rfl⟩ := Option.map_eq_some_iff.mp h
    exact Nat.le_succ _
  stop_le {text pos advance m} h := by
    obtain ⟨i, hi, rfl⟩ := Option.map_eq_some_iff.mp h
    obtain ⟨hlt, -⟩ := List.findIdx?_eq_some_iff_getElem.mp hi
    rw [List.length_drop] at hlt
    dsimp only
    omega
  advances {text pos m} h _ := by
    obtain ⟨i, -, rfl⟩ := Option.map_eq_some_iff.mp h
    dsimp only
    omega

/-- `@passive("a")`, for events that are their own text -/
def onLetter (c : Char) (eventType : EventType) : Passive String where
  regex := letter c
  field evt := .ok evt.content.toList
  eventType := eventType

/-- A message from somebody else -/
def message (body : String) : Event String where
  sender := "@user:example.com"
  type := "m.room.message"
  msgtype := .ok .text
  content := body

/-- A method with two decorators, for messages and for events of another type -/
def twoLetters (eventType : EventType) : List (Passive String) :=
  [onLetter 'a' "m.room.message", onLetter 'b' eventType]

/-- The object has only the method. -/
def object (stack : List (Passive String)) : List Attribute :=
  [(Passive.decorated (fun _ => none) stack).attribute 1]

def registered (stack : List (Passive String)) : World Unit :=
  ((Plugin.registerHandlerClass 0 (object stack)).exec InstanceTest.startup).2

end PassiveTest

open PassiveTest Passive in
/-- The whole message is matched. -/
theorem covered_iff_whole :
    (onLetter 'a' "m.room.message").TellsMatches (message "a") "a".toList
      (((onLetter 'a' "m.room.message").replacement (fun _ => none) "" true
        (message "a")).exec []).2 :=
  (covered_iff (fun _ => none) (by decide) rfl rfl).mpr (.inr ⟨⟨0, 1, []⟩, rfl, rfl, rfl⟩)

open PassiveTest Passive in
/-- One letter of the message is matched, and the handler gets the message. -/
theorem not_tellsMatches_part :
    ¬ (onLetter 'a' "m.room.message").TellsMatches (message "xax") "xax".toList
      (((onLetter 'a' "m.room.message").replacement (fun _ => none) "" true
        (message "xax")).exec []).2 := by
  intro h
  have hreceived := congrArg received h.values
  exact absurd hreceived (by decide)

open PassiveTest Passive in
/-- Both decorators are for messages. -/
theorem fan_out_iff_messages :
    FansOut (twoLetters "m.room.message") (message "ab")
      (onEvent (twoLetters "m.room.message") (fun _ => none) true
        (registered (twoLetters "m.room.message")) 0 1 (message "ab")) := by
  have hreg : (Plugin.registerHandlerClass 0 (object (twoLetters "m.room.message"))).exec
      InstanceTest.startup = (.ok (), registered (twoLetters "m.room.message")) := rfl
  have hfresh : ∀ h ∈ entriesOf InstanceTest.startup 0, h.2 ≠ .plugin 1 := by
    intro h hh
    cases hh
  refine (fan_out_iff (fun _ => none) (by decide) hfresh rfl hreg).mpr fun d hd _ => ?_
  have hcovers : Covers d.eventType (message "ab").type := by
    rcases List.mem_pair.mp hd with rfl | rfl <;> exact .inl rfl
  exact ⟨fun _ => ⟨rfl, onLetter 'b' "m.room.message", rfl, .inl rfl⟩, fun _ => hcovers⟩

open PassiveTest Passive in
/-- The outermost decorator is for reactions: the one for messages is not asked about a message,
    but about a reaction. -/
theorem not_fansOut_mixed :
    ¬ FansOut (twoLetters "m.reaction") (message "a")
      (onEvent (twoLetters "m.reaction") (fun _ => none) true
        (registered (twoLetters "m.reaction")) 0 1 (message "a")) ∧
    ¬ FansOut (twoLetters "m.reaction") { message "a" with type := "m.reaction" }
      (onEvent (twoLetters "m.reaction") (fun _ => none) true
        (registered (twoLetters "m.reaction")) 0 1 { message "a" with type := "m.reaction" }) := by
  constructor
  · intro hperm
    exact absurd hperm.length_eq (by decide)
  · intro hperm
    exact absurd hperm.length_eq (by decide)

end Maubot.Command
