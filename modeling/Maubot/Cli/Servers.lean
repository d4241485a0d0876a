import Maubot.Lib.Dict
import Maubot.Management.Login

namespace Maubot.Servers

/-!
# The servers of the command line — `cli/config.py`, `cli/commands/login.py` and `cli/cliq/cliq.py`

`mbc` keeps its access tokens in a file.  A process reads the file once, when it starts, and a
login writes down all that its process has then.  Reading and saving are one step each: what a
process meets between the truncation of the file by another and the end of its writing is not
modelled.

* `loadConfig`, `saveConfig`, `getToken`, `login` — the file, and what a command makes of it;
* `World`, `Event`, `step` — processes side by side, and the servers that they log in to;
* `saved_logins` — the file has the logins that its writer had seen, and its own: all of them,
  exactly if no two of them overlapped;
* `command_answered` — which login a command uses, and whom the server takes it for.
-/

open Maubot.Configuration

/-- `config` -/
structure Settings where
  servers       : List (Text × Text) := []
  aliases       : List (Text × Text) := []
  defaultServer : Option Text := none
  deriving DecidableEq, Repr

/-- The JSON of the file, where keys may be missing -/
structure File where
  servers       : Option (List (Text × Text)) := none
  aliases       : Option (List (Text × Text)) := none
  defaultServer : Option Text := none
  deriving DecidableEq, Repr

/-- `load_config`; without a file the settings are those of the module. -/
def loadConfig (file : Option File) : Settings :=
  match file with
  | none   => {}
  | some f => ⟨f.servers.getD [], f.aliases.getD [], f.defaultServer⟩

/-- `save_config` -/
def saveConfig (c : Settings) : File := ⟨some c.servers, some c.aliases, c.defaultServer⟩

/-- Settings that were saved are loaded. -/
@[simp] theorem loadConfig_saveConfig (c : Settings) : loadConfig (some (saveConfig c)) = c := rfl

namespace Settings

variable (c : Settings)

/-- `get_default_server` -/
def getDefaultServer : Option Text × Option Text :=
  match c.defaultServer with
  | none        => (none, none)
  | some server => (some server, c.servers.lookup server)

/-- `get_token` -/
def getToken (server : Option Text) : Option Text × Option Text :=
  match server with
  | none | some []    => c.getDefaultServer
  | some (ch :: rest) =>
    let server := (c.aliases.lookup (ch :: rest)).getD (ch :: rest)
    (some server, c.servers.lookup server)

/-- `with_authenticated_http`: the server and the token of the requests, if the command runs -/
def withAuthenticatedHttp (server : Option Text) : Option (Text × Text) :=
  match c.getToken server with
  | (some server, some token) => if token = [] then none else some (server, token)
  | _                         => none

/-- `if not config["default_server"]` -/
def hasDefault : Bool :=
  match c.defaultServer with
  | none | some [] => false
  | some (_ :: _)  => true

/-- `login`, once the server has answered with a token -/
def login (server token aliasName : Text) : Settings where
  servers       := Items.set c.servers server token
  aliases       := if aliasName = [] then c.aliases else Items.set c.aliases aliasName server
  defaultServer := if c.hasDefault then c.defaultServer else some server

end Settings

/-! ### Processes and servers -/

/-- A login that was written down -/
structure Saved (A : Type) where
  server    : Text
  aliasName : Text
  grant     : Login.Grant A

/-- The options of `mbc login` -/
structure Args where
  server    : Text
  username  : Text
  password  : Text
  aliasName : Text

structure Process (A : Type) where
  config : Settings
  /-- the answer to the login, once it is there -/
  answer : Option (Args × Login.AuthResponse A) := none
  /-- not in the source: the logins in the file that the process read, how many had been saved,
      and what the server granted -/
  base   : List (Saved A)
  seen   : Nat
  grant  : Option (Login.Grant A) := none

structure World (A S : Type) where
  file       : Option File
  process    : Nat → Option (Process A) := fun _ => none
  server     : S → Login.World A
  /-- not in the source: all logins that were saved, those that the file comes from, and whether a
      process saved one after another that it had not read -/
  saves      : List (Saved A) := []
  chain      : List (Saved A) := []
  overlapped : Bool := false

inductive Event (A S : Type)
  | start (p : Nat)
  /-- The server answers the request of a login. -/
  | post (p : Nat) (args : Args) (now : Nat)
  /-- The process goes on with the answer, and ends. -/
  | finish (p : Nat)
  /-- Restarts, other logins and other requests -/
  | server (i : S) (e : Login.Event A)

variable {A S : Type} [DecidableEq S] (K : Login.Crypto A) (L : Library A)
  -- the server behind an URL, if a request gets there
  (host : Text → Option S)

namespace World

variable (w : World A S)

def setProcess (p : Nat) (q : Option (Process A)) : World A S :=
  { w with process := Function.update w.process p q }

def stepServer (i : S) (e : Login.Event A) : World A S :=
  { w with server := Function.update w.server i (Login.step K L e (w.server i)) }

/-- `sess.post(url, json=data)` -/
def post (p : Nat) (q : Process A) (args : Args) (now : Nat) : World A S :=
  match host args.server with
  | none   => w.setProcess p none
  | some i =>
    let body := some (Login.credentials args.username args.password)
    let s := (w.server i).server
    (w.stepServer K L i (.login now body)).setProcess p
      (some { q with answer := some (args, Login.login K L s now body)
                     grant  := Login.grantOf K L s now body })

/-- The rest of `login`; only an answer with a token is saved, at once. -/
def finish (p : Nat) (q : Process A) : World A S :=
  match q.answer with
  | some (args, .loggedIn token) =>
    let saved := q.grant.toList.map fun g => ⟨args.server, args.aliasName, g⟩
    { w.setProcess p none with
      file       := some (saveConfig (q.config.login args.server token args.aliasName))
      saves      := w.saves ++ saved
      chain      := q.base ++ saved
      overlapped := w.overlapped || q.seen != w.saves.length }
  | _ => w.setProcess p none

end World

def step (e : Event A S) (w : World A S) : World A S :=
  match e with
  | .start p         =>
    w.setProcess p
      (some { config := loadConfig w.file, base := w.chain, seen := w.saves.length })
  | .post p args now =>
    match w.process p with
    | some q => if q.answer.isNone then w.post K L host p q args now else w
    | none   => w
  | .finish p        =>
    match w.process p with
    | some q => w.finish p q
    | none   => w
  | .server i e      => w.stepServer K L i e

/-- No process saves a login after another that it has not read. -/
def Alone (w : World A S) (e : Event A S) : Prop :=
  match e with
  | .finish p => ∀ q, w.process p = some q → q.seen = w.saves.length
  | _         => True

/-! ### Logins one after the other -/

/-- The settings after these logins -/
def replay (c : Settings) (logins : List (Saved A)) : Settings :=
  logins.foldl (fun c l => c.login l.server l.grant.token l.aliasName) c

/-- The last login to a server -/
def lastTo (logins : List (Saved A)) (server : Text) : Option (Saved A) :=
  logins.reverse.find? fun l => l.server = server

/-- The last login with an alias -/
def lastAs (logins : List (Saved A)) (aliasName : Text) : Option (Saved A) :=
  logins.reverse.find? fun l => l.aliasName = aliasName

/-- The server that the option `--server` names: that of the first login by default, and the one
    that an alias was last given to -/
def target (logins : List (Saved A)) (server : Option Text) : Option Text :=
  match server with
  | none | some []    => logins.head?.map Saved.server
  | some (ch :: rest) =>
    some (((lastAs logins (ch :: rest)).map Saved.server).getD (ch :: rest))

/-- The login that a command uses -/
def loginFor (logins : List (Saved A)) (server : Option Text) : Option (Saved A) :=
  (target logins server).bind (lastTo logins)

/-- The last login is replayed last. -/
theorem replay_concat (c : Settings) (logins : List (Saved A)) (l : Saved A) :
    replay c (logins ++ [l]) =
      (replay c logins).login l.server l.grant.token l.aliasName := by
  simp [replay]

/-- It is the last one to its server, -/
theorem lastTo_concat (logins : List (Saved A)) (l : Saved A) (server : Text) :
    lastTo (logins ++ [l]) server =
      if server = l.server then some l else lastTo logins server := by
  rw [lastTo, List.reverse_concat, List.find?_cons]
  by_cases h : l.server = server
  · simp [h]
  · simp [h, Ne.symm h, lastTo]

/-- and the last one under its alias. -/
theorem lastAs_concat (logins : List (Saved A)) (l : Saved A) (aliasName : Text) :
    lastAs (logins ++ [l]) aliasName =
      if aliasName = l.aliasName then some l else lastAs logins aliasName := by
  rw [lastAs, List.reverse_concat, List.find?_cons]
  by_cases h : l.aliasName = aliasName
  · simp [h]
  · simp [h, Ne.symm h, lastAs]

/-- The last login to a server is a login to it. -/
theorem lastTo_eq_some {logins : List (Saved A)} {server : Text} {l : Saved A}
    (h : lastTo logins server = some l) : l ∈ logins ∧ l.server = server :=
  ⟨List.mem_reverse.mp (List.mem_of_find?_eq_some h), by simpa using List.find?_some h⟩

/-- The settings have the token of the last login to a server, -/
theorem lookup_servers_replay (logins : List (Saved A)) (server : Text) :
    (replay {} logins).servers.lookup server =
      (lastTo logins server).map fun l => l.grant.token := by
  induction logins using List.reverseRecOn with
  | nil => rfl
  | append_singleton logins l ih =>
    rw [replay_concat, lastTo_concat, Settings.login, Items.lookup_set, ih]
    split <;> rfl

/-- and the server of the last login under an alias. -/
theorem lookup_aliases_replay (logins : List (Saved A)) {aliasName : Text} (hne : aliasName ≠ []) :
    (replay {} logins).aliases.lookup aliasName = (lastAs logins aliasName).map Saved.server := by
  induction logins using List.reverseRecOn with
  | nil => rfl
  | append_singleton logins l ih =>
    rw [replay_concat, lastAs_concat, Settings.login]
    by_cases h : l.aliasName = []
    · rw [if_pos h, ih, if_neg (by rw [h]; exact hne)]
    · rw [if_neg h, Items.lookup_set, ih]
      split <;> rfl

/-- The default server is that of the first login. -/
theorem defaultServer_replay {logins : List (Saved A)} (hne : ∀ l ∈ logins, l.server ≠ []) :
    (replay {} logins).defaultServer = logins.head?.map Saved.server := by
  induction logins using List.reverseRecOn with
  | nil => rfl
  | append_singleton logins l ih =>
    have hold := ih fun l' hl' => hne l' (List.mem_append_left _ hl')
    rw [replay_concat, Settings.login]
    cases logins with
    | nil => rfl
    | cons first logins =>
      have hfirst : first.server ≠ [] := hne first List.mem_cons_self
      have hdefault : (replay {} (first :: logins)).hasDefault = true := by
        unfold Settings.hasDefault
        rw [hold]
        cases hserver : first.server with
        | nil       => exact absurd hserver hfirst
        | cons _ _  => simp [hserver]
      rw [if_pos hdefault, hold]
      rfl

/-- **The login of a command** -/
theorem withAuthenticatedHttp_replay {logins : List (Saved A)}
    (hne : ∀ l ∈ logins, l.server ≠ [] ∧ l.grant.token ≠ []) (server : Option Text) :
    (replay {} logins).withAuthenticatedHttp server =
      (loginFor logins server).map fun l => (l.server, l.grant.token) := by
  have htarget : (replay {} logins).getToken server =
      (target logins server, (target logins server).bind fun s =>
        (replay {} logins).servers.lookup s) := by
    have hdefault := defaultServer_replay fun l hl => (hne l hl).1
    unfold Settings.getToken target
    split
    · unfold Settings.getDefaultServer
      rw [hdefault]
      cases logins.head? <;> rfl
    · unfold Settings.getDefaultServer
      rw [hdefault]
      cases logins.head? <;> rfl
    · rw [lookup_aliases_replay logins (List.cons_ne_nil _ _)]
      rfl
  unfold Settings.withAuthenticatedHttp loginFor
  rw [htarget]
  cases target logins server with
  | none => rfl
  | some s =>
    rw [Option.bind_some, Option.bind_some, lookup_servers_replay]
    cases hlast : lastTo logins s with
    | none => rfl
    | some l =>
      obtain ⟨hmem, rfl⟩ := lastTo_eq_some hlast
      simp [(hne l hmem).2]

/-! ### What the file comes from -/

/-- A server gave out the token, to a user who had the password. -/
structure Granted (w : World A S) (server : Text) (g : Login.Grant A) : Prop where
  issued   : ∃ i, host server = some i ∧ g ∈ (w.server i).issued
  signed   : ∃ now, g.token = K.signToken g.server.unsharedSecret g.user now
  password : Login.ByPassword K g.server g.data g.user

/-- What is known of a process -/
structure ProcessOk (c₀ : Settings) (w : World A S) (q : Process A) : Prop where
  config : q.config = replay c₀ q.base
  seen   : q.seen ≤ w.saves.length
  base   : q.base.Sublist (w.saves.take q.seen)
  last   : q.seen = w.saves.length → q.base = w.chain
  grant  : ∀ args token, q.answer = some (args, .loggedIn token) →
    ∃ g, q.grant = some g ∧ g.token = token ∧ Granted K host w args.server g

structure Tracked (c₀ : Settings) (w : World A S) : Prop where
  file    : loadConfig w.file = replay c₀ w.chain
  chain   : w.chain.Sublist w.saves
  exact   : w.chain = w.saves ↔ w.overlapped = false
  granted : ∀ l ∈ w.saves, Granted K host w l.server l.grant
  process : ∀ p q, w.process p = some q → ProcessOk K host c₀ w q

omit [DecidableEq S] in
/-- At first no process runs and no login was made. -/
theorem tracked_new (file : Option File) (server : S → Login.World A) :
    Tracked K host (loadConfig file) ({ file, server } : World A S) where
  file          := rfl
  chain         := List.Sublist.refl []
  exact         := ⟨fun _ => rfl, fun _ => rfl⟩
  granted       := nofun
  process _ _ h := by cases h

variable {K L host} {c₀ : Settings} {w : World A S}

omit [DecidableEq S] in
/-- A token that was granted stays granted while the server issues more. -/
theorem Granted.mono {w' : World A S} {server : Text} {g : Login.Grant A}
    (h : Granted K host w server g)
    (hissued : ∀ i, g ∈ (w.server i).issued → g ∈ (w'.server i).issued) :
    Granted K host w' server g := by
  obtain ⟨i, hi, hg⟩ := h.issued
  exact ⟨⟨i, hi, hissued i hg⟩, h.signed, h.password⟩

omit [DecidableEq S] in
/-- A process stays what it is while the servers go on. -/
theorem ProcessOk.mono {w' : World A S} {q : Process A} (h : ProcessOk K host c₀ w q)
    (hsaves : w'.saves = w.saves) (hchain : w'.chain = w.chain)
    (hissued : ∀ i g, g ∈ (w.server i).issued → g ∈ (w'.server i).issued) :
    ProcessOk K host c₀ w' q where
  config := h.config
  seen   := hsaves ▸ h.seen
  base   := hsaves ▸ h.base
  last   := by rw [hsaves, hchain]; exact h.last
  grant args token hanswer := by
    obtain ⟨g, hg, htoken, hgranted⟩ := h.grant args token hanswer
    exact ⟨g, hg, htoken, hgranted.mono fun i => hissued i g⟩

omit [DecidableEq S] in
/-- A process may change while it is right. -/
theorem Tracked.setProcess (h : Tracked K host c₀ w) (p : Nat) {q : Option (Process A)}
    (hq : ∀ q', q = some q' → ProcessOk K host c₀ w q') : Tracked K host c₀ (w.setProcess p q) where
  file         := h.file
  chain        := h.chain
  exact        := h.exact
  granted l hl := (h.granted l hl).mono fun _ => id
  process p' q' hp' := by
    have hok : ProcessOk K host c₀ w q' := by
      unfold World.setProcess at hp'
      dsimp only at hp'
      by_cases hp : p' = p
      · subst hp
        rw [Function.update_self] at hp'
        exact hq q' hp'
      · rw [Function.update_of_ne hp] at hp'
        exact h.process p' q' hp'
    exact hok.mono rfl rfl fun _ _ => id

/-- No server takes an issued token back, -/
theorem mem_issued_step {v : Login.World A} (e : Login.Event A) {g : Login.Grant A}
    (h : g ∈ v.issued) : g ∈ (Login.step K L e v).issued := by
  unfold Login.step
  split
  · split <;> exact h
  · exact List.mem_append_right _ h
  · exact h

/-- also not while others go on. -/
theorem mem_issued_stepServer (i : S) (e : Login.Event A) {j : S} {g : Login.Grant A}
    (h : g ∈ (w.server j).issued) : g ∈ ((w.stepServer K L i e).server j).issued := by
  unfold World.stepServer
  dsimp only
  by_cases hj : j = i
  · subst hj
    rw [Function.update_self]
    exact mem_issued_step e h
  · rw [Function.update_of_ne hj]
    exact h

/-- A step of a server keeps track, -/
theorem Tracked.stepServer (h : Tracked K host c₀ w) (i : S) (e : Login.Event A) :
    Tracked K host c₀ (w.stepServer K L i e) where
  file           := h.file
  chain          := h.chain
  exact          := h.exact
  granted l hl   := (h.granted l hl).mono fun _ => mem_issued_stepServer i e
  process p q hp := (h.process p q hp).mono rfl rfl fun _ _ => mem_issued_stepServer i e

/-- A login from the command line is one by password. -/
theorem byPassword_credentials {s : Login.Server A} {now : Nat} {u p : Text} {g : Login.Grant A}
    (h : Login.grantOf K L s now (some (Login.credentials u p)) = some g) :
    (∃ now, g.token = K.signToken g.server.unsharedSecret g.user now) ∧
      Login.ByPassword K g.server g.data g.user := by
  have hearned := Login.earned_of_grantOf K L h
  refine ⟨hearned.signed, hearned.letIn.resolve_left ?_⟩
  have hdata : g.data = [("username".toList, .text u), ("password".toList, .text p)] := by
    unfold Login.grantOf Login.credentials dict at h
    dsimp only at h
    split at h
    · rw [← Option.some.inj h]
      rfl
    · cases h
  rintro ⟨t, -, ht, -⟩
  rw [hdata] at ht
  cases ht

/-- and so does a login that is answered, -/
theorem Tracked.post (h : Tracked K host c₀ w) (p : Nat) {q : Process A}
    (hq : w.process p = some q) (args : Args) (now : Nat) :
    Tracked K host c₀ (w.post K L host p q args now) := by
  unfold World.post
  split
  · exact h.setProcess p nofun
  next i hi =>
    dsimp only
    have hserver := h.stepServer (L := L) i
      (.login now (some (Login.credentials args.username args.password)))
    refine hserver.setProcess p fun q' hq' => ?_
    obtain rfl := Option.some.inj hq'
    obtain ⟨hconfig, hseen, hbase, hlast, -⟩ := hserver.process p q hq
    refine ⟨hconfig, hseen, hbase, hlast, fun args' token hanswer => ?_⟩
    obtain ⟨rfl, hlogin⟩ := Prod.mk.inj (Option.some.inj hanswer)
    obtain ⟨g, hg, htoken⟩ := (Login.login_eq_loggedIn_iff K L).mp hlogin
    obtain ⟨hsigned, hpassword⟩ := byPassword_credentials hg
    refine ⟨g, hg, htoken, ⟨i, hi, ?_⟩, hsigned, hpassword⟩
    change g ∈ (Function.update w.server i _ i).issued
    rw [Function.update_self]
    exact List.mem_append_left _ (Option.mem_toList.mpr hg)

omit [DecidableEq S] in
/-- and one that is saved. -/
theorem Tracked.finish (h : Tracked K host c₀ w) (p : Nat) {q : Process A}
    (hq : w.process p = some q) : Tracked K host c₀ (w.finish p q) := by
  unfold World.finish
  split
  next args token hanswer =>
    obtain ⟨hconfig, hseen, hbase, hlast, hgrant⟩ := h.process p q hq
    obtain ⟨g, hg, rfl, hgranted⟩ := hgrant args token hanswer
    -- a login that has got its token was granted one
    have hsaved : q.grant.toList.map (fun g => (⟨args.server, args.aliasName, g⟩ : Saved A)) =
        [⟨args.server, args.aliasName, g⟩] := by rw [hg]; rfl
    dsimp only
    rw [hsaved]
    refine ⟨?_, ?_, ?_, ?_, ?_⟩
    · change q.config.login args.server g.token args.aliasName = replay c₀ (q.base ++ [_])
      rw [replay_concat, hconfig]
    · -- what the process had read, and its own login behind it, come in this order in all of them
      exact (hbase.trans (List.take_sublist _ _)).append (List.Sublist.refl _)
    · -- the process has read all logins iff its own list has them all
      change q.base ++ [_] = w.saves ++ [_] ↔ _
      rw [List.append_left_inj, Bool.or_eq_false_iff, bne_eq_false_iff_eq, ← h.exact]
      constructor
      · intro hall
        have hlength := hbase.length_le
        rw [hall, List.length_take] at hlength
        have hseen' : q.seen = w.saves.length := by omega
        exact ⟨hlast hseen' ▸ hall, hseen'⟩
      · rintro ⟨hchain, hseen'⟩
        rw [hlast hseen', hchain]
    · intro l hl
      rcases List.mem_append.mp hl with hl | hl
      · exact (h.granted l hl).mono fun _ => id
      · obtain rfl := List.mem_singleton.mp hl
        exact hgranted.mono fun _ => id
    · intro p' q' hp'
      -- the process itself has ended; another one has read as many logins as before, and there is
      -- one more now
      by_cases hp : p' = p
      · subst hp
        change Function.update w.process p' none p' = some q' at hp'
        rw [Function.update_self] at hp'
        cases hp'
      · change Function.update w.process p none p' = some q' at hp'
        rw [Function.update_of_ne hp] at hp'
        obtain ⟨hconfig', hseen', hbase', hlast', hgrant'⟩ := h.process p' q' hp'
        refine ⟨hconfig', ?_, ?_, fun hall => ?_, fun args' token' hanswer' => ?_⟩
        · change q'.seen ≤ (w.saves ++ [_]).length
          rw [List.length_append]
          omega
        · change q'.base.Sublist ((w.saves ++ [_]).take q'.seen)
          rw [List.take_append_of_le_length hseen']
          exact hbase'
        · -- so it has not read all of them
          change q'.seen = (w.saves ++ [_]).length at hall
          rw [List.length_append, List.length_singleton] at hall
          omega
        · obtain ⟨g', hg', htoken', hgranted'⟩ := hgrant' args' token' hanswer'
          exact ⟨g', hg', htoken', hgranted'.mono fun _ => id⟩
  next => exact h.setProcess p nofun

/-- Hence every step keeps track of the logins. -/
theorem Tracked.step (h : Tracked K host c₀ w) (e : Event A S) :
    Tracked K host c₀ (step K L host e w) := by
  cases e with
  | start p =>
    refine h.setProcess p fun q hq => ?_
    obtain rfl := Option.some.inj hq
    refine ⟨h.file, Nat.le_refl _, ?_, fun _ => rfl, nofun⟩
    rw [List.take_length]
    exact h.chain
  | post p args now =>
    unfold Servers.step
    dsimp only
    split
    next q hq =>
      split
      · exact h.post p hq args now
      · exact h
    next => exact h
  | finish p =>
    unfold Servers.step
    dsimp only
    split
    next q hq => exact h.finish p hq
    next => exact h
  | server i e => exact h.stepServer i e

/-- A run of processes one after the other has no overlap. -/
theorem overlapped_step (h : w.overlapped = false) (e : Event A S) (he : Alone w e) :
    (step K L host e w).overlapped = false := by
  cases e with
  | start p => exact h
  | post p args now =>
    unfold step World.post
    dsimp only
    split
    · split
      · split <;> exact h
      · exact h
    · exact h
  | finish p =>
    unfold step
    dsimp only
    split
    next q hq =>
      unfold World.finish
      split
      · change (w.overlapped || q.seen != w.saves.length) = false
        rw [h, he q hq, bne_self_eq_false, Bool.or_self]
      · exact h
    next => exact h
  | server i e => exact h

variable (K L host)

/-- **What a login leaves in the file.**  In every run whose saves do not meet a reader or each
    other halfway the file has what some of the saved logins
    make of it, in their order; and all of them exactly if no process saved one after another that
    it had not read. -/
theorem saved_logins (file : Option File) (server : S → Login.World A)
    (h : Reach (step K L host) (fun _ _ => True) { file, server } w) :
    loadConfig w.file = replay (loadConfig file) w.chain ∧ w.chain.Sublist w.saves ∧
      (w.chain = w.saves ↔ w.overlapped = false) := by
  have htracked : Tracked K host (loadConfig file) w :=
    h.invariant (tracked_new K host file server) fun _ e hw _ => hw.step e
  exact ⟨htracked.file, htracked.chain, htracked.exact⟩

def sampleHost (url : Text) : Option Unit := if url = [] then none else some ()

def sampleWorld : World Empty Unit where
  file     := none
  server _ := ⟨Login.sampleServer, []⟩

def sampleRun (events : List (Event Empty Unit)) : World Empty Unit :=
  events.foldl (fun w e => step Login.sampleCrypto plainLibrary sampleHost e w) sampleWorld

/-- A login of anna, at an URL -/
def sampleArgs (url : String) : Args :=
  ⟨url.toList, "anna".toList, "hunter2".toList, "home".toList⟩

/-- Two logins at once, of which the second is kept -/
theorem saved_logins_overlapping :
    let w := sampleRun [.start 0, .start 1, .post 0 (sampleArgs "a") 0, .post 1 (sampleArgs "b") 0,
      .finish 0, .finish 1]
    (loadConfig w.file).servers.map Prod.fst = ["b".toList] ∧ w.saves.length = 2 ∧
      w.chain ≠ w.saves := by
  intro w
  have hexact := (saved_logins Login.sampleCrypto plainLibrary sampleHost none
    (fun _ => ⟨Login.sampleServer, []⟩) (w := w) (Reach.replay _)).2.2
  refine ⟨by decide, by decide, fun heq => ?_⟩
  have hfalse := hexact.mp heq
  exact absurd hfalse (by decide)

/-- **Which login a command uses**, when logins do not overlap: with an alias, the last one to the
    server that the alias was last given to; with no server, the last one to the server of the
    first.  The server takes the token for the user of that login, while it has the same secret
    and the user is an admin. -/
theorem command_answered
    (hsign : ∀ key u now, K.verifyToken key (K.signToken key (.text u) now) = some (.text u))
    (hverified : ∀ key key' user user' now,
      K.verifyToken key' (K.signToken key user now) = some user' → key' = key ∧ user' = user)
    (hempty : ∀ key, K.verifyToken key [] = none) (hhost : host [] = none)
    {server : S → Login.World A} (h : Reach (step K L host) Alone { file := none, server } w)
    (option : Option Text) :
    (loadConfig w.file).withAuthenticatedHttp option =
        (loginFor w.saves option).map (fun l => (l.server, l.grant.token)) ∧
      ∀ l, loginFor w.saves option = some l → ∃ i, host l.server = some i ∧
        l.grant ∈ (w.server i).issued ∧
        Login.ByPassword K l.grant.server l.grant.data l.grant.user ∧
        ∀ user, Login.ping K (w.server i).server l.grant.token = .pong user ↔
          user = l.grant.user ∧ (w.server i).server.isAdmin user = .ok true ∧
            l.grant.server.unsharedSecret = (w.server i).server.unsharedSecret := by
  obtain ⟨htracked, halone⟩ : Tracked K host {} w ∧ w.overlapped = false :=
    h.invariant (I := fun w => Tracked K host {} w ∧ w.overlapped = false)
      ⟨tracked_new K host none server, rfl⟩
      fun _ e hw he => ⟨hw.1.step e, overlapped_step hw.2 e he⟩
  -- a server that was saved has a name, and its token verified when it was signed
  have htoken : ∀ l ∈ w.saves, l.server ≠ [] ∧ l.grant.token ≠ [] := by
    intro l hl
    obtain ⟨⟨i, hi, -⟩, ⟨now, hsigned⟩, ⟨u, _, _, huser, -⟩⟩ := htracked.granted l hl
    refine ⟨fun hnil => ?_, fun hnil => ?_⟩
    · rw [hnil, hhost] at hi
      cases hi
    · have hverify := hsign l.grant.server.unsharedSecret u now
      rw [← huser, ← hsigned, hnil, hempty] at hverify
      cases hverify
  constructor
  · rw [htracked.file, htracked.exact.mpr halone]
    exact withAuthenticatedHttp_replay htoken option
  · intro l hl
    obtain ⟨s, -, hlast⟩ := Option.bind_eq_some_iff.mp hl
    have hmem := (lastTo_eq_some hlast).1
    obtain ⟨⟨i, hi, hissued⟩, ⟨now, hsigned⟩, hpassword⟩ := htracked.granted l hmem
    refine ⟨i, hi, hissued, hpassword, fun user => ?_⟩
    obtain ⟨u, _, _, huser, -⟩ := hpassword
    rw [Login.ping_eq_pong_iff]
    constructor
    · -- a token that verifies was signed with this secret for this user
      rintro ⟨-, hverify, hadmin⟩
      rw [hsigned] at hverify
      obtain ⟨hsecret, rfl⟩ := hverified _ _ _ _ _ hverify
      exact ⟨rfl, hadmin, hsecret.symm⟩
    · rintro ⟨rfl, hadmin, hsecret⟩
      refine ⟨(htoken l hmem).2, ?_, hadmin⟩
      rw [hsigned, hsecret, huser, hsign]

/-- A command after a login, without an option -/
theorem command_answered_once :
    let w := sampleRun [.start 0, .post 0 (sampleArgs "a") 0, .finish 0]
    ∃ token, (loadConfig w.file).withAuthenticatedHttp none = some ("a".toList, token) ∧
      Login.ping Login.sampleCrypto (w.server ()).server token = .pong (str "anna") := by
  intro w
  have go : ∀ {w : World Empty Unit} (e : Event Empty Unit),
      Reach (step Login.sampleCrypto plainLibrary sampleHost) Alone sampleWorld w → Alone w e →
        Reach (step Login.sampleCrypto plainLibrary sampleHost) Alone sampleWorld
          (step Login.sampleCrypto plainLibrary sampleHost e w) := fun e h he => h.step e he
  have hposted := go (.post 0 (sampleArgs "a") 0) (go (.start 0) Reach.start trivial) trivial
  have hrun : Reach (step Login.sampleCrypto plainLibrary sampleHost) Alone sampleWorld w :=
    go (.finish 0) hposted fun q hq => by
      rw [← Option.some.inj hq]
      rfl
  obtain ⟨hcommand, hping⟩ := command_answered Login.sampleCrypto plainLibrary sampleHost
    Login.sampleCrypto_sign Login.sampleCrypto_verified Login.sampleCrypto_empty rfl hrun none
  obtain ⟨i, -, -, -, huser⟩ := hping _ rfl
  exact ⟨_, hcommand, (huser _).mpr ⟨rfl, rfl, rfl⟩⟩

end Maubot.Servers
