import Maubot.Lib.Store
import Maubot.PluginDb
import Mathlib.Logic.Function.Basic

namespace Maubot.SearchPath

open ProxyDatabase (Outcome)

/-!
# The search path of shared connections

Each `acquire_direct` of a `ProxyPostgresDatabase` sets the search path of a connection of the
shared pool to the plugin's schema, and back when the connection is given back.

* `Use.resume` — one `acquire_direct` or `start` goes on from where it waits;
* `Clean` — a connection that is closed or has the default search path;
* `clean_of_careful` — the runs in which only such connections are given back, and which steps
  give back another.
-/

abbrev Path := String

/-- A connection of the pool. -/
structure Connection where
  path   : Path
  closed : Bool := false
  deriving DecidableEq, Repr

/-- How an awaited statement ends: whether it takes effect when it does not return, and whether
    the connection gets lost. -/
structure Reply where
  outcome : Outcome
  took    : Bool := false
  closes  : Bool := false
  deriving DecidableEq, Repr

namespace Connection

/-- `SET search_path = …` -/
def setPath (c : Connection) (path : Path) (r : Reply) : Connection :=
  if c.closed then c
  else
    { path   := if r.outcome = .ok ∨ r.took = true then path else c.path
      closed := r.closes }

/-- `conn.wrapped.close()` -/
def close (c : Connection) (r : Reply) : Connection :=
  if c.closed then c else { c with closed := r.outcome = .ok ∨ r.closes = true }

/-- A statement that has no effect on the search path. -/
def other (c : Connection) (r : Reply) : Connection :=
  if c.closed then c else { c with closed := r.closes }

end Connection

/-- A `ProxyPostgresDatabase`. -/
structure Proxy where
  quotedSchema      : Path
  defaultSearchPath : Path := "\"$user\", public"
  /-- `start` has read the default search path -/
  started           : Bool := false
  deriving DecidableEq, Repr

/-- Where a use of the pool is, with its connection. -/
inductive Use
  /-- `acquire_direct`: `SET search_path` to the schema -/
  | setting (c : Connection)
  /-- `yield conn` -/
  | yielded (c : Connection)
  /-- `SET search_path` back -/
  | resetting (c : Connection)
  /-- `conn.wrapped.close()` -/
  | closing (c : Connection)
  /-- `start`: `SHOW search_path` -/
  | showing (c : Connection)
  /-- `CREATE SCHEMA IF NOT EXISTS` -/
  | creating (c : Connection)
  /-- the connection goes back to the pool -/
  | returning (c : Connection)
  deriving DecidableEq, Repr

/-- A use goes on behind an awaited statement; with what the database remembers. -/
def Use.resume (db : Proxy) (r : Reply) : Use → Proxy × Use
  | .setting c   =>
    let c := c.setPath db.quotedSchema r
    (db, if r.outcome = .ok then .yielded c else .returning c)
  | .resetting c =>
    let c := c.setPath db.defaultSearchPath r
    match r.outcome with
    | .ok        => (db, .returning c)
    | .raised    => (db, .closing c)
    -- no `Exception`
    | .cancelled => (db, .returning c)
  | .closing c   => (db, .returning (c.close r))
  | .showing c   =>
    if r.outcome = .ok ∧ c.closed = false then
      ({ db with defaultSearchPath := c.path, started := true }, .creating (c.other r))
    else (db, .returning (c.other r))
  | .creating c  => (db, .returning (c.other r))
  | .yielded c   => (db, .yielded c)
  | .returning c => (db, .returning c)

/-- The body of the `async with` ends, however it does, and leaves the connection as it has made
    it; the `finally` block begins. -/
def Use.finish (c : Connection) : Use → Use
  | .yielded _ => if c.closed then .returning c else .resetting c
  | u          => u

structure Shared where
  /-- the connections that are free -/
  pool : List Connection
  dbs  : Nat → Proxy
  /-- the uses, each with its database -/
  uses : Nat → Option (Nat × Use) := fun _ => none

inductive Event
  /-- a new connection, with the search path of the server -/
  | connect
  /-- a database that has been started takes the `i`-th free connection, for the use `k` -/
  | acquireDirect (k db i : Nat)
  | start (k db i : Nat)
  /-- an awaited statement of the use ends -/
  | resume (k : Nat) (r : Reply)
  /-- the body of the use ends, and leaves the connection so -/
  | finish (k : Nat) (c : Connection)
  deriving DecidableEq, Repr

namespace Shared

/-- A use goes on, or gives its connection back. -/
def setUse (s : Shared) (k db : Nat) (u : Use) : Shared :=
  match u with
  | .returning c =>
    { s with pool := s.pool ++ [c], uses := Function.update s.uses k none }
  | u            => { s with uses := Function.update s.uses k (some (db, u)) }

def setDb (s : Shared) (db : Nat) (p : Proxy) : Shared :=
  { s with dbs := Function.update s.dbs db p }

/-- A use takes a free connection. -/
def take (s : Shared) (k db i : Nat) (u : Connection → Use) : Shared :=
  match s.pool[i]? with
  | some c =>
    { s with pool := s.pool.eraseIdx i, uses := Function.update s.uses k (some (db, u c)) }
  | none   => s

variable (server : Path)

def step (e : Event) (s : Shared) : Shared :=
  match e with
  | .connect              => { s with pool := s.pool ++ [{ path := server }] }
  | .acquireDirect k db i =>
    if s.uses k = none ∧ (s.dbs db).started = true then s.take k db i .setting else s
  | .start k db i         => if s.uses k = none then s.take k db i .showing else s
  | .resume k r           =>
    match s.uses k with
    | some (db, u) => (s.setDb db (u.resume (s.dbs db) r).1).setUse k db (u.resume (s.dbs db) r).2
    | none         => s
  | .finish k c           =>
    match s.uses k with
    | some (db, u) => s.setUse k db (u.finish c)
    | none         => s

end Shared

/-! ### The law -/

open Shared

variable (server : Path)

/-- The connection is closed or has the default search path. -/
def Connection.Clean (c : Connection) : Prop := c.closed = true ∨ c.path = server

/-- All free connections are clean. -/
def Clean (s : Shared) : Prop := ∀ c ∈ s.pool, c.Clean server

/-- The end of an awaited statement that gives back no other than a clean connection: a `SET` to
    the schema that fails has not taken effect, a reset that is cancelled has, and a `close()`
    closes the connection; or the connection is lost. -/
def Use.Careful (db : Proxy) (r : Reply) : Use → Prop
  | .setting c   => r.outcome = .ok ∨ c.closed = true ∨ r.closes = true ∨ r.took = false ∨
    db.quotedSchema = server
  | .resetting c => r.outcome ≠ .cancelled ∨ r.closes = true ∨ r.took = true ∨ c.path = server
  | .closing c   => r.outcome = .ok ∨ c.closed = true ∨ r.closes = true ∨ c.path = server
  | _            => True

def Careful (s : Shared) : Event → Prop
  | .resume k r => ∀ db u, s.uses k = some (db, u) → u.Careful server (s.dbs db) r
  | _           => True

/-- What is known of a use: where its connection is still as it was taken it is clean, and a
    connection is reset only if it is open. -/
def Use.Sound (db : Proxy) : Use → Prop
  | .setting c   => c.Clean server ∧ db.started = true
  | .yielded _   => db.started = true
  | .resetting c => c.closed = false ∧ db.started = true
  | .closing _   => True
  | .showing c   => c.Clean server
  | .creating c  => c.Clean server
  | .returning _ => False

/-- A database that has been started knows the default search path, and its uses are sound. -/
structure Sound (s : Shared) : Prop where
  dbs  : ∀ db, (s.dbs db).started = true → (s.dbs db).defaultSearchPath = server
  uses : ∀ k db u, s.uses k = some (db, u) → u.Sound server (s.dbs db)

/-! ### One use -/

section Use

variable {server : Path} {db : Proxy} {c : Connection} {u : Use}

/-- A connection on which the search path is set is clean if it closes or has the server's path. -/
theorem clean_setPath_iff (hopen : c.closed = false) (path : Path) (r : Reply) :
    (c.setPath path r).Clean server ↔ r.closes = true ∨
      (if r.outcome = .ok ∨ r.took = true then path else c.path) = server := by
  rw [Connection.setPath, hopen]
  exact Iff.rfl

/-- A closed one is clean. -/
theorem clean_setPath_of_closed (hclosed : c.closed = true) (path : Path) (r : Reply) :
    (c.setPath path r).Clean server := by
  rw [Connection.setPath, hclosed]
  exact .inl hclosed

/-- Another statement leaves it clean. -/
theorem clean_other (h : c.Clean server) (r : Reply) : (c.other r).Clean server := by
  rw [Connection.other]
  split
  · exact h
  · next hopen => exact .inr (h.resolve_left hopen)

/-- A failed `SET` to the schema. -/
theorem clean_setting_iff (h : c.Clean server) {r : Reply} (hr : r.outcome ≠ .ok) :
    (c.setPath db.quotedSchema r).Clean server ↔ (Use.setting c).Careful server db r := by
  by_cases hclosed : c.closed = true
  · exact iff_of_true (clean_setPath_of_closed hclosed _ r) (.inr (.inl hclosed))
  · have hopen : c.closed = false := by simpa using hclosed
    have hpath := h.resolve_left hclosed
    rw [clean_setPath_iff hopen]
    unfold Use.Careful
    by_cases ht : r.took = true <;> simp [hr, hclosed, hpath, ht]

/-- A reset that is cancelled. -/
theorem clean_resetting_iff (hopen : c.closed = false) (hdb : db.defaultSearchPath = server)
    {r : Reply} (hr : r.outcome = .cancelled) :
    (c.setPath db.defaultSearchPath r).Clean server ↔
      (Use.resetting c).Careful server db r := by
  rw [clean_setPath_iff hopen, hdb]
  unfold Use.Careful
  by_cases ht : r.took = true <;> simp [hr, ht]

/-- A use that closes leaves it clean exactly if it is careful. -/
theorem clean_closing_iff (r : Reply) :
    (c.close r).Clean server ↔ (Use.closing c).Careful server db r := by
  unfold Connection.close Connection.Clean Use.Careful
  by_cases hclosed : c.closed = true <;> simp [hclosed, or_assoc]

/-- **One use goes on.**  A connection that it gives back is clean exactly if the statement ended
    carefully; else the statement did, and the use is sound. -/
theorem resume_spec (hdb : db.started = true → db.defaultSearchPath = server)
    (hu : u.Sound server db) (r : Reply) :
    (∃ c, (u.resume db r).2 = .returning c ∧ (c.Clean server ↔ u.Careful server db r)) ∨
    ((∀ c, (u.resume db r).2 ≠ .returning c) ∧ u.Careful server db r ∧
      (u.resume db r).2.Sound server (u.resume db r).1) := by
  cases u with
  | setting c =>
    -- a connection whose path could not be set goes back, with whatever path it has
    by_cases hr : r.outcome = .ok
    · right
      simp only [Use.resume, if_pos hr]
      exact ⟨nofun, .inl hr, hu.2⟩
    · left
      simp only [Use.resume, if_neg hr]
      exact ⟨_, rfl, clean_setting_iff hu.1 hr⟩
  | yielded c => exact .inr ⟨nofun, trivial, hu⟩
  | resetting c =>
    cases hr : r.outcome with
    | ok =>
      left
      refine ⟨_, by rw [Use.resume, hr], iff_of_true ?_ (.inl (by rw [hr]; nofun))⟩
      rw [clean_setPath_iff hu.1, if_pos (.inl hr)]
      exact .inr (hdb hu.2)
    | raised =>
      right
      have hresume : ((Use.resetting c).resume db r).2 =
          .closing (c.setPath db.defaultSearchPath r) := by rw [Use.resume, hr]
      rw [hresume]
      exact ⟨nofun, .inl (by rw [hr]; nofun), trivial⟩
    | cancelled =>
      left
      exact ⟨_, by rw [Use.resume, hr], clean_resetting_iff hu.1 (hdb hu.2) hr⟩
  | closing c => exact .inl ⟨_, rfl, clean_closing_iff r⟩
  | showing c =>
    have hclean := clean_other hu r
    by_cases hr : r.outcome = .ok ∧ c.closed = false
    · right
      simp only [Use.resume, if_pos hr]
      exact ⟨nofun, trivial, hclean⟩
    · left
      simp only [Use.resume, if_neg hr]
      exact ⟨_, rfl, iff_of_true hclean trivial⟩
  | creating c => exact .inl ⟨_, rfl, iff_of_true (clean_other hu r) trivial⟩
  | returning c => exact hu.elim

/-- What a database remembers. -/
theorem resume_db (hdb : db.started = true → db.defaultSearchPath = server)
    (hu : u.Sound server db) (r : Reply) :
    ((u.resume db r).1.started = true → (u.resume db r).1.defaultSearchPath = server) ∧
      (db.started = true → (u.resume db r).1.started = true) := by
  cases u with
  | showing c =>
    by_cases hr : r.outcome = .ok ∧ c.closed = false
    · simp only [Use.resume, if_pos hr]
      refine ⟨fun _ => hu.resolve_left ?_, fun _ => trivial⟩
      rw [hr.2]
      nofun
    · simp only [Use.resume, if_neg hr]
      exact ⟨hdb, id⟩
  | resetting c => cases hr : r.outcome <;> simp only [Use.resume, hr] <;> exact ⟨hdb, id⟩
  | setting c => exact ⟨hdb, id⟩
  | yielded c => exact ⟨hdb, id⟩
  | closing c => exact ⟨hdb, id⟩
  | creating c => exact ⟨hdb, id⟩
  | returning c => exact hu.elim

/-- A use is as sound when its database has started. -/
theorem Use.Sound.mono {db' : Proxy} (h : u.Sound server db)
    (hstarted : db.started = true → db'.started = true) : u.Sound server db' := by
  cases u with
  | setting c => exact ⟨h.1, hstarted h.2⟩
  | yielded c => exact hstarted h
  | resetting c => exact ⟨h.1, hstarted h.2⟩
  | closing c => trivial
  | showing c => exact h
  | creating c => exact h
  | returning c => exact h

/-- The body has ended: the connection is reset, or it is closed. -/
theorem finish_spec (hu : u.Sound server db) (c : Connection) :
    (u.finish c = .returning c ∧ c.Clean server) ∨
    ((∀ c', u.finish c ≠ .returning c') ∧ (u.finish c).Sound server db) := by
  cases u with
  | yielded c' =>
    unfold Use.finish
    cases hclosed : c.closed with
    | true => exact .inl ⟨rfl, .inl hclosed⟩
    | false => exact .inr ⟨nofun, hclosed, hu⟩
  | returning c' => exact hu.elim
  | setting c' => exact .inr ⟨nofun, hu⟩
  | resetting c' => exact .inr ⟨nofun, hu⟩
  | closing c' => exact .inr ⟨nofun, hu⟩
  | showing c' => exact .inr ⟨nofun, hu⟩
  | creating c' => exact .inr ⟨nofun, hu⟩

end Use

/-! ### The pool -/

section Pool

variable {server : Path} {s : Shared} {k db i : Nat} {u : Use}

/-- A use that does not return its connection keeps it. -/
theorem setUse_of_ne (h : ∀ c, u ≠ .returning c) : s.setUse k db u =
    { s with uses := Function.update s.uses k (some (db, u)) } := by
  cases u with
  | returning c => exact absurd rfl (h c)
  | _ => rfl

/-- A pool with one connection more is clean if that is. -/
theorem clean_append_iff {s t : Shared} (h : Clean server s) {c : Connection}
    (hpool : t.pool = s.pool ++ [c]) : Clean server t ↔ c.Clean server := by
  rw [Clean, hpool]
  constructor
  · intro hall
    exact hall c (List.mem_append_right _ (List.mem_singleton_self c))
  · intro hc c' hmem
    rcases List.mem_append.mp hmem with hmem | hmem
    · exact h c' hmem
    · obtain rfl := List.mem_singleton.mp hmem
      exact hc

/-- A use that is set, of a database that knows at least what it knew. -/
theorem Sound.setUse {p : Proxy} (h : Sound server s)
    (hp : p.started = true → p.defaultSearchPath = server)
    (hstarted : (s.dbs db).started = true → p.started = true)
    (hu : (∀ c, u ≠ .returning c) → u.Sound server p) :
    Sound server ((s.setDb db p).setUse k db u) := by
  have hdbs : ∀ d, (Function.update s.dbs db p d).started = true →
      (Function.update s.dbs db p d).defaultSearchPath = server := by
    intro d
    rcases eq_or_ne d db with rfl | hne
    · rw [Function.update_self]
      exact hp
    · rw [Function.update_of_ne hne]
      exact h.dbs d
  -- a database that has been started stays started
  have hmono : ∀ d, (s.dbs d).started = true → (Function.update s.dbs db p d).started = true := by
    intro d
    rcases eq_or_ne d db with rfl | hne
    · rw [Function.update_self]
      exact hstarted
    · rw [Function.update_of_ne hne]
      exact id
  -- a use that has come to its end is forgotten
  by_cases hret : ∀ c, u ≠ .returning c
  · rw [setUse_of_ne hret]
    refine ⟨hdbs, fun j d v hv => ?_⟩
    rcases of_update_eq_some hv with ⟨-, heq⟩ | ⟨-, hold⟩
    · cases heq
      show u.Sound server (Function.update s.dbs db p db)
      rw [Function.update_self]
      exact hu hret
    · exact (h.uses j d v hold).mono (hmono d)
  · obtain ⟨c, hc⟩ := not_forall_not.mp hret
    subst hc
    refine ⟨hdbs, fun j d v hv => ?_⟩
    rcases of_update_eq_some hv with ⟨-, heq⟩ | ⟨-, hold⟩
    · cases heq
    · exact (h.uses j d v hold).mono (hmono d)

/-- The connection goes back to the pool, or the use holds it further. -/
theorem setUse_spec {p : Proxy} {P : Prop} (hclean : Clean server s) (h : Sound server s)
    (hp : p.started = true → p.defaultSearchPath = server)
    (hstarted : (s.dbs db).started = true → p.started = true)
    (hu : (∃ c, u = .returning c ∧ (c.Clean server ↔ P)) ∨
      (∀ c, u ≠ .returning c) ∧ P ∧ u.Sound server p) :
    (Clean server ((s.setDb db p).setUse k db u) ↔ P) ∧
      Sound server ((s.setDb db p).setUse k db u) := by
  rcases hu with ⟨c, hret, hiff⟩ | ⟨hret, hP, hsound⟩
  · refine ⟨?_, h.setUse hp hstarted fun hne => absurd hret (hne c)⟩
    rw [hret, ← hiff]
    exact clean_append_iff hclean rfl
  · refine ⟨?_, h.setUse hp hstarted fun _ => hsound⟩
    rw [setUse_of_ne hret]
    exact iff_of_true hclean hP

/-- A connection that is taken from a clean pool is clean. -/
theorem take_spec (hclean : Clean server s) (h : Sound server s) {f : Connection → Use}
    (hf : ∀ c, c.Clean server → (f c).Sound server (s.dbs db)) :
    Clean server (s.take k db i f) ∧ Sound server (s.take k db i f) := by
  unfold Shared.take
  cases hi : s.pool[i]? with
  | none => exact ⟨hclean, h⟩
  | some c =>
    refine ⟨fun c' hc' => hclean c' (List.mem_of_mem_eraseIdx hc'), h.dbs, fun j d v hv => ?_⟩
    rcases of_update_eq_some hv with ⟨-, heq⟩ | ⟨-, hold⟩
    · cases heq
      exact hf c (hclean c (List.mem_of_getElem? hi))
    · exact h.uses j d v hold

/-- **One step.** -/
theorem step_spec (hclean : Clean server s) (h : Sound server s) (e : Event) :
    (Clean server (step server e s) ↔ Careful server s e) ∧ Sound server (step server e s) := by
  cases e with
  | connect =>
    refine ⟨iff_of_true ?_ trivial, h.dbs, h.uses⟩
    exact (clean_append_iff hclean rfl).mpr (.inr rfl)
  | acquireDirect k db i =>
    unfold step
    dsimp only
    split
    · next hnew =>
      have htake : Clean server (s.take k db i .setting) ∧ Sound server (s.take k db i .setting) :=
        take_spec hclean h fun c hc => ⟨hc, hnew.2⟩
      exact ⟨iff_of_true htake.1 trivial, htake.2⟩
    · exact ⟨iff_of_true hclean trivial, h⟩
  | start k db i =>
    unfold step
    dsimp only
    split
    · have htake : Clean server (s.take k db i .showing) ∧ Sound server (s.take k db i .showing) :=
        take_spec hclean h fun c hc => hc
      exact ⟨iff_of_true htake.1 trivial, htake.2⟩
    · exact ⟨iff_of_true hclean trivial, h⟩
  | resume k r =>
    unfold step
    dsimp only
    cases huse : s.uses k with
    | none =>
      refine ⟨iff_of_true hclean fun db u heq => ?_, h⟩
      rw [huse] at heq
      cases heq
    | some use =>
      obtain ⟨db, u⟩ := use
      have hu := h.uses k db u huse
      have hcareful : Careful server s (.resume k r) ↔ u.Careful server (s.dbs db) r := by
        constructor
        · exact fun hall => hall db u huse
        · intro hc db' u' heq
          rw [huse] at heq
          cases heq
          exact hc
      rw [hcareful]
      obtain ⟨hdb, hstarted⟩ := resume_db (h.dbs db) hu r
      exact setUse_spec hclean h hdb hstarted (resume_spec (h.dbs db) hu r)
  | finish k c =>
    unfold step
    dsimp only
    cases huse : s.uses k with
    | none => exact ⟨iff_of_true hclean trivial, h⟩
    | some use =>
      obtain ⟨db, u⟩ := use
      have hu := h.uses k db u huse
      have hself : s.setDb db (s.dbs db) = s := by
        rw [Shared.setDb, Function.update_eq_self]
      -- a connection that the body has closed goes back, another one is reset first
      have hfinish : (∃ c', u.finish c = .returning c' ∧ (c'.Clean server ↔ True)) ∨
          (∀ c', u.finish c ≠ .returning c') ∧ True ∧ (u.finish c).Sound server (s.dbs db) := by
        rcases finish_spec hu c with ⟨hret, hc⟩ | ⟨hret, hsound⟩
        · exact .inl ⟨c, hret, iff_of_true hc trivial⟩
        · exact .inr ⟨hret, trivial, hsound⟩
      have hset := setUse_spec (k := k) hclean h (h.dbs db) id hfinish
      rw [hself] at hset
      exact hset

end Pool

/-- The program has just started: clean connections, databases that have not been started. -/
structure Initial (s : Shared) : Prop where
  pool : Clean server s
  dbs  : ∀ db, (s.dbs db).started = false
  uses : ∀ k, s.uses k = none

/-- **Search paths.**  In a run of careful steps the free connections are always clean, and a step
    that is not careful gives back one that is not. -/
theorem clean_of_careful {server : Path} {s₀ s : Shared} (h₀ : Initial server s₀)
    (h : Reach (step server) (Careful server) s₀ s) :
    Clean server s ∧ ∀ e, Clean server (step server e s) ↔ Careful server s e := by
  have hsound : Sound server s₀ := by
    refine ⟨fun db hstarted => ?_, fun k db u huse => ?_⟩
    · rw [h₀.dbs db] at hstarted
      cases hstarted
    · rw [h₀.uses k] at huse
      cases huse
  have hinv := h.invariant (I := fun s => Clean server s ∧ Sound server s) ⟨h₀.pool, hsound⟩
    fun s e hs hc => ⟨(step_spec hs.1 hs.2 e).1.mpr hc, (step_spec hs.1 hs.2 e).2⟩
  exact ⟨hinv.1, fun e => (step_spec hinv.1 hinv.2 e).1⟩

/-! ### A cancelled use -/

namespace SearchPathTest

def serverPath : Path := "\"$user\", public"

/-- One connection, and the database of an instance `a`. -/
def startup : Shared where
  pool  := [{ path := serverPath }]
  dbs _ := { quotedSchema := "\"mbp_a\"" }

/-- At first the pool has no connections. -/
theorem initial_startup : Initial serverPath startup where
  pool c hc := .inr (by
    obtain rfl := List.mem_singleton.mp hc
    rfl)
  dbs _     := rfl
  uses _    := rfl

/-- The database is started and takes the connection; the end of its `SET search_path`. -/
def acquire (r : Reply) : List Event :=
  [.start 0 0 0, .resume 0 ⟨.ok, true, false⟩, .resume 0 ⟨.ok, true, false⟩, .acquireDirect 0 0 0,
    .resume 0 r]

def run (es : List Event) : Shared := es.foldl (fun s e => step serverPath e s) startup

/-- The `SET` took effect, but the task was cancelled before it returned. -/
def cancelled : Reply := ⟨.cancelled, true, false⟩

end SearchPathTest

open SearchPathTest in
/-- A `SET` that fails without effect. -/
theorem clean_of_careful_raised : Clean serverPath (run (acquire ⟨.raised, false, false⟩)) := by
  refine (clean_of_careful initial_startup ?_).1
  have hstarted : Reach (step serverPath) (Careful serverPath) startup (run [.start 0 0 0]) :=
    .step (Event.start 0 0 0) .start trivial
  have hshown := hstarted.step (Event.resume 0 ⟨.ok, true, false⟩) (by
    intro db u huse
    cases huse
    trivial)
  have hcreated := hshown.step (Event.resume 0 ⟨.ok, true, false⟩) (by
    intro db u huse
    cases huse
    trivial)
  have hacquired := hcreated.step (Event.acquireDirect 0 0 0) trivial
  exact hacquired.step (Event.resume 0 ⟨.raised, false, false⟩) (by
    intro db u huse
    cases huse
    exact .inr (.inr (.inr (.inl rfl))))

open SearchPathTest in
/-- The connection goes back to the pool in the schema of the plugin. -/
theorem not_clean_cancelled :
    Reach (step serverPath) (fun _ _ => True) startup (run (acquire cancelled)) ∧
      { path := "\"mbp_a\"" } ∈ (run (acquire cancelled)).pool ∧
      ¬ Clean serverPath (run (acquire cancelled)) := by
  have hmem : { path := "\"mbp_a\"" } ∈ (run (acquire cancelled)).pool := by decide
  refine ⟨Reach.replay _, hmem, fun hclean => ?_⟩
  rcases hclean _ hmem with hclosed | hpath
  · cases hclosed
  · exact absurd hpath (by decide)

end Maubot.SearchPath
