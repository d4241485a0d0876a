import Maubot.Client.Basic
import Maubot.Client.Operations
import Maubot.Lib.Runs

namespace Maubot.Management.Credentials

/-!
# Management API — the credentials of clients

`_create_client`, `_create_or_update_client` and the part of `_update_client` that is about the
access details, cut at their `await`s, for any number of requests at once.

* `Route`, `step` — the requests and what happens to them;
* `Vouched` — the homeserver has said that the stored token is the client's and the device's;
* `vouched_of_careful` — the runs in which that always holds, and which steps break it.
-/

/-! ### The state -/

/-- The fields of a request body that are about the access details. -/
structure Data where
  homeserver  : Option String := none
  accessToken : Option String := none
  deviceId    : Option String := none
  deriving DecidableEq, Repr

/-- The `Client` object.  `whoami` is not in the source: the answer for its access token when it
    was assigned. -/
structure Object where
  id          : String
  homeserver  : Option String
  accessToken : Option String
  deviceId    : String
  whoami      : Option Whoami
  deriving DecidableEq, Repr

/-- The row of a client; its columns are `NOT NULL`. -/
structure Row where
  homeserver  : String
  accessToken : String
  deviceId    : String
  whoami      : Option Whoami
  deriving DecidableEq, Repr

/-- Where a request is. -/
inductive Task
  /-- `_create_or_update_client` awaits `Client.get(user_id)` -/
  | find (userId : String) (data : Data)
  /-- `_create_client` awaits `new_client.whoami()` -/
  | create (userId : Option String) (data : Data)
  /-- and `Client.get(whoami.user_id)` -/
  | existing (me : Whoami) (data : Data)
  /-- and `Client.get(whoami.user_id, homeserver=…, …)` -/
  | store (userId : Option String) (me : Whoami) (data : Data)
  /-- `update_access_details` awaits `new_client.whoami()`, which asks with the token `asks` -/
  | access (client : Ref) (homeserver accessToken : Option String) (deviceId : String)
    (asks : Option String)
  deriving DecidableEq, Repr

structure Accounts where
  objects : Store Object
  cache   : String → Option Ref
  rows    : String → Option Row
  tasks   : Nat → Option Task

/-- The routes that store credentials. -/
inductive Route
  /-- `POST /client/new` -/
  | new (data : Data)
  /-- `PUT /client/{id}` -/
  | put (userId : String) (data : Data)
  /-- `login` with `update_client`, for the user that has logged in -/
  | login (userId : String) (data : Data)
  /-- `register` with `update_client`, for the user that has been registered -/
  | register (userId : String) (data : Data)
  deriving DecidableEq, Repr

/-- The call that a route makes. -/
def Route.task : Route → Task
  | .new data             => .create none data
  | .put userId data      => .find userId data
  | .login userId data    => .find userId data
  | .register userId data => .create (some userId) data

inductive Event
  /-- a request, under a free number -/
  | request (k : Nat) (route : Route)
  /-- `Client.get` returns to the request -/
  | get (k : Nat)
  /-- `whoami` returns, or raises -/
  | whoami (k : Nat) (answer : Option Whoami)
  /-- `update()` of any client, by these requests or others -/
  | save (client : Ref)
  | delete (client : Ref)
  deriving DecidableEq, Repr

namespace Accounts

variable (s : Accounts)

def setTask (k : Nat) (task : Option Task) : Accounts :=
  { s with tasks := Function.update s.tasks k task }

/-- `postinit` of a new object -/
def make (o : Object) : Accounts :=
  { s with objects := s.objects.alloc o,
           cache := Function.update s.cache o.id (some s.objects.next) }

def objectOf (id : String) (row : Row) : Object :=
  ⟨id, some row.homeserver, some row.accessToken, row.deviceId, row.whoami⟩

/-- `Client.get(user_id)` -/
def get (userId : String) : Accounts × Option Ref :=
  match s.cache userId with
  | some c => (s, some c)
  | none   =>
    match s.rows userId with
    | some row => (s.make (objectOf userId row), some s.objects.next)
    | none     => (s, none)

/-- The row of a `Client.get` with access details: it is given the answer of `whoami`. -/
def insertRow (me : Whoami) (homeserver accessToken : String) (data : Data) : Accounts :=
  let row : Row := ⟨homeserver, accessToken, data.deviceId.getD "", some me⟩
  let s := { s with rows := Function.update s.rows me.userId (some row) }
  s.make (objectOf me.userId row)

/-- `Client.get(whoami.user_id, homeserver=…, access_token=…, device_id=…)` -/
def getOrInsert (me : Whoami) (data : Data) : Accounts :=
  match s.get me.userId with
  | (s, some _) => s
  | (s, none)   =>
    match data.homeserver, data.accessToken with
    | some homeserver, some accessToken =>
      if homeserver ≠ "" ∧ accessToken ≠ "" then s.insertRow me homeserver accessToken data else s
    | _, _ => s

/-- `whoami.device_id and device_id and whoami.device_id != device_id` -/
def deviceMismatch (me : Whoami) (deviceId : Option String) : Bool :=
  truthy me.deviceId && truthy deviceId && me.deviceId != deviceId

/-- `update_access_details` up to its first `await` -/
def updateAccessDetails (k : Nat) (c : Ref) (data : Data) : Accounts :=
  let o := s.objects.get c
  if !truthy data.accessToken && !truthy data.homeserver then s.setTask k none
  else
    let deviceId := data.deviceId.getD o.deviceId
    if data.accessToken = o.accessToken ∧ data.homeserver = o.homeserver ∧
        deviceId = o.deviceId then
      s.setTask k none
    else
      s.setTask k (some (.access c data.homeserver data.accessToken deviceId
        (pyOr data.accessToken o.accessToken)))

/-- The assignments of `update_access_details` -/
def assign (c : Ref) (homeserver accessToken : Option String) (deviceId : String)
    (whoami : Option Whoami) : Accounts :=
  { s with objects := s.objects.modify c fun o =>
      { o with homeserver, accessToken, deviceId, whoami } }

/-- A request goes on behind a `Client.get`. -/
def onGet (k : Nat) : Task → Accounts
  | .find userId data =>
    match s.get userId with
    | (s, some c) => s.updateAccessDetails k c data
    | (s, none)   => s.setTask k (some (.create (some userId) data))
  | .existing me data =>
    match s.get me.userId with
    | (s, some _) => s.setTask k none
    | (s, none)   => s.setTask k (some (.store none me data))
  | .store _ me data  => (s.getOrInsert me data).setTask k none
  | _                 => s

/-- A request goes on behind a `whoami`. -/
def onWhoami (k : Nat) (me : Whoami) : Task → Accounts
  | .create userId data =>
    match userId with
    | none    => s.setTask k (some (.existing me data))
    | some id =>
      if me.userId ≠ id then s.setTask k none
      else if deviceMismatch me data.deviceId then s.setTask k none
      else s.setTask k (some (.store (some id) me data))
  | .access c homeserver accessToken deviceId asks =>
    if me.userId ≠ (s.objects.get c).id then s.setTask k none
    else if deviceMismatch me (some deviceId) then s.setTask k none
    else
      (s.assign c homeserver accessToken deviceId
        (if asks = accessToken then some me else none)).setTask k none
  | _ => s

/-- `update()`: the statement is refused if a value is `None`. -/
def save (c : Ref) : Accounts :=
  let o := s.objects.get c
  match s.rows o.id, o.homeserver, o.accessToken with
  | some _, some homeserver, some accessToken =>
    let row : Row := ⟨homeserver, accessToken, o.deviceId, o.whoami⟩
    { s with rows := Function.update s.rows o.id (some row) }
  | _, _, _ => s

/-- `delete()` of the client -/
def delete (c : Ref) : Accounts :=
  let id := (s.objects.get c).id
  { s with cache := Function.update s.cache id none, rows := Function.update s.rows id none }

def step (e : Event) (s : Accounts) : Accounts :=
  match e with
  | .request k route  => if (s.tasks k).isNone then s.setTask k (some route.task) else s
  | .get k            =>
    match s.tasks k with
    | some task => s.onGet k task
    | none      => s
  | .whoami k answer  =>
    match s.tasks k, answer with
    | some task, some me => s.onWhoami k me task
    -- the error is the answer of the request
    | some _, none       => s.setTask k none
    | none, _            => s
  | .save c           => s.save c
  | .delete c         => s.delete c

end Accounts

/-! ### The law -/

open Accounts

/-- The homeserver has said of the stored token that it is the user's, and the device's where both
    are known. -/
def VouchedFor (id deviceId : String) (whoami : Option Whoami) : Prop :=
  ∃ me, whoami = some me ∧ me.userId = id ∧
    ∀ d, me.deviceId = some d → d ≠ "" → deviceId ≠ "" → d = deviceId

/-- Every row, and every object with a token, has credentials that have been vouched for. -/
structure Vouched (s : Accounts) : Prop where
  rows    : ∀ id row, s.rows id = some row → VouchedFor id row.deviceId row.whoami
  objects : ∀ c, (s.objects.get c).accessToken ≠ none →
    VouchedFor (s.objects.get c).id (s.objects.get c).deviceId (s.objects.get c).whoami

/-- A new client is not given a device id that is not the token's, and no access details come with
    an empty access token. -/
def Careful (s : Accounts) : Event → Prop
  | .get k           => ∀ me data, s.tasks k = some (.store none me data) →
    (s.get me.userId).2 = none → truthy data.homeserver = true → truthy data.accessToken = true →
      deviceMismatch me data.deviceId = false
  | .whoami k answer => ∀ me c homeserver deviceId asks, answer = some me →
    s.tasks k = some (.access c homeserver (some "") deviceId asks) →
      me.userId = (s.objects.get c).id → deviceMismatch me (some deviceId) = false →
        asks = some ""
  | _                => True

/-- What a task has checked, and which token it asks about. -/
def Task.Ready : Task → Prop
  | .store (some _) me data       => deviceMismatch me data.deviceId = false
  | .access _ _ accessToken _ asks => truthy accessToken = true → asks = accessToken
  | _                             => True

def Ready (s : Accounts) : Prop := ∀ k task, s.tasks k = some task → task.Ready

/-! ### What is vouched for -/

section Steps

variable {s : Accounts} {me : Whoami} {k : Nat} {c : Ref}

/-- An empty device id is no mismatch. -/
theorem deviceMismatch_getD (me : Whoami) (deviceId : Option String) :
    deviceMismatch me (some (deviceId.getD "")) = deviceMismatch me deviceId := by
  cases deviceId with
  | some d => rfl
  | none => simp [deviceMismatch, truthy]

/-- Who is vouched for has the answer's user id, and a device that does not contradict it. -/
theorem vouchedFor_iff {id deviceId : String} :
    VouchedFor id deviceId (some me) ↔
      me.userId = id ∧ deviceMismatch me (some deviceId) = false := by
  have hdevice : (∀ d, me.deviceId = some d → d ≠ "" → deviceId ≠ "" → d = deviceId) ↔
      deviceMismatch me (some deviceId) = false := by
    unfold deviceMismatch
    cases me.deviceId with
    | none => simp [truthy]
    | some d =>
      simp only [Option.some.injEq, forall_eq', truthy, Bool.and_eq_false_imp, Bool.and_eq_true,
        bne_iff_ne, bne_eq_false_iff_eq, and_imp]
  rw [← hdevice]
  constructor
  · rintro ⟨me', hme, hid, hd⟩
    obtain rfl := Option.some.inj hme
    exact ⟨hid, hd⟩
  · rintro ⟨hid, hd⟩
    exact ⟨me, rfl, hid, hd⟩

/-- The requests that wait are no clients. -/
theorem vouched_setTask {task : Option Task} : Vouched (s.setTask k task) ↔ Vouched s :=
  ⟨fun h => ⟨h.rows, h.objects⟩, fun h => ⟨h.rows, h.objects⟩⟩

/-- A client that is made must be vouched for, -/
theorem vouched_make {o : Object} (h : Vouched s) (ho : VouchedFor o.id o.deviceId o.whoami) :
    Vouched (s.make o) where
  rows      := h.rows
  objects c := by
    rw [make, Store.get_alloc]
    split
    · exact fun _ => ho
    · exact h.objects c

/-- as one from the table is. -/
theorem vouched_get (h : Vouched s) (userId : String) : Vouched (s.get userId).1 := by
  unfold Accounts.get
  cases s.cache userId with
  | some c => exact h
  | none =>
    cases hrow : s.rows userId with
    | none => exact h
    | some row => exact vouched_make h (h.rows userId row hrow)

/-- A new row is vouched for exactly if its device is the answer's. -/
theorem vouched_insertRow (h : Vouched s) (homeserver accessToken : String) (data : Data) :
    Vouched (s.insertRow me homeserver accessToken data) ↔
      deviceMismatch me data.deviceId = false := by
  have hiff : VouchedFor me.userId (data.deviceId.getD "") (some me) ↔
      deviceMismatch me data.deviceId = false := by
    rw [vouchedFor_iff, deviceMismatch_getD]
    exact and_iff_right rfl
  rw [← hiff]
  constructor
  · intro hv
    exact hv.rows me.userId ⟨homeserver, accessToken, data.deviceId.getD "", some me⟩
      (Function.update_self _ _ _)
  · intro hv
    refine vouched_make ⟨fun id row hrow => ?_, h.objects⟩ hv
    rcases of_update_eq_some hrow with ⟨rfl, heq⟩ | ⟨-, hold⟩
    · obtain rfl := Option.some.inj heq
      exact hv
    · exact h.rows id row hold

/-- An insertion is vouched for exactly if the device is the token's. -/
theorem vouched_getOrInsert (h : Vouched s) (me : Whoami) (data : Data) :
    Vouched (s.getOrInsert me data) ↔ ((s.get me.userId).2 = none →
      truthy data.homeserver = true → truthy data.accessToken = true →
        deviceMismatch me data.deviceId = false) := by
  have hget := vouched_get h me.userId
  unfold getOrInsert
  rcases hr : s.get me.userId with ⟨t, _ | c⟩ <;> rw [hr] at hget
  · rcases hh : data.homeserver with _ | homeserver
    · simpa [truthy] using hget
    rcases ha : data.accessToken with _ | accessToken
    · simpa [truthy] using hget
    by_cases hne : homeserver ≠ "" ∧ accessToken ≠ ""
    · simp only [if_pos hne, truthy, vouched_insertRow hget]
      simp [hne.1, hne.2]
    · have hno : ¬ (truthy (some homeserver) = true ∧ truthy (some accessToken) = true) := by
        simpa [truthy] using hne
      simp only [if_neg hne, true_imp_iff]
      exact iff_of_true hget fun h₁ h₂ => absurd ⟨h₁, h₂⟩ hno
  · exact iff_of_true hget nofun

/-- So is one that is assigned, if it has a token. -/
theorem vouched_assign (h : Vouched s) {homeserver accessToken : Option String} {deviceId : String}
    {whoami : Option Whoami} : Vouched (s.assign c homeserver accessToken deviceId whoami) ↔
      (accessToken ≠ none → VouchedFor (s.objects.get c).id deviceId whoami) := by
  constructor
  · intro hv ha
    have hobject := hv.objects c
    rw [assign, Store.get_modify_self] at hobject
    exact hobject ha
  · intro ha
    refine ⟨h.rows, fun q => ?_⟩
    rw [assign, Store.get_modify]
    split
    · next hq =>
      subst hq
      exact ha
    · exact h.objects q

/-- An update of the access details asks first. -/
theorem vouched_updateAccessDetails (h : Vouched s) (k : Nat) (c : Ref) (data : Data) :
    Vouched (s.updateAccessDetails k c data) := by
  unfold updateAccessDetails
  dsimp only
  split
  · exact vouched_setTask.mpr h
  · split <;> exact vouched_setTask.mpr h

/-- What is saved is what the object has. -/
theorem vouched_save (h : Vouched s) (c : Ref) : Vouched (s.save c) := by
  unfold save
  dsimp only
  split
  · next hrow hh ha =>
    refine ⟨fun id row hid => ?_, h.objects⟩
    rcases of_update_eq_some hid with ⟨rfl, heq⟩ | ⟨-, hold⟩
    · obtain rfl := Option.some.inj heq
      exact h.objects c (by rw [ha]; nofun)
    · exact h.rows id row hold
  · exact h

/-- What is deleted is nobody's. -/
theorem vouched_delete (h : Vouched s) (c : Ref) : Vouched (s.delete c) := by
  refine ⟨fun id row hid => ?_, h.objects⟩
  rcases of_update_eq_some hid with ⟨-, heq⟩ | ⟨-, hold⟩
  · cases heq
  · exact h.rows id row hold

/-! ### What the tasks have checked -/

/-- A lookup leaves the requests that wait. -/
theorem tasks_get (s : Accounts) (userId : String) : (s.get userId).1.tasks = s.tasks := by
  unfold Accounts.get
  cases s.cache userId with
  | some c => rfl
  | none => cases s.rows userId <;> rfl

/-- So does an insertion, -/
theorem tasks_getOrInsert (s : Accounts) (me : Whoami) (data : Data) :
    (s.getOrInsert me data).tasks = s.tasks := by
  have hget := tasks_get s me.userId
  unfold getOrInsert
  rcases hr : s.get me.userId with ⟨t, _ | c⟩ <;> rw [hr] at hget
  · dsimp only
    split
    · split
      · exact hget
      · exact hget
    · exact hget
  · exact hget

/-- and saving. -/
theorem tasks_save (s : Accounts) (c : Ref) : (s.save c).tasks = s.tasks := by
  unfold save
  dsimp only
  split <;> rfl

/-- Whether the requests are ready is seen from them. -/
theorem ready_of_tasks {t : Accounts} (h : Ready s) (ht : t.tasks = s.tasks) : Ready t := by
  intro k task htask
  rw [ht] at htask
  exact h k task htask

/-- A ready request may wait. -/
theorem ready_setTask (h : Ready s) {task : Option Task} (ht : ∀ t, task = some t → t.Ready) :
    Ready (s.setTask k task) := by
  intro j t htask
  rcases of_update_eq_some htask with ⟨rfl, heq⟩ | ⟨-, hold⟩
  · exact ht t heq
  · exact h j t hold

/-- A request may end. -/
theorem ready_endTask (h : Ready s) : Ready (s.setTask k none) := by
  refine ready_setTask h fun t ht => ?_
  cases ht

/-- Then an update of access details waits for its answer, -/
theorem ready_updateAccessDetails (h : Ready s) (k : Nat) (c : Ref) (data : Data) :
    Ready (s.updateAccessDetails k c data) := by
  unfold updateAccessDetails
  dsimp only
  split
  · exact ready_endTask h
  · split
    · exact ready_endTask h
    · refine ready_setTask h fun t ht => ?_
      cases ht
      intro ha
      exact if_pos ha

/-- a creation for its lookup, -/
theorem ready_onGet (h : Ready s) (k : Nat) (task : Task) : Ready (s.onGet k task) := by
  cases task with
  | find userId data =>
    have hready := ready_of_tasks h (tasks_get s userId)
    unfold onGet
    dsimp only
    rcases hr : s.get userId with ⟨t, _ | c⟩ <;> rw [hr] at hready
    · exact ready_setTask hready fun t ht => by cases ht; trivial
    · exact ready_updateAccessDetails hready k c data
  | existing me data =>
    have hready := ready_of_tasks h (tasks_get s me.userId)
    unfold onGet
    dsimp only
    rcases hr : s.get me.userId with ⟨t, _ | c⟩ <;> rw [hr] at hready
    · exact ready_setTask hready fun t ht => by cases ht; trivial
    · exact ready_endTask hready
  | store userId me data =>
    exact ready_endTask (ready_of_tasks h (tasks_getOrInsert s me data))
  | create userId data => exact h
  | access c homeserver accessToken deviceId asks => exact h

/-- and either goes on when it is there. -/
theorem ready_onWhoami (h : Ready s) (k : Nat) (me : Whoami) (task : Task) :
    Ready (s.onWhoami k me task) := by
  cases task with
  | create userId data =>
    cases userId with
    | none => exact ready_setTask h fun t ht => by cases ht; trivial
    | some id =>
      unfold onWhoami
      dsimp only
      by_cases hid : me.userId ≠ id
      · rw [if_pos hid]
        exact ready_endTask h
      · rw [if_neg hid]
        by_cases hd : deviceMismatch me data.deviceId = true
        · rw [if_pos hd]
          exact ready_endTask h
        · rw [if_neg hd]
          -- a creation goes on only for the right user and device
          refine ready_setTask h fun t ht => ?_
          cases ht
          show deviceMismatch me data.deviceId = false
          simpa using hd
  | access c homeserver accessToken deviceId asks =>
    unfold onWhoami
    dsimp only
    split
    · exact ready_endTask h
    · split
      · exact ready_endTask h
      · exact ready_endTask (ready_of_tasks h rfl)
  | find userId data => exact h
  | existing me' data => exact h
  | store userId me' data => exact h

/-- So the requests are ready after every step. -/
theorem ready_step (h : Ready s) (e : Event) : Ready (step e s) := by
  cases e with
  | request k route =>
    unfold step
    dsimp only
    split
    · refine ready_setTask h fun t ht => ?_
      cases ht
      cases route <;> trivial
    · exact h
  | get k =>
    unfold step
    dsimp only
    split
    · exact ready_onGet h k _
    · exact h
  | whoami k answer =>
    unfold step
    dsimp only
    split
    · exact ready_onWhoami h k _ _
    · exact ready_endTask h
    · exact h
  | save c => exact ready_of_tasks h (tasks_save s c)
  | delete c => exact ready_of_tasks h rfl

/-! ### The steps -/

/-- Behind a `Client.get`, only a new client has new credentials. -/
theorem vouched_onGet_iff (h : Vouched s) (hready : Ready s) {task : Task}
    (htask : s.tasks k = some task) : Vouched (s.onGet k task) ↔ Careful s (.get k) := by
  have hother : (∀ me data, task ≠ .store none me data) → Careful s (.get k) := by
    intro hne me data heq
    rw [htask] at heq
    exact absurd (Option.some.inj heq) (hne me data)
  cases task with
  -- a lookup by the path's user finds a client, or asks the homeserver
  | find userId data =>
    have hv := vouched_get h userId
    refine iff_of_true ?_ (hother nofun)
    unfold onGet
    dsimp only
    rcases hr : s.get userId with ⟨t, _ | c⟩ <;> rw [hr] at hv
    · exact vouched_setTask.mpr hv
    · exact vouched_updateAccessDetails hv k c data
  -- a lookup by the homeserver's answer
  | existing me data =>
    have hv := vouched_get h me.userId
    refine iff_of_true ?_ (hother nofun)
    unfold onGet
    dsimp only
    rcases hr : s.get me.userId with ⟨t, _ | c⟩ <;> rw [hr] at hv <;> exact vouched_setTask.mpr hv
  -- only the insertion can be of a device that is not the answer's
  | store userId me data =>
    unfold onGet
    dsimp only
    rw [vouched_setTask, vouched_getOrInsert h]
    cases userId with
    | none =>
      constructor
      · intro hd me' data' heq
        rw [htask] at heq
        cases heq
        exact hd
      · exact fun hcareful => hcareful me data htask
    | some id =>
      exact iff_of_true (fun _ _ _ => hready k _ htask) (hother nofun)
  | create userId data => exact iff_of_true h (hother nofun)
  | access c homeserver accessToken deviceId asks => exact iff_of_true h (hother nofun)

/-- Behind a `whoami`, only an update assigns credentials. -/
theorem vouched_onWhoami_iff (h : Vouched s) (hready : Ready s) {task : Task}
    (htask : s.tasks k = some task) (me : Whoami) :
    Vouched (s.onWhoami k me task) ↔ Careful s (.whoami k (some me)) := by
  have hother : (∀ c homeserver deviceId asks,
      task ≠ .access c homeserver (some "") deviceId asks) → Careful s (.whoami k (some me)) := by
    intro hne me' c homeserver deviceId asks _ heq
    rw [htask] at heq
    exact absurd (Option.some.inj heq) (hne c homeserver deviceId asks)
  cases task with
  | create userId data =>
    refine iff_of_true ?_ (hother nofun)
    cases userId with
    | none => exact vouched_setTask.mpr h
    | some id =>
      unfold onWhoami
      dsimp only
      split
      · exact vouched_setTask.mpr h
      · split <;> exact vouched_setTask.mpr h
  | access c homeserver accessToken deviceId asks =>
    -- the token that is assigned was asked about, unless it is empty
    have hcareful : Careful s (.whoami k (some me)) ↔ (accessToken = some "" →
        me.userId = (s.objects.get c).id → deviceMismatch me (some deviceId) = false →
          asks = some "") := by
      constructor
      · rintro hall rfl
        exact hall me c homeserver deviceId asks rfl htask
      · intro hall me' c' homeserver' deviceId' asks' hme heq
        cases hme
        rw [htask] at heq
        cases heq
        exact hall rfl
    rw [hcareful]
    unfold onWhoami
    dsimp only
    by_cases hid : me.userId ≠ (s.objects.get c).id
    · rw [if_pos hid]
      exact iff_of_true (vouched_setTask.mpr h) fun _ h' => absurd h' hid
    rw [if_neg hid]
    by_cases hd : deviceMismatch me (some deviceId) = true
    · rw [if_pos hd]
      exact iff_of_true (vouched_setTask.mpr h) fun _ _ h' => by rw [hd] at h'; cases h'
    have hd' : deviceMismatch me (some deviceId) = false := by simpa using hd
    rw [if_neg hd, vouched_setTask, vouched_assign h]
    by_cases hasks : asks = accessToken
    · rw [if_pos hasks]
      refine iff_of_true (fun _ => vouchedFor_iff.mpr ⟨not_not.mp hid, hd'⟩) ?_
      rintro rfl - -
      exact hasks
    · rw [if_neg hasks]
      have hfalsy : truthy accessToken ≠ true := fun ht => hasks (hready k _ htask ht)
      cases accessToken with
      | none => exact iff_of_true (fun hne => absurd rfl hne) nofun
      | some t =>
        obtain rfl : t = "" := by simpa [truthy] using hfalsy
        refine iff_of_false (fun hv => ?_) fun hv => hasks (hv rfl (not_not.mp hid) hd')
        obtain ⟨me', hme, -⟩ := hv nofun
        cases hme
  | find userId data => exact iff_of_true h (hother nofun)
  | existing me' data => exact iff_of_true h (hother nofun)
  | store userId me' data => exact iff_of_true h (hother nofun)

/-- **A step keeps the credentials vouched for exactly if it is careful.** -/
theorem vouched_step_iff (h : Vouched s) (hready : Ready s) (e : Event) :
    Vouched (step e s) ↔ Careful s e := by
  cases e with
  | request k route =>
    refine iff_of_true ?_ trivial
    unfold step
    dsimp only
    split
    · exact vouched_setTask.mpr h
    · exact h
  -- only reading a row and the answer of the homeserver can break it
  | get k =>
    unfold step
    dsimp only
    cases htask : s.tasks k with
    | some task => exact vouched_onGet_iff h hready htask
    | none =>
      refine iff_of_true h fun me data heq => ?_
      rw [htask] at heq
      cases heq
  | whoami k answer =>
    unfold step
    dsimp only
    cases htask : s.tasks k with
    | none =>
      refine iff_of_true h fun me c homeserver deviceId asks _ heq => ?_
      rw [htask] at heq
      cases heq
    | some task =>
      cases answer with
      | none => exact iff_of_true (vouched_setTask.mpr h) nofun
      | some me => exact vouched_onWhoami_iff h hready htask me
  | save c => exact iff_of_true (vouched_save h c) trivial
  | delete c => exact iff_of_true (vouched_delete h c) trivial

end Steps

/-- **Credentials.**  In a run of careful steps they are always vouched for, and a step that is
    not careful ends that. -/
theorem vouched_of_careful {s₀ : Accounts} (h₀ : Vouched s₀) (htasks : ∀ k, s₀.tasks k = none)
    {s : Accounts} (h : Reach step Careful s₀ s) :
    Vouched s ∧ ∀ e, Vouched (step e s) ↔ Careful s e := by
  have hready : Ready s₀ := by
    intro k task htask
    rw [htasks k] at htask
    cases htask
  have hinv : Vouched s ∧ Ready s := h.invariant (I := fun s => Vouched s ∧ Ready s) ⟨h₀, hready⟩
    fun s e hs hc => ⟨(vouched_step_iff hs.1 hs.2 e).mpr hc, ready_step hs.2 e⟩
  exact ⟨hinv.1, vouched_step_iff hinv.1 hinv.2⟩

/-! ### A new client with another device -/

namespace CredentialsTest

/-- No clients, and no requests. -/
def empty : Accounts where
  objects := ⟨fun _ => ⟨"", none, none, "", none⟩, 0⟩
  cache _ := none
  rows _  := none
  tasks _ := none

/-- At first there is nobody to vouch for. -/
theorem vouched_empty : Vouched empty := ⟨nofun, fun _ h => absurd rfl h⟩

def data (deviceId : String) : Data :=
  ⟨some "https://example.com", some "token", some deviceId⟩

/-- What the homeserver says of the token. -/
def me : Whoami := ⟨"@bot:example.com", some "PHONE"⟩

/-- `POST /client/new` -/
def create (deviceId : String) : List Event :=
  [.request 0 (.new (data deviceId)), .whoami 0 (some me), .get 0, .get 0]

def run (es : List Event) : Accounts := es.foldl (fun s e => step e s) empty

/-- The new client has its row. -/
theorem rows_create (deviceId : String) : (run (create deviceId)).rows "@bot:example.com" =
    some ⟨"https://example.com", "token", deviceId, some me⟩ := by
  rfl

end CredentialsTest

open CredentialsTest in
/-- A client that is created with the device of its token. -/
theorem vouched_of_careful_phone : Vouched (run (create "PHONE")) := by
  have hasked : Reach step Careful empty (run [.request 0 (.new (data "PHONE"))]) :=
    .step (Event.request 0 (.new (data "PHONE"))) .start trivial
  have hanswered := hasked.step (Event.whoami 0 (some me)) (by
    intro _ _ _ _ _ _ heq
    cases heq)
  have hchecked := hanswered.step (Event.get 0) (by
    intro _ _ heq
    cases heq)
  have hstored := hchecked.step (Event.get 0) (by
    intro _ _ heq _ _ _
    cases heq
    decide)
  exact (vouched_of_careful vouched_empty (fun _ => rfl) hstored).1

open CredentialsTest in
/-- The device of the request is stored although the token is another device's. -/
theorem not_vouched_laptop :
    Reach step (fun _ _ => True) empty (run (create "LAPTOP")) ∧
      ¬ Vouched (run (create "LAPTOP")) := by
  refine ⟨Reach.replay _, fun h => ?_⟩
  obtain ⟨-, hd⟩ := vouchedFor_iff.mp (h.rows _ _ (rows_create "LAPTOP"))
  exact absurd hd (by decide)

end Maubot.Management.Credentials
