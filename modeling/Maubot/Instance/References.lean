import Maubot.Instance.Cache
import Maubot.Instance.Exceptions

namespace Maubot

open Prog

/-!
# Plugin instances — the references of loaders and clients

`load`, `update_primary_user`, `update_type` and `delete` keep the fields `loader` and
`client` of an instance and the `references` sets of those objects in step by hand, and a
set finds an instance only under the hash of the id it had when it was added.

* `LinkedBy lo cl` — the sets record the loader `lo j` and the client `cl j` for each live
  instance `j`, under the hash of its present id;
* `Linked` — they record the fields; it survives every operation but an `update_id` that
  changes the hash of a linked instance (`Linked.exec`);
* `references_iff_not_unlinks` — the resulting property over whole runs.
-/

variable {L : Type} {S : Setup L}

namespace PluginInstance

/-- The sets record the loader `lo j` and the client `cl j` of each live instance `j`. -/
structure LinkedBy (S : Setup L) (lo cl : Ref → Option Ref) (w : World L) : Prop where
  ids         : ∀ i j, Live w i → Live w j → (w.instances.get i).id = (w.instances.get j).id → i = j
  rows        : ∀ i, Live w i → (w.instanceRows (w.instances.get i).id).isSome = true
  clientRows  : ∀ i, Live w i → (w.clientRows (w.instances.get i).primaryUser).isSome = true
  clientCache : ∀ u c, w.clientCache u = some c →
    (w.clients.get c).id = u ∧ c < w.clients.next ∧ (w.clientRows u).isSome = true
  allocated   : ∀ j c, Live w j → cl j = some c → c < w.clients.next
  loaders     : ∀ l, PySet.Exact (hash S w) (fun j => Live w j ∧ lo j = some l)
    (w.loaderReferences l)
  clients     : ∀ c, c < w.clients.next →
    PySet.Exact (hash S w) (fun j => Live w j ∧ cl j = some c) (w.clients.get c).references
  removals    : ∀ i, Failure.removeReference i ∉ w.failures

/-- The sets record the fields of the live instances. -/
def Linked (S : Setup L) (w : World L) : Prop :=
  LinkedBy S (fun j => (w.instances.get j).loader) (fun j => (w.instances.get j).client) w

namespace LinkedBy

variable {lo cl lo' cl' : Ref → Option Ref} {w w' : World L}

/-- Only the links of live instances matter. -/
theorem congr (h : LinkedBy S lo cl w) (hlo : ∀ j, Live w j → lo' j = lo j)
    (hcl : ∀ j, Live w j → cl' j = cl j) : LinkedBy S lo' cl' w :=
  { h with
    allocated := fun j c hj hc => h.allocated j c hj (by rw [← hcl j hj]; exact hc)
    loaders := fun l => (h.loaders l).congr fun j => and_congr_right fun hj => by rw [hlo j hj]
    clients := fun c hc => (h.clients c hc).congr fun j => and_congr_right fun hj => by
      rw [hcl j hj] }

/-- No two live instances are equal for Python. -/
theorem apart (h : LinkedBy S lo cl w) {P : Ref → Prop} (hP : ∀ a, P a → Live w a) {i : Ref}
    (hi : Live w i) : PySet.Apart (hash S w) (eqv w) P i := by
  intro a ha _ heq
  simp only [eqv, Bool.and_eq_true, beq_iff_eq] at heq
  exact h.ids a i (hP a ha) hi heq.1

/-- What links nothing leaves them. -/
theorem of_links (hl : LinksUnchanged S w w') (h : LinkedBy S lo cl w) : LinkedBy S lo cl w' := by
  have hfields (i : Ref) := eq_of_links (hl.links i)
  have hid (i : Ref) : (w'.instances.get i).id = (w.instances.get i).id := (hfields i).1
  have hlive (i : Ref) : Live w' i ↔ Live w i := by
    rw [Live, Live, hl.next, (hfields i).2.2.2.2.2]
  have hhash : hash S w' = hash S w := by
    funext i
    rw [hash, hash, hid]
  constructor
  · intro i j hi hj
    rw [hid, hid]
    exact h.ids i j ((hlive i).mp hi) ((hlive j).mp hj)
  · intro i hi
    rw [hl.rows, hid]
    exact h.rows i ((hlive i).mp hi)
  · intro i hi
    rw [hl.clientRows, (hfields i).2.2.1]
    exact h.clientRows i ((hlive i).mp hi)
  · rw [hl.clientCache, hl.clients, hl.clientRows]
    exact h.clientCache
  · rw [hl.clients]
    exact fun j c hj => h.allocated j c ((hlive j).mp hj)
  · intro l
    rw [hhash, hl.loaderReferences]
    exact (h.loaders l).congr fun j => by rw [hlive]
  · rw [hhash, hl.clients]
    exact fun c hc => (h.clients c hc).congr fun j => by rw [hlive]
  · exact fun i hi => h.removals i (hl.removals i hi)

/-- An assignment to an instance that leaves its id alone. -/
theorem setInstance (h : LinkedBy S lo cl w) (i : Ref) {f : PluginInstance → PluginInstance}
    (hid : ∀ inst, (f inst).id = inst.id) (hdel : ∀ inst, (f inst).deleted = inst.deleted)
    (huser : (w.clientRows (f (w.instances.get i)).primaryUser).isSome = true) :
    LinkedBy S lo cl { w with instances := w.instances.modify i f } := by
  have hids := Store.view_modify w.instances i f PluginInstance.id hid
  have hlive (j : Ref) : Live { w with instances := w.instances.modify i f } j ↔ Live w j := by
    show _ ∧ _ ↔ _ ∧ _
    rw [Store.view_modify w.instances i f PluginInstance.deleted hdel]
    rfl
  -- hashes are those of the ids, which stay, so each set still holds what it held
  have hhash : hash S { w with instances := w.instances.modify i f } = hash S w := by
    funext j
    exact congrArg S.hash (hids j)
  constructor
  · intro j k hj hk
    rw [hids, hids]
    exact h.ids j k ((hlive j).mp hj) ((hlive k).mp hk)
  · intro j hj
    rw [hids]
    exact h.rows j ((hlive j).mp hj)
  · intro j hj
    rw [Store.get_modify]
    split
    · next hji => rw [hji]; exact huser
    · exact h.clientRows j ((hlive j).mp hj)
  · exact h.clientCache
  · exact fun j c hj => h.allocated j c ((hlive j).mp hj)
  · intro l
    rw [hhash]
    exact (h.loaders l).congr fun j => by rw [hlive]
  · rw [hhash]
    exact fun c hc => (h.clients c hc).congr fun j => by rw [hlive]
  · exact h.removals

/-- An instance is added at its loader. -/
theorem addToLoader (h : LinkedBy S lo cl w) {i l : Ref} (hi : Live w i)
    (hlo : lo i = none ∨ lo i = some l) :
    LinkedBy S (Function.update lo i (some l)) cl ((addToLoader S i l).exec w).2 := by
  refine { h with loaders := fun q => ?_ }
  show PySet.Exact (hash S w) (fun j => Live w j ∧ Function.update lo i (some l) j = some q)
    (Function.update w.loaderReferences l _ q)
  rcases eq_or_ne q l with rfl | hq
  · rw [Function.update_self]
    refine ((h.loaders q).add (h.apart (fun _ ha => ha.1) hi)).congr fun j => ?_
    rcases eq_or_ne j i with rfl | hj
    · simp [hi]
    · simp [hj]
  · rw [Function.update_of_ne hq]
    refine (h.loaders q).congr fun j => and_congr_right fun _ => ?_
    rcases eq_or_ne j i with rfl | hj
    · rcases hlo with hlo | hlo <;> simp [hlo, hq.symm]
    · rw [Function.update_of_ne hj]

/-- An assignment to the references of a client. -/
theorem setReferences (h : LinkedBy S lo cl w) {c : Ref} {s : PySet Ref}
    (halloc : ∀ j q, Live w j → cl' j = some q → q < w.clients.next)
    (hc : PySet.Exact (hash S w) (fun j => Live w j ∧ cl' j = some c) s)
    (hne : ∀ j q, q ≠ c → (cl' j = some q ↔ cl j = some q)) :
    LinkedBy S lo cl' ((Maubot.setReferences c s : Action L Unit).exec w).2 := by
  refine { h with
    allocated := halloc
    clientCache := fun u q hq => ?_
    clients := fun q hlt => ?_ }
  · have hid := Store.view_modify w.clients c (fun cl => { cl with references := s }) Client.id
      (fun _ => rfl) q
    exact ⟨hid.trans (h.clientCache u q hq).1, (h.clientCache u q hq).2⟩
  · show PySet.Exact (hash S w) (fun j => Live w j ∧ cl' j = some q)
      ((w.clients.modify c fun cl => { cl with references := s }).get q).references
    rcases eq_or_ne q c with rfl | hq
    · rw [Store.get_modify_self]
      exact hc
    · rw [Store.get_modify_ne _ _ hq]
      exact (h.clients q hlt).congr fun j => and_congr_right fun _ => (hne j q hq).symm

/-- It is added at its client. -/
theorem addToClient (h : LinkedBy S lo cl w) {i c : Ref} (hi : Live w i) (hc : c < w.clients.next)
    (hcl : cl i = none ∨ cl i = some c) :
    LinkedBy S lo (Function.update cl i (some c)) ((addToClient S i c).exec w).2 := by
  refine h.setReferences (fun j q hj hq => ?_) (PySet.Exact.congr
    ((h.clients c hc).add (h.apart (fun _ ha => ha.1) hi)) fun j => ?_) fun j q hq => ?_
  · rcases eq_or_ne j i with rfl | hji
    · rw [Function.update_self, Option.some.injEq] at hq
      exact hq ▸ hc
    · rw [Function.update_of_ne hji] at hq
      exact h.allocated j q hj hq
  · rcases eq_or_ne j i with rfl | hji
    · simp [hi]
    · simp [hji]
  · rcases eq_or_ne j i with rfl | hji
    · rcases hcl with hcl | hcl <;> simp [hcl, hq.symm]
    · rw [Function.update_of_ne hji]

/-- What is recorded can be taken back. -/
theorem removeFromLoader (h : LinkedBy S lo cl w) {i : Ref} (hi : Live w i)
    (hlo : (w.instances.get i).loader = lo i) :
    ∃ w', (removeFromLoader S i).exec w = (.ok (), w') ∧ w'.instances = w.instances ∧
      LinkedBy S (Function.update lo i none) cl w' := by
  cases hl : lo i with
  | none =>
    refine ⟨w, ?_, rfl, ?_⟩
    · simp [PluginInstance.removeFromLoader, hlo, hl]
    · rwa [← hl, Function.update_eq_self]
  | some l =>
    obtain ⟨s, hs, hexact⟩ := (h.loaders l).remove (h.apart (fun _ ha => ha.1) hi) ⟨hi, hl⟩
    refine ⟨((setLoaderReferences l s : Action L Unit).exec w).2, ?_, rfl,
      { h with loaders := fun q => ?_ }⟩
    · simp [PluginInstance.removeFromLoader, hlo, hl, hs, setLoaderReferences]
    show PySet.Exact (hash S w) (fun j => Live w j ∧ Function.update lo i none j = some q)
      (Function.update w.loaderReferences l s q)
    rcases eq_or_ne q l with rfl | hq
    · rw [Function.update_self]
      refine hexact.congr fun j => ?_
      rcases eq_or_ne j i with rfl | hj
      · simp
      · simp [hj]
    · rw [Function.update_of_ne hq]
      refine (h.loaders q).congr fun j => and_congr_right fun _ => ?_
      rcases eq_or_ne j i with rfl | hj
      · simp [hl, hq.symm]
      · rw [Function.update_of_ne hj]

/-- And removed there, where it is found. -/
theorem removeFromClient (h : LinkedBy S lo cl w) {i : Ref} (hi : Live w i)
    (hcl : (w.instances.get i).client = cl i) :
    ∃ w', (removeFromClient S i).exec w = (.ok (), w') ∧ w'.instances = w.instances ∧
      w'.clients.next = w.clients.next ∧ LinkedBy S lo (Function.update cl i none) w' := by
  cases hc : cl i with
  | none =>
    refine ⟨w, ?_, rfl, rfl, ?_⟩
    · simp [PluginInstance.removeFromClient, hcl, hc]
    · rwa [← hc, Function.update_eq_self]
  | some c =>
    obtain ⟨s, hs, hexact⟩ := (h.clients c (h.allocated i c hi hc)).remove
      (h.apart (fun _ ha => ha.1) hi) ⟨hi, hc⟩
    refine ⟨_, ?_, ?_, ?_, h.setReferences (c := c) (s := s) ?_ (hexact.congr ?_) ?_⟩
    · simp [PluginInstance.removeFromClient, hcl, hc, hs, Maubot.setReferences, setClient]
    · rfl
    · rfl
    · intro j q hj hq
      rcases eq_or_ne j i with rfl | hji
      · simp at hq
      · rw [Function.update_of_ne hji] at hq
        exact h.allocated j q hj hq
    · intro j
      rcases eq_or_ne j i with rfl | hji
      · simp
      · simp [hji]
    · intro j q hq
      rcases eq_or_ne j i with rfl | hji
      · simp [hc, hq.symm]
      · rw [Function.update_of_ne hji]

/-- Making a client adds no reference. -/
theorem made (h : LinkedBy S lo cl w) {u : String} {row : ClientRow}
    (hrow : w.clientRows u = some row) (hm : Client.Made u row w w') : LinkedBy S lo cl w' := by
  have hinst : w'.instances = w.instances := by rw [hm.others]
  have hrows : w'.instanceRows = w.instanceRows := by rw [hm.others]
  have hcrows : w'.clientRows = w.clientRows := by rw [hm.others]
  have hcache : w'.clientCache = Function.update w.clientCache u (some w.clients.next) := by
    rw [hm.others]
  have hrefs : w'.loaderReferences = w.loaderReferences := by rw [hm.others]
  have hfail : w'.failures = w.failures := by rw [hm.others]
  have hlive (j : Ref) : Live w' j ↔ Live w j := by rw [Live, Live, hinst]
  have hhash : hash S w' = hash S w := by
    funext j
    rw [hash, hash, hinst]
  constructor
  · rw [hinst]
    exact fun j k hj hk => h.ids j k ((hlive j).mp hj) ((hlive k).mp hk)
  · rw [hinst, hrows]
    exact fun j hj => h.rows j ((hlive j).mp hj)
  · rw [hinst, hcrows]
    exact fun j hj => h.clientRows j ((hlive j).mp hj)
  · intro v c hc
    rw [hcache] at hc
    rw [hm.nextClient, hcrows]
    rcases eq_or_ne v u with rfl | hv
    · rw [Function.update_self, Option.some.injEq] at hc
      subst hc
      exact ⟨hm.id, Nat.lt_succ_self _, by rw [hrow]; rfl⟩
    · rw [Function.update_of_ne hv] at hc
      obtain ⟨hid, hlt, hr⟩ := h.clientCache v c hc
      exact ⟨by rw [hm.clients c hlt]; exact hid, Nat.lt_succ_of_lt hlt, hr⟩
  · rw [hm.nextClient]
    exact fun j c hj hc => Nat.lt_succ_of_lt (h.allocated j c ((hlive j).mp hj) hc)
  · intro l
    rw [hhash, hrefs]
    exact (h.loaders l).congr fun j => by rw [hlive]
  · intro c hc
    rw [hm.nextClient] at hc
    -- the new client has no references, and no instance points at it
    rcases Nat.lt_succ_iff_lt_or_eq.mp hc with hlt | rfl
    · rw [hhash, hm.clients c hlt]
      exact (h.clients c hlt).congr fun j => by rw [hlive]
    · rw [hm.references]
      refine PySet.Exact.nil fun j hj => ?_
      exact absurd (h.allocated j _ ((hlive j).mp hj.1) hj.2) (Nat.lt_irrefl _)
  · rw [hfail]
    exact h.removals

end LinkedBy

/-! ### In the middle of an operation

`lo` and `cl` are what the sets record, `flo` and `fcl` what the fields hold. -/

structure Mid (S : Setup L) (i : Ref) (lo cl flo fcl : Ref → Option Ref) (w : World L) : Prop where
  live   : Live w i
  linked : LinkedBy S lo cl w
  loader : ∀ j, (w.instances.get j).loader = flo j
  client : ∀ j, (w.instances.get j).client = fcl j

/-- Between operations. -/
def Whole (S : Setup L) (i : Ref) (w : World L) : Prop := Live w i ∧ Linked S w

section Mid

variable {i l c : Ref} {lo cl flo fcl : Ref → Option Ref} {α : Type}

/-- In the middle of a step whose links are all made, the instance is whole. -/
theorem Mid.whole {w : World L} (h : Mid S i lo cl lo cl w) : Whole S i w :=
  ⟨h.live, h.linked.congr (fun j _ => h.loader j) fun j _ => h.client j⟩

/-- A whole instance may enter a step. -/
theorem Whole.mid {w : World L} (h : Whole S i w) :
    Mid S i (fun j => (w.instances.get j).loader) (fun j => (w.instances.get j).client)
      (fun j => (w.instances.get j).loader) (fun j => (w.instances.get j).client) w :=
  ⟨h.1, h.2, fun _ => rfl, fun _ => rfl⟩

/-- What links nothing does not advance the step. -/
theorem Mid.of_links {w w' : World L} (hl : LinksUnchanged S w w')
    (h : Mid S i lo cl flo fcl w) : Mid S i lo cl flo fcl w' := by
  have hfields (j : Ref) := eq_of_links (hl.links j)
  refine ⟨?_, h.linked.of_links hl, fun j => ?_, fun j => ?_⟩
  · rw [Live, hl.next, (hfields i).2.2.2.2.2]
    exact h.live
  · rw [(hfields j).2.2.2.1, h.loader]
  · rw [(hfields j).2.2.2.2.1, h.client]

/-- Nor does it harm a whole instance. -/
theorem Whole.of_links {w w' : World L} (hl : LinksUnchanged S w w') (h : Whole S i w) :
    Whole S i w' := by
  have hm := h.mid.of_links hl
  exact hm.whole

/-- A field of the instance is set, and with it what the links are to be. -/
theorem Mid.assign {w : World L} (h : Mid S i lo cl flo fcl w) {flo' fcl' : Ref → Option Ref}
    {f : PluginInstance → PluginInstance} (hid : ∀ inst, (f inst).id = inst.id)
    (hdel : ∀ inst, (f inst).deleted = inst.deleted)
    (huser : (w.clientRows (f (w.instances.get i)).primaryUser).isSome = true)
    (hflo : ∀ j, flo' j = if j = i then (f (w.instances.get i)).loader else flo j)
    (hfcl : ∀ j, fcl' j = if j = i then (f (w.instances.get i)).client else fcl j) :
    Mid S i lo cl flo' fcl' ((setInstance i f : Action L Unit).exec w).2 := by
  refine ⟨⟨h.live.1, ?_⟩, h.linked.setInstance i hid hdel huser, fun j => ?_, fun j => ?_⟩
  · exact (Store.view_modify w.instances i f PluginInstance.deleted hdel i).trans h.live.2
  · show ((w.instances.modify i f).get j).loader = flo' j
    rw [Store.get_modify, hflo]
    split
    · next hj => rw [hj]
    · exact h.loader j
  · show ((w.instances.modify i f).get j).client = fcl' j
    rw [Store.get_modify, hfcl]
    split
    · next hj => rw [hj]
    · exact h.client j

/-- The loader is set before the link. -/
theorem Mid.setLoader {w : World L} (h : Mid S i lo cl flo fcl w) (l : Ref) :
    Mid S i lo cl (Function.update flo i (some l)) fcl
      ((setInstance i fun inst => { inst with loader := some l } : Action L Unit).exec w).2 := by
  refine h.assign (fun _ => rfl) (fun _ => rfl) (h.linked.clientRows i h.live)
    (fun j => ?_) fun j => ?_
  · rw [Function.update_apply]
  · split
    · next hj => rw [hj, h.client]
    · rfl

/-- So is the client. -/
theorem Mid.setClient {w : World L} (h : Mid S i lo cl flo fcl w) (c : Ref) :
    Mid S i lo cl flo (Function.update fcl i (some c))
      ((setInstance i fun inst => { inst with client := some c } : Action L Unit).exec w).2 := by
  refine h.assign (fun _ => rfl) (fun _ => rfl) (h.linked.clientRows i h.live)
    (fun j => ?_) fun j => ?_
  · split
    · next hj => rw [hj, h.loader]
    · rfl
  · rw [Function.update_apply]

/-- An assignment to `type` or `primary_user`. -/
theorem Mid.assignOther {w : World L} (h : Mid S i lo cl flo fcl w)
    {f : PluginInstance → PluginInstance} (hid : ∀ inst, (f inst).id = inst.id)
    (hdel : ∀ inst, (f inst).deleted = inst.deleted)
    (hl : ∀ inst, (f inst).loader = inst.loader) (hc : ∀ inst, (f inst).client = inst.client)
    (huser : (w.clientRows (f (w.instances.get i)).primaryUser).isSome = true) :
    Mid S i lo cl flo fcl ((setInstance i f : Action L Unit).exec w).2 := by
  refine h.assign hid hdel huser (fun j => ?_) fun j => ?_
  · split
    · next hj => rw [hj, hl, h.loader]
    · rfl
  · split
    · next hj => rw [hj, hc, h.client]
    · rfl

/-- The link to the loader follows. -/
theorem Mid.addToLoader {w : World L} (h : Mid S i lo cl flo fcl w)
    (hlo : lo i = none ∨ lo i = some l) :
    Mid S i (Function.update lo i (some l)) cl flo fcl
      ((PluginInstance.addToLoader S i l).exec w).2 :=
  ⟨h.live, h.linked.addToLoader h.live hlo, h.loader, h.client⟩

/-- And that to the client. -/
theorem Mid.addToClient {w : World L} (h : Mid S i lo cl flo fcl w) (hc : c < w.clients.next)
    (hcl : cl i = none ∨ cl i = some c) :
    Mid S i lo (Function.update cl i (some c)) flo fcl
      ((PluginInstance.addToClient S i c).exec w).2 :=
  ⟨h.live, h.linked.addToClient h.live hc hcl, h.loader, h.client⟩

/-- A link to the loader is taken away first. -/
theorem Mid.removeFromLoader {w : World L} (h : Mid S i lo cl flo fcl w) (hlo : flo i = lo i) :
    ∃ w', (PluginInstance.removeFromLoader S i).exec w = (.ok (), w') ∧
      Mid S i (Function.update lo i none) cl flo fcl w' := by
  obtain ⟨w', hw', hinst, hlinked⟩ := h.linked.removeFromLoader h.live ((h.loader i).trans hlo)
  refine ⟨w', hw', ?_, hlinked, fun j => ?_, fun j => ?_⟩
  · rw [Live, hinst]
    exact h.live
  · rw [hinst]
    exact h.loader j
  · rw [hinst]
    exact h.client j

/-- And one to the client. -/
theorem Mid.removeFromClient {w : World L} (h : Mid S i lo cl flo fcl w) (hcl : fcl i = cl i) :
    ∃ w', (PluginInstance.removeFromClient S i).exec w = (.ok (), w') ∧
      w'.clients.next = w.clients.next ∧ Mid S i lo (Function.update cl i none) flo fcl w' := by
  obtain ⟨w', hw', hinst, hnext, hlinked⟩ :=
    h.linked.removeFromClient h.live ((h.client i).trans hcl)
  refine ⟨w', hw', hnext, ?_, hlinked, fun j => ?_, fun j => ?_⟩
  · rw [Live, hinst]
    exact h.live
  · rw [hinst]
    exact h.loader j
  · rw [hinst]
    exact h.client j

/-- Looking a client up changes no link, and finds a client that has a row. -/
theorem Mid.clientGet {w : World L} (h : Mid S i lo cl flo fcl w) (u : String) :
    ∃ r w', (Client.get S u none none none).exec w = (.ok r, w') ∧ Mid S i lo cl flo fcl w' ∧
      ((w.clientRows u).isSome = true → r.isSome = true) ∧
      ∀ c, r = some c → c < w'.clients.next ∧ (w'.clients.get c).id = u ∧
        (w'.clientRows u).isSome = true := by
  rcases Client.exec_get (S := S) u w with ⟨c, hc, he⟩ | ⟨row, w', -, hrow, he, hmade⟩ |
      ⟨-, hrow, he⟩
  · obtain ⟨hid, hlt, hr⟩ := h.linked.clientCache u c hc
    refine ⟨_, _, he, h, fun _ => rfl, fun c' hc' => ?_⟩
    obtain rfl := Option.some.inj hc'
    exact ⟨hlt, hid, hr⟩
  · have hinst : w'.instances = w.instances := by rw [hmade.others]
    refine ⟨_, _, he, ⟨?_, h.linked.made hrow hmade, ?_, ?_⟩, fun _ => rfl, fun c' hc' => ?_⟩
    · rw [Live, hinst]
      exact h.live
    · rw [hinst]
      exact h.loader
    · rw [hinst]
      exact h.client
    · obtain rfl := Option.some.inj hc'
      have hrows : w'.clientRows = w.clientRows := by rw [hmade.others]
      rw [hmade.nextClient, hrows, hrow]
      exact ⟨Nat.lt_succ_self _, hmade.id, rfl⟩
  · refine ⟨_, _, he, h, fun hsome => ?_, fun c hc => absurd hc (by simp)⟩
    rw [hrow] at hsome
    exact absurd hsome (by simp)

/-! ### Load and start -/

/-- Past the loader: it is set, and either recorded or not yet. -/
def HasLoader (S : Setup L) (i : Ref) (w : World L) : Prop :=
  ∃ lo cl l, (lo i = none ∨ lo i = some l) ∧ Mid S i lo cl (Function.update lo i (some l)) cl w

/-- Past the client: both are set. -/
def HasBoth (S : Setup L) (i : Ref) (w : World L) : Prop :=
  ∃ lo cl l c, (lo i = none ∨ lo i = some l) ∧ (cl i = none ∨ cl i = some c) ∧
    c < w.clients.next ∧
    Mid S i lo cl (Function.update lo i (some l)) (Function.update cl i (some c)) w

/-- A program that links nothing keeps an instance whole. -/
theorem triple_of_links {m : Action L α} (hm : Keeps (Links S) m) :
    Triple (Whole S i) m (fun _ => Whole S i) (Whole S i) :=
  hm.triple fun _ _ hl h => h.of_links hl

/-- After the first step of `load` it has its loader, or is whole as before. -/
theorem triple_loadLoader :
    Triple (Whole S i) (loadLoader S i) (fun b w => if b then HasLoader S i w else Whole S i w)
      (Whole S i) := by
  refine triple_get_bind fun w hw => ?_
  cases hl : (w.instances.get i).loader with
  | some l =>
    refine triple_pure fun w' hw' => ?_
    obtain ⟨h, rfl⟩ := hw'
    refine ⟨fun j => (w'.instances.get j).loader, fun j => (w'.instances.get j).client, l,
      Or.inr hl, ?_⟩
    rw [← hl, Function.update_eq_self i fun j => (w'.instances.get j).loader]
    exact h.mid
  | none =>
    rw [if_neg (by simp)]
    split
    · next l _ =>
      refine Triple.bind (Q := fun _ => HasLoader S i) (triple_modify fun w' hw' => ?_) fun _ =>
        triple_pure fun w' hw' => hw'
      obtain ⟨h, rfl⟩ := hw'
      exact ⟨_, _, l, Or.inl hl, h.mid.setLoader l⟩
    · refine Triple.bind (Triple.pre (triple_of_links (links_of_quiet (quiet_report (by simp))))
        fun _ h => h.1) fun _ => ?_
      refine Triple.bind (triple_of_links (links_of_quiet (quiet_updateEnabled i _))) fun _ => ?_
      exact triple_pure fun w' hw' => hw'

/-- After the second one it has both: its user has a row. -/
theorem triple_loadClient :
    Triple (HasLoader S i) (loadClient S i) (fun b w => b = true ∧ HasBoth S i w)
      (Whole S i) := by
  rintro w ⟨lo, cl, l, hlo, h⟩
  cases hc : (w.instances.get i).client with
  | some c =>
    have hexec : (loadClient S i).exec w = (.ok true, w) := by simp [loadClient, hc]
    rw [hexec]
    have hcl : cl i = some c := by rw [← h.client, hc]
    refine ⟨rfl, lo, cl, l, c, hlo, Or.inr hcl, h.linked.allocated i c h.live hcl, ?_⟩
    rw [← hcl, Function.update_eq_self]
    exact h
  | none =>
    have hcl : cl i = none := by rw [← h.client, hc]
    obtain ⟨r, w', hget, hmid, hsome, hr⟩ := h.clientGet (w.instances.get i).primaryUser
    obtain ⟨c, rfl⟩ := Option.isSome_iff_exists.mp (hsome (h.linked.clientRows i h.live))
    have hexec : (loadClient S i).exec w =
        (.ok true, ((setInstance i fun inst => { inst with client := some c } :
          Action L Unit).exec w').2) := by
      unfold loadClient
      rw [exec_get_bind, if_neg (by rw [hc]; simp), exec_bind_ok hget]
      rfl
    rw [hexec]
    exact ⟨rfl, lo, cl, l, c, hlo, Or.inl hcl, (hr c rfl).1, hmid.setClient c⟩

/-- After the last one they refer to it. -/
theorem triple_loadReferences :
    Triple (HasBoth S i) (loadReferences S i) (fun _ => Whole S i) (Whole S i) := by
  rintro w ⟨lo, cl, l, c, hlo, hcl, hlt, h⟩
  have hl : (w.instances.get i).loader = some l := by rw [h.loader, Function.update_self]
  -- the web app cannot fail, so both references are added
  obtain ⟨v, hv, hwebapp⟩ : ∃ v, LinksUnchanged S w v ∧
      (when (metaOf S w l).webapp (enableWebapp S i)).exec w = (.ok (), v) := by
    have hreturns : Returns (when (metaOf S w l).webapp (enableWebapp S i)) :=
      raises_when (returns_enableWebapp i)
    obtain ⟨_, hok⟩ := hreturns.exists_ok w
    exact ⟨_, keeps_when (links_enableWebapp i) w, Prod.ext hok rfl⟩
  have hv' := (h.of_links hv).addToLoader (l := l) hlo
  have hc : (((addToLoader S i l).exec v).2.instances.get i).client = some c := by
    rw [hv'.client, Function.update_self]
  have hlt' : c < ((addToLoader S i l).exec v).2.clients.next := by
    show c < v.clients.next
    rwa [hv.clients]
  have hfinal := hv'.addToClient hlt' hcl
  have hexec : (loadReferences S i).exec w =
      (.ok (), ((addToClient S i c).exec ((addToLoader S i l).exec v).2).2) := by
    have hadd : (addToLoader S i l).exec v = (.ok (), ((addToLoader S i l).exec v).2) := rfl
    rw [loadReferences, exec_bind_ok (exec_theLoader hl), exec_get_bind, exec_bind_ok hwebapp,
      exec_bind_ok hadd, exec_bind_ok (exec_theClient hc)]
    rfl
  rw [hexec]
  exact hfinal.whole

/-- Hence `load` keeps it whole. -/
theorem triple_load :
    Triple (Whole S i) (load S i) (fun _ => Whole S i) (Whole S i) := by
  refine Triple.bind triple_loadLoader fun b => ?_
  cases b with
  | false => exact triple_pure fun _ h => h
  | true =>
    refine Triple.bind triple_loadClient fun b => ?_
    cases b with
    | false => exact fun w h => absurd h.1 (by simp)
    | true =>
      exact Triple.bind (Triple.pre triple_loadReferences fun _ h => h.2) fun _ =>
        triple_pure fun _ h => h

/-- And `start` does. -/
theorem triple_start (env : StartEnv) :
    Triple (Whole S i) (start S i env) (fun _ => Whole S i) (Whole S i) := by
  refine triple_get_bind fun w _ => ?_
  split
  · exact triple_pure fun _ h => h.1
  split
  · exact triple_pure fun _ h => h.1
  refine Triple.pre (Triple.bind (Q := fun _ => Whole S i) ?_ fun b => ?_) fun _ h => h.1
  · refine triple_get_bind fun w _ => Triple.pre ?_ fun _ h => h.1
    split
    · exact triple_load
    · exact triple_pure fun _ h => h
  · split
    · exact triple_of_links (links_startLoaded i env)
    · exact triple_pure fun _ h => h

/-! ### Switching the client or the loader -/

/-- What both switches end with. -/
theorem triple_updateStart (env : StartEnv) :
    Triple (Whole S i) (do update i; start S i env) (fun _ => Whole S i) (Whole S i) :=
  Triple.bind (triple_of_links (links_of_quiet (quiet_update i))) fun _ => triple_start env

/-- It may be switched to a client with a row. -/
theorem triple_switchClient (env : StopEnv × StartEnv) :
    Triple (fun w => Whole S i w ∧ c < w.clients.next ∧
        (w.clientRows (w.clients.get c).id).isSome = true)
      (switchClient S i c env) (fun _ => Whole S i) (Whole S i) := by
  refine Triple.bind (Q := fun _ w => Whole S i w ∧ c < w.clients.next ∧
      (w.clientRows (w.clients.get c).id).isSome = true) ?_ fun _ => ?_
  · refine Triple.post ((links_stop (S := S) i env.1).triple fun w w' hl h => ?_)
      (fun _ _ h => h) fun _ h => h.1
    refine ⟨h.1.of_links hl, ?_⟩
    rw [hl.clients, hl.clientRows]
    exact h.2
  rintro w ⟨hw, hlt, hrow⟩
  have h1 := hw.mid.assignOther (f := fun inst => { inst with primaryUser := (w.clients.get c).id })
    (fun _ => rfl) (fun _ => rfl) (fun _ => rfl) (fun _ => rfl) hrow
  obtain ⟨w2, he2, hnext2, h2⟩ := h1.removeFromClient rfl
  have h3 := (h2.setClient c).addToClient (hnext2.symm ▸ hlt : c < w2.clients.next)
    (Or.inl (Function.update_self _ _ _))
  rw [Function.update_idem] at h3
  have htail := triple_updateStart env.2 _ h3.whole
  rw [exec_get_bind, exec_setInstance_bind, exec_bind_ok he2]
  exact htail

/-- It may be switched to any loader. -/
theorem triple_switchLoader (env : StopEnv × StartEnv) :
    Triple (Whole S i) (switchLoader S i l env) (fun _ => Whole S i) (Whole S i) := by
  refine Triple.bind (triple_of_links (links_stop i env.1)) fun _ => ?_
  intro w hw
  have h1 := hw.mid.assignOther (f := fun inst => { inst with type := (metaOf S w l).id })
    (fun _ => rfl) (fun _ => rfl) (fun _ => rfl) (fun _ => rfl) (hw.2.clientRows i hw.1)
  obtain ⟨w2, he2, h2⟩ := h1.removeFromLoader rfl
  have h3 := (h2.setLoader l).addToLoader (l := l) (Or.inl (Function.update_self _ _ _))
  rw [Function.update_idem] at h3
  have htail := triple_updateStart env.2 _ h3.whole
  rw [exec_get_bind, exec_setInstance_bind, exec_bind_ok he2]
  exact htail

/-- So the two updates of a request keep it whole: -/
theorem triple_updatePrimaryUser (u : Option String) (env : StopEnv × StartEnv) :
    Triple (Whole S i) (updatePrimaryUser S i u env) (fun _ => Whole S i) (Whole S i) := by
  intro w hw
  cases u with
  | none => exact hw
  | some u =>
    rw [updatePrimaryUser, exec_get_bind]
    by_cases hu : u = (w.instances.get i).primaryUser
    · simp only [if_pos hu]
      exact hw
    · simp only [if_neg hu]
      obtain ⟨r, w', hget, hmid, -, hr⟩ := hw.mid.clientGet u
      rw [exec_bind_ok hget]
      cases r with
      | none => exact hmid.whole
      | some c =>
        obtain ⟨hlt, hid, hrow⟩ := hr c rfl
        have hswitch : Triple _ (do switchClient S i c env; pure true) (fun _ => Whole S i)
            (Whole S i) :=
          Triple.bind (triple_switchClient env) fun _ => triple_pure fun _ h => h
        exact hswitch w' ⟨hmid.whole, hlt, by rw [hid]; exact hrow⟩

/-- that of the user and that of the type. -/
theorem triple_updateType (t : Option String) (env : StopEnv × StartEnv) :
    Triple (Whole S i) (updateType S i t env) (fun _ => Whole S i) (Whole S i) := by
  refine triple_get_bind fun w _ => Triple.pre ?_ fun _ h => h.1
  cases t with
  | none => exact triple_pure fun _ h => h
  | some t =>
    show Triple _ (if _ then _ else _) _ _
    split
    · exact triple_pure fun _ h => h
    · split
      · exact triple_pure fun _ h => h
      · exact Triple.bind (triple_switchLoader env) fun _ => triple_pure fun _ h => h

/-! ### Deletion -/

/-- Once the instance is in no set, it can be forgotten. -/
theorem LinkedBy.forgotten {w : World L} (h : LinkedBy S lo cl w) (hi : Live w i)
    (hlo : lo i = none) (hcl : cl i = none) : LinkedBy S lo cl (forgotten w i) := by
  -- no id changes, so every set is read as before
  have hhash : hash S (PluginInstance.forgotten w i) = hash S w := by
    funext j
    exact congrArg S.hash (Store.view_modify w.instances i
      (fun inst => { inst with deleted := true }) PluginInstance.id (fun _ => rfl) j)
  constructor
  · intro j k hj hk
    obtain ⟨hj, hji⟩ := (live_forgotten w i j).mp hj
    obtain ⟨hk, hki⟩ := (live_forgotten w i k).mp hk
    rw [get_forgotten w hji, get_forgotten w hki]
    exact h.ids j k hj hk
  · intro j hj
    obtain ⟨hj, hji⟩ := (live_forgotten w i j).mp hj
    rw [get_forgotten w hji]
    have hne : (w.instances.get j).id ≠ (w.instances.get i).id :=
      fun hid => hji (h.ids j i hj hi hid)
    show (Function.update w.instanceRows _ none _).isSome = true
    rw [Function.update_of_ne hne]
    exact h.rows j hj
  · intro j hj
    obtain ⟨hj, hji⟩ := (live_forgotten w i j).mp hj
    rw [get_forgotten w hji]
    exact h.clientRows j hj
  · exact h.clientCache
  · exact fun j c hj => h.allocated j c ((live_forgotten w i j).mp hj).1
  · intro l
    rw [hhash]
    refine (h.loaders l).congr fun j => ?_
    rw [live_forgotten]
    exact ⟨fun ⟨hj, hl⟩ => ⟨⟨hj, fun hji => by rw [hji, hlo] at hl; exact absurd hl (by simp)⟩, hl⟩,
      fun ⟨hj, hl⟩ => ⟨hj.1, hl⟩⟩
  · intro c hc
    rw [hhash]
    refine (h.clients c hc).congr fun j => ?_
    rw [live_forgotten]
    exact ⟨fun ⟨hj, hl⟩ => ⟨⟨hj, fun hji => by rw [hji, hcl] at hl; exact absurd hl (by simp)⟩, hl⟩,
      fun ⟨hj, hl⟩ => ⟨hj.1, hl⟩⟩
  · exact h.removals

/-- The database and the web app are no links. -/
theorem linked_deleteResources {w : World L} (h : Linked S w) (env : DeleteEnv) :
    Linked S ((deleteResources S i env).exec w).2 := by
  have hl : Keeps (Links S) (deleteResources S i env) :=
    keeps_bind keeps_get fun _ => keeps_bind (keeps_when (links_of_quiet
      (keeps_bind (quiet_stopDatabase i _) fun _ => quiet_deleteDatabase i env))) fun _ =>
    keeps_bind keeps_get fun _ => keeps_when (links_disableWebapp i)
  refine (LinkedBy.of_links (hl w) h).congr (fun j _ => ?_) fun j _ => ?_
  · exact (eq_of_links ((hl w).links j)).2.2.2.1
  · exact (eq_of_links ((hl w).links j)).2.2.2.2.1

/-- An instance that is deleted leaves its loader and its client first. -/
theorem linked_delete {w : World L} (h : Whole S i w) (env : DeleteEnv) :
    Linked S ((delete S i env).exec w).2 := by
  obtain ⟨w1, he1, h1⟩ := h.mid.removeFromLoader rfl
  obtain ⟨w2, he2, -, h2⟩ := h1.removeFromClient rfl
  rw [delete, exec_bind_ok he1, exec_bind_ok he2]
  refine linked_deleteResources (w := forgotten w2 i) ?_ env
  refine (h2.linked.forgotten h2.live (Function.update_self _ _ _)
    (Function.update_self _ _ _)).congr (fun j hj => ?_) fun j hj => ?_
  · have hji := ((live_forgotten w2 i j).mp hj).2
    rw [get_forgotten w2 hji, h2.loader, Function.update_of_ne hji]
  · have hji := ((live_forgotten w2 i j).mp hj).2
    rw [get_forgotten w2 hji, h2.client, Function.update_of_ne hji]

/-! ### Renaming -/

/-- A rename keeps what is recorded under the hash of the new id, and what is not recorded. -/
theorem LinkedBy.renamed {w : World L} (h : LinkedBy S lo cl w) (hi : Live w i) {n : String}
    (hfree : w.instanceRows n = none)
    (hhash : S.hash n = S.hash (w.instances.get i).id ∨ (lo i = none ∧ cl i = none)) :
    LinkedBy S lo cl (renamed w i n) := by
  have hne {j : Ref} (hj : Live w j) : (w.instances.get j).id ≠ n := fun hid => by
    have := h.rows j hj
    rw [hid, hfree] at this
    exact absurd this (by simp)
  -- an instance that some set holds keeps its hash, so the sets are found as before
  have hrehash (P : Ref → Prop) (hP : P i → lo i ≠ none ∨ cl i ≠ none) (j : Ref) (hj : P j) :
      hash S (PluginInstance.renamed w i n) j = hash S w j := by
    rcases eq_or_ne j i with rfl | hji
    · rw [hash, get_renamed_self, hash]
      rcases hhash with hh | ⟨hl, hc⟩
      · exact hh
      · exact absurd (hP hj) (by simp [hl, hc])
    · rw [hash, get_renamed_ne w hji, hash]
  constructor
  · -- ids: the new one was free
    intro j k hj hk
    rw [live_renamed] at hj hk
    by_cases hji : j = i <;> by_cases hki : k = i
    · exact fun _ => hji.trans hki.symm
    · rw [hji, get_renamed_self, get_renamed_ne w hki]
      exact fun hid => absurd hid.symm (hne hk)
    · rw [hki, get_renamed_self, get_renamed_ne w hji]
      exact fun hid => absurd hid (hne hj)
    · rw [get_renamed_ne w hji, get_renamed_ne w hki]
      exact h.ids j k hj hk
  · intro j hj
    rw [live_renamed] at hj
    show (Function.update (Function.update w.instanceRows _ none) n _ _).isSome = true
    rcases eq_or_ne j i with rfl | hji
    · rw [get_renamed_self]
      exact (congrArg Option.isSome (Function.update_self n _ _)).trans (h.rows _ hj)
    · rw [get_renamed_ne w hji, Function.update_of_ne (hne hj),
        Function.update_of_ne fun hid => hji (h.ids j i hj hi hid)]
      exact h.rows j hj
  · intro j hj
    rw [live_renamed] at hj
    rcases eq_or_ne j i with rfl | hji
    · rw [get_renamed_self]
      exact h.clientRows _ hj
    · rw [get_renamed_ne w hji]
      exact h.clientRows j hj
  · exact h.clientCache
  · exact fun j c hj => h.allocated j c ((live_renamed w i n j).mp hj)
  · -- the sets: each element hashes as it did
    intro l
    refine ((h.loaders l).rehash (hrehash _ fun hP => Or.inl ?_)).congr
      fun j => by rw [live_renamed]
    rw [hP.2]
    simp
  · intro c hc
    refine ((h.clients c hc).rehash (hrehash _ fun hP => Or.inr ?_)).congr
      fun j => by rw [live_renamed]
    rw [hP.2]
    simp
  · exact h.removals

end Mid

/-! ### Runs -/

namespace Op

/-- The operation is called on an object that the caller holds. -/
def On (w : World L) (op : Op) : Prop := op.target.isSome = true ∧ op.Held w

/-- The operation changes the hash of an instance that some set holds. -/
def Unlinks (S : Setup L) (w : World L) : Op → Prop
  | .updateId i (some n) =>
    Renames S w (.updateId i (some n)) ∧
      S.hash (S.lower n) ≠ S.hash (w.instances.get i).id ∧
      ((w.instances.get i).loader ≠ none ∨ (w.instances.get i).client ≠ none)
  | _ => False

end Op

/-- The instances have been looked up and none has been loaded; the client of every primary
    user has a row. -/
structure Unloaded (w : World L) : Prop where
  ids              : ∀ i j, Live w i → Live w j →
    (w.instances.get i).id = (w.instances.get j).id → i = j
  rows             : ∀ i, Live w i → (w.instanceRows (w.instances.get i).id).isSome = true
  clientRows       : ∀ i, Live w i → (w.clientRows (w.instances.get i).primaryUser).isSome = true
  clientCache      : ∀ u c, w.clientCache u = some c →
    (w.clients.get c).id = u ∧ c < w.clients.next ∧ (w.clientRows u).isSome = true
  fields           : ∀ i, Live w i →
    (w.instances.get i).loader = none ∧ (w.instances.get i).client = none
  loaderReferences : ∀ l, w.loaderReferences l = []
  references       : ∀ c, c < w.clients.next → (w.clients.get c).references = []
  failures         : w.failures = []

/-- Where nothing is loaded nothing is linked. -/
theorem Unloaded.linked {w : World L} (h : Unloaded w) : Linked S w where
  ids := h.ids
  rows := h.rows
  clientRows := h.clientRows
  clientCache := h.clientCache
  allocated j c hj hc := by rw [(h.fields j hj).2] at hc; exact absurd hc (by simp)
  loaders l := by
    rw [h.loaderReferences]
    exact PySet.Exact.nil fun j hj => by rw [(h.fields j hj.1).1] at hj; exact absurd hj.2 (by simp)
  clients c hc := by
    rw [h.references c hc]
    exact PySet.Exact.nil fun j hj => by rw [(h.fields j hj.1).2] at hj; exact absurd hj.2 (by simp)
  removals i := by rw [h.failures]; simp

/-- **Step.**  Every operation keeps sets and fields in step, unless it unlinks. -/
theorem Linked.exec {w : World L} (h : Linked S w) {op : Op} (hon : op.On w)
    (hop : ¬ op.Unlinks S w) : Linked S (op.exec S w) := by
  have hw (i : Ref) (hi : op.target = some i) : Whole S i w := ⟨hon.2 i hi, h⟩
  cases op with
  | get _ _ _ => exact absurd hon.1 (by simp [Op.target])
  | load i => exact (triple_load.final (hw i rfl)).2
  | start i env => exact ((triple_start (i := i) env).final (hw i rfl)).2
  | stop i env => exact ((triple_of_links (links_stop i env)).final (hw i rfl)).2
  | updateId i n =>
    have hrow := h.rows i (hw i rfl).1
    by_cases hren : Op.Renames S w (.updateId i n)
    · cases n with
      | none => exact h
      | some n =>
        show Linked S ((updateId S i (some n)).exec w).2
        rw [exec_updateId_of_renames hrow hren]
        refine (LinkedBy.renamed h (hw i rfl).1 hren.2 ?_).congr (fun j _ => ?_) fun j _ => ?_
        · -- a rename whose hash differs is let through only where no set has the instance
          by_contra hcon
          rw [not_or, not_and_or] at hcon
          exact hop ⟨hren, hcon⟩
        · rcases eq_or_ne j i with rfl | hj
          · rw [get_renamed_self]
          · rw [get_renamed_ne w hj]
        · rcases eq_or_ne j i with rfl | hj
          · rw [get_renamed_self]
          · rw [get_renamed_ne w hj]
    · -- an update that renames nothing is none
      show Linked S ((updateId S i n).exec w).2
      rw [exec_updateId_of_not_renames hrow hren]
      exact h
  | updatePrimaryUser i u env =>
    exact ((triple_updatePrimaryUser (i := i) u env).final (hw i rfl)).2
  | updateType i t env => exact ((triple_updateType (i := i) t env).final (hw i rfl)).2
  | updateConfig i c onUpdate =>
    exact ((triple_of_links (links_updateConfig i c onUpdate)).final (hw i rfl)).2
  | updateEnabled i e =>
    exact ((triple_of_links (links_of_quiet (quiet_updateEnabled i e))).final (hw i rfl)).2
  | delete i env => exact linked_delete (hw i rfl) env

/-- The sets and the fields agree, and no removal has failed. -/
structure References (S : Setup L) (w : World L) : Prop where
  loaders  : ∀ l i, Live w i →
    (PySet.contains (hash S w) (eqv w) (w.loaderReferences l) i = true ↔
      (w.instances.get i).loader = some l)
  clients  : ∀ c i, c < w.clients.next → Live w i →
    (PySet.contains (hash S w) (eqv w) (w.clients.get c).references i = true ↔
      (w.instances.get i).client = some c)
  removals : ∀ i, Failure.removeReference i ∉ w.failures

/-- What is linked is what the claim speaks of. -/
theorem Linked.references {w : World L} (h : Linked S w) : References S w where
  loaders l _ hi :=
    ((h.loaders l).contains_iff (h.apart (fun _ ha => ha.1) hi)).trans (and_iff_right hi)
  clients c _ hc hi :=
    ((h.clients c hc).contains_iff (h.apart (fun _ ha => ha.1) hi)).trans (and_iff_right hi)
  removals := h.removals

/-- Under its new id, a set does not find the instance. -/
theorem not_contains_renamed {w : World L} (h : Linked S w) {i : Ref} (hi : Live w i) {n : String}
    (hfree : w.instanceRows n = none) (hhash : S.hash n ≠ S.hash (w.instances.get i).id)
    {P : Ref → Prop} (hP : ∀ a, P a → Live w a) {s : PySet Ref} (hs : PySet.Exact (hash S w) P s) :
    PySet.contains (hash S (renamed w i n)) (eqv (renamed w i n)) s i = false := by
  rw [PySet.contains, List.any_eq_false]
  rintro ⟨k, a⟩ he hhit
  obtain ⟨ha, rfl⟩ := (hs.mem_iff k a).mp he
  simp only [PySet.hits, Bool.and_eq_true, beq_iff_eq, Bool.or_eq_true, eqv] at hhit
  obtain ⟨hk, rfl | ⟨hid, -⟩⟩ := hhit
  · rw [hash, hash, get_renamed_self] at hk
    exact hhash hk.symm
  · by_cases hai : a = i
    · rw [hai, hash, hash, get_renamed_self] at hk
      exact hhash hk.symm
    · rw [get_renamed_ne w hai, get_renamed_self] at hid
      have := h.rows a (hP a ha)
      rw [hid, hfree] at this
      exact absurd this (by simp)

/-- A step that unlinks breaks it. -/
theorem not_references_of_unlinks {w : World L} (h : Linked S w) {op : Op} (hon : op.On w)
    (hop : op.Unlinks S w) : ¬ References S (op.exec S w) := by
  cases op with
  | updateId i n =>
    cases n with
    | none => exact hop.elim
    | some n =>
      obtain ⟨hren, hhash, hlink⟩ := hop
      have hi : Live w i := hon.2 i rfl
      show ¬ References S ((updateId S i (some n)).exec w).2
      rw [exec_updateId_of_renames (h.rows i hi) hren]
      intro hr
      have hi' := (live_renamed w i (S.lower n) i).mpr hi
      rcases hlink with hl | hc
      · obtain ⟨l, hl⟩ := Option.ne_none_iff_exists'.mp hl
        have := (hr.loaders l i hi').mpr (by rw [get_renamed_self]; exact hl)
        exact absurd (this.symm.trans
          (not_contains_renamed h hi hren.2 hhash (fun _ ha => ha.1) (h.loaders l))) (by simp)
      · obtain ⟨c, hc⟩ := Option.ne_none_iff_exists'.mp hc
        have hlt := h.allocated i c hi hc
        have := (hr.clients c i hlt hi').mpr (by rw [get_renamed_self]; exact hc)
        exact absurd (this.symm.trans
          (not_contains_renamed h hi hren.2 hhash (fun _ ha => ha.1) (h.clients c hlt))) (by simp)
  | _ => exact hop.elim

/-- **The references over whole runs.**  As long as no `update_id` changes the hash of an
    instance that a set holds, the sets find just the instances that hold the loader or the
    client, and no removal fails.  A step from there keeps it so if and only if it is no such
    `update_id`. -/
theorem references_iff_not_unlinks {w₀ w : World L} (h₀ : Unloaded w₀)
    (h : Reach (Op.exec S) (fun w op => op.On w ∧ ¬ op.Unlinks S w) w₀ w) :
    References S w ∧
      ∀ op : Op, op.On w → (References S (op.exec S w) ↔ ¬ op.Unlinks S w) := by
  have hlinked : Linked S w :=
    h.invariant h₀.linked fun _ op hw hop => hw.exec hop.1 hop.2
  exact ⟨hlinked.references, fun op hon =>
    ⟨fun hr hun => not_references_of_unlinks hlinked hon hun hr,
      fun hun => (hlinked.exec hon hun).references⟩⟩

end PluginInstance

/-! ### The instance that cannot be deleted -/

namespace InstanceTest

open PluginInstance

/-- In the world of the witness nothing is loaded. -/
theorem found_unloaded : Unloaded found where
  ids i j hi hj _ := by
    exact (Nat.lt_one_iff.mp hi.1).trans (Nat.lt_one_iff.mp hj.1).symm
  rows i hi := by
    obtain rfl : i = 0 := Nat.lt_one_iff.mp hi.1
    rfl
  clientRows i hi := by
    obtain rfl : i = 0 := Nat.lt_one_iff.mp hi.1
    rfl
  clientCache _ _ hc := nomatch hc
  fields i hi := by
    obtain rfl : i = 0 := Nat.lt_one_iff.mp hi.1
    exact ⟨rfl, rfl⟩
  loaderReferences _ := rfl
  references _ hc := absurd hc (Nat.not_lt_zero _)
  failures := rfl

end InstanceTest

namespace PluginInstance

open InstanceTest in
/-- Load the instance `a` and rename it: no set finds it any more. -/
theorem renamed_not_references :
    ¬ ∀ w₀ : World Unit, Unloaded w₀ →
      ∀ w, Reach (Op.exec setup) Op.On w₀ w → References setup w := by
  intro h
  have hload : Reach (Op.exec setup) Op.On found (Op.exec setup (Op.load 0) found) :=
    Reach.step (Op.load 0) .start ⟨rfl, by rintro i ⟨⟩; decide⟩
  have hrename := hload.step (Op.updateId 0 (some "b")) ⟨rfl, by rintro i ⟨⟩; decide⟩
  have := ((h found found_unloaded _ hrename).loaders 0 0 (by decide)).mpr rfl
  exact absurd this (by decide)

open InstanceTest in
/-- The instance `a` is started, given a config that its plugin refuses and the id that it has,
    and deleted. -/
theorem loaded_references : References setup unrenamed ∧ References setup removed := by
  let allowed (w : World Unit) (op : Op) : Prop := op.On w ∧ ¬ op.Unlinks setup w
  have hlaunched : Reach (Op.exec setup) allowed found launched :=
    Reach.step (Op.start 0 {}) .start ⟨⟨rfl, by rintro i ⟨⟩; decide⟩, fun h => h⟩
  have hrefused : Reach (Op.exec setup) allowed found refused :=
    hlaunched.step (Op.updateConfig 0 (some "new") reluctant)
      ⟨⟨rfl, by rintro i ⟨⟩; decide +kernel⟩, fun h => h⟩
  have hunrenamed : Reach (Op.exec setup) allowed found unrenamed :=
    hrefused.step (Op.updateId 0 (some "a"))
      ⟨⟨rfl, by rintro i ⟨⟩; decide +kernel⟩, fun h => not_renames_refused h.1⟩
  have hremoved : Reach (Op.exec setup) allowed found removed :=
    hunrenamed.step (Op.delete 0 {}) ⟨⟨rfl, by rintro i ⟨⟩; decide +kernel⟩, fun h => h⟩
  exact ⟨(references_iff_not_unlinks found_unloaded hunrenamed).1,
    (references_iff_not_unlinks found_unloaded hremoved).1⟩

end PluginInstance

end Maubot
