import URSupreme.LXMF.OneRecord
import URSupreme.LXMF.SeenRing

/-!
# Recycled slots

The inbound and the outbound half of the messengers together, with the identities that
`create_identity` puts into their slots and `delete_identity` takes out. A deletion leaves parked
stamp validations and pending sends in their queues. Status changes of such sends reach nobody else.
A parked message is dropped when its slot is empty, and goes to the new owner when the slot was
taken again before.
-/

namespace URSupreme.Outbound
open Lib

/-- The state of both halves; slot `k` of one is slot `k` of the other. -/
structure Device where
  inbound : Inbound.Messengers := {}
  outbound : Pending := {}

/-- The first slot without an identity. -/
def Device.firstFreeSlot (d : Device) : Option Nat :=
  (List.range Gateway.LXMF_GATEWAY_MAX_IDENTITIES).find? fun k => !(d.outbound.slot k).active

/-- What happens to a device. The halves take part in a creation and a deletion together; everything
else is an event of one half. -/
inductive DeviceEvent where
  | create (id : Gateway.IdentityId) (destination : Bytes) (stampCost : Nat) (enforceStamps : Bool)
  | delete (id : Gateway.IdentityId)
  | deliver (destination wire packetHash : Bytes) (hasDestPrefix sigOk : Bool)
  | tick (accepted : Bool) (result : Option Inbound.JobResult)
  | setPolicy (k stampCost : Nat) (enforceStamps : Bool)
  | outbound (e : Event)

/-- An event that gives or takes a slot. -/
def Event.takesSlot : Event → Bool
  | .activate .. | .delete .. => true
  | _ => false

/-- One event. -/
def Device.step (P : Inbound.Platform) (C : Crypto) (d : Device) : DeviceEvent → Device
  | .create id destination stampCost enforceStamps =>
    match d.firstFreeSlot with
    | none => d
    | some k =>
      { inbound := Inbound.activate k destination stampCost enforceStamps d.inbound
        outbound := activate k id destination d.outbound }
  | .delete id =>
    match d.outbound.byId id with
    | none => d
    | some k =>
      { inbound := Inbound.deleteIdentity k d.inbound, outbound := deleteIdentity k d.outbound }
  | .deliver destination wire packetHash hasDestPrefix sigOk =>
    { d with
      inbound := d.inbound.step P (.deliver destination wire packetHash hasDestPrefix sigOk) }
  | .tick accepted result => { d with inbound := d.inbound.step P (.tick accepted result) }
  | .setPolicy k stampCost enforceStamps =>
    { d with inbound := d.inbound.step P (.setPolicy k stampCost enforceStamps) }
  | .outbound e => if e.takesSlot then d else { d with outbound := d.outbound.step C e }

variable {P : Inbound.Platform} {C : Crypto} {d : Device} {m : Inbound.Messenger}
  {jobs : List Inbound.PendingStampValidation} {job : Inbound.PendingStampValidation}

/-- The inbox and the parked jobs of a messenger are for its own address. -/
structure Addressed (m : Inbound.Messenger) (jobs : List Inbound.PendingStampValidation) :
    Prop where
  inbox : ∀ f ∈ m.inbox, f.address = m.destination
  parked : m.initialized = true → ∀ job ∈ jobs, job.address = m.destination

/-- `_complete_delivery` files the message for the address of the job. -/
lemma completeDelivery_cases (P : Inbound.Platform) (m : Inbound.Messenger)
    (job : Inbound.PendingStampValidation) (checked valid : Bool) (value : Int) :
    ∃ inbox ran, m.completeDelivery P job checked valid value = { m with inbox, ran } ∧
      ∀ f ∈ inbox, f ∈ m.inbox ∨ f.address = job.address := by
  unfold Inbound.Messenger.completeDelivery
  split
  next => exact ⟨m.inbox, m.ran, rfl, fun f hf => .inl hf⟩
  next r _ =>
    obtain ⟨inbox, e, hi⟩ := (Inbound.onDelivery_keeps : ∃ inbox,
      m.onDelivery P job.address r = { m with inbox } ∧ _)
    dsimp only
    rw [e]
    refine ⟨inbox, _, rfl, fun f hf => ?_⟩
    rcases hi with hi | ⟨r, hi⟩
    · exact .inl (hi ▸ hf)
    · rw [hi] at hf
      rcases List.mem_append.mp (mem_of_mem_recent hf) with hf | hf
      · exact .inl hf
      · obtain rfl := List.mem_singleton.mp hf
        exact .inr rfl

/-- A message is filed by the messenger that it is for. -/
lemma Addressed.deliver {checked valid : Bool} {value : Int} (h : Addressed m jobs)
    (ha : job.address = m.destination) :
    Addressed (m.completeDelivery P job checked valid value) jobs := by
  obtain ⟨inbox, ran, e, hi⟩ := completeDelivery_cases P m job checked valid value
  rw [e]
  refine ⟨fun f hf => ?_, h.parked⟩
  rcases hi f hf with hf | hf
  · exact h.inbox f hf
  · exact hf.trans ha

/-- Recording a hash changes neither the inbox nor the address. -/
lemma Addressed.record {m' : Inbound.Messenger} {hash : Bytes} (h : Addressed m jobs)
    (hs : m.seenDelivery hash = some m') : Addressed m' jobs ∧ m'.destination = m.destination := by
  obtain ⟨-, rfl⟩ := Inbound.seenDelivery_some hs
  exact ⟨⟨h.inbox, h.parked⟩, rfl⟩

/-- One message comes in, or one tick of the queue. -/
lemma addressed_step {s : Inbound.Messengers} {e : Inbound.Event}
    (he : ∀ k, e ≠ .delete k ∧ ∀ a c f, e ≠ .activate k a c f)
    (h : Inbound.Everywhere Addressed s) : Inbound.Everywhere Addressed (s.step P e) := by
  cases e with
  | deliver destination wire packetHash hasDestPrefix sigOk =>
    dsimp only [Inbound.Messengers.step]
    split
    next => exact h
    next k hk =>
      refine h.deliverLxmfPayload fun messageHash stamp m' _ hs => ?_
      obtain ⟨hr, hd⟩ := (h k).record hs
      dsimp only
      split
      next => exact hr
      next =>
        refine ⟨hr.inbox, fun hi job hj => ?_⟩
        rcases List.mem_append.mp hj with hj | hj
        · exact hr.parked hi job hj
        · obtain rfl := List.mem_singleton.mp hj
          exact hd.symm
      next => exact hr.deliver hd.symm
  | tick accepted result =>
    have hdrop : ∀ f (m : Inbound.Messenger) l, Addressed m (f :: l) → Addressed m l :=
      fun f m l hm => ⟨hm.inbox, fun hi j hj => hm.parked hi j (List.mem_cons_of_mem f hj)⟩
    refine h.tickStampValidations (fun f _ _ m l hm => ⟨hm.inbox, fun hi j hj => ?_⟩)
      (fun f _ _ _ l hm => hdrop f _ l hm) fun f q e hi checked valid value l hm => ?_
    · rcases List.mem_cons.mp hj with rfl | hj
      · exact hm.parked hi f List.mem_cons_self
      · exact hm.parked hi j (List.mem_cons_of_mem _ hj)
    · exact (hdrop f _ l hm).deliver (hm.parked hi f List.mem_cons_self)
  | setPolicy k => exact h.change ⟨(h k).inbox, (h k).parked⟩
  | activate k => exact absurd rfl ((he k).2 _ _ _)
  | delete k => exact absurd rfl (he k).1

/-- What a device keeps of its owners: messages and jobs by address, and sends by identity. -/
structure Owned (d : Device) : Prop where
  inbound : Inbound.Everywhere Addressed d.inbound
  outbound : Keyed (fun a b => a.identity = b.identity) d.outbound

/-- A creation takes no slot for which a message to another address is parked. The hashes of new
links and packets are new. -/
def DeviceEvent.Clean (d : Device) : DeviceEvent → Prop
  | .create _ destination _ _ => ∀ k ∈ d.firstFreeSlot,
    ∀ job ∈ d.inbound.parked, job.owner = k → job.address = destination
  | .outbound e => e.Fresh d.outbound
  | _ => True

/-- Records of an outbox are for the identity that sends. -/
lemma Keyed.related {s : Pending} {R : Tag → Tag → Prop} (h : Keyed R s) (e : Event) :
    e.Related (fun a b => a.identity = b.identity) s := by
  cases e with
  | send => exact fun k _ _ _ r hr _ => h.identity k r hr
  | _ => trivial

lemma Owned.step {e : DeviceEvent} (h : Owned d) (hc : e.Clean d) : Owned (d.step P C e) := by
  have hrefl : ∀ t : Tag, t.identity = t.identity := fun _ => rfl
  cases e with
  | create id destination stampCost enforceStamps =>
    dsimp only [Device.step]
    split
    next => exact h
    next k hk =>
      refine ⟨h.inbound.change ⟨nofun, fun _ job hj => ?_⟩,
        h.outbound.step (C := C) (e := .activate k id destination) hrefl trivial trivial⟩
      obtain ⟨hj, ho⟩ := List.mem_filter.mp hj
      exact hc k hk job hj (of_decide_eq_true ho)
  | delete id =>
    dsimp only [Device.step]
    split
    next => exact h
    next k hk =>
      exact ⟨h.inbound.change ⟨nofun, nofun⟩,
        h.outbound.step (C := C) (e := .delete k) hrefl trivial trivial⟩
  | deliver => exact ⟨addressed_step (fun _ => ⟨nofun, nofun⟩) h.inbound, h.outbound⟩
  | tick => exact ⟨addressed_step (fun _ => ⟨nofun, nofun⟩) h.inbound, h.outbound⟩
  | setPolicy k stampCost enforceStamps =>
    exact ⟨addressed_step (P := P) (e := .setPolicy k stampCost enforceStamps)
      (fun _ => ⟨nofun, nofun⟩) h.inbound, h.outbound⟩
  | outbound e =>
    dsimp only [Device.step]
    split
    next => exact h
    next => exact ⟨h.inbound, h.outbound.step hrefl hc (h.outbound.related e)⟩

/-- Identities are kept apart: an inbox has only messages to the address of its owner, and a status
change reaches only records of the identity that sent. -/
structure Separate (d : Device) : Prop where
  inbox : ∀ k, ∀ f ∈ (d.inbound.slot k).inbox, f.address = (d.inbound.slot k).destination
  applied : ∀ p ∈ d.outbound.applied, p.record.identity = p.send.identity

/-- In a run whose creations take no slot with parked messages, identities are kept apart. -/
theorem separate_of_clean (h : Reach (Device.step P C) (fun d e => e.Clean d) {} d) :
    Separate d := by
  have hinit : Owned {} := ⟨fun _ => ⟨nofun, nofun⟩, keyed_init⟩
  have ho := h.invariant (P := Owned) hinit fun hok hs => hs.step hok
  exact ⟨fun k => (ho.inbound k).inbox, ho.outbound.applied⟩

instance {d : Device} : ∀ e : DeviceEvent, Decidable (e.Clean d)
  | .create _ destination _ _ => inferInstanceAs (Decidable (∀ k ∈ d.firstFreeSlot,
    ∀ job ∈ d.inbound.parked, job.owner = k → job.address = destination))
  | .outbound e => inferInstanceAs (Decidable (e.Fresh d.outbound))
  | .delete .. | .deliver .. | .tick .. | .setPolicy .. => .isTrue trivial

/-- An identity is deleted while a message for it is parked. The job is dropped before the next
identity takes the slot. -/
theorem separate_of_clean_dropped :
    Separate ([DeviceEvent.create [1] [7] 8 false,
      .deliver [7] (Inbound.sampleWire (some 9)) [1] false true, .delete [1], .tick true none,
      .create [2] [8] 0 false].foldl (Device.step Inbound.samplePlatform sampleCrypto) {}) :=
  separate_of_clean (Reach.init.run (by decide +kernel))

/-- The next identity takes the slot while the job is parked, and gets the message. -/
theorem not_separate_parked :
    let d := [DeviceEvent.create [1] [7] 8 false,
      .deliver [7] (Inbound.sampleWire (some 9)) [1] false true, .delete [1],
      .create [2] [8] 0 false, .tick true none, .tick true (some ⟨true, true, 8⟩)].foldl
        (Device.step Inbound.samplePlatform sampleCrypto) {}
    (d.inbound.slot 0).destination = [8] ∧ ((d.inbound.slot 0).inbox.map (·.address)) = [[7]] ∧
      ¬ Separate d := by
  intro d
  have hd : (d.inbound.slot 0).destination = [8] := by decide +kernel
  have hi : (d.inbound.slot 0).inbox.map (·.address) = [[7]] := by decide +kernel
  refine ⟨hd, hi, fun h => ?_⟩
  obtain ⟨f, hf, e⟩ := List.mem_map.mp (hi ▸ List.mem_singleton.mpr rfl)
  have := (h.inbox 0 f hf).symm.trans e
  rw [hd] at this
  exact absurd this (by decide)

end URSupreme.Outbound
