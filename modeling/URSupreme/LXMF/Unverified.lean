import URSupreme.LXMF.Node
import URSupreme.LXMF.SeenRing

/-!
# Messages with a bad signature

What a node does on the messages it receives is to depend only on the ones whose signature was
verified. No place on the delivery path asks for the signature, so this holds of the runs whose
unverified messages happen to find nothing to act on. The proof compares a node with `view`, what is
left of it without the records and the hashes of unverified messages.
-/

namespace URSupreme.Trust
open Lib LXMF Inbound
open Gateway (IdentityId)

variable {P : Platform} {s : Node}

/-- Every event but the receptions of messages with a bad signature. -/
def Event.shown : Event → Bool
  | .deliver _ _ _ _ sigOk _ => sigOk
  | _ => true

/-- The record of a message finds nothing to act on. -/
def Node.Idle (P : Platform) (s : Node) (k : Nat) (r : MessageRecord) (env : Reception) : Prop :=
  (s.messengers.slot k).active = true →
    -- no request under an unexpired grant
    (Share.requestsTelemetry P.fuel r.commands = true →
      ∀ g ∈ s.shares.findGrant (s.owner k) r.peerHash,
        s.epoch P env.millis (s.owner k) > g.expiresEpoch ∨
          ⟨s.owner k, r.peerHash⟩ ∈ s.shares.pending ∨
          s.shares.pending.length ≥ Share.MAX_PENDING) ∧
    -- no offer, and no end of an offer for a feed
    (∀ o ∈ Share.liveOffer P.fuel r.customMeta,
      o.1 = 0 ∧ s.shares.findFeed (s.owner k) r.peerHash = none) ∧
    -- no telemetry for a feed
    (r.telemetry ≠ [] → s.shares.findFeed (s.owner k) r.peerHash = none)

/-- The timestamp of a message is one that the clock does not adopt. -/
def Node.KeepsClock (P : Platform) (s : Node) (wire : Bytes) (hasDestPrefix : Bool) (millis : Nat) :
    Prop :=
  ∀ ts ∈ timestamp P wire hasDestPrefix, s.clock.reportTime .rns ts millis = none

/-- What a message in `wire` is taken for, fresh or a copy, is the same with the given ring. -/
def Alike (P : Platform) (ms : Messengers) (rings : Nat → List Bytes) (k : Nat) (wire : Bytes)
    (hasDestPrefix : Bool) : Prop :=
  ∀ r ∈ readMessage P.toPlatform (ms.slot k).destination wire hasDestPrefix,
    r.1 ∈ (ms.slot k).deliveredHashes ↔ r.1 ∈ rings k

/-- A message in `wire` takes no place in the queue of validations. -/
def Unparked (P : Platform) (ms : Messengers) (k : Nat) (wire : Bytes) (hasDestPrefix : Bool) :
    Prop :=
  ∀ r ∈ readMessage P.toPlatform (ms.slot k).destination wire hasDestPrefix,
    r.1 ∉ (ms.slot k).deliveredHashes → (ms.slot k).verdict r.2 ms.parked.length ≠ .park

/-- An unverified message finds nothing to act on: its timestamp is not adopted, it takes no place
in the queue of validations, and its record is idle. A verified one is not taken for a copy of an
unverified one, or missed as a copy because unverified ones pushed it out of the ring. -/
def Node.Guarded (P : Platform) (s : Node) : Event → Prop
  | .deliver destination wire packetHash hasDestPrefix sigOk env =>
    ∀ k ∈ s.messengers.dispatch destination,
      if sigOk then Alike P s.messengers s.verified k wire hasDestPrefix
      else
        s.KeepsClock P wire hasDestPrefix env.millis ∧
          Unparked P s.messengers k wire hasDestPrefix ∧
          ∀ d ∈ delivered P s.messengers
            (.deliver destination wire packetHash hasDestPrefix sigOk), s.Idle P d.1 d.2 env
  | _ => True

/-- A messenger without its records, with the given ring. -/
def forget (m : Messenger) (ring : List Bytes) : Messenger :=
  { m with deliveredHashes := ring, inbox := [], recorded := [], ran := [] }

/-- A parked message without the count of receptions. -/
def forgetJob (job : PendingStampValidation) : PendingStampValidation := { job with reception := 0 }

/-- The messengers without their records, with the given rings. -/
def forgetAll (s : Messengers) (rings : Nat → List Bytes) : Messengers where
  slot k := forget (s.slot k) (rings k)
  parked := s.parked.map forgetJob

/-- What is left of a node without what unverified messages leave behind. -/
def Node.view (s : Node) : Node := { s with messengers := forgetAll s.messengers s.verified }

section
variable {m m' : Messenger} {ms : Messengers} {job : PendingStampValidation} {ring : List Bytes}
  {rings : Nat → List Bytes} {k j : Nat} {r : MessageRecord} {env : Reception}

lemma forget_seenDelivery {messageHash : Bytes} (h : m.seenDelivery messageHash = some m') :
    forget m' ring = forget m ring := by
  unfold Messenger.seenDelivery at h
  split at h
  next => cases h
  next =>
    cases h
    rfl

lemma forget_completeDelivery {checked valid : Bool} {value : Int} :
    forget (m.completeDelivery P.toPlatform job checked valid value) ring = forget m ring := by
  unfold Messenger.completeDelivery
  split
  next => rfl
  next r _ =>
    obtain ⟨inbox, e, -⟩ : ∃ inbox, m.onDelivery P.toPlatform job.address r = { m with inbox } ∧
      _ :=
      onDelivery_keeps
    dsimp only
    rw [e]
    rfl

/-- A new state of one messenger that only records something. -/
lemma forget_put (h : forget m ring = forget (ms.slot k) ring) :
    forget ((ms.put k m).slot j) ring = forget (ms.slot j) ring := by
  unfold Messengers.put
  dsimp only
  by_cases hj : j = k
  · subst hj
    rw [Function.update_self, h]
  · rw [Function.update_of_ne hj]

/-- `_deliver_lxmf_payload` only records something in a messenger. -/
lemma forget_deliver {wire packetHash : Bytes} {hasDestPrefix sigOk : Bool} :
    forget ((deliverLxmfPayload P.toPlatform k wire packetHash hasDestPrefix sigOk ms).slot j)
    ring = forget (ms.slot j) ring := by
  unfold deliverLxmfPayload
  dsimp only
  split
  next => rfl
  next messageHash stamp _ =>
    split
    next => rfl
    next m' hseen =>
      have h' : forget m' ring = forget (ms.slot k) ring := forget_seenDelivery hseen
      cases (ms.slot k).verdict stamp ms.parked.length with
      | refuse => exact forget_put h'
      | park => exact forget_put h'
      | deliver checked => exact forget_put (forget_completeDelivery.trans h')

/-- `tick_stamp_validations` only records something in a messenger. -/
lemma forget_tick {accepted : Bool} {result : Option JobResult} :
    forget ((tickStampValidations P.toPlatform accepted result ms).slot j) ring =
      forget (ms.slot j) ring := by
  unfold tickStampValidations
  split
  next => rfl
  next f q _ =>
    dsimp only
    split
    next => rfl
    next =>
      split
      next => rfl
      next =>
        split
        next => rfl
        next r =>
          split
          next => rfl
          next => exact forget_put forget_completeDelivery

/-- `_complete_delivery` runs the callback when there is a record. -/
lemma ran_completeDelivery {checked valid : Bool} {value : Int} :
    (m.completeDelivery P.toPlatform job checked valid value).ran.length = m.ran.length +
      (deliveryRecord P.toPlatform job.wire job.packetHash job.hasDestPrefix job.sigOk checked valid
        value).toList.length := by
  unfold Messenger.completeDelivery
  cases deliveryRecord P.toPlatform job.wire job.packetHash job.hasDestPrefix job.sigOk checked
    valid value with
  | none => rfl
  | some r =>
    obtain ⟨inbox, e, -⟩ : ∃ inbox, m.onDelivery P.toPlatform job.address r = { m with inbox } ∧
      _ :=
      onDelivery_keeps
    dsimp only
    rw [e, List.length_append]
    rfl

/-- The runs of the callback after a new state of one messenger, with at most one record. -/
lemma ran_put {o : Option MessageRecord}
    (h : m.ran.length = (ms.slot k).ran.length + o.toList.length) :
    ((ms.put k m).slot j).ran.length = (ms.slot j).ran.length +
    ((o.map fun r => (k, r)).toList.filter fun d => d.1 = j).length := by
  unfold Messengers.put
  dsimp only
  by_cases hj : j = k
  · subst hj
    rw [Function.update_self, h]
    cases o with
    | none => rfl
    | some r => simp
  · rw [Function.update_of_ne hj]
    cases o with
    | none => rfl
    | some r => simp [Ne.symm hj]

lemma ran_put_completeDelivery {checked valid : Bool} {value : Int}
    (h : m.ran = (ms.slot k).ran) :
    ((ms.put k (m.completeDelivery P.toPlatform job checked valid value)).slot j).ran.length =
      (ms.slot j).ran.length +
        (((deliveryRecord P.toPlatform job.wire job.packetHash job.hasDestPrefix job.sigOk checked
          valid value).bind fun r => some (k, r)).toList.filter fun d => d.1 = j).length := by
  have h1 : (m.completeDelivery P.toPlatform job checked valid value).ran.length = _ :=
    ran_completeDelivery
  rw [h] at h1
  rw [ran_put h1, Option.map_eq_bind]
  rfl

lemma seenDelivery_eq (m : Messenger) (messageHash : Bytes) :
    (messageHash ∈ m.deliveredHashes ∧ m.seenDelivery messageHash = none) ∨
      (messageHash ∉ m.deliveredHashes ∧ ∃ m', m.seenDelivery messageHash = some m') := by
  unfold Messenger.seenDelivery
  by_cases h : messageHash ∈ m.deliveredHashes
  · exact .inl ⟨h, if_pos h⟩
  · exact .inr ⟨h, _, if_neg h⟩

lemma map_forgetJob {l : List PendingStampValidation} :
    (l.map forgetJob).map forgetJob = l.map forgetJob := by
  rw [List.map_map]
  rfl

section
variable {destination wire packetHash : Bytes} {hasDestPrefix sigOk : Bool}

/-- Which message is parked does not depend on what is forgotten. -/
lemma parked_deliver (h : Alike P ms rings k wire hasDestPrefix) :
    (deliverLxmfPayload P.toPlatform k wire packetHash hasDestPrefix sigOk ms).parked.map
    forgetJob = (deliverLxmfPayload P.toPlatform k wire packetHash hasDestPrefix sigOk
        (forgetAll ms rings)).parked.map forgetJob := by
  unfold deliverLxmfPayload
  dsimp only [forgetAll]
  have hd : (forget (ms.slot k) (rings k)).destination = (ms.slot k).destination := rfl
  rw [hd]
  cases hread : readMessage P.toPlatform (ms.slot k).destination wire hasDestPrefix with
  | none => exact map_forgetJob.symm
  | some r =>
    have hr : r.1 ∈ (ms.slot k).deliveredHashes ↔ r.1 ∈ rings k := h r hread
    dsimp only
    rcases seenDelivery_eq (ms.slot k) r.1 with ⟨hm, e⟩ | ⟨hm, m1, e⟩
    · rcases seenDelivery_eq (forget (ms.slot k) (rings k)) r.1
        with ⟨_, e'⟩ | ⟨hm', _⟩
      · rw [e, e']
        exact map_forgetJob.symm
      · exact absurd (hr.mp hm) hm'
    · rcases seenDelivery_eq (forget (ms.slot k) (rings k)) r.1
        with ⟨hm', _⟩ | ⟨_, m2, e'⟩
      · exact absurd (hr.mpr hm') hm
      · have hv : (forget (ms.slot k) (rings k)).verdict r.2 (ms.parked.map forgetJob).length =
            (ms.slot k).verdict r.2 ms.parked.length := by
          rw [List.length_map]
          rfl
        rw [e, e']
        dsimp only
        rw [hv]
        cases (ms.slot k).verdict r.2 ms.parked.length with
        | refuse => exact map_forgetJob.symm
        | deliver checked => exact map_forgetJob.symm
        | park =>
          dsimp only
          rw [List.map_append, List.map_append, map_forgetJob]
          rfl

/-- A message that takes no place in the queue. -/
lemma parked_refused (h : Unparked P ms k wire hasDestPrefix) :
    (deliverLxmfPayload P.toPlatform k wire packetHash hasDestPrefix sigOk ms).parked.map
    forgetJob = ms.parked.map forgetJob := by
  unfold deliverLxmfPayload
  dsimp only
  cases hread : readMessage P.toPlatform (ms.slot k).destination wire hasDestPrefix with
  | none => rfl
  | some r =>
    dsimp only
    rcases seenDelivery_eq (ms.slot k) r.1 with ⟨_, e⟩ | ⟨hm, m', e⟩
    · rw [e]
    · have hv := h r hread hm
      rw [e]
      dsimp only
      cases hp : (ms.slot k).verdict r.2 ms.parked.length with
      | refuse => rfl
      | park => exact absurd hp hv
      | deliver checked => rfl

/-- The queue of validations after a tick. -/
lemma tick_parked {accepted : Bool} {result : Option JobResult} {f : PendingStampValidation}
    {q : List PendingStampValidation} (hp : ms.parked = f :: q) :
    (tickStampValidations P.toPlatform accepted result ms).parked =
      if !(ms.slot f.owner).initialized then q
      else if !f.submitted then { f with submitted := accepted } :: q
      else if result.isSome then q
      else f :: q := by
  unfold tickStampValidations
  rw [hp]
  dsimp only
  split
  next => rfl
  next =>
    split
    next => rfl
    next =>
      cases result with
      | none => exact hp
      | some r =>
        dsimp only
        cases (ms.slot f.owner).scored r with
        | none => rfl
        | some v => rfl

/-- The queue of validations goes on as it does without what is forgotten. -/
lemma parked_tick {accepted : Bool} {result : Option JobResult} :
    (tickStampValidations P.toPlatform accepted result ms).parked.map forgetJob =
      (tickStampValidations P.toPlatform accepted result
        (forgetAll ms rings)).parked.map forgetJob := by
  cases hp : ms.parked with
  | nil =>
    have hp' : (forgetAll ms rings).parked = [] := by rw [forgetAll, hp, List.map_nil]
    unfold tickStampValidations
    rw [hp, hp']
    dsimp only
    rw [hp, hp']
  | cons f q =>
    have hp' : (forgetAll ms rings).parked = forgetJob f :: q.map forgetJob := by
      rw [forgetAll, hp, List.map_cons]
    have hi : ((forgetAll ms rings).slot (forgetJob f).owner).initialized =
        (ms.slot f.owner).initialized := rfl
    have hsub : (forgetJob f).submitted = f.submitted := rfl
    rw [tick_parked hp, tick_parked hp', hi, hsub]
    split
    next => exact map_forgetJob.symm
    next =>
      split
      next =>
        rw [List.map_cons, List.map_cons, map_forgetJob]
        rfl
      next =>
        split
        next => exact map_forgetJob.symm
        next =>
          rw [List.map_cons, List.map_cons, map_forgetJob]
          rfl

/-- Which record the callback runs with does not depend on what is forgotten. -/
lemma delivered_deliver
    (h : ∀ k ∈ ms.dispatch destination, Alike P ms rings k wire hasDestPrefix) :
    delivered P (forgetAll ms rings) (.deliver destination wire packetHash hasDestPrefix sigOk) =
      delivered P ms (.deliver destination wire packetHash hasDestPrefix sigOk) := by
  have hdis : (forgetAll ms rings).dispatch destination = ms.dispatch destination := rfl
  dsimp only [delivered]
  rw [hdis]
  cases hk : ms.dispatch destination with
  | none => rfl
  | some k =>
    have hd : ((forgetAll ms rings).slot k).destination = (ms.slot k).destination := rfl
    dsimp only [Option.bind_eq_bind, Option.bind_some]
    rw [hd]
    cases hread : readMessage P.toPlatform (ms.slot k).destination wire hasDestPrefix with
    | none => rfl
    | some r =>
      have hr : r.1 ∈ (ms.slot k).deliveredHashes ↔ r.1 ∈ rings k := h k hk r hread
      dsimp only [Option.bind_some]
      rcases seenDelivery_eq (ms.slot k) r.1 with ⟨hm, e⟩ | ⟨hm, m1, e⟩
      · rcases seenDelivery_eq ((forgetAll ms rings).slot k) r.1
          with ⟨_, e'⟩ | ⟨hm', _⟩
        · rw [e, e']
          rfl
        · exact absurd (hr.mp hm) hm'
      · rcases seenDelivery_eq ((forgetAll ms rings).slot k) r.1
          with ⟨hm', _⟩ | ⟨_, m2, e'⟩
        · exact absurd (hr.mpr hm') hm
        · have hv : ((forgetAll ms rings).slot k).verdict r.2 (forgetAll ms rings).parked.length =
              (ms.slot k).verdict r.2 ms.parked.length := by
            unfold forgetAll
            dsimp only
            rw [List.length_map]
            rfl
          rw [e, e', Option.bind_some, Option.bind_some, hv]

lemma delivered_tick {accepted : Bool} {result : Option JobResult} :
    delivered P (forgetAll ms rings) (.tick accepted result) =
      delivered P ms (.tick accepted result) := by
  dsimp only [delivered, forgetAll]
  cases ms.parked with
  | nil => rfl
  | cons f q => rfl

end

lemma forgetAll_eq {ms' : Messengers} (hs : ∀ j, forget (ms.slot j) (rings j) =
    forget (ms'.slot j) (rings j)) (hp : ms.parked.map forgetJob = ms'.parked.map forgetJob) :
    forgetAll ms rings = forgetAll ms' rings := by
  unfold forgetAll
  rw [hp, funext hs]

/-- Forgetting twice. -/
lemma forgetAll_forgetAll {rings' : Nat → List Bytes} :
    forgetAll (forgetAll ms rings) rings' = forgetAll ms rings' :=
  forgetAll_eq (fun _ => rfl) map_forgetJob

/-- A new state of one messenger. -/
lemma forgetAll_put (h : forget m (rings k) = forget m' (rings k)) :
    forgetAll (ms.put k m) rings = forgetAll ((forgetAll ms rings).put k m') rings := by
  refine forgetAll_eq (fun j => ?_) map_forgetJob.symm
  unfold Messengers.put
  dsimp only
  by_cases hj : j = k
  · subst hj
    rw [Function.update_self, Function.update_self, h]
  · rw [Function.update_of_ne hj, Function.update_of_ne hj]
    rfl

/-- The messengers receive a message as they do without what is forgotten. -/
lemma forgetAll_deliver {destination wire packetHash : Bytes} {hasDestPrefix sigOk : Bool}
    {rings' : Nat → List Bytes}
    (h : ∀ k ∈ ms.dispatch destination, Alike P ms rings k wire hasDestPrefix) :
    forgetAll (ms.step P.toPlatform (.deliver destination wire packetHash hasDestPrefix sigOk))
        rings' =
      forgetAll ((forgetAll ms rings).step P.toPlatform
        (.deliver destination wire packetHash hasDestPrefix sigOk)) rings' := by
  have hdis : (forgetAll ms rings).dispatch destination = ms.dispatch destination := rfl
  unfold Messengers.step
  dsimp only
  rw [hdis]
  cases hk : ms.dispatch destination with
  | none => exact forgetAll_forgetAll.symm
  | some k =>
    refine forgetAll_eq (fun j => ?_) (parked_deliver (h k hk))
    rw [forget_deliver, forget_deliver]
    rfl

lemma forgetAll_tick {accepted : Bool} {result : Option JobResult} :
    forgetAll (ms.step P.toPlatform (.tick accepted result)) rings =
      forgetAll ((forgetAll ms rings).step P.toPlatform (.tick accepted result)) rings := by
  refine forgetAll_eq (fun j => ?_) parked_tick
  unfold Messengers.step
  dsimp only
  rw [forget_tick, forget_tick]
  rfl

end

/-- The callback of a messenger runs exactly with the records that `delivered` gives. -/
lemma ran_step {ms : Messengers} {e : Inbound.Event} {j : Nat} :
    ((ms.step P.toPlatform e).slot j).ran.length = (ms.slot j).ran.length +
      ((delivered P ms e).toList.filter fun d => d.1 = j).length := by
  cases e with
  | deliver destination wire packetHash hasDestPrefix sigOk =>
    dsimp only [Messengers.step, delivered, deliverLxmfPayload]
    cases ms.dispatch destination with
    | none => rfl
    | some k =>
      dsimp only [Option.bind_eq_bind, Option.bind_some]
      cases readMessage P.toPlatform (ms.slot k).destination wire hasDestPrefix with
      | none => rfl
      | some r =>
        dsimp only [Option.bind_some]
        cases hs : (ms.slot k).seenDelivery r.1 with
        | none => rfl
        | some m' =>
          have hm' : m'.ran.length = (ms.slot k).ran.length + ([] : List MessageRecord).length :=
            congrArg List.length (recorded_of_seenDelivery hs).2
          dsimp only [Option.bind_some]
          cases (ms.slot k).verdict r.2 ms.parked.length with
          | refuse => exact ran_put (o := none) hm'
          | park => exact ran_put (o := none) hm'
          | deliver checked =>
            exact ran_put_completeDelivery (recorded_of_seenDelivery hs).2
  | tick accepted result =>
    dsimp only [Messengers.step, delivered, tickStampValidations]
    cases ms.parked with
    | nil => rfl
    | cons f q =>
      dsimp only [List.head?_cons, Option.bind_eq_bind, Option.bind_some]
      cases (ms.slot f.owner).initialized with
      | false => rfl
      | true =>
        cases f.submitted with
        | false => rfl
        | true =>
          cases result with
          | none => rfl
          | some r =>
            dsimp only [Option.bind_some]
            cases (ms.slot f.owner).scored r with
            | none => rfl
            | some v => exact ran_put_completeDelivery rfl
  | setPolicy k stampCost enforceStamps => exact ran_put (o := none) rfl
  | activate k destination stampCost enforceStamps => exact ran_put (o := none) rfl
  | delete k => exact ran_put (o := none) rfl

/-- A verified message is recorded in the ring of the verified ones as it is in the view. -/
lemma view_hear {destination wire : Bytes} {hasDestPrefix : Bool}
    (h : ∀ k ∈ s.messengers.dispatch destination,
      Alike P s.messengers s.verified k wire hasDestPrefix) :
    s.view.hear P destination wire hasDestPrefix = s.hear P destination wire hasDestPrefix := by
  have hdis : s.view.messengers.dispatch destination = s.messengers.dispatch destination := rfl
  unfold Node.hear
  rw [hdis]
  cases hk : s.messengers.dispatch destination with
  | none => rfl
  | some k =>
    have hd : (s.view.messengers.slot k).destination = (s.messengers.slot k).destination := rfl
    dsimp only
    rw [hd]
    cases hread : readMessage P.toPlatform (s.messengers.slot k).destination wire hasDestPrefix with
    | none => rfl
    | some r =>
      have hr : r.1 ∈ (s.messengers.slot k).deliveredHashes ↔ r.1 ∈ s.verified k := h k hk r hread
      exact (if_congr hr rfl rfl).symm

/-- The callback acts on what can be seen. -/
lemma view_receive {rings : Nat → List Bytes} {e : Inbound.Event} {env : Reception}
    (hm : forgetAll (s.messengers.step P.toPlatform e) s.verified =
      forgetAll ((forgetAll s.messengers rings).step P.toPlatform e) s.verified)
    (hd : delivered P (forgetAll s.messengers rings) e = delivered P s.messengers e) :
    (s.receive P e env).view =
      ({ s with messengers := forgetAll s.messengers rings }.receive P e env).view := by
  unfold Node.receive Node.view
  dsimp only
  rw [hd, hm]
  rfl

/-- A callback that acts on nothing. -/
lemma view_receive_idle {e : Inbound.Event} {env : Reception}
    (hm : forgetAll (s.messengers.step P.toPlatform e) s.verified =
      forgetAll s.messengers s.verified)
    (hd : ∀ d ∈ delivered P s.messengers e, s.act P d.1 d.2 env = s.shares) :
    (s.receive P e env).view = s.view := by
  unfold Node.receive Node.view
  dsimp only
  rw [hm]
  cases hr : delivered P s.messengers e with
  | none => rfl
  | some d =>
    dsimp only
    rw [hd d hr]

/-- What the view says of the messengers. -/
lemma view_put {ms ms' : Messengers} (h : forgetAll ms s.verified = forgetAll ms' s.verified) :
    { s with messengers := ms }.view = { s with messengers := ms' }.view := by
  unfold Node.view
  dsimp only
  rw [h]

/-- A node whose messengers are as they were. -/
lemma view_kept : s.view = { s with messengers := forgetAll s.messengers s.verified }.view :=
  view_put forgetAll_forgetAll.symm

/-- What can be seen of a node moves on by itself with the events that are shown. -/
lemma view_step {e : Event} (h : s.Guarded P e) (he : e.shown = true) :
    (s.step P e).view = (s.view.step P e).view := by
  cases e with
  | deliver destination wire packetHash hasDestPrefix sigOk env =>
    obtain rfl : sigOk = true := he
    have ha : ∀ k ∈ s.messengers.dispatch destination,
        Alike P s.messengers s.verified k wire hasDestPrefix := fun k hk => h k hk
    have e1 : s.step P (.deliver destination wire packetHash hasDestPrefix true env) =
        { s with
          verified := s.hear P destination wire hasDestPrefix
          clock := s.calibrate P destination wire hasDestPrefix env.millis }.receive P
            (.deliver destination wire packetHash hasDestPrefix true) env := rfl
    have e2 : s.view.step P (.deliver destination wire packetHash hasDestPrefix true env) =
        { s with
          messengers := forgetAll s.messengers s.verified
          verified := s.view.hear P destination wire hasDestPrefix
          clock := s.calibrate P destination wire hasDestPrefix env.millis }.receive P
            (.deliver destination wire packetHash hasDestPrefix true) env := rfl
    rw [e1, e2, view_hear ha]
    exact view_receive (forgetAll_deliver ha) (delivered_deliver ha)
  | stampTick accepted result env => exact view_receive forgetAll_tick delivered_tick
  | setPolicy k stampCost enforceStamps => exact view_put (forgetAll_put rfl)
  | activate k iden destination stampCost enforceStamps =>
    exact view_put (s := { s with owner := Function.update s.owner k iden }) (forgetAll_put rfl)
  | delete k => exact view_put (forgetAll_put rfl)
  | setSource source config => exact view_kept
  | seedFromRtc epoch millis => exact view_kept
  | reportTime source epoch millis => exact view_kept
  | recordGrant iden peer items shareS millis => exact view_kept
  | removeGrant iden peer => exact view_kept
  | removeFeed iden peer => exact view_kept
  | tick millis pack => exact view_kept

/-- The commands of an idle record put no request in the queue. -/
lemma onCommands_idle {s : Share.Tables} {iden : IdentityId} {peer : Bytes} {requested : Bool}
    {epoch : Int}
    (h : requested = true → ∀ g ∈ s.findGrant iden peer, epoch > g.expiresEpoch ∨
      ⟨iden, peer⟩ ∈ s.pending ∨ s.pending.length ≥ Share.MAX_PENDING) :
    s.onCommands iden peer requested epoch = s := by
  unfold Share.Tables.onCommands
  cases requested with
  | false => rfl
  | true =>
    cases hg : s.findGrant iden peer with
    | none => rfl
    | some g => exact if_pos (h rfl g hg)

/-- The offer of an idle record starts and ends no feed. -/
lemma onLiveOffer_idle {s : Share.Tables} {iden : IdentityId} {peer : Bytes}
    {offer : Option (Nat × Nat)} {epoch : Int} {millis : Nat}
    (h : ∀ o ∈ offer, o.1 = 0 ∧ s.findFeed iden peer = none) :
    s.onLiveOffer iden peer offer epoch millis = s := by
  unfold Share.Tables.onLiveOffer
  cases offer with
  | none => rfl
  | some o =>
    obtain ⟨h0, hf⟩ := h o rfl
    have he : s.feeds.eraseP (fun f => f.iden = iden ∧ f.peer = peer) = s.feeds :=
      List.eraseP_of_forall_not fun f hf' => List.find?_eq_none.mp hf f hf'
    dsimp only
    rw [if_pos h0, Share.Tables.removeFeed, he]

/-- The telemetry of an idle record is not taken in. -/
lemma onTelemetry_idle {s : Share.Tables} {iden : IdentityId} {peer blob : Bytes}
    {location : Option (Int × Int)} {appends : Bool} {millis : Nat}
    (h : s.findFeed iden peer = none) :
    s.onTelemetry iden peer blob location appends millis = s := by
  unfold Share.Tables.onTelemetry
  rw [modifyFirst_of_none h, ite_self]

/-- An idle record leaves the tables of shares alone. -/
lemma act_idle {k : Nat} {r : MessageRecord} {env : Reception} (h : s.Idle P k r env) :
    s.act P k r env = s.shares := by
  unfold Node.act
  split
  next => rfl
  next hactive =>
    obtain ⟨hc, ho, ht⟩ := h (by simpa using hactive)
    dsimp only
    rw [onCommands_idle hc, onLiveOffer_idle ho]
    by_cases hr : r.telemetry = []
    · have hl : Share.locationFromBlob P.fuel r.telemetry = none := by
        rw [hr]
        rfl
      rw [if_pos hr, hl]
      dsimp only
      rw [ite_self]
    · rw [if_neg hr, onTelemetry_idle (ht hr), ht hr, Option.isSome_none, Bool.and_false]
      rfl

/-- What can be seen of a node is not changed by a message with a bad signature. -/
lemma view_step_unverified {e : Event} (h : s.Guarded P e) (he : e.shown = false) :
    (s.step P e).view = s.view := by
  cases e with
  | deliver destination wire packetHash hasDestPrefix sigOk env =>
    obtain rfl : sigOk = false := he
    have hclock : s.calibrate P destination wire hasDestPrefix env.millis = s.clock := by
      unfold Node.calibrate
      cases hk : s.messengers.dispatch destination with
      | none => rfl
      | some k =>
        rw [Option.isSome_some, if_pos rfl]
        cases hts : timestamp P wire hasDestPrefix with
        | none => rfl
        | some ts =>
          have hr : s.clock.reportTime .rns ts env.millis = none := (h k hk).1 ts hts
          dsimp only
          rw [Clock.Manager.calibrateTime, hr, Option.getD_none]
    have e1 : s.step P (.deliver destination wire packetHash hasDestPrefix false env) =
        { s with clock := s.calibrate P destination wire hasDestPrefix env.millis }.receive P
          (.deliver destination wire packetHash hasDestPrefix false) env := rfl
    rw [e1, hclock]
    have hm : forgetAll (s.messengers.step P.toPlatform
          (.deliver destination wire packetHash hasDestPrefix false)) s.verified =
        forgetAll s.messengers s.verified := by
      unfold Messengers.step
      dsimp only
      cases hk : s.messengers.dispatch destination with
      | none => rfl
      | some k => exact forgetAll_eq (fun j => forget_deliver) (parked_refused (h k hk).2.1)
    refine view_receive_idle hm fun d hd => ?_
    obtain ⟨k, hk, -⟩ := Option.bind_eq_some_iff.mp hd
    exact act_idle ((h k hk).2.2 d hd)
  | _ => cases he

/-- Runs that differ in messages with a bad signature end with the same clock, the same tables of
shares and the same messages sent, when those messages find nothing to act on and leave the
verified ones what they are. -/
theorem same_of_guarded {es es' : List Event}
    (hes : Allowed (Node.step P) (Node.Guarded P) {} es)
    (hes' : Allowed (Node.step P) (Node.Guarded P) {} es')
    (h : es.filter Event.shown = es'.filter Event.shown) :
    let s := es.foldl (Node.step P) {}
    let s' := es'.foldl (Node.step P) {}
    s.clock = s'.clock ∧ s.shares = s'.shares ∧ s.sent = s'.sent ∧
      ∀ millis iden, s.epoch P millis iden = s'.epoch P millis iden := by
  have hview : ∀ {es}, Allowed (Node.step P) (Node.Guarded P) {} es →
      (es.foldl (Node.step P) {}).view =
        (es.filter Event.shown).foldl (fun s e => (s.step P e).view) (Node.view {}) :=
    fun h => h.purge view_step view_step_unverified
  have e : (es.foldl (Node.step P) {}).view = (es'.foldl (Node.step P) {}).view := by
    rw [hview hes, hview hes', h]
  have hclock := congrArg Node.clock e
  have hshares := congrArg Node.shares e
  have hsent := congrArg Node.sent e
  have hepoch (millis : Nat) (iden : IdentityId) := congrArg (Node.epoch P · millis iden) e
  exact ⟨hclock, hshares, hsent, hepoch⟩

/-- A platform that hashes nothing. -/
def samplePlatform : Platform where
  fullHash := id
  fuel := 20
  persisted _ := false
  compileTimeEpoch := 1700000000
  double := fun _ => 0

/-- A message of the given time with no text and no fields. -/
def sampleWire (ts : Bytes) : Bytes :=
  List.replicate Inbound.HEADER_LEN 0 ++ [0x94, 0xCB] ++ ts ++ [0xC4, 0, 0xC4, 0, 0x80]

/-- A time on 2023-11-14. -/
def sampleTs : Bytes := [0x41, 0xD9, 0x54, 0xFC, 0x40, 0, 0, 0]

/-- The reception of a message of that time, when the node has run for a second. -/
def sampleDeliver (sigOk : Bool) : Event :=
  .deliver [1] (sampleWire sampleTs) [2] false sigOk
    { millis := 1000, appends := false, created := false }

/-- An identity whose clock was set by NTP. -/
def sampleStart : List Event :=
  [.activate 0 [7] [1] 0 false, .reportTime .ntp 0x41D954FC40000000 500]

/-- A message with a bad signature that carries nothing does not matter to it. -/
theorem same_of_guarded_ntp :
    let s := (sampleStart ++ [sampleDeliver false]).foldl (Node.step samplePlatform) {}
    let s' := sampleStart.foldl (Node.step samplePlatform) {}
    s.clock = s'.clock ∧ s.shares = s'.shares ∧ s.sent = s'.sent := by
  have h1 : Allowed (Node.step samplePlatform) (Node.Guarded samplePlatform) {}
      (sampleStart ++ [sampleDeliver false]) := by
    refine ⟨trivial, trivial, fun k hk => ?_, trivial⟩
    obtain rfl : 0 = k := Option.some.inj hk
    have hmeta : (delivered samplePlatform
          (sampleStart.foldl (Node.step samplePlatform) {}).messengers
          (.deliver [1] (sampleWire sampleTs) [2] false false)).map (·.2.customMeta) = some [] := by
      decide +kernel
    refine ⟨fun ts _ => ?_, fun r _ _ => nofun, fun d hd _ => ⟨fun _ => nofun, ?_, fun _ => rfl⟩⟩
    · unfold Clock.Manager.reportTime
      cases Clock.saneSeconds ts with
      | none => rfl
      | some seconds => rfl
    · have hd := congrArg (Option.map (·.2.customMeta)) hd
      have hnil : d.2.customMeta = [] := Option.some.inj (hd.symm.trans hmeta)
      rw [hnil]
      nofun
  have h2 : Allowed (Node.step samplePlatform) (Node.Guarded samplePlatform) {} sampleStart :=
    ⟨trivial, trivial, trivial⟩
  obtain ⟨hclock, hshares, hsent, -⟩ := same_of_guarded h1 h2 rfl
  exact ⟨hclock, hshares, hsent⟩

/-- A message with a bad signature sets a clock that nothing has set yet. -/
theorem not_same :
    ¬ ∀ (P : Platform) (es es' : List Event), es.filter Event.shown = es'.filter Event.shown →
      let s := es.foldl (Node.step P) {}
      let s' := es'.foldl (Node.step P) {}
      s.clock = s'.clock ∧ s.shares = s'.shares ∧ s.sent = s'.sent := by
  intro h
  have hc := (h samplePlatform [.activate 0 [7] [1] 0 false, sampleDeliver false]
    [.activate 0 [7] [1] 0 false] rfl).1
  have hs := congrArg Clock.Manager.currentSource hc
  exact absurd hs (by decide +kernel)

end URSupreme.Trust
