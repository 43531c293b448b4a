import URSupreme.LXMF.Delivery

/-!
# Wires of pending sends

`send_prepared` keeps the wire of a DIRECT send in RAM or in a file until it is delivered, and every
attempt sends that wire. A resource takes the wire out of RAM, so this holds as long as no resource
is built from a wire that is only there. A wire stays in RAM when its content is at most
`LXMF_LINK_PACKET_MAX` bytes or its spill fails, and it is always too long for an in-link packet.
-/

namespace URSupreme.Outbound
open Lib LXMF Relation

variable {C : Crypto} {s s' : Pending} {key link recordHash destHash wire : Bytes} {k now : Nat}
  {ps ps' : PendingLinkSend} {env : SendEnv} {tag : Tag}

/-- The wire that was built for an entry is in RAM, or in its file. -/
def Recoverable (files : WirePath → Option Bytes) (ps : PendingLinkSend) : Prop :=
  match ps.wirePath with
  | none => ps.wire = ps.directWire
  | some path => files path = some ps.directWire ∧ ps.totalBytes = ps.directWire.length

/-- The wires of the pending sends, and what went out for them. -/
structure Wires (s : Pending) : Prop where
  recoverable : ∀ x ∈ s.links, Recoverable s.files x.2
  own : ∀ x ∈ s.links, ∀ y ∈ s.links, ∀ path, x.2.wirePath = some path →
    y.2.wirePath = some path → x.1 = y.1
  directWire : ∀ x ∈ s.links, x.2.directWire ≠ []
  transmitted : ∀ t ∈ s.transmitted, t.bytes = t.directWire ∧ t.bytes ≠ []

lemma Recoverable.kept {files : WirePath → Option Bytes} (h : Recoverable files ps)
    (hk : Kept False ps ps') : Recoverable files ps' := by
  unfold Recoverable at h ⊢
  rw [hk.wirePath, hk.directWire]
  cases hpath : ps.wirePath with
  | none =>
    rw [hpath] at h
    rcases hk.wire with e | e | e
    · exact e.trans h
    · exact absurd hpath e
    · exact e.elim
  | some path =>
    rw [hpath] at h
    refine ⟨h.1, (hk.totalBytes ?_).trans h.2⟩
    rw [hpath]
    exact Option.some_ne_none path

/-- What an attempt takes is the wire. -/
lemma Recoverable.carries {bytes : Bytes} (h : Recoverable s.files ps) (hc : s.Carries ps bytes) :
    bytes = ps.directWire := by
  unfold Recoverable at h
  unfold Pending.Carries at hc
  cases hpath : ps.wirePath with
  | none =>
    rw [hpath] at h hc
    exact hc.trans h
  | some path =>
    rw [hpath] at h hc
    obtain ⟨file, hf, -, rfl⟩ := hc
    cases h.1.symm.trans hf
    rw [h.2, List.take_length]

/-- A file that belongs to another entry does not matter. -/
lemma Recoverable.update {files : WirePath → Option Bytes} {path : WirePath} {file : Option Bytes}
    (h : Recoverable files ps) (hne : ps.wirePath ≠ some path) :
    Recoverable (Function.update files path file) ps := by
  unfold Recoverable at h ⊢
  cases hpath : ps.wirePath with
  | none =>
    rw [hpath] at h
    exact h
  | some p =>
    rw [hpath] at h hne
    dsimp only
    rw [Function.update_of_ne fun e => hne (congrArg some e)]
    exact h

/-- The members that matter are the same. -/
lemma Wires.same (h : Wires s) (hl : s'.links = s.links) (hf : s'.files = s.files)
    (ht : s'.transmitted = s.transmitted) : Wires s' where
  recoverable := by
    rw [hl, hf]
    exact h.recoverable
  own := by
    rw [hl]
    exact h.own
  directWire := by
    rw [hl]
    exact h.directWire
  transmitted := by
    rw [ht]
    exact h.transmitted

lemma Wires.notify {st : OutboxStatus} (h : Wires s) : Wires (s.notify k recordHash st tag) := by
  unfold Pending.notify
  dsimp only
  split
  next => exact h.same rfl rfl rfl
  next => exact h

/-- An entry leaves with its file. -/
lemma Wires.drop {x : Bytes × PendingLinkSend} (h : Wires s) (hx : x ∈ s.links) :
    Wires ((s.releaseWireFile x.2).eraseLink x.1) := by
  have hsub : ∀ {y}, y ∈ erase x.1 s.links → y ∈ s.links := fun hy => (mem_erase.mp hy).1
  unfold Pending.releaseWireFile
  split
  next =>
    exact ⟨fun y hy => h.recoverable y (hsub hy), fun y hy z hz => h.own y (hsub hy) z (hsub hz),
      fun y hy => h.directWire y (hsub hy), h.transmitted⟩
  next path hpath =>
    refine ⟨fun y hy => (h.recoverable y (hsub hy)).update fun e => ?_,
      fun y hy z hz => h.own y (hsub hy) z (hsub hz), fun y hy => h.directWire y (hsub hy),
      h.transmitted⟩
    exact (mem_erase.mp hy).2 (h.own y (hsub hy) x hx path e hpath)

/-- A change of a delivery that loses no wire. -/
lemma Wires.change (h : Wires s) (hc : Change False s s') : Wires s' := by
  cases hc with
  | progress hl =>
    refine ⟨fun x hx => ?_, fun x hx y hy path ex ey => ?_, fun x hx => ?_, h.transmitted⟩
    · obtain ⟨y, hy, -, hk⟩ := hl x hx
      exact (h.recoverable y hy).kept hk
    · obtain ⟨x', hx', e1, hk1⟩ := hl x hx
      obtain ⟨y', hy', e2, hk2⟩ := hl y hy
      rw [← e1, ← e2]
      exact h.own x' hx' y' hy' path (hk1.wirePath ▸ ex) (hk2.wirePath ▸ ey)
    · obtain ⟨y, hy, -, hk⟩ := hl x hx
      rw [hk.directWire]
      exact h.directWire y hy
  | status st hx => exact h.notify
  | @transmit x bytes hx hb =>
    refine ⟨h.recoverable, h.own, h.directWire, fun t ht => ?_⟩
    rcases List.mem_append.mp ht with ht | ht
    · exact h.transmitted t ht
    · obtain rfl := List.mem_singleton.mp ht
      have e : bytes = x.2.directWire := (h.recoverable x hx).carries hb
      exact ⟨e, e ▸ h.directWire x hx⟩
  | drop hx => exact h.drop hx
  | @move x ps link hx _ _ hk =>
    -- the entry takes its path along, and no other entry has it
    have hown : ∀ y ∈ erase x.1 s.links, ∀ path, y.2.wirePath = some path →
        ps.wirePath ≠ some path := fun y hy path ey e =>
      (mem_erase.mp hy).2 (h.own y (mem_erase.mp hy).1 x hx path ey (hk.wirePath ▸ e))
    refine ⟨fun y hy => ?_, fun y hy z hz path ey ez => ?_, fun y hy => ?_, h.transmitted⟩
    · rcases mem_insert.mp hy with rfl | ⟨hy, -⟩
      · exact (h.recoverable x hx).kept hk
      · exact h.recoverable y (mem_erase.mp hy).1
    · rcases mem_insert.mp hy with rfl | ⟨hy, -⟩
      · rcases mem_insert.mp hz with rfl | ⟨hz, -⟩
        · rfl
        · exact absurd ey (hown z hz path ez)
      · rcases mem_insert.mp hz with rfl | ⟨hz, -⟩
        · exact absurd ez (hown y hy path ey)
        · exact h.own y (mem_erase.mp hy).1 z (mem_erase.mp hz).1 path ey ez
    · rcases mem_insert.mp hy with rfl | ⟨hy, -⟩
      · exact hk.directWire ▸ h.directWire x hx
      · exact h.directWire y (mem_erase.mp hy).1
  | uncache => exact h.same rfl rfl rfl
  | oppProgress => exact h.same rfl rfl rfl
  | oppStatus => exact h.notify

lemma Wires.changes (h : Wires s) (hc : Changes False s s') : Wires s' := by
  induction hc with
  | refl => exact h
  | tail _ hc ih => exact ih.change hc

/-- A new entry, whose path is its own. -/
lemma Wires.put (h : Wires s) (hr : Recoverable s.files ps) (hd : ps.directWire ≠ [])
    (ho : ∀ x ∈ s.links, ∀ path, x.2.wirePath = some path → ps.wirePath ≠ some path) :
    Wires (s.putLink key ps) := by
  refine ⟨fun x hx => ?_, fun x hx y hy path ex ey => ?_, fun x hx => ?_, h.transmitted⟩
  · rcases mem_insert.mp hx with rfl | ⟨hx, -⟩
    · exact hr
    · exact h.recoverable x hx
  · rcases mem_insert.mp hx with rfl | ⟨hx, -⟩
    · rcases mem_insert.mp hy with rfl | ⟨hy, -⟩
      · rfl
      · exact absurd ex (ho y hy path ey)
    · rcases mem_insert.mp hy with rfl | ⟨hy, -⟩
      · exact absurd ey (ho x hx path ex)
      · exact h.own x hx y hy path ex ey
  · rcases mem_insert.mp hx with rfl | ⟨hx, -⟩
    · exact hd
    · exact h.directWire x hx

/-- A file at a path that no entry has. -/
lemma Wires.writeFile {path : WirePath} {file : Option Bytes} (h : Wires s)
    (hp : ∀ x ∈ s.links, x.2.wirePath ≠ some path) :
    Wires { s with files := Function.update s.files path file } where
  recoverable x hx := (h.recoverable x hx).update (hp x hx)
  own := h.own
  directWire := h.directWire
  transmitted := h.transmitted

/-- A DIRECT send keeps its wire: it spills it before a resource may take it out of RAM, and to a
path of its own. -/
def Keeps (destHash : Bytes) (contentSize : Nat) (env : SendEnv) (s : Pending) : Prop :=
  ((chooseLink destHash env s).2.1 = true → env.established.ready = true →
    LXMF_LINK_PACKET_MAX < contentSize ∧ env.spill = .written) ∧
  (LXMF_LINK_PACKET_MAX < contentSize → env.spill ≠ .notOpened → ∀ x ∈ s.links,
    x.2.wirePath ≠ some ⟨(chooseLink destHash env s).1.take 4, env.now⟩)

/-- The choice of a link leaves the entries, the files and what was sent. -/
lemma chooseLink_keeps (destHash : Bytes) (env : SendEnv) (s : Pending) :
    (chooseLink destHash env s).2.2.links = s.links ∧
    (chooseLink destHash env s).2.2.files = s.files ∧
    (chooseLink destHash env s).2.2.transmitted = s.transmitted := by
  unfold chooseLink
  dsimp only
  split
  next => exact ⟨rfl, rfl, rfl⟩
  next =>
    split
    next => exact ⟨rfl, rfl, rfl⟩
    next =>
      split
      next => exact ⟨rfl, rfl, rfl⟩
      next => exact ⟨rfl, rfl, rfl⟩

lemma lookup_putLink : lookup key (s.putLink key ps).links = some ps := lookup_insert

/-- The new entry of a DIRECT send is dispatched at once or waits for its link. -/
lemma Wires.dispatch {reuse : Bool} (h : Wires (s.putLink link ps))
    (hd : reuse = true → env.established.ready = true → ps.wirePath ≠ none) :
    Wires (if reuse then linkEstablished link env.now env.established (s.putLink link ps)
      else s.putLink link ps) := by
  cases reuse with
  | false => exact h
  | true =>
    refine h.changes (Changes.linkEstablished fun ⟨hready, ps', hps, hpath, _⟩ => ?_)
    rw [lookup_putLink] at hps
    cases hps
    exact hd rfl hready hpath

/-- The entry of a DIRECT send has its wire, at a path of its own. -/
lemma Wires.directEntry {contentSize : Nat} (h : Wires s) (k : Nat) (destHash : Bytes) (tag : Tag)
    (hw : wire ≠ [])
    (hp : LXMF_LINK_PACKET_MAX < contentSize → env.spill ≠ .notOpened → ∀ x ∈ s.links,
      x.2.wirePath ≠ some ⟨link.take 4, env.now⟩) :
    let (ps, s') := directEntry k destHash wire contentSize env tag link s
    Wires (s'.putLink link ps) ∧
      (LXMF_LINK_PACKET_MAX < contentSize → env.spill = .written → ps.wirePath ≠ none) := by
  have hne : destHash ++ wire ≠ [] := fun e => hw (List.append_eq_nil_iff.mp e).2
  unfold Outbound.directEntry
  dsimp only
  split
  next hbig =>
    unfold Pending.spillWireToDisk
    dsimp only
    cases hspill : env.spill with
    | written =>
      have hp := hp hbig (by rw [hspill]; nofun)
      refine ⟨(h.writeFile hp).put ⟨Function.update_self .., rfl⟩ hne ?_, fun _ _ => ?_⟩
      · rintro x hx path e e'
        exact hp x hx (e.trans e'.symm)
      · exact Option.some_ne_none _
    | notOpened => exact ⟨h.put (by rfl) hne fun _ _ _ _ => nofun, fun _ => nofun⟩
    | short =>
      have hp := hp hbig (by rw [hspill]; nofun)
      exact ⟨(h.writeFile hp).put (by rfl) hne fun _ _ _ _ => nofun, fun _ => nofun⟩
  next hsmall =>
    exact ⟨h.put (by rfl) hne fun _ _ _ _ => nofun, fun hbig => absurd hbig hsmall⟩

/-- The DIRECT half of `send_prepared`. -/
lemma Wires.sendDirect {contentSize : Nat} (h : Wires s) (hk : Keeps destHash contentSize env s)
    (hw : wire ≠ []) : Wires (sendDirect k destHash wire contentSize env tag s).1 := by
  unfold Outbound.sendDirect
  obtain ⟨hl, hf, ht⟩ := chooseLink_keeps destHash env s
  unfold Keeps at hk
  rw [← hl] at hk
  generalize chooseLink destHash env s = c at hk hl hf ht
  obtain ⟨link, reuse, s1⟩ := c
  dsimp only at hk hl hf ht ⊢
  have h1 := (h.same hl hf ht).directEntry k destHash tag hw hk.2
  generalize Outbound.directEntry k destHash wire contentSize env tag link s1 = e at h1
  obtain ⟨ps, s2⟩ := e
  exact h1.1.dispatch fun hr hready => h1.2 (hk.1 hr hready).1 (hk.1 hr hready).2

/-- The step sends and delivers without losing a wire. -/
def Event.KeepsWire (s : Pending) : Event → Prop
  | .send _ destHash pm stamp _ env =>
    match payloadWire pm.payload stamp with
    | .ok payload =>
      LXMF_OPPORTUNISTIC_MAX < payload.length - 16 → Keeps destHash (payload.length - 16) env s
    | .error _ => True
  | .established link _ env => ¬ DropsWire link env s
  | _ => True

/-- A send and its record. -/
lemma Wires.send {id : Gateway.IdentityId} {pm : PreparedMessage} {stamp : Bytes} {store : Store}
    (h : Wires s) (hk : Event.KeepsWire s (.send id destHash pm stamp store env)) :
    Wires (send C id destHash pm stamp store env s) := by
  unfold Outbound.send
  split
  next => exact h
  next k _ =>
    split
    next => exact h
    next s' packetHash status hsent =>
      suffices h' : Wires s' from h'.same rfl rfl rfl
      obtain ⟨wire, contentSize, hpack, e⟩ := sendPrepared_ok hsent
      obtain ⟨hw, payload, hp, rfl⟩ := packWire_ok hpack
      obtain rfl := congrArg Prod.fst e
      have h1 : Wires { s with sends := s.sends + 1 } := h.same rfl rfl rfl
      dsimp only
      split
      next =>
        unfold sendOpportunistic
        dsimp only
        split <;> exact h1.same rfl rfl rfl
      next hlen =>
        dsimp only [Event.KeepsWire] at hk
        rw [hp] at hk
        refine h1.sendDirect ?_ hw
        unfold Keeps
        rw [(chooseLink_sends ..).1, (chooseLink_sends ..).2]
        exact hk (not_le.mp hlen)

/-- No step that keeps the wires spoils them. -/
lemma Wires.step {e : Event} (h : Wires s) (hf : e.Fresh s) (hk : e.KeepsWire s) :
    Wires (s.step C e) := by
  cases e with
  | send => exact h.send hk
  | stampRecord =>
    dsimp only [Pending.step, stampRecord]
    split
    next => exact h
    next => exact h.same rfl rfl rfl
  | prune | activate | delete => exact h.same rfl rfl rfl
  | established link now env =>
    refine h.changes (.step trivial hf fun _ _ _ e hd => ?_)
    cases e
    exact hk hd
  | closed | concluded | retry | sweep | clean | opportunistic | manualRetry | announced =>
    exact h.changes (.step trivial hf nofun)

/-- What the wires are kept for: an attempt for a send that is not delivered can be made again, and
every attempt was made with the wire that was built, which is never empty. -/
structure WireKept (s : Pending) : Prop where
  recoverable : ∀ x ∈ s.links, x.2.status ≠ .delivered → Recoverable s.files x.2
  transmitted : ∀ t ∈ s.transmitted, t.bytes = t.directWire ∧ t.bytes ≠ []

/-- In a run whose steps keep the wires, every wire is kept. -/
theorem wireKept_of_keepsWire
    (h : Reach (Pending.step C) (fun s e => e.Fresh s ∧ e.KeepsWire s) {} s) : WireKept s := by
  have hw := h.invariant (P := Wires) ⟨nofun, nofun, nofun, nofun⟩
    fun hok hs => hs.step hok.1 hok.2
  exact ⟨fun x hx _ => hw.recoverable x hx, hw.transmitted⟩

instance {link : Bytes} {env : Established} {s : Pending} : Decidable (DropsWire link env s) :=
  inferInstanceAs (Decidable (_ ∧ ∃ ps ∈ lookup link s.links, _ ∧ _))

instance {contentSize : Nat} : Decidable (Keeps destHash contentSize env s) :=
  inferInstanceAs (Decidable ((_ → _ → _ ∧ _) ∧ (_ → _ → ∀ x ∈ s.links, _)))

instance instDecidableKeepsWire {s : Pending} : ∀ e : Event, Decidable (e.KeepsWire s)
  | .send _ destHash pm stamp _ env =>
    match h : payloadWire pm.payload stamp with
    | .ok payload =>
      decidable_of_iff
        (LXMF_OPPORTUNISTIC_MAX < payload.length - 16 → Keeps destHash (payload.length - 16) env s)
        (by rw [Event.KeepsWire, h])
    | .error _ => .isTrue (by rw [Event.KeepsWire, h]; trivial)
  | .established .. => inferInstanceAs (Decidable (¬ _))
  | .stampRecord .. | .closed .. | .concluded .. | .retry .. | .sweep .. | .clean ..
  | .opportunistic .. | .manualRetry .. | .announced .. | .prune .. | .activate .. | .delete .. =>
    .isTrue trivial

/-- A signature for every message. -/
def sampleCrypto : Crypto :=
  { fullHash := fun b => b.take 32, sign := fun _ _ => some (List.replicate 64 1) }

/-- A message of some content, as an array of its elements. -/
def sampleMessage (content : Nat) : PreparedMessage :=
  { payload := 0x94 :: List.replicate (content + 15) 0, messageId := [], ts := 0 }

/-- A send to a peer whose route is known, over the link that is cached or a new one. -/
def sampleSend (newLink : UInt8) (spill : Spill) (linkStatus : LinkStatus) : SendEnv :=
  { now := 1, routeKnown := true, receipt := true, packetHash := [newLink, 0], linkStatus
    newLink := [newLink], spill
    established := { loads := true, threw := false, ready := true, resourceHash := [newLink, 1] } }

/-- A spilled message whose resource fails is sent again over a new link. -/
theorem wireKept_of_keepsWire_retried :
    let env := sampleSend 1 .written .closed
    WireKept ([Event.activate 0 [7] [8], .send [7] [9] (sampleMessage 400) [] (.append 0 true) env,
      .established [1] 2 env.established, .concluded [1, 1] false 3, .retry [1] 20000 (.opened [2]),
      .established [2] 20001 env.established].foldl (Pending.step sampleCrypto) {}) :=
  wireKept_of_keepsWire (Reach.init.run (by decide +kernel))

/-- A message of 300 bytes stays in RAM and goes out as a resource. The resource fails, and the
retry sends no bytes and reports them as sent. -/
theorem not_wireKept_retried :
    let env := sampleSend 1 .written .closed
    let s := [Event.activate 0 [7] [8],
      .send [7] [9] (sampleMessage 300) [] (.append 0 true) env,
      .established [1] 2 env.established, .concluded [1, 1] false 3, .retry [1] 20000 (.opened [2]),
      .established [2] 20001 env.established].foldl (Pending.step sampleCrypto) {}
    Reach (Pending.step sampleCrypto) (fun s e => e.Fresh s) {} s ∧
      (s.transmitted.map (·.bytes)).getLast? = some [] ∧
      (s.slot 0).outbox.map (·.status) = [.sent] ∧ ¬ WireKept s := by
  intro env s
  have ht : (s.transmitted.map (·.bytes)).getLast? = some [] := by decide +kernel
  refine ⟨Reach.init.run (by decide +kernel), ht, by decide +kernel, fun h => ?_⟩
  obtain ⟨t, htm, ht⟩ := List.mem_map.mp (List.mem_of_getLast? ht)
  exact (h.transmitted t htm).2 ht

end URSupreme.Outbound
