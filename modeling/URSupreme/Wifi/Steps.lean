import URSupreme.Wifi.Transition

/-!
# Steps of the Wi-Fi transition

What each function of the device can do, said once: which of its parts it leaves, and in which cases
it does what.
-/

namespace URSupreme.Wifi
open Lib

variable {s : Remote} {c : Creds}

/-- The station is associated in the mode with access point and station. -/
def Remote.bridged (s : Remote) : Bool := s.mode = .apsta && s.radio.connected

/-- What a turn outside the phase machine leaves. -/
structure Same (s s' : Remote) : Prop where
  phase : s'.phase = s.phase
  started : s'.phaseStartedMs = s.phaseStartedMs
  pending : s'.pending = s.pending
  now : s'.now = s.now
  clients : s'.clients = s.clients
  eeprom : s'.eeprom = s.eeprom
  ready : s.initialized = true → s'.initialized = true

lemma Same.refl : Same s s := ⟨rfl, rfl, rfl, rfl, rfl, rfl, id⟩

lemma Same.trans {s' s'' : Remote} (h : Same s s') (h' : Same s' s'') : Same s s'' :=
  ⟨h'.phase.trans h.phase, h'.started.trans h.started, h'.pending.trans h.pending,
    h'.now.trans h.now, h'.clients.trans h.clients, h'.eeprom.trans h.eeprom,
    fun hi => h'.ready (h.ready hi)⟩

/-- Only the driver is told to begin. -/
lemma begin_eq : s.begin = { s with radio := s.begin.radio } := by
  unfold Remote.begin
  split <;> rfl

lemma begin_assoc (h : s.radio.assoc = none) : s.begin.radio.assoc = none := by
  unfold Remote.begin
  split
  next => rfl
  next => exact h

lemma begin_same : Same s s.begin := by
  rw [begin_eq]
  exact ⟨rfl, rfl, rfl, rfl, rfl, rfl, id⟩

lemma startSta_same : Same s s.startSta := by
  unfold Remote.startSta
  rw [begin_eq]
  exact ⟨rfl, rfl, rfl, rfl, rfl, rfl, fun _ => rfl⟩

lemma arm_same : Same s s.arm := ⟨rfl, rfl, rfl, rfl, rfl, rfl, id⟩

lemma reset_same : Same s s.reset := ⟨rfl, rfl, rfl, rfl, rfl, rfl, id⟩

/-- A new start of the station. -/
lemma init_sta (h : s.mode = .sta) :
    Same s s.init ∧ s.init.mode = .sta ∧ s.init.radio.assoc = none := by
  have hstart : s.reset.start = s.reset.startSta := by
    rw [Remote.start, show s.reset.mode = .sta from h]
  have hmode : s.reset.startSta.mode = .sta := by
    rw [Remote.startSta, begin_eq]
    exact h
  have hassoc : s.reset.startSta.radio.assoc = none := begin_assoc rfl
  rw [Remote.init, hstart]
  exact ⟨reset_same.trans (startSta_same.trans arm_same), hmode, hassoc⟩

/-- A new start of the access point. -/
lemma init_ap (h : s.mode = .ap) :
    Same s s.init ∧ s.init.mode = .ap ∧ s.init.radio = { ap := true } := by
  have hstart : s.reset.start = s.reset.startAp := by
    rw [Remote.start, show s.reset.mode = .ap from h]
  rw [Remote.init, hstart]
  exact ⟨⟨rfl, rfl, rfl, rfl, rfl, rfl, fun _ => rfl⟩, h, rfl⟩

lemma forceSoftap_spec :
    Same s s.forceSoftap ∧ s.forceSoftap.mode = .ap ∧ s.forceSoftap.radio = { ap := true } := by
  obtain ⟨hs, hm, hr⟩ := init_ap
    (s := { s with mode := .ap, staFirstAttemptMs := 0, staFallbackArmed := false }) rfl
  exact ⟨⟨hs.phase, hs.started, hs.pending, hs.now, hs.clients, hs.eeprom, hs.ready⟩, hm, hr⟩

lemma rebegin_spec : Same s s.rebegin ∧ s.rebegin.radio.connected = false ∧
    s.rebegin.mode = s.mode := by
  unfold Remote.rebegin
  have ha := begin_assoc (s := { s with radio := s.radio.disconnect }) rfl
  rw [begin_eq]
  exact ⟨⟨rfl, rfl, rfl, rfl, rfl, rfl, id⟩, congrArg Option.isSome ha, rfl⟩

lemma not_connected_of_status (h : (!s.readStatus.status) = true) : s.radio.connected = false := by
  have h : s.readStatus.status = false := by simpa using h
  exact (Bool.or_eq_false_iff.mp h).1

/-- What a turn does after the phase machine: a station that is up is left alone, and one that is
not up does not come up. -/
lemma retry_spec : Same s s.readStatus.retry ∧
    (s.radio.connected = true →
      s.readStatus.retry.radio = s.radio ∧ s.readStatus.retry.mode = s.mode) ∧
    (s.radio.connected = false → s.readStatus.retry.radio.connected = false) ∧
    (s.mode = .ap → s.readStatus.retry.radio = s.radio ∧ s.readStatus.retry.mode = .ap) := by
  have hr : Same s s.readStatus := ⟨rfl, rfl, rfl, rfl, rfl, rfl, id⟩
  have hstay : Same s s.readStatus ∧
      (s.radio.connected = true → s.readStatus.radio = s.radio ∧ s.readStatus.mode = s.mode) ∧
      (s.radio.connected = false → s.readStatus.radio.connected = false) ∧
      (s.mode = .ap → s.readStatus.radio = s.radio ∧ s.readStatus.mode = .ap) :=
    ⟨hr, fun _ => ⟨rfl, rfl⟩, fun h => h, fun h => ⟨rfl, h⟩⟩
  have hmove : ∀ t : Remote, Same s.readStatus t → s.radio.connected = false → s.mode ≠ .ap →
      t.radio.connected = false → Same s t ∧
      (s.radio.connected = true → t.radio = s.radio ∧ t.mode = s.mode) ∧
      (s.radio.connected = false → t.radio.connected = false) ∧
      (s.mode = .ap → t.radio = s.radio ∧ t.mode = .ap) := fun t hs hc hm ht =>
    ⟨hr.trans hs, fun h => absurd (hc.symm.trans h) nofun, fun _ => ht, fun h => absurd h hm⟩
  unfold Remote.retry
  split
  next h =>
    obtain ⟨-, hm, hst⟩ := h
    have hc := not_connected_of_status hst
    have hm' : s.mode ≠ .ap := fun e => absurd ((show s.mode = .sta from hm).symm.trans e) nofun
    split
    next => exact hmove _ ⟨rfl, rfl, rfl, rfl, rfl, rfl, id⟩ hc hm' hc
    next =>
      split
      next =>
        obtain ⟨hs, -, ha⟩ := init_sta hm
        exact hmove _ hs hc hm' (congrArg Option.isSome ha)
      next => exact hstay
  next =>
    split
    next h =>
      obtain ⟨-, hm, hst, -⟩ := h
      obtain ⟨hs, ha, -⟩ := rebegin_spec (s := s.readStatus)
      refine hmove _ hs (not_connected_of_status hst) (fun e => ?_) ha
      exact absurd ((show s.mode = .apsta from hm).symm.trans e) nofun
    next => exact hstay

lemma openAp_eq : s.openAp = { s with mode := .apsta, radio := s.openAp.radio } := by
  unfold Remote.openAp
  split
  next => rfl
  next h =>
    rw [not_not] at h
    rw [← h]

lemma swapCreds_assoc : s.swapCreds.radio.assoc = none := by
  unfold Remote.swapCreds
  simp only
  split
  next => rfl
  next h => simpa [Radio.connected] using h

/-- After a turn the station is associated beside the access point only if it was before. -/
lemma retry_bridged (h : s.readStatus.retry.bridged = true) : s.bridged = true := by
  obtain ⟨-, hon, hoff, -⟩ := retry_spec (s := s)
  cases hc : s.radio.connected with
  | true =>
    obtain ⟨hr, hm⟩ := hon hc
    rwa [Remote.bridged, hr, hm] at h
  | false =>
    rw [Remote.bridged, hoff hc, Bool.and_false] at h
    cases h

/-- A network that is applied ends the association there is. -/
lemma applyPending_spec (h : s.pending.pending = true) :
    s.applyPending.now = s.now ∧ s.applyPending.phase = .apStaConnecting ∧
    s.applyPending.radio.connected = false ∧ s.applyPending.mode = .apsta := by
  have ha := congrArg Option.isSome (begin_assoc (s := s.openAp.swapCreds) swapCreds_assoc)
  rw [Remote.applyPending, h, begin_eq, openAp_eq]
  exact ⟨rfl, rfl, openAp_eq ▸ ha, rfl⟩

lemma applyPending_none (h : s.pending.pending = false) : s.applyPending = s := by
  rw [Remote.applyPending, h]
  rfl

lemma pump_applied (h : s.pending.pending = true) : s.pumpPhase = s.applyPending := by
  obtain ⟨-, hp, hc, -⟩ := applyPending_spec h
  have hsta : s.applyPending.staConnected = s.applyPending :=
    if_neg fun ⟨_, h'⟩ => Bool.false_ne_true (hc.symm.trans h')
  have hdown : s.applyPending.teardown = s.applyPending := if_pos (by rw [hp]; exact nofun)
  rw [Remote.pumpPhase, hsta, hdown]

/-- The phase machine has nothing to do. -/
lemma pump_rest (h : s.pending.pending = false) (hp : s.phase ≠ .apStaGrace)
    (hc : s.phase = .apStaConnecting → s.radio.connected = false) : s.pumpPhase = s := by
  have hsta : s.staConnected = s :=
    if_neg fun ⟨h', h''⟩ => Bool.false_ne_true ((hc h').symm.trans h'')
  have hdown : s.teardown = s := if_pos hp
  rw [Remote.pumpPhase, applyPending_none h, hsta, hdown]

/-- The grace period begins. -/
lemma pump_grace (h : s.pending.pending = false) (hp : s.phase = .apStaConnecting)
    (hc : s.radio.connected = true) :
    s.pumpPhase = { s with phase := .apStaGrace, phaseStartedMs := s.millis }.deauth := by
  have hsta : s.staConnected = { s with phase := .apStaGrace, phaseStartedMs := s.millis } :=
    if_pos ⟨hp, hc⟩
  have he : s.elapsed s.millis = 0 := by
    rw [Remote.elapsed, Nat.add_sub_cancel_left, Nat.mod_self]
  have hno : ¬ WR_APSTA_GRACE_MS ≤ s.elapsed s.millis := by rw [he]; decide
  rw [Remote.pumpPhase, applyPending_none h, hsta, Remote.teardown, if_neg (not_not.mpr rfl)]
  exact if_neg hno

/-- The grace period goes on, or ends. -/
lemma pump_teardown (h : s.pending.pending = false) (hp : s.phase = .apStaGrace) :
    s.pumpPhase = if WR_APSTA_GRACE_MS ≤ s.elapsed s.phaseStartedMs then s.deauth.takeDown
      else s.deauth := by
  have hsta : s.staConnected = s := if_neg fun ⟨h', _⟩ => by rw [hp] at h'; cases h'
  rw [Remote.pumpPhase, applyPending_none h, hsta, Remote.teardown, if_neg (not_not.mpr hp)]

/-- A request is refused, or the device restarts, or it is parked. -/
lemma configure_cases {auth : Bool} {ssid psk : Bytes} {req : Nat} :
    (∃ eeprom a, a ≠ .parked ∧
      s.configure auth ssid psk req = ({ s with eeprom := eeprom }, a)) ∨
    (s.pending.parked = false ∧ s.pending.pending = false ∧ ssid ≠ [] ∧ ssid.length ≤ 32 ∧
      psk.length ≤ 32 ∧ s.mode ≠ .off ∧
      s.configure auth ssid psk req = ((s.writeStaCreds ssid psk).park ssid psk req, .parked)) := by
  have hkeep : ∀ {eeprom : Eeprom} {a : Reply} {x : Remote × Reply}, a ≠ .parked →
      x = ({ s with eeprom := eeprom }, a) → ∃ eeprom a, a ≠ .parked ∧
        x = ({ s with eeprom := eeprom }, a) := fun ha hx => ⟨_, _, ha, hx⟩
  unfold Remote.configure
  split
  next => exact .inl (@hkeep s.eeprom _ _ (by decide) rfl)
  next =>
    split
    next => exact .inl (@hkeep s.eeprom _ _ (by decide) rfl)
    next hssid =>
      split
      next => exact .inl (@hkeep s.eeprom _ _ (by decide) rfl)
      next hpsk =>
        split
        next => exact .inl (@hkeep s.eeprom _ _ (by decide) rfl)
        next hbusy =>
          simp only
          split
          next hmode =>
            have hoff : s.mode ≠ .off := fun e => by
              obtain h | h := hmode
              · exact absurd (e.symm.trans h) nofun
              · exact absurd (e.symm.trans h) nofun
            rw [not_or, Bool.not_eq_true, Bool.not_eq_true] at hbusy
            rw [not_or, not_lt] at hssid
            exact .inr ⟨hbusy.1, hbusy.2, fun e => hssid.1 (by rw [e]; rfl), hssid.2,
              not_lt.mp hpsk, hoff, rfl⟩
          next => exact .inl (hkeep (by decide) rfl)

/-- Settings are kept only, or become the pending network. -/
lemma wifiSettings_cases {ssid psk : Bytes} :
    (∃ eeprom, (s.pending.parked = true ∨ s.pending.pending = true) ∧
      s.wifiSettings ssid psk = { s with eeprom := eeprom }) ∨
    (s.pending.parked = false ∧ s.pending.pending = false ∧
      s.wifiSettings ssid psk =
        (s.writeStaCreds (cstr (ssid.take 32)) (cstr (psk.take 32))).provision
          (cstr (ssid.take 32)) (cstr (psk.take 32))) := by
  unfold Remote.wifiSettings
  simp only
  split
  next h => exact .inl ⟨_, h, rfl⟩
  next h =>
    rw [not_or, Bool.not_eq_true, Bool.not_eq_true] at h
    exact .inr ⟨h.1, h.2, rfl⟩

lemma requestSoftap_eq {auth : Bool} :
    ∃ b, (s.requestSoftap auth).1 = { s with forceSoftapPending := b } := by
  unfold Remote.requestSoftap
  split
  next => exact ⟨s.forceSoftapPending, rfl⟩
  next =>
    split
    next => exact ⟨s.forceSoftapPending, rfl⟩
    next => exact ⟨true, rfl⟩

/-- The loop of the serial line only takes back what it has asked for. -/
lemma improvLoop_eq : ∃ b p, (s.pending.pending = false → p = false) ∧
    s.improvLoop = { s with provInProgress := b, pending := { s.pending with pending := p } } := by
  unfold Remote.improvLoop
  split
  next => exact ⟨s.provInProgress, s.pending.pending, id, rfl⟩
  next =>
    split
    next => exact ⟨false, s.pending.pending, id, rfl⟩
    next =>
      split
      next => exact ⟨false, false, fun _ => rfl, rfl⟩
      next => exact ⟨s.provInProgress, s.pending.pending, id, rfl⟩

lemma drain_eq : ∃ p d, p.pending = s.pending.pending ∧
    s.drain.1 = { s with pending := p, deauthAtMs := d } := by
  unfold Remote.drain
  split
  next => exact ⟨s.pending, s.deauthAtMs, rfl, rfl⟩
  next =>
    split
    next => exact ⟨s.free.pending, _, rfl, rfl⟩
    next =>
      split
      next => exact ⟨s.free.pending, s.deauthAtMs, rfl, rfl⟩
      next => exact ⟨s.pending, s.deauthAtMs, rfl, rfl⟩
    next => exact ⟨s.pending, s.deauthAtMs, rfl, rfl⟩

/-- The time from a reading of the clock, as long as it has not started over since. -/
lemma elapsed_eq {g : Nat} (hg : g ≤ s.now) (h : s.now < g + 2 ^ 32) :
    s.elapsed (g % 2 ^ 32) = s.now - g := by
  rw [Remote.elapsed, Remote.millis]
  omega

lemma updateStatus_off (h : s.initialized = false) : s.updateStatus = s := by
  rw [Remote.updateStatus, h]
  rfl

lemma updateStatus_force (hi : s.initialized = true) (hf : s.forceSoftapPending = true) :
    s.updateStatus = { s with forceSoftapPending := false }.forceSoftap := by
  rw [Remote.updateStatus, hi, hf]
  rfl

lemma updateStatus_pump (hi : s.initialized = true) (hf : s.forceSoftapPending = false) :
    s.updateStatus = s.pumpPhase.readStatus.retry := by
  rw [Remote.updateStatus, hi, hf]
  rfl

end URSupreme.Wifi
