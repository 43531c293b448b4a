import URSupreme.Lib.Run
import URSupreme.Wifi.Steps

/-!
# When the access point is open

Beside the device the time of the last turn is kept, since when the turns have found the station
associated in the mode with access point and station, since when the phase machine has been in its
grace period, and whether the access point is the one that a request has forced on. A request that
forces it is done with when a network is provisioned.
-/

namespace URSupreme.Wifi
open Lib

/-- A device and what is kept of its past. -/
structure Watch where
  remote : Remote := {}
  lastTick : Nat := 0
  since : Option Nat := none
  graceAt : Nat := 0
  forced : Bool := false
  deriving DecidableEq, Repr

/-- The access point is still the one that was forced on. -/
def Watch.forcedBy (w : Watch) : Event → Bool
  | .boot .. => false
  | .configure auth ssid psk => w.forced && (w.remote.configure auth ssid psk 0).2 ≠ .parked
  | .wifiSettings _ _ => w.forced && (w.remote.pending.parked || w.remote.pending.pending)
  | .tick => w.forced || (w.remote.initialized && w.remote.forceSoftapPending)
  | _ => w.forced

/-- An event, with what is kept. -/
def Watch.step (w : Watch) (e : Event) : Watch :=
  let remote := w.remote.step 0 e
  let turn := e = .tick && w.remote.initialized
  { remote := remote
    lastTick := if turn then remote.now else match e with
      | .boot .. => 0
      | _ => w.lastTick
    since := if !remote.bridged then none
      else if turn then w.since.or (some remote.now) else w.since
    graceAt := if w.remote.phase ≠ .apStaGrace then remote.now else w.graceAt
    forced := w.forcedBy e }

/-- The steps that keep to the policy: the access point is forced on while no attempt is in its
grace period or about to be made, the station is not associated beside an access point that no
attempt has brought up, and the clock does not start over within a grace period. -/
def Watch.Ok (w : Watch) : Event → Prop
  | .tick => w.remote.initialized = true →
      (w.remote.forceSoftapPending = true →
        w.remote.phase ≠ .apStaGrace ∧ w.remote.pending.pending = false) ∧
      (w.remote.forceSoftapPending = false → w.remote.pending.pending = false →
        w.remote.phase = .idle → w.remote.bridged = false) ∧
      (w.remote.phase = .apStaGrace → w.remote.now + WR_APSTA_GRACE_MS < w.lastTick + 2 ^ 32)
  | _ => True

instance instDecidableWatchOk {w : Watch} : ∀ {e}, Decidable (w.Ok e)
  | .tick => inferInstanceAs (Decidable (_ → _))
  | .wait _ | .boot .. | .configure .. | .wifiSettings .. | .requestSoftap
      _ | .improvLoop | .drain |
    .staUp | .staDown | .close _ => .isTrue trivial

/-- The policy: the access point is taken down when the station has been up for the grace period,
and it stays when it has been forced on. -/
structure Closed (w : Watch) : Prop where
  grace : ∀ t, w.since = some t → w.remote.radio.ap = true → w.lastTick < t + WR_APSTA_GRACE_MS
  forced : w.forced = true → w.remote.radio.ap = true

structure Inv (w : Watch) : Prop where
  past : w.lastTick ≤ w.remote.now
  grace : w.remote.phase = .apStaGrace → w.remote.phaseStartedMs = w.graceAt % 2 ^ 32 ∧
    w.graceAt ≤ w.lastTick ∧ w.lastTick < w.graceAt + WR_APSTA_GRACE_MS
  since : ∀ t, w.since = some t → w.remote.phase = .apStaGrace ∧ w.graceAt ≤ t
  forced : w.forced = true → w.remote.mode = .ap ∧ w.remote.radio = { ap := true } ∧
    w.remote.phase ≠ .apStaGrace ∧ w.remote.pending.pending = false

variable {w : Watch}

lemma Inv.closed (h : Inv w) : Closed w where
  grace t ht _ := by
    obtain ⟨hp, hg⟩ := h.since t ht
    obtain ⟨-, -, hl⟩ := h.grace hp
    omega
  forced hf := by
    rw [(h.forced hf).2.1]

lemma Inv.forcedAp (h : Inv w) (hf : w.forced = true) : w.forced = true ∧ w.remote.mode = .ap ∧
    w.remote.radio = { ap := true } ∧ w.remote.pending.pending = false :=
  ⟨hf, (h.forced hf).1, (h.forced hf).2.1, (h.forced hf).2.2.2⟩

/-- What is kept when an event that is no turn leaves the phase alone. -/
lemma Inv.still {e : Event} (h : Inv w) (he : e = .tick → w.remote.initialized = false)
    (hb : ∀ now eeprom, e ≠ .boot now eeprom) (hs : (w.remote.step 0 e).phase = w.remote.phase)
    (hst : (w.remote.step 0 e).phaseStartedMs = w.remote.phaseStartedMs)
    (hn : w.remote.now ≤ (w.remote.step 0 e).now)
    (hf : w.forcedBy e = true → w.forced = true ∧ (w.remote.step 0 e).mode = .ap ∧
      (w.remote.step 0 e).radio = { ap := true } ∧
      (w.remote.step 0 e).pending.pending = false) : Inv (w.step e) := by
  have hl : (w.step e).lastTick = w.lastTick := by
    cases e with
    | tick =>
      show (if (true && w.remote.initialized) = true then _ else _) = _
      rw [he rfl]
      rfl
    | boot now eeprom => exact absurd rfl (hb now eeprom)
    | _ => rfl
  have hsince : ∀ t, (w.step e).since = some t → w.since = some t := by
    intro t
    have hs : (w.step e).since = if !(w.remote.step 0 e).bridged then none else w.since := by
      cases e with
      | tick =>
        show (if !w.remote.updateStatus.bridged then none
          else if (true && w.remote.initialized) = true then _ else _) = _
        rw [he rfl]
        rfl
      | _ => rfl
    rw [hs]
    split
    next => nofun
    next => exact id
  have hg : w.remote.phase = .apStaGrace → (w.step e).graceAt = w.graceAt := fun hp =>
    if_neg (not_not.mpr hp)
  refine ⟨hl ▸ h.past.trans hn, fun hp => ?_, fun t ht => ?_, fun hf' => ?_⟩
  · have hp : w.remote.phase = .apStaGrace := hs.symm.trans hp
    rw [hl, hg hp]
    exact ⟨hst.trans (h.grace hp).1, (h.grace hp).2⟩
  · obtain ⟨hp, hle⟩ := h.since t (hsince t ht)
    exact ⟨hs.trans hp, hg hp ▸ hle⟩
  · obtain ⟨hf, hm, hr, hpend⟩ := hf hf'
    exact ⟨hm, hr, fun hp => (h.forced hf).2.2.1 (hs.symm.trans hp), hpend⟩

lemma Inv.boot {now : Nat} {eeprom : Eeprom} : Inv (w.step (.boot now eeprom)) := by
  have hboot : (Wifi.boot now eeprom).phase = .idle ∧
      (Wifi.boot now eeprom).radio.connected = false := by
    unfold Wifi.boot
    split
    · obtain ⟨hs, -, ha⟩ := init_sta (s := { now := now, eeprom := eeprom, mode := .sta }) rfl
      exact ⟨hs.phase, congrArg Option.isSome ha⟩
    · obtain ⟨hs, -, hr⟩ := init_ap (s := { now := now, eeprom := eeprom, mode := .ap }) rfl
      exact ⟨hs.phase, by rw [hr]; rfl⟩
  have hb : (Wifi.boot now eeprom).bridged = false := by
    rw [Remote.bridged, hboot.2, Bool.and_false]
  have hsince : (w.step (.boot now eeprom)).since = none := by
    show (if !(Wifi.boot now eeprom).bridged then none else _) = none
    rw [hb]
    rfl
  refine ⟨Nat.zero_le _, fun hp => ?_, fun t ht => ?_, fun hf => by cases hf⟩
  · cases hboot.1.symm.trans hp
  · cases hsince.symm.trans ht

lemma Inv.configure {auth : Bool} {ssid psk : Bytes} (h : Inv w) :
    Inv (w.step (.configure auth ssid psk)) := by
  obtain ⟨eeprom, a, -, he⟩ | ⟨-, -, -, -, -, -, he⟩ := @configure_cases w.remote auth ssid psk 0
  · have hstep : w.remote.step 0 (.configure auth ssid psk) = { w.remote with eeprom := eeprom } :=
      congrArg Prod.fst he
    refine h.still nofun nofun ?_ ?_ ?_ fun hf => ?_
    · rw [hstep]
    · rw [hstep]
    · rw [hstep]
    · have hf := (Bool.and_eq_true_iff.mp hf).1
      obtain ⟨hm, hr, -, hp⟩ := h.forced hf
      rw [hstep]
      exact ⟨hf, hm, hr, hp⟩
  · have hstep : w.remote.step 0 (.configure auth ssid psk) =
        (w.remote.writeStaCreds ssid psk).park ssid psk 0 := congrArg Prod.fst he
    refine h.still nofun nofun ?_ ?_ ?_ fun hf => ?_
    · rw [hstep]
      rfl
    · rw [hstep]
      rfl
    · rw [hstep]
      exact le_rfl
    · have hf := (Bool.and_eq_true_iff.mp hf).2
      have ha : (w.remote.configure auth ssid psk 0).2 = .parked := congrArg Prod.snd he
      rw [ha] at hf
      exact absurd hf (by decide)

lemma Inv.wifiSettings {ssid psk : Bytes} (h : Inv w) : Inv (w.step (.wifiSettings ssid psk)) := by
  obtain ⟨eeprom, hb, he⟩ | ⟨hpk, hpd, he⟩ := @wifiSettings_cases w.remote ssid psk
  · have hstep : w.remote.step 0 (.wifiSettings ssid psk) = { w.remote with eeprom := eeprom } := he
    refine h.still nofun nofun ?_ ?_ ?_ fun hf => ?_
    · rw [hstep]
    · rw [hstep]
    · rw [hstep]
    · have hf := (Bool.and_eq_true_iff.mp hf).1
      obtain ⟨hm, hr, -, hp⟩ := h.forced hf
      rw [hstep]
      exact ⟨hf, hm, hr, hp⟩
  · have hstep : w.remote.step 0 (.wifiSettings ssid psk) = _ := he
    refine h.still nofun nofun ?_ ?_ ?_ fun hf => ?_
    · rw [hstep]
      rfl
    · rw [hstep]
      rfl
    · rw [hstep]
      exact le_rfl
    · have hf : (w.remote.pending.parked || w.remote.pending.pending) = true :=
        (Bool.and_eq_true_iff.mp hf).2
      rw [hpk, hpd] at hf
      exact absurd hf nofun

/-- The end of a turn at which the main loop has looked at the device. -/
lemma Inv.turn (hi : w.remote.initialized = true) (hn : w.remote.updateStatus.now = w.remote.now)
    (hgrace : w.remote.updateStatus.phase = .apStaGrace →
      w.remote.updateStatus.phaseStartedMs = (w.step .tick).graceAt % 2 ^ 32 ∧
      (w.step .tick).graceAt ≤ w.remote.now ∧
      w.remote.now < (w.step .tick).graceAt + WR_APSTA_GRACE_MS)
    (hsince : w.remote.updateStatus.bridged = true → w.remote.updateStatus.phase = .apStaGrace ∧
      ∀ t, w.since.or (some w.remote.now) = some t → (w.step .tick).graceAt ≤ t)
    (hforced : (w.forced = true ∨ w.remote.forceSoftapPending = true) →
      w.remote.updateStatus.mode = .ap ∧ w.remote.updateStatus.radio = { ap := true } ∧
      w.remote.updateStatus.phase ≠ .apStaGrace ∧
      w.remote.updateStatus.pending.pending = false) : Inv (w.step .tick) := by
  have hlast : (w.step .tick).lastTick = w.remote.now := by
    show (if (true && w.remote.initialized) = true then w.remote.updateStatus.now else _) = _
    rw [hi]
    exact hn
  have hs : (w.step .tick).since = if !w.remote.updateStatus.bridged then none
      else w.since.or (some w.remote.now) := by
    show (if !w.remote.updateStatus.bridged then none
      else if (true && w.remote.initialized) = true then
        w.since.or (some w.remote.updateStatus.now) else w.since) = _
    rw [hi, hn]
    rfl
  refine ⟨hlast.trans_le hn.symm.le, fun hp => ?_, fun t ht => ?_, fun hf => ?_⟩
  · rw [hlast]
    exact hgrace hp
  · rw [hs] at ht
    split at ht
    next => cases ht
    next hb =>
      obtain ⟨hp, hle⟩ := hsince (by simpa using hb)
      exact ⟨hp, hle t ht⟩
  · refine hforced ?_
    have hf : (w.forced || (w.remote.initialized && w.remote.forceSoftapPending)) = true := hf
    rw [hi, Bool.true_and, Bool.or_eq_true] at hf
    exact hf

/-- A turn of the phase machine. -/
lemma Inv.pump (h : Inv w) (hok : w.Ok .tick) (hi : w.remote.initialized = true)
    (hf : w.remote.forceSoftapPending = false) : Inv (w.step .tick) := by
  obtain ⟨-, hidle, hclock⟩ := hok hi
  have hu := updateStatus_pump hi hf
  obtain ⟨hs, -, -, hap⟩ := retry_spec (s := w.remote.pumpPhase)
  rw [← hu] at hs hap
  have hbridged : w.remote.updateStatus.bridged = true → w.remote.pumpPhase.bridged = true :=
    fun hb =>
    retry_bridged (hu ▸ hb)
  have hforced : w.forced = true ∨ w.remote.forceSoftapPending = true → w.forced = true := fun h =>
    h.resolve_right fun h => Bool.false_ne_true (hf.symm.trans h)
  have hstay : w.remote.pumpPhase = w.remote → w.remote.phase ≠ .apStaGrace →
      w.remote.bridged = false → Inv (w.step .tick) := by
    intro hr hp hb
    rw [hr] at hs hap hbridged
    refine .turn hi hs.now (fun hp' => absurd (hs.phase.symm.trans hp') hp)
      (fun hb' => ?_) fun hf' => ?_
    · exact absurd (hb.symm.trans (hbridged hb')) Bool.false_ne_true
    · obtain ⟨hm, hradio, -, hpend⟩ := h.forced (hforced hf')
      obtain ⟨hr', hm'⟩ := hap hm
      exact ⟨hm', hr'.trans hradio, hs.phase ▸ hp, hs.pending ▸ hpend⟩
  cases hpend : w.remote.pending.pending with
  | true =>
    obtain ⟨hn, hp, hc, -⟩ := applyPending_spec hpend
    rw [pump_applied hpend] at hs hbridged
    refine .turn hi (hs.now.trans hn) (fun hp' => ?_) (fun hb => ?_) fun hf' => ?_
    · rw [hs.phase, hp] at hp'
      cases hp'
    · have hb := hbridged hb
      rw [Remote.bridged, hc, Bool.and_false] at hb
      cases hb
    · cases hpend.symm.trans (h.forced (hforced hf')).2.2.2
  | false =>
    cases hp : w.remote.phase with
    | idle =>
      refine hstay (pump_rest hpend (by rw [hp]; decide) fun e => ?_) (by rw [hp]; decide)
        (hidle hf hpend hp)
      rw [hp] at e
      cases e
    | apStaConnecting =>
      cases hc : w.remote.radio.connected with
      | false =>
        refine hstay (pump_rest hpend (by rw [hp]; decide) fun _ => hc) (by rw [hp]; decide) ?_
        rw [Remote.bridged, hc, Bool.and_false]
      | true =>
        rw [pump_grace hpend hp hc] at hs
        have hg : (w.step .tick).graceAt = w.remote.now := by
          show (if w.remote.phase ≠ .apStaGrace then w.remote.updateStatus.now else _) = _
          rw [if_pos (by rw [hp]; decide)]
          exact hs.now
        refine .turn hi hs.now (fun _ => ?_) (fun _ => ⟨hs.phase, fun t ht => ?_⟩) fun hf' => ?_
        · rw [hg]
          exact ⟨hs.started, le_rfl, Nat.lt_add_of_pos_right (by decide)⟩
        · rw [hg]
          cases hsince : w.since with
          | none =>
            rw [hsince] at ht
            exact (Option.some.inj ht).le
          | some t' => cases (h.since t' hsince).1.symm.trans hp
        · rw [(h.forced (hforced hf')).2.1] at hc
          cases hc
    | apStaGrace =>
      obtain ⟨hst, hle, hlt⟩ := h.grace hp
      have hpast := h.past
      have hclock := hclock hp
      have he : w.remote.elapsed w.remote.phaseStartedMs = w.remote.now - w.graceAt := by
        rw [hst]
        exact elapsed_eq (hle.trans hpast) (by omega)
      have hg : (w.step .tick).graceAt = w.graceAt := if_neg (not_not.mpr hp)
      rw [pump_teardown hpend hp, he] at hs hbridged
      have hno : ¬ (w.forced = true ∨ w.remote.forceSoftapPending = true) := fun hf' =>
        (h.forced (hforced hf')).2.2.1 hp
      split at hs
      next hend =>
        rw [if_pos hend] at hbridged
        refine .turn hi hs.now (fun hp' => ?_)
          (fun hb => absurd (hbridged hb) Bool.false_ne_true) fun h' => absurd h' hno
        rw [hs.phase] at hp'
        cases hp'
      next hend =>
        refine .turn hi hs.now (fun _ => ?_)
          (fun _ => ⟨hs.phase.trans hp, fun t ht => ?_⟩) fun h' =>
          absurd h' hno
        · rw [hg]
          exact ⟨hs.started.trans hst, hle.trans hpast, by omega⟩
        · rw [hg]
          cases hsince : w.since with
          | none =>
            rw [hsince] at ht
            exact (hle.trans hpast).trans (Option.some.inj ht).le
          | some t' =>
            rw [hsince] at ht
            exact (h.since t' hsince).2.trans (Option.some.inj ht).le

/-- A turn of the main loop. -/
lemma Inv.tick (h : Inv w) (hok : w.Ok .tick) : Inv (w.step .tick) := by
  cases hi : w.remote.initialized with
  | false =>
    have hu : w.remote.step 0 .tick = w.remote := updateStatus_off hi
    refine h.still (fun _ => hi) (fun _ _ h => by cases h) ?_ ?_ ?_ fun hf => ?_
    · rw [hu]
    · rw [hu]
    · rw [hu]
    · have hf : (w.forced || (w.remote.initialized && w.remote.forceSoftapPending)) = true := hf
      rw [hi, Bool.false_and, Bool.or_false] at hf
      rw [hu]
      exact h.forcedAp hf
  | true =>
    obtain ⟨hforce, -, -⟩ := hok hi
    cases hf : w.remote.forceSoftapPending with
    | true =>
      obtain ⟨hp, hpend⟩ := hforce hf
      have hu := updateStatus_force hi hf
      obtain ⟨hs, hm, hr⟩ := forceSoftap_spec (s := { w.remote with forceSoftapPending := false })
      rw [← hu] at hs hm hr
      have hb : w.remote.updateStatus.bridged = false := by
        rw [Remote.bridged, hm]
        rfl
      refine .turn hi hs.now (fun hp' => absurd (hs.phase.symm.trans hp') hp)
        (fun hb' => ?_) fun _ => ?_
      · cases hb.symm.trans hb'
      · exact ⟨hm, hr, fun hp' => hp (hs.phase.symm.trans hp'), hs.pending ▸ hpend⟩
    | false => exact h.pump hok hi hf

lemma Inv.step {e : Event} (hok : w.Ok e) (h : Inv w) : Inv (w.step e) := by
  cases e with
  | wait ms => exact h.still nofun nofun rfl rfl (Nat.le_add_right _ ms) h.forcedAp
  | boot now eeprom => exact .boot
  | configure auth ssid psk => exact h.configure
  | wifiSettings ssid psk => exact h.wifiSettings
  | requestSoftap auth =>
    have hr : ∃ b, w.remote.step 0 (.requestSoftap auth) =
        { w.remote with forceSoftapPending := b } := requestSoftap_eq
    obtain ⟨b, hr⟩ := hr
    refine h.still nofun nofun ?_ ?_ ?_ fun hf => ?_
    · rw [hr]
    · rw [hr]
    · rw [hr]
    · rw [hr]
      exact h.forcedAp hf
  | tick => exact h.tick hok
  | improvLoop =>
    have hr : ∃ b p, (w.remote.pending.pending = false → p = false) ∧
        w.remote.step 0 .improvLoop = { w.remote with
          provInProgress := b, pending := { w.remote.pending with pending := p } } := improvLoop_eq
    obtain ⟨b, p, hp, hr⟩ := hr
    refine h.still nofun nofun ?_ ?_ ?_ fun hf => ?_
    · rw [hr]
    · rw [hr]
    · rw [hr]
    · obtain ⟨hf, hm, hr', hpend⟩ := h.forcedAp hf
      rw [hr]
      exact ⟨hf, hm, hr', hp hpend⟩
  | drain =>
    obtain ⟨p, d, hp, hr⟩ := drain_eq (s := w.remote)
    have hr : w.remote.step 0 .drain = _ := hr
    refine h.still nofun nofun ?_ ?_ ?_ fun hf => ?_
    · rw [hr]
    · rw [hr]
    · rw [hr]
    · obtain ⟨hf, hm, hr', hpend⟩ := h.forcedAp hf
      rw [hr]
      exact ⟨hf, hm, hr', hp.trans hpend⟩
  | staUp =>
    refine h.still nofun nofun rfl rfl le_rfl fun hf => ?_
    obtain ⟨-, hm, hr, hp⟩ := h.forcedAp hf
    refine ⟨hf, hm, ?_, hp⟩
    show w.remote.radio.up = _
    rw [hr]
    rfl
  | staDown =>
    refine h.still nofun nofun rfl rfl le_rfl fun hf => ?_
    obtain ⟨-, hm, hr, hp⟩ := h.forcedAp hf
    refine ⟨hf, hm, ?_, hp⟩
    show w.remote.radio.down = _
    rw [hr]
    rfl
  | close req => exact h.still nofun nofun rfl rfl le_rfl h.forcedAp

/-- **The access point does not stay open.** As long as the steps keep to the policy, the access
point is down once the station has been up for the grace period, and one that was forced on
stays. -/
theorem closed_of_ok (h : Reach Watch.step Watch.Ok {} w) : Closed w :=
  have h0 : Inv {} := ⟨le_rfl, nofun, nofun, nofun⟩
  (h.invariant h0 fun hok h => h.step hok).closed

/-- A device that is provisioned with a network, and keeps to it. -/
def provisioned : List Event :=
  [.boot 500 {}, .configure true [0x61] [0x62], .tick, .staUp, .tick, .wait 120000, .tick]

theorem closed_provisioned : Closed (provisioned.foldl Watch.step {}) :=
  closed_of_ok (Reach.init.run (by decide))

/-- A saved network that is out of reach for three minutes after start-up, and then is there. -/
def promoted : List Event :=
  [.boot 500 ⟨1, [0x61], [0x62]⟩, .wait 180000, .tick, .staUp, .tick, .wait 120000, .tick]

/-- The access point that start-up has brought up stays open, however long the station is up. -/
theorem promoted_not_closed :
    ¬ ∀ w, Reach Watch.step (fun _ _ => True) {} w → Closed w := by
  intro h
  have hr : Reach Watch.step (fun _ _ => True) {} (promoted.foldl Watch.step {}) :=
    Reach.init.run (by decide)
  have hlt := (h _ hr).grace 180500 (by decide) (by decide)
  exact absurd hlt (by decide)

end URSupreme.Wifi
