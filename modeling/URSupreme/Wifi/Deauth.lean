import URSupreme.Lib.Deadline
import URSupreme.Wifi.Steps

/-!
# When the access point sends its clients away

Once a parked request is answered in the grace period, the clients are sent away after a margin for
the answer to go out. Beside the device the time is kept at which the margin is over: of the last
answer in a grace period, and none outside of one.
-/

namespace URSupreme.Wifi
open Lib

variable {s s' : Remote} {req : ℕ} {due : Option ℕ}

/-- An answer arms the deauthentication. -/
def Remote.armsDeauth (s : Remote) : Bool :=
  s.initialized && s.pending.parked && s.phase = .apStaGrace

/-- When the clients are to be sent away, after an event. -/
def Remote.deauthDue (s : Remote) (req : ℕ) (e : Event) (due : Option ℕ) : Option ℕ :=
  if (s.step req e).phase ≠ .apStaGrace then none
  else if e = .drain ∧ s.armsDeauth then some (s.now + WR_APSTA_DEAUTH_DELAY)
  else due

/-- What is kept of the margin is right, as far as a turn looks at it. -/
structure Margin (s : Remote) (due : Option ℕ) : Prop where
  unarmed : due = none → s.deauthAtMs = 0
  phase : s.phase ≠ .apStaGrace → due = none
  marks : ∀ d ∈ due, s.deauthDone = false →
    Marks (2 ^ 32) s.deauthAtMs d s.now ∧ s.deauthAtMs ≠ 0

/-! ### What an event does to the margin -/

/-- The margin is given up, or left as it is. -/
inductive Change (s s' : Remote) : Prop where
  | off : s'.phase ≠ .apStaGrace → s'.deauthAtMs = 0 → Change s s'
  | kept : s'.deauthAtMs = s.deauthAtMs → (s'.deauthDone = false → s.deauthDone = false) →
    (s.phase = .apStaGrace → s'.phase = .apStaGrace) → Change s s'

/-- What a turn outside the phase machine leaves of it. -/
structure Untouched (s s' : Remote) : Prop where
  deauthAt : s'.deauthAtMs = s.deauthAtMs
  done : s'.deauthDone = s.deauthDone

lemma Untouched.trans {t : Remote} (h : Untouched s t) (h' : Untouched t s') : Untouched s s' :=
  ⟨h'.deauthAt.trans h.deauthAt, h'.done.trans h.done⟩

/-- A change, and then a turn that touches nothing of it. -/
lemma Change.trans {t : Remote} (h : Change s t) (hu : Untouched t s') (hp : s'.phase = t.phase) :
    Change s s' := by
  cases h with
  | off hphase hat => exact .off (hp ▸ hphase) (hu.deauthAt.trans hat)
  | kept hat hdone hphase =>
    apply Change.kept
    · exact hu.deauthAt.trans hat
    · exact fun hd => hdone (hu.done ▸ hd)
    · exact fun hg => hp.trans (hphase hg)

lemma begin_untouched : Untouched s s.begin := by
  rw [begin_eq]
  exact ⟨rfl, rfl⟩

lemma startSta_untouched : Untouched s s.startSta := by
  unfold Remote.startSta
  rw [begin_eq]
  exact ⟨rfl, rfl⟩

lemma init_untouched (h : s.mode = .sta ∨ s.mode = .ap) : Untouched s s.init := by
  have hstart : Untouched s.reset s.reset.start := by
    obtain h | h := h
    · rw [Remote.start, show s.reset.mode = .sta from h]
      exact startSta_untouched
    · rw [Remote.start, show s.reset.mode = .ap from h]
      exact ⟨rfl, rfl⟩
  exact ⟨hstart.deauthAt, hstart.done⟩

lemma forceSoftap_untouched : Untouched s s.forceSoftap := by
  obtain ⟨hat, hdone⟩ := init_untouched
    (s := { s with mode := .ap, staFirstAttemptMs := 0, staFallbackArmed := false }) (.inr rfl)
  exact ⟨hat, hdone⟩

lemma rebegin_untouched : Untouched s s.rebegin := by
  obtain ⟨hat, hdone⟩ := begin_untouched (s := { s with radio := s.radio.disconnect })
  exact ⟨hat, hdone⟩

lemma retry_untouched : Untouched s s.readStatus.retry := by
  have hr : Untouched s s.readStatus := ⟨rfl, rfl⟩
  unfold Remote.retry
  split
  next h =>
    split
    next => exact hr.trans ⟨rfl, rfl⟩
    next =>
      split
      next => exact hr.trans (init_untouched (.inl h.2.1))
      next => exact hr
  next =>
    split
    next => exact hr.trans rebegin_untouched
    next => exact hr

/-- Once the clients are sent away they stay so, and the margin is what it was. -/
lemma deauth_change {t : Remote} (hat : t.deauthAtMs = s.deauthAtMs)
    (hdone : t.deauthDone = s.deauthDone) (hp : t.phase = .apStaGrace) : Change s t.deauth := by
  apply Change.kept
  · exact hat
  · intro hd
    rw [← hdone]
    exact (Bool.or_eq_false_iff.mp hd).1
  · exact fun _ => hp

lemma pump_change : Change s s.pumpPhase := by
  cases hpend : s.pending.pending with
  | true =>
    obtain ⟨-, hp, -, -⟩ := applyPending_spec hpend
    rw [pump_applied hpend]
    apply Change.off
    · rw [hp]
      exact fun h => by cases h
    · rw [Remote.applyPending, hpend]
      rfl
  | false =>
    have hrest : s.pumpPhase = s → Change s s.pumpPhase := fun he => by
      rw [he]
      exact .kept rfl id id
    cases hp : s.phase with
    | idle => exact hrest (pump_rest hpend (by simp [hp]) (by simp [hp]))
    | apStaConnecting =>
      cases hc : s.radio.connected with
      | false => exact hrest (pump_rest hpend (by simp [hp]) fun _ => hc)
      | true =>
        rw [pump_grace hpend hp hc]
        exact deauth_change rfl rfl rfl
    | apStaGrace =>
      rw [pump_teardown hpend hp]
      split
      next => exact .off (fun h => by cases h) rfl
      next => exact deauth_change rfl rfl hp

lemma updateStatus_change : Change s s.updateStatus ∧ s.updateStatus.now = s.now := by
  cases hi : s.initialized with
  | false =>
    rw [updateStatus_off hi]
    exact ⟨.kept rfl id id, rfl⟩
  | true =>
    cases hf : s.forceSoftapPending with
    | true =>
      obtain ⟨hs, -, -⟩ := forceSoftap_spec (s := { s with forceSoftapPending := false })
      rw [updateStatus_force hi hf]
      obtain ⟨hat, hdone⟩ := forceSoftap_untouched (s := { s with forceSoftapPending := false })
      exact ⟨.kept hat (fun hd => hdone.symm.trans hd) fun hg => hs.phase.trans hg, hs.now⟩
    | false =>
      obtain ⟨hs, -, -, -⟩ := retry_spec (s := s.pumpPhase)
      rw [updateStatus_pump hi hf]
      refine ⟨pump_change.trans retry_untouched hs.phase, hs.now.trans ?_⟩
      -- the phase machine does not move the clock
      cases hpend : s.pending.pending with
      | true => rw [pump_applied hpend, (applyPending_spec hpend).1]
      | false =>
        rw [Remote.pumpPhase, applyPending_none hpend, Remote.teardown, Remote.staConnected]
        split_ifs
        all_goals rfl

/-- An event that is not an answer gives up the margin or leaves it, and takes no time. -/
lemma step_change {e : Event} (hwait : ∀ ms, e ≠ .wait ms)
    (hboot : ∀ now eeprom, e ≠ .boot now eeprom) (hdrain : e = .drain → s.armsDeauth = false) :
    Change s (s.step req e) ∧ (s.step req e).now = s.now := by
  have hkept : ∀ {t : Remote}, t.deauthAtMs = s.deauthAtMs → t.deauthDone = s.deauthDone →
      t.phase = s.phase → t.now = s.now → Change s t ∧ t.now = s.now := fun hat hdone hp hn =>
    ⟨.kept hat (fun hd => hdone.symm.trans hd) fun hg => hp.trans hg, hn⟩
  cases e with
  | wait ms => exact absurd rfl (hwait ms)
  | boot now eeprom => exact absurd rfl (hboot now eeprom)
  | configure auth ssid psk =>
    obtain ⟨eeprom, a, -, he⟩ | ⟨-, -, -, -, -, -, he⟩ := @configure_cases s auth ssid psk req
    · have he : s.step req (.configure auth ssid psk) = { s with eeprom := eeprom } :=
        congrArg Prod.fst he
      rw [he]
      exact hkept rfl rfl rfl rfl
    · have he : s.step req (.configure auth ssid psk) =
        (s.writeStaCreds ssid psk).park ssid psk req :=
        congrArg Prod.fst he
      rw [he]
      exact hkept rfl rfl rfl rfl
  | wifiSettings ssid psk =>
    obtain ⟨eeprom, -, he⟩ | ⟨-, -, he⟩ := @wifiSettings_cases s ssid psk
    · have he : s.step req (.wifiSettings ssid psk) = { s with eeprom := eeprom } := he
      rw [he]
      exact hkept rfl rfl rfl rfl
    · have he : s.step req (.wifiSettings ssid psk) = _ := he
      rw [he]
      exact hkept rfl rfl rfl rfl
  | requestSoftap auth =>
    have he : ∃ b, s.step req (.requestSoftap auth) = { s with forceSoftapPending := b } :=
      requestSoftap_eq
    obtain ⟨b, he⟩ := he
    rw [he]
    exact hkept rfl rfl rfl rfl
  | tick => exact updateStatus_change
  | improvLoop =>
    have he : ∃ b p, (s.pending.pending = false → p = false) ∧ s.step req .improvLoop =
        { s with provInProgress := b, pending := { s.pending with pending := p } } := improvLoop_eq
    obtain ⟨b, p, -, he⟩ := he
    rw [he]
    exact hkept rfl rfl rfl rfl
  | drain =>
    have ha := hdrain rfl
    show Change s s.drain.1 ∧ s.drain.1.now = s.now
    unfold Remote.drain
    split
    next => exact hkept rfl rfl rfl rfl
    next h =>
      obtain ⟨hi, hk⟩ : s.initialized = true ∧ s.pending.parked = true := by simpa using h
      cases hp : s.phase with
      | idle => exact hkept rfl rfl rfl rfl
      | apStaConnecting =>
        dsimp only
        split
        next => exact hkept rfl rfl rfl rfl
        next => exact hkept rfl rfl rfl rfl
      | apStaGrace =>
        -- here the answer would arm it
        simp [Remote.armsDeauth, hi, hk, hp] at ha
  | staUp => exact hkept rfl rfl rfl rfl
  | staDown => exact hkept rfl rfl rfl rfl
  | close req => exact hkept rfl rfl rfl rfl

/-- An answer in the grace period. -/
lemma drain_arms (h : s.armsDeauth = true) :
    s.drain.1 = { s.free with deauthAtMs := (s.millis + WR_APSTA_DEAUTH_DELAY) % 2 ^ 32 } := by
  simp only [Remote.armsDeauth, Bool.and_eq_true, decide_eq_true_eq] at h
  obtain ⟨⟨hi, hk⟩, hp⟩ := h
  simp [Remote.drain, hi, hk, hp]

lemma step_now {e : Event} (hwait : ∀ ms, e ≠ .wait ms)
    (hboot : ∀ now eeprom, e ≠ .boot now eeprom) : (s.step req e).now = s.now := by
  by_cases ha : e = .drain ∧ s.armsDeauth = true
  · obtain ⟨rfl, ha⟩ := ha
    show s.drain.1.now = s.now
    rw [drain_arms ha]
    rfl
  · exact (step_change hwait hboot fun he => by simpa [he] using ha).2

/-- Where the end of a margin comes from that a turn still looks at. -/
lemma mem_deauthDue {e : Event} {d : ℕ} (hboot : ∀ now eeprom, e ≠ .boot now eeprom)
    (hd : d ∈ s.deauthDue req e due) (hdone : (s.step req e).deauthDone = false) :
    s.deauthDone = false ∧
      (d ∈ due ∨ e = .drain ∧ s.armsDeauth = true ∧ d = s.now + WR_APSTA_DEAUTH_DELAY) := by
  unfold Remote.deauthDue at hd
  split at hd
  next => cases hd
  next hp =>
    split at hd
    next ha =>
      obtain ⟨rfl, ha⟩ := ha
      refine ⟨?_, .inr ⟨rfl, ha, (Option.mem_some_iff.mp hd).symm⟩⟩
      have he : s.step req .drain = s.drain.1 := rfl
      rw [he, drain_arms ha] at hdone
      exact hdone
    next ha =>
      refine ⟨?_, .inl hd⟩
      by_cases hw : ∃ ms, e = .wait ms
      · obtain ⟨ms, rfl⟩ := hw
        exact hdone
      · obtain ⟨hc, -⟩ := step_change (fun ms he => hw ⟨ms, he⟩) hboot
          fun he => by simpa [he] using ha
        cases hc with
        | off hp' => exact absurd hp' hp
        | kept _ hdone' _ => exact hdone' hdone

/-! ### The margin over runs -/

lemma Margin.boot {now : ℕ} {eeprom : Eeprom} : Margin (boot now eeprom) none := by
  have hat : (Wifi.boot now eeprom).deauthAtMs = 0 := by
    unfold Wifi.boot
    split
    next => exact (init_untouched (.inl rfl)).deauthAt
    next => exact (init_untouched (.inr rfl)).deauthAt
  exact ⟨fun _ => hat, fun _ => rfl, nofun⟩

/-- Time goes on. -/
lemma Margin.wait (h : Margin s due) (ms : ℕ) : Margin { s with now := s.now + ms } due :=
  ⟨h.unarmed, h.phase, fun d hd hdone =>
    ⟨(h.marks d hd hdone).1.later (Nat.le_add_right _ ms), (h.marks d hd hdone).2⟩⟩

lemma Margin.change (h : Margin s due) (hc : Change s s') (hn : s'.now = s.now) :
    Margin s' (if s'.phase ≠ .apStaGrace then none else due) := by
  cases hc with
  | off hp hat =>
    rw [if_pos hp]
    exact ⟨fun _ => hat, fun _ => rfl, nofun⟩
  | kept hat hdone hp =>
    split
    next hp' =>
      have h0 := h.unarmed (h.phase fun hg => hp' (hp hg))
      exact ⟨fun _ => hat.trans h0, fun _ => rfl, nofun⟩
    next hp' =>
      refine ⟨fun hd => hat.trans (h.unarmed hd), fun hg => absurd hg hp', fun d hd hd' => ?_⟩
      rw [hat, hn]
      exact h.marks d hd (hdone hd')

/-- An answer whose margin the counter does not start over in. -/
lemma Margin.drain (h : s.armsDeauth = true)
    (hfit : s.deauthDone = false → Fits (2 ^ 32) s.now WR_APSTA_DEAUTH_DELAY) :
    Margin s.drain.1 (some (s.now + WR_APSTA_DEAUTH_DELAY)) := by
  rw [drain_arms h]
  have hp : s.phase = .apStaGrace := by
    simp only [Remote.armsDeauth, Bool.and_eq_true, decide_eq_true_eq] at h
    exact h.2
  refine ⟨nofun, fun hg => absurd hp hg, fun d hd hdone => ?_⟩
  cases hd
  have hf := hfit hdone
  have hm := marks_sum hf
  have hpos : 0 < WR_APSTA_DEAUTH_DELAY := by decide
  have hlt := (reading_lt_reading (n := 2 ^ 32) hf.symm).mpr (Nat.lt_add_of_pos_right hpos)
  refine ⟨hm, fun h0 => ?_⟩
  have he := hm.eq (Nat.lt_add_of_pos_right hpos)
  exact absurd (he.symm.trans h0) (Nat.ne_of_gt (Nat.zero_lt_of_lt hlt))

/-- **What an event does to the margin.** -/
lemma Margin.step {e : Event} (h : Margin s due) (hboot : ∀ now eeprom, e ≠ .boot now eeprom)
    (hfit : e = .drain → s.armsDeauth = true → s.deauthDone = false →
      Fits (2 ^ 32) s.now WR_APSTA_DEAUTH_DELAY) :
    Margin (s.step req e) (s.deauthDue req e due) := by
  by_cases ha : e = .drain ∧ s.armsDeauth = true
  · obtain ⟨rfl, ha⟩ := ha
    have hp : (s.step req .drain).phase = .apStaGrace := by
      have hp := ha
      simp only [Remote.armsDeauth, Bool.and_eq_true, decide_eq_true_eq] at hp
      show s.drain.1.phase = _
      rw [drain_arms ha]
      exact hp.2
    rw [Remote.deauthDue, if_neg (not_not.mpr hp), if_pos ⟨rfl, ha⟩]
    exact .drain ha (hfit rfl ha)
  · have hdue : s.deauthDue req e due =
        if (s.step req e).phase ≠ .apStaGrace then none else due := by
      rw [Remote.deauthDue, if_neg ha]
    rw [hdue]
    by_cases hw : ∃ ms, e = .wait ms
    · obtain ⟨ms, rfl⟩ := hw
      have hm := h.wait ms
      split
      next hp =>
        have hd := h.phase hp
        rw [hd] at hm
        exact hm
      next => exact hm
    · obtain ⟨hc, hn⟩ := step_change (fun ms he => hw ⟨ms, he⟩) hboot
        fun he => by simpa [he] using ha
      exact h.change hc hn

/-- The phase machine sends the clients away exactly when it finds the margin over. -/
lemma pump_done (h : Margin s due) (hpend : s.pending.pending = false) (hd : s.deauthDone = false) :
    s.pumpPhase.deauthDone = true ↔ s.deauthAtMs ≠ 0 ∧ s.deauthAtMs ≤ s.millis := by
  have hoff : s.phase ≠ .apStaGrace → s.deauthAtMs = 0 := fun hp => h.unarmed (h.phase hp)
  have hrest : s.pumpPhase = s → s.phase ≠ .apStaGrace →
      (s.pumpPhase.deauthDone = true ↔ s.deauthAtMs ≠ 0 ∧ s.deauthAtMs ≤ s.millis) := by
    intro he hp
    simp [he, hd, hoff hp]
  have hdeauth : s.deauth.deauthDone = true ↔ s.deauthAtMs ≠ 0 ∧ s.deauthAtMs ≤ s.millis := by
    simp [Remote.deauth, hd]
  cases hp : s.phase with
  | idle => exact hrest (pump_rest hpend (by simp [hp]) (by simp [hp])) (by simp [hp])
  | apStaConnecting =>
    cases hc : s.radio.connected with
    | false => exact hrest (pump_rest hpend (by simp [hp]) fun _ => hc) (by simp [hp])
    | true =>
      rw [pump_grace hpend hp hc]
      exact hdeauth
  | apStaGrace =>
    rw [pump_teardown hpend hp]
    split
    next => exact hdeauth
    next => exact hdeauth

/-- The clients are sent away exactly once the margin is over. -/
lemma Margin.pump_iff (h : Margin s due) (hpend : s.pending.pending = false)
    (hd : s.deauthDone = false) (hp : ∀ d ∈ due, Past (2 ^ 32) d s.now) :
    s.pumpPhase.deauthDone = true ↔ ∃ d ∈ due, d ≤ s.now := by
  rw [pump_done h hpend hd]
  cases due with
  | none =>
    simp [h.unarmed rfl]
  | some d =>
    obtain ⟨hm, h0⟩ := h.marks d rfl hd
    have hr : s.deauthAtMs ≤ s.millis ↔ d ≤ s.now := hm.reached (hp d rfl)
    simp [h0, hr]

end URSupreme.Wifi
