import URSupreme.Lib.Run
import URSupreme.Sensors.LivePoll
import URSupreme.Wifi.Deauth

/-!
# Absolute deadlines

The deferred reboot of `WebUI.h`, the deauthentication of `Remote.h` and the live windows of the
sensors each keep a sum of `millis()` and an interval, and compare it with `millis()` later. Beside
the device what was asked for is kept in a time that does not start over: the earliest reboot, the
end of the margin, and the end of each window.

A sum that runs over makes the reboot and the deauthentication happen at once and closes the window,
and when `millis()` starts over after the deadline they wait for it once more, and the window opens
again.
-/

namespace URSupreme.AbsoluteDeadlines
open Lib Wifi Sensors.LivePoll

/-- A device, and what was asked of it. -/
structure Device where
  remote : Remote := {}
  scheduledRebootAtMs : ℕ := 0
  sensor : Chip → Sensor := fun _ => {}
  rebootDue : Option ℕ := none
  deauthDue : Option ℕ := none
  liveDue : Chip → Option ℕ := fun _ => none

/-- The time since the start, which `millis()` reads. -/
abbrev Device.now (d : Device) : ℕ := d.remote.now

/-- `millis()`. -/
abbrev Device.millis (d : Device) : ℕ := d.remote.millis

/-- Start-up, which clears everything that is not in the flash. -/
def Device.boot (now : ℕ) (eeprom : Eeprom) : Device := { remote := Wifi.boot now eeprom }

/-- `schedule_reboot`. -/
def Device.scheduleReboot (d : Device) (delayMs : UInt32) : Device :=
  let target := (d.millis + delayMs.toNat) % 2 ^ 32
  { d with
    scheduledRebootAtMs :=
      if d.scheduledRebootAtMs = 0 ∨ target < d.scheduledRebootAtMs then target
      else d.scheduledRebootAtMs
    rebootDue := some (d.rebootDue.elim (d.now + delayMs.toNat) (min · (d.now + delayMs.toNat))) }

/-- `check_scheduled_reboot` goes on to restart. -/
def Device.reboots (d : Device) : Bool :=
  d.scheduledRebootAtMs ≠ 0 ∧ d.scheduledRebootAtMs ≤ d.millis

/-- `check_scheduled_reboot`; `millis()` starts from zero. -/
def Device.checkScheduledReboot (d : Device) : Device :=
  if d.reboots then .boot 0 d.remote.eeprom else d

/-- An event of the Wi-Fi transition. -/
def Device.wifi (d : Device) (req : ℕ) (e : Wifi.Event) : Device :=
  { d with remote := d.remote.step req e, deauthDue := d.remote.deauthDue req e d.deauthDue }

/-- A driver is called. -/
def Device.drive (d : Device) (c : Chip) (f : Sensor → Sensor) : Device :=
  { d with sensor := Function.update d.sensor c (f (d.sensor c)) }

/-- `request_live`. -/
def Device.requestLive (d : Device) (c : Chip) (ttlMs : UInt32) : Device :=
  { d.drive c (·.requestLive d.millis ttlMs) with
    liveDue := Function.update d.liveDue c (some (d.now + ttlMs.toNat)) }

inductive Event where
  | wifi (req : ℕ) (e : Wifi.Event)
  | scheduleReboot (delayMs : UInt32)
  | checkScheduledReboot
  | requestLive (c : Chip) (ttlMs : UInt32)
  | begin (c : Chip) (present : Bool)
  | pump (c : Chip) (ok : Bool)
  | readNow (c : Chip) (ok : Bool)
  | setEnabled (c : Chip) (on : Bool)
  | setTrend (on : Bool) (intervalMs : ℕ)
  deriving DecidableEq, Repr

/-- What an event does to the device. -/
def Device.step (d : Device) : Event → Device
  | .wifi _ (.boot now eeprom) => .boot now eeprom
  | .wifi req e => d.wifi req e
  | .scheduleReboot delayMs => d.scheduleReboot delayMs
  | .checkScheduledReboot => d.checkScheduledReboot
  | .requestLive c ttlMs => d.requestLive c ttlMs
  | .begin c present => d.drive c ({ · with present := present })
  | .pump c ok => d.drive c (·.pump c d.millis ok)
  | .readNow c ok => d.drive c (·.readNow d.millis ok)
  | .setEnabled c on => d.drive c ({ · with enabled := on })
  | .setTrend on intervalMs => d.drive .bme280 (·.setTrend on intervalMs)

/-- Every deadline is told right: the reboot comes with its check once the shortest delay is over
and not before, the clients are sent away by the turn of the phase machine once the margin is over
and not before, and a window is open, and its chip read fast, exactly until its end. -/
structure OnTime (d : Device) : Prop where
  reboot : d.reboots = true ↔ ∃ due ∈ d.rebootDue, due ≤ d.now
  deauth : d.remote.pending.pending = false → d.remote.deauthDone = false →
    (d.remote.pumpPhase.deauthDone = true ↔ ∃ due ∈ d.deauthDue, due ≤ d.now)
  live : ∀ c, (d.sensor c).live d.millis = true ↔ ∃ due ∈ d.liveDue c, d.now < due
  poll : ∀ c, (d.sensor c).effInterval c d.millis =
    if ∃ due ∈ d.liveDue c, d.now < due then some (LIVE_POLL_MS c) else (d.sensor c).background c

/-- At `t` no deadline that was kept has fallen behind. -/
def Device.NoneMissed (d : Device) (t : ℕ) : Prop :=
  (∀ due ∈ d.rebootDue, Past (2 ^ 32) due t) ∧
  (d.remote.deauthDone = false → ∀ due ∈ d.deauthDue, Past (2 ^ 32) due t) ∧
  ∀ c, ∀ due ∈ d.liveDue c, Past (2 ^ 32) due t

/-- The steps that `millis()` does not spoil: no sum runs over, except that of a reboot while one is
due already; none that is kept of a reboot is zero; and after a wait no deadline that was kept has
fallen behind. -/
def Device.Meets (d : Device) : Event → Prop
  | .wifi _ (.wait ms) => d.NoneMissed (d.now + ms)
  | .wifi _ .drain => d.remote.armsDeauth = true → d.remote.deauthDone = false →
    Fits (2 ^ 32) d.now WR_APSTA_DEAUTH_DELAY
  | .scheduleReboot delayMs => (d.now + delayMs.toNat) % 2 ^ 32 ≠ 0 ∧
    (Fits (2 ^ 32) d.now delayMs.toNat ∨ ∃ due ∈ d.rebootDue, due ≤ d.now)
  | .requestLive _ ttlMs => Fits (2 ^ 32) d.now ttlMs.toNat
  | _ => True

instance {d : Device} {t : ℕ} : Decidable (d.NoneMissed t) :=
  inferInstanceAs (Decidable (_ ∧ _ ∧ _))

instance instDecidableMeets {d : Device} : ∀ {e}, Decidable (d.Meets e)
  | .wifi _ (.wait ms) => inferInstanceAs (Decidable (d.NoneMissed (d.now + ms)))
  | .wifi _ .drain => inferInstanceAs (Decidable (_ → _ → _))
  | .scheduleReboot _ => inferInstanceAs (Decidable (_ ∧ (_ ∨ _)))
  | .requestLive _ ttlMs => inferInstanceAs (Decidable (Fits _ d.now ttlMs.toNat))
  | .wifi _ (.boot ..) | .wifi _ (.configure ..) | .wifi _ (.wifiSettings ..) |
    .wifi _ (.requestSoftap _) | .wifi _ .tick | .wifi _ .improvLoop | .wifi _ .staUp |
    .wifi _ .staDown | .wifi _ (.close _) | .checkScheduledReboot | .begin .. | .pump .. |
    .readNow .. | .setEnabled .. | .setTrend .. => .isTrue trivial

variable {d : Device} {now : ℕ} {eeprom : Eeprom}

/-! ### What is kept -/

/-- What is kept of a scheduled reboot. -/
def RebootKept (d : Device) : Option ℕ → Prop
  | none => d.scheduledRebootAtMs = 0
  | some due => Marks (2 ^ 32) d.scheduledRebootAtMs due d.now ∧ d.scheduledRebootAtMs ≠ 0

/-- What is kept of every deadline is right. -/
structure Inv (d : Device) : Prop where
  reboot : RebootKept d d.rebootDue
  margin : Margin d.remote d.deauthDue
  live : ∀ c, (d.sensor c).Kept (d.liveDue c) d.now
  past : d.NoneMissed d.now

lemma Inv.reboots_iff (h : Inv d) : d.reboots = true ↔ ∃ due ∈ d.rebootDue, due ≤ d.now := by
  have hk := h.reboot
  have hp := h.past.1
  cases hd : d.rebootDue with
  | none =>
    rw [hd] at hk
    have h0 : d.scheduledRebootAtMs = 0 := hk
    simp [Device.reboots, h0]
  | some due =>
    rw [hd] at hk hp
    obtain ⟨hm, h0⟩ := hk
    have hr : d.scheduledRebootAtMs ≤ d.millis ↔ due ≤ d.now := hm.reached (hp due rfl)
    simp [Device.reboots, h0, hr]

lemma Inv.live_iff (h : Inv d) (c : Chip) :
    (d.sensor c).live d.millis = true ↔ ∃ due ∈ d.liveDue c, d.now < due := by
  have hl : (d.sensor c).live d.millis = inWindow (d.liveDue c) d.now :=
    (h.live c).live_eq (h.past.2.2 c)
  simp [hl, inWindow, Option.any_eq_true]

lemma Inv.onTime (h : Inv d) : OnTime d where
  reboot := h.reboots_iff
  deauth := fun hpend hd => h.margin.pump_iff hpend hd (h.past.2.1 hd)
  live := h.live_iff
  poll := fun c => by simp only [effInterval_eq, h.live_iff c]

/-! ### What a step keeps -/

lemma Inv.boot : Inv (.boot now eeprom) where
  reboot := rfl
  margin := .boot
  live := fun _ => rfl
  past := ⟨nofun, fun _ => nofun, fun _ => nofun⟩

/-- A sum that does not run over is ahead, or just over. -/
lemma past_sum {t w : ℕ} (h : Fits (2 ^ 32) t w) : Past (2 ^ 32) (t + w) t :=
  past_of_div_eq (Eq.symm h)

/-- The shorter of two delays wins. -/
lemma rebootKept_schedule {delayMs : UInt32} (h : Inv d) (hok : d.Meets (.scheduleReboot delayMs)) :
    RebootKept (d.scheduleReboot delayMs) (d.scheduleReboot delayMs).rebootDue := by
  obtain ⟨h0, hfit⟩ := hok
  have ht : (d.millis + delayMs.toNat) % 2 ^ 32 = (d.now + delayMs.toNat) % 2 ^ 32 :=
    Nat.mod_add_mod ..
  have hk := h.reboot
  cases hd : d.rebootDue with
  | none =>
    rw [hd] at hk hfit
    have hat : d.scheduledRebootAtMs = 0 := hk
    have hfit := hfit.resolve_right nofun
    simp only [Device.scheduleReboot, RebootKept, hd, hat, true_or, if_true, Option.elim_none]
    exact ⟨marks_sum hfit, ht ▸ h0⟩
  | some due =>
    rw [hd] at hk hfit
    obtain ⟨hm, hat⟩ := hk
    have hmin : (d.scheduleReboot delayMs).scheduledRebootAtMs =
        min d.scheduledRebootAtMs ((d.millis + delayMs.toNat) % 2 ^ 32) := by
      simp only [Device.scheduleReboot, hat, false_or]
      exact (min_def_lt' ..).symm
    have hdue : (d.scheduleReboot delayMs).rebootDue = some (min due (d.now + delayMs.toNat)) := by
      simp [Device.scheduleReboot, hd]
    rw [hdue]
    show Marks _ _ _ d.now ∧ _
    rw [hmin]
    refine ⟨?_, ?_⟩
    · by_cases hover : due ≤ d.now
      · -- one that is due already stays so
        rw [min_eq_left (hover.trans (Nat.le_add_right _ _))]
        exact hm.lower hover (min_le_left _ _)
      · have hfit := hfit.resolve_right (by simpa using hover)
        exact hm.min (marks_sum hfit)
    · rcases min_choice d.scheduledRebootAtMs ((d.millis + delayMs.toNat) % 2 ^ 32) with he | he
      · rwa [he]
      · rw [he, ht]
        exact h0

lemma Inv.scheduleReboot {delayMs : UInt32} (h : Inv d) (hok : d.Meets (.scheduleReboot delayMs)) :
    Inv (d.scheduleReboot delayMs) where
  reboot := rebootKept_schedule h hok
  margin := h.margin
  live := h.live
  past := by
    refine ⟨fun due hdue => ?_, h.past.2⟩
    have hfit := hok.2
    cases hd : d.rebootDue with
    | none =>
      rw [hd] at hfit
      simp only [Device.scheduleReboot, hd, Option.elim_none, Option.mem_some_iff] at hdue
      rw [← hdue]
      exact past_sum (hfit.resolve_right nofun)
    | some due₀ =>
      simp only [Device.scheduleReboot, hd, Option.elim_some, Option.mem_some_iff] at hdue
      have hp := h.past.1 due₀ hd
      rw [← hdue]
      by_cases hover : due₀ ≤ d.now
      · rw [min_eq_left (hover.trans (Nat.le_add_right _ _))]
        exact hp
      · rw [hd] at hfit
        have hfit := hfit.resolve_right (by simpa using hover)
        rcases min_choice due₀ (d.now + delayMs.toNat) with he | he
        · rw [he]
          exact hp
        · rw [he]
          exact past_sum hfit

/-- A demand opens its window anew. -/
lemma Inv.requestLive {c : Chip} {ttlMs : UInt32} (h : Inv d)
    (hfit : Fits (2 ^ 32) d.now ttlMs.toNat) : Inv (d.requestLive c ttlMs) where
  reboot := h.reboot
  margin := h.margin
  live := fun c' => by
    by_cases hc : c' = c
    · subst hc
      simp only [Device.requestLive, Device.drive, Function.update_self]
      exact .requestLive hfit
    · simp only [Device.requestLive, Device.drive, Function.update_of_ne hc]
      exact h.live c'
  past := by
    refine ⟨h.past.1, h.past.2.1, fun c' due hdue => ?_⟩
    by_cases hc : c' = c
    · subst hc
      simp only [Device.requestLive, Function.update_self, Option.mem_some_iff] at hdue
      rw [← hdue]
      exact past_sum hfit
    · simp only [Device.requestLive, Function.update_of_ne hc] at hdue
      exact h.past.2.2 c' due hdue

/-- A call of a driver that leaves its window. -/
lemma Inv.drive {c : Chip} {f : Sensor → Sensor} (h : Inv d)
    (hf : (f (d.sensor c)).liveUntil = (d.sensor c).liveUntil) : Inv (d.drive c f) where
  reboot := h.reboot
  margin := h.margin
  live := fun c' => by
    by_cases hc : c' = c
    · subst hc
      have hl := h.live c'
      simp only [Device.drive, Function.update_self, Sensor.Kept, hf] at hl ⊢
      exact hl
    · simp only [Device.drive, Function.update_of_ne hc]
      exact h.live c'
  past := h.past

lemma Inv.wait {ms req : ℕ} (h : Inv d) (hp : d.NoneMissed (d.now + ms)) :
    Inv (d.wifi req (.wait ms)) := by
  have hle : d.now ≤ d.now + ms := Nat.le_add_right _ ms
  have hmargin : Margin (d.remote.step req (.wait ms))
    (d.remote.deauthDue req (.wait ms) d.deauthDue) :=
    h.margin.step nofun nofun
  refine ⟨?_, hmargin, fun c => (h.live c).later hle, hp.1, fun hd due hdue => ?_, hp.2.2⟩
  · have hk := h.reboot
    show RebootKept _ d.rebootDue
    cases hd : d.rebootDue with
    | none =>
      rw [hd] at hk
      exact hk
    | some due =>
      rw [hd] at hk
      exact ⟨hk.1.later hle, hk.2⟩
  · obtain ⟨hdone, hdue | ⟨he, -, -⟩⟩ := mem_deauthDue (e := .wait ms) nofun hdue hd
    · exact hp.2.1 hdone due hdue
    · cases he

/-- An event of the Wi-Fi transition that takes no time. -/
lemma Inv.wifi {req : ℕ} {e : Wifi.Event} (h : Inv d) (hok : d.Meets (.wifi req e))
    (hwait : ∀ ms, e ≠ .wait ms) (hboot : ∀ now eeprom, e ≠ .boot now eeprom) :
    Inv (d.wifi req e) := by
  have hn : (d.wifi req e).now = d.now := step_now hwait hboot
  have hfit : e = .drain → d.remote.armsDeauth = true → d.remote.deauthDone = false →
      Fits (2 ^ 32) d.now WR_APSTA_DEAUTH_DELAY := by
    rintro rfl
    exact hok
  refine ⟨?_, h.margin.step hboot hfit, fun c => hn ▸ h.live c, ?_⟩
  · have hk := h.reboot
    show RebootKept _ d.rebootDue
    cases hd : d.rebootDue with
    | none =>
      rw [hd] at hk
      exact hk
    | some due =>
      rw [hd] at hk
      exact ⟨hn ▸ hk.1, hk.2⟩
  · rw [hn]
    refine ⟨h.past.1, fun hd due hdue => ?_, h.past.2.2⟩
    obtain ⟨hdone, hdue | ⟨he, ha, hdue⟩⟩ := mem_deauthDue hboot hdue hd
    · exact h.past.2.1 hdone due hdue
    · rw [hdue]
      exact past_sum (hfit he ha hdone)

lemma Inv.step {e : Event} (hok : d.Meets e) (h : Inv d) : Inv (d.step e) := by
  cases e with
  | wifi req e =>
    cases e with
    | boot now eeprom => exact .boot
    | wait ms => exact h.wait hok
    | configure auth ssid psk => exact h.wifi hok nofun nofun
    | wifiSettings ssid psk => exact h.wifi hok nofun nofun
    | requestSoftap auth => exact h.wifi hok nofun nofun
    | tick => exact h.wifi hok nofun nofun
    | improvLoop => exact h.wifi hok nofun nofun
    | drain => exact h.wifi hok nofun nofun
    | staUp => exact h.wifi hok nofun nofun
    | staDown => exact h.wifi hok nofun nofun
    | close req' => exact h.wifi hok nofun nofun
  | scheduleReboot delayMs => exact h.scheduleReboot hok
  | checkScheduledReboot =>
    show Inv d.checkScheduledReboot
    unfold Device.checkScheduledReboot
    split
    next => exact .boot
    next => exact h
  | requestLive c ttlMs => exact h.requestLive hok
  | begin c present =>
    simp only [Device.step]
    apply h.drive
    rfl
  | pump c ok =>
    simp only [Device.step]
    apply h.drive
    exact pump_liveUntil
  | readNow c ok =>
    simp only [Device.step]
    apply h.drive
    exact readNow_liveUntil
  | setEnabled c on =>
    simp only [Device.step]
    apply h.drive
    rfl
  | setTrend on intervalMs =>
    simp only [Device.step]
    apply h.drive
    rfl

/-- **Absolute deadlines.** Whenever the device has started, and as long as its steps are not
spoiled by `millis()`, every deadline is told right in every state that is reached. -/
theorem onTime_of_meets (h : Reach Device.step Device.Meets (.boot now eeprom) d) : OnTime d :=
  Inv.onTime (h.invariant .boot fun hok h => h.step hok)

/-- A device with a saved mode, shortly before `millis()` starts over: a network is provisioned and
its request answered, a reboot is put off and another one sooner, and the climate chip is
watched. -/
def busy : List Event :=
  [.wifi 0 (.configure true [0x61] [0x62]), .wifi 0 .tick, .wifi 0 .staUp, .wifi 0 .tick,
    .wifi 0 .drain, .begin .bme280 true, .requestLive .bme280 1500, .pump .bme280 true,
    .scheduleReboot 5000, .scheduleReboot 1000, .wifi 0 (.wait 999), .checkScheduledReboot,
    .wifi 0 .tick, .wifi 0 (.wait 1)]

theorem onTime_busy : OnTime (busy.foldl Device.step (.boot (2 ^ 32 - 6000) {})) :=
  onTime_of_meets (Reach.init.run (by decide))

/-- One second before `millis()` starts over a reboot that is put off by five happens at once. -/
theorem scheduled_not_onTime : ¬ ∀ now eeprom d,
    Reach Device.step (fun _ _ => True) (.boot now eeprom) d → OnTime d := by
  intro h
  have hr : Reach Device.step (fun _ _ => True) (.boot (2 ^ 32 - 1000) {})
      ([.scheduleReboot 5000].foldl Device.step (.boot (2 ^ 32 - 1000) {})) :=
    Reach.init.run ⟨trivial, trivial⟩
  have hb := (h _ _ _ hr).reboot.mp (by decide)
  exact absurd hb (by decide)

end URSupreme.AbsoluteDeadlines
