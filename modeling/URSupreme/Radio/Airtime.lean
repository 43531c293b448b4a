import URSupreme.Lib.Bins
import URSupreme.Lib.Run

/-!
# The airtime ledger

`add_airtime` and `update_airtime` of `RNode_Firmware.ino`: the time that each transmission takes is
added to the bin of `millis()`, the next bin is cleared, and the sum of the bins is compared with
the duty-cycle limit. The bins have 16 bits, and the hour that they go round in does not divide the
2 ^ 32 ms after which `millis()` starts over.

Beside the bins `sent` keeps when each transmission ended and what it took.
-/

namespace URSupreme.Airtime
open Lib

def AIRTIME_LONGTERM_MS : Nat := 3600000
def AIRTIME_BINLEN_MS : Nat := 7500
def AIRTIME_BINS : Nat := 480
def PHY_HEADER_LORA_SYMBOLS : Nat := 20
def PHY_CRC_LORA_BITS : Nat := 16

/-- The trailing hour less two bins. -/
def WINDOW_MS : Nat := AIRTIME_LONGTERM_MS - 2 * AIRTIME_BINLEN_MS

/-- The settings of the modem. -/
structure Modem where
  sf : Nat
  cr : Nat
  lowDatarate : Bool
  preambleSymbols : Nat
  symbolTimeMs : ℚ

/-- `packet_cost_ms` of an SX1262. -/
def Modem.packetCostMs (m : Modem) (written : UInt16) : ℚ :=
  let ldrOpt : Int := if m.lowDatarate then 1 else 0
  let symbols : ℚ :=
    if m.sf < 7 then
      ((8 * written.toNat + PHY_CRC_LORA_BITS - 4 * m.sf + PHY_HEADER_LORA_SYMBOLS : Int) : ℚ) /
        ((4 * m.sf : Int) : ℚ) * m.cr + (m.preambleSymbols + 9 / 4 + 8)
    else
      ((8 * written.toNat + PHY_CRC_LORA_BITS - 4 * m.sf + 8 + PHY_HEADER_LORA_SYMBOLS : Int) : ℚ) /
        ((4 * (m.sf - 2 * ldrOpt) : Int) : ℚ) * m.cr + (m.preambleSymbols + 1 / 4 + 8)
  symbols * m.symbolTimeMs

/-- The whole milliseconds that are added to a bin. -/
def Modem.cost (m : Modem) (written : UInt16) : Nat := (m.packetCostMs written).floor.toNat

/-- `current_airtime_bin()`. -/
def currentBin (now : Nat) : Nat := now % 2 ^ 32 % AIRTIME_LONGTERM_MS / AIRTIME_BINLEN_MS

def nextBin (cb : Nat) : Nat := if cb + 1 = AIRTIME_BINS then 0 else cb + 1

/-- A transmission that ended. -/
structure Sent where
  time : Nat
  cost : Nat

/-- `airtime_bins`, the sum at the last update, and the milliseconds since the start. -/
structure Ledger where
  bins : Nat → Nat := fun _ => 0
  longtermSum : Nat := 0
  now : Nat := 0
  sent : List Sent := []

inductive Event where
  | wait (ms : Nat)
  | transmit (modem : Modem) (written : UInt16)
  | update

/-- `add_airtime`. -/
def Ledger.addAirtime (s : Ledger) (cost : Nat) : Ledger :=
  let cb := currentBin s.now
  { s with
    bins := Function.update (Function.update s.bins cb ((s.bins cb + cost) % 2 ^ 16)) (nextBin cb) 0
    sent := ⟨s.now, cost⟩ :: s.sent }

/-- `longterm_airtime_sum`. -/
def longtermAirtimeSum (bins : Nat → Nat) : Nat := ∑ b ∈ Finset.range AIRTIME_BINS, bins b

/-- `update_airtime`. -/
def Ledger.updateAirtime (s : Ledger) : Ledger :=
  let bins := Function.update s.bins (nextBin (currentBin s.now)) 0
  { s with bins, longtermSum := longtermAirtimeSum bins }

def Ledger.step (s : Ledger) : Event → Ledger
  | .wait ms => { s with now := s.now + ms }
  | .transmit modem written => s.addAirtime (modem.cost written)
  | .update => s.updateAirtime

/-- What sets `airtime_lock`. -/
def Ledger.Locked (s : Ledger) (limit : ℚ) : Prop :=
  limit ≠ 0 ∧ limit ≤ (s.longtermSum : ℚ) / AIRTIME_LONGTERM_MS

/-- The transmission ended inside the window. -/
def Ledger.Recent (s : Ledger) (x : Sent) : Prop := s.now ≤ x.time + WINDOW_MS

instance {s : Ledger} {x : Sent} : Decidable (s.Recent x) := inferInstanceAs (Decidable (_ ≤ _))

/-- The time of the transmissions that ended inside the window. -/
def Ledger.recentTime (s : Ledger) : Nat := weight (·.cost) (s.Recent ·) s.sent

/-- The ledger counts no less than was sent, and the lock is not released too early. -/
structure Ledger.Counts (s : Ledger) : Prop where
  sum : s.recentTime ≤ s.longtermSum
  lock : ∀ limit : ℚ, limit ≠ 0 → limit ≤ (s.recentTime : ℚ) / AIRTIME_LONGTERM_MS → s.Locked limit

/-- What holds after an update. -/
def Counted (s : Ledger) (event : Event) : Prop := event = .update → (s.step event).Counts

/-- Where `millis()` has started over since a transmission inside the window ended, its bin is not
the next one. -/
def Ledger.Unturned (s : Ledger) : Prop :=
  ∀ x ∈ s.sent, s.Recent x → x.time / 2 ^ 32 ≠ s.now / 2 ^ 32 →
    currentBin x.time ≠ nextBin (currentBin s.now)

/-- The condition: the bin that a transmission is added to has room for it, and no bin is cleared
that was filled before `millis()` started over and still counts. -/
def Sound (s : Ledger) : Event → Prop
  | .wait _ => True
  | .transmit modem written =>
    s.bins (currentBin s.now) + modem.cost written < 2 ^ 16 ∧ s.Unturned
  | .update => s.Unturned

section
variable {s : Ledger} {event : Event} {x : Sent} {l : List Sent} {b e t : Nat}

lemma currentBin_lt : currentBin t < AIRTIME_BINS := by
  have h := Nat.mod_lt (t % 2 ^ 32) (show AIRTIME_LONGTERM_MS > 0 by decide)
  unfold currentBin
  exact Nat.div_lt_of_lt_mul h

lemma nextBin_ne : nextBin b ≠ b := by
  unfold nextBin AIRTIME_BINS
  split <;> omega

/-- While `millis()` goes on, the bin of a transmission inside the window is not the next one. -/
lemma ne_nextBin (he : e ≤ t) (ht : t ≤ e + WINDOW_MS) (hturn : e / 2 ^ 32 = t / 2 ^ 32) :
    currentBin e ≠ nextBin (currentBin t) := by
  unfold currentBin nextBin AIRTIME_LONGTERM_MS AIRTIME_BINLEN_MS AIRTIME_BINS
  unfold WINDOW_MS AIRTIME_LONGTERM_MS AIRTIME_BINLEN_MS at ht
  split <;> omega

/-- Only a transmission in the last 159796 ms before `millis()` starts over has a bin that is the
next one while it still counts. -/
lemma late_of_eq_nextBin (he : e ≤ t) (ht : t ≤ e + WINDOW_MS)
    (h : currentBin e = nextBin (currentBin t)) : 2 ^ 32 - 159796 ≤ e % 2 ^ 32 := by
  have hturn : e / 2 ^ 32 ≠ t / 2 ^ 32 := fun hturn => ne_nextBin he ht hturn h
  unfold WINDOW_MS AIRTIME_LONGTERM_MS AIRTIME_BINLEN_MS at ht
  have hnext : t / 2 ^ 32 = e / 2 ^ 32 + 1 := by omega
  have hspan : 2 ^ 32 + t % 2 ^ 32 ≤ e % 2 ^ 32 + 3585000 := by omega
  have hlt := Nat.mod_lt e (show 2 ^ 32 > 0 by decide)
  unfold currentBin nextBin AIRTIME_LONGTERM_MS AIRTIME_BINLEN_MS AIRTIME_BINS at h
  generalize e % 2 ^ 32 = x at *
  generalize t % 2 ^ 32 = y at *
  -- the bins of the last, short hour are the first ones of the next
  have hy : y % 3600000 = y := Nat.mod_eq_of_lt (by omega)
  rw [hy] at h
  have hx : x / 3600000 = 1192 ∨ x / 3600000 = 1193 := by omega
  rcases hx with hx | hx
  · split at h <;> omega
  · split at h <;> omega

/-- The time of those that were added to a bin. -/
def Ledger.inBin (s : Ledger) (b : Nat) : Nat :=
  weight (·.cost) (fun x => s.Recent x && currentBin x.time = b) s.sent

/-- Every bin has the time of the transmissions inside the window that were added to it. -/
structure Inv (s : Ledger) : Prop where
  past : ∀ x ∈ s.sent, x.time ≤ s.now
  bins : ∀ b, s.inBin b ≤ s.bins b

/-- No transmission inside the window was added to the bin that is cleared. -/
lemma Inv.inBin_next (h : Inv s) (hu : s.Unturned) : s.inBin (nextBin (currentBin s.now)) = 0 := by
  refine weight_eq_zero fun x hx hp => ?_
  obtain ⟨hrecent, hbin⟩ := Bool.and_eq_true_iff.mp hp
  have hrecent := of_decide_eq_true hrecent
  have hbin := of_decide_eq_true hbin
  rcases eq_or_ne (x.time / 2 ^ 32) (s.now / 2 ^ 32) with hturn | hturn
  · exact ne_nextBin (h.past x hx) hrecent hturn hbin
  · exact hu x hx hrecent hturn hbin

/-- An update clears a bin that counts for nothing. -/
lemma Inv.update (h : Inv s) (hu : s.Unturned) : Inv s.updateAirtime := by
  refine ⟨h.past, fun b => ?_⟩
  show s.inBin b ≤ Function.update s.bins _ 0 b
  rcases eq_or_ne b (nextBin (currentBin s.now)) with rfl | hb
  · rw [h.inBin_next hu]
    exact Nat.zero_le _
  · rw [Function.update_of_ne hb]
    exact h.bins b

/-- A transmission is added to its bin. -/
lemma Inv.transmit (h : Inv s) {cost : Nat} (hroom : s.bins (currentBin s.now) + cost < 2 ^ 16)
    (hu : s.Unturned) : Inv (s.addAirtime cost) := by
  refine ⟨fun x hx => ?_, fun b => ?_⟩
  · rcases List.mem_cons.mp hx with rfl | hx
    · exact le_rfl
    · exact h.past x hx
  · have hcons : (s.addAirtime cost).inBin b =
        (if currentBin s.now = b then cost else 0) + s.inBin b := by
      have hrecent : s.now ≤ s.now + WINDOW_MS := Nat.le_add_right _ _
      show weight _ _ (_ :: _) = _
      rw [weight_cons]
      congr 1
      simp [Ledger.addAirtime, Ledger.Recent, hrecent]
    rw [hcons]
    show _ ≤ Function.update (Function.update s.bins _ _) _ 0 b
    rcases eq_or_ne b (nextBin (currentBin s.now)) with rfl | hb
    · rw [if_neg nextBin_ne.symm, h.inBin_next hu]
      exact Nat.zero_le _
    · rw [Function.update_of_ne hb]
      have hb := h.bins b
      rcases eq_or_ne b (currentBin s.now) with rfl | hc
      · rw [if_pos rfl, Function.update_self, Nat.mod_eq_of_lt hroom, Nat.add_comm]
        exact Nat.add_le_add_right hb cost
      · rw [if_neg hc.symm, Function.update_of_ne hc, Nat.zero_add]
        exact hb

/-- Time goes by. -/
lemma Inv.wait (h : Inv s) (ms : Nat) : Inv { s with now := s.now + ms } := by
  refine ⟨fun x hx => (h.past x hx).trans (Nat.le_add_right _ _), fun b => ?_⟩
  refine (weight_mono fun x _ hp => ?_).trans (h.bins b)
  obtain ⟨hrecent, hbin⟩ := Bool.and_eq_true_iff.mp hp
  have hrecent : s.now + ms ≤ x.time + WINDOW_MS := of_decide_eq_true hrecent
  exact Bool.and_eq_true_iff.mpr
    ⟨decide_eq_true ((Nat.le_add_right _ _).trans hrecent), hbin⟩

lemma Inv.step (h : Inv s) (hok : Sound s event) : Inv (s.step event) := by
  cases event with
  | wait ms => exact h.wait ms
  | transmit modem written => exact h.transmit hok.1 hok.2
  | update => exact h.update hok

/-- The bins after an update add up to what counts. -/
lemma Inv.counts (h : Inv s) (hu : s.Unturned) : s.updateAirtime.Counts := by
  have hsum : s.updateAirtime.recentTime ≤ s.updateAirtime.longtermSum := by
    have hbins : ∑ b ∈ Finset.range AIRTIME_BINS,
        weight Sent.cost (fun x => (s.Recent x : Bool) && currentBin x.time = b) s.sent =
          weight Sent.cost (s.Recent ·) s.sent := sum_weight fun _ _ => currentBin_lt
    have hle : ∀ b, s.inBin b ≤ s.updateAirtime.bins b := (h.update hu).bins
    have hsum : s.updateAirtime.longtermSum = longtermAirtimeSum s.updateAirtime.bins := by
      dsimp only [Ledger.updateAirtime]
    have hrecent : s.updateAirtime.recentTime = ∑ b ∈ Finset.range AIRTIME_BINS, s.inBin b :=
      hbins.symm
    rw [hsum, hrecent]
    exact Finset.sum_le_sum fun b _ => hle b
  refine ⟨hsum, fun limit hl hle => ⟨hl, hle.trans ?_⟩⟩
  have hq : (s.updateAirtime.recentTime : ℚ) ≤ s.updateAirtime.longtermSum := by exact_mod_cast hsum
  exact div_le_div_of_nonneg_right hq (Nat.cast_nonneg _)

/-- **The ledger counts no less than was sent** inside the window, in every run of sound events. -/
theorem counted_of_sound {events : List Event} (h : Allowed Ledger.step Sound {} events) :
    Allowed Ledger.step Counted {} events := by
  refine h.imp (I := Inv) Inv.step (fun hinv hok he => ?_) ⟨nofun, fun _ => le_rfl⟩
  subst he
  exact hinv.counts hok

/-- SF 7 at 125 kHz. -/
def fastModem : Modem where
  sf := 7
  cr := 5
  lowDatarate := false
  preambleSymbols := 18
  symbolTimeMs := 128 / 125

theorem counted_of_sound_fastModem :
    Allowed Ledger.step Counted {} [.transmit fastModem 100, .update, .wait 7500, .update] := by
  refine counted_of_sound ⟨⟨by decide +kernel, nofun⟩, ?_, trivial, ?_, trivial⟩
  · intro x hx _ hturn
    obtain rfl := List.mem_singleton.mp hx
    exact absurd rfl hturn
  · intro x hx _ hturn
    obtain rfl := List.mem_singleton.mp hx
    exact absurd (by decide) hturn

/-- SF 12 at 7.8 kHz. -/
def slowModem : Modem where
  sf := 12
  cr := 8
  lowDatarate := true
  preambleSymbols := 18
  symbolTimeMs := 20480 / 39

/-- A full packet takes 227616 ms and leaves 31008 in the bin. -/
theorem not_counted_slowModem : ¬ ∀ events : List Event, Allowed Ledger.step Counted {} events := by
  intro h
  have hlast := (h [.transmit slowModem 255, .update]).2.1 rfl
  exact absurd hlast.sum (by decide +kernel)

end

end URSupreme.Airtime
