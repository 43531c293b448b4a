import URSupreme.Clock.Manager
import URSupreme.Lib.Clock
import URSupreme.Lib.Run

/-!
# Access to the medium

`tx_queue_handler` of `RNode_Firmware.ino`: a frame is transmitted after the medium was free through
a DIFS and then for a drawn contention window. The handler is called at any time, and each call
finds the airtime lock, the queue and the medium in some state.

Beside the timers stands what the calls have seen, in real time: since when the medium was seen free
at every call, and the contention time that counts for the transmission.
-/

namespace URSupreme.Csma
open Lib
open Clock (elapsed)

def CSMA_SIFS_MS : Nat := 0

def CSMA_SLOT_MAX_MS : Nat := 100

def CSMA_SLOT_MIN_MS : Nat := 24

def CSMA_SLOT_MIN_FAST_DELTA : Nat := 18

/-- `csma_slot_ms`. -/
abbrev Slot := { ms : Nat // CSMA_SLOT_MIN_MS - CSMA_SLOT_MIN_FAST_DELTA ≤ ms ∧
                 ms ≤ CSMA_SLOT_MAX_MS }

/-- `difs_ms`. -/
def Slot.difsMs (slot : Slot) : Nat := CSMA_SIFS_MS + 2 * slot.1

/-- The value -1 of an `unsigned long`. -/
def NEVER : Nat := 2 ^ 32 - 1

/-- The state of the medium. -/
structure Medium where
  avoidInterference : Bool := true
  interferenceDetected : Bool := false
  dcd : Bool := false

/-- `medium_free`. -/
def Medium.free (m : Medium) : Bool :=
  if m.avoidInterference && m.interferenceDetected then false else !m.dcd

/-- The timers; `csma_cw` is `none` while it is -1. -/
structure Timers where
  difsWaitStart : Nat := NEVER
  cwWaitStart : Nat := NEVER
  cwWaitTarget : Nat := NEVER
  cwWaitPassed : Nat := 0
  csmaCw : Option UInt8 := none

/-- A call of the handler: how long after the one before it, what it finds, and the window that
`random` comes to when one is drawn. -/
structure Call where
  wait : Nat
  airtimeLock : Bool := false
  queued : Bool := true
  medium : Medium := {}
  draw : UInt8 := 0
  limitRate : Bool := false
  guardRate : Bool := false

/-- The two ways to transmit. -/
inductive Transmit where
  | flushQueue
  | popQueue
  deriving DecidableEq

/-- The call has something to transmit. -/
def Call.looks (e : Call) : Bool := !e.airtimeLock && e.queued

/-- The draw of a window. -/
def Timers.drawn (c : Timers) (slot : Slot) (cw : UInt8) : Timers :=
  match c.csmaCw with
  | none => { c with csmaCw := some cw, cwWaitTarget := cw.toNat * slot.1 % 2 ^ 32 }
  | some _ => c

/-- The DIFS has not yet passed. -/
def Timers.inDifs (c : Timers) (slot : Slot) (millis : Nat) : Bool :=
  millis < (c.difsWaitStart + slot.difsMs) % 2 ^ 32

/-- The part of the handler behind the DIFS. -/
def Timers.contend (c : Timers) (e : Call) (millis : Nat) : Timers × Option Transmit :=
  if c.cwWaitStart = NEVER then ({ c with cwWaitStart := millis }, none)
  else
    let c := { c with
      cwWaitPassed := (c.cwWaitPassed + elapsed millis c.cwWaitStart) % 2 ^ 32
      cwWaitStart := millis }
    if c.cwWaitPassed < c.cwWaitTarget then (c, none)
    else
      ({ c with cwWaitPassed := 0, csmaCw := none, difsWaitStart := NEVER },
        some (if !e.limitRate && !e.guardRate then .flushQueue else .popQueue))

/-- `tx_queue_handler`. -/
def Timers.handle (c : Timers) (slot : Slot) (e : Call) (millis : Nat) : Timers × Option Transmit :=
  if e.looks = false then (c, none)
  else
    let c := c.drawn slot e.draw
    if c.difsWaitStart = NEVER then
      if e.medium.free then ({ c with difsWaitStart := millis }, none) else (c, none)
    else if e.medium.free = false then
      ({ c with difsWaitStart := NEVER, cwWaitStart := NEVER }, none)
    else if c.inDifs slot millis then (c, none)
    else c.contend e millis

/-- What the calls have seen for a transmission: the window drawn for it, since when every call saw
the medium free, when the last call did so after a DIFS if that was the call before, and the time
between such calls. -/
structure Record where
  window : Option UInt8 := none
  freeSince : Option Nat := none
  counting : Option Nat := none
  counted : Nat := 0

/-- What a call adds. -/
def Record.see (r : Record) (slot : Slot) (e : Call) (now : Nat) : Record :=
  if e.looks = false then { r with freeSince := none, counting := none }
  else
    let r := { r with window := some (r.window.getD e.draw) }
    if e.medium.free = false then { r with freeSince := none, counting := none }
    else
      let since := r.freeSince.getD now
      if since + slot.difsMs ≤ now then
        { r with
          freeSince := some since
          counting := some now
          counted := r.counted + (now - r.counting.getD now) }
      else { r with freeSince := some since, counting := none }

/-- The handler's timers, the real time, and what the calls have seen. -/
structure Modem where
  timers : Timers := {}
  now : Nat := 0
  record : Record := {}

/-- `millis()` at a call. -/
def Modem.millis (s : Modem) (e : Call) : Nat := reading (2 ^ 32) (s.now + e.wait)

/-- What a call does. -/
def Modem.handle (s : Modem) (slot : Slot) (e : Call) : Timers × Option Transmit :=
  s.timers.handle slot e (s.millis e)

/-- What the calls have seen, with this one. -/
def Modem.seen (s : Modem) (slot : Slot) (e : Call) : Record := s.record.see slot e (s.now + e.wait)

/-- A call; after a transmission nothing counts for the next one. -/
def Modem.step (slot : Slot) (s : Modem) (e : Call) : Modem where
  timers := (s.handle slot e).1
  now := s.now + e.wait
  record := if (s.handle slot e).2.isSome then {} else s.seen slot e

/-- What a call keeps: it transmits only after the medium was seen free at every call through a
DIFS, and when the contention time has reached the window. -/
structure Keeps (slot : Slot) (s : Modem) (e : Call) : Prop where
  difs : (s.handle slot e).2.isSome →
    ∃ since ∈ (s.seen slot e).freeSince, since + slot.difsMs ≤ s.now + e.wait
  window : (s.handle slot e).2.isSome →
    ∃ cw ∈ (s.seen slot e).window, cw.toNat * slot.1 ≤ (s.seen slot e).counted

/-- The call finds the medium free while the DIFS timer runs. -/
def Modem.Waits (s : Modem) (e : Call) : Prop :=
  e.looks = true ∧ e.medium.free = true ∧ s.timers.difsWaitStart ≠ NEVER

/-- The condition on such a call: the one before it saw the medium free too; the end of the DIFS is
counted without starting over, or is past; and behind the DIFS the contention timer, if it runs, was
set by the call before, for this transmission, or the window has been reached anyway. -/
structure Sound (slot : Slot) (s : Modem) (e : Call) : Prop where
  free : s.Waits e → s.record.freeSince.isSome
  whole : s.Waits e → s.timers.difsWaitStart + slot.difsMs < 2 ^ 32 ∨
    ∀ since ∈ s.record.freeSince, since + slot.difsMs ≤ s.now + e.wait
  timer : s.Waits e → s.timers.inDifs slot (s.millis e) = false → s.timers.cwWaitStart ≠ NEVER →
    (∃ u ∈ s.record.counting, s.timers.cwWaitStart = reading (2 ^ 32) u) ∨
      (s.record.window.getD e.draw).toNat * slot.1 ≤ s.record.counted

section
variable {slot : Slot} {s : Modem} {e : Call} {c : Timers} {millis : Nat}

/-- How the timers come from what was seen. -/
structure Matches (slot : Slot) (s : Modem) : Prop where
  window : s.timers.csmaCw = s.record.window
  target : ∀ cw ∈ s.timers.csmaCw, s.timers.cwWaitTarget = cw.toNat * slot.1
  passed : s.timers.cwWaitPassed ≤ s.record.counted
  difs : s.timers.difsWaitStart ≠ NEVER → ∀ since ∈ s.record.freeSince, ∃ d, since ≤ d ∧ d ≤ s.now ∧
    s.timers.difsWaitStart = reading (2 ^ 32) d
  counting : ∀ u ∈ s.record.counting, u ≤ s.now
  free : ∀ since ∈ s.record.freeSince, since ≤ s.now

lemma matches_init : Matches slot {} := ⟨rfl, nofun, le_rfl, nofun, nofun, nofun⟩

variable (slot e c) in
/-- The window of a transmission, drawn by the call if there was none. -/
lemma drawn_spec :
    (c.drawn slot e.draw).csmaCw = some (c.csmaCw.getD e.draw) ∧
      (c.drawn slot e.draw).difsWaitStart = c.difsWaitStart ∧
      (c.drawn slot e.draw).cwWaitStart = c.cwWaitStart ∧
      (c.drawn slot e.draw).cwWaitPassed = c.cwWaitPassed ∧
      ((∀ cw ∈ c.csmaCw, c.cwWaitTarget = cw.toNat * slot.1) →
        (c.drawn slot e.draw).cwWaitTarget = (c.csmaCw.getD e.draw).toNat * slot.1) := by
  unfold Timers.drawn
  cases h : c.csmaCw with
  | none =>
    refine ⟨rfl, rfl, rfl, rfl, fun _ => Nat.mod_eq_of_lt ?_⟩
    have hcw := e.draw.toNat_lt
    have hslot : slot.1 ≤ 100 := slot.2.2
    have := Nat.mul_le_mul (Nat.le_of_lt hcw) hslot
    show e.draw.toNat * slot.1 < 2 ^ 32
    omega
  | some cw => exact ⟨h, rfl, rfl, rfl, fun ht => ht cw rfl⟩

variable (slot s) in
/-- A call that does not see the medium free. -/
lemma seen_blind (h : e.looks = false ∨ e.medium.free = false) :
    (s.seen slot e).freeSince = none ∧ (s.seen slot e).counting = none ∧
      (s.seen slot e).counted = s.record.counted := by
  unfold Modem.seen Record.see
  split
  next => exact ⟨rfl, rfl, rfl⟩
  next hl =>
    rw [if_pos (h.resolve_left hl)]
    exact ⟨rfl, rfl, rfl⟩

variable (slot s) in
/-- A call that sees the medium free. -/
lemma seen_free (hl : e.looks = true) (hf : e.medium.free = true) :
    (s.seen slot e).freeSince = some (s.record.freeSince.getD (s.now + e.wait)) ∧
      ((s.record.freeSince.getD (s.now + e.wait) + slot.difsMs ≤ s.now + e.wait ∧
          (s.seen slot e).counting = some (s.now + e.wait) ∧
          (s.seen slot e).counted = s.record.counted +
            (s.now + e.wait - s.record.counting.getD (s.now + e.wait))) ∨
        (¬ s.record.freeSince.getD (s.now + e.wait) + slot.difsMs ≤ s.now + e.wait ∧
          (s.seen slot e).counting = none ∧ (s.seen slot e).counted = s.record.counted)) := by
  unfold Modem.seen Record.see
  rw [hl, hf, if_neg Bool.false_ne_true.symm, if_neg Bool.false_ne_true.symm]
  dsimp only
  split
  next h => exact ⟨rfl, .inl ⟨h, rfl, rfl⟩⟩
  next h => exact ⟨rfl, .inr ⟨h, rfl, rfl⟩⟩

/-- A call draws the window of the transmission. -/
lemma seen_window (hl : e.looks = true) :
    (s.seen slot e).window = some (s.record.window.getD e.draw) := by
  unfold Modem.seen Record.see
  rw [hl, if_neg Bool.false_ne_true.symm]
  dsimp only
  split
  next => rfl
  next =>
    split
    next => rfl
    next => rfl

variable (slot s e) in
lemma counted_le : s.record.counted ≤ (s.seen slot e).counted := by
  cases hl : e.looks with
  | false => exact (seen_blind _ _ (.inl hl)).2.2.ge
  | true =>
    cases hf : e.medium.free with
    | false => exact (seen_blind _ _ (.inr hf)).2.2.ge
    | true =>
      obtain ⟨-, ⟨-, -, hc⟩ | ⟨-, -, hc⟩⟩ := seen_free slot s hl hf
      · rw [hc]
        exact Nat.le_add_right _ _
      · exact hc.ge

/-- A call that finds the DIFS passed has seen the medium free through it. -/
lemma Matches.difs_over (h : Matches slot s) (ho : Sound slot s e) (hw : s.Waits e)
    (hd : s.timers.inDifs slot (s.millis e) = false) :
    ∃ since ∈ s.record.freeSince, since + slot.difsMs ≤ s.now + e.wait := by
  obtain ⟨since, hs⟩ := Option.isSome_iff_exists.mp (ho.free hw)
  refine ⟨since, hs, ?_⟩
  rcases ho.whole hw with hlt | hle
  · obtain ⟨d, hsd, hdn, hread⟩ := h.difs hw.2.2 since hs
    unfold Timers.inDifs at hd
    rw [decide_eq_false_iff_not, not_lt, Nat.mod_eq_of_lt hlt, hread] at hd
    have := le_of_deadline (hdn.trans (Nat.le_add_right _ _)) hd
    omega
  · exact hle since hs

/-- The contention time of the timers is not more than what counts, or the window has been
reached. -/
lemma Matches.passed_le (h : Matches slot s) (ho : Sound slot s e) (hw : s.Waits e)
    (hd : s.timers.inDifs slot (s.millis e) = false) (hcw : s.timers.cwWaitStart ≠ NEVER) :
    (s.timers.cwWaitPassed + elapsed (s.millis e) s.timers.cwWaitStart) % 2 ^ 32 ≤
        (s.seen slot e).counted ∨
      (s.record.window.getD e.draw).toNat * slot.1 ≤ s.record.counted := by
  refine (ho.timer hw hd hcw).imp_left fun ⟨u, hu, hread⟩ => ?_
  obtain ⟨since, hs, hle⟩ := h.difs_over ho hw hd
  obtain ⟨-, hc⟩ := seen_free slot s hw.1 hw.2.1
  rw [hs] at hc
  have hun := h.counting u hu
  have hp := h.passed
  have helapsed : elapsed (s.millis e) (reading (2 ^ 32) u) ≤ s.now + e.wait - u := by
    unfold elapsed Modem.millis reading
    omega
  have hmod := Nat.mod_le (s.timers.cwWaitPassed + elapsed (s.millis e) (reading (2 ^ 32) u))
    (2 ^ 32)
  have hu : s.record.counting = some u := hu
  rw [hread]
  obtain ⟨-, -, hc⟩ | ⟨hn, -⟩ := hc
  · rw [hc, hu, Option.getD_some]
    omega
  · exact absurd hle hn

/-- What a call does to the timers, after the draw of a window; the last two cases find the DIFS
timer running and the medium free. -/
inductive Handles (slot : Slot) (c : Timers) (e : Call) (millis : Nat) : Timers × Option Transmit →
    Prop
  | idle : e.looks = false → Handles slot c e millis (c, none)
  | blocked : e.looks = true → e.medium.free = false → c.difsWaitStart = NEVER →
      Handles slot c e millis (c.drawn slot e.draw, none)
  | busy : e.looks = true → e.medium.free = false →
      Handles slot c e millis
        ({ c.drawn slot e.draw with difsWaitStart := NEVER, cwWaitStart := NEVER }, none)
  | start : e.looks = true → e.medium.free = true → c.difsWaitStart = NEVER →
      Handles slot c e millis ({ c.drawn slot e.draw with difsWaitStart := millis }, none)
  | difs : e.looks = true → e.medium.free = true → c.difsWaitStart ≠ NEVER →
      Handles slot c e millis (c.drawn slot e.draw, none)
  | contend : e.looks = true → e.medium.free = true → c.difsWaitStart ≠ NEVER →
      c.inDifs slot millis = false →
      Handles slot c e millis ((c.drawn slot e.draw).contend e millis)

variable (slot e c millis) in
lemma handles : Handles slot c e millis (c.handle slot e millis) := by
  obtain ⟨-, hdifs, hcw, -, -⟩ := drawn_spec slot e c
  unfold Timers.handle
  cases hl : e.looks with
  | false => exact .idle hl
  | true =>
    rw [if_neg Bool.false_ne_true.symm]
    dsimp only
    rw [hdifs]
    have hin : (c.drawn slot e.draw).inDifs slot millis = c.inDifs slot millis := by
      unfold Timers.inDifs
      rw [hdifs]
    by_cases hd : c.difsWaitStart = NEVER
    · rw [if_pos hd]
      cases hf : e.medium.free with
      | false =>
        rw [if_neg Bool.false_ne_true]
        exact .blocked hl hf hd
      | true =>
        rw [if_pos rfl]
        exact .start hl hf hd
    · rw [if_neg hd]
      cases hf : e.medium.free with
      | false =>
        rw [if_pos rfl]
        exact .busy hl hf
      | true =>
        rw [if_neg Bool.false_ne_true.symm, hin]
        cases hi : c.inDifs slot millis with
        | true =>
          rw [if_pos rfl]
          exact .difs hl hf hd
        | false =>
          rw [if_neg Bool.false_ne_true]
          exact .contend hl hf hd hi

variable (e c millis) in
/-- The part behind the DIFS: the contention timer starts, or its time is added up, and a
transmission comes when the sum has reached the window. -/
lemma contend_spec :
    (c.cwWaitStart = NEVER ∧ c.contend e millis = ({ c with cwWaitStart := millis }, none)) ∨
    (c.cwWaitStart ≠ NEVER ∧
      (c.cwWaitPassed + elapsed millis c.cwWaitStart) % 2 ^ 32 < c.cwWaitTarget ∧
      c.contend e millis =
        ({ c with
            cwWaitPassed := (c.cwWaitPassed + elapsed millis c.cwWaitStart) % 2 ^ 32
            cwWaitStart := millis }, none)) ∨
    (c.cwWaitStart ≠ NEVER ∧
      c.cwWaitTarget ≤ (c.cwWaitPassed + elapsed millis c.cwWaitStart) % 2 ^ 32 ∧
      ∃ transmit, c.contend e millis =
        ({ c with
            cwWaitPassed := 0
            cwWaitStart := millis
            csmaCw := none
            difsWaitStart := NEVER }, some transmit)) := by
  unfold Timers.contend
  split
  next h => exact .inl ⟨h, rfl⟩
  next h =>
    dsimp only
    split
    next hlt => exact .inr (.inl ⟨h, hlt, rfl⟩)
    next hle => exact .inr (.inr ⟨h, not_lt.mp hle, _, rfl⟩)

/-- What the calls have seen is not later than the last of them. -/
lemma Matches.seen_le (h : Matches slot s) :
    (∀ u ∈ (s.seen slot e).counting, u ≤ s.now + e.wait) ∧
      ∀ since ∈ (s.seen slot e).freeSince, since ≤ s.now + e.wait := by
  have hblind : e.looks = false ∨ e.medium.free = false →
      (∀ u ∈ (s.seen slot e).counting, u ≤ s.now + e.wait) ∧
        ∀ since ∈ (s.seen slot e).freeSince, since ≤ s.now + e.wait := fun hb => by
    obtain ⟨hf, hc, -⟩ := seen_blind slot s hb
    rw [hf, hc]
    exact ⟨nofun, nofun⟩
  cases hl : e.looks with
  | false => exact hblind (.inl hl)
  | true =>
    cases hm : e.medium.free with
    | false => exact hblind (.inr hm)
    | true =>
      obtain ⟨hf, hc⟩ := seen_free slot s hl hm
      constructor
      · intro u hu
        obtain ⟨-, hc, -⟩ | ⟨-, hc, -⟩ := hc
        · rw [hc] at hu
          exact (Option.some.inj hu).ge
        · rw [hc] at hu
          cases hu
      · intro since hs
        rw [hf] at hs
        obtain rfl := Option.some.inj hs
        cases hfree : s.record.freeSince with
        | none => exact le_rfl
        | some f => exact (h.free f hfree).trans (Nat.le_add_right _ _)

/-- The state after a call that does not transmit. -/
lemma Matches.next (h : Matches slot s) (hw : c.csmaCw = (s.seen slot e).window)
    (ht : ∀ cw ∈ c.csmaCw, c.cwWaitTarget = cw.toNat * slot.1)
    (hp : c.cwWaitPassed ≤ (s.seen slot e).counted)
    (hd : c.difsWaitStart ≠ NEVER → ∀ since ∈ (s.seen slot e).freeSince, ∃ d, since ≤ d ∧
      d ≤ s.now + e.wait ∧ c.difsWaitStart = reading (2 ^ 32) d) :
    Matches slot { timers := c, now := s.now + e.wait, record := s.seen slot e } :=
  ⟨hw, ht, hp, hd, h.seen_le.1, h.seen_le.2⟩

/-- The window of the timers after a call that looks. -/
lemma Matches.window_eq (h : Matches slot s) (hl : e.looks = true) :
    (s.timers.drawn slot e.draw).csmaCw = (s.seen slot e).window ∧
      ∀ cw ∈ (s.timers.drawn slot e.draw).csmaCw,
        (s.timers.drawn slot e.draw).cwWaitTarget = cw.toNat * slot.1 := by
  obtain ⟨hcw, -, -, -, ht⟩ := drawn_spec slot e s.timers
  rw [hcw, seen_window hl, ← h.window]
  refine ⟨rfl, fun cw he => ?_⟩
  rw [ht h.target, Option.some.inj he]

/-- The DIFS timer was started in the stretch of calls that saw the medium free. -/
lemma Matches.difs_next (h : Matches slot s) (ho : Sound slot s e) (hw : s.Waits e) :
    ∀ since ∈ (s.seen slot e).freeSince, ∃ d, since ≤ d ∧ d ≤ s.now + e.wait ∧
      s.timers.difsWaitStart = reading (2 ^ 32) d := by
  intro since hs
  obtain ⟨f, hf⟩ := Option.isSome_iff_exists.mp (ho.free hw)
  rw [(seen_free _ _ hw.1 hw.2.1).1, hf] at hs
  obtain rfl := Option.some.inj hs
  obtain ⟨d, hfd, hdn, hread⟩ := h.difs hw.2.2 f hf
  exact ⟨d, hfd, hdn.trans (Nat.le_add_right _ _), hread⟩

lemma Matches.step (h : Matches slot s) (ho : Sound slot s e) : Matches slot (s.step slot e) := by
  have hh := handles slot e s.timers (s.millis e)
  have hle := counted_le slot s e
  have hp := h.passed
  obtain ⟨-, hdifs, hcw, hpassed, -⟩ := drawn_spec slot e s.timers
  unfold Modem.step Modem.handle
  generalize s.timers.handle slot e (s.millis e) = r at hh
  cases hh with
  | idle hl =>
    obtain ⟨hf, -, -⟩ := seen_blind slot s (.inl hl)
    refine h.next ?_ h.target (hp.trans hle) ?_
    · rw [h.window]
      unfold Modem.seen Record.see
      rw [if_pos hl]
    · rw [hf]
      exact fun _ => nofun
  | blocked hl hm hd =>
    obtain ⟨hw, ht⟩ := h.window_eq hl
    exact h.next hw ht (hpassed ▸ hp.trans hle) fun hn => absurd (hdifs.trans hd) hn
  | busy hl hm =>
    obtain ⟨hw, ht⟩ := h.window_eq hl
    exact h.next hw ht (hpassed ▸ hp.trans hle) fun hn => absurd rfl hn
  | start hl hm hd =>
    obtain ⟨hw, ht⟩ := h.window_eq hl
    refine h.next hw ht (hpassed ▸ hp.trans hle) fun _ since hs => ?_
    exact ⟨s.now + e.wait, h.seen_le.2 since hs, le_rfl, rfl⟩
  | difs hl hm hd =>
    obtain ⟨hw, ht⟩ := h.window_eq hl
    refine h.next hw ht (hpassed ▸ hp.trans hle) fun _ => ?_
    rw [hdifs]
    exact h.difs_next ho ⟨hl, hm, hd⟩
  | contend hl hm hd hin =>
    have hwaits : s.Waits e := ⟨hl, hm, hd⟩
    obtain ⟨hw, ht⟩ := h.window_eq hl
    have hdn := h.difs_next ho hwaits
    rw [← hdifs] at hdn
    obtain ⟨-, he⟩ | ⟨hc, hlt, he⟩ | ⟨-, -, transmit, he⟩ :=
      contend_spec e (s.timers.drawn slot e.draw) (s.millis e)
    · rw [he]
      exact h.next hw ht (hpassed ▸ hp.trans hle) fun _ => hdn
    · rw [he]
      refine h.next hw ht ?_ fun _ => hdn
      rw [hcw] at hc hlt
      rw [hpassed] at hlt
      show ((s.timers.drawn slot e.draw).cwWaitPassed +
        elapsed (s.millis e) (s.timers.drawn slot e.draw).cwWaitStart) % 2 ^ 32 ≤ _
      rw [hcw, hpassed]
      rcases h.passed_le ho hwaits hin hc with hle' | hreached
      · exact hle'
      · have := ht _ (drawn_spec slot e s.timers).1
        rw [h.window] at this
        omega
    · rw [he]
      exact ⟨rfl, nofun, le_rfl, fun hn => absurd rfl hn, nofun, nofun⟩

lemma Matches.keeps (h : Matches slot s) (ho : Sound slot s e) : Keeps slot s e := by
  have hh := handles slot e s.timers (s.millis e)
  obtain ⟨hd, hdifs, hcw, hpassed, -⟩ := drawn_spec slot e s.timers
  suffices hs : (s.handle slot e).2.isSome →
      (∃ since ∈ (s.seen slot e).freeSince, since + slot.difsMs ≤ s.now + e.wait) ∧
        ∃ cw ∈ (s.seen slot e).window, cw.toNat * slot.1 ≤ (s.seen slot e).counted from
    ⟨fun ht => (hs ht).1, fun ht => (hs ht).2⟩
  unfold Modem.handle
  generalize s.timers.handle slot e (s.millis e) = r at hh
  cases hh with
  | idle => exact nofun
  | blocked => exact nofun
  | busy => exact nofun
  | start => exact nofun
  | difs => exact nofun
  | contend hl hm hdn hin =>
    have hwaits : s.Waits e := ⟨hl, hm, hdn⟩
    obtain ⟨-, he⟩ | ⟨-, -, he⟩ | ⟨hc, hle, transmit, he⟩ :=
      contend_spec e (s.timers.drawn slot e.draw) (s.millis e)
    · rw [he]
      exact nofun
    · rw [he]
      exact nofun
    · intro _
      obtain ⟨since, hs, hover⟩ := h.difs_over ho hwaits hin
      refine ⟨⟨since, ?_, hover⟩, s.record.window.getD e.draw, seen_window hl, ?_⟩
      · rw [(seen_free _ _ hl hm).1, Option.mem_def.mp hs]
        rfl
      · have htarget := (h.window_eq hl).2 _ hd
        rw [h.window] at htarget
        rw [hcw] at hc hle
        rw [hpassed, htarget] at hle
        have := counted_le slot s e
        rcases h.passed_le ho hwaits hin hc with hpl | hreached
        · exact hle.trans hpl
        · exact hreached.trans this

end

/-- In a run whose calls are sound, a frame is transmitted only after a DIFS in which every call saw
the medium free, and when the contention time has reached the window. -/
theorem accesses_of_sound (slot : Slot) {calls : List Call}
    (h : Allowed (Modem.step slot) (Sound slot) {} calls) :
    Allowed (Modem.step slot) (Keeps slot) {} calls :=
  h.imp (fun hs ho => hs.step ho) (fun hs ho => hs.keeps ho) matches_init

/-- Slots of 24 ms. -/
def slow : Slot := ⟨24, by decide⟩

/-- A frame for which a window of one slot is drawn. -/
def once : List Call := [{ wait := 1000, draw := 1 }, { wait := 48 }, { wait := 24 }]

/-- It is transmitted at the last of the calls. -/
theorem accesses_of_sound_once : Allowed (Modem.step slow) (Keeps slow) {} once ∧
    (((once.take 2).foldl (Modem.step slow) {}).handle slow
    { wait := 24 }).2 = some .flushQueue := by
  refine ⟨accesses_of_sound slow ⟨?_, ?_, ?_, trivial⟩, by decide⟩
  · exact ⟨fun hw => absurd rfl hw.2.2, fun hw => absurd rfl hw.2.2, fun hw => absurd rfl hw.2.2⟩
  · exact ⟨fun _ => by decide, fun _ => .inl (by decide), fun _ _ hn => absurd (by decide) hn⟩
  · exact ⟨fun _ => by decide, fun _ => .inl (by decide),
      fun _ _ _ => .inl ⟨1048, by decide, by decide⟩⟩

/-- A minute later the next frame comes, for which a window of ten slots is drawn. -/
def idleMinute : List Call :=
  once ++ [{ wait := 60000, queued := false }, { wait := 1, draw := 10 }, { wait := 48 }]

/-- The minute counts as its contention time. -/
theorem not_keeps_idleMinute : ¬ ∀ (slot : Slot) (calls : List Call),
    Allowed (Modem.step slot) (Keeps slot) {} calls := by
  intro h
  obtain ⟨-, -, -, -, -, hk, -⟩ := h slow idleMinute
  obtain ⟨cw, hcw, hle⟩ := hk.window (by decide)
  have hw : (((idleMinute.take 5).foldl (Modem.step slow) {}).seen slow { wait := 48 }).window =
      some 10 := by decide
  obtain rfl := Option.some.inj (hw.symm.trans hcw)
  exact absurd hle (by decide)

end URSupreme.Csma
