import URSupreme.Clock.Manager
import URSupreme.Lib.Clock
import URSupreme.Lib.Run

/-!
# The Wi-Fi receive watchdog

`WifiRxWatchdog.h`: `on_icmp_recv` notes the gateway's replies to the probes, and `tick`, in each
pass of the main loop, has an associated station reconnect when they stay out. The association comes
and goes on its own.

Beside the watchdog stand the real time, when the association began, and the history of replies and
reconnects.
-/

namespace URSupreme.RxWatchdog
open Lib Clock

def PROBE_PERIOD_MS : Nat := 10000

def SILENT_AFTER_MS : Nat := 35000

def BACKOFF_BASE_MS : Nat := 30000

def BACKOFF_CAP_MS : Nat := 600000

def PROBE_ICMP_ID : UInt16 := 0x5258

/-- What `on_icmp_recv` reads of a packet. -/
structure IcmpPacket where
  totLen : UInt16
  headerWords : Fin 16
  type : UInt8
  id : UInt16

/-- The packet is an echo reply to a probe; the headers have 20 and 8 bytes. -/
def IcmpPacket.isReply (p : IcmpPacket) : Bool :=
  20 + 8 ≤ p.totLen.toNat && p.headerWords.val * 4 + 8 ≤ p.totLen.toNat && p.type == 0 &&
    p.id == PROBE_ICMP_ID

/-- The counters, and the variables of `tick`. -/
structure Watchdog where
  probesSent : Nat := 0
  repliesSeen : Nat := 0
  reconnects : Nat := 0
  lastReplyMs : Nat := 0
  lastProbeMs : Nat := 0
  lastReconnectMs : Nat := 0
  backoffMs : Nat := BACKOFF_BASE_MS
  repliesAtLastFire : Nat := 0

/-- `on_icmp_recv`. -/
def Watchdog.onIcmpRecv (w : Watchdog) (p : IcmpPacket) (millis : Nat) : Watchdog :=
  if p.isReply then { w with lastReplyMs := millis, repliesSeen := (w.repliesSeen + 1) % 2 ^ 32 }
  else w

/-- The probe of `tick`, to the gateway's address; `sent` is what becomes of it on the way out. -/
def Watchdog.probe (w : Watchdog) (gateway : UInt32) (sent : Bool) (now : Nat) : Watchdog :=
  if elapsed now w.lastProbeMs ≥ PROBE_PERIOD_MS then
    { w with
      lastProbeMs := now
      probesSent := if gateway ≠ 0 ∧ sent then (w.probesSent + 1) % 2 ^ 32 else w.probesSent }
  else w

/-- The condition under which `tick` reconnects. -/
def Watchdog.due (w : Watchdog) (now : Nat) : Bool :=
  0 < w.repliesSeen && elapsed now w.lastReplyMs > SILENT_AFTER_MS &&
    (w.lastReconnectMs == 0 || elapsed now w.lastReconnectMs > w.backoffMs)

/-- The backoff after a reconnect. -/
def Watchdog.nextBackoff (w : Watchdog) : Nat :=
  if w.lastReconnectMs ≠ 0 then
    if w.repliesSeen ≠ w.repliesAtLastFire then BACKOFF_BASE_MS
    else if w.backoffMs < BACKOFF_CAP_MS then
      if w.backoffMs * 2 < BACKOFF_CAP_MS then w.backoffMs * 2 else BACKOFF_CAP_MS
    else w.backoffMs
  else w.backoffMs

/-- `tick`: the watchdog, and whether it called `WiFi.reconnect()`. -/
def Watchdog.tick (w : Watchdog) (connected : Bool) (gateway : UInt32) (sent : Bool) (now : Nat) :
    Watchdog × Bool :=
  if connected = false then (w, false)
  else
    let w := w.probe gateway sent now
    if w.due now then
      ({ w with
        backoffMs := w.nextBackoff
        repliesAtLastFire := w.repliesSeen
        lastReconnectMs := now
        reconnects := (w.reconnects + 1) % 2 ^ 32 }, true)
    else (w, false)

/-- What happened, and when. -/
inductive Mark where
  | reply (time : Nat)
  | reconnect (time : Nat)
  deriving DecidableEq

def Mark.isReply : Mark → Bool
  | .reply _ => true
  | .reconnect _ => false

/-- A history, the newest mark first. -/
abbrev History := List Mark

def History.lastReply : History → Option Nat
  | [] => none
  | .reply t :: _ => some t
  | .reconnect _ :: h => History.lastReply h

def History.lastReconnect : History → Option Nat
  | [] => none
  | .reply _ :: h => History.lastReconnect h
  | .reconnect t :: _ => some t

/-- How many replies there were. -/
def History.replies (h : History) : Nat := h.countP Mark.isReply

/-- How many reconnects there were since the last reply. -/
def History.dry : History → Nat
  | .reconnect _ :: h => History.dry h + 1
  | _ => 0

/-- The spacing: 30 s, doubling up to 10 min from the second reconnect without a reply on. -/
def History.spacing (h : History) : Nat := min (BACKOFF_BASE_MS * 2 ^ (h.dry - 1)) BACKOFF_CAP_MS

/-- The history up to the last reconnect. -/
def History.upToReconnect (h : History) : History := h.dropWhile Mark.isReply

/-- The station with its watchdog. -/
structure Station where
  watchdog : Watchdog := {}
  now : Nat := 0
  associatedAt : Option Nat := none
  history : History := []

/-- `millis()`. -/
def Station.millis (s : Station) : Nat := reading (2 ^ 32) s.now

inductive Event where
  | wait (ms : Nat)
  | associate
  | dissociate
  | packet (p : IcmpPacket)
  | tick (gateway : UInt32) (sent : Bool)

def Station.step (s : Station) : Event → Station
  | .wait ms => { s with now := s.now + ms }
  | .associate => { s with associatedAt := some (s.associatedAt.getD s.now) }
  | .dissociate => { s with associatedAt := none }
  | .packet p =>
    { s with
      watchdog := s.watchdog.onIcmpRecv p s.millis
      history := if p.isReply then .reply s.now :: s.history else s.history }
  | .tick gateway sent =>
    let (watchdog, reconnect) := s.watchdog.tick s.associatedAt.isSome gateway sent s.millis
    { s with watchdog, history := if reconnect then .reconnect s.now :: s.history else s.history }

/-- The station has been associated without interruption for more than `SILENT_AFTER_MS`. -/
def Station.Steady (s : Station) : Prop := ∃ a ∈ s.associatedAt, a + SILENT_AFTER_MS < s.now

/-- There was no reply in that time. -/
def Station.Silent (s : Station) : Prop :=
  s.Steady ∧ ∀ r ∈ s.history.lastReply, r + SILENT_AFTER_MS < s.now

/-- The last reconnect is the spacing ago. -/
def Station.Spaced (s : Station) : Prop :=
  ∀ t ∈ s.history.lastReconnect, t + s.history.spacing ≤ s.now

/-- The event has the station reconnect. -/
def Station.Reconnects (s : Station) (e : Event) : Prop :=
  (s.step e).history = .reconnect s.now :: s.history

/-- What an event keeps: only a silent station reconnects, with the spacing, and after a reply it
does so 30 s after the reconnect before. -/
structure Keeps (s : Station) (e : Event) : Prop where
  silent : s.Reconnects e → s.Silent
  spaced : s.Reconnects e → s.Spaced
  prompt : (∃ gateway sent, e = .tick gateway sent) → s.history.dry = 0 → s.Silent →
    ∀ t ∈ s.history.lastReconnect, t + BACKOFF_BASE_MS < s.now → s.Reconnects e

/-- The gateway has been silent, and the wait in force since the last reconnect is over. -/
def Station.Due (s : Station) : Prop :=
  (∃ r ∈ s.history.lastReply, r + SILENT_AFTER_MS < s.now) ∧
    ∀ t ∈ s.history.lastReconnect, t + s.history.upToReconnect.spacing < s.now

/-- The condition on a tick of an associated station: when it is due, the association is as old as
the silence and `millis()` does not read 0; where a reply came since the last reconnect, the wait in
force is not above 30 s any more when it counts, and both times are read in full; there were fewer
than 2 ^ 32 replies. -/
structure Sound (s : Station) (e : Event) : Prop where
  steady : (∃ gateway sent, e = .tick gateway sent) → s.associatedAt.isSome → s.Due →
    s.Steady ∧ s.millis ≠ 0
  restored : (∃ gateway sent, e = .tick gateway sent) → s.history.dry = 0 → s.Silent →
    ∀ t ∈ s.history.lastReconnect, t + BACKOFF_BASE_MS < s.now →
      s.history.upToReconnect.spacing < (s.now - t) % 2 ^ 32 ∧
        ∀ r ∈ s.history.lastReply, SILENT_AFTER_MS < (s.now - r) % 2 ^ 32
  counted : s.history.replies < 2 ^ 32

section
variable {s : Station} {e : Event} {h : History} {n t r : Nat}

/-- The wait in force is at least the spacing. -/
lemma spacing_le_upToReconnect : h.spacing ≤ h.upToReconnect.spacing := by
  cases h with
  | nil => exact le_rfl
  | cons m h =>
    cases m with
    | reconnect t => exact le_rfl
    | reply t =>
      refine min_le_min ?_ le_rfl
      exact Nat.mul_le_mul_left _ (Nat.one_le_two_pow)

/-- The replies up to the last reconnect are all of them only when none came since. -/
lemma replies_upToReconnect :
    h.upToReconnect.replies ≤ h.replies ∧
      (h.upToReconnect.replies = h.replies → h.upToReconnect = h) := by
  induction h with
  | nil => exact ⟨le_rfl, fun _ => rfl⟩
  | cons m h ih =>
    cases m with
    | reconnect t => exact ⟨le_rfl, fun _ => rfl⟩
    | reply t =>
      have hu : History.upToReconnect (.reply t :: h) = History.upToReconnect h := rfl
      have hr : History.replies (.reply t :: h) = History.replies h + 1 :=
        List.countP_cons_of_pos rfl
      have := ih.1
      rw [hu, hr]
      exact ⟨by omega, fun he => by omega⟩

lemma lastReconnect_upToReconnect : h.upToReconnect.lastReconnect = h.lastReconnect := by
  induction h with
  | nil => rfl
  | cons m h ih =>
    cases m with
    | reconnect t => rfl
    | reply t => exact ih

/-- Before the first reconnect there are only replies. -/
lemma upToReconnect_of_none (hn : h.lastReconnect = none) : h.upToReconnect = [] ∧ h.dry = 0 := by
  induction h with
  | nil => exact ⟨rfl, rfl⟩
  | cons m h ih =>
    cases m with
    | reconnect t => cases hn
    | reply t => exact ⟨(ih hn).1, rfl⟩

lemma lastReply_of_replies (hr : 0 < h.replies) : ∃ r, h.lastReply = some r := by
  induction h with
  | nil => cases hr
  | cons m h ih =>
    cases m with
    | reconnect t => exact ih hr
    | reply t => exact ⟨t, rfl⟩

lemma replies_of_lastReply (hr : h.lastReply = some r) : 0 < h.replies := by
  induction h with
  | nil => cases hr
  | cons m h ih =>
    cases m with
    | reconnect t => exact ih hr
    | reply t => exact List.countP_pos_iff.mpr ⟨_, List.mem_cons_self, rfl⟩

/-- The wait doubles with a reconnect that no reply came before. -/
lemma spacing_doubles (hd : h.dry ≠ 0) :
    History.spacing (.reconnect t :: h) =
      if h.spacing < BACKOFF_CAP_MS then
        if h.spacing * 2 < BACKOFF_CAP_MS then h.spacing * 2 else BACKOFF_CAP_MS
      else h.spacing := by
  obtain ⟨k, hk⟩ := Nat.exists_eq_succ_of_ne_zero hd
  have hdry : History.dry (.reconnect t :: h) = k + 2 := congrArg (· + 1) hk
  have hpow : BACKOFF_BASE_MS * 2 ^ (k + 1) = BACKOFF_BASE_MS * 2 ^ k * 2 := by
    rw [pow_succ, mul_assoc]
  unfold History.spacing
  rw [hdry, hk, Nat.succ_sub_one, Nat.succ_sub_one, hpow]
  generalize BACKOFF_BASE_MS * 2 ^ k = x
  split
  next hlt =>
    split
    next hlt2 => omega
    next hlt2 => omega
  next hlt => omega

/-- After a reply the wait is the base again. -/
lemma spacing_base (hd : h.dry = 0) : History.spacing (.reconnect t :: h) = BACKOFF_BASE_MS := by
  have hdry : History.dry (.reconnect t :: h) = 1 := congrArg (· + 1) hd
  unfold History.spacing
  rw [hdry]
  rfl

/-- The watchdog tells the history. -/
structure Tells (s : Station) : Prop where
  replies : s.watchdog.repliesSeen = s.history.replies % 2 ^ 32
  reply : ∀ r ∈ s.history.lastReply,
    r ≤ s.now ∧ s.watchdog.lastReplyMs = reading (2 ^ 32) r
  first : s.history.lastReconnect = none → s.watchdog.lastReconnectMs = 0
  reconnect : ∀ t ∈ s.history.lastReconnect,
    t ≤ s.now ∧ s.watchdog.lastReconnectMs = reading (2 ^ 32) t ∧ s.watchdog.lastReconnectMs ≠ 0
  atLast : s.watchdog.repliesAtLastFire = s.history.upToReconnect.replies % 2 ^ 32
  backoff : s.watchdog.backoffMs = s.history.upToReconnect.spacing

lemma Tells.init : Tells {} := ⟨rfl, nofun, fun _ => rfl, nofun, rfl, rfl⟩

/-- A watchdog that is due finds the station due. -/
lemma Tells.due (hs : Tells s) (hd : s.watchdog.due s.millis = true) : s.Due := by
  unfold Watchdog.due at hd
  rw [Bool.and_eq_true, Bool.and_eq_true, Bool.or_eq_true, decide_eq_true_eq, decide_eq_true_eq,
    decide_eq_true_eq, beq_iff_eq] at hd
  obtain ⟨⟨hpos, hsilent⟩, hspaced⟩ := hd
  refine ⟨?_, fun t ht => ?_⟩
  · rw [hs.replies] at hpos
    obtain ⟨r, hr⟩ := lastReply_of_replies (h := s.history) (Nat.pos_of_ne_zero fun h0 => by
      rw [h0] at hpos
      exact absurd hpos (by decide))
    obtain ⟨hle, hms⟩ := hs.reply r hr
    rw [hms, Station.millis, elapsed_reading hle] at hsilent
    have := Nat.mod_le (s.now - r) (2 ^ 32)
    exact ⟨r, hr, by omega⟩
  · obtain ⟨hle, hms, hne⟩ := hs.reconnect t ht
    have hspaced := hspaced.resolve_left hne
    rw [hms, hs.backoff, Station.millis, elapsed_reading hle] at hspaced
    have := Nat.mod_le (s.now - t) (2 ^ 32)
    omega

/-- The backoff that the watchdog takes with a reconnect is the spacing after it. -/
lemma Tells.nextBackoff (hs : Tells s) (hc : s.history.replies < 2 ^ 32) :
    s.watchdog.nextBackoff = History.spacing (.reconnect n :: s.history) := by
  unfold Watchdog.nextBackoff
  cases ht : s.history.lastReconnect with
  | none =>
    obtain ⟨hu, hd⟩ := upToReconnect_of_none ht
    rw [hs.first ht, if_neg (not_not_intro rfl), hs.backoff, hu, spacing_base hd]
    rfl
  | some t =>
    obtain ⟨-, -, hne⟩ := hs.reconnect t ht
    obtain ⟨hle, heq⟩ := replies_upToReconnect (h := s.history)
    rw [if_pos hne, hs.replies, hs.atLast, hs.backoff, Nat.mod_eq_of_lt hc,
      Nat.mod_eq_of_lt (hle.trans_lt hc)]
    generalize hh : s.history = h at *
    cases h with
    | nil => cases ht
    | cons m h =>
      cases m with
      | reply r =>
        have hlt : History.upToReconnect (.reply r :: h) ≠ .reply r :: h := fun he => by
          have hl := congrArg List.length he
          have := (List.dropWhile_suffix Mark.isReply (l := h)).length_le
          have hu : History.upToReconnect (.reply r :: h) = h.dropWhile Mark.isReply := rfl
          rw [hu, List.length_cons] at hl
          omega
        rw [if_pos fun he => hlt (heq he.symm), spacing_base rfl]
      | reconnect r =>
        have hu : History.upToReconnect (.reconnect r :: h) = .reconnect r :: h := rfl
        have hd : History.dry (.reconnect r :: h) ≠ 0 := Nat.succ_ne_zero (History.dry h)
        rw [hu, if_neg (not_not_intro rfl), spacing_doubles hd]

variable (n) in
/-- The probe changes nothing that decides a reconnect. -/
lemma probe_eq (w : Watchdog) (gateway : UInt32) (sent : Bool) :
    ∃ last probes, w.probe gateway sent n = { w with lastProbeMs := last, probesSent := probes } ∧
      (w.probe gateway sent n).due n = w.due n := by
  unfold Watchdog.probe
  split
  next =>
    refine ⟨_, _, rfl, ?_⟩
    unfold Watchdog.due
    dsimp only
  next => exact ⟨w.lastProbeMs, w.probesSent, rfl, rfl⟩

variable (s) in
/-- What a tick does: it has an associated station reconnect when the watchdog is due, or else it
changes nothing that decides a reconnect. -/
lemma step_tick (gateway : UInt32) (sent : Bool) :
    (s.associatedAt.isSome ∧ s.watchdog.due s.millis = true ∧
      ∃ last probes, s.step (.tick gateway sent) = { s with
        watchdog := { s.watchdog with
          lastProbeMs := last
          probesSent := probes
          backoffMs := s.watchdog.nextBackoff
          repliesAtLastFire := s.watchdog.repliesSeen
          lastReconnectMs := s.millis
          reconnects := (s.watchdog.reconnects + 1) % 2 ^ 32 }
        history := .reconnect s.now :: s.history }) ∨
    (¬ (s.associatedAt.isSome ∧ s.watchdog.due s.millis = true) ∧
      ∃ last probes, s.step (.tick gateway sent) = { s with
        watchdog := { s.watchdog with lastProbeMs := last, probesSent := probes } }) := by
  obtain ⟨last, probes, hp, hdue⟩ :=
    probe_eq s.millis s.watchdog gateway sent
  unfold Station.step
  dsimp only
  generalize s.millis = millis at hp hdue ⊢
  cases ha : s.associatedAt.isSome with
  | false =>
    refine .inr ⟨fun h => Bool.false_ne_true h.1, s.watchdog.lastProbeMs, s.watchdog.probesSent, ?_⟩
    rfl
  | true =>
    unfold Watchdog.tick
    dsimp only
    rw [if_neg Bool.false_ne_true.symm, hdue, hp]
    cases hd : s.watchdog.due millis with
    | false =>
      refine .inr ⟨fun h => Bool.false_ne_true h.2, last, probes, ?_⟩
      rw [if_neg Bool.false_ne_true]
      dsimp only
      rw [if_neg Bool.false_ne_true]
    | true =>
      refine .inl ⟨rfl, rfl, last, probes, ?_⟩
      rw [if_pos rfl]
      dsimp only
      rw [if_pos rfl]
      unfold Watchdog.nextBackoff
      dsimp only

lemma Tells.step (hs : Tells s) (ho : Sound s e) : Tells (s.step e) := by
  cases e with
  | wait ms =>
    refine ⟨hs.replies, fun r hr => ?_, hs.first, fun t ht => ?_, hs.atLast, hs.backoff⟩
    · exact (hs.reply r hr).imp_left fun hle => hle.trans (Nat.le_add_right _ _)
    · exact (hs.reconnect t ht).imp_left fun hle => hle.trans (Nat.le_add_right _ _)
  | associate => exact ⟨hs.replies, hs.reply, hs.first, hs.reconnect, hs.atLast, hs.backoff⟩
  | dissociate => exact ⟨hs.replies, hs.reply, hs.first, hs.reconnect, hs.atLast, hs.backoff⟩
  | packet p =>
    unfold Station.step Watchdog.onIcmpRecv
    dsimp only
    cases p.isReply with
    | true =>
      have hr : History.replies (.reply s.now :: s.history) = s.history.replies + 1 :=
        List.countP_cons_of_pos rfl
      rw [if_pos rfl, if_pos rfl]
      refine ⟨?_, fun r hr => ?_, hs.first, hs.reconnect, hs.atLast, hs.backoff⟩
      · rw [hr]
        exact (congrArg (fun n => (n + 1) % 2 ^ 32) hs.replies).trans (Nat.mod_add_mod _ _ _)
      · obtain rfl := Option.some.inj hr
        exact ⟨le_rfl, rfl⟩
    | false =>
      rw [if_neg Bool.false_ne_true, if_neg Bool.false_ne_true]
      exact hs
  | tick gateway sent =>
    obtain ⟨ha, hd, last, probes, he⟩ | ⟨-, last, probes, he⟩ :=
      step_tick s gateway sent
    · rw [he]
      have hb := hs.nextBackoff (n := s.now) ho.counted
      refine ⟨hs.replies, hs.reply, nofun, fun t ht => ?_, hs.replies, hb⟩
      · obtain rfl := Option.some.inj ht
        exact ⟨le_rfl, rfl, (ho.steady ⟨_, _, rfl⟩ ha (hs.due hd)).2⟩
    · rw [he]
      exact ⟨hs.replies, hs.reply, hs.first, hs.reconnect, hs.atLast, hs.backoff⟩

/-- An event that has the station reconnect is a tick that finds the watchdog due. -/
lemma due_of_reconnects (h : s.Reconnects e) :
    (∃ gateway sent, e = .tick gateway sent) ∧ s.associatedAt.isSome ∧
      s.watchdog.due s.millis = true := by
  unfold Station.Reconnects at h
  have hne : s.history ≠ .reconnect s.now :: s.history := fun h => by
    have := congrArg List.length h
    rw [List.length_cons] at this
    omega
  cases e with
  | wait ms => exact absurd h hne
  | associate => exact absurd h hne
  | dissociate => exact absurd h hne
  | packet p =>
    unfold Station.step at h
    dsimp only at h
    split at h
    next => cases h
    next => exact absurd h hne
  | tick gateway sent =>
    obtain ⟨ha, hd, -⟩ | ⟨-, last, probes, he⟩ :=
      step_tick s gateway sent
    · exact ⟨⟨_, _, rfl⟩, ha, hd⟩
    · rw [he] at h
      exact absurd h hne

/-- A sound event keeps what it should. -/
lemma Tells.keeps (hs : Tells s) (ho : Sound s e) : Keeps s e := by
  refine ⟨fun h => ?_, fun h t ht => ?_, fun hk hd hsil t ht hb => ?_⟩
  · obtain ⟨htick, ha, hd⟩ := due_of_reconnects h
    have hdue := hs.due hd
    refine ⟨(ho.steady htick ha hdue).1, fun r hr => ?_⟩
    obtain ⟨r', hr', hlt⟩ := hdue.1
    rw [Option.mem_def.mp hr] at hr'
    rwa [Option.some.inj hr']
  · obtain ⟨-, -, hd⟩ := due_of_reconnects h
    have := (hs.due hd).2 t ht
    have := spacing_le_upToReconnect (h := s.history)
    omega
  · obtain ⟨hwait, hread⟩ := ho.restored hk hd hsil t ht hb
    obtain ⟨gateway, sent, rfl⟩ := hk
    obtain ⟨-, -, last, probes, he⟩ | ⟨hn, -⟩ :=
      step_tick s gateway sent
    · unfold Station.Reconnects
      rw [he]
    · refine absurd ⟨?_, ?_⟩ hn
      · obtain ⟨⟨a, ha, -⟩, -⟩ := hsil
        exact Option.isSome_iff_exists.mpr ⟨a, ha⟩
      · have hpos : 0 < s.history.replies := by
          generalize s.history = h at hd ht
          cases h with
          | nil => cases ht
          | cons m h =>
            cases m with
            | reconnect t => cases hd
            | reply r => exact replies_of_lastReply rfl
        obtain ⟨r, hr⟩ := lastReply_of_replies hpos
        obtain ⟨hrle, hrms⟩ := hs.reply r hr
        obtain ⟨htle, htms, hne⟩ := hs.reconnect t ht
        unfold Watchdog.due
        rw [Bool.and_eq_true, Bool.and_eq_true, Bool.or_eq_true, decide_eq_true_eq,
          decide_eq_true_eq, decide_eq_true_eq, hs.replies, Nat.mod_eq_of_lt ho.counted, hrms, htms,
          hs.backoff]
        unfold Station.millis
        rw [elapsed_reading hrle, elapsed_reading htle]
        exact ⟨⟨hpos, hread r hr⟩, .inr hwait⟩

end

/-- In a run whose ticks are sound, the station reconnects only when the gateway is silent, with the
spacing that is due. -/
theorem watches_of_sound {events : List Event} (h : Allowed Station.step Sound {} events) :
    Allowed Station.step Keeps {} events :=
  h.imp (fun hs ho => hs.step ho) (fun hs ho => hs.keeps ho) Tells.init

/-- A reply to a probe. -/
def echoReply : IcmpPacket := { totLen := 36, headerWords := 5, type := 0, id := PROBE_ICMP_ID }

/-- The gateway answers once, and is silent for 36 s. -/
def silence : List Event := [.associate, .packet echoReply, .wait 36000, .tick 1 true]

/-- The station was away for a minute, and the first tick after it has it reconnect. -/
def outage : List Event :=
  [.associate, .packet echoReply, .dissociate, .wait 60000, .associate, .tick 1 true]

/-- The silence has the station reconnect. -/
theorem watches_of_sound_silence : Allowed Station.step Keeps {} silence ∧
    (silence.foldl Station.step {}).history = [.reconnect 36000, .reply 0] := by
  refine ⟨watches_of_sound ⟨?_, ?_, ?_, ?_, trivial⟩, rfl⟩
  · exact ⟨nofun, nofun, by decide⟩
  · exact ⟨nofun, nofun, by decide⟩
  · exact ⟨nofun, nofun, by decide⟩
  · refine ⟨fun _ _ _ => ⟨⟨0, rfl, by decide⟩, by decide⟩, fun _ _ _ => nofun, by decide⟩

/-- The silence of an outage counts as one of the gateway. -/
theorem not_keeps_outage : ¬ ∀ events : List Event, Allowed Station.step Keeps {} events := by
  intro h
  obtain ⟨-, -, -, -, -, hk, -⟩ := h outage
  obtain ⟨⟨a, ha, hlt⟩, -⟩ := hk.silent rfl
  obtain rfl := Option.some.inj ha
  exact absurd hlt (by decide)

end URSupreme.RxWatchdog
