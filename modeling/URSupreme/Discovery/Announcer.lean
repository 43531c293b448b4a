import Mathlib.Data.List.DropRight
import Mathlib.Data.List.MinMax
import URSupreme.Clock.Manager
import URSupreme.Common.MsgPackWrite
import URSupreme.Transport.TcpClients

/-!
# The discovery announcer

`Discovery::Announcer` with the announce of `Discovery/Announce.h` that it builds: a tick looks for
the interface whose announce is the most overdue, builds its payload and submits it to the stamp
worker. What is due is submitted when the leader of the search can be announced.
-/

namespace URSupreme.Announcer
open Lib MsgPack TcpClients
open Clock (elapsed)

def TICK_PERIOD_MS : Nat := 60 * 1000

def MAX_WIRE_SIZE : Nat := 1024

def MIN_INTERVAL_MIN : Nat := 5

def MAX_INTERVAL_MIN : Nat := 1440

/-- `default_interval_min`, which is clamped when it is loaded and when it is set. -/
abbrev Interval := { m : Nat // MIN_INTERVAL_MIN ≤ m ∧ m ≤ MAX_INTERVAL_MIN }

/-- `set_default_interval_min`. -/
def clampInterval (m : Nat) : Interval :=
  ⟨max MIN_INTERVAL_MIN (min m MAX_INTERVAL_MIN),
    le_max_left _ _, max_le (by decide) (min_le_right _ _)⟩

/-- `State::Master`. -/
structure Master where
  enabled : Bool := false
  defaultInterval : Interval := ⟨360, by decide⟩
  defaultStampCost : Nat := 14
  advertisedName : Bytes := []

/-- The value of a `Field`; a float is a bit pattern. -/
inductive Value where
  | str (s : Bytes)
  | int (i : Int64)
  | float (f : UInt64)
  | bool (b : Bool)
  | bin (b : Bytes)

/-- `Field`. -/
structure Field where
  tag : UInt8
  value : Value

/-- The fields of a `Builder`. -/
abbrev Builder := List Field

/-- `slot` and the setters: the field with the tag, or a new one at the end. -/
def Builder.set (tag : UInt8) (value : Value) : Builder → Builder
  | [] => [⟨tag, value⟩]
  | f :: b => if f.tag = tag then ⟨tag, value⟩ :: b else f :: Builder.set tag value b

/-- The switch of `serialize_unstamped`. -/
def Value.pack (room : Nat) : Value → Option Bytes
  | .str s => packStr room s
  | .int i => packInt room i
  | .float f => packFloat64 room f
  | .bool b => packBool room b
  | .bin b => packBin room b

/-- The loop of `serialize_unstamped`, behind what is written. -/
def packFields (buf : Bytes) : List Field → Option Bytes
  | [] => some buf
  | f :: fields => do
    let tag ← packUint8 (MAX_WIRE_SIZE - buf.length) f.tag
    let value ← f.value.pack (MAX_WIRE_SIZE - (buf ++ tag).length)
    packFields (buf ++ tag ++ value) fields

/-- `serialize_unstamped`; empty when the payload does not fit. -/
def Builder.serializeUnstamped (b : Builder) : Bytes :=
  (packMapHeader MAX_WIRE_SIZE b.length >>= (packFields · b)).getD []

/-- `last_fix`, as far as an announce needs it. -/
structure Fix where
  valid : Bool := false
  latitude : UInt64 := 0
  longitude : UInt64 := 0
  altitudeValid : Bool := false
  altitude : UInt64 := 0

/-- What `build_for_interface` reads of the device. -/
structure Device where
  transportEnabled : Bool := false
  transportId : Bytes := []
  fix : Fix := {}
  loraFreq : UInt32 := 0
  loraBw : UInt32 := 0
  loraSf : Int32 := 0
  loraCr : Int32 := 0

/-- `sanitise_name`. -/
def sanitiseName (s : Bytes) : Bytes :=
  let blank : UInt8 → Bool := fun b => b == 0x20 || b == 0x09
  (((s.filter (· ≠ 0x0A)).filter (· ≠ 0x0D)).dropWhile blank).rdropWhile blank

/-- `RNodeInterface`. -/
def TYPE_LORA : Bytes := [0x52, 0x4E, 0x6F, 0x64, 0x65, 0x49, 0x6E, 0x74, 0x65, 0x72, 0x66, 0x61,
    0x63, 0x65]

/-- `TCPClientInterface`. -/
def TYPE_TCP_CLIENT : Bytes :=
  [0x54, 0x43, 0x50, 0x43, 0x6C, 0x69, 0x65, 0x6E, 0x74, 0x49, 0x6E, 0x74, 0x65, 0x72, 0x66, 0x61,
  0x63, 0x65]

/-- `UDPInterface`. -/
def TYPE_UDP : Bytes := [0x55, 0x44, 0x50, 0x49, 0x6E, 0x74, 0x65, 0x72, 0x66, 0x61, 0x63, 0x65]

/-- The fields every announce has: the name, the transport, the position and the height. -/
def commonFields (m : Master) (d : Device) (name : Bytes) : Builder :=
  let label := sanitiseName (if m.advertisedName ≠ [] then m.advertisedName else name)
  let b := Builder.set 0xFE (.bin d.transportId) (Builder.set 0x01 (.bool d.transportEnabled)
    (Builder.set 0xFF (.str label) []))
  let b := if d.fix.valid then
    Builder.set 0x04 (.float d.fix.longitude) (Builder.set 0x03 (.float d.fix.latitude) b) else b
  Builder.set 0x05 (.float (if d.fix.altitudeValid then d.fix.altitude else 0)) b

/-- `build_for_interface`; `none` for an unknown type. -/
def buildForInterface (m : Master) (d : Device) (name : Bytes) (cfg : Entry) : Option Builder :=
  let b := commonFields m d name
  match cfg.type with
  | .lora =>
    let b := Builder.set 0x09 (.int d.loraFreq.toUInt64.toInt64)
      (Builder.set 0x00 (.str TYPE_LORA) b)
    let b := Builder.set 0x0B (.int d.loraSf.toInt64)
      (Builder.set 0x0A (.int d.loraBw.toUInt64.toInt64) b)
    some (Builder.set 0x0C (.int d.loraCr.toInt64) b)
  | .tcpClient => some (Builder.set 0x00 (.str TYPE_TCP_CLIENT) b)
  | .udp => some (Builder.set 0x00 (.str TYPE_UDP) b)
  | .unknown => none

/-- `set_discoverable`: an entry that is not there is made with the type the caller gives. -/
def setDiscoverable (name : Bytes) (v : Bool) (entries : Entries) (createType : Kind := .unknown) :
    Entries :=
  match lookup name entries with
  | some e => insert name { e with discoverable := v } entries
  | none => insert name { type := createType, discoverable := v } entries

/-- An interface of the transport; a wrapper without one is not live. -/
structure Iface where
  live : Bool := true
  name : Bytes

/-- The announcer, and what a tick finds; `idle` is whether the stamp worker accepts a job. -/
structure Node where
  master : Master
  destination : Bool := true
  ifaces : List Iface
  entries : Entries
  device : Device := {}
  idle : Bool := true
  lastAnnounceMs : List (Bytes × Nat) := []
  lastTickMs : Nat := 0

/-- What a tick comes to; the returns that say nothing are one. -/
inductive Outcome where
  | quiet
  | unknownType (name : Bytes)
  | empty (name : Bytes)
  | busy (name : Bytes)
  | submitted (name packed : Bytes)
  deriving DecidableEq

/-- `interval_ms`. -/
def Node.intervalMs (s : Node) : Nat := s.master.defaultInterval.1 * 60 * 1000

/-- `since`. -/
def Node.since (s : Node) (now : Nat) (name : Bytes) : Nat :=
  let last := (lookup name s.lastAnnounceMs).getD 0
  if last = 0 then s.intervalMs else elapsed now last

/-- `due_name`, `due_overdue_ms` and `due_cfg`. -/
structure Leader where
  name : Bytes := []
  overdueMs : Nat := 0
  cfg : Entry := {}

/-- One turn of the loop that looks for the leader. -/
def Node.scan (s : Node) (now : Nat) (due : Leader) (i : Iface) : Leader :=
  if i.live = false then due
  else
    match lookup i.name s.entries with
    | none => due
    | some cfg =>
      if cfg.discoverable = false then due
      else if s.since now i.name < s.intervalMs then due
      else if s.since now i.name > due.overdueMs then
        { name := i.name, overdueMs := s.since now i.name, cfg }
      else due

/-- The rest of `tick`, for the leader. -/
def Node.announce (s : Node) (now : Nat) (due : Leader) : Node × Outcome :=
  if due.name = [] then (s, .quiet)
  else
    -- the interface is looked up again; without one the builder would stay empty
    let builder := match s.ifaces.find? fun i => i.live && i.name == due.name with
      | some i => buildForInterface s.master s.device i.name due.cfg
      | none => some []
    match builder with
    | none => (s, .unknownType due.name)
    | some b =>
      let packed := b.serializeUnstamped
      if packed = [] then (s, .empty due.name)
      else if s.idle = false then (s, .busy due.name)
      else
        ({ s with lastAnnounceMs := insert due.name now s.lastAnnounceMs },
        .submitted due.name packed)

/-- `tick`. -/
def Node.tick (s : Node) (now : Nat) : Node × Outcome :=
  if s.master.enabled = false then (s, .quiet)
  else if s.destination = false then (s, .quiet)
  else if elapsed now s.lastTickMs < TICK_PERIOD_MS ∧ s.lastTickMs ≠ 0 then (s, .quiet)
  else
    let s := { s with lastTickMs := now }
    s.announce now (s.ifaces.foldl (s.scan now) {})

/-- The tick passes its rate limit with announcing enabled. -/
def Node.Passes (s : Node) (now : Nat) : Prop :=
  s.master.enabled = true ∧ s.destination = true ∧
    ¬ (elapsed now s.lastTickMs < TICK_PERIOD_MS ∧ s.lastTickMs ≠ 0)

/-- The interface is discoverable and due. -/
def Node.due (s : Node) (now : Nat) (i : Iface) : Bool :=
  i.live && (lookup i.name s.entries).any (·.discoverable) && s.intervalMs ≤ s.since now i.name

/-- The payload of an interface's announce, when its type is known. -/
def Node.payload (s : Node) (i : Iface) : Option Bytes :=
  (lookup i.name s.entries).bind fun cfg =>
    (buildForInterface s.master s.device i.name cfg).map Builder.serializeUnstamped

/-- The announce of an interface can be built: its type is known, and the payload fits. -/
def Node.Buildable (s : Node) (i : Iface) : Prop :=
  ∃ packed, s.payload i = some packed ∧ packed ≠ []

/-- The tick submits the announce of an interface that is due. -/
def Node.Progress (s : Node) (now : Nat) : Prop :=
  s.Passes now → s.idle = true → (∃ i ∈ s.ifaces, s.due now i ∧ s.Buildable i) →
    ∃ i ∈ s.ifaces, s.due now i ∧ ∃ packed, s.payload i = some packed ∧ packed ≠ [] ∧
      (s.tick now).2 = .submitted i.name packed

/-- The interface that is the most overdue, the first of these. -/
def Node.leader (s : Node) (now : Nat) : Option Iface :=
  (s.ifaces.filter (s.due now)).argmax fun i => s.since now i.name

section
variable {s : Node} {now : Nat} {i j : Iface} {l : List Iface} {due : Leader} {o : Option Iface}

/-- What the search keeps of an interface. -/
def Node.lead (s : Node) (now : Nat) (i : Iface) : Leader where
  name := i.name
  overdueMs := s.since now i.name
  cfg := (lookup i.name s.entries).getD {}

/-- The search keeps the leader of the interfaces it has seen. -/
def Node.Keeps (s : Node) (now : Nat) (due : Leader) : Option Iface → Prop
  | none => due = {}
  | some i => due = s.lead now i

lemma intervalMs_pos : 0 < s.intervalMs := by
  have := s.master.defaultInterval.2.1
  unfold Node.intervalMs
  unfold MIN_INTERVAL_MIN at this
  omega

/-- The search passes over an interface that is not due. -/
lemma scan_of_not_due (h : s.due now i = false) : s.scan now due i = due := by
  unfold Node.scan
  unfold Node.due at h
  cases hl : i.live with
  | false => rfl
  | true =>
    rw [if_neg Bool.false_ne_true.symm]
    rw [hl, Bool.true_and] at h
    cases hc : lookup i.name s.entries with
    | none => rfl
    | some cfg =>
      rw [hc, Option.any_some] at h
      dsimp only
      cases hd : cfg.discoverable with
      | false => rw [if_pos rfl]
      | true =>
        rw [hd, Bool.true_and, decide_eq_false_iff_not, not_le] at h
        rw [if_neg Bool.false_ne_true.symm, if_pos h]

/-- It takes one that is due when it is more overdue. -/
lemma scan_of_due (h : s.due now i = true) :
    s.scan now due i = if s.since now i.name > due.overdueMs then s.lead now i else due := by
  unfold Node.due at h
  rw [Bool.and_eq_true, Bool.and_eq_true, decide_eq_true_eq, Option.any_eq_true] at h
  obtain ⟨⟨hl, cfg, hc, hd⟩, hs⟩ := h
  unfold Node.scan Node.lead
  rw [hl, if_neg Bool.false_ne_true.symm, hc]
  dsimp only
  rw [hd, if_neg Bool.false_ne_true.symm, if_neg (not_lt.mpr hs)]
  rfl

lemma interval_le_of_due (h : s.due now i = true) : s.intervalMs ≤ s.since now i.name := by
  unfold Node.due at h
  rw [Bool.and_eq_true, decide_eq_true_eq] at h
  exact h.2

/-- The search comes to the first of the most overdue interfaces. -/
lemma Node.Keeps.foldl (h : s.Keeps now due o) :
    s.Keeps now (l.foldl (s.scan now) due)
      ((l.filter (s.due now)).foldl (List.argAux fun b c => s.since now c.name < s.since now b.name)
        o) := by
  induction l generalizing due o with
  | nil => exact h
  | cons i l ih =>
    rw [List.foldl_cons]
    cases hd : s.due now i with
    | false =>
      rw [scan_of_not_due hd, List.filter_cons_of_neg (by rw [hd]; exact Bool.false_ne_true)]
      exact ih h
    | true =>
      rw [scan_of_due hd, List.filter_cons_of_pos hd, List.foldl_cons]
      refine ih ?_
      cases o with
      | none =>
        obtain rfl : due = {} := h
        rw [if_pos (intervalMs_pos.trans_le (interval_le_of_due hd))]
        rfl
      | some j =>
        obtain rfl : due = s.lead now j := h
        unfold List.argAux
        dsimp only
        split
        next hlt =>
          have hlt : s.since now j.name < s.since now i.name := hlt
          rw [if_pos hlt]
          rfl
        next hlt =>
          have hlt : ¬ s.since now j.name < s.since now i.name := hlt
          rw [if_neg hlt]
          rfl

variable (s now) in
lemma keeps_search : s.Keeps now (s.ifaces.foldl (s.scan now) {}) (s.leader now) :=
  Node.Keeps.foldl (o := none) rfl

lemma mem_of_leader (h : s.leader now = some i) : i ∈ s.ifaces ∧ s.due now i = true :=
  List.mem_filter.mp (List.argmax_mem h)

/-- Where something is due there is a leader. -/
lemma exists_leader (hi : i ∈ s.ifaces) (hd : s.due now i = true) : ∃ j, s.leader now = some j := by
  cases h : s.leader now with
  | some j => exact ⟨j, rfl⟩
  | none =>
    have hnil : s.ifaces.filter (s.due now) = [] := List.argmax_eq_none.mp h
    exact absurd (List.mem_filter.mpr ⟨hi, hd⟩) (hnil ▸ List.not_mem_nil)

/-- What becomes of an interface that was found. -/
lemma announce_lead (hi : i ∈ s.ifaces) (hd : s.due now i = true) (hidle : s.idle = true) :
    (s.announce now (s.lead now i)).2 =
      if i.name = [] then .quiet
      else match s.payload i with
        | none => .unknownType i.name
        | some packed => if packed = [] then .empty i.name else .submitted i.name packed := by
  unfold Node.due at hd
  rw [Bool.and_eq_true, Bool.and_eq_true, Option.any_eq_true] at hd
  obtain ⟨⟨hl, cfg, hc, -⟩, -⟩ := hd
  have hc : lookup i.name s.entries = some cfg := hc
  obtain ⟨j, hj⟩ : ∃ j, s.ifaces.find? (fun j => j.live && j.name == i.name) = some j :=
    Option.isSome_iff_exists.mp (List.find?_isSome.mpr ⟨i, hi, by rw [hl, beq_self_eq_true]; rfl⟩)
  have hname : j.name = i.name := by
    have := List.find?_some hj
    rw [Bool.and_eq_true, beq_iff_eq] at this
    exact this.2
  unfold Node.announce Node.lead Node.payload
  dsimp only
  rw [hj, hc]
  dsimp only [Option.getD_some, Option.bind_some]
  rw [hname]
  by_cases hn : i.name = []
  · rw [if_pos hn, if_pos hn]
  · rw [if_neg hn, if_neg hn]
    cases buildForInterface s.master s.device i.name cfg with
    | none => rfl
    | some b =>
      dsimp only [Option.map_some]
      by_cases he : b.serializeUnstamped = []
      · rw [if_pos he, if_pos he]
      · rw [if_neg he, if_neg he, hidle, if_neg Bool.false_ne_true.symm]

/-- The time of the tick decides nothing behind the rate limit. -/
lemma announce_lastTickMs {t : Nat} :
    ({ s with lastTickMs := t }.announce now due).2 = (s.announce now due).2 := by
  unfold Node.announce
  dsimp only
  split
  next => rfl
  next =>
    split
    next => rfl
    next =>
      split
      next => rfl
      next =>
        split
        next => rfl
        next => rfl

lemma tick_of_passes (h : s.Passes now) :
    s.tick now = { s with lastTickMs := now }.announce now (s.ifaces.foldl (s.scan now) {}) := by
  obtain ⟨he, hd, hr⟩ := h
  unfold Node.tick
  rw [if_neg fun hf => Bool.false_ne_true (hf.symm.trans he),
    if_neg fun hf => Bool.false_ne_true (hf.symm.trans hd), if_neg hr]
  rfl

end

/-- A tick submits what is due exactly when the interface that is the most overdue, the first of
these, has a name and an announce that can be built. -/
theorem progress_iff (s : Node) (now : Nat) :
    s.Progress now ↔
      (s.Passes now → s.idle = true → (∃ i ∈ s.ifaces, s.due now i ∧ s.Buildable i) →
        ∃ i ∈ s.leader now, i.name ≠ [] ∧ s.Buildable i) := by
  refine forall₃_congr fun hp hidle ⟨i, hi, hd, _⟩ => ?_
  obtain ⟨j, hj⟩ := exists_leader hi hd
  obtain ⟨hjm, hjd⟩ := mem_of_leader hj
  have hk := keeps_search s now
  rw [hj] at hk
  rw [tick_of_passes hp, announce_lastTickMs,
    show s.ifaces.foldl (s.scan now) {} = s.lead now j from hk, announce_lead hjm hjd hidle]
  constructor
  · rintro ⟨k, hk, hkd, packed, hpk, hne, he⟩
    split at he
    next => cases he
    next hn =>
      refine ⟨j, hj, hn, ?_⟩
      cases hpj : s.payload j with
      | none =>
        rw [hpj] at he
        cases he
      | some pj =>
        rw [hpj] at he
        dsimp only at he
        split at he
        next => cases he
        next hne => exact ⟨pj, hpj, hne⟩
  · rintro ⟨k, hk, hn, packed, hpk, hne⟩
    obtain rfl : j = k := Option.some.inj (hj.symm.trans hk)
    refine ⟨j, hjm, hjd, packed, hpk, hne, ?_⟩
    rw [if_neg hn, hpk]
    exact if_neg hne

/-- Two interfaces that were never announced: the entry of the first has no type that is known. -/
def stuck : Node where
  master := { enabled := true, defaultInterval := clampInterval 5, defaultStampCost := 0 }
  ifaces := [{ name := [0x61] }, { name := [0x62] }]
  entries := setDiscoverable [0x61] true (setDiscoverable [0x62] true [] .udp)

/-- The second interface is due and could be announced, and the first one is tried for ever. -/
theorem not_progress_stuck : ¬ (∀ s now, Node.Progress s now) ∧
    ∀ now, stuck.tick now = ({ stuck with lastTickMs := now }, .unknownType [0x61]) := by
  have hpasses : ∀ now, stuck.Passes now := fun now => ⟨rfl, rfl, fun h => h.2 rfl⟩
  have htick : ∀ now, stuck.tick now = ({ stuck with lastTickMs := now }, .unknownType [0x61]) := by
    intro now
    rw [tick_of_passes (hpasses now)]
    rfl
  refine ⟨fun h => ?_, htick⟩
  have hb : stuck.Buildable { name := [0x62] } := ⟨_, rfl, by decide⟩
  obtain ⟨i, -, -, packed, -, -, he⟩ :=
    h stuck 0 (hpasses 0) rfl ⟨_, List.mem_cons_of_mem _ List.mem_cons_self, by decide, hb⟩
  rw [htick] at he
  cases he

end URSupreme.Announcer
