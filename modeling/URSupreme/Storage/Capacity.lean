import Mathlib
import URSupreme.Storage.OutboundStaging

/-!
# What storage can hold

`current_caps` of `Storage/OutboundStaging.h` and the limits that `Storage/Config.h` makes of it.
The card counts in 64 bits and everything else in `size_t`, which has 32; the limits are what the
device can really hold when the card's free space fits and the preferred backend is the largest.
-/

namespace URSupreme.Staging

def PSRAM_CAP_BYTES : Nat := 4 * 1024 * 1024

def FLASH_CAP_BYTES : Nat := 2 * 1024 * 1024

def DEFAULT_USER_MAX : Nat := 256 * 1024 * 1024

def PROTOCOL_CEILING : Nat := 256 * 1024 * 1024

def RECEIVE_SAFETY_MARGIN : Nat := 256 * 1024

/-- `Storage::SDCard`, as far as its space is concerned. -/
structure SDCard where
  present : Bool
  cachedTotal : UInt64
  cachedUsed : UInt64

/-- `total_bytes`. -/
def SDCard.totalBytes (c : SDCard) : UInt64 := if c.present then c.cachedTotal else 0

/-- `used_bytes`. -/
def SDCard.usedBytes (c : SDCard) : UInt64 := if c.present then c.cachedUsed else 0

/-- `sd_free`: a difference of 64 bits in a `size_t`. -/
def SDCard.free (c : SDCard) : Nat :=
  if c.totalBytes > c.usedBytes then (c.totalBytes - c.usedBytes).toNat % 2 ^ 32 else 0

/-- The storage of the device and what the user allows; a setting of 0 is replaced by the
default. -/
structure Device where
  card : SDCard
  psramFree : UInt32
  flashFree : UInt32
  userMaxSend : { n : UInt32 // n ≠ 0 }
  userMaxReceive : { n : UInt32 // n ≠ 0 }

/-- A limit of `Config::set`. -/
def userMax (n : UInt32) : { n : UInt32 // n ≠ 0 } :=
  if h : n = 0 then ⟨UInt32.ofNat DEFAULT_USER_MAX, by decide⟩ else ⟨n, h⟩

/-- What a backend can hold of its free space: a margin is left, and there is a cap. -/
def headroom (free margin cap : Nat) : Nat := if free > margin then min cap (free - margin) else 0

/-- `psram_max`. -/
def Device.psramMax (d : Device) : Nat :=
  headroom d.psramFree.toNat (512 * 1024) PSRAM_CAP_BYTES

/-- `flash_max`. -/
def Device.flashMax (d : Device) : Nat :=
  headroom d.flashFree.toNat (256 * 1024) FLASH_CAP_BYTES

/-- `current_caps`. -/
def Device.currentCaps (d : Device) : Caps where
  sdMax := if d.card.present then d.card.free else 0
  psramMax := d.psramMax
  flashMax := d.flashMax

/-- `backing_max_send`. -/
def Device.backingMaxSend (d : Device) : Nat := d.currentCaps.maxBytes

/-- `backing_max_receive`. -/
def Device.backingMaxReceive (d : Device) : Nat :=
  if d.card.present then
    if d.card.free > RECEIVE_SAFETY_MARGIN then d.card.free - RECEIVE_SAFETY_MARGIN else 0
  else if d.flashFree.toNat > RECEIVE_SAFETY_MARGIN then d.flashFree.toNat - RECEIVE_SAFETY_MARGIN
  else 0

/-- `effective_max_send`. -/
def Device.effectiveMaxSend (d : Device) : Nat :=
  min (min d.userMaxSend.1.toNat d.backingMaxSend) PROTOCOL_CEILING

/-- `effective_max_receive`. -/
def Device.effectiveMaxReceive (d : Device) : Nat :=
  min (min d.userMaxReceive.1.toNat d.backingMaxReceive) PROTOCOL_CEILING

/-- The backend of the buffer that `allocate` makes when nothing goes wrong with it. -/
def Buffers.placement (s : Buffers) (totalBytes : Nat) (caps : Caps) (now : Nat) : Option Backend :=
  ((s.allocate totalBytes caps true now).1.buffers.drop (s.gc now).buffers.length).head?.map
    (·.backend)

/-- The space that is really free on the card, which has none when it is not there. -/
def SDCard.trueFree (c : SDCard) : Nat :=
  if c.present then c.cachedTotal.toNat - c.cachedUsed.toNat else 0

/-- The largest message that a backend can hold. -/
def Device.trueSend (d : Device) : Nat := max d.card.trueFree (max d.psramMax d.flashMax)

/-- The space for what is received, on the card or else in flash, less the margin. -/
def Device.trueReceive (d : Device) : Nat :=
  (if d.card.present then d.card.trueFree else d.flashFree.toNat) - RECEIVE_SAFETY_MARGIN

/-- The limits are the true ones, and a request is refused only when no backend can hold it, and
goes to the card whenever it has the space. -/
structure Device.Exact (d : Device) : Prop where
  send : d.effectiveMaxSend = min (min d.userMaxSend.1.toNat d.trueSend) PROTOCOL_CEILING
  receive : d.effectiveMaxReceive =
    min (min d.userMaxReceive.1.toNat d.trueReceive) PROTOCOL_CEILING
  refuses : ∀ (s : Buffers) (n : UInt32) (now : Nat), n ≠ 0 →
    s.placement n.toNat d.currentCaps now = none → d.trueSend < n.toNat
  card : ∀ (s : Buffers) (n : UInt32) (now : Nat), n ≠ 0 → n.toNat ≤ d.card.trueFree →
    s.placement n.toNat d.currentCaps now = some .sd

/-- The condition: the card's free space fits a `size_t` (or becomes the largest one when it is
cut), and no backend can hold more than the one that is preferred. -/
structure Device.Fits (d : Device) : Prop where
  size : d.card.trueFree < 2 ^ 32 ∨ d.card.trueFree % 2 ^ 32 = 2 ^ 32 - 1
  card : d.card.trueFree ≠ 0 → d.psramMax ≤ d.card.trueFree ∧ d.flashMax ≤ d.card.trueFree
  psram : d.card.trueFree = 0 → d.psramMax = 0 ∨ d.flashMax ≤ d.psramMax

section
variable {d : Device} {c : SDCard} {s : Buffers} {caps : Caps} {n now : Nat}

/-- The card's free space, as `current_caps` has it. -/
lemma sdMax_eq : d.currentCaps.sdMax = d.card.trueFree % 2 ^ 32 := by
  unfold Device.currentCaps SDCard.free SDCard.trueFree SDCard.totalBytes SDCard.usedBytes
  dsimp only
  cases d.card.present with
  | false => rfl
  | true =>
    rw [if_pos rfl, if_pos rfl, if_pos rfl, if_pos rfl]
    split
    next h =>
      have h : d.card.cachedUsed ≤ d.card.cachedTotal := UInt64.le_of_lt h
      rw [UInt64.toNat_sub_of_le _ _ h]
    next h =>
      have h : d.card.cachedTotal.toNat ≤ d.card.cachedUsed.toNat := not_lt.mp h
      rw [Nat.sub_eq_zero_of_le h, Nat.zero_mod]

lemma headroom_le {free margin cap : Nat} : headroom free margin cap ≤ cap := by
  unfold headroom
  split
  next => exact min_le_left _ _
  next => exact Nat.zero_le _

lemma psramMax_le : d.psramMax ≤ 4 * 1024 * 1024 := headroom_le

lemma flashMax_le : d.flashMax ≤ 2 * 1024 * 1024 := headroom_le

/-- `allocate` refuses what is above the limit of the preferred backend, and places the rest. -/
lemma placement_eq (hn : 0 < n) :
    s.placement n caps now = if caps.maxBytes < n then none else caps.backend n := by
  unfold Buffers.placement Buffers.allocate
  dsimp only
  rw [if_neg (Nat.pos_iff_ne_zero.mp hn)]
  split
  next h =>
    rw [List.drop_length]
    rfl
  next h =>
    cases hb : caps.backend n with
    | none =>
      dsimp only
      rw [List.drop_length]
      rfl
    | some backend =>
      dsimp only
      rw [if_pos rfl]
      have hlen : (if backend = .sd then
          ({ s.gc now with nextId := ((s.gc now).nextId + 1) % 2 ^ 32 } : Buffers).reclaim
          else { s.gc now with nextId := ((s.gc now).nextId + 1) % 2 ^ 32 }).buffers.length =
            (s.gc now).buffers.length := by
        split
        next => exact List.length_map _
        next => rfl
      rw [← hlen, List.drop_left]
      rfl

/-- A request within the limit finds a backend. -/
lemma backend_ne_none (h : n ≤ caps.maxBytes) : caps.backend n ≠ none := by
  unfold Caps.maxBytes at h
  unfold Caps.backend
  split
  next => nofun
  next hs =>
    split
    next => nofun
    next hp =>
      split
      next => nofun
      next hf =>
        split at h
        next => exact absurd h hs
        next =>
          split at h
          next => exact absurd h hp
          next => exact absurd h hf

lemma placement_none (hn : 0 < n) : s.placement n caps now = none ↔ caps.maxBytes < n := by
  rw [placement_eq hn]
  split
  next h => exact iff_of_true rfl h
  next h => exact iff_of_false (backend_ne_none (not_lt.mp h)) h

lemma placement_sd (hn : 0 < n) :
    s.placement n caps now = some .sd ↔ n ≤ caps.sdMax := by
  rw [placement_eq hn]
  by_cases hs : n ≤ caps.sdMax
  · have hmax : caps.maxBytes = caps.sdMax := if_pos (by omega)
    rw [hmax, if_neg (not_lt.mpr hs)]
    exact iff_of_true (if_pos hs) hs
  · refine iff_of_false (fun he => ?_) hs
    unfold Caps.backend at he
    rw [if_neg hs] at he
    split at he
    next => cases he
    next =>
      split at he
      next => cases he
      next =>
        split at he
        next => cases he
        next => cases he

lemma maxBytes_le : d.currentCaps.maxBytes ≤ d.trueSend := by
  have hsd := sdMax_eq (d := d)
  have hmod := Nat.mod_le d.card.trueFree (2 ^ 32)
  have hp : d.currentCaps.psramMax = d.psramMax := rfl
  have hf : d.currentCaps.flashMax = d.flashMax := rfl
  unfold Caps.maxBytes Device.trueSend
  split
  next => omega
  next =>
    split
    next => omega
    next => omega

/-- The preferred backend can hold what any of them can, up to the largest request. -/
lemma Device.Fits.maxBytes (h : d.Fits) :
    d.currentCaps.maxBytes = d.trueSend ∨
      (d.currentCaps.maxBytes = 2 ^ 32 - 1 ∧ 2 ^ 32 ≤ d.trueSend) := by
  obtain ⟨hsize, hcard, hpsram⟩ := h
  have hsd := sdMax_eq (d := d)
  have hp : d.currentCaps.psramMax = d.psramMax := rfl
  have hf : d.currentCaps.flashMax = d.flashMax := rfl
  unfold Caps.maxBytes Device.trueSend
  by_cases h0 : d.card.trueFree = 0
  · rw [if_neg (by omega)]
    left
    split
    next => omega
    next => omega
  · obtain ⟨hpc, hfc⟩ := hcard h0
    rw [max_eq_left (max_le hpc hfc)]
    split
    next => omega
    next => omega

lemma Device.Fits.exact (h : d.Fits) : d.Exact := by
  have hmax := h.maxBytes
  have hsend : d.backingMaxSend = d.currentCaps.maxBytes := rfl
  have hceil : PROTOCOL_CEILING = 2 ^ 28 := rfl
  have hmargin : RECEIVE_SAFETY_MARGIN = 2 ^ 18 := rfl
  have hsd := sdMax_eq (d := d)
  refine ⟨?_, ?_, fun s n now hn hnone => ?_, fun s n now hn hle => ?_⟩
  · unfold Device.effectiveMaxSend
    rw [hsend]
    omega
  · have hsize := h.size
    unfold Device.effectiveMaxReceive Device.backingMaxReceive Device.trueReceive
    have hfree : d.card.present = true → d.card.free = d.card.trueFree % 2 ^ 32 := fun hp => by
      rw [← hsd]
      exact (if_pos hp).symm
    split
    next hp =>
      rw [hfree hp]
      split
      next => omega
      next => omega
    next =>
      split
      next => omega
      next => omega
  · have hn : 0 < n.toNat := Nat.pos_of_ne_zero fun h0 => hn (UInt32.toNat_inj.mp h0)
    have := (placement_none hn).mp hnone
    have := n.toNat_lt
    omega
  · have hn : 0 < n.toNat := Nat.pos_of_ne_zero fun h0 => hn (UInt32.toNat_inj.mp h0)
    have hsize := h.size
    have := n.toNat_lt
    rw [placement_sd hn]
    omega

lemma ofNat_ne_zero (hn : 0 < n) (hlt : n < 2 ^ 32) : UInt32.ofNat n ≠ 0 := by
  intro h
  have := congrArg UInt32.toNat h
  rw [UInt32.toNat_ofNat_of_lt' hlt] at this
  exact absurd this (Nat.pos_iff_ne_zero.mp hn)

lemma Device.Exact.fits (h : d.Exact) : d.Fits := by
  have hsd := sdMax_eq (d := d)
  have hp := psramMax_le (d := d)
  have hf := flashMax_le (d := d)
  -- a request within what some backend can hold is within the limit of the preferred one
  have hmax : ∀ m, 0 < m → m < 2 ^ 32 → m ≤ d.trueSend → m ≤ d.currentCaps.maxBytes := by
    intro m hm hlt hle
    have hn : (UInt32.ofNat m).toNat = m := UInt32.toNat_ofNat_of_lt' hlt
    by_contra hgt
    have hnone : Buffers.placement {} (UInt32.ofNat m).toNat d.currentCaps 0 = none := by
      rw [hn, placement_none hm]
      exact not_le.mp hgt
    have := h.refuses {} (UInt32.ofNat m) 0 (ofNat_ne_zero hm hlt) hnone
    omega
  have hcard : ∀ m, 0 < m → m < 2 ^ 32 → m ≤ d.card.trueFree → m ≤ d.currentCaps.sdMax := by
    intro m hm hlt hle
    have hn : (UInt32.ofNat m).toNat = m := UInt32.toNat_ofNat_of_lt' hlt
    have := h.card {} (UInt32.ofNat m) 0 (ofNat_ne_zero hm hlt) (hn.le.trans hle)
    rw [hn] at this
    exact (placement_sd hm).mp this
  have hp' : d.currentCaps.psramMax = d.psramMax := rfl
  have hf' : d.currentCaps.flashMax = d.flashMax := rfl
  have htrue : d.trueSend = max d.card.trueFree (max d.psramMax d.flashMax) := rfl
  have hpref : d.currentCaps.maxBytes = if d.currentCaps.sdMax > 0 then d.currentCaps.sdMax
      else if d.currentCaps.psramMax > 0 then d.currentCaps.psramMax else d.currentCaps.flashMax :=
        rfl
  refine ⟨?_, fun h0 => ?_, fun h0 => ?_⟩
  · have := hcard (2 ^ 32 - 1)
    omega
  · have hpos := hcard (min d.card.trueFree (2 ^ 32 - 1)) (by omega) (by omega) (min_le_left _ _)
    rw [if_pos (by omega)] at hpref
    have := hmax d.psramMax
    have := hmax d.flashMax
    omega
  · rw [if_neg (by omega)] at hpref
    have := hmax d.flashMax
    split at hpref
    next => omega
    next => omega

end

/-- The limits are exact and the backends rightly chosen exactly when the card's free space fits and
the preferred backend is the largest. -/
theorem capacity_exact_iff (d : Device) : d.Exact ↔ d.Fits := ⟨Device.Exact.fits, Device.Fits.exact⟩

/-- A card of 8 GiB with exactly 4 GiB free, and nothing else to hold a message. -/
def halfFull : Device where
  card := { present := true, cachedTotal := 2 ^ 33, cachedUsed := 2 ^ 32 }
  psramFree := 0
  flashFree := 0
  userMaxSend := userMax 0
  userMaxReceive := userMax 0

/-- Its free space counts as none. -/
theorem not_exact_halfFull : ¬ ∀ d : Device, d.Exact := by
  intro h
  have hcard := (h halfFull).card {} 1 0 (by decide) (by decide)
  exact absurd hcard (by decide)

end URSupreme.Staging
