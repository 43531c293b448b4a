import Mathlib.Data.List.TakeWhile
import URSupreme.Radio.Improv
import URSupreme.Wifi.Transition

/-!
# The stored network

The EEPROM cells of the Wi-Fi network: `wifi_remote_eeprom_write_sta_creds` and the part of
`wifi_remote_init` that reads them back (`Remote.h`), with the two handlers that store a network,
`handle_wifi_configure` and `handle_wifi_settings`, down to the cells. The machinery around them is
that of the Wi-Fi transition, which keeps the network as strings.
-/

namespace URSupreme.Wifi
open Lib

def EEPROM_SIZE : Nat := 1024
def EEPROM_RESERVED : Nat := 200
def EEPROM_OFFSET : Nat := EEPROM_SIZE - EEPROM_RESERVED
def CONFIG_OFFSET : Nat := 0
def ADDR_CONF_SSID : Nat := 0x00
def ADDR_CONF_PSK : Nat := 0x21
def ADDR_CONF_WIFI : Nat := 0xBA
def WR_WIFI_STA : UInt8 := 0x01
def ERR_UNABLE_TO_CONNECT : UInt8 := 0x03

/-- `eeprom_addr`. -/
def eepromAddr (a : Nat) : Nat := a + EEPROM_OFFSET

/-- `config_addr`. -/
def configAddr (a : Nat) : Nat := a + CONFIG_OFFSET

/-- The cells of the EEPROM. -/
abbrev Cells := Nat → UInt8

/-- `eeprom_update`. -/
def eepromUpdate (m : Cells) (addr : Nat) (byte : UInt8) : Cells :=
  if m addr ≠ byte then Function.update m addr byte else m

/-- `strnlen`. -/
def strnlen (s : Bytes) (max : Nat) : Nat := min (cstr s).length max

/-- The byte of a string that goes into the `i`-th cell of its field. -/
def fieldByte (s : Bytes) (i : Nat) : UInt8 := if i < strnlen s 32 then s.getD i 0 else 0x00

/-- The loop over the first `n` cells of a field. -/
def writeField (m : Cells) (addr : Nat) (s : Bytes) (n : Nat) : Cells :=
  (List.range n).foldl (fun m i => eepromUpdate m (configAddr (addr + i)) (fieldByte s i)) m

/-- `wifi_remote_eeprom_write_sta_creds`. -/
def eepromWriteStaCreds (m : Cells) (ssid psk : Bytes) : Cells :=
  let m := writeField m ADDR_CONF_SSID ssid 33
  let m := writeField m ADDR_CONF_PSK psk 33
  eepromUpdate m (eepromAddr ADDR_CONF_WIFI) WR_WIFI_STA

/-- A cell as `wifi_remote_init` takes it: one that is erased ends the string. -/
def unerase (b : UInt8) : UInt8 := if b = 0xFF then 0x00 else b

/-- A field as `wifi_remote_init` reads it. -/
def readField (m : Cells) (addr : Nat) : Bytes :=
  cstr ((List.range 32).map fun i => unerase (m (configAddr (addr + i))))

/-- `wr_ssid` and `wr_psk` after `wifi_remote_init`. -/
def readCreds (m : Cells) : Creds := (readField m ADDR_CONF_SSID, readField m ADDR_CONF_PSK)

/-- The content of a `String`. -/
abbrev CString := { b : Bytes // 0 ∉ b }

/-- An attempt to store a network: a request with what `require_physical_auth` finds, or the data of
a serial packet. -/
inductive Attempt where
  | http (auth : Bool) (ssid psk : CString) (req : Nat)
  | improv (data : Bytes)

/-- What an attempt is told. -/
inductive Told where
  | http (reply : Reply)
  | errorState (err : UInt8)
  | currentState
  deriving DecidableEq

def Told.isError : Told → Bool
  | .http (.error _ _) => true
  | .errorState _ => true
  | _ => false

/-- The device with its EEPROM. -/
structure Device where
  remote : Remote := {}
  cells : Cells := fun _ => 0xFF

def Device.writeStaCreds (d : Device) (ssid psk : Bytes) : Device where
  remote := d.remote.writeStaCreds (cstr ssid) (cstr psk)
  cells := eepromWriteStaCreds d.cells ssid psk

/-- `handle_wifi_configure`. -/
def Device.configure (d : Device) (auth : Bool) (ssid psk : Bytes) (req : Nat) : Device × Reply :=
  if !auth then (d, .error 401 "identity_code_required") else
  if ssid.length = 0 ∨ 32 < ssid.length then (d, .error 400 "invalid_ssid") else
  if 32 < psk.length then (d, .error 400 "invalid_psk") else
  if d.remote.pending.parked ∨ d.remote.pending.pending then
    (d, .error 409 "provision_in_progress") else
  let d := d.writeStaCreds ssid psk
  if d.remote.mode = .ap ∨ d.remote.mode = .apsta then
    ({ d with remote := d.remote.park ssid psk req }, .parked)
  else (d, .saved)

/-- The SSID and the PSK in the data of a packet, if it is in order. -/
def settings (data : Bytes) : Option Creds :=
  if data.length < 2 then none else
  let ssidLen := (data.getD 0 0).toNat
  if ssidLen > 32 ∨ 1 + ssidLen + 1 > data.length then none else
  let pskLen := (data.getD (1 + ssidLen) 0).toNat
  if pskLen > 32 ∨ 1 + ssidLen + 1 + pskLen > data.length then none else
  some ((data.drop 1).take ssidLen, (data.drop (1 + ssidLen + 1)).take pskLen)

/-- `handle_wifi_settings`. -/
def Device.wifiSettings (d : Device) (data : Bytes) : Device × Told :=
  match settings data with
  | none => (d, .errorState Improv.ERR_INVALID_RPC_PACKET)
  | some (ssid, psk) =>
    let d := d.writeStaCreds ssid psk
    if d.remote.pending.parked ∨
      d.remote.pending.pending then (d, .errorState ERR_UNABLE_TO_CONNECT)
    else ({ d with remote := d.remote.provision (cstr ssid) (cstr psk) }, .currentState)

def Device.attempt (d : Device) : Attempt → Device × Told
  | .http auth ssid psk req => ((d.configure auth ssid.1 psk.1 req).1,
      .http (d.configure auth ssid.1 psk.1 req).2)
  | .improv data => d.wifiSettings data

/-- The network of an attempt. -/
def Attempt.creds : Attempt → Option Creds
  | .http _ ssid psk _ => some (ssid.1, psk.1)
  | .improv data => settings data

/-- What an attempt should do: one that is told of an error leaves the EEPROM as it is, and after
any other the network is read back. -/
structure Meets (d : Device) (a : Attempt) : Prop where
  refused : (d.attempt a).2.isError = true → (d.attempt a).1.cells = d.cells
  stored : (d.attempt a).2.isError = false → ∀ ssid psk, a.creds = some (ssid, psk) →
    0 ∉ ssid → 0 ∉ psk → ssid.length ≤ 32 → psk.length ≤ 32 →
    readCreds (d.attempt a).1.cells = (ssid, psk)

/-- A provision is under way. -/
def Device.Busy (d : Device) : Prop :=
  d.remote.pending.parked = true ∨ d.remote.pending.pending = true

/-- The EEPROM holds a network already, byte for byte, and the mode of the station. -/
structure Holds (m : Cells) (ssid psk : Bytes) : Prop where
  ssid : ∀ i < 33, m (configAddr (ADDR_CONF_SSID + i)) = fieldByte ssid i
  psk : ∀ i < 33, m (configAddr (ADDR_CONF_PSK + i)) = fieldByte psk i
  mode : m (eepromAddr ADDR_CONF_WIFI) = WR_WIFI_STA

/-- An attempt that is in order; serial settings that can be read are. -/
def Attempt.InOrder : Attempt → Prop
  | .http auth ssid psk _ => auth = true ∧ ssid.1 ≠ [] ∧ ssid.1.length ≤ 32 ∧ psk.1.length ≤ 32
  | .improv data => (settings data).isSome

/-- The condition: serial settings that come while a provision is under way are those stored
already, and the network of an attempt that is in order has no byte of an erased cell. -/
structure Safe (d : Device) (a : Attempt) : Prop where
  busy : d.Busy → ∀ data, a = .improv data → ∀ ssid psk, settings data = some (ssid, psk) →
    Holds d.cells ssid psk
  erased : ¬ d.Busy → a.InOrder → ∀ ssid psk, a.creds = some (ssid, psk) → 0 ∉ ssid → 0 ∉ psk →
    0xFF ∉ ssid ∧ 0xFF ∉ psk

section
variable {m : Cells} {addr n i j : Nat} {s ssid psk : Bytes} {b : UInt8} {d : Device} {a : Attempt}

lemma eepromUpdate_eq : eepromUpdate m addr b = Function.update m addr b := by
  unfold eepromUpdate
  split
  next => rfl
  next h =>
    rw [not_not] at h
    rw [← h, Function.update_eq_self]

/-- What a field holds after the loop. -/
lemma writeField_eq : writeField m addr s n j =
    if configAddr addr ≤ j ∧ j < configAddr addr + n then fieldByte s (j - configAddr addr)
    else m j := by
  induction n with
  | zero => exact (if_neg (by omega)).symm
  | succ n ih =>
    have hsucc : writeField m addr s (n + 1) =
        eepromUpdate (writeField m addr s n) (configAddr (addr + n)) (fieldByte s n) := by
      unfold writeField
      rw [List.range_succ, List.foldl_append]
      rfl
    have haddr : configAddr (addr + n) = configAddr addr + n := Nat.add_right_comm _ _ _
    rw [hsucc, eepromUpdate_eq, haddr]
    by_cases hj : j = configAddr addr + n
    · subst hj
      rw [Function.update_self, if_pos ⟨Nat.le_add_right _ _, Nat.lt_succ_self _⟩,
        Nat.add_sub_cancel_left]
    · rw [Function.update_of_ne hj, ih]
      by_cases hin : configAddr addr ≤ j ∧ j < configAddr addr + n
      · rw [if_pos hin, if_pos ⟨hin.1, by omega⟩]
      · rw [if_neg hin, if_neg (by omega)]

/-- The cells after a network is stored: its two fields, the mode, and what was there. -/
lemma write_eq : eepromWriteStaCreds m ssid psk j =
    if j = 1010 then WR_WIFI_STA
    else if 33 ≤ j ∧ j < 66 then fieldByte psk (j - 33)
    else if j < 33 then fieldByte ssid j
    else m j := by
  have hssid : configAddr ADDR_CONF_SSID = 0 := rfl
  have hpsk : configAddr ADDR_CONF_PSK = 33 := rfl
  have hmode : eepromAddr ADDR_CONF_WIFI = 1010 := rfl
  unfold eepromWriteStaCreds
  rw [eepromUpdate_eq, hmode]
  by_cases hj : j = 1010
  · subst hj
    rw [Function.update_self, if_pos rfl]
  · rw [Function.update_of_ne hj, if_neg hj, writeField_eq, writeField_eq, hssid, hpsk,
      Nat.sub_zero, Nat.zero_add]
    have hrange : (0 ≤ j ∧ j < 33) = (j < 33) := propext (and_iff_right (Nat.zero_le j))
    simp only [hrange]

lemma write_ssid (hi : i < 33) :
    eepromWriteStaCreds m ssid psk (configAddr (ADDR_CONF_SSID + i)) = fieldByte ssid i := by
  have haddr : configAddr (ADDR_CONF_SSID + i) = i := Nat.zero_add i
  rw [haddr, write_eq, if_neg (by omega), if_neg (by omega), if_pos hi]

lemma write_psk (hi : i < 33) :
    eepromWriteStaCreds m ssid psk (configAddr (ADDR_CONF_PSK + i)) = fieldByte psk i := by
  have haddr : configAddr (ADDR_CONF_PSK + i) = 33 + i := rfl
  rw [haddr, write_eq, if_neg (by omega), if_pos (by omega), Nat.add_sub_cancel_left]

/-- Storing a network changes nothing exactly if it is stored already. -/
lemma write_eq_self_iff : eepromWriteStaCreds m ssid psk = m ↔ Holds m ssid psk := by
  refine ⟨fun h => ⟨fun i hi => ?_, fun i hi => ?_, ?_⟩, fun h => funext fun j => ?_⟩
  · rw [← h]
    exact write_ssid hi
  · rw [← h]
    exact write_psk hi
  · rw [← h]
    exact write_eq.trans (if_pos rfl)
  · rw [write_eq]
    split
    next hj =>
      subst hj
      exact h.mode.symm
    next =>
      split
      next hj =>
        have hm := h.psk (j - 33) (by omega)
        have haddr : configAddr (ADDR_CONF_PSK + (j - 33)) = j := by
          show 33 + (j - 33) + 0 = j
          omega
        rw [haddr] at hm
        exact hm.symm
      next =>
        split
        next hj =>
          have hm := h.ssid j hj
          have haddr : configAddr (ADDR_CONF_SSID + j) = j := Nat.zero_add j
          rw [haddr] at hm
          exact hm.symm
        next => rfl

lemma cstr_eq_self (h : 0 ∉ s) : cstr s = s := by
  refine List.takeWhile_eq_self_iff.mpr fun b hb => decide_eq_true fun he => ?_
  exact h (he ▸ hb)

/-- The cells of a string that fits: the string, and zeros. -/
lemma map_fieldByte (h : 0 ∉ s) (hlen : s.length ≤ 32) :
    (List.range 32).map (fieldByte s) = s ++ List.replicate (32 - s.length) 0 := by
  have hn : strnlen s 32 = s.length := by
    unfold strnlen
    rw [cstr_eq_self h, min_eq_left hlen]
  refine List.ext_getElem? fun i => ?_
  rw [List.getElem?_map]
  obtain hlt | hge := lt_or_ge i 32
  · rw [List.getElem?_range hlt, Option.map_some]
    unfold fieldByte
    rw [hn]
    by_cases hi : i < s.length
    · rw [if_pos hi, List.getElem?_append_left hi, List.getD_eq_getElem?_getD,
        List.getElem?_eq_getElem hi]
      rfl
    · rw [if_neg hi, List.getElem?_append_right (not_lt.mp hi), List.getElem?_replicate,
        if_pos (by omega)]
  · rw [List.getElem?_eq_none (by rw [List.length_range]; exact hge), List.getElem?_eq_none]
    · rfl
    · rw [List.length_append, List.length_replicate]
      omega

/-- What is read of a stored string is the string exactly if it has no byte of an erased cell. -/
lemma read_iff (h : 0 ∉ s) (hlen : s.length ≤ 32)
    (hm : ∀ i < 32, m (configAddr (addr + i)) = fieldByte s i) :
    readField m addr = s ↔ 0xFF ∉ s := by
  have hread : readField m addr =
      cstr (s.map unerase ++ List.replicate (32 - s.length) 0) := by
    have hzero : unerase 0 = 0 := rfl
    have hcells : (List.range 32).map (fun i => unerase (m (configAddr (addr + i)))) =
        ((List.range 32).map (fieldByte s)).map unerase := by
      rw [List.map_map]
      exact List.map_congr_left fun i hi => congrArg unerase (hm i (List.mem_range.mp hi))
    unfold readField
    rw [hcells, map_fieldByte h hlen, List.map_append, List.map_replicate, hzero]
  rw [hread]
  refine ⟨fun he hff => ?_, fun hff => ?_⟩
  · have hpre : s <+: s.map unerase ++ List.replicate (32 - s.length) 0 := by
      conv_lhs => rw [← he]
      exact List.takeWhile_prefix _
    have heq : s = s.map unerase :=
      (List.prefix_of_prefix_length_le hpre (List.prefix_append _ _)
        (List.length_map ..).symm.le).eq_of_length (List.length_map ..).symm
    rw [heq] at h
    exact h (List.mem_map.mpr ⟨0xFF, hff, rfl⟩)
  · have hmap : s.map unerase = s := by
      have hid : ∀ b ∈ s, unerase b = b := fun b hb =>
        if_neg fun he : b = 0xFF => hff (he ▸ hb)
      exact (List.map_congr_left hid).trans (List.map_id s)
    have hall : ∀ b ∈ s, decide (b ≠ 0) = true := fun b hb => decide_eq_true fun he => h (he ▸ hb)
    have hzeros : ∀ n : Nat, (List.replicate n (0 : UInt8)).takeWhile (· ≠ 0) = [] := fun n => by
      cases n with
      | zero => rfl
      | succ n => rfl
    rw [hmap]
    unfold cstr
    rw [List.takeWhile_append_of_pos hall, hzeros, List.append_nil]

lemma length_settings {data : Bytes} (h : settings data = some (ssid, psk)) :
    ssid.length ≤ 32 ∧ psk.length ≤ 32 := by
  unfold settings at h
  dsimp only at h
  split at h
  next => cases h
  next =>
    split at h
    next => cases h
    next hs =>
      split at h
      next => cases h
      next hp =>
        obtain ⟨rfl, rfl⟩ := Prod.mk.inj (Option.some.inj h)
        rw [not_or, not_lt] at hs hp
        exact ⟨(List.length_take_le _ _).trans hs.1, (List.length_take_le _ _).trans hp.1⟩

/-- What is read back after a network was stored. -/
lemma readCreds_iff (hs : 0 ∉ ssid) (hp : 0 ∉ psk) (hslen : ssid.length ≤ 32)
    (hplen : psk.length ≤ 32) :
    readCreds (eepromWriteStaCreds m ssid psk) = (ssid, psk) ↔ 0xFF ∉ ssid ∧ 0xFF ∉ psk := by
  unfold readCreds
  rw [Prod.mk.injEq, read_iff hs hslen fun i hi => write_ssid (by omega),
    read_iff hp hplen fun i hi => write_psk (by omega)]

lemma cells_writeStaCreds :
    (d.writeStaCreds ssid psk).cells = eepromWriteStaCreds d.cells ssid psk := by
  rw [Device.writeStaCreds]

variable (ssid psk d) in
/-- A request is refused and changes nothing, or it stores its network. -/
lemma configure_spec (auth : Bool) (req : Nat) :
    ((d.Busy ∨ ¬ (auth = true ∧ ssid ≠ [] ∧ ssid.length ≤ 32 ∧ psk.length ≤ 32)) ∧
      (∃ status code, d.configure auth ssid psk req = (d, .error status code))) ∨
    ((¬ d.Busy ∧ auth = true ∧ ssid ≠ [] ∧ ssid.length ≤ 32 ∧ psk.length ≤ 32) ∧
      (d.configure auth ssid psk req).1.cells = eepromWriteStaCreds d.cells ssid psk ∧
      ∀ status code, (d.configure auth ssid psk req).2 ≠ .error status code) := by
  unfold Device.configure
  cases auth with
  | false => exact .inl ⟨.inr fun h => Bool.noConfusion h.1, _, _, rfl⟩
  | true =>
    have hauth : ¬ (!true) = true := Bool.false_ne_true
    rw [if_neg hauth]
    split
    next h =>
      refine .inl ⟨.inr fun hall => ?_, _, _, rfl⟩
      obtain h | h := h
      · exact hall.2.1 (List.length_eq_zero_iff.mp h)
      · exact absurd hall.2.2.1 (not_le.mpr h)
    next hssid =>
      rw [not_or, not_lt] at hssid
      split
      next h => exact .inl ⟨.inr fun hall => absurd hall.2.2.2 (not_le.mpr h), _, _, rfl⟩
      next hpsk =>
        split
        next h => exact .inl ⟨.inl h, _, _, rfl⟩
        next h =>
          have hne : ssid ≠ [] := fun e => hssid.1 (List.length_eq_zero_iff.mpr e)
          refine .inr ⟨⟨h, rfl, hne, hssid.2, not_lt.mp hpsk⟩, ?_⟩
          have hcells := @cells_writeStaCreds ssid psk d
          dsimp only
          generalize d.writeStaCreds ssid psk = d' at hcells
          split
          next => exact ⟨hcells, nofun⟩
          next => exact ⟨hcells, nofun⟩

variable (d) in
/-- Serial settings that cannot be read change nothing, and any others are stored. -/
lemma wifiSettings_spec (data : Bytes) :
    (settings data = none ∧ d.wifiSettings data = (d, .errorState Improv.ERR_INVALID_RPC_PACKET)) ∨
    ∃ ssid psk, settings data = some (ssid, psk) ∧
      (d.wifiSettings data).1.cells = eepromWriteStaCreds d.cells ssid psk ∧
      ((d.wifiSettings data).2.isError = true ↔ d.Busy) := by
  unfold Device.wifiSettings
  cases settings data with
  | none => exact .inl ⟨rfl, rfl⟩
  | some c =>
    obtain ⟨ssid, psk⟩ := c
    refine .inr ⟨ssid, psk, rfl, ?_⟩
    obtain ⟨hcells, hbusy⟩ : (d.writeStaCreds ssid psk).cells =
      eepromWriteStaCreds d.cells ssid psk ∧ (d.writeStaCreds ssid psk).Busy = d.Busy :=
      ⟨cells_writeStaCreds, rfl⟩
    dsimp only
    generalize d.writeStaCreds ssid psk = d' at hcells hbusy
    rw [← hbusy]
    split
    next h => exact ⟨hcells, iff_of_true rfl h⟩
    next h => exact ⟨hcells, iff_of_false Bool.false_ne_true h⟩

lemma cstr_zero : 0 ∉ cstr s := fun h => by
  have := List.mem_takeWhile_imp h
  exact absurd rfl (of_decide_eq_true this)

/-- A string is stored as far as C reads it. -/
lemma fieldByte_cstr : fieldByte (cstr s) i = fieldByte s i := by
  have hn : strnlen (cstr s) 32 = strnlen s 32 := by
    unfold strnlen
    rw [cstr_eq_self cstr_zero]
  unfold fieldByte
  rw [hn]
  split
  next hi =>
    have hlt : i < (cstr s).length := lt_of_lt_of_le hi (min_le_left _ _)
    obtain ⟨rest, hrest⟩ : cstr s <+: s := List.takeWhile_prefix _
    conv_rhs => rw [← hrest]
    rw [List.getD_eq_getElem?_getD, List.getD_eq_getElem?_getD, List.getElem?_append_left hlt]
  next => rfl

/-- The string that the transition keeps is what is read from the cells. -/
def Device.Agrees (d : Device) : Prop :=
  readCreds d.cells = (d.remote.eeprom.ssid, d.remote.eeprom.psk)

/-- The machinery takes an attempt as the transition does. -/
theorem remote_configure {auth : Bool} {req : Nat} (hs : 0 ∉ ssid) (hp : 0 ∉ psk) :
    (d.configure auth ssid psk req).1.remote = d.remote.step req (.configure auth ssid psk) ∧
      (d.configure auth ssid psk req).2 = (d.remote.configure auth ssid psk req).2 := by
  have hremote : (d.writeStaCreds ssid psk).remote = d.remote.writeStaCreds ssid psk := by
    rw [Device.writeStaCreds, cstr_eq_self hs, cstr_eq_self hp]
  have hstep : d.remote.step req (.configure auth ssid psk) =
      (d.remote.configure auth ssid psk req).1 := rfl
  rw [hstep]
  unfold Device.configure Remote.configure
  dsimp only
  generalize d.writeStaCreds ssid psk = d' at hremote ⊢
  rw [hremote]
  split
  next => exact ⟨rfl, rfl⟩
  next =>
    split
    next => exact ⟨rfl, rfl⟩
    next =>
      split
      next => exact ⟨rfl, rfl⟩
      next =>
        split
        next => exact ⟨rfl, rfl⟩
        next =>
          split
          next => exact ⟨rfl, rfl⟩
          next => exact ⟨hremote, rfl⟩

theorem remote_wifiSettings {data : Bytes} (h : settings data = some (ssid, psk)) :
    (d.wifiSettings data).1.remote = d.remote.wifiSettings ssid psk := by
  obtain ⟨hs, hp⟩ := length_settings h
  have hremote : (d.writeStaCreds ssid psk).remote = d.remote.writeStaCreds (cstr ssid)
    (cstr psk) := by
    rw [Device.writeStaCreds]
  unfold Device.wifiSettings Remote.wifiSettings
  rw [h, List.take_of_length_le hs, List.take_of_length_le hp]
  dsimp only
  generalize d.writeStaCreds ssid psk = d' at hremote ⊢
  rw [hremote]
  split
  next => exact hremote
  next => rfl

/-- A network that is stored is the one that the transition keeps, as long as it has no byte of an
erased cell. -/
theorem agrees_writeStaCreds (hs : 0xFF ∉ cstr ssid) (hp : 0xFF ∉ cstr psk)
    (hslen : ssid.length ≤ 32) (hplen : psk.length ≤ 32) : (d.writeStaCreds ssid psk).Agrees := by
  have hshort : ∀ s : Bytes, s.length ≤ 32 → (cstr s).length ≤ 32 := fun s h =>
    (List.takeWhile_prefix _).length_le.trans h
  have hread : readCreds (d.writeStaCreds ssid psk).cells = (cstr ssid, cstr psk) := by
    rw [cells_writeStaCreds]
    have hssid := (read_iff (m := eepromWriteStaCreds d.cells ssid psk) cstr_zero
      (hshort ssid hslen)
      fun i hi => (write_ssid (by omega)).trans fieldByte_cstr.symm).mpr hs
    have hpsk := (read_iff (m := eepromWriteStaCreds d.cells ssid psk) cstr_zero (hshort psk hplen)
      fun i hi => (write_psk (by omega)).trans fieldByte_cstr.symm).mpr hp
    rw [readCreds, hssid, hpsk]
  have hremote : (d.writeStaCreds ssid psk).remote = d.remote.writeStaCreds (cstr ssid)
    (cstr psk) := by
    rw [Device.writeStaCreds]
  unfold Device.Agrees
  rw [hread, hremote, Remote.writeStaCreds, List.take_of_length_le (hshort ssid hslen),
    List.take_of_length_le (hshort psk hplen)]

lemma meets_http {auth : Bool} {ssid psk : CString} {req : Nat} :
    Meets d (.http auth ssid psk req) ↔ Safe d (.http auth ssid psk req) := by
  obtain ⟨ssid, hs0⟩ := ssid
  obtain ⟨psk, hp0⟩ := psk
  obtain ⟨hno, status, code, he⟩ | ⟨⟨hfree, hauth, hne, hslen, hplen⟩, hcells, hok⟩ :=
    configure_spec ssid psk d auth req
  · have hattempt : d.attempt (.http auth ⟨ssid, hs0⟩ ⟨psk, hp0⟩ req) =
        (d, .http (.error status code)) := by
      unfold Device.attempt
      dsimp only
      rw [he]
    refine iff_of_true ⟨fun _ => ?_, fun h => ?_⟩ ⟨fun _ _ => nofun, fun hfree hin => ?_⟩
    · rw [hattempt]
    · rw [hattempt] at h
      cases h
    · exact absurd hin (hno.resolve_left hfree)
  · have herr : (d.attempt (.http auth ⟨ssid, hs0⟩ ⟨psk, hp0⟩ req)).2.isError = false := by
      unfold Device.attempt
      dsimp only
      generalize (d.configure auth ssid psk req).2 = reply at hok
      cases reply with
      | error status code => exact absurd rfl (hok status code)
      | saved => rfl
      | queued => rfl
      | parked => rfl
    have hread := readCreds_iff (m := d.cells) hs0 hp0 hslen hplen
    rw [← hcells] at hread
    refine ⟨fun h => ⟨fun _ _ => nofun, fun _ _ s p hc _ _ => ?_⟩, fun h => ⟨fun h' => ?_, ?_⟩⟩
    · obtain ⟨rfl, rfl⟩ := Prod.mk.inj (Option.some.inj hc)
      exact hread.mp (h.stored herr _ _ rfl hs0 hp0 hslen hplen)
    · cases herr.symm.trans h'
    · intro _ s p hc _ _ _ _
      obtain ⟨rfl, rfl⟩ := Prod.mk.inj (Option.some.inj hc)
      exact hread.mpr (h.erased hfree ⟨hauth, hne, hslen, hplen⟩ _ _ rfl hs0 hp0)

lemma meets_improv {data : Bytes} : Meets d (.improv data) ↔ Safe d (.improv data) := by
  obtain ⟨hnone, he⟩ | ⟨ssid, psk, hset, hcells, herr⟩ := wifiSettings_spec d data
  · have hattempt : d.attempt (.improv data) = (d, .errorState Improv.ERR_INVALID_RPC_PACKET) := he
    refine iff_of_true ⟨fun _ => ?_, fun h => ?_⟩ ⟨fun _ _ hd s p hs => ?_, fun _ _ s p hs => ?_⟩
    · rw [hattempt]
    · rw [hattempt] at h
      cases h
    · cases hd
      cases hnone.symm.trans hs
    · cases hnone.symm.trans hs
  · obtain ⟨hslen, hplen⟩ := length_settings hset
    refine ⟨fun h => ⟨fun hbusy _ hd s p hs => ?_, fun hfree _ s p hs hs0 hp0 => ?_⟩,
      fun h => ⟨fun h' => ?_, fun h' s p hs hs0 hp0 _ _ => ?_⟩⟩
    · cases hd
      obtain ⟨rfl, rfl⟩ := Prod.mk.inj (Option.some.inj (hset.symm.trans hs))
      exact write_eq_self_iff.mp (hcells.symm.trans (h.refused (herr.mpr hbusy)))
    · obtain ⟨rfl, rfl⟩ := Prod.mk.inj (Option.some.inj (hset.symm.trans hs))
      have hok : (d.attempt (.improv data)).2.isError = false :=
        Bool.eq_false_iff.mpr fun he => hfree (herr.mp he)
      have hread := h.stored hok _ _ hset hs0 hp0 hslen hplen
      have hcells' : (d.attempt (.improv data)).1.cells = eepromWriteStaCreds d.cells ssid psk :=
        hcells
      rw [hcells'] at hread
      exact (readCreds_iff hs0 hp0 hslen hplen).mp hread
    · exact hcells.trans (write_eq_self_iff.mpr (h.busy (herr.mp h') _ rfl _ _ hset))
    · obtain ⟨rfl, rfl⟩ := Prod.mk.inj (Option.some.inj (hset.symm.trans hs))
      have hfree : ¬ d.Busy := fun hb => Bool.false_ne_true (h'.symm.trans (herr.mpr hb))
      have hcells' : (d.attempt (.improv data)).1.cells = eepromWriteStaCreds d.cells ssid psk :=
        hcells
      rw [hcells']
      refine (readCreds_iff hs0 hp0 hslen hplen).mpr (h.erased hfree ?_ _ _ hset hs0 hp0)
      exact Option.isSome_iff_exists.mpr ⟨_, hset⟩

end

/-- An attempt does what it should exactly if it is safe: no serial settings while a provision is
under way, unless they are stored already, and no network with a byte of an erased cell. -/
theorem meets_iff (d : Device) (a : Attempt) : Meets d a ↔ Safe d a := by
  cases a with
  | http auth ssid psk req => exact meets_http
  | improv data => exact meets_improv

/-- Serial settings that are told that the device is busy have been stored. -/
theorem not_meets_busy : ¬ ∀ (d : Device) (a : Attempt), Meets d a := by
  intro h
  let d : Device := { remote := { pending := { pending := true } } }
  obtain ⟨hnone, -⟩ | ⟨ssid, psk, hset, hcells, herr⟩ :=
    wifiSettings_spec d [1, 0x61, 0]
  · cases hnone
  · have hk := (h d (.improv [1, 0x61, 0])).refused (herr.mpr (.inr rfl))
    obtain ⟨rfl, rfl⟩ := Prod.mk.inj (Option.some.inj hset)
    have h0 := congrFun (hcells.symm.trans hk) 0
    rw [write_eq] at h0
    exact absurd h0 (by decide)

end URSupreme.Wifi
