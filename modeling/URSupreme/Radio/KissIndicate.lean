import URSupreme.Radio.SerialInput

/-!
# KISS frames to the host

`escaped_serial_write` and the functions `kiss_indicate_*` of `Utilities.h`, in the build for the
T-Beam Supreme, and the decoding that KISS asks of the host. Most values go out escaped, but some go
out as they are, and the frame is good only as long as these are not bytes of the framing. What is a
float in the source comes in as the number that is sent.
-/

namespace URSupreme.Kiss
open Lib Radio

def CMD_FREQUENCY : UInt8 := 0x01
def CMD_BANDWIDTH : UInt8 := 0x02
def CMD_TXPOWER : UInt8 := 0x03
def CMD_SF : UInt8 := 0x04
def CMD_CR : UInt8 := 0x05
def CMD_RADIO_STATE : UInt8 := 0x06
def CMD_RADIO_LOCK : UInt8 := 0x07
def CMD_DETECT : UInt8 := 0x08
def CMD_IMPLICIT : UInt8 := 0x09
def CMD_ST_ALOCK : UInt8 := 0x0B
def CMD_LT_ALOCK : UInt8 := 0x0C
def CMD_PROMISC : UInt8 := 0x0E
def CMD_READY : UInt8 := 0x0F
def CMD_STAT_RX : UInt8 := 0x21
def CMD_STAT_TX : UInt8 := 0x22
def CMD_STAT_RSSI : UInt8 := 0x23
def CMD_STAT_SNR : UInt8 := 0x24
def CMD_STAT_CHTM : UInt8 := 0x25
def CMD_STAT_PHYPRM : UInt8 := 0x26
def CMD_STAT_BAT : UInt8 := 0x27
def CMD_STAT_CSMA : UInt8 := 0x28
def CMD_STAT_TEMP : UInt8 := 0x29
def CMD_RANDOM : UInt8 := 0x40
def CMD_FB_EXT : UInt8 := 0x41
def CMD_FB_READ : UInt8 := 0x42
def CMD_BOARD : UInt8 := 0x47
def CMD_PLATFORM : UInt8 := 0x48
def CMD_MCU : UInt8 := 0x49
def CMD_FW_VERSION : UInt8 := 0x50
def CMD_RESET : UInt8 := 0x55
def CMD_RESET_BYTE : UInt8 := 0xF8
def CMD_DEV_HASH : UInt8 := 0x56
def CMD_HASHES : UInt8 := 0x60
def CMD_BT_PIN : UInt8 := 0x62
def CMD_DISP_READ : UInt8 := 0x66
def CMD_LOG : UInt8 := 0x80
def CMD_ERROR : UInt8 := 0x90
def DETECT_RESP : UInt8 := 0x46
def MAJ_VERS : UInt8 := 0x01
def MIN_VERS : UInt8 := 0x56
def PLATFORM : UInt8 := 0x80
def BOARD_MODEL : UInt8 := 0x3D
def MCU_VARIANT : UInt8 := 0x81
def DEV_HASH_LEN : ℕ := 32
def rssi_offset : ℤ := 157

/-- The variables that are reported. -/
structure Vars where
  radio_online : Bool := false
  stat_rx : UInt32 := 0
  stat_tx : UInt32 := 0
  last_rssi : ℤ := -292
  last_snr_raw : UInt8 := 0x80
  radio_locked : Bool := true
  lora_sf : ℤ := 0
  lora_cr : ℤ := 5
  implicit_l : UInt8 := 0
  lora_txp : ℤ := 0xFF
  lora_bw : UInt32 := 0
  lora_freq : UInt32 := 0
  /-- the limits, in hundredths of a percent -/
  st_airtime_limit : UInt16 := 0
  lt_airtime_limit : UInt16 := 100
  airtime : UInt16 := 0
  longterm_airtime : UInt16 := 0
  total_channel_util : UInt16 := 0
  longterm_channel_util : UInt16 := 0
  current_rssi : ℤ := -292
  noise_floor : ℤ := -292
  interference_detected : Bool := false
  cw_band : UInt8 := 1
  cw_min : UInt8 := 0
  cw_max : UInt8 := 15
  /-- in microseconds -/
  lora_symbol_time : UInt16 := 0
  lora_symbol_rate : UInt16 := 0
  lora_preamble_symbols : UInt16 := 0
  lora_preamble_time_ms : UInt16 := 0
  csma_slot_ms : UInt16 := 0
  difs_ms : UInt16 := 0
  battery_state : UInt8 := 0
  battery_percent : UInt8 := 0
  /-- with its offset -/
  pmu_temp : UInt8 := 0
  bt_ssp_pin : UInt32 := 0
  disp_ext_fb : Bool := false
  dev_hash : Fin DEV_HASH_LEN → UInt8 := fun _ => 0
  dev_firmware_hash_target : Fin DEV_HASH_LEN → UInt8 := fun _ => 0
  dev_firmware_hash : Fin DEV_HASH_LEN → UInt8 := fun _ => 0
  dev_bootloader_hash : Fin DEV_HASH_LEN → UInt8 := fun _ => 0
  dev_partition_table_hash : Fin DEV_HASH_LEN → UInt8 := fun _ => 0
  fb : Fin 512 → UInt8 := fun _ => 0
  disp_area : Fin 512 → UInt8 := fun _ => 0
  stat_area : Fin 512 → UInt8 := fun _ => 0
  promisc : Bool := false

/-- `escaped_serial_write`. -/
def escapedSerialWrite (byte : UInt8) : Bytes :=
  let (out, byte) := if byte = FEND then ([FESC], TFEND) else ([], byte)
  let (out, byte) := if byte = FESC then (out ++ [FESC], TFESC) else (out, byte)
  out ++ [byte]

/-- A call of `serial_write` or of `escaped_serial_write`. -/
inductive Out where
  | raw (byte : UInt8)
  | escaped (byte : UInt8)
  deriving DecidableEq, Repr

def Out.byte : Out → UInt8
  | .raw byte | .escaped byte => byte

def Out.bytes : Out → Bytes
  | .raw byte => [byte]
  | .escaped byte => escapedSerialWrite byte

/-- What all the functions do: `FEND`, the command, the values and `FEND`. -/
def kissIndicate (command : UInt8) (values : List Out) : Bytes :=
  FEND :: command :: values.flatMap Out.bytes ++ [FEND]

/-- `(uint8_t)n`. -/
def toByte (n : ℤ) : UInt8 := UInt8.ofNat (n % 256).toNat

def be16 (v : UInt16) : Bytes := [(v >>> 8).toUInt8, v.toUInt8]

def be32 (v : UInt32) : Bytes :=
  [(v >>> 24).toUInt8, (v >>> 16).toUInt8, (v >>> 8).toUInt8, v.toUInt8]

/-- The bytes of an array. -/
def array {n : ℕ} (a : Fin n → UInt8) : Bytes := (List.finRange n).map a

variable (v : Vars)

def kissIndicateReset : Bytes := kissIndicate CMD_RESET [.raw CMD_RESET_BYTE]

def kissIndicateError (error_code : UInt8) : Bytes := kissIndicate CMD_ERROR [.raw error_code]

/-- A byte in the loop of `kiss_indicate_log`. -/
def logByte (b : UInt8) : Bytes :=
  if b = FEND then [FESC, TFEND] else if b = FESC then [FESC, TFESC] else [b]

/-- `kiss_indicate_log`, which escapes for itself; `msg` ends at its first zero. -/
def kissIndicateLog (level : UInt8) (msg : Bytes) : Bytes :=
  let body := (msg.takeWhile (· ≠ 0)).take 240
  [FEND, CMD_LOG, level] ++ body.flatMap logByte ++ [FEND]

def kissIndicateRadiostate : Bytes :=
  kissIndicate CMD_RADIO_STATE [.raw v.radio_online.toUInt8]

def kissIndicateStatRx : Bytes := kissIndicate CMD_STAT_RX ((be32 v.stat_rx).map .escaped)

def kissIndicateStatTx : Bytes := kissIndicate CMD_STAT_TX ((be32 v.stat_tx).map .escaped)

def kissIndicateStatRssi : Bytes :=
  kissIndicate CMD_STAT_RSSI [.escaped (toByte (v.last_rssi + rssi_offset))]

def kissIndicateStatSnr : Bytes := kissIndicate CMD_STAT_SNR [.escaped v.last_snr_raw]

def kissIndicateRadioLock : Bytes := kissIndicate CMD_RADIO_LOCK [.raw v.radio_locked.toUInt8]

def kissIndicateSpreadingfactor : Bytes := kissIndicate CMD_SF [.raw (toByte v.lora_sf)]

def kissIndicateCodingrate : Bytes := kissIndicate CMD_CR [.raw (toByte v.lora_cr)]

def kissIndicateImplicitLength : Bytes := kissIndicate CMD_IMPLICIT [.raw v.implicit_l]

def kissIndicateTxpower : Bytes := kissIndicate CMD_TXPOWER [.raw (toByte v.lora_txp)]

def kissIndicateBandwidth : Bytes := kissIndicate CMD_BANDWIDTH ((be32 v.lora_bw).map .escaped)

def kissIndicateFrequency : Bytes := kissIndicate CMD_FREQUENCY ((be32 v.lora_freq).map .escaped)

def kissIndicateStAlock : Bytes :=
  kissIndicate CMD_ST_ALOCK ((be16 v.st_airtime_limit).map .escaped)

def kissIndicateLtAlock : Bytes :=
  kissIndicate CMD_LT_ALOCK ((be16 v.lt_airtime_limit).map .escaped)

/-- The values of `kiss_indicate_channel_stats`. -/
def channelStats : Bytes :=
  be16 v.airtime ++ be16 v.longterm_airtime ++ be16 v.total_channel_util ++
    be16 v.longterm_channel_util ++ [toByte (v.current_rssi + rssi_offset),
      toByte (v.noise_floor + rssi_offset),
      if v.interference_detected then toByte (v.current_rssi + rssi_offset) else 0xFF]

def kissIndicateChannelStats : Bytes := kissIndicate CMD_STAT_CHTM ((channelStats v).map .escaped)

def kissIndicateCsmaStats : Bytes :=
  kissIndicate CMD_STAT_CSMA [.escaped v.cw_band, .escaped v.cw_min, .escaped v.cw_max]

/-- The values of `kiss_indicate_phy_stats`. -/
def phyStats : Bytes :=
  be16 v.lora_symbol_time ++ be16 v.lora_symbol_rate ++ be16 v.lora_preamble_symbols ++
    be16 v.lora_preamble_time_ms ++ be16 v.csma_slot_ms ++ be16 v.difs_ms

def kissIndicatePhyStats : Bytes := kissIndicate CMD_STAT_PHYPRM ((phyStats v).map .escaped)

def kissIndicateBattery : Bytes :=
  kissIndicate CMD_STAT_BAT [.escaped v.battery_state, .escaped v.battery_percent]

def kissIndicateTemperature : Bytes := kissIndicate CMD_STAT_TEMP [.escaped v.pmu_temp]

def kissIndicateBtpin : Bytes := kissIndicate CMD_BT_PIN ((be32 v.bt_ssp_pin).map .escaped)

def kissIndicateRandom (byte : UInt8) : Bytes := kissIndicate CMD_RANDOM [.raw byte]

def kissIndicateFbstate : Bytes :=
  kissIndicate CMD_FB_EXT [.raw (if v.disp_ext_fb then 0x01 else 0x00)]

def kissIndicateDeviceHash : Bytes := kissIndicate CMD_DEV_HASH ((array v.dev_hash).map .escaped)

def kissIndicateTargetFwHash : Bytes :=
  kissIndicate CMD_HASHES (.raw 0x01 :: (array v.dev_firmware_hash_target).map .escaped)

def kissIndicateFwHash : Bytes :=
  kissIndicate CMD_HASHES (.raw 0x02 :: (array v.dev_firmware_hash).map .escaped)

def kissIndicateBootloaderHash : Bytes :=
  kissIndicate CMD_HASHES (.raw 0x03 :: (array v.dev_bootloader_hash).map .escaped)

def kissIndicatePartitionTableHash : Bytes :=
  kissIndicate CMD_HASHES (.raw 0x04 :: (array v.dev_partition_table_hash).map .escaped)

def kissIndicateFb : Bytes := kissIndicate CMD_FB_READ ((array v.fb).map .escaped)

def kissIndicateDisp : Bytes :=
  kissIndicate CMD_DISP_READ ((array v.disp_area).map .escaped ++ (array v.stat_area).map .escaped)

def kissIndicateReady : Bytes := kissIndicate CMD_READY [.raw 0x01]

def kissIndicateNotReady : Bytes := kissIndicate CMD_READY [.raw 0x00]

def kissIndicatePromisc : Bytes :=
  kissIndicate CMD_PROMISC [.raw (if v.promisc then 0x01 else 0x00)]

def kissIndicateDetect : Bytes := kissIndicate CMD_DETECT [.raw DETECT_RESP]

def kissIndicateVersion : Bytes := kissIndicate CMD_FW_VERSION [.raw MAJ_VERS, .raw MIN_VERS]

def kissIndicatePlatform : Bytes := kissIndicate CMD_PLATFORM [.raw PLATFORM]

def kissIndicateBoard : Bytes := kissIndicate CMD_BOARD [.raw BOARD_MODEL]

def kissIndicateMcu : Bytes := kissIndicate CMD_MCU [.raw MCU_VARIANT]

/-! ### The calls -/

/-- A call of one of the functions. -/
inductive Call where
  | reset
  | error (error_code : UInt8)
  | log (level : UInt8) (msg : Bytes)
  | radiostate | stat_rx | stat_tx | stat_rssi | stat_snr | radio_lock | spreadingfactor | codingrate
  | implicit_length | txpower | bandwidth | frequency | st_alock | lt_alock | channel_stats
  | csma_stats | phy_stats | battery | temperature | btpin
  | random (byte : UInt8)
  | fbstate | device_hash | target_fw_hash | fw_hash | bootloader_hash | partition_table_hash | fb
  | disp | ready | not_ready | promisc | detect | version | platform | board | mcu
  deriving DecidableEq, Repr

/-- What a call puts into the stream. -/
def Call.emit : Call → Bytes
  | .reset => kissIndicateReset
  | .error error_code => kissIndicateError error_code
  | .log level msg => kissIndicateLog level msg
  | .radiostate => kissIndicateRadiostate v
  | .stat_rx => kissIndicateStatRx v
  | .stat_tx => kissIndicateStatTx v
  | .stat_rssi => kissIndicateStatRssi v
  | .stat_snr => kissIndicateStatSnr v
  | .radio_lock => kissIndicateRadioLock v
  | .spreadingfactor => kissIndicateSpreadingfactor v
  | .codingrate => kissIndicateCodingrate v
  | .implicit_length => kissIndicateImplicitLength v
  | .txpower => kissIndicateTxpower v
  | .bandwidth => kissIndicateBandwidth v
  | .frequency => kissIndicateFrequency v
  | .st_alock => kissIndicateStAlock v
  | .lt_alock => kissIndicateLtAlock v
  | .channel_stats => kissIndicateChannelStats v
  | .csma_stats => kissIndicateCsmaStats v
  | .phy_stats => kissIndicatePhyStats v
  | .battery => kissIndicateBattery v
  | .temperature => kissIndicateTemperature v
  | .btpin => kissIndicateBtpin v
  | .random byte => kissIndicateRandom byte
  | .fbstate => kissIndicateFbstate v
  | .device_hash => kissIndicateDeviceHash v
  | .target_fw_hash => kissIndicateTargetFwHash v
  | .fw_hash => kissIndicateFwHash v
  | .bootloader_hash => kissIndicateBootloaderHash v
  | .partition_table_hash => kissIndicatePartitionTableHash v
  | .fb => kissIndicateFb v
  | .disp => kissIndicateDisp v
  | .ready => kissIndicateReady
  | .not_ready => kissIndicateNotReady
  | .promisc => kissIndicatePromisc v
  | .detect => kissIndicateDetect
  | .version => kissIndicateVersion
  | .platform => kissIndicatePlatform
  | .board => kissIndicateBoard
  | .mcu => kissIndicateMcu

/-- The command of a call, and the values that it reports: what the host is to read. -/
def Call.report : Call → UInt8 × Bytes
  | .reset => (CMD_RESET, [CMD_RESET_BYTE])
  | .error error_code => (CMD_ERROR, [error_code])
  | .log level msg => (CMD_LOG, level :: (msg.takeWhile (· ≠ 0)).take 240)
  | .radiostate => (CMD_RADIO_STATE, [v.radio_online.toUInt8])
  | .stat_rx => (CMD_STAT_RX, beBytes 4 v.stat_rx.toNat)
  | .stat_tx => (CMD_STAT_TX, beBytes 4 v.stat_tx.toNat)
  | .stat_rssi => (CMD_STAT_RSSI, [toByte (v.last_rssi + rssi_offset)])
  | .stat_snr => (CMD_STAT_SNR, [v.last_snr_raw])
  | .radio_lock => (CMD_RADIO_LOCK, [v.radio_locked.toUInt8])
  | .spreadingfactor => (CMD_SF, [toByte v.lora_sf])
  | .codingrate => (CMD_CR, [toByte v.lora_cr])
  | .implicit_length => (CMD_IMPLICIT, [v.implicit_l])
  | .txpower => (CMD_TXPOWER, [toByte v.lora_txp])
  | .bandwidth => (CMD_BANDWIDTH, beBytes 4 v.lora_bw.toNat)
  | .frequency => (CMD_FREQUENCY, beBytes 4 v.lora_freq.toNat)
  | .st_alock => (CMD_ST_ALOCK, beBytes 2 v.st_airtime_limit.toNat)
  | .lt_alock => (CMD_LT_ALOCK, beBytes 2 v.lt_airtime_limit.toNat)
  | .channel_stats => (CMD_STAT_CHTM, beBytes 2 v.airtime.toNat ++
      beBytes 2 v.longterm_airtime.toNat ++ beBytes 2 v.total_channel_util.toNat ++
      beBytes 2 v.longterm_channel_util.toNat ++ [toByte (v.current_rssi + rssi_offset),
        toByte (v.noise_floor + rssi_offset),
        if v.interference_detected then toByte (v.current_rssi + rssi_offset) else 0xFF])
  | .csma_stats => (CMD_STAT_CSMA, [v.cw_band, v.cw_min, v.cw_max])
  | .phy_stats => (CMD_STAT_PHYPRM, beBytes 2 v.lora_symbol_time.toNat ++
      beBytes 2 v.lora_symbol_rate.toNat ++ beBytes 2 v.lora_preamble_symbols.toNat ++
      beBytes 2 v.lora_preamble_time_ms.toNat ++ beBytes 2 v.csma_slot_ms.toNat ++
      beBytes 2 v.difs_ms.toNat)
  | .battery => (CMD_STAT_BAT, [v.battery_state, v.battery_percent])
  | .temperature => (CMD_STAT_TEMP, [v.pmu_temp])
  | .btpin => (CMD_BT_PIN, beBytes 4 v.bt_ssp_pin.toNat)
  | .random byte => (CMD_RANDOM, [byte])
  | .fbstate => (CMD_FB_EXT, [if v.disp_ext_fb then 0x01 else 0x00])
  | .device_hash => (CMD_DEV_HASH, array v.dev_hash)
  | .target_fw_hash => (CMD_HASHES, 0x01 :: array v.dev_firmware_hash_target)
  | .fw_hash => (CMD_HASHES, 0x02 :: array v.dev_firmware_hash)
  | .bootloader_hash => (CMD_HASHES, 0x03 :: array v.dev_bootloader_hash)
  | .partition_table_hash => (CMD_HASHES, 0x04 :: array v.dev_partition_table_hash)
  | .fb => (CMD_FB_READ, array v.fb)
  | .disp => (CMD_DISP_READ, array v.disp_area ++ array v.stat_area)
  | .ready => (CMD_READY, [0x01])
  | .not_ready => (CMD_READY, [0x00])
  | .promisc => (CMD_PROMISC, [if v.promisc then 0x01 else 0x00])
  | .detect => (CMD_DETECT, [DETECT_RESP])
  | .version => (CMD_FW_VERSION, [MAJ_VERS, MIN_VERS])
  | .platform => (CMD_PLATFORM, [PLATFORM])
  | .board => (CMD_BOARD, [BOARD_MODEL])
  | .mcu => (CMD_MCU, [MCU_VARIANT])

/-- The byte of a call that goes out as it is and can be any. -/
def Call.rawByte : Call → Option UInt8
  | .error error_code => some error_code
  | .log level _ => some level
  | .spreadingfactor => some (toByte v.lora_sf)
  | .codingrate => some (toByte v.lora_cr)
  | .implicit_length => some v.implicit_l
  | .txpower => some (toByte v.lora_txp)
  | .random byte => some byte
  | _ => none

/-- The calls of a run, with the variables at the time of each. -/
def emitted (calls : List (Vars × Call)) : Bytes := calls.flatMap fun c => c.2.emit c.1

/-! ### Decoding -/

/-- Escaped bytes as they were; `esc` tells whether the byte before them was `FESC`. -/
def unescape : Bool → Bytes → Bytes
  | _, [] => []
  | esc, b :: bytes =>
    if b = FESC then unescape true bytes
    else
      (if esc ∧ b = TFEND then FEND else if esc ∧ b = TFESC then FESC else b) ::
        unescape false bytes

/-- What stands between one `FEND` and the next, with `piece` so far; nothing at all is no frame. -/
def pieces : Bytes → Bytes → List Bytes
  | _, [] => []
  | piece, b :: bytes =>
    if b = FEND then if piece = [] then pieces [] bytes else piece :: pieces [] bytes
    else pieces (piece ++ [b]) bytes

/-- The command of a piece, and what it carries. -/
def content : Bytes → UInt8 × Bytes
  | [] => (CMD_UNKNOWN, [])
  | command :: bytes => (command, unescape false bytes)

/-- The frames of a stream. -/
def decode (bytes : Bytes) : List (UInt8 × Bytes) := (pieces [] bytes).map content

variable {v} {bytes bytes' piece : Bytes} {b command : UInt8} {esc : Bool} {values : List Out}

lemma pieces_append : pieces piece (bytes ++ FEND :: bytes') =
    pieces piece (bytes ++ [FEND]) ++ pieces [] bytes' := by
  induction bytes generalizing piece with
  | nil => simp [pieces, apply_ite (· ++ pieces [] bytes')]
  | cons b bytes ih =>
    simp only [List.cons_append, pieces]
    split
    next =>
      split
      next => exact ih
      next => exact congrArg (piece :: ·) ih
    next => exact ih

/-- The calls are decoded one by one. -/
lemma decode_append : decode (kissIndicate command values ++ bytes) =
    decode (kissIndicate command values) ++ decode bytes := by
  unfold decode kissIndicate
  rw [List.append_assoc, ← List.map_append]
  exact congrArg (List.map content) pieces_append

lemma pieces_of_not_mem (h : FEND ∉ bytes) (hp : piece ≠ []) :
    pieces piece (bytes ++ [FEND]) = [piece ++ bytes] := by
  induction bytes generalizing piece with
  | nil => simp [pieces, hp]
  | cons b bytes ih =>
    rw [List.mem_cons, not_or] at h
    obtain ⟨hb, h⟩ := h
    rw [List.cons_append, pieces, if_neg (Ne.symm hb), ih h (by simp), List.append_assoc]
    rfl

/-- The first piece of a frame begins with its command, and goes up to the next `FEND`. -/
lemma decode_frame (hc : command ≠ FEND) (h : FEND ∉ bytes) :
    decode (FEND :: command :: bytes ++ FEND :: bytes') =
      (command, unescape false bytes) :: decode bytes' := by
  have hp : pieces [] (FEND :: command :: bytes ++ FEND :: bytes') =
      pieces [command] (bytes ++ FEND :: bytes') := by
    rw [List.cons_append, pieces, if_pos rfl, if_pos rfl, List.cons_append, pieces, if_neg hc]
    rfl
  unfold decode
  rw [hp, pieces_append, pieces_of_not_mem h (by simp)]
  rfl

/-! ### The values of a frame -/

lemma escapedSerialWrite_eq : escapedSerialWrite b =
    if b = FEND then [FESC, TFEND] else if b = FESC then [FESC, TFESC] else [b] := by
  unfold escapedSerialWrite
  by_cases hb : b = FEND
  · rw [if_pos hb, if_pos hb]
    rfl
  · by_cases hb' : b = FESC
    · rw [if_neg hb, if_neg hb, if_pos hb']
      simp [hb']
    · rw [if_neg hb, if_neg hb, if_neg hb']
      simp [hb']

/-- Each value gives one byte, but for an `FESC` that goes out as it is. -/
lemma length_unescape : (unescape esc (values.flatMap Out.bytes)).length +
    values.count (.raw FESC) = values.length := by
  induction values generalizing esc with
  | nil => rfl
  | cons o values ih =>
    rw [List.flatMap_cons, List.length_cons]
    cases o with
    | raw b =>
      by_cases hb : b = FESC
      · subst hb
        have ih := @ih true
        simp only [Out.bytes, List.singleton_append, unescape, List.count_cons_self, if_true]
        omega
      · have ih := @ih false
        have hne : Out.raw b ≠ .raw FESC := fun he => hb (Out.raw.inj he)
        simp only [Out.bytes, List.singleton_append, unescape, if_neg hb, List.length_cons,
          List.count_cons_of_ne hne]
        omega
    | escaped b =>
      have ih := @ih false
      have hne : Out.escaped b ≠ .raw FESC := nofun
      rw [List.count_cons_of_ne hne, Out.bytes, escapedSerialWrite_eq]
      split
      next =>
        simp only [List.cons_append, List.nil_append, unescape, if_true,
          if_neg (show TFEND ≠ FESC by decide), List.length_cons]
        omega
      next =>
        split
        next =>
          simp only [List.cons_append, List.nil_append, unescape, if_true,
            if_neg (show TFESC ≠ FESC by decide), List.length_cons]
          omega
        next hb =>
          simp only [List.singleton_append, unescape, if_neg hb, List.length_cons]
          omega

/-- Without one, the bytes come back. -/
lemma unescape_values (h : .raw FESC ∉ values) :
    unescape false (values.flatMap Out.bytes) = values.map Out.byte := by
  induction values with
  | nil => rfl
  | cons o values ih =>
    rw [List.mem_cons, not_or] at h
    obtain ⟨ho, h⟩ := h
    rw [List.flatMap_cons, List.map_cons, ← ih h]
    cases o with
    | raw b =>
      have hb : b ≠ FESC := fun he => ho (by rw [he])
      simp [Out.bytes, Out.byte, unescape, hb]
    | escaped b =>
      rw [Out.bytes, Out.byte, escapedSerialWrite_eq]
      split
      next hb => simp [unescape, hb, FESC, TFEND]
      next =>
        split
        next hb => simp [unescape, hb, FESC, TFESC, TFEND]
        next hb => simp [unescape, hb]

lemma fend_mem : FEND ∈ values.flatMap Out.bytes ↔ .raw FEND ∈ values := by
  rw [List.mem_flatMap]
  constructor
  · rintro ⟨o, ho, hm⟩
    cases o with
    | raw b =>
      rw [Out.bytes, List.mem_singleton] at hm
      rwa [hm]
    | escaped b =>
      rw [Out.bytes, escapedSerialWrite_eq] at hm
      split at hm
      next => simp [FEND, FESC, TFEND] at hm
      next =>
        split at hm
        next => simp [FEND, FESC, TFESC] at hm
        next hb _ => exact absurd (List.mem_singleton.mp hm).symm hb
  · exact fun h => ⟨_, h, List.mem_singleton_self _⟩

/-- A frame with a `FEND` among its values is cut short. -/
lemma decode_cut (hc : command ≠ FEND) (h : .raw FEND ∈ values) :
    ∃ (pre : List Out) (frames : List (UInt8 × Bytes)), decode (kissIndicate command values) =
      (command, unescape false (pre.flatMap Out.bytes)) :: frames ∧ pre.length < values.length := by
  obtain ⟨pre, post, rfl, hpre⟩ := List.eq_append_cons_of_mem h
  refine ⟨pre, decode (post.flatMap Out.bytes ++ [FEND]), ?_, ?_⟩
  · rw [← decode_frame hc fun h => hpre (fend_mem.mp h)]
    simp [kissIndicate, Out.bytes]
  · rw [List.length_append, List.length_cons]
    omega

/-- Without one it is whole. -/
lemma decode_whole (hc : command ≠ FEND) (h : .raw FEND ∉ values) :
    decode (kissIndicate command values) =
      [(command, unescape false (values.flatMap Out.bytes))] :=
  decode_frame hc fun hm => h (fend_mem.mp hm)

lemma decode_ne_nil (hc : command ≠ FEND) : decode (kissIndicate command values) ≠ [] := by
  by_cases h : .raw FEND ∈ values
  · obtain ⟨pre, frames, hd, -⟩ := decode_cut hc h
    rw [hd]
    exact List.cons_ne_nil _ _
  · rw [decode_whole hc h]
    exact List.cons_ne_nil _ _

/-- A frame comes back when no byte of the framing goes out as it is. -/
lemma decode_kissIndicate (hc : command ≠ FEND) :
    decode (kissIndicate command values) = [(command, values.map Out.byte)] ↔
      .raw FEND ∉ values ∧ .raw FESC ∉ values := by
  by_cases hfend : .raw FEND ∈ values
  · refine iff_of_false (fun h => ?_) fun h => h.1 hfend
    obtain ⟨pre, frames, hd, hlt⟩ := decode_cut hc hfend
    rw [hd] at h
    have hlen := congrArg List.length (Prod.mk.inj (List.cons.inj h).1).2
    have hcount := @length_unescape false pre
    rw [List.length_map] at hlen
    omega
  · rw [decode_whole hc hfend]
    constructor
    · intro h
      have hlen := congrArg List.length (Prod.mk.inj (List.cons.inj h).1).2
      have hcount := @length_unescape false values
      rw [List.length_map] at hlen
      exact ⟨hfend, List.count_eq_zero.mp (by omega)⟩
    · exact fun ⟨_, h⟩ => by rw [unescape_values h]

/-! ### Streams of calls -/

@[simp] lemma raw_not_mem : Out.raw b ∉ bytes.map .escaped := by simp

@[simp] lemma byte_escaped : Out.byte ∘ Out.escaped = id := rfl

@[simp] lemma be16_eq (n : UInt16) : be16 n = beBytes 2 n.toNat := by
  simp [be16, beBytes, ← UInt8.toNat_inj, Nat.shiftRight_eq_div_pow]

@[simp] lemma be32_eq (n : UInt32) : be32 n = beBytes 4 n.toNat := by
  simp [be32, beBytes, ← UInt8.toNat_inj, Nat.shiftRight_eq_div_pow]

lemma kissIndicateLog_eq {level : UInt8} {msg : Bytes} : kissIndicateLog level msg =
    kissIndicate CMD_LOG
      (.raw level :: (((msg.takeWhile (· ≠ 0)).take 240).map .escaped)) := by
  have h : ∀ bytes : Bytes, bytes.flatMap logByte = (bytes.map Out.escaped).flatMap Out.bytes := by
    intro bytes
    rw [List.flatMap_map]
    exact congrArg (bytes.flatMap ·) (funext fun b => escapedSerialWrite_eq.symm)
  unfold kissIndicateLog kissIndicate
  dsimp only
  rw [h]
  simp [Out.bytes]

/-- The values of a call: none of them but the one byte can be taken for the framing. -/
structure Emits (v : Vars) (c : Call) (values : List Out) : Prop where
  emit : c.emit v = kissIndicate (c.report v).1 values
  report : (c.report v).2 = values.map Out.byte
  command_ne : (c.report v).1 ≠ FEND
  raw : (.raw FEND ∉ values ∧ .raw FESC ∉ values) ↔
    ∀ b, c.rawByte v = some b → b ≠ FEND ∧ b ≠ FESC

lemma toUInt8_ne (x : Bool) : FEND ≠ x.toUInt8 ∧ FESC ≠ x.toUInt8 := by
  cases x
  all_goals decide

lemma flag_ne (x : Bool) : FEND ≠ (if x then 0x01 else 0x00) ∧
    FESC ≠ (if x then 0x01 else 0x00) := by
  cases x
  all_goals decide

/-- One byte goes out as it is, in front of escaped ones. -/
lemma raw_cons {bytes : Bytes} : (Out.raw FEND ∉ .raw b :: bytes.map .escaped ∧
    Out.raw FESC ∉ .raw b :: bytes.map .escaped) ↔
      ∀ x, some b = some x → x ≠ FEND ∧ x ≠ FESC := by
  simp [eq_comm]

lemma emits (v : Vars) (c : Call) : ∃ values, Emits v c values := by
  cases c with
  | log level msg =>
    generalize hbody : (msg.takeWhile (· ≠ 0)).take 240 = body
    refine ⟨.raw level :: body.map .escaped, ?_, ?_, ?_, ?_⟩
    · rw [← hbody]
      exact kissIndicateLog_eq
    · dsimp only [Call.report]
      rw [hbody]
      simp [Out.byte]
    · dsimp only [Call.report]
      decide
    · exact raw_cons
  | error | spreadingfactor | codingrate | implicit_length | txpower | random =>
    -- one byte goes out as it is
    refine ⟨_, rfl, ?_, ?_, ?_⟩
    · simp [Call.report, Out.byte]
    · dsimp only [Call.report]
      decide
    · exact @raw_cons _ []
  | radiostate | radio_lock =>
    refine ⟨_, rfl, ?_, ?_, ?_⟩
    · simp [Call.report, Out.byte]
    · dsimp only [Call.report]
      decide
    · exact iff_of_true (by simp [toUInt8_ne]) fun _ h => by cases h
  | fbstate | promisc =>
    refine ⟨_, rfl, ?_, ?_, ?_⟩
    · simp [Call.report, Out.byte]
    · dsimp only [Call.report]
      decide
    · exact iff_of_true (by simp [flag_ne]) fun _ h => by cases h
  | reset | ready | not_ready | detect | version | platform | board | mcu =>
    -- constants
    refine ⟨_, rfl, ?_, ?_, ?_⟩
    · simp [Call.report, Out.byte]
    · dsimp only [Call.report]
      decide
    · exact iff_of_true (by decide) fun _ h => by cases h
  | target_fw_hash | fw_hash | bootloader_hash | partition_table_hash =>
    refine ⟨_, rfl, ?_, ?_, ?_⟩
    · simp [Call.report, Out.byte]
    · dsimp only [Call.report]
      decide
    · exact iff_of_true (by simp [FEND, FESC]) fun _ h => by cases h
  | _ =>
    -- everything goes out escaped
    refine ⟨_, rfl, ?_, ?_, ?_⟩
    · simp [Call.report, Out.byte, channelStats, phyStats]
    · dsimp only [Call.report]
      decide
    · exact iff_of_true (by simp) fun _ h => by cases h

/-- A list that is put together from parts of one element at least each. -/
lemma flatMap_eq_map {α β : Type} {f : α → List β} {g : α → β} {l : List α}
    (hf : ∀ x, f x ≠ []) : l.flatMap f = l.map g ↔ ∀ x ∈ l, f x = [g x] := by
  have hlen : ∀ l : List α, l.length ≤ (l.flatMap f).length := by
    intro l
    induction l with
    | nil => exact Nat.zero_le _
    | cons x l ih =>
      have hx := List.length_pos_iff.mpr (hf x)
      rw [List.flatMap_cons, List.length_append, List.length_cons]
      omega
  induction l with
  | nil => simp
  | cons x l ih =>
    rw [List.flatMap_cons, List.map_cons, List.forall_mem_cons]
    constructor
    · intro h
      have hx := List.length_pos_iff.mpr (hf x)
      have htotal := congrArg List.length h
      have hrest := hlen l
      rw [List.length_append, List.length_cons, List.length_map] at htotal
      have hone : (f x).length = [g x].length := by
        rw [List.length_singleton]
        omega
      obtain ⟨hfx, hfl⟩ := List.append_inj h hone
      exact ⟨hfx, ih.mp hfl⟩
    · rintro ⟨hfx, hfl⟩
      rw [hfx, ih.mpr hfl]
      rfl

lemma decode_emitted {calls : List (Vars × Call)} :
    decode (emitted calls) = calls.flatMap fun c => decode (c.2.emit c.1) := by
  induction calls with
  | nil => rfl
  | cons c calls ih =>
    obtain ⟨values, he⟩ := emits c.1 c.2
    rw [List.flatMap_cons, ← ih]
    unfold emitted
    rw [List.flatMap_cons, he.emit, decode_append]

/-- The host reads each call as it was made when no byte that goes out as it is is one of the
framing. -/
theorem decode_iff {calls : List (Vars × Call)} :
    decode (emitted calls) = calls.map (fun c => c.2.report c.1) ↔
      ∀ c ∈ calls, ∀ b, c.2.rawByte c.1 = some b → b ≠ FEND ∧ b ≠ FESC := by
  have hne : ∀ c : Vars × Call, decode (c.2.emit c.1) ≠ [] := fun c => by
    obtain ⟨values, he⟩ := emits c.1 c.2
    rw [he.emit]
    exact decode_ne_nil he.command_ne
  rw [decode_emitted, flatMap_eq_map hne]
  refine forall₂_congr fun c _ => ?_
  obtain ⟨values, he⟩ := emits c.1 c.2
  rw [← he.raw, ← decode_kissIndicate he.command_ne, he.emit, ← he.report]

/-- A random byte that is a `FEND` takes the frame apart. -/
theorem not_decode_random : decode (emitted [({}, .random FEND), ({}, .ready)]) =
      [(CMD_RANDOM, []), (CMD_READY, [0x01])] ∧
    decode (emitted [({}, .random FEND), ({}, .ready)]) ≠
      [(CMD_RANDOM, [FEND]), (CMD_READY, [0x01])] := by
  decide

end URSupreme.Kiss
