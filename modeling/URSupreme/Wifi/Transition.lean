import URSupreme.Lib.Bytes

/-!
# The Wi-Fi transition

`Remote.h` with `Common/WifiTransition.h`: the modes of the radio, the phase machine that a
provisioning attempt goes through, and what the main loop does at each turn;
`handle_wifi_configure`, `handle_wifi_force_softap` and `drain_wifi_provision_response` of the web
interface; `handle_wifi_settings` and `loop` of `Improv.h`, without what they send over the serial
line. The mode command of the host protocol is left out, and so are the short waits inside these
functions.

The driver is the interfaces that are up, the network the station tries, and the one it is
associated with. `begin` and `disconnect` end an association, and the station associates with the
network it tries.
-/

namespace URSupreme.Wifi
open Lib

/-- `wifi_mode`. -/
inductive Mode where
  | off
  | sta
  | ap
  | apsta
  deriving DecidableEq, Repr

inductive WifiPhase where
  | idle
  | apStaConnecting
  | apStaGrace
  deriving DecidableEq, Repr

def WR_PROVISION_TIMEOUT_MS : Nat := 30 * 1000
def WR_APSTA_DEAUTH_DELAY : Nat := 1000
def WR_APSTA_GRACE_MS : Nat := 120 * 1000
def WR_STA_BEFORE_AP_DELAY_MS : Nat := 3 * 60 * 1000
def WR_RECONNECT_INTERVAL_MS : Nat := 10000
def PROVISION_TIMEOUT_MS : Nat := 30 * 1000

/-- SSID and PSK. -/
abbrev Creds := Bytes × Bytes

/-- The driver. -/
structure Radio where
  sta : Bool := false
  ap : Bool := false
  target : Option Creds := none
  assoc : Option Creds := none
  deriving DecidableEq, Repr

/-- `WiFi.status() == WL_CONNECTED`. -/
def Radio.connected (r : Radio) : Bool := r.assoc.isSome

/-- `WiFi.disconnect`. -/
def Radio.disconnect (r : Radio) : Radio := { r with target := none, assoc := none }

/-- `WiFi.mode`. -/
def Radio.setMode (r : Radio) : Mode → Radio
  | .off => {}
  | .sta => { r with sta := true, ap := false }
  | .ap => { r.disconnect with sta := false }
  | .apsta => { r with sta := true }

/-- `WiFi.softAP`. -/
def Radio.softAP (r : Radio) : Radio := { r with ap := true }

/-- `WiFi.softAPdisconnect`. -/
def Radio.softAPdisconnect (r : Radio) : Radio := { r with ap := false }

/-- `WiFi.begin`. -/
def Radio.begin (r : Radio) (c : Creds) : Radio :=
  { r with sta := true, target := some c, assoc := none }

/-- The station gets an address in the network it tries. -/
def Radio.up (r : Radio) : Radio :=
  if r.sta ∧ r.target.isSome then { r with assoc := r.target } else r

/-- The station loses its network. -/
def Radio.down (r : Radio) : Radio := { r with assoc := none }

/-- `PendingProvision`; the request is there as long as its client is. -/
structure PendingProvision where
  pending : Bool := false
  ssid : Bytes := []
  psk : Bytes := []
  req : Option Nat := none
  parked : Bool := false
  requestedMs : Nat := 0
  deriving DecidableEq, Repr

/-- The saved network and mode. -/
structure Eeprom where
  mode : UInt8 := 0
  ssid : Bytes := []
  psk : Bytes := []
  deriving DecidableEq, Repr

/-- The variables of `Remote.h`, with those of `Improv.h` and the clients of parked requests. -/
structure Remote where
  now : Nat := 0
  eeprom : Eeprom := {}
  radio : Radio := {}
  mode : Mode := .off
  initRan : Bool := false
  initialized : Bool := false
  status : Bool := false
  staFirstAttemptMs : Nat := 0
  staFallbackArmed : Bool := false
  forceSoftapPending : Bool := false
  runtimeSoftap : Bool := false
  lastConnectTry : Nat := 0
  phase : WifiPhase := .idle
  phaseStartedMs : Nat := 0
  deauthAtMs : Nat := 0
  deauthDone : Bool := false
  pending : PendingProvision := {}
  ssid : Bytes := []
  psk : Bytes := []
  provInProgress : Bool := false
  provStartedMs : Nat := 0
  clients : List Nat := []
  deriving DecidableEq, Repr

/-- `millis()`. -/
def Remote.millis (s : Remote) : Nat := s.now % 2 ^ 32

/-- `millis() - since`. -/
def Remote.elapsed (s : Remote) (since : Nat) : Nat := (s.millis + 2 ^ 32 - since) % 2 ^ 32

/-- `WiFi.begin` of the current network, if there is one. -/
def Remote.begin (s : Remote) : Remote :=
  if s.ssid ≠ [] then { s with radio := s.radio.begin (s.ssid, s.psk) } else s

/-- `wifi_remote_start_ap`. -/
def Remote.startAp (s : Remote) : Remote :=
  { s with radio := (s.radio.setMode .ap).softAP, initialized := true }

/-- `wifi_remote_start_sta`. -/
def Remote.startSta (s : Remote) : Remote :=
  let s := { s with radio := s.radio.setMode .sta }.begin
  { s with status := s.radio.connected, initialized := true, lastConnectTry := s.millis }

/-- `wifi_remote_start_apsta`. -/
def Remote.startApsta (s : Remote) : Remote :=
  let s := { s with radio := (s.radio.setMode .apsta).softAP }.begin
  { s with
    status := s.radio.connected
    initialized := true
    lastConnectTry := s.millis
    phase := .apStaConnecting
    phaseStartedMs := s.millis
    deauthDone := false
    deauthAtMs := 0 }

/-- `wifi_remote_stop`. -/
def Remote.stop (s : Remote) : Remote := { s with radio := {}, initialized := false }

/-- `wifi_remote_start`. -/
def Remote.start (s : Remote) : Remote :=
  match s.mode with
  | .ap => s.startAp
  | .apsta => s.startApsta
  | .sta => s.startSta
  | .off => s.stop

/-- What `wifi_remote_init` does first: the driver is stopped and the saved network is read. -/
def Remote.reset (s : Remote) : Remote :=
  { s with radio := {}, ssid := s.eeprom.ssid, psk := s.eeprom.psk }

/-- What `wifi_remote_init` does last. -/
def Remote.arm (s : Remote) : Remote :=
  let first := s.mode = .sta ∧ s.staFirstAttemptMs = 0
  { s with
    initRan := true
    runtimeSoftap := s.mode = .ap
    staFirstAttemptMs := if first then s.millis else s.staFirstAttemptMs
    staFallbackArmed := s.staFallbackArmed || first }

/-- `wifi_remote_init`. -/
def Remote.init (s : Remote) : Remote := s.reset.start.arm

/-- `wifi_runtime_force_softap`. -/
def Remote.forceSoftap (s : Remote) : Remote :=
  { { s with mode := .ap, staFirstAttemptMs := 0, staFallbackArmed := false }.init with
    runtimeSoftap := true }

/-- `wifi_promote_to_apsta`. -/
def Remote.promoteToApsta (s : Remote) : Remote :=
  { s with
    mode := .apsta
    radio := (s.radio.setMode .apsta).softAP
    staFallbackArmed := false }

/-- The access point is made available for the client that asked. -/
def Remote.openAp (s : Remote) : Remote :=
  if s.mode ≠ .apsta then { s with mode := .apsta, radio := (s.radio.setMode .apsta).softAP } else s

/-- The pending network becomes the current one, and the old association ends. -/
def Remote.swapCreds (s : Remote) : Remote :=
  { s with
    pending := { s.pending with pending := false }
    ssid := s.pending.ssid.take 32
    psk := s.pending.psk.take 32
    radio := if s.radio.connected then s.radio.disconnect else s.radio }

/-- The first part of `wifi_pump_phase`: the pending network is applied. -/
def Remote.applyPending (s : Remote) : Remote :=
  if !s.pending.pending then s else
  { s.openAp.swapCreds.begin with
    phase := .apStaConnecting
    phaseStartedMs := s.millis
    deauthDone := false
    deauthAtMs := 0 }

/-- The second part: the station is up. -/
def Remote.staConnected (s : Remote) : Remote :=
  if s.phase = .apStaConnecting ∧ s.radio.connected then
    { s with phase := .apStaGrace, phaseStartedMs := s.millis }
  else s

/-- The clients of the access point are sent away once. -/
def Remote.deauth (s : Remote) : Remote :=
  { s with deauthDone := s.deauthDone || (s.deauthAtMs ≠ 0 ∧ s.deauthAtMs ≤ s.millis) }

/-- The end of the grace period. -/
def Remote.takeDown (s : Remote) : Remote :=
  { s with
    radio := s.radio.softAPdisconnect.setMode .sta
    mode := .sta
    phase := .idle
    phaseStartedMs := 0
    deauthAtMs := 0 }

/-- The third part. -/
def Remote.teardown (s : Remote) : Remote :=
  if s.phase ≠ .apStaGrace then s
  else if WR_APSTA_GRACE_MS ≤ s.elapsed s.phaseStartedMs then s.deauth.takeDown
  else s.deauth

/-- `wifi_pump_phase`. -/
def Remote.pumpPhase (s : Remote) : Remote := s.applyPending.staConnected.teardown

/-- `wifi_update_status` after the pump: `wr_wifi_status` is set. -/
def Remote.readStatus (s : Remote) : Remote :=
  { s with
    status := s.radio.connected || (s.mode = .ap && s.initialized)
    staFallbackArmed := s.staFallbackArmed && !s.radio.connected }

/-- A new attempt beside the access point. -/
def Remote.rebegin (s : Remote) : Remote :=
  { { s with radio := s.radio.disconnect }.begin with lastConnectTry := s.millis }

/-- The rest of `wifi_update_status`: an attempt that takes too long, and new attempts. -/
def Remote.retry (s : Remote) : Remote :=
  if s.initRan ∧ s.mode = .sta ∧ !s.status then
    if s.staFallbackArmed ∧ s.staFirstAttemptMs ≠ 0 ∧
        WR_STA_BEFORE_AP_DELAY_MS ≤ s.elapsed s.staFirstAttemptMs then s.promoteToApsta
    else if WR_RECONNECT_INTERVAL_MS ≤ s.elapsed s.lastConnectTry then s.init else s
  else if s.initRan ∧ s.mode = .apsta ∧ !s.status ∧
      WR_RECONNECT_INTERVAL_MS ≤ s.elapsed s.lastConnectTry then s.rebegin
  else s

/-- `wifi_update_status`, which the main loop calls once Wi-Fi is there. -/
def Remote.updateStatus (s : Remote) : Remote :=
  if !s.initialized then s else
  if s.forceSoftapPending then { s with forceSoftapPending := false }.forceSoftap
  else s.pumpPhase.readStatus.retry

/-- What a request is told at once. -/
inductive Reply where
  | error (status : Nat) (code : String)
  | saved
  | queued
  | parked
  deriving DecidableEq, Repr

/-- `wifi_remote_eeprom_write_sta_creds`. -/
def Remote.writeStaCreds (s : Remote) (ssid psk : Bytes) : Remote :=
  { s with eeprom := { mode := 1, ssid := ssid.take 32, psk := psk.take 32 } }

/-- A request waits for the station, and its network for the phase machine. -/
def Remote.park (s : Remote) (ssid psk : Bytes) (req : Nat) : Remote :=
  { s with
    pending := {
      pending := true
      ssid := ssid.take 32
      psk := psk.take 32
      req := some req
      parked := true
      requestedMs := s.millis }
    clients := req :: s.clients }

/-- `handle_wifi_configure`; `auth` is what `require_physical_auth` finds. -/
def Remote.configure (s : Remote) (auth : Bool) (ssid psk : Bytes) (req : Nat) : Remote × Reply :=
  if !auth then (s, .error 401 "identity_code_required") else
  if ssid.length = 0 ∨ 32 < ssid.length then (s, .error 400 "invalid_ssid") else
  if 32 < psk.length then (s, .error 400 "invalid_psk") else
  if s.pending.parked ∨ s.pending.pending then (s, .error 409 "provision_in_progress") else
  let s := s.writeStaCreds ssid psk
  if s.mode = .ap ∨ s.mode = .apsta then
    (s.park ssid psk req, .parked)
  else (s, .saved)

/-- `handle_wifi_force_softap`. -/
def Remote.requestSoftap (s : Remote) (auth : Bool) : Remote × Reply :=
  if !auth then (s, .error 401 "identity_code_required") else
  if s.mode = .ap then (s, .error 409 "already_softap") else
  ({ s with forceSoftapPending := true }, .queued)

/-- The bytes of a string as far as C reads it. -/
def cstr (bs : Bytes) : Bytes := bs.takeWhile (· ≠ 0)

/-- A network from the serial line waits for the phase machine. -/
def Remote.provision (s : Remote) (ssid psk : Bytes) : Remote :=
  { s with
    pending := {
      pending := true
      ssid := ssid
      psk := psk
      req := none
      parked := false
      requestedMs := s.millis }
    provInProgress := true
    provStartedMs := s.millis }

/-- `handle_wifi_settings` with the SSID and the PSK of a frame that is in order. -/
def Remote.wifiSettings (s : Remote) (ssid psk : Bytes) : Remote :=
  let ssid := cstr (ssid.take 32)
  let psk := cstr (psk.take 32)
  let s := s.writeStaCreds ssid psk
  if s.pending.parked ∨ s.pending.pending then s else s.provision ssid psk

/-- `Improv::loop` without the parser. -/
def Remote.improvLoop (s : Remote) : Remote :=
  if !s.provInProgress then s else
  if s.radio.connected then { s with provInProgress := false } else
  if PROVISION_TIMEOUT_MS ≤ s.elapsed s.provStartedMs then
    { s with provInProgress := false, pending := { s.pending with pending := false } }
  else s

/-- What a parked request is told later. -/
inductive Answer where
  | connected
  | staTimeout
  deriving DecidableEq, Repr

/-- `wr_pending.req.lock()`. -/
def Remote.lock (s : Remote) : Option Nat := s.pending.req.filter (· ∈ s.clients)

/-- No request is parked any more. -/
def Remote.free (s : Remote) : Remote :=
  { s with pending := { s.pending with req := none, parked := false } }

/-- `drain_wifi_provision_response`: the request that is answered, if any. -/
def Remote.drain (s : Remote) : Remote × Option (Nat × Answer) :=
  if !s.initialized ∨ !s.pending.parked then (s, none) else
  match s.phase with
  | .apStaGrace =>
    ({ s.free with deauthAtMs := (s.millis + WR_APSTA_DEAUTH_DELAY) % 2 ^ 32 },
      s.lock.map fun req => (req, .connected))
  | .apStaConnecting =>
    if WR_PROVISION_TIMEOUT_MS ≤ s.elapsed s.pending.requestedMs then
      (s.free, s.lock.map fun req => (req, .staTimeout))
    else (s, none)
  | .idle => (s, none)

/-- Start-up with the saved mode: station or access point, and the access point when there is
none. -/
def boot (now : Nat) (eeprom : Eeprom) : Remote :=
  if eeprom.mode = 1 then Remote.init { now := now, eeprom := eeprom, mode := .sta }
  else Remote.init { now := now, eeprom := eeprom, mode := .ap }

inductive Event where
  | wait (ms : Nat)
  | boot (now : Nat) (eeprom : Eeprom)
  | configure (auth : Bool) (ssid psk : Bytes)
  | wifiSettings (ssid psk : Bytes)
  | requestSoftap (auth : Bool)
  | tick
  | improvLoop
  | drain
  | staUp
  | staDown
  | close (req : Nat)
  deriving DecidableEq, Repr

/-- What an event does to the device; a request that is made is given the number `req`. -/
def Remote.step (req : Nat) (s : Remote) : Event → Remote
  | .wait ms => { s with now := s.now + ms }
  | .boot now eeprom => boot now eeprom
  | .configure auth ssid psk => (s.configure auth ssid psk req).1
  | .wifiSettings ssid psk => s.wifiSettings ssid psk
  | .requestSoftap auth => (s.requestSoftap auth).1
  | .tick => s.updateStatus
  | .improvLoop => s.improvLoop
  | .drain => s.drain.1
  | .staUp => { s with radio := s.radio.up }
  | .staDown => { s with radio := s.radio.down }
  | .close req => { s with clients := s.clients.filter (· ≠ req) }

end URSupreme.Wifi
