import URSupreme.Common.MsgPackWrite
import URSupreme.Telemetry.Parsers

/-!
# The telemeter packer

`pack` of `Telemetry/Telemeter.h`. The cached readings are its input: numbers that are packed as
doubles are 64-bit patterns, the members of a location are the scaled integers behind `lround`, and
the two time stamps are the 64-bit integers they are converted to.
-/

namespace URSupreme.Telemetry
open Lib MsgPack

/-- `Include`. -/
structure Include where
  battery : Bool := true
  location : Bool := true
  environment : Bool := true
  magnetic : Bool := false
  deriving DecidableEq, Repr

inductive BatteryState where
  | unknown
  | absent
  | charging
  | discharging
  | charged
  deriving DecidableEq, Repr

/-- `Battery::Snapshot`, with the pattern of `(double)percent`. -/
structure Snapshot where
  pmuPresent : Bool
  state : BatteryState
  percent : Int
  percentBits : UInt64
  deriving DecidableEq, Repr

/-- `Gnss::Fix`, scaled; `unixEpoch` is there when it is positive. -/
structure Fix where
  valid : Bool
  latitude : Int32
  longitude : Int32
  altitude : Int32
  speed : Int32
  heading : Int32
  accuracy : UInt16
  unixEpoch : Option Int64
  deriving DecidableEq, Repr

/-- `BME280::Reading`, with the pressure in millibar, and `present()`. -/
structure Environment where
  present : Bool
  valid : Bool
  pressure : UInt64
  temperature : UInt64
  humidity : UInt64
  deriving DecidableEq, Repr

/-- `QMC6310::Reading`. -/
structure Magnetic where
  valid : Bool
  x : UInt64
  y : UInt64
  z : UInt64
  deriving DecidableEq, Repr

/-- The readings `pack` starts from. -/
structure Readings where
  batt : Snapshot
  fix : Fix
  env : Environment
  mag : Magnetic
  deriving DecidableEq, Repr

def MAX_PACKED : Nat := 128

/-- `pack_be_bin`. -/
def packBeBin (cap v width : Nat) : Option Bytes :=
  if cap < 2 + width then none else some (0xC4 :: UInt8.ofNat width :: beBytes width v)

/-- `n = pack_..(&buf[pos], cap - pos, ..); if (n == 0) return 0; pos += n;`. -/
def emit (cap : Nat) (w : Nat → Option Bytes) (buf : Bytes) : Option Bytes := do
  some (buf ++ (← w (cap - buf.length)))

variable (cap : Nat) (inc : Include) (r : Readings) (now : Int64)

def haveBattery : Bool :=
  inc.battery && r.batt.pmuPresent && r.batt.state ≠ .absent && 0 ≤ r.batt.percent

def haveLocation : Bool := inc.location && r.fix.valid

def haveEnv : Bool := inc.environment && r.env.present && r.env.valid

def haveMag : Bool := inc.magnetic && r.mag.valid

/-- `entries`. -/
def entries : Nat :=
  1 + (if haveBattery inc r then 1 else 0) + (if haveLocation inc r then 1 else 0) +
    (if haveEnv inc r then 3 else 0) + (if haveMag inc r then 1 else 0)

def packTime (buf : Bytes) : Option Bytes := do
  let buf ← emit cap (packUint8 · SID_TIME) buf
  emit cap (packInt · now) buf

def packBattery (batt : Snapshot) (buf : Bytes) : Option Bytes := do
  let buf ← emit cap (packUint8 · SID_BATTERY) buf
  let buf ← emit cap (packArrayHeader · 3) buf
  let buf ← emit cap (packFloat64 · batt.percentBits) buf
  let buf ← emit cap (packBool · (batt.state = .charging)) buf
  if buf.length ≥ cap then none else some (buf ++ [0xC0])

/-- `(uint32_t)v`. -/
def uint32 (v : Int32) : Nat := v.toUInt32.toNat

def packLocation (fix : Fix) (buf : Bytes) : Option Bytes := do
  let lastUpdate := fix.unixEpoch.getD now
  let buf ← emit cap (packUint8 · SID_LOCATION) buf
  let buf ← emit cap (packArrayHeader · 7) buf
  let buf ← emit cap (packBeBin · (uint32 fix.latitude) 4) buf
  let buf ← emit cap (packBeBin · (uint32 fix.longitude) 4) buf
  let buf ← emit cap (packBeBin · (uint32 fix.altitude) 4) buf
  let buf ← emit cap (packBeBin · (uint32 fix.speed) 4) buf
  let buf ← emit cap (packBeBin · (uint32 fix.heading) 4) buf
  let buf ← emit cap (packBeBin · fix.accuracy.toNat 2) buf
  emit cap (packInt · lastUpdate) buf

def packMag (mag : Magnetic) (buf : Bytes) : Option Bytes := do
  let buf ← emit cap (packUint8 · SID_MAGNETIC_FIELD) buf
  let buf ← emit cap (packArrayHeader · 3) buf
  let buf ← emit cap (packFloat64 · mag.x) buf
  let buf ← emit cap (packFloat64 · mag.y) buf
  emit cap (packFloat64 · mag.z) buf

def packEnv (env : Environment) (buf : Bytes) : Option Bytes := do
  let buf ← emit cap (packUint8 · SID_PRESSURE) buf
  let buf ← emit cap (packFloat64 · env.pressure) buf
  let buf ← emit cap (packUint8 · SID_TEMPERATURE) buf
  let buf ← emit cap (packFloat64 · env.temperature) buf
  let buf ← emit cap (packUint8 · SID_HUMIDITY) buf
  emit cap (packFloat64 · env.humidity) buf

/-- The entries behind the map header. -/
def packReadings (buf : Bytes) : Option Bytes := do
  let buf ← packTime cap now buf
  let buf ← (if haveBattery inc r then packBattery cap r.batt buf else some buf)
  let buf ← (if haveLocation inc r then packLocation cap now r.fix buf else some buf)
  let buf ← (if haveMag inc r then packMag cap r.mag buf else some buf)
  if haveEnv inc r then packEnv cap r.env buf else some buf

/-- `pack`, `none` where it returns 0. -/
def pack : Option Bytes :=
  if entries inc r = 1 then none
  else do packReadings cap inc r now (← emit cap (packMapHeader · (entries inc r)) [])

end URSupreme.Telemetry
