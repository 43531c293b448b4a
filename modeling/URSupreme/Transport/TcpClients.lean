import URSupreme.Lib.Bank
import URSupreme.Lib.Bytes
import URSupreme.Lib.Run

/-!
# TCP clients

`Web/WebUI/tcp_clients.h` adds, removes and changes TCP client interfaces: their entries in
`/reticulum/interfaces.json`, which `Discovery::Config` holds in memory, and the interfaces that
`TCPTransport` runs in its slots. `TCPTransport::setup` builds the interfaces from the entries at
boot. A file is the list of its members, as the JSON parser gives them; one that does not parse has
none.
-/

namespace URSupreme.TcpClients
open Lib

/-- The number of slots. -/
abbrev TCP_MAX_CLIENTS : Nat := 4

/-- `RNS::Type::Interface::modes`. -/
inductive Mode where
  | full
  | gateway
  | accessPoint
  | pointToPoint
  | roaming
  | boundary
  deriving DecidableEq, Repr

/-- `Discovery::Config::Type`. -/
inductive Kind where
  | unknown
  | lora
  | tcpClient
  | udp
  deriving DecidableEq, Repr

/-- `Discovery::Config::Entry`; `none` is the unset mode. -/
structure Entry where
  type : Kind := .unknown
  discoverable : Bool := false
  mode : Option Mode := none
  host : Bytes := []
  port : Int := 0
  enabled : Bool := false
  ifacNetname : Bytes := []
  ifacNetkey : Bytes := []
  ifacSize : UInt16 := 0
  deriving DecidableEq, Repr

/-- A member of the file, with the fields that are there; the size of the access code is in bits. -/
structure Member where
  type : Option String := none
  discoverable : Option Bool := none
  mode : Option String := none
  host : Option Bytes := none
  port : Option Int := none
  enabled : Option Bool := none
  ifacNetname : Option Bytes := none
  ifacNetkey : Option Bytes := none
  ifacSize : Option Int := none
  deriving DecidableEq, Repr

/-- The file and the map in memory. -/
abbrev File := List (Bytes × Member)
abbrev Entries := List (Bytes × Entry)

def typeToStr : Kind → String
  | .lora => "lora"
  | .tcpClient => "tcp_client"
  | .udp => "udp"
  | .unknown => "unknown"

def typeFromStr (s : String) : Kind :=
  if s = "lora" then .lora
  else if s = "tcp_client" then .tcpClient
  else if s = "udp" then .udp
  else .unknown

def modeFromStr (s : String) : Option Mode :=
  if s = "" then none
  else if s = "full" then some .full
  else if s = "gateway" ∨ s = "gw" then some .gateway
  else if s = "access_point" ∨ s = "ap" then some .accessPoint
  else if s = "pointtopoint" ∨ s = "ptp" then some .pointToPoint
  else if s = "roaming" then some .roaming
  else if s = "boundary" then some .boundary
  else none

def modeToStr : Mode → String
  | .full => "full"
  | .gateway => "gateway"
  | .accessPoint => "access_point"
  | .pointToPoint => "pointtopoint"
  | .roaming => "roaming"
  | .boundary => "boundary"

/-- What `load` makes of a member. -/
def Member.toEntry (m : Member) : Entry where
  type := typeFromStr (m.type.getD "")
  discoverable := m.discoverable.getD false
  mode := modeFromStr (m.mode.getD "")
  host := m.host.getD []
  port := m.port.getD 0
  enabled := m.enabled.getD false
  ifacNetname := m.ifacNetname.getD []
  ifacNetkey := m.ifacNetkey.getD []
  ifacSize := UInt16.ofInt ((m.ifacSize.getD 0).tdiv 8)

/-- What `save` writes of an entry. -/
def Entry.toMember (e : Entry) : Member where
  type := some (typeToStr e.type)
  discoverable := some e.discoverable
  mode := e.mode.map modeToStr
  host := if e.type = .tcpClient then some e.host else none
  port := if e.type = .tcpClient ∨ e.type = .udp then some e.port else none
  enabled := if e.type = .udp then some e.enabled else none
  ifacNetname := if e.ifacSize > 0 then some e.ifacNetname else none
  ifacNetkey := if e.ifacSize > 0 then some e.ifacNetkey else none
  ifacSize := if e.ifacSize > 0 then some (e.ifacSize.toNat * 8) else none

/-- `Discovery::Config::load`. -/
def load (file : File) : Entries := file.foldl (fun t x => insert x.1 x.2.toEntry t) []

/-- A live interface: its address, its mode, and the name, the key and the size of its access
code. -/
structure Client where
  name : Bytes
  host : Bytes
  port : UInt16
  mode : Mode := .full
  ifac : Option (Bytes × Bytes × UInt16) := none
  deriving DecidableEq, Repr

/-- `client_impls` and `client_interfaces`. -/
abbrev Slots := List (Option Client)

/-- `apply_mode_ifac`. -/
def applyModeIfac (iface : Client) (e : Entry) (defaultMode : Mode) : Client :=
  { iface with
    mode := e.mode.getD defaultMode
    ifac := if e.ifacSize > 0 then some (e.ifacNetname, e.ifacNetkey, e.ifacSize) else iface.ifac }

/-- `find_client_slot`, as far as there is one. -/
def hasClient (name : Bytes) (slots : Slots) : Bool := slots.any fun o => o.any (·.name = name)

/-- The client in the first free slot. -/
def place (c : Client) : Slots → Option Slots
  | [] => none
  | none :: slots => some (some c :: slots)
  | some d :: slots => (place c slots).map (some d :: ·)

/-- `add_client`; the mode and the access code come as an entry. -/
def addClient (slots : Slots) (name host : Bytes) (port : UInt16) (cfg : Entry := {}) :
    Slots × Bool :=
  if name = [] ∨ host = [] then (slots, false)
  else if hasClient name slots then (slots, false)
  else
    match place (applyModeIfac { name, host, port } cfg .full) slots with
    | some slots => (slots, true)
    | none => (slots, false)

/-- `remove_client`. -/
def removeClient (name : Bytes) : Slots → Slots
  | [] => []
  | none :: slots => none :: removeClient name slots
  | some c :: slots => if c.name = name then none :: slots else some c :: removeClient name slots

/-- One turn of the loop of `setup`. -/
def setupEntry (slots : Slots) (x : Bytes × Entry) : Slots :=
  if x.2.type = .tcpClient then (addClient slots x.1 x.2.host (UInt16.ofInt x.2.port) x.2).1
    else slots

/-- `setup`. -/
def setup (entries : Entries) : Slots :=
  entries.foldl setupEntry (List.replicate TCP_MAX_CLIENTS none)

/-- A reply. -/
structure Reply where
  status : Nat
  code : String
  deriving DecidableEq, Repr

/-- How a write of the file ends; one that fails leaves something behind. -/
inductive Save where
  | written
  | failed (left : File)
  deriving DecidableEq, Repr

/-- The file, the map in memory, the slots, and for each save whether it went through and the status
of its reply. -/
structure Node where
  file : File
  entries : Entries := []
  slots : Slots := List.replicate TCP_MAX_CLIENTS none
  saves : List (Bool × Nat) := []
  deriving DecidableEq, Repr

/-- `Discovery::Config::save`. -/
def Node.save (s : Node) : Save → Node × Bool
  | .written => ({ s with file := s.entries.map fun x => (x.1, x.2.toMember) }, true)
  | .failed left => ({ s with file := left }, false)

/-- `Discovery::Config::upsert`. -/
def Node.upsert (s : Node) (name : Bytes) (e : Entry) (save : Save) : Node × Bool :=
  { s with entries := insert name e s.entries }.save save

/-- `Discovery::Config::remove` of an entry that is there. -/
def Node.remove (s : Node) (name : Bytes) (save : Save) : Node × Bool :=
  { s with entries := erase name s.entries }.save save

/-- The reply to a request that saved. -/
def Node.answer (s : Node) (saved : Bool) (r : Reply) : Node × Reply :=
  ({ s with saves := s.saves ++ [(saved, r.status)] }, r)

/-- The body of an add request, missing fields as their defaults. -/
structure AddBody where
  name : Bytes := []
  host : Bytes := []
  port : Int := 0
  discoverable : Bool := false
  deriving DecidableEq, Repr

/-- The entry of an add request. -/
def AddBody.entry (b : AddBody) : Entry := { type := .tcpClient, host := b.host, port := b.port }

/-- The live interface and the entry of a request that is valid. -/
def Node.create (s : Node) (b : AddBody) (save : Save) : Node × Reply :=
  match addClient s.slots b.name b.host (UInt16.ofInt b.port) with
  | (_, false) => (s, ⟨503, "tcp_clients_full"⟩)
  | (slots, true) =>
    match { s with slots }.upsert b.name b.entry save with
    | (s, false) =>
      { s with slots := removeClient b.name s.slots }.answer false ⟨500, "persist_failed"⟩
    | (s, true) => s.answer true ⟨201, "created"⟩

/-- `handle_tcp_clients_add`. -/
def Node.add (s : Node) (auth : Bool) (b : AddBody) (save : Save) : Node × Reply :=
  if auth = false then (s, ⟨401, "invalid_or_expired_token"⟩)
  else if b.name = [] ∨ b.host = [] ∨ b.port ≤ 0 ∨ b.port > 65535 then (s, ⟨400, "invalid_args"⟩)
  else if b.discoverable then (s, ⟨400, "not_discoverable"⟩)
  else if (lookup b.name s.entries).isSome then (s, ⟨409, "name_exists"⟩)
  else s.create b save

/-- The TCP client entry under a name. -/
def Node.find (s : Node) (name : Bytes) : Option Entry :=
  (lookup name s.entries).filter (·.type = .tcpClient)

/-- `handle_tcp_clients_remove`; the result of `Config::remove` is not looked at. -/
def Node.delete (s : Node) (auth : Bool) (name : Bytes) (save : Save) : Node × Reply :=
  if auth = false then (s, ⟨401, "invalid_or_expired_token"⟩)
  else
    match s.find name with
    | none => (s, ⟨404, "not_found"⟩)
    | some _ =>
      let (s, saved) := { s with slots := removeClient name s.slots }.remove name save
      s.answer saved ⟨200, "removed"⟩

/-- The body of a patch request. -/
structure PatchBody where
  host : Option Bytes := none
  port : Option Int := none
  discoverable : Bool := false
  deriving DecidableEq, Repr

/-- The host of the request, when it is another one. -/
def PatchBody.newHost (b : PatchBody) (e : Entry) : Option Bytes :=
  b.host.filter fun nh => nh ≠ [] ∧ nh ≠ e.host

/-- The port of the request, when it is another one. -/
def PatchBody.newPort (b : PatchBody) (e : Entry) : Option Int :=
  b.port.filter fun np => np > 0 ∧ np ≤ 65535 ∧ np ≠ e.port

/-- `host_port_changed`. -/
def PatchBody.changes (b : PatchBody) (e : Entry) : Bool :=
  (b.newHost e).isSome || (b.newPort e).isSome

/-- The entry with the fields of the request. -/
def PatchBody.patched (b : PatchBody) (e : Entry) : Entry :=
  { e with
    host := (b.newHost e).getD e.host
    port := (b.newPort e).getD e.port
    discoverable := false }

/-- The live interface is built anew, from the name, the host and the port. -/
def rebuild (slots : Slots) (name : Bytes) (e : Entry) : Slots :=
  (addClient (removeClient name slots) name e.host (UInt16.ofInt e.port)).1

/-- The changed entry is saved, and the live interface follows. -/
def Node.change (s : Node) (name : Bytes) (e : Entry) (b : PatchBody) (save : Save) :
    Node × Reply :=
  match s.upsert name (b.patched e) save with
  | (s, false) => s.answer false ⟨500, "persist_failed"⟩
  | (s, true) =>
    { s with
      slots := if b.changes e then rebuild s.slots name (b.patched e) else s.slots }.answer true
      ⟨200, "updated"⟩

/-- `handle_tcp_clients_patch`. -/
def Node.patch (s : Node) (auth : Bool) (name : Bytes) (b : PatchBody) (save : Save) :
    Node × Reply :=
  if auth = false then (s, ⟨401, "invalid_or_expired_token"⟩)
  else
    match s.find name with
    | none => (s, ⟨404, "not_found"⟩)
    | some e =>
      if b.discoverable then (s, ⟨400, "not_discoverable"⟩) else s.change name e b save

/-- A boot, at which the file is read or not, and the requests. -/
inductive Event where
  | boot (read : Bool)
  | add (auth : Bool) (b : AddBody) (save : Save)
  | remove (auth : Bool) (name : Bytes) (save : Save)
  | patch (auth : Bool) (name : Bytes) (b : PatchBody) (save : Save)
  deriving DecidableEq, Repr

/-- `load` and `setup` at boot. -/
def Node.boot (s : Node) (read : Bool) : Node :=
  let entries := if read then load s.file else []
  { s with entries, slots := setup entries }

def Node.step (s : Node) : Event → Node
  | .boot read => s.boot read
  | .add auth b save => (s.add auth b save).1
  | .remove auth name save => (s.delete auth name save).1
  | .patch auth name b save => (s.patch auth name b save).1

/-- The device after a boot with a file. -/
def started (file : File) : Node := ({ file } : Node).boot true

/-- The live interfaces are those that `setup` builds of the file, and a save that failed is
reported. -/
structure Matches (s : Node) : Prop where
  live : ∀ c, some c ∈ s.slots ↔ some c ∈ setup (load s.file)
  reported : ∀ x ∈ s.saves, x.1 = false → 500 ≤ x.2

end URSupreme.TcpClients
