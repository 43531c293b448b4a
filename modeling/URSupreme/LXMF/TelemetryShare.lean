import URSupreme.Clock.Manager
import URSupreme.LXMF.Inbound
import URSupreme.Telemetry.Parsers

/-!
# Telemetry shares

`LXMF/TelemetryShare.h`: the grants that let a peer request telemetry, the queue of requests to
answer, and the live feeds that this node requests from its peers. The packed readings of the
sensors and the files of GPX tracks are outside; epochs are in milliseconds, and locations in the
packed unit of a millionth of a degree.
-/

namespace URSupreme.Share
open Lib MsgPack LXMF
open Clock (elapsed)
open Gateway (IdentityId)

def MAX_GRANTS : Nat := 16
def MAX_FEEDS : Nat := 8
def MAX_PENDING : Nat := 8
def MIN_ANSWER_GAP_MS : Nat := 5000
def MAX_SHARE_S : Nat := 24 * 3600
def MIN_RATE_S : Nat := 15
def MAX_RATE_S : Nat := 3600
def MAX_FEED_MISSES : Nat := 3
def GPX_MAX_POINTS : Nat := 1000

/-- `Grant`. -/
structure Grant where
  iden : IdentityId
  peer : Bytes
  items : UInt8
  expiresEpoch : Int
  lastAnswerMs : Nat := 0
  deriving DecidableEq, Repr

/-- The GPX track of a feed. -/
structure GpxTrack where
  points : Nat
  lastLat : Int
  lastLon : Int
  deriving DecidableEq, Repr

/-- `Feed`. -/
structure Feed where
  iden : IdentityId
  peer : Bytes
  expiresEpoch : Int
  everyS : Nat
  lastReqMs : Nat
  awaiting : Bool
  misses : Nat
  latest : Bytes := []
  latestMs : Nat := 0
  gpx : Option GpxTrack := none
  deriving DecidableEq, Repr

/-- A peer of an identity: a request that waits for its answer. -/
structure Peer where
  iden : IdentityId
  peer : Bytes
  deriving DecidableEq, Repr

/-- The tables of grants, feeds and pending requests. -/
structure Tables where
  grants : List Grant := []
  feeds : List Feed := []
  pending : List Peer := []
  deriving DecidableEq, Repr

/-- `find_grant`. -/
def Tables.findGrant (s : Tables) (iden : IdentityId) (peer : Bytes) : Option Grant :=
  s.grants.find? fun g => g.iden = iden ∧ g.peer = peer

/-- `find_feed`. -/
def Tables.findFeed (s : Tables) (iden : IdentityId) (peer : Bytes) : Option Feed :=
  s.feeds.find? fun f => f.iden = iden ∧ f.peer = peer

/-- `evict_soonest`: the first of the entries that are closest to expiry goes. -/
def evictSoonest {α : Type} (expiresEpoch : α → Int) (l : List α) : List α :=
  l.eraseP fun e => l.all fun e' => expiresEpoch e ≤ expiresEpoch e'

/-- `remove_grant`. -/
def Tables.removeGrant (s : Tables) (iden : IdentityId) (peer : Bytes) : Tables :=
  { s with grants := s.grants.eraseP fun g => g.iden = iden ∧ g.peer = peer }

/-- `remove_feed`. -/
def Tables.removeFeed (s : Tables) (iden : IdentityId) (peer : Bytes) : Tables :=
  { s with feeds := s.feeds.eraseP fun f => f.iden = iden ∧ f.peer = peer }

/-- `record_grant`, at an epoch. -/
def Tables.recordGrant (s : Tables) (iden : IdentityId) (peer : Bytes) (items : UInt8)
    (shareS : Nat) (epoch : Int) : Tables :=
  if shareS = 0 ∨ items = 0 then s.removeGrant iden peer
  else
    let expiresEpoch := epoch + (min shareS MAX_SHARE_S : Nat) * 1000
    match s.findGrant iden peer with
    | some _ =>
      { s with
        grants := modifyFirst (fun g => g.iden = iden ∧ g.peer = peer)
          (fun g => { g with items, expiresEpoch }) s.grants }
    | none =>
      let v := if s.grants.length ≥ MAX_GRANTS then evictSoonest (·.expiresEpoch) s.grants
        else s.grants
      { s with grants := v ++ [{ iden, peer, items, expiresEpoch }] }

/-- A telemetry request, with a fault as none. -/
def requestsTelemetry (fuel : Nat) (raw : Bytes) : Bool :=
  match Telemetry.commandsRequest fuel raw with
  | .ok requested => requested
  | .error _ => false

/-- `on_commands`, on commands that request telemetry or do not. -/
def Tables.onCommands (s : Tables) (iden : IdentityId) (peer : Bytes) (requested : Bool)
    (epoch : Int) : Tables :=
  if !requested then s
  else
    match s.findGrant iden peer with
    | none => s
    | some g =>
      if epoch > g.expiresEpoch ∨ ⟨iden, peer⟩ ∈ s.pending ∨ s.pending.length ≥ MAX_PENDING then s
      else { s with pending := s.pending ++ [⟨iden, peer⟩] }

/-- A live-update offer, with a fault as none. -/
def liveOffer (fuel : Nat) (raw : Bytes) : Option (Nat × Nat) :=
  match Telemetry.onLiveOffer fuel raw with
  | .ok offer => offer
  | .error _ => none

/-- `on_live_offer`, on an offer or none. -/
def Tables.onLiveOffer (s : Tables) (iden : IdentityId) (peer : Bytes) (offer : Option (Nat × Nat))
    (epoch : Int) (millis : Nat) : Tables :=
  match offer with
  | none => s
  | some (forS, everyS) =>
    if forS = 0 then s.removeFeed iden peer
    else
      let expiresEpoch := epoch + (min forS MAX_SHARE_S : Nat) * 1000
      let everyS := min (max everyS MIN_RATE_S) MAX_RATE_S
      match s.findFeed iden peer with
      | some _ =>
        { s with
          feeds := modifyFirst (fun f => f.iden = iden ∧ f.peer = peer)
            (fun f => { f with
              expiresEpoch, everyS, lastReqMs := millis, awaiting := false, misses := 0 }) s.feeds }
      | none =>
        let v := if s.feeds.length ≥ MAX_FEEDS then evictSoonest (·.expiresEpoch) s.feeds
          else s.feeds
        let f : Feed :=
          { iden, peer, expiresEpoch, everyS, lastReqMs := millis, awaiting := false, misses := 0 }
        { s with feeds := v ++ [f] }

/-- `location_from_blob`; a member that is written again has its last value. -/
def locationFromBlob (fuel : Nat) (blob : Bytes) : Option (Int × Int) :=
  match Telemetry.decodeInto fuel blob with
  | .ok readings =>
    readings.reverse.findSome? fun
      | .location lat lon _ _ _ _ => some (lat, lon)
      | _ => none
  | .error _ => none

/-- The track of a feed after a sample at a location, when the file can be appended to. -/
def GpxTrack.sample (t : GpxTrack) (location : Option (Int × Int)) (appends : Bool) :
    GpxTrack :=
  match location with
  | none => t
  | some (lat, lon) =>
    if t.points < GPX_MAX_POINTS ∧ (lat ≠ t.lastLat ∨ lon ≠ t.lastLon) ∧ appends then
      { points := t.points + 1, lastLat := lat, lastLon := lon }
    else t

/-- `on_telemetry`, on a blob that is decoded to a location or none. -/
def Tables.onTelemetry (s : Tables) (iden : IdentityId) (peer blob : Bytes)
    (location : Option (Int × Int)) (appends : Bool) (millis : Nat) : Tables :=
  if blob.length > MAX_TELEMETRY_BLOB then s
  else
    { s with
      feeds := modifyFirst (fun f => f.iden = iden ∧ f.peer = peer)
        (fun f => { f with
          latest := blob, latestMs := millis, awaiting := false, misses := 0
          gpx := f.gpx.map (·.sample location appends) }) s.feeds }

/-- `set_feed_gpx`, after the track was created at a location. -/
def Tables.setFeedGpx (s : Tables) (iden : IdentityId) (peer : Bytes) (lat lon : Int) : Tables :=
  { s with
    feeds := modifyFirst (fun f => f.iden = iden ∧ f.peer = peer)
      (fun f => { f with gpx := some { points := 1, lastLat := lat, lastLon := lon } }) s.feeds }

/-- A message that `tick` sends: to a peer, with telemetry or a request for it. -/
structure Outgoing where
  iden : IdentityId
  peer : Bytes
  extra : ExtraFields
  deriving DecidableEq, Repr

/-- The loop of `tick` over the pending requests: the grants and the requests that are left, and the
answers. -/
def answerLoop (epoch : IdentityId → Int) (now : Nat) (pack : IdentityId → UInt8 → Bytes) :
    List Peer → List Grant → List Grant × List Peer × List Outgoing
  | [], grants => (grants, [], [])
  | p :: q, grants =>
    match ({ grants } : Tables).findGrant p.iden p.peer with
    | none => answerLoop epoch now pack q grants
    | some g =>
      if epoch p.iden > g.expiresEpoch then answerLoop epoch now pack q grants
      else if g.lastAnswerMs ≠ 0 ∧ elapsed now g.lastAnswerMs < MIN_ANSWER_GAP_MS then
        let (grants, q, sends) := answerLoop epoch now pack q grants
        (grants, p :: q, sends)
      else
        let telemetry := pack p.iden g.items
        let (grants, q, sends) := answerLoop epoch now pack q
          (modifyFirst (fun g => g.iden = p.iden ∧ g.peer = p.peer)
            (fun g => { g with lastAnswerMs := now }) grants)
        (grants, q, if telemetry = [] then sends else ⟨p.iden, p.peer, { telemetry }⟩ :: sends)

/-- `pack_telemetry_request`; `timebase` is the bits of a double. -/
def packTelemetryRequest (timebase : UInt64) : Bytes :=
  [0x91, 0x81, 0x01, 0x92] ++ (packFloat64 (24 - 4) timebase).getD [] ++ [0xC2]

/-- The loop of `tick` over the feeds: the feeds that are left, and the requests. -/
def feedLoop (epoch : IdentityId → Int) (now : Nat) (double : Int → UInt64) :
    List Feed → List Feed × List Outgoing
  | [] => ([], [])
  | f :: v =>
    let (rest, sends) := feedLoop epoch now double v
    if epoch f.iden > f.expiresEpoch then (rest, sends)
    else if elapsed now f.lastReqMs < f.everyS * 1000 then (f :: rest, sends)
    else
      let f := if f.awaiting then { f with misses := f.misses + 1 } else f
      if f.awaiting ∧ f.misses ≥ MAX_FEED_MISSES then (rest, sends)
      else
        let commands := packTelemetryRequest (double (epoch f.iden))
        ({ f with lastReqMs := now, awaiting := true } :: rest,
        ⟨f.iden, f.peer, { commands }⟩ :: sends)

/-- `tick`: the tables and what is sent. -/
def Tables.tick (s : Tables) (epoch : IdentityId → Int) (now : Nat)
    (pack : IdentityId → UInt8 → Bytes) (double : Int → UInt64) : Tables × List Outgoing :=
  let (grants, pending, answers) := answerLoop epoch now pack s.pending s.grants
  let (feeds, requests) := feedLoop epoch now double s.feeds
  ({ grants, feeds, pending }, answers ++ requests)

end URSupreme.Share
