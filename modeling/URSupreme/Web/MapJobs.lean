import URSupreme.Lib.Bytes
import URSupreme.Lib.Run

/-!
# The map jobs

The two job engines of `Web/MapDownload.h` and `Web/MapExtract.h`, with the requests of
`Web/WebUI/map.h` that start and cancel them. A task is a program counter; the results of the calls
a step makes (network, card, heap) come with the event. The engines share the files of the card.

Beside the firmware's own state a job keeps what its destination held when it started and the
archive it is to write, and each outcome it publishes is noted with what the destination then holds.
-/

namespace URSupreme.MapJobs
open Lib

abbrev Path := Bytes

abbrev Files := Path → Option Bytes

/-- The phases of both engines. -/
inductive Phase where
  | idle
  | running
  | scanning
  | writing
  | done
  | error
  | cancelled
  deriving DecidableEq, Repr

/-- `RUNNING`, or `active()`. -/
def Phase.active : Phase → Bool
  | .running | .scanning | .writing => true
  | _ => false

/-- `State` of an engine, with the program counter of its task. -/
structure Job (κ : Type) where
  phase : Phase := .idle
  cancel : Bool := false
  url : Bytes := []
  dest : Path := []
  error : String := ""
  task : Option κ := none
  /-- the text of the sidecar, where a clip polygon is set -/
  sidecar : Option Bytes := none
  /-- what the destination held when the job started -/
  before : Option Bytes := none
  /-- the archive the job is to write, once it is known -/
  goal : Option Bytes := none

def Job.goto {κ : Type} (j : Job κ) (pc : κ) : Job κ := { j with task := some pc }

/-- The end of `_finish`. -/
def Job.publish {κ : Type} (j : Job κ) (phase : Phase) (error : Option String) : Job κ :=
  { j with phase, error := error.getD j.error, task := none }

/-- What the calls of one step return. -/
inductive Result where
  | ok
  | failed
  | response (status : Nat) (body : Bytes)
  | readError
  /-- `read` returns 0, and the response is not complete -/
  | nothing
  /-- `read` returns 0, and the response is complete -/
  | ended
  /-- `read` returns `n` bytes, and `write` writes `wrote` of them -/
  | bytes (n wrote : Nat)
  /-- the bytes that unchecked writes wrote -/
  | wrote (counts : List Nat)
  deriving DecidableEq, Repr

def CHUNK : Nat := 8192

/-- `STALL_LIMIT`, and the limit on `idle`. -/
def STALL_LIMIT : Nat := 4000

/-- `SD.remove`. -/
def remove (files : Files) (path : Path) : Files := Function.update files path none

/-- `SD.open` for writing. -/
def create (files : Files) (path : Path) : Files := Function.update files path (some [])

/-- `write` at a position of an open file. -/
def writeAt (files : Files) (path : Path) (pos : Nat) (data : Bytes) : Files :=
  match files path with
  | none => files
  | some c => Function.update files path (some (c.take pos ++ data ++ c.drop (pos + data.length)))

/-! ## The download task -/

/-- Where the task of `MapDownload.h` stands. -/
inductive Fetch where
  | alloc
  | card
  | httpInit
  | connect
  | headers
  | fresh (body : Bytes)
  | mkdir (body : Bytes)
  | openDest (body : Bytes)
  | loop (body : Bytes) (written stalls : Nat)
  | finish (phase : Phase) (error : Option String) (removeDest : Bool)
  | publish (phase : Phase) (error : Option String)

/-- `_finish`. -/
def fail (d : Job Fetch) (error : String) (removeDest : Bool) : Job Fetch :=
  d.goto (.finish .error (some error) removeDest)

/-- A call that the task gives up on. -/
def check (files : Files) (d : Job Fetch) (next : Fetch) (error : String) : Result →
    Files × Job Fetch
  | .ok => (files, d.goto next)
  | .failed => (files, fail d error false)
  | _ => (files, d)

/-- One round of the loop of `task_fn`. -/
def readLoop (files : Files) (d : Job Fetch) (body : Bytes) (written stalls : Nat) :
    Result → Files × Job Fetch
  | .readError => (files, fail d "read error" true)
  | .ended =>
    if written = body.length then (files, d.goto (.finish .done none false)) else (files, d)
  | .nothing =>
    if stalls + 1 > STALL_LIMIT then (files, fail d "download stalled" true)
    else (files, d.goto (.loop body written (stalls + 1)))
  | .bytes n wrote =>
    if 0 < n ∧ n ≤ CHUNK ∧ written + n ≤ body.length then
      let files := writeAt files d.dest written (((body.drop written).take n).take wrote)
      if wrote < n then (files, fail d "SD write failed" true)
      else (files, d.goto (.loop body (written + n) 0))
    else (files, d)
  | _ => (files, d)

/-- A step of `MapDownload::task_fn`. -/
def downloadStep (files : Files) (d : Job Fetch) (r : Result) : Files × Job Fetch :=
  match d.task with
  | none => (files, d)
  | some .alloc => check files d .card "out of memory" r
  | some .card => check files d .httpInit "no SD card" r
  | some .httpInit => check files d .connect "http init failed" r
  | some .connect => check files d .headers "connect failed" r
  | some .headers =>
    match r with
    | .response status body =>
      if status ≠ 200 then (files, fail d s!"http {status}" false)
      else (files, { d.goto (.fresh body) with goal := some body })
    | _ => (files, d)
  | some (.fresh body) => (remove files d.dest, d.goto (.mkdir body))
  | some (.mkdir body) => check files d (.openDest body) "mkdir failed" r
  | some (.openDest body) =>
    match r with
    | .ok => (create files d.dest, d.goto (.loop body 0 0))
    | .failed => (files, fail d "open dest failed" false)
    | _ => (files, d)
  | some (.loop body written stalls) =>
    if d.cancel then (files, d.goto (.finish .cancelled none true))
    else readLoop files d body written stalls r
  | some (.finish phase error removeDest) =>
    (if removeDest ∧ d.dest ≠ [] then remove files d.dest else files, d.goto (.publish phase error))
  | some (.publish phase error) => (files, d.publish phase error)

/-! ## The extract task -/

/-- The archive an extract assembles: its sections and the source ranges of its tiles. -/
structure Archive where
  header : Bytes
  root : Bytes
  metadata : Bytes
  leaves : Bytes
  ranges : List Bytes
  length_header : header.length = 127

def Archive.sections (a : Archive) : List Bytes := [a.root, a.metadata, a.leaves]

/-- The file an extract is to leave. -/
def Archive.bytes (a : Archive) : Bytes := a.header ++ (a.sections.flatten ++ a.ranges.flatten)

/-- The exits of `MapExtract::task_fn` before it writes. -/
inductive ScanError where
  | httpInit
  | fetchHeader
  | notPmtiles
  | notClustered
  | notVector
  | compression
  | tooLarge
  | noTiles
  | rootDir
  | leafDir
  | nestedLeaf
  | metadata
  deriving DecidableEq, Repr

def ScanError.text : ScanError → String
  | .httpInit => "http init failed"
  | .fetchHeader => "fetch header failed"
  | .notPmtiles => "not a pmtiles archive"
  | .notClustered => "source not clustered"
  | .notVector => "source is not vector (mvt)"
  | .compression => "unsupported dir compression"
  | .tooLarge => "area too large; lower the zoom"
  | .noTiles => "no tiles in this area"
  | .rootDir => "fetch root dir failed"
  | .leafDir => "fetch leaf dir failed"
  | .nestedLeaf => "nested leaf dirs unsupported"
  | .metadata => "fetch metadata failed"

/-- What the reading of the source ends with. -/
inductive Scan where
  | failed (e : ScanError)
  /-- the cancel flag was seen before a leaf -/
  | cancelled
  | archive (a : Archive)

/-- Where the task of `MapExtract.h` stands. -/
inductive Cut where
  | resolve
  | scan
  | fresh (a : Archive)
  | mkdir (a : Archive)
  | openDest (a : Archive)
  | head (a : Archive)
  | alloc (a : Archive) (pos : Nat)
  | range (a : Archive) (pos : Nat) (left : List Bytes)
  | tile (a : Archive) (pos : Nat) (rest : Bytes) (left : List Bytes) (idle : Nat)
  | header (a : Archive)
  | sidecar
  | finish (phase : Phase) (error : Option String)
  | publish (phase : Phase) (error : Option String)

/-- `_finish` with an error. -/
def giveUp (e : Job Cut) (error : String) : Job Cut := e.goto (.finish .error (some error))

/-- The placeholder header and the sections, as far as they were written. -/
def Archive.head (a : Archive) (counts : List Nat) : Bytes :=
  (List.zipWith List.take counts (List.replicate 127 0 :: a.sections)).flatten

def pmtilesExt : Bytes := [0x2E, 0x70, 0x6D, 0x74, 0x69, 0x6C, 0x65, 0x73]

def jsonExt : Bytes := [0x2E, 0x6A, 0x73, 0x6F, 0x6E]

/-- The sidecar of a destination `<id>.pmtiles`. -/
def sidecarPath (dest : Path) : Path := dest.take (dest.length - pmtilesExt.length) ++ jsonExt

/-- One round of the loop over a source range, of which `rest` is still to come. -/
def tileLoop (files : Files) (e : Job Cut) (a : Archive) (pos : Nat) (rest : Bytes)
    (left : List Bytes) (idle : Nat) : Result → Files × Job Cut
  | .readError => (files, giveUp e "tile read error")
  | .ended => (files, giveUp e "tile short read")
  | .nothing =>
    if idle + 1 > STALL_LIMIT then (files, giveUp e "tile stalled")
    else (files, e.goto (.tile a pos rest left (idle + 1)))
  | .bytes n wrote =>
    if 0 < n ∧ n ≤ CHUNK ∧ n ≤ rest.length then
      let files := writeAt files e.dest pos ((rest.take n).take wrote)
      if wrote < n then (files, giveUp e "SD write failed")
      else (files, e.goto (.tile a (pos + n) (rest.drop n) left 0))
    else (files, e)
  | _ => (files, e)

/-- A step of `MapExtract::task_fn`; `scan` is what its first part, up to the new header, ends
with. -/
def extractStep (files : Files) (e : Job Cut) (scan : Scan) (r : Result) : Files × Job Cut :=
  match e.task with
  | none => (files, e)
  | some .resolve =>
    if e.url ≠ [] then (files, e.goto .scan)
    else
      match r with
      | .ok => (files, e.goto .scan)
      | .failed => (files, giveUp e "could not find a planet build")
      | _ => (files, e)
  | some .scan =>
    match scan with
    | .failed err => (files, giveUp e err.text)
    | .cancelled => if e.cancel then (files, e.goto (.finish .cancelled none)) else (files, e)
    | .archive a => (files, { e.goto (.fresh a) with phase := .writing, goal := some a.bytes })
  | some (.fresh a) => (remove files e.dest, e.goto (.mkdir a))
  | some (.mkdir a) =>
    match r with
    | .ok => (files, e.goto (.openDest a))
    | .failed => (files, giveUp e "mkdir failed")
    | _ => (files, e)
  | some (.openDest a) =>
    match r with
    | .ok => (create files e.dest, e.goto (.head a))
    | .failed => (files, giveUp e "open dest failed")
    | _ => (files, e)
  | some (.head a) =>
    match r with
    | .wrote counts =>
      (writeAt files e.dest 0 (a.head counts), e.goto (.alloc a (a.head counts).length))
    | _ => (files, e)
  | some (.alloc a pos) =>
    match r with
    | .ok => (files, e.goto (.range a pos a.ranges))
    | .failed => (files, giveUp e "out of memory")
    | _ => (files, e)
  | some (.range a _ []) => (files, e.goto (.header a))
  | some (.range a pos (rg :: left)) =>
    if e.cancel then (files, e.goto (.finish .cancelled none))
    else
      match r with
      | .failed => (files, giveUp e "tile range open failed")
      | .response status _ =>
        if status ≠ 206 then (files, giveUp e "tile range not 206")
        else (files, e.goto (.tile a pos rg left 0))
      | _ => (files, e)
  | some (.tile a pos rest left idle) =>
    if rest = [] then (files, e.goto (.range a pos left))
    else if e.cancel then (files, e.goto (.finish .cancelled none))
    else tileLoop files e a pos rest left idle r
  | some (.header a) =>
    match r with
    | .failed => (files, giveUp e "reopen for header failed")
    | .wrote counts =>
      (writeAt files e.dest 0 (a.header.take (counts.headD 0)), e.goto .sidecar)
    | _ => (files, e)
  | some .sidecar =>
    match e.sidecar, r with
    | none, _ => (files, e.goto (.publish .done none))
    | some _, .failed => (files, e.goto (.publish .done none))
    | some text, .wrote counts =>
      (Function.update files (sidecarPath e.dest) (some (text.take (counts.headD 0))),
        e.goto (.publish .done none))
    | some _, _ => (files, e)
  | some (.finish phase error) =>
    (if phase ≠ .done ∧ e.dest ≠ [] then remove files e.dest else files,
      e.goto (.publish phase error))
  | some (.publish phase error) => (files, e.publish phase error)

/-! ## The requests -/

/-- What a job reports, and what its destination holds then. -/
structure Report where
  phase : Phase
  before : Option Bytes
  goal : Option Bytes
  left : Option Bytes
  deriving DecidableEq, Repr

/-- Both engines over the files of the card. -/
structure Engines where
  files : Files
  download : Job Fetch := {}
  extract : Job Cut := {}
  reports : List Report := []

/-- The answer of a handler. -/
inductive Reply where
  | unauthorized
  | refused (status : Nat) (code : String)
  | status
  deriving DecidableEq, Repr

/-- `start` of an engine, from its first program counter; `spawned` is the result of
`xTaskCreatePinnedToCore`. -/
def Job.start {κ : Type} (j : Job κ) (files : Files) (phase : Phase) (pc : κ) (url : Bytes)
    (dest : Path) (sidecar : Option Bytes) (spawned : Bool) : Job κ :=
  let j := { j with
    url, dest, error := "", cancel := false, phase, sidecar, before := files dest, goal := none }
  if spawned then j.goto pc
  else { j with task := none, phase := .error, error := "task spawn failed" }

/-- What the job has published. -/
def Job.report {κ : Type} (j : Job κ) (files : Files) : Report :=
  ⟨j.phase, j.before, j.goal, files j.dest⟩

def http : Bytes := [0x68, 0x74, 0x74, 0x70, 0x3A, 0x2F, 0x2F]

def https : Bytes := [0x68, 0x74, 0x74, 0x70, 0x73, 0x3A, 0x2F, 0x2F]

/-- A full link. -/
def isLink (url : Bytes) : Bool := http.isPrefixOf url || https.isPrefixOf url

/-- `MAP_LAYERS_DIR` with the slash behind it. -/
def layersDir : Bytes :=
  [0x2F, 0x6D, 0x61, 0x70, 0x73, 0x2F, 0x6C, 0x61, 0x79, 0x65, 0x72, 0x73, 0x2F]

def world : Bytes := [0x77, 0x6F, 0x72, 0x6C, 0x64]

def layerFile (id : Bytes) : Path := layersDir ++ id ++ pmtilesExt

/-- `DEFAULT_PMTILES`. -/
def defaultPmtiles : Path :=
  [0x2F, 0x6D, 0x61, 0x70, 0x73, 0x2F, 0x62, 0x61, 0x73, 0x65, 0x6D, 0x61, 0x70] ++ pmtilesExt

/-- `sanitize_file`. -/
def sanitizeFile (p : Bytes) : Path :=
  if p = [] ∨ p.head? ≠ some 0x2F ∨ p.tails.any [0x2E, 0x2E].isPrefixOf then defaultPmtiles else p

/-- The body of `POST /api/map/download`, with what the handler finds out beside it. -/
structure DownloadPost where
  auth : Bool := true
  url : Bytes
  dest : Bytes := []
  card : Bool := true
  spawned : Bool := true
  deriving DecidableEq, Repr

def DownloadPost.path (b : DownloadPost) : Path :=
  if b.dest = [] then layerFile world else sanitizeFile b.dest

/-- `handle_map_download_post`. -/
def Engines.postDownload (s : Engines) (b : DownloadPost) : Engines × Reply :=
  if !b.auth then (s, .unauthorized)
  else if !isLink b.url then (s, .refused 400 "bad_url")
  else if !b.card then (s, .refused 409 "sd_absent")
  else if s.download.phase = .running then (s, .refused 409 "download_busy")
  else
    let download := s.download.start s.files .running .alloc b.url b.path none b.spawned
    if b.spawned then ({ s with download }, .status)
    else
      ({ s with download, reports := s.reports ++ [download.report s.files] },
        .refused 409 "download_busy")

/-- `handle_map_download_cancel`. -/
def Engines.cancelDownload (s : Engines) (auth : Bool) : Engines × Reply :=
  if !auth then (s, .unauthorized)
  else if s.download.phase = .running then
    ({ s with download := { s.download with cancel := true } }, .status)
  else (s, .status)

/-- `sanitize_layer_id`. -/
def sanitizeLayerId (name : Bytes) : Bytes :=
  let keep (c : UInt8) : Option UInt8 :=
    if (0x30 ≤ c ∧ c ≤ 0x39) ∨ (0x41 ≤ c ∧ c ≤ 0x5A) ∨ (0x61 ≤ c ∧ c ≤ 0x7A) ∨ c = 0x2D then some c
    else if c = 0x20 ∨ c = 0x5F then some 0x5F
    else none
  let out := (name.filterMap keep).take 48
  ((out.dropWhile (· = 0x5F)).reverse.dropWhile (· = 0x5F)).reverse

/-- The body of `POST /api/map/extract`, its geometry read: the text of the sidecar where it is a
polygon, or the code of the refusal. -/
structure ExtractPost where
  auth : Bool := true
  url : Bytes := []
  maxzoom : Int
  geometry : Except String (Option Bytes)
  card : Bool := true
  toWorld : Bool := false
  name : Bytes := []
  /-- `area_hash_id` -/
  areaHash : Bytes
  spawned : Bool := true

/-- `MapConfig::MAX_ZOOM`. -/
def MAX_ZOOM : Int := 19

def ExtractPost.path (b : ExtractPost) : Path :=
  if b.toWorld then layerFile world
  else
    let id := sanitizeLayerId b.name
    let id := if id = world then world ++ [0x5F, 0x61, 0x72, 0x65, 0x61] else id
    layerFile (if id = [] then b.areaHash else id)

/-- `handle_map_extract_post`. -/
def Engines.postExtract (s : Engines) (b : ExtractPost) : Engines × Reply :=
  if !b.auth then (s, .unauthorized)
  else if b.url ≠ [] ∧ !isLink b.url then (s, .refused 400 "bad_url")
  else if b.maxzoom < 1 ∨ b.maxzoom > MAX_ZOOM then (s, .refused 400 "bad_zoom")
  else
    match b.geometry with
    | .error code => (s, .refused 400 code)
    | .ok sidecar =>
      if !b.card then (s, .refused 409 "sd_absent")
      else if s.download.phase = .running ∨ s.extract.phase.active then
        (s, .refused 409 "map_job_busy")
      else
        let extract := s.extract.start s.files .scanning .resolve b.url b.path sidecar b.spawned
        if b.spawned then ({ s with extract }, .status)
        else
          ({ s with extract, reports := s.reports ++ [extract.report s.files] },
            .refused 409 "map_job_busy")

/-- `handle_map_extract_cancel`. -/
def Engines.cancelExtract (s : Engines) (auth : Bool) : Engines × Reply :=
  if !auth then (s, .unauthorized)
  else if s.extract.phase.active then
    ({ s with extract := { s.extract with cancel := true } }, .status)
  else (s, .status)

/-- A request, or a step of a task. -/
inductive Event where
  | postDownload (b : DownloadPost)
  | cancelDownload (auth : Bool)
  | postExtract (b : ExtractPost)
  | cancelExtract (auth : Bool)
  | download (r : Result)
  | extract (scan : Scan) (r : Result)

/-- The job is about to publish its outcome. -/
def Fetch.publishes : Option Fetch → Bool
  | some (.publish _ _) => true
  | _ => false

def Cut.publishes : Option Cut → Bool
  | some (.publish _ _) => true
  | _ => false

/-- The reports after a step, with the one of a job that has published. -/
def Engines.note {κ : Type} (s : Engines) (published : Bool) (files : Files) (j : Job κ) :
    List Report :=
  if published then s.reports ++ [j.report files] else s.reports

def Engines.step (s : Engines) : Event → Engines
  | .postDownload b => (s.postDownload b).1
  | .cancelDownload auth => (s.cancelDownload auth).1
  | .postExtract b => (s.postExtract b).1
  | .cancelExtract auth => (s.cancelExtract auth).1
  | .download r =>
    let (files, download) := downloadStep s.files s.download r
    { s with files, download, reports := s.note (Fetch.publishes s.download.task) files download }
  | .extract scan r =>
    let (files, extract) := extractStep s.files s.extract scan r
    { s with files, extract, reports := s.note (Cut.publishes s.extract.task) files extract }

end URSupreme.MapJobs
