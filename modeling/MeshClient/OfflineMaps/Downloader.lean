import MeshClient.OfflineMaps.TileMath

namespace MeshClient.OfflineMaps

def TILE_CACHE_MAX_BYTES : ℕ := 1024 * 1024 * 1024
def OFFLINE_MAP_AVG_TILE_BYTES : ℕ := 10 * 1024
def OFFLINE_MAP_MAX_ESTIMATE_BYTES : ℕ := TILE_CACHE_MAX_BYTES / 2
def OFFLINE_MAP_MAX_TILES : ℕ := OFFLINE_MAP_MAX_ESTIMATE_BYTES / OFFLINE_MAP_AVG_TILE_BYTES
def OFFLINE_MAP_MAX_ZOOM : ℤ := 17
def OFFLINE_MAP_DOWNLOAD_CONCURRENCY : ℕ := 4

inductive OfflineMapBasemapId where
  | osm
  | dark
  | usgsTopo
deriving DecidableEq

def supportsOfflineMapDownload (basemapId : OfflineMapBasemapId) : Bool := basemapId = .usgsTopo

structure OfflineMapsDownloadRequest where
  bounds : LatLonBounds
  minZoom : ℚ
  maxZoom : ℚ
  basemapId : OfflineMapBasemapId

def estimateRegionBytes (tileCount : ℤ) : ℤ := tileCount * OFFLINE_MAP_AVG_TILE_BYTES

def isRegionWithinCaps (tileCount : ℤ) : Bool :=
  0 < tileCount && tileCount ≤ OFFLINE_MAP_MAX_TILES && estimateRegionBytes tileCount ≤ OFFLINE_MAP_MAX_ESTIMATE_BYTES

-- The request with the zooms that are used.
def clampZooms (req : OfflineMapsDownloadRequest) : OfflineMapsDownloadRequest :=
  let minZoom : ℤ := max 0 ⌊req.minZoom⌋
  { req with minZoom, maxZoom := (min OFFLINE_MAP_MAX_ZOOM (max minZoom ⌊req.maxZoom⌋) : ℤ) }

def regionTiles (formula : TileFormula) (req : OfflineMapsDownloadRequest) : List WebMercatorTile :=
  enumerateRegionTiles formula req.bounds req.minZoom req.maxZoom

-- What a running `fetchOne` waits for: the cached tile, the response, its body, or that a body
-- of so many bytes is stored.
inductive Stage where
  | cache
  | response
  | body
  | store (byteLength : ℕ)
  | over
deriving DecidableEq

structure Flight where
  tile : WebMercatorTile
  stage : Stage
deriving DecidableEq

inductive Timer where
  | poll
  | debounce
deriving DecidableEq

-- Where `runJob` stands. It waits until it is online again, in so many nested waits of which the
-- innermost has the timer; or for a batch; or for the manifest.
inductive Phase where
  | waiting (levels : ℕ) (timer : Option Timer)
  | fetching (batch : List Flight)
  | writing
  | written (stored : Bool)
  | ended
deriving DecidableEq

-- `counted` are the tiles behind `completed` and `failed`; the code does not keep them. That the
-- abort signal is aborted is `cancelled`.
structure ActiveJob where
  request : OfflineMapsDownloadRequest
  cancelled : Bool := false
  paused : Bool := false
  completed : ℕ := 0
  failed : ℕ := 0
  bytes : ℕ := 0
  total : ℕ
  queue : List WebMercatorTile
  phase : Phase := .fetching []
  counted : List WebMercatorTile := []

structure OfflineMapsProgress where
  source : OfflineMapBasemapId
  completed : ℕ
  total : ℕ
  failed : ℕ
  bytes : ℕ
  paused : Bool
deriving DecidableEq

structure OfflineMapsJobResult where
  completed : ℕ
  failed : ℕ
  bytes : ℕ
  cancelled : Bool
deriving DecidableEq

inductive Callback where
  | progress (p : OfflineMapsProgress)
  | done (r : OfflineMapsJobResult)
  | error
deriving DecidableEq

-- What a job does between two awaits. `stored` tells that its region is added to the manifest.
structure Turn where
  job : ActiveJob
  callbacks : List Callback := []
  stored : Bool := false

inductive Answer where
  | cached (byteLength : Option ℕ)
  | response (ok : Bool)
  | body (byteLength : ℕ)
  | stored
  | rejected

inductive JobEvent where
  | answer (i : ℕ) (a : Answer)
  | timer
  | unwind
  | manifest (ok : Bool)
  | resume

namespace ActiveJob

variable (job : ActiveJob)

def progress : OfflineMapsProgress where
  source := job.request.basemapId
  completed := job.completed
  total := job.total
  failed := job.failed
  bytes := job.bytes
  paused := job.paused

def result : OfflineMapsJobResult where
  completed := job.completed
  failed := job.failed
  bytes := job.bytes
  cancelled := job.cancelled

def complete (tile : WebMercatorTile) (byteLength : ℕ) : ActiveJob :=
  { job with completed := job.completed + 1, bytes := job.bytes + byteLength, counted := job.counted ++ [tile] }

def fail (tile : WebMercatorTile) : ActiveJob :=
  { job with failed := job.failed + 1, counted := job.counted ++ [tile] }

def fetchOne (tile : WebMercatorTile) : Flight := ⟨tile, if job.cancelled then .over else .cache⟩

-- What follows an exception in `fetchOne`.
def caught (online : Bool) (tile : WebMercatorTile) : ActiveJob :=
  if job.cancelled then job
  else if !online then { job with queue := tile :: job.queue }
  else job.fail tile

-- One of the awaits of `fetchOne` is answered.
def fetchAnswer (online : Bool) (flight : Flight) (a : Answer) : Option (ActiveJob × Stage) :=
  match flight.stage, a with
  | .cache, .cached (some byteLength) => some (job.complete flight.tile byteLength, .over)
  | .cache, .cached none => some (job, .response)
  | .response, .response ok =>
      if job.cancelled then some (job, .over)
      else if !ok then some (job.fail flight.tile, .over)
      else some (job, .body)
  | .body, .body byteLength => some (job, .store byteLength)
  | .store byteLength, .stored => some (job.complete flight.tile byteLength, .over)
  | .response, .rejected | .body, .rejected | .store _, .rejected => some (job.caught online flight.tile, .over)
  | _, _ => none

def finish : Turn := { job := { job with phase := .ended }, callbacks := [.done job.result] }

-- From the head of the loop to the next await.
def loopTop (concurrency : ℕ) (online : Bool) : Turn :=
  if !job.cancelled && job.queue ≠ [] then
    if !online then
      let job := { job with paused := true, phase := .waiting 1 (some .poll) }
      { job, callbacks := [.progress job.progress] }
    else
      { job := { job with
          queue := job.queue.drop concurrency
          phase := .fetching ((job.queue.take concurrency).map job.fetchOne) } }
  else if !job.cancelled then { job := { job with phase := .writing } }
  else job.finish

def thenTop (concurrency : ℕ) (online : Bool) : Turn :=
  let turn := job.loopTop concurrency online
  { turn with callbacks := .progress job.progress :: turn.callbacks }

-- The timer of the innermost wait fires.
def timerFires (online : Bool) (levels : ℕ) : Timer → Phase
  | .poll =>
      if job.cancelled then .waiting (levels - 1) none
      else if online then .waiting levels (some .debounce)
      else .waiting levels (some .poll)
  | .debounce =>
      if job.cancelled then .waiting (levels - 1) none
      else if !online then .waiting (levels + 1) (some .poll)
      else .waiting (levels - 1) none

-- `none` for what cannot come.
def turn (concurrency : ℕ) (online : Bool) : JobEvent → Option Turn
  | .answer i a =>
      match job.phase with
      | .fetching batch =>
          match batch[i]? with
          | none => none
          | some flight =>
              (job.fetchAnswer online flight a).map fun answered =>
                { job := { answered.1 with phase := .fetching (batch.set i ⟨flight.tile, answered.2⟩) } }
      | _ => none
  | .timer =>
      match job.phase with
      | .waiting levels (some timer) => some { job := { job with phase := job.timerFires online levels timer } }
      | _ => none
  | .unwind =>
      match job.phase with
      | .waiting (levels + 1) none => some { job := { job with phase := .waiting levels none } }
      | _ => none
  | .manifest ok =>
      match job.phase with
      | .writing => some { job := { job with phase := .written ok }, stored := ok }
      | _ => none
  | .resume =>
      match job.phase with
      | .waiting 0 none =>
          if job.cancelled then some job.finish else some ({ job with paused := false }.thenTop concurrency online)
      | .fetching batch =>
          if batch.all fun flight => flight.stage = .over then some (job.thenTop concurrency online) else none
      | .written stored =>
          some (if stored then job.finish else { job := { job with phase := .ended }, callbacks := [.error] })
      | _ => none

def cancel : ActiveJob :=
  { job with
    cancelled := true
    phase := match job.phase with
      | .waiting _ _ => .waiting 0 none
      | phase => phase }

end ActiveJob

structure Region where
  id : ℕ
  request : OfflineMapsDownloadRequest
  tileCount : ℕ

-- The jobs in the order they were started; the id of a job is its place. The ones that ended
-- are no longer in the code's map.
structure OfflineMapsDownloader where
  concurrency : ℕ := OFFLINE_MAP_DOWNLOAD_CONCURRENCY
  online : Bool := true
  jobs : List ActiveJob := []
  regions : List Region := []
  callbacks : List (ℕ × Callback) := []

inductive Event where
  | online (b : Bool)
  | start (req : OfflineMapsDownloadRequest)
  | cancel (jobId : ℕ)
  | job (jobId : ℕ) (e : JobEvent)

namespace OfflineMapsDownloader

def newJob (formula : TileFormula) (req : OfflineMapsDownloadRequest) : Option ActiveJob :=
  let req' := clampZooms req
  if !supportsOfflineMapDownload req.basemapId then none
  else if !isRegionWithinCaps (estimateTileCount formula req'.bounds req'.minZoom req'.maxZoom) then none
  else
    let queue := regionTiles formula req'
    some { request := req', total := queue.length, queue }

def start (formula : TileFormula) (s : OfflineMapsDownloader) (req : OfflineMapsDownloadRequest) : OfflineMapsDownloader :=
  match newJob formula req with
  | none => s
  | some job =>
      let turn := job.loopTop s.concurrency s.online
      { s with
        jobs := s.jobs ++ [turn.job]
        callbacks := s.callbacks ++ turn.callbacks.map fun c => (s.jobs.length, c) }

def cancel (s : OfflineMapsDownloader) (jobId : ℕ) : OfflineMapsDownloader :=
  match s.jobs[jobId]? with
  | none => s
  | some job => if job.phase = .ended then s else { s with jobs := s.jobs.set jobId job.cancel }

def take (s : OfflineMapsDownloader) (jobId : ℕ) (turn : Turn) : OfflineMapsDownloader :=
  { s with
    jobs := s.jobs.set jobId turn.job
    regions := s.regions ++ if turn.stored then [⟨jobId, turn.job.request, turn.job.completed⟩] else []
    callbacks := s.callbacks ++ turn.callbacks.map fun c => (jobId, c) }

def step (formula : TileFormula) (s : OfflineMapsDownloader) : Event → OfflineMapsDownloader
  | .online b => { s with online := b }
  | .start req => s.start formula req
  | .cancel jobId => s.cancel jobId
  | .job jobId e =>
      match (s.jobs[jobId]?).bind fun job => job.turn s.concurrency s.online e with
      | none => s
      | some turn => s.take jobId turn

end OfflineMapsDownloader

end MeshClient.OfflineMaps
