import Iptv.Lib.Machine
import Iptv.Abr.AbrManager
import Iptv.Network.NetworkComponent
import Iptv.Player.UrlResolver

namespace Iptv.Player
open Iptv.Manifest Iptv.Network Iptv.Abr

structure PlaybackContext (Double : Type) where
  masterUrl : Text
  masterPlaylist : Playlist Double
  currentVariantUri : Text
  nextSequenceIndex : UInt64 := 0
  currentThroughput : Rat := 0
  deriving DecidableEq

/-- A bundle in `segment_queue_`, with the segment it was downloaded from. -/
structure QueuedSegment where
  bundle : MediaSegmentBundle
  sequenceIndex : UInt64
  variantUri : Text
  deriving DecidableEq

/-- What a download is for, with the locals of the loops it was called from. -/
inductive Purpose (Double : Type)
  | master (masterUrl : Text)
  | variant (ctx : PlaybackContext Double)
  | segment (ctx : PlaybackContext Double) (playlist : Playlist Double)
      (segment : MediaSegmentRef Double) (rest : List (MediaSegmentRef Double))
  deriving DecidableEq

/-- Where the worker thread stands: in a download, at the head of one of its
loops, or in front of one of the three statements behind a segment's download. -/
inductive Point (Double : Type)
  | fetch (purpose : Purpose Double) (download : Download)
  | variantLoop (ctx : PlaybackContext Double)
  | segmentLoop (ctx : PlaybackContext Double) (playlist : Playlist Double)
      (rest : List (MediaSegmentRef Double))
  | pushSegment (ctx : PlaybackContext Double) (playlist : Playlist Double)
      (rest : List (MediaSegmentRef Double)) (queued : QueuedSegment)
  | evaluateAbrSwitch (ctx : PlaybackContext Double) (playlist : Playlist Double)
      (rest : List (MediaSegmentRef Double))
  | clearQueue (ctx : PlaybackContext Double) (playlist : Playlist Double) (nextUri : Text)
  | finished
  | terminated
  deriving DecidableEq

/-- One session: the worker thread, its stop token, and the members of the
orchestrator that outlive it. -/
structure Session (Double : Type) where
  abrManager : AbrManager := {}
  segmentQueue : List QueuedSegment := []
  stopRequested : Bool := false
  point : Point Double
  deriving DecidableEq

/-- The worker's own steps, the end of a transfer, the consumer's pops, and the stop request. -/
inductive Event
  | worker
  | transferDone (transfer : Transfer)
  | pop
  | requestStop

inductive Seen
  | transferStarted (url : Text)
  | segmentDownloaded (sequenceIndex : UInt64) (throughputMbps : Rat)
  | delivered (sequenceIndex : UInt64)
  | discarded (sequenceIndices : List UInt64)
  deriving DecidableEq

variable {Double : Type}

/-- The thread function with its first download ahead. -/
def Session.start (policy : RetryPolicy) (masterUrl : Text) (abrManager : AbrManager) : Session Double where
  abrManager
  point := .fetch (.master masterUrl) (.start policy masterUrl)

def Session.goto (s : Session Double) (point : Point Double) : Session Double := { s with point }

@[simp] theorem Session.goto_point (s : Session Double) (point : Point Double) : (s.goto point).point = point := rfl

@[simp] theorem Session.goto_segmentQueue (s : Session Double) (point : Point Double) :
    (s.goto point).segmentQueue = s.segmentQueue := rfl

/-- Only segments are downloaded with the worker's token; a playlist download
takes the default one, which is never stopped. -/
def Purpose.stopped (s : Session Double) : Purpose Double → Bool
  | .segment .. => s.stopRequested
  | .master _ | .variant _ => false

/-- `fetchMasterPlaylist` behind its download. -/
def masterPlaylist : PlaylistDownloadResult Double → Option (Playlist Double)
  | .bundle playlist => if playlist.type ≠ .master ∨ playlist.variants = [] then none else some playlist
  | .networkError _ | .parseError _ => none

theorem masterPlaylist_variants {result : PlaylistDownloadResult Double} {playlist : Playlist Double}
    (accepted : masterPlaylist result = some playlist) : playlist.variants ≠ [] := by
  cases result with
  | bundle found =>
    simp only [masterPlaylist] at accepted
    split at accepted
    · simp at accepted
    · rename_i valid
      cases accepted
      exact fun none => valid (.inr none)
  | networkError _ => simp [masterPlaylist] at accepted
  | parseError _ => simp [masterPlaylist] at accepted

/-- The rest of `downloadLoop` up to the variant loop. -/
def Session.onMaster (lib : CxxStd Double) (s : Session Double) (masterUrl : Text)
    (result : PlaylistDownloadResult Double) : Session Double :=
  match masterPlaylist result with
  | none => s.goto .finished
  | some playlist =>
    match selectVariant lib.round s.abrManager playlist.variants 0 with
    | .error _ => s.goto .terminated
    | .ok (initialVariant, abrManager) =>
      { s with
        abrManager
        point := .variantLoop
          { masterUrl
            masterPlaylist := playlist
            currentVariantUri := resolveUrl masterUrl initialVariant.uri } }

def Session.onVariant (s : Session Double) (ctx : PlaybackContext Double)
    (result : PlaylistDownloadResult Double) : Session Double :=
  match result with
  | .bundle playlist => s.goto (.segmentLoop ctx playlist playlist.segments)
  | .networkError _ | .parseError _ => s.goto .finished

def Session.onSegment (lib : CxxStd Double) (s : Session Double) (ctx : PlaybackContext Double)
    (playlist : Playlist Double) (segment : MediaSegmentRef Double) (rest : List (MediaSegmentRef Double))
    (result : SegmentDownloadResult) : Session Double × List Seen :=
  match result with
  | .networkError _ => (s.goto .finished, [])
  | .bundle bundle =>
    (s.goto (.pushSegment
        { ctx with
          currentThroughput := bundle.metrics.throughputMbps lib.round
          nextSequenceIndex := segment.sequenceIndex + 1 }
        playlist rest ⟨bundle, segment.sequenceIndex, ctx.currentVariantUri⟩),
      [.segmentDownloaded segment.sequenceIndex (bundle.metrics.throughputMbps lib.round)])

/-- The end of the body of `processVariantLoop` when `downloadSegments` returned true. -/
def afterSegments (ctx : PlaybackContext Double) (playlist : Playlist Double) : Point Double :=
  if playlist.hasEndlist then .finished else .variantLoop ctx

/-- The next step of the worker thread outside of a transfer. -/
def Session.work (lib : CxxStd Double) (policy : RetryPolicy) (s : Session Double) :
    Option (Session Double × List Seen) :=
  match s.point with
  | .fetch purpose download =>
    if download.performing then none
    else some (s.goto (.fetch purpose { download with performing := true }), [.transferStarted download.url])
  | .variantLoop ctx =>
    if s.stopRequested then some (s.goto .finished, [])
    else some (s.goto (.fetch (.variant ctx) (.start policy ctx.currentVariantUri)), [])
  | .segmentLoop ctx playlist [] => some (s.goto (afterSegments ctx playlist), [])
  | .segmentLoop ctx playlist (segment :: rest) =>
    if s.stopRequested then some (s.goto .finished, [])
    else if segment.sequenceIndex < ctx.nextSequenceIndex then some (s.goto (.segmentLoop ctx playlist rest), [])
    else
      some (s.goto (.fetch (.segment ctx playlist segment rest)
        (.start policy (resolveUrl ctx.currentVariantUri segment.uri))), [])
  | .pushSegment ctx playlist rest queued =>
    some ({ s with
      segmentQueue := s.segmentQueue ++ [queued]
      point := .evaluateAbrSwitch ctx playlist rest }, [])
  | .evaluateAbrSwitch ctx playlist rest =>
    match selectVariant lib.round s.abrManager ctx.masterPlaylist.variants ctx.currentThroughput with
    | .error _ => some (s.goto .terminated, [])
    | .ok (idealVariant, abrManager) =>
      let nextUri := resolveUrl ctx.masterUrl idealVariant.uri
      let point := if nextUri ≠ ctx.currentVariantUri then .clearQueue ctx playlist nextUri
        else .segmentLoop ctx playlist rest
      some ({ s with abrManager, point }, [])
  | .clearQueue ctx playlist nextUri =>
    some ({ s with
      segmentQueue := []
      point := afterSegments { ctx with currentVariantUri := nextUri } playlist },
      [.discarded (s.segmentQueue.map (·.sequenceIndex))])
  | .finished | .terminated => none

variable [Zero Double]

def Session.deliver (lib : CxxStd Double) (s : Session Double) (response : HttpResponse) :
    Purpose Double → Session Double × List Seen
  | .master masterUrl => (s.onMaster lib masterUrl (playlistResult lib response), [])
  | .variant ctx => (s.onVariant ctx (playlistResult lib response), [])
  | .segment ctx playlist segment rest =>
    s.onSegment lib ctx playlist segment rest (segmentResult response s.stopRequested)

/-- A transfer ends in any way it can; it is aborted by a callback only when its token is stopped. -/
def Session.transferDone (lib : CxxStd Double) (policy : RetryPolicy) (s : Session Double)
    (transfer : Transfer) : Option (Session Double × List Seen) :=
  match s.point with
  | .fetch purpose download =>
    if download.performing = true ∧ (transfer.code = .abortedByCallback → purpose.stopped s = true) then
      match download.finish policy (purpose.stopped s) transfer with
      | .retry next => some (s.goto (.fetch purpose next), [])
      | .done response => some (s.deliver lib response purpose)
    else none
  | _ => none

def step (lib : CxxStd Double) (policy : RetryPolicy) (s : Session Double) :
    Event → Option (Session Double × List Seen)
  | .worker => s.work lib policy
  | .transferDone transfer => s.transferDone lib policy transfer
  | .pop =>
    match s.segmentQueue with
    | [] => none
    | queued :: rest => some ({ s with segmentQueue := rest }, [.delivered queued.sequenceIndex])
  | .requestStop => some ({ s with stopRequested := true }, [])

/-- Everything a step can do, one case for each statement of the worker and one
for each of the other threads. -/
inductive Transition (lib : CxxStd Double) (policy : RetryPolicy) (s : Session Double) :
    Event → Session Double → List Seen → Prop
  | popped {queued rest} (queue : s.segmentQueue = queued :: rest) :
      Transition lib policy s .pop { s with segmentQueue := rest } [.delivered queued.sequenceIndex]
  | stopped : Transition lib policy s .requestStop { s with stopRequested := true } []
  | began {purpose download} (point : s.point = .fetch purpose download)
      (ready : download.performing = false) :
      Transition lib policy s .worker (s.goto (.fetch purpose { download with performing := true }))
        [.transferStarted download.url]
  | retried {purpose download transfer next} (point : s.point = .fetch purpose download)
      (performing : download.performing = true)
      (attempt : download.finish policy (purpose.stopped s) transfer = .retry next) :
      Transition lib policy s (.transferDone transfer) (s.goto (.fetch purpose next)) []
  | masterRejected {masterUrl download transfer response} (point : s.point = .fetch (.master masterUrl) download)
      (performing : download.performing = true)
      (attempt : download.finish policy false transfer = .done response)
      (rejected : masterPlaylist (playlistResult lib response) = none) :
      Transition lib policy s (.transferDone transfer) (s.goto .finished) []
  | masterThrew {masterUrl download transfer response playlist failure}
      (point : s.point = .fetch (.master masterUrl) download) (performing : download.performing = true)
      (attempt : download.finish policy false transfer = .done response)
      (accepted : masterPlaylist (playlistResult lib response) = some playlist)
      (failed : selectVariant lib.round s.abrManager playlist.variants 0 = .error failure) :
      Transition lib policy s (.transferDone transfer) (s.goto .terminated) []
  | masterAccepted {masterUrl download transfer response playlist initialVariant abrManager}
      (point : s.point = .fetch (.master masterUrl) download) (performing : download.performing = true)
      (attempt : download.finish policy false transfer = .done response)
      (accepted : masterPlaylist (playlistResult lib response) = some playlist)
      (selected : selectVariant lib.round s.abrManager playlist.variants 0 = .ok (initialVariant, abrManager)) :
      Transition lib policy s (.transferDone transfer)
        { s with
          abrManager
          point := .variantLoop
            { masterUrl
              masterPlaylist := playlist
              currentVariantUri := resolveUrl masterUrl initialVariant.uri } } []
  | variantFailed {ctx download transfer response} (point : s.point = .fetch (.variant ctx) download)
      (performing : download.performing = true)
      (attempt : download.finish policy false transfer = .done response)
      (failed : ∀ playlist, playlistResult lib response ≠ .bundle playlist) :
      Transition lib policy s (.transferDone transfer) (s.goto .finished) []
  | variantLoaded {ctx download transfer response playlist} (point : s.point = .fetch (.variant ctx) download)
      (performing : download.performing = true)
      (attempt : download.finish policy false transfer = .done response)
      (loaded : playlistResult lib response = .bundle playlist) :
      Transition lib policy s (.transferDone transfer)
        (s.goto (.segmentLoop ctx playlist playlist.segments)) []
  | segmentFailed {ctx playlist segment rest download transfer response}
      (point : s.point = .fetch (.segment ctx playlist segment rest) download)
      (performing : download.performing = true)
      (attempt : download.finish policy s.stopRequested transfer = .done response)
      (failed : ∀ bundle, segmentResult response s.stopRequested ≠ .bundle bundle) :
      Transition lib policy s (.transferDone transfer) (s.goto .finished) []
  | segmentLoaded {ctx playlist segment rest download transfer response bundle}
      (point : s.point = .fetch (.segment ctx playlist segment rest) download)
      (performing : download.performing = true)
      (attempt : download.finish policy s.stopRequested transfer = .done response)
      (loaded : segmentResult response s.stopRequested = .bundle bundle) :
      Transition lib policy s (.transferDone transfer)
        (s.goto (.pushSegment
          { ctx with
            currentThroughput := bundle.metrics.throughputMbps lib.round
            nextSequenceIndex := segment.sequenceIndex + 1 }
          playlist rest ⟨bundle, segment.sequenceIndex, ctx.currentVariantUri⟩))
        [.segmentDownloaded segment.sequenceIndex (bundle.metrics.throughputMbps lib.round)]
  | cancelled (stop : s.stopRequested = true)
      (point : (∃ ctx, s.point = .variantLoop ctx) ∨
        ∃ ctx playlist segment rest, s.point = .segmentLoop ctx playlist (segment :: rest)) :
      Transition lib policy s .worker (s.goto .finished) []
  | variantStarted {ctx} (point : s.point = .variantLoop ctx) (running : s.stopRequested = false) :
      Transition lib policy s .worker
        (s.goto (.fetch (.variant ctx) (.start policy ctx.currentVariantUri))) []
  | segmentsEnded {ctx playlist} (point : s.point = .segmentLoop ctx playlist []) :
      Transition lib policy s .worker (s.goto (afterSegments ctx playlist)) []
  | segmentSkipped {ctx playlist segment rest} (point : s.point = .segmentLoop ctx playlist (segment :: rest))
      (running : s.stopRequested = false) (old : segment.sequenceIndex < ctx.nextSequenceIndex) :
      Transition lib policy s .worker (s.goto (.segmentLoop ctx playlist rest)) []
  | segmentStarted {ctx playlist segment rest} (point : s.point = .segmentLoop ctx playlist (segment :: rest))
      (running : s.stopRequested = false) (due : ¬ segment.sequenceIndex < ctx.nextSequenceIndex) :
      Transition lib policy s .worker
        (s.goto (.fetch (.segment ctx playlist segment rest)
          (.start policy (resolveUrl ctx.currentVariantUri segment.uri)))) []
  | pushed {ctx playlist rest queued} (point : s.point = .pushSegment ctx playlist rest queued) :
      Transition lib policy s .worker
        { s with
          segmentQueue := s.segmentQueue ++ [queued]
          point := .evaluateAbrSwitch ctx playlist rest } []
  | threw {ctx playlist rest failure} (point : s.point = .evaluateAbrSwitch ctx playlist rest)
      (failed :
        selectVariant lib.round s.abrManager ctx.masterPlaylist.variants ctx.currentThroughput = .error failure) :
      Transition lib policy s .worker (s.goto .terminated) []
  | kept {ctx playlist rest idealVariant abrManager} (point : s.point = .evaluateAbrSwitch ctx playlist rest)
      (selected : selectVariant lib.round s.abrManager ctx.masterPlaylist.variants ctx.currentThroughput =
        .ok (idealVariant, abrManager))
      (same : resolveUrl ctx.masterUrl idealVariant.uri = ctx.currentVariantUri) :
      Transition lib policy s .worker { s with abrManager, point := .segmentLoop ctx playlist rest } []
  | switched {ctx playlist rest idealVariant abrManager} (point : s.point = .evaluateAbrSwitch ctx playlist rest)
      (selected : selectVariant lib.round s.abrManager ctx.masterPlaylist.variants ctx.currentThroughput =
        .ok (idealVariant, abrManager))
      (other : resolveUrl ctx.masterUrl idealVariant.uri ≠ ctx.currentVariantUri) :
      Transition lib policy s .worker
        { s with
          abrManager
          point := .clearQueue ctx playlist (resolveUrl ctx.masterUrl idealVariant.uri) } []
  | cleared {ctx playlist nextUri} (point : s.point = .clearQueue ctx playlist nextUri) :
      Transition lib policy s .worker
        { s with
          segmentQueue := []
          point := afterSegments { ctx with currentVariantUri := nextUri } playlist }
        [.discarded (s.segmentQueue.map (·.sequenceIndex))]

theorem work_cases {lib : CxxStd Double} {policy : RetryPolicy} {s s' : Session Double} {new : List Seen}
    (run : s.work lib policy = some (s', new)) : Transition lib policy s .worker s' new := by
  unfold Session.work at run
  split at run
  · rename_i purpose download point
    split at run
    · simp at run
    · rename_i ready
      cases run
      exact .began point (by simpa using ready)
  · rename_i ctx point
    split at run <;> rename_i stop <;> cases run
    · exact .cancelled stop (.inl ⟨ctx, point⟩)
    · exact .variantStarted point (by simpa using stop)
  · rename_i ctx playlist point
    cases run
    exact .segmentsEnded point
  · rename_i ctx playlist segment rest point
    split at run
    · rename_i stop
      cases run
      exact .cancelled stop (.inr ⟨ctx, playlist, segment, rest, point⟩)
    · rename_i running
      split at run <;> rename_i order <;> cases run
      · exact .segmentSkipped point (by simpa using running) order
      · exact .segmentStarted point (by simpa using running) order
  · rename_i ctx playlist rest queued point
    cases run
    exact .pushed point
  · rename_i ctx playlist rest point
    split at run
    · rename_i failure failed
      cases run
      exact .threw point failed
    · rename_i idealVariant abrManager selected
      dsimp only at run
      by_cases same : resolveUrl ctx.masterUrl idealVariant.uri = ctx.currentVariantUri
      · simp only [same, ne_eq, not_true_eq_false, if_false, Option.some.injEq, Prod.mk.injEq] at run
        obtain ⟨rfl, rfl⟩ := run
        exact .kept point selected same
      · simp only [same, ne_eq, not_false_eq_true, if_true, Option.some.injEq, Prod.mk.injEq] at run
        obtain ⟨rfl, rfl⟩ := run
        exact .switched point selected same
  · rename_i ctx playlist nextUri point
    cases run
    exact .cleared point
  · simp at run
  · simp at run

theorem transferDone_cases {lib : CxxStd Double} {policy : RetryPolicy} {s s' : Session Double}
    {transfer : Transfer} {new : List Seen} (run : s.transferDone lib policy transfer = some (s', new)) :
    Transition lib policy s (.transferDone transfer) s' new := by
  unfold Session.transferDone at run
  split at run
  · rename_i purpose download point
    split at run
    · rename_i enabled
      split at run
      · rename_i next attempt
        cases run
        exact .retried point enabled.1 attempt
      · rename_i response attempt
        cases purpose with
        | master masterUrl =>
          simp only [Session.deliver, Session.onMaster, Option.some.injEq, Prod.mk.injEq] at run
          obtain ⟨rfl, rfl⟩ := run
          split
          · rename_i rejected
            exact .masterRejected point enabled.1 attempt rejected
          · rename_i playlist accepted
            split
            · rename_i failure failed
              exact .masterThrew point enabled.1 attempt accepted failed
            · rename_i initialVariant abrManager selected
              exact .masterAccepted point enabled.1 attempt accepted selected
        | variant ctx =>
          simp only [Session.deliver, Session.onVariant, Option.some.injEq, Prod.mk.injEq] at run
          obtain ⟨rfl, rfl⟩ := run
          split
          · rename_i playlist loaded
            exact .variantLoaded point enabled.1 attempt loaded
          · rename_i error failed
            exact .variantFailed point enabled.1 attempt (by simp [failed])
          · rename_i error failed
            exact .variantFailed point enabled.1 attempt (by simp [failed])
        | segment ctx playlist segment rest =>
          simp only [Session.deliver, Session.onSegment, Option.some.injEq] at run
          split at run
          · rename_i error failed
            cases run
            exact .segmentFailed point enabled.1 attempt (by simp [failed])
          · rename_i bundle loaded
            cases run
            exact .segmentLoaded point enabled.1 attempt loaded
    · simp at run
  · simp at run

/-- The inversion of a step; later proofs never unfold the step function. -/
theorem step_cases {lib : CxxStd Double} {policy : RetryPolicy} {s s' : Session Double} {e : Event}
    {new : List Seen} (run : step lib policy s e = some (s', new)) :
    Transition lib policy s e s' new := by
  cases e with
  | worker => exact work_cases run
  | transferDone transfer => exact transferDone_cases run
  | pop =>
    simp only [step] at run
    split at run
    · simp at run
    · rename_i queued rest queue
      cases run
      exact .popped queue
  | requestStop =>
    cases run
    exact .stopped

end Iptv.Player
