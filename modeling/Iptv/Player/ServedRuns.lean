import Iptv.Player.Session

namespace Iptv.Player
open Iptv.Manifest Iptv.Network Iptv.Abr
variable {Double : Type}

/-- The response that a download would end with after this transfer. -/
def Session.response (policy : RetryPolicy) (s : Session Double) (transfer : Transfer) :
    Option (Purpose Double × HttpResponse) :=
  match s.point with
  | .fetch purpose download =>
    match download.finish policy (purpose.stopped s) transfer with
    | .retry _ => none
    | .done response => some (purpose, response)
  | _ => none

def loadsPlaylist (kind : Playlist Double → Prop) : PlaylistDownloadResult Double → Prop
  | .bundle playlist => kind playlist
  | .networkError _ | .parseError _ => False

def loadsSegment : SegmentDownloadResult → Prop
  | .bundle _ => True
  | .networkError _ => False

/-- The response is a good one: a master playlist that is accepted, a variant
playlist of the given kind, or a segment. -/
def Purpose.Served [Zero Double] (lib : CxxStd Double) (kind : Playlist Double → Prop) (stopRequested : Bool)
    (response : HttpResponse) : Purpose Double → Prop
  | .master _ => (masterPlaylist (playlistResult lib response)).isSome = true
  | .variant _ => loadsPlaylist kind (playlistResult lib response)
  | .segment .. => loadsSegment (segmentResult response stopRequested)

/-- Every download that ends succeeds, and nobody requests a stop. -/
def Served [Zero Double] (lib : CxxStd Double) (policy : RetryPolicy) (kind : Playlist Double → Prop)
    (s : Session Double) : Event → Prop
  | .transferDone transfer =>
    ∀ ended ∈ s.response policy transfer, ended.1.Served lib kind s.stopRequested ended.2
  | .requestStop => False
  | .worker | .pop => True

instance (kind : Playlist Double → Prop) [DecidablePred kind] (result : PlaylistDownloadResult Double) :
    Decidable (loadsPlaylist kind result) :=
  match result with
  | .bundle playlist => inferInstanceAs (Decidable (kind playlist))
  | .networkError _ | .parseError _ => inferInstanceAs (Decidable False)

instance (result : SegmentDownloadResult) : Decidable (loadsSegment result) :=
  match result with
  | .bundle _ => inferInstanceAs (Decidable True)
  | .networkError _ => inferInstanceAs (Decidable False)

variable [Zero Double]

instance (lib : CxxStd Double) (kind : Playlist Double → Prop) [DecidablePred kind] (stopRequested : Bool)
    (response : HttpResponse) (purpose : Purpose Double) :
    Decidable (purpose.Served lib kind stopRequested response) :=
  match purpose with
  | .master _ => inferInstanceAs (Decidable (_ = true))
  | .variant _ => inferInstanceAs (Decidable (loadsPlaylist kind _))
  | .segment .. => inferInstanceAs (Decidable (loadsSegment _))

instance (lib : CxxStd Double) (policy : RetryPolicy) (kind : Playlist Double → Prop) [DecidablePred kind]
    (s : Session Double) (e : Event) : Decidable (Served lib policy kind s e) :=
  match e with
  | .transferDone transfer =>
    inferInstanceAs (Decidable
      (∀ ended ∈ s.response policy transfer, ended.1.Served lib kind s.stopRequested ended.2))
  | .requestStop => inferInstanceAs (Decidable False)
  | .worker | .pop => inferInstanceAs (Decidable True)

variable {lib : CxxStd Double} {policy : RetryPolicy} {kind : Playlist Double → Prop}
  {s : Session Double} {transfer : Transfer} {download : Download} {response : HttpResponse}

omit [Zero Double] in
theorem response_cases {purpose : Purpose Double} (ended : (purpose, response) ∈ s.response policy transfer) :
    ∃ download, s.point = .fetch purpose download ∧
      download.finish policy (purpose.stopped s) transfer = .done response := by
  unfold Session.response at ended
  split at ended
  · rename_i point
    split at ended
    · cases ended
    · rename_i attempt
      cases ended
      exact ⟨_, point, attempt⟩
  · cases ended

theorem Served.done {purpose : Purpose Double} (served : Served lib policy kind s (.transferDone transfer))
    (point : s.point = .fetch purpose download)
    (attempt : download.finish policy (purpose.stopped s) transfer = .done response) :
    purpose.Served lib kind s.stopRequested response := by
  refine served (purpose, response) ?_
  simp [Session.response, point, attempt]

theorem Served.not_rejected {masterUrl : Text} (served : Served lib policy kind s (.transferDone transfer))
    (point : s.point = .fetch (.master masterUrl) download)
    (attempt : download.finish policy false transfer = .done response) :
    masterPlaylist (playlistResult lib response) ≠ none := by
  have accepted : (masterPlaylist (playlistResult lib response)).isSome = true := served.done point attempt
  intro rejected
  simp [rejected] at accepted

theorem Served.playlist {ctx : PlaybackContext Double} (served : Served lib policy kind s (.transferDone transfer))
    (point : s.point = .fetch (.variant ctx) download)
    (attempt : download.finish policy false transfer = .done response) :
    ∃ playlist, playlistResult lib response = .bundle playlist ∧ kind playlist := by
  have loads : loadsPlaylist kind (playlistResult lib response) := served.done point attempt
  cases result : playlistResult lib response with
  | bundle playlist =>
    rw [result] at loads
    exact ⟨playlist, rfl, loads⟩
  | networkError error => simp [result, loadsPlaylist] at loads
  | parseError error => simp [result, loadsPlaylist] at loads

theorem Served.segment {ctx : PlaybackContext Double} {playlist : Playlist Double}
    {segment : MediaSegmentRef Double} {rest : List (MediaSegmentRef Double)}
    (served : Served lib policy kind s (.transferDone transfer))
    (point : s.point = .fetch (.segment ctx playlist segment rest) download)
    (attempt : download.finish policy s.stopRequested transfer = .done response) :
    ∃ bundle, segmentResult response s.stopRequested = .bundle bundle := by
  have loads : loadsSegment (segmentResult response s.stopRequested) := served.done point attempt
  cases result : segmentResult response s.stopRequested with
  | bundle bundle => exact ⟨bundle, rfl⟩
  | networkError error => simp [result, loadsSegment] at loads

def served (body : Text) (duration : Int) : Transfer := ⟨.ok, 200, body, duration, 0⟩

/-- A whole download that succeeds at its first attempt. -/
def serve (body : Text) (duration : Int) : List Event := [.worker, .transferDone (served body duration)]

def twoRates : Text :=
  text "#EXTM3U\n#EXT-X-STREAM-INF:BANDWIDTH=500000\nv0.m3u8\n#EXT-X-STREAM-INF:BANDWIDTH=1000000\nv1.m3u8"

def twoSegments : Text := text "#EXTM3U\n#EXTINF:1,\na.ts\n#EXTINF:1,\nb.ts"

def twoSegmentVod : Text := twoSegments ++ text "\n#EXT-X-ENDLIST"

/-- The worker loads the master playlist and the playlist of its first variant. -/
def loadFirstVariant (playlist : Text) : List Event := serve twoRates 1 ++ .worker :: serve playlist 1

/-- It downloads a segment of two bytes, pushes it and evaluates the variant. -/
def loadSegment (duration : Int) : List Event := .worker :: serve (text "ts") duration ++ [.worker, .worker]

end Iptv.Player
