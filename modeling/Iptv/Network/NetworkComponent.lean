import Iptv.Manifest.M3u8Parser
import Iptv.Network.HttpClient

namespace Iptv.Network
open Iptv.Manifest

structure NetworkError where
  message : String
  deriving DecidableEq

/-- The alternatives of `PlaylistDownloadResult`; a bundle's raw buffer is the
text that the views of its playlist cover. -/
inductive PlaylistDownloadResult (Double : Type)
  | bundle (playlist : Playlist Double)
  | networkError (error : NetworkError)
  | parseError (error : ParseError)

structure MediaSegmentBundle where
  rawBuffer : List UInt8
  metrics : NetworkMetrics
  deriving DecidableEq

inductive SegmentDownloadResult
  | bundle (bundle : MediaSegmentBundle)
  | networkError (error : NetworkError)

def httpFailure (response : HttpResponse) : NetworkError :=
  ⟨"HTTP Request failed with status " ++ toString response.statusCode⟩

/-- The part of `downloadPlaylist` behind the HTTP download. -/
def playlistResult {Double : Type} [Zero Double] (lib : CxxStd Double) (response : HttpResponse) :
    PlaylistDownloadResult Double :=
  if response.isSuccess then
    match parse lib response.body with
    | .ok playlist => .bundle playlist
    | .error error => .parseError error
  else .networkError (httpFailure response)

/-- The part of `downloadSegment` behind the HTTP download. -/
def segmentResult (response : HttpResponse) (stopRequested : Bool) : SegmentDownloadResult :=
  if response.isSuccess then .bundle ⟨response.body, response.metrics⟩
  else if stopRequested then .networkError ⟨"Segment download cancelled by orchestrator."⟩
  else .networkError (httpFailure response)

end Iptv.Network
