import Iptv.Player.Session

namespace Iptv.Player
open Iptv.Manifest Iptv.Network Iptv.Abr
variable {Double : Type} {lib : CxxStd Double} {policy : RetryPolicy}

/-- The variants that the worker chooses from are not empty. -/
def Point.Playable : Point Double → Prop
  | .fetch (.master _) _ | .finished => True
  | .fetch (.variant ctx) _ | .fetch (.segment ctx _ _ _) _ | .variantLoop ctx | .segmentLoop ctx _ _
  | .pushSegment ctx _ _ _ | .evaluateAbrSwitch ctx _ _ | .clearQueue ctx _ _ =>
    ctx.masterPlaylist.variants ≠ []
  | .terminated => False

theorem afterSegments_playable {ctx : PlaybackContext Double} (playlist : Playlist Double)
    (variants : ctx.masterPlaylist.variants ≠ []) : (afterSegments ctx playlist).Playable := by
  unfold afterSegments
  split
  · trivial
  · exact variants

variable [Zero Double]

theorem Point.Playable.step {s s' : Session Double} {e : Event} {new : List Seen} (old : s.point.Playable)
    (run : Player.step lib policy s e = some (s', new)) : s'.point.Playable := by
  cases step_cases run with
  | popped | stopped => exact old
  | @began purpose download point =>
    rw [point] at old
    cases purpose <;> exact old
  | @retried purpose download transfer next point =>
    rw [point] at old
    cases purpose <;> exact old
  | masterRejected | variantFailed | segmentFailed | cancelled => trivial
  | masterThrew point performing attempt accepted failed =>
    obtain ⟨variant, _, selected⟩ := selectVariant_ok lib.round s.abrManager (masterPlaylist_variants accepted) 0
    simp [selected] at failed
  | masterAccepted point performing attempt accepted => exact masterPlaylist_variants accepted
  | @threw ctx playlist rest failure point failed =>
    rw [point] at old
    obtain ⟨variant, _, selected⟩ := selectVariant_ok lib.round s.abrManager old ctx.currentThroughput
    simp [selected] at failed
  | segmentsEnded point =>
    rw [point] at old
    exact afterSegments_playable _ old
  | cleared point =>
    rw [point] at old
    exact afterSegments_playable _ old
  | variantLoaded point | segmentLoaded point | variantStarted point | segmentSkipped point
  | segmentStarted point | pushed point | kept point | switched point =>
    rw [point] at old
    exact old

end Iptv.Player
