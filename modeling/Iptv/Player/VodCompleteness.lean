import Iptv.Player.Playable
import Iptv.Player.ServedRuns

namespace Iptv.Player
open Iptv.Manifest Iptv.Network Iptv.Abr

/-- `count` consecutive sequence indices, modulo `2^64`. -/
def consecutive (first : UInt64) : Nat → List UInt64
  | 0 => []
  | count + 1 => first :: consecutive (first + 1) count

theorem consecutive_step {first last next : UInt64} {count : Nat} {before after : List UInt64}
    (split : consecutive first count = before ++ next :: after) (end' : before.getLast? = some last) :
    next = last + 1 := by
  induction before generalizing first count with
  | nil => simp at end'
  | cons head tail ih =>
    cases count with
    | zero => simp [consecutive] at split
    | succ count =>
      simp only [consecutive, List.cons_append, List.cons.injEq] at split
      obtain ⟨rfl, rest⟩ := split
      cases tail with
      | nil =>
        obtain rfl : first = last := by simpa using end'
        cases count with
        | zero => simp [consecutive] at rest
        | succ count =>
          simp only [consecutive, List.nil_append, List.cons.injEq] at rest
          exact rest.1.symm
      | cons second tail =>
        exact ih rest (by simpa [List.getLast?_cons_cons] using end')

variable {Double : Type} {lib : CxxStd Double} {policy : RetryPolicy}

def downloaded (seen : List Seen) : List UInt64 :=
  seen.filterMap fun
    | .segmentDownloaded sequenceIndex _ => some sequenceIndex
    | _ => none

theorem downloaded_append (seen new : List Seen) :
    downloaded (seen ++ new) = downloaded seen ++ downloaded new := by
  simp [downloaded]

@[simp] theorem downloaded_segment (sequenceIndex : UInt64) (throughputMbps : Rat) :
    downloaded [.segmentDownloaded sequenceIndex throughputMbps] = [sequenceIndex] := rfl

/-- The worker keeps its variant at an evaluation that still has segments ahead. -/
def Point.KeepsVariant (lib : CxxStd Double) (abrManager : AbrManager) : Point Double → Prop
  | .evaluateAbrSwitch ctx _ (_ :: _) =>
    ∀ selected ∈ (selectVariant lib.round abrManager ctx.masterPlaylist.variants ctx.currentThroughput).toOption,
      resolveUrl ctx.masterUrl selected.1.uri = ctx.currentVariantUri
  | _ => True

def KeepsVariant (lib : CxxStd Double) (s : Session Double) : Event → Prop
  | .worker => s.point.KeepsVariant lib s.abrManager
  | .transferDone _ | .pop | .requestStop => True

instance (abrManager : AbrManager) (point : Point Double) : Decidable (point.KeepsVariant lib abrManager) :=
  match point with
  | .evaluateAbrSwitch ctx _ (_ :: _) => inferInstanceAs (Decidable
      (∀ selected ∈ (selectVariant lib.round abrManager ctx.masterPlaylist.variants ctx.currentThroughput).toOption,
        resolveUrl ctx.masterUrl selected.1.uri = ctx.currentVariantUri))
  | .evaluateAbrSwitch _ _ [] | .fetch _ _ | .variantLoop _ | .segmentLoop _ _ _ | .pushSegment _ _ _ _
  | .clearQueue _ _ _ | .finished | .terminated => inferInstanceAs (Decidable True)

instance (s : Session Double) (e : Event) : Decidable (KeepsVariant lib s e) :=
  match e with
  | .worker => inferInstanceAs (Decidable (s.point.KeepsVariant lib s.abrManager))
  | .transferDone _ | .pop | .requestStop => inferInstanceAs (Decidable True)

/-- A VOD playlist with `count` consecutive indices. -/
def VodOf (first : UInt64) (count : Nat) (playlist : Playlist Double) : Prop :=
  playlist.hasEndlist = true ∧ playlist.segments.map (·.sequenceIndex) = consecutive first count

/-- In the middle of a variant playlist: what is downloaded and what is ahead
make up the listed indices, and the resume point is behind the last download. -/
structure Progress (indices done : List UInt64) (ctx : PlaybackContext Double) (playlist : Playlist Double)
    (rest : List (MediaSegmentRef Double)) : Prop where
  ended : playlist.hasEndlist = true
  listed : done ++ rest.map (·.sequenceIndex) = indices
  resume : (done = [] ∧ ctx.nextSequenceIndex = 0) ∨
    ∃ last, done.getLast? = some last ∧ ctx.nextSequenceIndex = last + 1

/-- What has been downloaded when the worker stands at a point. -/
def VodAt (indices done : List UInt64) : Point Double → Prop
  | .fetch (.master _) _ => done = []
  | .fetch (.variant ctx) _ | .variantLoop ctx => done = [] ∧ ctx.nextSequenceIndex = 0
  | .fetch (.segment ctx playlist segment rest) _ => Progress indices done ctx playlist (segment :: rest)
  | .segmentLoop ctx playlist rest | .pushSegment ctx playlist rest _
  | .evaluateAbrSwitch ctx playlist rest => Progress indices done ctx playlist rest
  | .clearQueue _ playlist _ => playlist.hasEndlist = true ∧ done = indices
  | .finished | .terminated => done = indices

/-- The head of the segments ahead is never behind the resume point. -/
theorem Progress.due {first : UInt64} {count : Nat} {done : List UInt64} {ctx : PlaybackContext Double}
    {playlist : Playlist Double} {segment : MediaSegmentRef Double} {rest : List (MediaSegmentRef Double)}
    (progress : Progress (consecutive first count) done ctx playlist (segment :: rest)) :
    ¬ segment.sequenceIndex < ctx.nextSequenceIndex := by
  rcases progress.resume with ⟨_, zero⟩ | ⟨last, end', next⟩
  · rw [zero, UInt64.lt_iff_toNat_lt]
    simp
  · have following : segment.sequenceIndex = last + 1 := consecutive_step progress.listed.symm end'
    rw [next, following]
    simp

instance (first : UInt64) (count : Nat) : DecidablePred (VodOf first count : Playlist Double → Prop) :=
  fun playlist => inferInstanceAs (Decidable
    (playlist.hasEndlist = true ∧ playlist.segments.map (·.sequenceIndex) = consecutive first count))

variable [Zero Double]

theorem VodAt.step {first : UInt64} {count : Nat} {past new : List Seen} {s s' : Session Double} {e : Event}
    (old : VodAt (consecutive first count) (downloaded past) s.point) (running : s.stopRequested = false)
    (playable : s.point.Playable) (met : Served lib policy (VodOf first count) s e ∧ KeepsVariant lib s e)
    (run : Player.step lib policy s e = some (s', new)) :
    VodAt (consecutive first count) (downloaded (past ++ new)) s'.point ∧ s'.stopRequested = false := by
  obtain ⟨served, keeps⟩ := met
  have safe : s'.point.Playable := playable.step run
  have same (nothing : downloaded new = []) : downloaded (past ++ new) = downloaded past := by
    rw [downloaded_append, nothing, List.append_nil]
  cases step_cases run with
  | popped =>
    rw [same rfl]
    exact ⟨old, running⟩
  | stopped => exact served.elim
  | @began purpose download point =>
    rw [point] at old
    rw [same rfl]
    cases purpose <;> exact ⟨old, running⟩
  | @retried purpose download transfer next point =>
    rw [point] at old
    rw [same rfl]
    cases purpose <;> exact ⟨old, running⟩
  | masterRejected point performing attempt rejected => exact absurd rejected (served.not_rejected point attempt)
  | masterThrew | threw => exact safe.elim
  | masterAccepted point =>
    rw [point] at old
    have nothing : downloaded past = [] := old
    exact ⟨⟨by simp [nothing], rfl⟩, running⟩
  | variantFailed point performing attempt failed =>
    obtain ⟨playlist, loaded, _⟩ := served.playlist point attempt
    exact absurd loaded (failed playlist)
  | variantLoaded point performing attempt loaded =>
    rw [point] at old
    obtain ⟨nothing, start⟩ := old
    obtain ⟨playlist, same, ended, listed⟩ := served.playlist point attempt
    rw [loaded] at same
    cases same
    exact ⟨⟨ended, by simp [nothing, listed], .inl ⟨by simp [nothing], start⟩⟩, running⟩
  | segmentFailed point performing attempt failed =>
    obtain ⟨bundle, loaded⟩ := served.segment point attempt
    exact absurd loaded (failed bundle)
  | segmentLoaded point =>
    rw [point] at old
    obtain ⟨ended, listed, _⟩ := old
    rw [downloaded_append]
    exact ⟨⟨ended, by simpa using listed, .inr ⟨_, by simp, rfl⟩⟩, running⟩
  | cancelled stop => simp [running] at stop
  | variantStarted point | segmentStarted point | pushed point | kept point =>
    rw [point] at old
    rw [same rfl]
    exact ⟨old, running⟩
  | segmentsEnded point =>
    rw [point] at old
    have done : downloaded past = consecutive first count := by simpa using old.listed
    rw [same rfl, Session.goto_point, afterSegments, if_pos old.ended]
    exact ⟨done, running⟩
  | segmentSkipped point _ behind =>
    rw [point] at old
    exact absurd behind old.due
  | @switched ctx playlist rest idealVariant abrManager point selected other =>
    rw [point] at old
    cases rest with
    | cons segment rest =>
      simp only [KeepsVariant, point, Point.KeepsVariant, selected] at keeps
      exact absurd (keeps _ rfl) other
    | nil => exact ⟨⟨old.ended, by simpa using old.listed⟩, running⟩
  | cleared point =>
    rw [point] at old
    obtain ⟨ended, done⟩ := old
    rw [same rfl]
    dsimp only
    rw [afterSegments, if_pos ended]
    exact ⟨done, running⟩

/-- In every VOD run in which no evaluation before the last segment changes the
variant, the worker ends only when it has downloaded all of the indices, however
the arithmetic of the throughputs is rounded. -/
theorem vodComplete_of_keepsVariant {masterUrl : Text} {abrManager : AbrManager} {first : UInt64} {count : Nat}
    {seen : List Seen} {s : Session Double}
    (reach : Reach (Player.step lib policy)
      (fun s e => Served lib policy (VodOf first count) s e ∧ KeepsVariant lib s e)
      (Session.start policy masterUrl abrManager) seen s)
    (ended : s.point = .finished ∨ s.point = .terminated) :
    ∀ index ∈ consecutive first count, index ∈ downloaded seen := by
  have invariant : VodAt (consecutive first count) (downloaded seen) s.point ∧ s.stopRequested = false ∧
      s.point.Playable := by
    refine reach.traced (fun past state => VodAt (consecutive first count) (downloaded past) state.point ∧
      state.stopRequested = false ∧ state.point.Playable) ⟨rfl, rfl, trivial⟩ ?_
    intro past state state' e new held met run
    obtain ⟨here, running, playable⟩ := held
    obtain ⟨there, still⟩ := here.step running playable met run
    exact ⟨there, still, playable.step run⟩
  have done := invariant.1
  rcases ended with point | point <;> rw [point] at done <;> intro index member <;> rwa [done]

/-- Both segments take a second, and the worker stays with the lower rate. -/
theorem vodComplete_slowSegments :
    ∃ seen s, Reach (Player.step CxxStd.plain {})
        (fun s e => Served CxxStd.plain {} (VodOf 0 2) s e ∧ KeepsVariant CxxStd.plain s e)
        (Session.start {} (text "http://h/m.m3u8") {}) seen s ∧
      s.point = .finished ∧ ∀ index ∈ consecutive 0 2, index ∈ downloaded seen := by
  obtain ⟨seen, s, reach, ended⟩ := reach_of_exec (Player.step CxxStd.plain {})
    (fun s e => Served CxxStd.plain {} (VodOf 0 2) s e ∧ KeepsVariant CxxStd.plain s e)
    (Session.start {} (text "http://h/m.m3u8") {})
    (loadFirstVariant twoSegmentVod ++ loadSegment 1000000 ++ loadSegment 1000000 ++ [.worker])
    (fun r => r.2.point == .finished) (by decide +kernel)
  have finished : s.point = .finished := by simpa using ended
  exact ⟨seen, s, reach, finished, vodComplete_of_keepsVariant reach (.inl finished)⟩

/-- The first segment is fast enough for the higher rate; the worker drops the
rest of the playlist, and with it the whole session. -/
theorem vodIncomplete_fastSegment :
    ∃ seen s, Reach (Player.step CxxStd.plain {}) (Served CxxStd.plain {} (VodOf 0 2))
        (Session.start {} (text "http://h/m.m3u8") {}) seen s ∧
      s.point = .finished ∧ ∃ index ∈ consecutive 0 2, index ∉ downloaded seen := by
  obtain ⟨seen, s, reach, ended⟩ := reach_of_exec (Player.step CxxStd.plain {})
    (Served CxxStd.plain {} (VodOf 0 2)) (Session.start {} (text "http://h/m.m3u8") {})
    (loadFirstVariant twoSegmentVod ++ loadSegment 2 ++ [.worker])
    (fun r => r.2.point == .finished && downloaded r.1 == [0]) (by decide +kernel)
  obtain ⟨finished, one⟩ : s.point = .finished ∧ downloaded seen = [0] := by simpa using ended
  exact ⟨seen, s, reach, finished, 1, by decide, by simp [one]⟩

end Iptv.Player
