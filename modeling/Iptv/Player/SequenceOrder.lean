import Iptv.Player.ServedRuns

namespace Iptv.Player
open Iptv.Manifest Iptv.Network Iptv.Abr
variable {Double : Type} {lib : CxxStd Double} {policy : RetryPolicy}

/-- The indices that have left the queue, popped or cleared, in their order. -/
def removed (seen : List Seen) : List UInt64 :=
  seen.flatMap fun
    | .delivered sequenceIndex => [sequenceIndex]
    | .discarded sequenceIndices => sequenceIndices
    | .transferStarted _ | .segmentDownloaded _ _ => []

/-- All that was ever pushed: what has left the queue and what is still in it. -/
def pushed (seen : List Seen) (s : Session Double) : List UInt64 :=
  removed seen ++ s.segmentQueue.map (·.sequenceIndex)

/-- Behind the last index that 64 bits hold no further segment comes: it ends
the playlist, and the playlist ends the stream. -/
def Point.StopsAtWrap : Point Double → Prop
  | .pushSegment _ playlist rest queued =>
    queued.sequenceIndex + 1 = 0 → rest = [] ∧ playlist.hasEndlist = true
  | _ => True

def StopsAtWrap (s : Session Double) : Event → Prop
  | .worker => s.point.StopsAtWrap
  | .transferDone _ | .pop | .requestStop => True

instance (point : Point Double) : Decidable point.StopsAtWrap :=
  match point with
  | .pushSegment _ playlist rest queued =>
    inferInstanceAs (Decidable (queued.sequenceIndex + 1 = 0 → rest = [] ∧ playlist.hasEndlist = true))
  | .fetch _ _ | .variantLoop _ | .segmentLoop _ _ _ | .evaluateAbrSwitch _ _ _ | .clearQueue _ _ _
  | .finished | .terminated => inferInstanceAs (Decidable True)

instance (s : Session Double) (e : Event) : Decidable (StopsAtWrap s e) :=
  match e with
  | .worker => inferInstanceAs (Decidable s.point.StopsAtWrap)
  | .transferDone _ | .pop | .requestStop => inferInstanceAs (Decidable True)

def Below (log : List UInt64) (bound : UInt64) : Prop := ∀ index ∈ log, index < bound

/-- Where the worker may stand behind the pushes of `log`. -/
def OrderedAt (log : List UInt64) : Point Double → Prop
  | .fetch (.master _) _ => log = []
  | .fetch (.variant ctx) _ | .variantLoop ctx => Below log ctx.nextSequenceIndex
  | .fetch (.segment ctx _ segment _) _ =>
    Below log ctx.nextSequenceIndex ∧ ctx.nextSequenceIndex ≤ segment.sequenceIndex
  | .segmentLoop ctx playlist rest | .evaluateAbrSwitch ctx playlist rest =>
    Below log ctx.nextSequenceIndex ∨ (rest = [] ∧ playlist.hasEndlist = true)
  | .pushSegment ctx _ _ queued =>
    Below log queued.sequenceIndex ∧ ctx.nextSequenceIndex = queued.sequenceIndex + 1
  | .clearQueue ctx playlist _ => Below log ctx.nextSequenceIndex ∨ playlist.hasEndlist = true
  | .finished | .terminated => True

def Ordered (seen : List Seen) (s : Session Double) : Prop :=
  (pushed seen s).Pairwise (· < ·) ∧ OrderedAt (pushed seen s) s.point

theorem lt_add_one {index last : UInt64} (bound : index ≤ last) (room : last + 1 ≠ 0) : index < last + 1 := by
  rw [UInt64.le_iff_toNat_le] at bound
  rw [UInt64.lt_iff_toNat_lt, UInt64.toNat_add]
  have small := last.toNat_lt
  have fits : last.toNat + 1 ≠ 2 ^ 64 := by
    intro full
    refine room (UInt64.toNat.inj ?_)
    rw [UInt64.toNat_add]
    simp [full]
  have one : (1 : UInt64).toNat = 1 := rfl
  rw [one, Nat.mod_eq_of_lt (by omega)]
  omega

theorem Below.push {log : List UInt64} {last : UInt64} (below : Below log last) (room : last + 1 ≠ 0) :
    Below (log ++ [last]) (last + 1) := by
  intro index member
  rcases List.mem_append.mp member with old | new
  · exact lt_add_one (UInt64.le_of_lt (below index old)) room
  · obtain rfl := List.mem_singleton.mp new
    exact lt_add_one UInt64.le_rfl room

theorem OrderedAt.afterSegments {log : List UInt64} {ctx : PlaybackContext Double} {playlist : Playlist Double}
    (behind : Below log ctx.nextSequenceIndex ∨ playlist.hasEndlist = true) :
    OrderedAt log (Player.afterSegments ctx playlist) := by
  unfold Player.afterSegments
  split
  · trivial
  · rename_i live
    exact behind.resolve_right live

/-- A step that leaves the pushed segments as they are. -/
theorem Ordered.move {past new : List Seen} {s s' : Session Double} (old : (pushed past s).Pairwise (· < ·))
    (same : pushed (past ++ new) s' = pushed past s) (here : OrderedAt (pushed past s) s'.point) :
    Ordered (past ++ new) s' := by
  rw [Ordered, same]
  exact ⟨old, here⟩

theorem pushed_move {past new : List Seen} {s s' : Session Double} (nothing : removed new = [])
    (queue : s'.segmentQueue = s.segmentQueue) : pushed (past ++ new) s' = pushed past s := by
  have behind : removed (past ++ new) = removed past ++ removed new := List.flatMap_append
  rw [pushed, behind, nothing, List.append_nil, queue, pushed]

variable [Zero Double]

theorem Ordered.step {past new : List Seen} {s s' : Session Double} {e : Event} (old : Ordered past s)
    (stops : StopsAtWrap s e) (run : Player.step lib policy s e = some (s', new)) :
    Ordered (past ++ new) s' := by
  obtain ⟨sorted, here⟩ := old
  cases step_cases run with
  | popped queue =>
    refine .move sorted ?_ here
    simp [pushed, removed, queue]
  | stopped => exact .move sorted (pushed_move rfl rfl) here
  | @began purpose download point | @retried purpose download transfer next point =>
    rw [point] at here
    cases purpose <;> exact .move sorted (pushed_move rfl rfl) here
  | masterRejected | masterThrew | variantFailed | segmentFailed | cancelled | threw =>
    exact .move sorted (pushed_move rfl rfl) trivial
  | masterAccepted point =>
    rw [point] at here
    have nothing : pushed past s = [] := here
    exact .move sorted (pushed_move rfl rfl) (by rw [nothing]; intro index member; simp at member)
  | variantLoaded point =>
    rw [point] at here
    exact .move sorted (pushed_move rfl rfl) (.inl here)
  | segmentLoaded point =>
    rw [point] at here
    obtain ⟨below, due⟩ := here
    exact .move sorted (pushed_move rfl rfl)
      ⟨fun index member => UInt64.lt_of_lt_of_le (below index member) due, rfl⟩
  | variantStarted point =>
    rw [point] at here
    exact .move sorted (pushed_move rfl rfl) here
  | segmentSkipped point =>
    rw [point] at here
    refine .move sorted (pushed_move rfl rfl) (.inl (here.resolve_right ?_))
    rintro ⟨none, _⟩
    cases none
  | segmentStarted point running due =>
    rw [point] at here
    refine .move sorted (pushed_move rfl rfl) ⟨here.resolve_right ?_, UInt64.not_lt.mp due⟩
    rintro ⟨none, _⟩
    cases none
  | segmentsEnded point =>
    rw [point] at here
    exact .move sorted (pushed_move rfl rfl) (.afterSegments (here.imp_right And.right))
  | @pushed ctx playlist rest queued point =>
    rw [point] at here
    obtain ⟨below, next⟩ := here
    simp only [StopsAtWrap, point, Point.StopsAtWrap] at stops
    have grown : Player.pushed (past ++ [])
        { s with
          segmentQueue := s.segmentQueue ++ [queued]
          point := .evaluateAbrSwitch ctx playlist rest } = Player.pushed past s ++ [queued.sequenceIndex] := by
      simp [Player.pushed]
    rw [Ordered, grown]
    refine ⟨?_, ?_⟩
    · rw [List.pairwise_append]
      refine ⟨sorted, List.pairwise_singleton _ _, fun index member last alone => ?_⟩
      obtain rfl := List.mem_singleton.mp alone
      exact below index member
    · by_cases room : queued.sequenceIndex + 1 = 0
      · exact .inr (stops room)
      · refine .inl ?_
        rw [next]
        exact below.push room
  | kept point =>
    rw [point] at here
    exact .move sorted (pushed_move rfl rfl) here
  | switched point =>
    rw [point] at here
    exact .move sorted (pushed_move rfl rfl) (here.imp_right And.right)
  | cleared point =>
    rw [point] at here
    refine .move sorted ?_ (.afterSegments here)
    simp [Player.pushed, removed]

/-- In every run in which the counter does not wrap in the middle of the stream,
the indices are pushed in strictly increasing order. -/
theorem pushed_increasing {masterUrl : Text} {abrManager : AbrManager} {seen : List Seen} {s : Session Double}
    (reach : Reach (Player.step lib policy) StopsAtWrap (Session.start policy masterUrl abrManager) seen s) :
    (pushed seen s).Pairwise (· < ·) := by
  have ordered : Ordered seen s := by
    refine reach.traced Ordered ⟨.nil, rfl⟩ ?_
    intro past state state' e new old met run
    exact old.step met run
  exact ordered.1

/-- A live playlist whose only segment has the last index of 64 bits. -/
def lastIndexLive : Text :=
  text "#EXTM3U\n#EXT-X-MEDIA-SEQUENCE:18446744073709551615\n#EXTINF:1,\na.ts"

/-- The end of a stream, with the last two indices of 64 bits. -/
def lastIndicesVod : Text :=
  text "#EXTM3U\n#EXT-X-MEDIA-SEQUENCE:18446744073709551614\n#EXTINF:1,\na.ts\n#EXTINF:1,\nb.ts\n#EXT-X-ENDLIST"

theorem pushed_increasing_lastIndices :
    ∃ seen s, Reach (Player.step CxxStd.plain {}) StopsAtWrap
        (Session.start {} (text "http://h/m.m3u8") {}) seen s ∧
      pushed seen s = [18446744073709551614, 18446744073709551615] ∧ (pushed seen s).Pairwise (· < ·) := by
  obtain ⟨seen, s, reach, both⟩ := reach_of_exec (Player.step CxxStd.plain {}) StopsAtWrap
    (Session.start {} (text "http://h/m.m3u8") {})
    (loadFirstVariant lastIndicesVod ++ loadSegment 1000000 ++ loadSegment 1000000 ++ [.worker, .pop])
    (fun r => pushed r.1 r.2 == [18446744073709551614, 18446744073709551615]) (by decide +kernel)
  exact ⟨seen, s, reach, by simpa using both, pushed_increasing reach⟩

/-- The reload of the live playlist downloads the segment again. -/
theorem pushed_twice :
    ∃ seen s, Reach (Player.step CxxStd.plain {}) anyStep
        (Session.start {} (text "http://h/m.m3u8") {}) seen s ∧
      pushed seen s = [18446744073709551615, 18446744073709551615] ∧
      ¬ (pushed seen s).Pairwise (· < ·) := by
  obtain ⟨seen, s, reach, twice⟩ := reach_of_exec (Player.step CxxStd.plain {}) anyStep
    (Session.start {} (text "http://h/m.m3u8") {})
    (loadFirstVariant lastIndexLive ++ loadSegment 1000000 ++ [.worker, .worker] ++
      serve lastIndexLive 1 ++ loadSegment 1000000)
    (fun r => pushed r.1 r.2 == [18446744073709551615, 18446744073709551615]) (by decide +kernel)
  have same : pushed seen s = [18446744073709551615, 18446744073709551615] := by simpa using twice
  refine ⟨seen, s, reach, same, ?_⟩
  rw [same]
  decide

end Iptv.Player
