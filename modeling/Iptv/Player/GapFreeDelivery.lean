import Iptv.Player.ServedRuns

namespace Iptv.Player
open Iptv.Manifest Iptv.Network Iptv.Abr
variable {Double : Type} {lib : CxxStd Double} {policy : RetryPolicy}

/-- The indices of the segments that the consumer has popped. -/
def delivered (seen : List Seen) : List Nat :=
  seen.filterMap fun
    | .delivered sequenceIndex => some sequenceIndex.toNat
    | _ => none

theorem delivered_append (seen new : List Seen) :
    delivered (seen ++ new) = delivered seen ++ delivered new := by
  simp [delivered]

def indices (segments : List (MediaSegmentRef Double)) : List Nat := segments.map (·.sequenceIndex.toNat)

/-- A playlist of any length whose indices are contiguous from `first` on. -/
def ListsFrom (first : Nat) (playlist : Playlist Double) : Prop :=
  indices playlist.segments = List.range' first playlist.segments.length

instance (first : Nat) : DecidablePred (ListsFrom first : Playlist Double → Prop) := fun playlist =>
  inferInstanceAs (Decidable (indices playlist.segments = List.range' first playlist.segments.length))

/-- The worker is done with the stream, or has a resume point to go on from: the
64-bit counter has not wrapped around to its initial value. -/
def Resumes (ctx : PlaybackContext Double) (playlist : Playlist Double) : Prop :=
  playlist.hasEndlist = true ∨ playlist.segments = [] ∨ ctx.nextSequenceIndex ≠ 0

instance (ctx : PlaybackContext Double) (playlist : Playlist Double) : Decidable (Resumes ctx playlist) :=
  inferInstanceAs (Decidable (_ ∨ _ ∨ _))

/-- A switch that another playlist follows finds the queue empty, and the resume
point does not wrap around. -/
def Point.LosesNothing (queue : List QueuedSegment) : Point Double → Prop
  | .segmentLoop ctx playlist [] => Resumes ctx playlist
  | .clearQueue ctx playlist _ => Resumes ctx playlist ∧ (playlist.hasEndlist = true ∨ queue = [])
  | _ => True

def LosesNothing (s : Session Double) : Event → Prop
  | .worker => s.point.LosesNothing s.segmentQueue
  | .transferDone _ | .pop | .requestStop => True

instance (queue : List QueuedSegment) (point : Point Double) : Decidable (point.LosesNothing queue) :=
  match point with
  | .segmentLoop ctx playlist [] => inferInstanceAs (Decidable (Resumes ctx playlist))
  | .clearQueue _ _ _ => inferInstanceAs (Decidable (_ ∧ (_ ∨ _)))
  | .fetch _ _ | .variantLoop _ | .segmentLoop _ _ (_ :: _) | .pushSegment _ _ _ _
  | .evaluateAbrSwitch _ _ _ | .finished | .terminated => inferInstanceAs (Decidable True)

instance (s : Session Double) (e : Event) : Decidable (LosesNothing s e) :=
  match e with
  | .worker => inferInstanceAs (Decidable (s.point.LosesNothing s.segmentQueue))
  | .transferDone _ | .pop | .requestStop => inferInstanceAs (Decidable True)

/-- The bundle that is downloaded and not yet pushed. -/
def Point.pending : Point Double → List QueuedSegment
  | .pushSegment _ _ _ queued => [queued]
  | _ => []

/-- What is on its way to the consumer. -/
def Session.stock (s : Session Double) : List Nat :=
  (s.segmentQueue ++ s.point.pending).map (·.sequenceIndex.toNat)

/-- The resume point behind `total` segments from `first` on. -/
def ResumeAt (first total : Nat) (ctx : PlaybackContext Double) : Prop :=
  (total = 0 ∧ ctx.nextSequenceIndex = 0) ∨ ctx.nextSequenceIndex.toNat = first + total

/-- In the middle of a variant playlist: the segments ahead begin at or before
the resume point, which wraps around at most at the end of the playlist. -/
structure Ahead (first total : Nat) (ctx : PlaybackContext Double) (playlist : Playlist Double)
    (rest : List (MediaSegmentRef Double)) : Prop where
  within : rest <:+ playlist.segments
  listed : ∃ next, first ≤ next ∧ next ≤ first + total ∧ indices rest = List.range' next rest.length
  resume : ResumeAt first total ctx ∨ (ctx.nextSequenceIndex = 0 ∧ rest = [] ∧ playlist.segments ≠ [])

/-- Where the worker may stand when `total` segments have been downloaded in order. -/
def AlignedAt (first total : Nat) : Point Double → Prop
  | .fetch (.master _) _ => total = 0
  | .fetch (.variant ctx) _ | .variantLoop ctx => ResumeAt first total ctx
  | .fetch (.segment ctx playlist segment rest) _ =>
    Ahead first total ctx playlist (segment :: rest) ∧ ¬ segment.sequenceIndex < ctx.nextSequenceIndex
  | .segmentLoop ctx playlist rest | .pushSegment ctx playlist rest _
  | .evaluateAbrSwitch ctx playlist rest => Ahead first total ctx playlist rest
  | .clearQueue ctx playlist _ => ∃ rest, Ahead first total ctx playlist rest
  | .finished | .terminated => True

theorem indices_cons {segment : MediaSegmentRef Double} {rest : List (MediaSegmentRef Double)} {next : Nat}
    (listed : indices (segment :: rest) = List.range' next (segment :: rest).length) :
    segment.sequenceIndex.toNat = next ∧ indices rest = List.range' (next + 1) rest.length := by
  rw [List.length_cons, List.range'_succ] at listed
  exact List.cons.inj listed

theorem Ahead.whole {first total : Nat} {ctx : PlaybackContext Double} {playlist : Playlist Double}
    (resume : ResumeAt first total ctx) (listed : ListsFrom first playlist) :
    Ahead first total ctx playlist playlist.segments where
  within := List.suffix_refl _
  listed := ⟨first, by omega, by omega, listed⟩
  resume := .inl resume

section
variable {first total : Nat} {ctx : PlaybackContext Double} {playlist : Playlist Double}
  {segment : MediaSegmentRef Double} {rest : List (MediaSegmentRef Double)}

theorem Ahead.suffix (ahead : Ahead first total ctx playlist (segment :: rest)) : rest <:+ playlist.segments :=
  (List.suffix_cons segment rest).trans ahead.within

/-- While segments are ahead the resume point has not wrapped. -/
theorem Ahead.resumeAt (ahead : Ahead first total ctx playlist (segment :: rest)) : ResumeAt first total ctx := by
  rcases ahead.resume with resume | ⟨_, none, _⟩
  · exact resume
  · simp at none

theorem Ahead.skip (ahead : Ahead first total ctx playlist (segment :: rest))
    (old : segment.sequenceIndex < ctx.nextSequenceIndex) : Ahead first total ctx playlist rest := by
  obtain ⟨next, lower, upper, listed⟩ := ahead.listed
  obtain ⟨head, tail⟩ := indices_cons listed
  rw [UInt64.lt_iff_toNat_lt] at old
  have behind : next + 1 ≤ first + total := by
    rcases ahead.resumeAt with ⟨_, zero⟩ | resume
    · simp [zero] at old
    · omega
  exact ⟨ahead.suffix, ⟨next + 1, by omega, behind, tail⟩, .inl ahead.resumeAt⟩

/-- A segment that is not skipped is the one at the resume point. -/
theorem Ahead.due (ahead : Ahead first total ctx playlist (segment :: rest))
    (due : ¬ segment.sequenceIndex < ctx.nextSequenceIndex) :
    segment.sequenceIndex.toNat = first + total := by
  obtain ⟨next, lower, upper, listed⟩ := ahead.listed
  obtain ⟨head, _⟩ := indices_cons listed
  rw [UInt64.lt_iff_toNat_lt] at due
  rcases ahead.resumeAt with ⟨none, _⟩ | resume
  · omega
  · omega

theorem Ahead.download (ahead : Ahead first total ctx playlist (segment :: rest))
    (due : ¬ segment.sequenceIndex < ctx.nextSequenceIndex) (currentThroughput : Rat) :
    Ahead first (total + 1)
      { ctx with currentThroughput, nextSequenceIndex := segment.sequenceIndex + 1 } playlist rest := by
  have here := ahead.due due
  obtain ⟨next, lower, upper, listed⟩ := ahead.listed
  obtain ⟨head, tail⟩ := indices_cons listed
  have bound := segment.sequenceIndex.toNat_lt
  have advanced : (segment.sequenceIndex + 1).toNat = (segment.sequenceIndex.toNat + 1) % 2 ^ 64 := by
    simp [UInt64.toNat_add]
  refine ⟨ahead.suffix, ⟨next + 1, by omega, by omega, tail⟩, ?_⟩
  by_cases last : segment.sequenceIndex.toNat + 1 = 2 ^ 64
  · refine .inr ⟨?_, ?_, ?_⟩
    · apply UInt64.toNat.inj
      rw [advanced, last]
      rfl
    · cases rest with
      | nil => rfl
      | cons following rest =>
        have beyond := (indices_cons tail).1
        have limit := following.sequenceIndex.toNat_lt
        omega
    · intro none
      have within := ahead.within
      simp [none] at within
  · refine .inl (.inr ?_)
    rw [advanced, Nat.mod_eq_of_lt (by omega)]
    omega

theorem Ahead.next (ahead : Ahead first total ctx playlist rest) (resumes : Resumes ctx playlist)
    (live : playlist.hasEndlist = false) : ResumeAt first total ctx := by
  rcases ahead.resume with resume | ⟨zero, _, some⟩
  · exact resume
  · rcases resumes with ended | none | counted
    · simp [live] at ended
    · exact absurd none some
    · exact absurd zero counted

end

theorem range'_left {first total : Nat} {left right : List Nat} (whole : left ++ right = List.range' first total) :
    ∃ count, left = List.range' first count := by
  obtain ⟨count, _, same, _⟩ := List.range'_eq_append_iff.mp whole.symm
  exact ⟨count, same⟩

/-- All that was downloaded, in order, is either delivered or on its way. -/
def Aligned (first : Nat) (seen : List Seen) (s : Session Double) : Prop :=
  ∃ total, delivered seen ++ s.stock = List.range' first total ∧ AlignedAt first total s.point

/-- A step that neither downloads, pushes nor delivers. -/
theorem Aligned.move {first total : Nat} {past new : List Seen} {s s' : Session Double}
    (whole : delivered past ++ s.stock = List.range' first total) (nothing : delivered new = [])
    (queue : s'.segmentQueue = s.segmentQueue) (pending : s'.point.pending = s.point.pending)
    (here : AlignedAt first total s'.point) : Aligned first (past ++ new) s' := by
  refine ⟨total, ?_, here⟩
  have stock : s'.stock = s.stock := by rw [Session.stock, queue, pending, Session.stock]
  rw [delivered_append, nothing, List.append_nil, stock]
  exact whole

@[simp] theorem afterSegments_pending (ctx : PlaybackContext Double) (playlist : Playlist Double) :
    (afterSegments ctx playlist).pending = [] := by
  unfold afterSegments
  split <;> rfl

variable [Zero Double]

theorem Aligned.step {first : Nat} {past new : List Seen} {s s' : Session Double} {e : Event}
    (old : Aligned first past s) (met : Served lib policy (ListsFrom first) s e ∧ LosesNothing s e)
    (run : Player.step lib policy s e = some (s', new)) : Aligned first (past ++ new) s' := by
  obtain ⟨served, loses⟩ := met
  obtain ⟨total, whole, here⟩ := old
  cases step_cases run with
  | @popped queued rest queue =>
    refine ⟨total, ?_, here⟩
    rw [delivered_append, ← whole]
    simp [delivered, Session.stock, queue]
  | stopped => exact served.elim
  | @began purpose download point | @retried purpose download transfer next point =>
    have pending : s.point.pending = [] := by rw [point]; rfl
    rw [point] at here
    cases purpose <;> exact .move whole rfl rfl pending.symm here
  | masterRejected point | masterThrew point | variantFailed point | segmentFailed point | threw point =>
    exact .move whole rfl rfl (by rw [point]; rfl) trivial
  | cancelled _ point =>
    have pending : s.point.pending = [] := by
      rcases point with ⟨_, point⟩ | ⟨_, _, _, _, point⟩ <;> rw [point] <;> rfl
    exact .move whole rfl rfl pending.symm trivial
  | masterAccepted point =>
    have pending : s.point.pending = [] := by rw [point]; rfl
    rw [point] at here
    exact .move whole rfl rfl pending.symm (.inl ⟨here, rfl⟩)
  | variantLoaded point performing attempt loaded =>
    have pending : s.point.pending = [] := by rw [point]; rfl
    rw [point] at here
    obtain ⟨playlist, same, listed⟩ := served.playlist point attempt
    rw [loaded] at same
    cases same
    exact .move whole rfl rfl pending.symm (Ahead.whole here listed)
  | segmentLoaded point =>
    rw [point] at here
    obtain ⟨ahead, due⟩ := here
    refine ⟨total + 1, ?_, ahead.download due _⟩
    rw [List.range'_1_concat, ← whole, ← ahead.due due, delivered_append]
    simp [delivered, Session.stock, point, Point.pending]
  | variantStarted point | kept point =>
    have pending : s.point.pending = [] := by rw [point]; rfl
    rw [point] at here
    exact .move whole rfl rfl pending.symm here
  | segmentsEnded point =>
    have pending : s.point.pending = [] := by rw [point]; rfl
    rw [point] at here
    simp only [LosesNothing, point, Point.LosesNothing] at loses
    refine .move whole rfl rfl (by rw [pending, Session.goto_point, afterSegments_pending]) ?_
    rw [Session.goto_point, afterSegments]
    split
    · trivial
    · rename_i live
      exact here.next loses (by simpa using live)
  | segmentSkipped point _ behind =>
    have pending : s.point.pending = [] := by rw [point]; rfl
    rw [point] at here
    exact .move whole rfl rfl pending.symm (here.skip behind)
  | segmentStarted point _ due =>
    have pending : s.point.pending = [] := by rw [point]; rfl
    rw [point] at here
    exact .move whole rfl rfl pending.symm ⟨here, due⟩
  | switched point =>
    have pending : s.point.pending = [] := by rw [point]; rfl
    rw [point] at here
    exact .move whole rfl rfl pending.symm ⟨_, here⟩
  | pushed point =>
    refine ⟨total, ?_, ?_⟩
    · rw [delivered_append, ← whole]
      simp [delivered, Session.stock, point, Point.pending]
    · rw [point] at here
      exact here
  | cleared point =>
    rw [point] at here
    obtain ⟨rest, ahead⟩ := here
    simp only [LosesNothing, point, Point.LosesNothing] at loses
    obtain ⟨resumes, nothing⟩ := loses
    obtain ⟨count, left⟩ := range'_left whole
    rcases nothing with ended | empty
    · refine ⟨count, ?_, ?_⟩
      · rw [delivered_append, ← left]
        simp [delivered, Session.stock]
      · rw [afterSegments, if_pos ended]
        trivial
    · have pending : s.point.pending = [] := by rw [point]; rfl
      refine .move whole (by rfl) empty.symm (by rw [pending, afterSegments_pending]) ?_
      rw [afterSegments]
      split
      · trivial
      · rename_i live
        exact ahead.next resumes (by simpa using live)

/-- In every run in which no switch discards a segment, the consumer pops the
listed indices from the first one on, in order and without a gap. -/
theorem delivered_gapFree {masterUrl : Text} {abrManager : AbrManager} {first : Nat} {seen : List Seen}
    {s : Session Double}
    (reach : Reach (Player.step lib policy)
      (fun s e => Served lib policy (ListsFrom first) s e ∧ LosesNothing s e)
      (Session.start policy masterUrl abrManager) seen s) :
    ∃ count, delivered seen = List.range' first count := by
  have aligned : Aligned first seen s := by
    refine reach.traced (Aligned first) ⟨0, rfl, rfl⟩ ?_
    intro past state state' e new old met run
    exact old.step met run
  obtain ⟨total, whole, _⟩ := aligned
  exact range'_left whole

/-- The second playlist of a run that switches to the higher rate behind its first segment. -/
def loadSecondVariant : List Event := [.worker, .worker] ++ serve twoSegments 1 ++ .worker :: loadSegment 2

/-- The consumer takes the first segment before the switch clears the queue. -/
theorem delivered_gapFree_promptConsumer :
    ∃ seen s, Reach (Player.step CxxStd.plain {})
        (fun s e => Served CxxStd.plain {} (ListsFrom 0) s e ∧ LosesNothing s e)
        (Session.start {} (text "http://h/m.m3u8") {}) seen s ∧
      delivered seen = [0, 1] ∧ ∃ count, delivered seen = List.range' 0 count := by
  obtain ⟨seen, s, reach, both⟩ := reach_of_exec (Player.step CxxStd.plain {})
    (fun s e => Served CxxStd.plain {} (ListsFrom 0) s e ∧ LosesNothing s e)
    (Session.start {} (text "http://h/m.m3u8") {})
    (loadFirstVariant twoSegments ++ loadSegment 2 ++ [.pop] ++ loadSecondVariant ++ [.pop])
    (fun r => delivered r.1 == [0, 1]) (by decide +kernel)
  exact ⟨seen, s, reach, by simpa using both, delivered_gapFree reach⟩

/-- The same run with a consumer that comes after the switch: it never gets the
first segment. -/
theorem delivered_gap :
    ∃ seen s, Reach (Player.step CxxStd.plain {}) (Served CxxStd.plain {} (ListsFrom 0))
        (Session.start {} (text "http://h/m.m3u8") {}) seen s ∧
      ¬ ∃ count, delivered seen = List.range' 0 count := by
  obtain ⟨seen, s, reach, second⟩ := reach_of_exec (Player.step CxxStd.plain {})
    (Served CxxStd.plain {} (ListsFrom 0)) (Session.start {} (text "http://h/m.m3u8") {})
    (loadFirstVariant twoSegments ++ loadSegment 2 ++ loadSecondVariant ++ [.pop])
    (fun r => delivered r.1 == [1]) (by decide +kernel)
  have only : delivered seen = [1] := by simpa using second
  refine ⟨seen, s, reach, ?_⟩
  rintro ⟨count, whole⟩
  rw [only] at whole
  have first := (List.range'_eq_cons_iff.mp whole.symm).1
  omega

end Iptv.Player
