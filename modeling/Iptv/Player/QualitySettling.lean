import Iptv.Abr.Settling
import Iptv.Player.CurrentVariant

namespace Iptv.Player
open Iptv.Manifest Iptv.Network Iptv.Abr
variable {Double : Type}

/-- How often a switch of the variant has cleared the queue. -/
def switches (seen : List Seen) : Nat :=
  seen.countP fun
    | .discarded _ => true
    | .transferStarted _ | .segmentDownloaded _ _ | .delivered _ => false

/-- A switch that has been decided, and has not cleared the queue yet. -/
def Point.switchAhead (point : Point Double) : Nat := if point.switching then 1 else 0

/-- The measurement that waits for its evaluation. -/
def Point.unevaluated : Point Double → Option Rat
  | .pushSegment ctx _ _ _ | .evaluateAbrSwitch ctx _ _ => some ctx.currentThroughput
  | .fetch _ _ | .variantLoop _ | .segmentLoop _ _ _ | .clearQueue _ _ _ | .finished | .terminated => none

def loadsWithin (low high : Rat) : SegmentDownloadResult → Prop
  | .bundle bundle => low ≤ bundle.metrics.throughputMbps id ∧ bundle.metrics.throughputMbps id ≤ high
  | .networkError _ => True

def endsWithin (low high : Rat) (stopRequested : Bool) : Purpose Double × HttpResponse → Prop
  | (.segment .., response) => loadsWithin low high (segmentResult response stopRequested)
  | (.master _, _) | (.variant _, _) => True

/-- The segments that load do so with a throughput of the band. -/
def Banded (policy : RetryPolicy) (low high : Rat) (s : Session Double) : Event → Prop
  | .transferDone transfer => ∀ ended ∈ s.response policy transfer, endsWithin low high s.stopRequested ended
  | .worker | .pop | .requestStop => True

instance (low high : Rat) (result : SegmentDownloadResult) : Decidable (loadsWithin low high result) :=
  match result with
  | .bundle bundle =>
    inferInstanceAs (Decidable (low ≤ bundle.metrics.throughputMbps id ∧ bundle.metrics.throughputMbps id ≤ high))
  | .networkError _ => inferInstanceAs (Decidable True)

instance (low high : Rat) (stopRequested : Bool) (ended : Purpose Double × HttpResponse) :
    Decidable (endsWithin low high stopRequested ended) :=
  match ended with
  | (.segment .., response) => inferInstanceAs (Decidable (loadsWithin low high (segmentResult response stopRequested)))
  | (.master _, _) | (.variant _, _) => inferInstanceAs (Decidable True)

instance (policy : RetryPolicy) (low high : Rat) (s : Session Double) (e : Event) :
    Decidable (Banded policy low high s e) :=
  match e with
  | .transferDone transfer => inferInstanceAs (Decidable
      (∀ ended ∈ s.response policy transfer, endsWithin low high s.stopRequested ended))
  | .worker | .pop | .requestStop => inferInstanceAs (Decidable True)

variable {policy : RetryPolicy} {masterUrl : Text} {low high : Rat} {manager : AbrManager}

theorem switches_append (seen new : List Seen) : switches (seen ++ new) = switches seen + switches new := by
  simp [switches]

theorem afterSegments_plain (ctx : PlaybackContext Double) (playlist : Playlist Double) :
    (afterSegments ctx playlist).switchAhead = 0 ∧ (afterSegments ctx playlist).unevaluated = none := by
  unfold afterSegments
  split <;> exact ⟨rfl, rfl⟩

theorem Banded.loaded {s : Session Double} {transfer : Transfer} {ctx : PlaybackContext Double}
    {playlist : Playlist Double} {segment : MediaSegmentRef Double} {rest : List (MediaSegmentRef Double)}
    {download : Download} {response : HttpResponse} {bundle : MediaSegmentBundle}
    (banded : Banded policy low high s (.transferDone transfer))
    (point : s.point = .fetch (.segment ctx playlist segment rest) download)
    (attempt : download.finish policy s.stopRequested transfer = .done response)
    (loaded : segmentResult response s.stopRequested = .bundle bundle) :
    low ≤ bundle.metrics.throughputMbps id ∧ bundle.metrics.throughputMbps id ≤ high := by
  have within : endsWithin low high s.stopRequested
      ((.segment ctx playlist segment rest, response) : Purpose Double × HttpResponse) := by
    refine banded _ ?_
    simp [Session.response, point, Purpose.stopped, attempt]
  rwa [endsWithin, loaded] at within

/-- While the index stays, so does the variant. -/
theorem SelectedUri.index_changes {round : Rat → Rat} {manager' : AbrManager} {ctx : PlaybackContext Double}
    {measurement : Rat} {variant : VariantStreamRef Double} (old : SelectedUri masterUrl manager ctx)
    (selected : selectVariant round manager ctx.masterPlaylist.variants measurement = .ok (variant, manager'))
    (other : resolveUrl ctx.masterUrl variant.uri ≠ ctx.currentVariantUri) :
    manager.currentVariantIndex ≠ manager'.currentVariantIndex := by
  intro same
  obtain ⟨url, chosen, atIndex, uri⟩ := old
  have found := selectVariant_index selected
  rw [← same, atIndex] at found
  cases found
  exact other (by rw [url, uri])

theorem SelectedAt.variants_nonempty {point : Point Double} {ctx : PlaybackContext Double}
    (selected : SelectedAt masterUrl manager point) (here : point.context = some ctx) :
    ctx.masterPlaylist.variants ≠ [] := by
  obtain ⟨variant, atIndex⟩ : ∃ variant,
      ctx.masterPlaylist.variants[manager.currentVariantIndex]? = some variant := by
    cases point with
    | clearQueue =>
      cases here
      obtain ⟨_, _, variant, atIndex, _⟩ := selected
      exact ⟨variant, atIndex⟩
    | fetch | variantLoop | segmentLoop | pushSegment | evaluateAbrSwitch | finished | terminated =>
      obtain ⟨_, variant, atIndex, _⟩ := selected.current here rfl
      exact ⟨variant, atIndex⟩
  rintro none
  rw [none] at atIndex
  cases atIndex

/-- What a session on one master playlist keeps while its throughputs stay in the band: the
manager has gone through a run of selections, and every switch of the variant is one of
those that changed the index. -/
structure Followed (masterUrl : Text) (low high : Rat) (variants : List (VariantStreamRef Double))
    (manager : AbrManager) (ahead : Nat) (seen : List Seen) (s : Session Double) : Prop where
  selections : ∃ selections : List (Selection Double),
    Reach record (InBand variants low high) manager selections s.abrManager ∧
      switches seen + s.point.switchAhead ≤ ahead + selections.countP (·.Changes)
  selected : SelectedAt masterUrl s.abrManager s.point
  variants : ∀ ctx, s.point.context = some ctx → ctx.masterPlaylist.variants = variants
  waiting : ∀ throughput, s.point.unevaluated = some throughput → low ≤ throughput ∧ throughput ≤ high
  begun : s.point.begun = true

variable [Zero Double] {lib : CxxStd Double} {variants : List (VariantStreamRef Double)}
  {ahead : Nat} {seen new : List Seen} {s s' : Session Double} {e : Event}

omit [Zero Double] in
/-- A step that neither evaluates nor clears. -/
theorem Followed.move (old : Followed masterUrl low high variants manager ahead seen s)
    (selected : SelectedAt masterUrl s'.abrManager s'.point) (kept : s'.abrManager = s.abrManager)
    (silent : switches new = 0) (fewer : s'.point.switchAhead ≤ s.point.switchAhead)
    (context : ∀ ctx, s'.point.context = some ctx → ctx.masterPlaylist.variants = variants)
    (waiting : ∀ throughput, s'.point.unevaluated = some throughput → low ≤ throughput ∧ throughput ≤ high)
    (begun : s'.point.begun = true) : Followed masterUrl low high variants manager ahead (seen ++ new) s' := by
  obtain ⟨selections, reach, bound⟩ := old.selections
  refine ⟨⟨selections, kept ▸ reach, ?_⟩, selected, context, waiting, begun⟩
  rw [switches_append]
  omega

theorem Followed.step (exactly : lib.round = id) (old : Followed masterUrl low high variants manager ahead seen s)
    (banded : Banded policy low high s e) (run : Player.step lib policy s e = some (s', new)) :
    Followed masterUrl low high variants manager ahead (seen ++ new) s' := by
  have selected := old.selected.step run
  have context := old.variants
  have waiting := old.waiting
  have begun := old.begun
  cases step_cases run with
  | popped | stopped => exact old.move selected rfl rfl le_rfl context waiting begun
  | @began purpose _ point | @retried purpose _ _ _ point =>
    rw [point] at context begun
    refine old.move selected rfl rfl (Nat.zero_le _) ?_ (by rintro _ ⟨⟩) ?_
    · cases purpose <;> exact context
    · cases purpose <;> exact begun
  | masterRejected point | masterThrew point | masterAccepted point =>
    rw [point] at begun
    cases begun
  | variantFailed | segmentFailed | cancelled | threw =>
    exact old.move selected rfl rfl (Nat.zero_le _) (by rintro _ ⟨⟩) (by rintro _ ⟨⟩) rfl
  | variantLoaded point | variantStarted point | segmentSkipped point | segmentStarted point =>
    rw [point] at context
    exact old.move selected rfl rfl (Nat.zero_le _) context (by rintro _ ⟨⟩) rfl
  | segmentsEnded point =>
    rw [point] at context
    obtain ⟨plain, evaluated⟩ := afterSegments_plain _ _
    refine old.move selected rfl rfl ?_ ?_ ?_ (afterSegments_begun _ _)
    · rw [Session.goto_point, plain]
      exact Nat.zero_le _
    · intro ctx here
      rw [Session.goto_point] at here
      rw [afterSegments_context here]
      exact context _ rfl
    · intro throughput here
      rw [Session.goto_point, evaluated] at here
      cases here
  | @segmentLoaded ctx _ _ _ _ _ _ _ point performing attempt loaded =>
    have within := banded.loaded point attempt loaded
    rw [point] at context
    refine old.move selected rfl rfl (Nat.zero_le _) ?_ ?_ rfl
    · rintro _ ⟨⟩
      exact context ctx rfl
    · rintro _ ⟨⟩
      rw [exactly]
      exact within
  | pushed point =>
    rw [point] at context waiting
    exact old.move selected rfl rfl (Nat.zero_le _) context waiting rfl
  | @kept ctx playlist rest idealVariant abrManager point chosen same =>
    rw [point] at context waiting
    obtain ⟨selections, reach, bound⟩ := old.selections
    have list := context ctx rfl
    have recorded : record s.abrManager (variants, ctx.currentThroughput) =
        some (abrManager, [⟨variants, ctx.currentThroughput, s.abrManager, abrManager⟩]) := by
      rw [record, ← list, ← exactly, chosen]
    refine ⟨⟨_, .next reach ⟨rfl, waiting _ rfl⟩ recorded, ?_⟩, selected, context, (by rintro _ ⟨⟩), rfl⟩
    rw [List.append_nil, List.countP_append]
    change switches seen + 0 ≤ _
    omega
  | @switched ctx playlist rest idealVariant abrManager point chosen other =>
    have current := old.selected
    rw [point] at context waiting current
    obtain ⟨selections, reach, bound⟩ := old.selections
    have list := context ctx rfl
    have recorded : record s.abrManager (variants, ctx.currentThroughput) =
        some (abrManager, [⟨variants, ctx.currentThroughput, s.abrManager, abrManager⟩]) := by
      rw [record, ← list, ← exactly, chosen]
    have changes := current.index_changes chosen other
    refine ⟨⟨_, .next reach ⟨rfl, waiting _ rfl⟩ recorded, ?_⟩, selected, context, (by rintro _ ⟨⟩), rfl⟩
    have one : [(⟨variants, ctx.currentThroughput, s.abrManager, abrManager⟩ : Selection Double)].countP
        (·.Changes) = 1 := by
      simp [Selection.Changes, changes]
    rw [List.append_nil, List.countP_append, one]
    change switches seen + 1 ≤ _
    omega
  | @cleared before playlist nextUri point =>
    rw [point] at context
    obtain ⟨selections, reach, bound⟩ := old.selections
    obtain ⟨plain, evaluated⟩ := afterSegments_plain _ _
    rw [point] at bound
    refine ⟨⟨selections, reach, ?_⟩, selected, ?_, ?_, afterSegments_begun _ _⟩
    · rw [plain, switches_append]
      change switches seen + 1 ≤ _ at bound
      exact bound
    · intro ctx here
      rw [afterSegments_context here]
      exact context before rfl
    · intro throughput here
      rw [evaluated] at here
      cases here

/-- In exact arithmetic, once the throughput of the segments stays in a band around which the
list has one ideal variant, the variant settles: from any state of a session on, whatever
the other threads do, the queue is cleared for a switch of the variant only a bounded number
of times, three more than it takes the estimate to come near, and once more if a switch is
under way. -/
theorem switches_settle (exactly : lib.round = id) {abrManager : AbrManager} {past : List Seen}
    {origin : Session Double} {ctx : PlaybackContext Double} {margin distance : Rat} {idealIndex : Nat}
    (reach : Reach (Player.step lib policy) anyStep (Session.start policy masterUrl abrManager) past origin)
    (here : origin.point.context = some ctx) (positive : 0 < origin.abrManager.alpha)
    (most : origin.abrManager.alpha ≤ 1) (room : 0 < margin) (order : 0 ≤ distance)
    (list : SettledList ctx.masterPlaylist.variants low high margin idealIndex)
    (near : Near low high distance origin.abrManager.smoothedThroughput)
    (waiting : ∀ throughput, origin.point.unevaluated = some throughput → low ≤ throughput ∧ throughput ≤ high) :
    (∃ count, (1 - origin.abrManager.alpha) ^ count * distance ≤ margin) ∧
      ∀ count, (1 - origin.abrManager.alpha) ^ count * distance ≤ margin →
        ∀ seen s, Reach (Player.step lib policy) (Banded policy low high) origin seen s →
          switches seen ≤ origin.point.switchAhead + (count + 3) := by
  refine ⟨exists_shrunk positive order room, fun count enough seen s later => ?_⟩
  have selected : SelectedAt masterUrl origin.abrManager origin.point :=
    reach.invariant (fun t => SelectedAt masterUrl t.abrManager t.point) rfl fun old _ run => old.step run
  have some := selected.variants_nonempty here
  have followed : Followed masterUrl low high ctx.masterPlaylist.variants origin.abrManager origin.point.switchAhead
      seen s := by
    refine later.traced (Followed masterUrl low high _ origin.abrManager origin.point.switchAhead) ?_
      fun old banded run => old.step exactly banded run
    refine ⟨⟨[], .start, by simp [switches]⟩, selected, ?_, waiting, begun_of_context here⟩
    intro ctx' here'
    rw [here] at here'
    cases here'
    rfl
  obtain ⟨selections, ran, bound⟩ := followed.selections
  have settling := settling_of_band some positive most order list near enough ran
  have few := settling.changes_le
  omega

/-- The first segment shows that the network carries the higher variant, and the queue is
cleared once. -/
theorem switches_settle_once :
    ∃ (past seen : List Seen) (origin s : Session Rat),
      Reach (Player.step CxxStd.plain {}) anyStep (Session.start {} (text "http://h/m.m3u8") {}) past origin ∧
      Reach (Player.step CxxStd.plain {}) (Banded {} 2 2) origin seen s ∧ switches seen = 1 ∧
      switches seen ≤ origin.point.switchAhead + (4 + 3) := by
  have run : ((exec (Player.step CxxStd.plain {}) anyStep (Session.start {} (text "http://h/m.m3u8") {})
      (loadFirstVariant twoSegments)).bind fun b =>
        (exec (Player.step CxxStd.plain {}) (Banded {} 2 2) b.2 (loadSegment 8 ++ [.worker])).map fun r =>
          (b.2.abrManager == {} && b.2.point.unevaluated == none && b.2.point.context.any fun ctx =>
            idealIndexLoop id (2 - 1 / 2) ctx.masterPlaylist.variants 0 0 == 1 &&
              idealIndexLoop id (2 + 1 / 2) ctx.masterPlaylist.variants 0 0 == 1) && switches r.1 == 1) = some true := by
    decide +kernel
  obtain ⟨⟨past, origin⟩, started, run⟩ := Option.bind_eq_some_iff.mp run
  obtain ⟨⟨seen, s⟩, went, test⟩ := Option.map_eq_some_iff.mp run
  simp only [Bool.and_eq_true, beq_iff_eq, Option.any_eq_true] at test
  obtain ⟨⟨⟨manager, evaluated⟩, ctx, here, lower, upper⟩, one⟩ := test
  have near : Near (2 : Rat) 2 2 origin.abrManager.smoothedThroughput := by
    rw [manager]
    exact ⟨by norm_num, by norm_num⟩
  have alpha : origin.abrManager.alpha = 3 / 10 := congrArg AbrManager.alpha manager
  have settles := (switches_settle rfl (exec_reach started) here (by rw [alpha]; norm_num) (by rw [alpha]; norm_num)
    one_half_pos (by norm_num) ⟨lower, upper⟩ near (by rw [evaluated]; rintro _ ⟨⟩)).2 4
    (by rw [alpha]; norm_num) seen s (exec_reach went)
  exact ⟨past, seen, origin, s, exec_reach started, exec_reach went, one, settles⟩

end Iptv.Player
