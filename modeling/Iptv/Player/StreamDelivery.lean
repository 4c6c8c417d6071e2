import Iptv.Player.PublishedContent
import Iptv.Player.VodCompleteness

namespace Iptv.Player
open Iptv.Manifest Iptv.Network Iptv.Abr
variable {Double : Type}

/-- A site with one stream on demand: all that its master playlists name is the one URI,
and there is the one complete playlist, with consecutive indices. -/
structure OneStream [Zero Double] (lib : CxxStd Double) (site : Site) (masterUrl variantUri : Text)
    (playlist : Playlist Double) : Prop where
  offered : ∀ master uri, Publishes lib site masterUrl master → Offers masterUrl master uri → uri = variantUri
  only : ∀ found, Publishes lib site variantUri found → found = playlist
  complete : playlist.hasEndlist = true
  numbered : ∃ first, playlist.segments.map (·.sequenceIndex) = consecutive first playlist.segments.length

/-- Every download succeeds that ends while no stop is requested. -/
def Loads [Zero Double] (lib : CxxStd Double) (policy : RetryPolicy) (s : Session Double) : Event → Prop
  | .transferDone transfer =>
    s.stopRequested = false → ∀ ended ∈ s.response policy transfer,
      ended.1.Served lib (fun _ => True) s.stopRequested ended.2
  | .worker | .pop | .requestStop => True

instance [Zero Double] (lib : CxxStd Double) (policy : RetryPolicy) (s : Session Double) (e : Event) :
    Decidable (Loads lib policy s e) :=
  match e with
  | .transferDone transfer => inferInstanceAs (Decidable (s.stopRequested = false →
      ∀ ended ∈ s.response policy transfer, ended.1.Served lib (fun _ => True) s.stopRequested ended.2))
  | .worker | .pop | .requestStop => inferInstanceAs (Decidable True)

/-- The site answers, and does so without a failure if it is reliable. -/
def SiteServes [Zero Double] (lib : CxxStd Double) (policy : RetryPolicy) (site : Site) (reliable : Bool)
    (s : Session Double) (e : Event) : Prop :=
  Answered site s e ∧ (reliable = true → Loads lib policy s e)

instance [Zero Double] (lib : CxxStd Double) (policy : RetryPolicy) (site : Site) (reliable : Bool)
    (s : Session Double) (e : Event) : Decidable (SiteServes lib policy site reliable s e) :=
  inferInstanceAs (Decidable (Answered site s e ∧ (reliable = true → Loads lib policy s e)))

/-- The bundles carry, one for one and in their order, the segments in front of `rest`. -/
def Delivers (site : Site) (variantUri : Text) (playlist : Playlist Double) (done : List QueuedSegment)
    (rest : List (MediaSegmentRef Double)) : Prop :=
  ∃ front, playlist.segments = front ++ rest ∧ List.Forall₂ (QueuedSegment.Carries site variantUri) done front

/-- The worker has delivered what is in front of `rest` and resumes right behind it. -/
structure ResumesBehind (site : Site) (variantUri : Text) (playlist : Playlist Double) (done : List QueuedSegment)
    (ctx : PlaybackContext Double) (rest : List (MediaSegmentRef Double)) : Prop where
  delivered : Delivers site variantUri playlist done rest
  resume : (done = [] ∧ ctx.nextSequenceIndex = 0) ∨
    ∃ last, done.getLast? = some last ∧ ctx.nextSequenceIndex = last.sequenceIndex + 1

/-- Whatever the context holds leads to the one variant. -/
structure PlaybackContext.Tuned (masterUrl variantUri : Text) (ctx : PlaybackContext Double) : Prop where
  url : ctx.masterUrl = masterUrl
  variants : ∀ variant ∈ ctx.masterPlaylist.variants, resolveUrl masterUrl variant.uri = variantUri
  current : ctx.currentVariantUri = variantUri

/-- How far the stream has come when the bundles `done` have been pushed. -/
def StreamAt (site : Site) (masterUrl variantUri : Text) (playlist : Playlist Double) (reliable : Bool)
    (done : List QueuedSegment) (stopRequested : Bool) : Point Double → Prop
  | .fetch (.master url) download => done = [] ∧ url = masterUrl ∧ download.url = masterUrl
  | .fetch (.variant ctx) download =>
    (done = [] ∧ ctx.nextSequenceIndex = 0) ∧ ctx.Tuned masterUrl variantUri ∧ download.url = variantUri
  | .variantLoop ctx => (done = [] ∧ ctx.nextSequenceIndex = 0) ∧ ctx.Tuned masterUrl variantUri
  | .fetch (.segment ctx listed segment rest) download =>
    ResumesBehind site variantUri playlist done ctx (segment :: rest) ∧
      (listed = playlist ∧ ctx.Tuned masterUrl variantUri) ∧ download.url = resolveUrl variantUri segment.uri
  | .segmentLoop ctx listed rest | .evaluateAbrSwitch ctx listed rest =>
    ResumesBehind site variantUri playlist done ctx rest ∧ listed = playlist ∧ ctx.Tuned masterUrl variantUri
  | .pushSegment ctx listed rest queued =>
    ResumesBehind site variantUri playlist (done ++ [queued]) ctx rest ∧ listed = playlist ∧
      ctx.Tuned masterUrl variantUri
  | .clearQueue _ _ _ => False
  | .finished =>
    (∃ rest, Delivers site variantUri playlist done rest) ∧
      (reliable = true → stopRequested = false → Delivers site variantUri playlist done [])
  | .terminated => ∃ rest, Delivers site variantUri playlist done rest

section
variable {site : Site} {masterUrl variantUri : Text} {playlist : Playlist Double} {done : List QueuedSegment}
  {ctx : PlaybackContext Double} {segment : MediaSegmentRef Double} {rest : List (MediaSegmentRef Double)}

theorem delivers_nothing (site : Site) (variantUri : Text) (playlist : Playlist Double) :
    Delivers site variantUri playlist [] playlist.segments := ⟨[], rfl, .nil⟩

theorem Delivers.one {queued : QueuedSegment} (delivers : Delivers site variantUri playlist done (segment :: rest))
    (carries : queued.Carries site variantUri segment) :
    Delivers site variantUri playlist (done ++ [queued]) rest := by
  obtain ⟨front, split, all⟩ := delivers
  exact ⟨front ++ [segment], by simp [split], List.rel_append all (.cons carries .nil)⟩

theorem Delivers.first {front : List QueuedSegment} (delivers : Delivers site variantUri playlist done rest)
    (earlier : front <+: done) : ∃ later, Delivers site variantUri playlist front later := by
  obtain ⟨listed, split, all⟩ := delivers
  rw [List.prefix_iff_eq_take.mp earlier]
  refine ⟨listed.drop front.length ++ rest, listed.take front.length, ?_, List.forall₂_take _ all⟩
  rw [← List.append_assoc, List.take_append_drop, split]

/-- Wherever the worker is, it has delivered the segments up to some point. -/
theorem StreamAt.delivers {reliable stopRequested : Bool} {point : Point Double}
    (stream : StreamAt site masterUrl variantUri playlist reliable done stopRequested point) :
    ∃ rest, Delivers site variantUri playlist done rest := by
  cases point with
  | fetch purpose =>
    cases purpose with
    | master => exact ⟨_, stream.1 ▸ delivers_nothing site variantUri playlist⟩
    | variant => exact ⟨_, stream.1.1 ▸ delivers_nothing site variantUri playlist⟩
    | segment => exact ⟨_, stream.1.delivered⟩
  | variantLoop => exact ⟨_, stream.1.1 ▸ delivers_nothing site variantUri playlist⟩
  | segmentLoop | evaluateAbrSwitch => exact ⟨_, stream.1.delivered⟩
  | pushSegment => exact stream.1.delivered.first (List.prefix_append _ _)
  | clearQueue => exact stream.elim
  | finished => exact stream.1
  | terminated => exact stream

/-- The head of the segments ahead is never behind the resume point. -/
theorem ResumesBehind.due
    (numbered : ∃ first, playlist.segments.map (·.sequenceIndex) = consecutive first playlist.segments.length)
    (resumes : ResumesBehind site variantUri playlist done ctx (segment :: rest)) :
    ¬segment.sequenceIndex < ctx.nextSequenceIndex := by
  rcases resumes.resume with ⟨_, zero⟩ | ⟨last, ended, next⟩
  · rw [zero, UInt64.lt_iff_toNat_lt]
    simp
  · obtain ⟨first, indices⟩ := numbered
    obtain ⟨front, split, all⟩ := resumes.delivered
    rw [split, List.map_append, List.map_cons] at indices
    have same : done.map (·.sequenceIndex) = front.map (·.sequenceIndex) := by
      rw [← List.forall₂_eq_eq_eq, List.forall₂_map_left_iff, List.forall₂_map_right_iff]
      exact all.imp fun _ _ carries => carries.index
    have behind : (front.map (·.sequenceIndex)).getLast? = some last.sequenceIndex := by
      rw [← same, List.getLast?_map, ended]
      rfl
    rw [next, consecutive_step indices.symm behind]
    simp

/-- A stop request does not undo what has been delivered. -/
theorem StreamAt.stopped {reliable stopRequested : Bool} {point : Point Double}
    (old : StreamAt site masterUrl variantUri playlist reliable done stopRequested point) :
    StreamAt site masterUrl variantUri playlist reliable done true point := by
  cases point with
  | fetch purpose => cases purpose <;> exact old
  | finished => exact ⟨old.1, fun _ running => by cases running⟩
  | variantLoop | segmentLoop | pushSegment | evaluateAbrSwitch | clearQueue | terminated => exact old

end

variable [Zero Double] {lib : CxxStd Double} {policy : RetryPolicy} {site : Site} {masterUrl variantUri : Text}
  {playlist : Playlist Double} {reliable : Bool}

theorem StreamAt.step (stream : OneStream lib site masterUrl variantUri playlist) {done : List QueuedSegment}
    {s s' : Session Double} {e : Event} {new : List Seen}
    (old : StreamAt site masterUrl variantUri playlist reliable done s.stopRequested s.point)
    (served : SiteServes lib policy site reliable s e) (run : Player.step lib policy s e = some (s', new)) :
    StreamAt site masterUrl variantUri playlist reliable (done ++ sent s.point (.session e))
      s'.stopRequested s'.point := by
  obtain ⟨answered, loads⟩ := served
  cases step_cases run with
  | popped =>
    rw [sent, List.append_nil]
    exact old
  | stopped =>
    rw [sent, List.append_nil]
    exact old.stopped
  | @began purpose download point =>
    rw [point] at old
    rw [sent, point, toPush, List.append_nil]
    cases purpose <;> exact old
  | @retried purpose download transfer next point performing attempt =>
    rw [point] at old
    rw [sent, List.append_nil]
    have same := (finish_retry attempt).2.1
    cases purpose with
    | master => exact ⟨old.1, old.2.1, same.trans old.2.2⟩
    | variant | segment => exact ⟨old.1, old.2.1, same.trans old.2.2⟩
  | @masterRejected masterUrl download transfer response point performing attempt rejected =>
    rw [point] at old
    rw [sent, List.append_nil, old.1]
    refine ⟨⟨_, delivers_nothing site variantUri playlist⟩, fun sure running => ?_⟩
    have good : Served lib policy (fun _ => True) s (.transferDone transfer) := loads sure running
    exact absurd rejected (good.not_rejected point attempt)
  | masterThrew point =>
    rw [point] at old
    rw [sent, List.append_nil, old.1]
    exact ⟨_, delivers_nothing site variantUri playlist⟩
  | @masterAccepted url download transfer response master initial manager point performing attempt accepted selected =>
    have published := answered.playlist point attempt (masterPlaylist_bundle accepted)
    rw [point] at old
    obtain ⟨empty, rfl, same⟩ := old
    rw [same] at published
    rw [sent, List.append_nil]
    have variants : ∀ variant ∈ master.variants, resolveUrl url variant.uri = variantUri :=
      fun variant member => stream.offered _ _ published ⟨variant, member, rfl⟩
    exact ⟨⟨empty, rfl⟩, rfl, variants, variants _ (selectVariant_manager selected).2⟩
  | @variantFailed ctx download transfer response point performing attempt failed =>
    rw [point] at old
    rw [sent, List.append_nil, old.1.1]
    refine ⟨⟨_, delivers_nothing site variantUri playlist⟩, fun sure running => ?_⟩
    have good : Served lib policy (fun _ => True) s (.transferDone transfer) := loads sure running
    obtain ⟨found, loaded, _⟩ := good.playlist point attempt
    exact absurd loaded (failed found)
  | variantLoaded point performing attempt loaded =>
    have published := answered.playlist point attempt loaded
    rw [point] at old
    obtain ⟨⟨empty, next⟩, tuned, same⟩ := old
    rw [same] at published
    obtain rfl := stream.only _ published
    rw [sent, List.append_nil, empty]
    exact ⟨⟨delivers_nothing site variantUri _, .inl ⟨rfl, next⟩⟩, rfl, tuned⟩
  | @segmentFailed ctx listed segment rest download transfer response point performing attempt failed =>
    rw [point] at old
    rw [sent, List.append_nil]
    refine ⟨⟨_, old.1.delivered⟩, fun sure running => ?_⟩
    have good : Served lib policy (fun _ => True) s (.transferDone transfer) := loads sure running
    obtain ⟨bundle, loaded⟩ := good.segment point attempt
    exact absurd loaded (failed bundle)
  | @segmentLoaded ctx listed segment rest download transfer response bundle point performing attempt loaded =>
    have body := answered.segment point attempt loaded
    rw [point] at old
    obtain ⟨resumes, ⟨same, tuned⟩, url⟩ := old
    rw [url] at body
    rw [sent, List.append_nil]
    refine ⟨⟨resumes.delivered.one ⟨tuned.current, rfl, body⟩, .inr ⟨_, List.getLast?_concat, rfl⟩⟩, same, ?_⟩
    exact ⟨tuned.url, tuned.variants, tuned.current⟩
  | cancelled stop point =>
    have halted : s.stopRequested ≠ false := by simp [stop]
    rcases point with ⟨ctx, point⟩ | ⟨ctx, listed, segment, rest, point⟩
    · rw [point] at old
      rw [sent, point, toPush, List.append_nil, old.1.1]
      exact ⟨⟨_, delivers_nothing site variantUri playlist⟩, fun _ running => absurd running halted⟩
    · rw [point] at old
      rw [sent, point, toPush, List.append_nil]
      exact ⟨⟨_, old.1.delivered⟩, fun _ running => absurd running halted⟩
  | variantStarted point =>
    rw [point] at old
    rw [sent, point, toPush, List.append_nil]
    exact ⟨old.1, old.2, old.2.current⟩
  | segmentsEnded point =>
    rw [point] at old
    obtain ⟨resumes, rfl, _⟩ := old
    rw [sent, point, toPush, List.append_nil, Session.goto_point, afterSegments, if_pos stream.complete]
    exact ⟨⟨_, resumes.delivered⟩, fun _ _ => resumes.delivered⟩
  | segmentSkipped point _ behind =>
    rw [point] at old
    exact absurd behind (old.1.due stream.numbered)
  | segmentStarted point =>
    rw [point] at old
    rw [sent, point, toPush, List.append_nil]
    refine ⟨old.1, old.2, ?_⟩
    rw [← old.2.2.current]
    rfl
  | pushed point =>
    rw [point] at old
    rw [sent, point, toPush]
    exact old
  | threw point =>
    rw [point] at old
    rw [sent, point, toPush, List.append_nil]
    exact ⟨_, old.1.delivered⟩
  | kept point =>
    rw [point] at old
    rw [sent, point, toPush, List.append_nil]
    exact old
  | switched point selected other =>
    rw [point] at old
    obtain ⟨_, _, tuned⟩ := old
    refine absurd ?_ other
    rw [tuned.url, tuned.current]
    exact tuned.variants _ (selectVariant_manager selected).2
  | cleared point =>
    rw [point] at old
    exact old.elim

end Iptv.Player
