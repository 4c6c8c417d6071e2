import Iptv.Player.ServedRuns

namespace Iptv.Player
open Iptv.Manifest Iptv.Network Iptv.Abr
variable {Double : Type}

/-- A download that has ended, with the URL it was for. -/
structure Completed where
  url : Text
  response : HttpResponse
  deriving DecidableEq

def completed (policy : RetryPolicy) (s : Session Double) : Event → List Completed
  | .transferDone transfer =>
    match s.point with
    | .fetch purpose download =>
      match download.finish policy (purpose.stopped s) transfer with
      | .retry _ => []
      | .done response => [⟨download.url, response⟩]
    | _ => []
  | .worker | .pop | .requestStop => []

/-- The same machine with the completed downloads as its trace. -/
def recordedStep [Zero Double] (lib : CxxStd Double) (policy : RetryPolicy) (s : Session Double) (e : Event) :
    Option (Session Double × List Completed) :=
  (step lib policy s e).map fun r => (r.1, completed policy s e)

/-- The context of the variant loop, as long as the worker is in it. -/
def Point.context : Point Double → Option (PlaybackContext Double)
  | .fetch (.master _) _ | .finished | .terminated => none
  | .fetch (.variant ctx) _ | .fetch (.segment ctx _ _ _) _ | .variantLoop ctx | .segmentLoop ctx _ _
  | .pushSegment ctx _ _ _ | .evaluateAbrSwitch ctx _ _ | .clearQueue ctx _ _ => some ctx

/-- Inside of `evaluateAbrSwitch`, behind the call of `selectVariant`. -/
def Point.switching : Point Double → Bool
  | .clearQueue _ _ _ => true
  | _ => false

def PlaylistFrom [Zero Double] (lib : CxxStd Double) (log : List Completed) (uri : Text)
    (playlist : Playlist Double) : Prop :=
  ∃ response, ⟨uri, response⟩ ∈ log ∧ playlistResult lib response = .bundle playlist

/-- The bundle is what was downloaded for a segment that a playlist at `uri` lists. -/
def DownloadedFrom [Zero Double] (lib : CxxStd Double) (log : List Completed) (uri : Text)
    (queued : QueuedSegment) : Prop :=
  queued.variantUri = uri ∧
    ∃ playlist segment response, PlaylistFrom lib log uri playlist ∧ segment ∈ playlist.segments ∧
      segment.sequenceIndex = queued.sequenceIndex ∧ ⟨resolveUrl uri segment.uri, response⟩ ∈ log ∧
      segmentResult response false = .bundle queued.bundle

/-- The URI of the context is the one of the variant that the manager has selected. -/
def SelectedUri (masterUrl : Text) (abrManager : AbrManager) (ctx : PlaybackContext Double) : Prop :=
  ctx.masterUrl = masterUrl ∧
    ∃ variant, ctx.masterPlaylist.variants[abrManager.currentVariantIndex]? = some variant ∧
      ctx.currentVariantUri = resolveUrl masterUrl variant.uri

theorem selectVariant_index {round : Rat → Rat} {manager manager' : AbrManager}
    {variants : List (VariantStreamRef Double)} {measurement : Rat} {variant : VariantStreamRef Double}
    (selected : selectVariant round manager variants measurement = .ok (variant, manager')) :
    variants[manager'.currentVariantIndex]? = some variant := by
  unfold selectVariant at selected
  split at selected
  · cases selected
  · dsimp only at selected
    split at selected
    · cases selected
    · rename_i found atIndex
      cases selected
      exact atIndex

theorem segmentResult_bundle {response : HttpResponse} {stopRequested : Bool} {bundle : MediaSegmentBundle}
    (loaded : segmentResult response stopRequested = .bundle bundle) :
    segmentResult response false = .bundle bundle := by
  unfold segmentResult at loaded ⊢
  split at loaded
  · rename_i success
    rw [if_pos success]
    exact loaded
  · split at loaded <;> cases loaded

/-- What the manager and the worker agree on at a point. -/
def SelectedAt (masterUrl : Text) (abrManager : AbrManager) : Point Double → Prop
  | .fetch (.master url) _ => url = masterUrl
  | .clearQueue ctx _ nextUri =>
    nextUri ≠ ctx.currentVariantUri ∧ SelectedUri masterUrl abrManager { ctx with currentVariantUri := nextUri }
  | .fetch (.variant ctx) _ | .fetch (.segment ctx _ _ _) _ | .variantLoop ctx | .segmentLoop ctx _ _
  | .pushSegment ctx _ _ _ | .evaluateAbrSwitch ctx _ _ => SelectedUri masterUrl abrManager ctx
  | .finished | .terminated => True

def Point.begun : Point Double → Bool
  | .fetch (.master _) _ => false
  | _ => true

variable {policy : RetryPolicy} {masterUrl : Text}

theorem begun_of_context {point : Point Double} {ctx : PlaybackContext Double} (here : point.context = some ctx) :
    point.begun = true := by
  cases point with
  | fetch purpose download =>
    cases purpose with
    | master => cases here
    | variant | segment => rfl
  | variantLoop | segmentLoop | pushSegment | evaluateAbrSwitch | clearQueue | finished | terminated => rfl

theorem SelectedAt.current {abrManager : AbrManager} {point : Point Double} {ctx : PlaybackContext Double}
    (selected : SelectedAt masterUrl abrManager point) (here : point.context = some ctx)
    (outside : point.switching = false) : SelectedUri masterUrl abrManager ctx := by
  cases point with
  | fetch purpose download =>
    cases purpose with
    | master => cases here
    | variant | segment =>
      cases here
      exact selected
  | variantLoop | segmentLoop | pushSegment | evaluateAbrSwitch =>
    cases here
    exact selected
  | clearQueue => cases outside
  | finished | terminated => cases here

theorem completed_done {s : Session Double} {purpose : Purpose Double} {download : Download} {transfer : Transfer}
    {response : HttpResponse} (point : s.point = .fetch purpose download)
    (attempt : download.finish policy (purpose.stopped s) transfer = .done response) :
    completed policy s (.transferDone transfer) = [⟨download.url, response⟩] := by
  simp only [completed, point, attempt]

theorem afterSegments_begun (ctx : PlaybackContext Double) (playlist : Playlist Double) :
    (afterSegments ctx playlist).begun = true := by
  unfold afterSegments
  split <;> rfl

theorem afterSegments_context {ctx ctx' : PlaybackContext Double} {playlist : Playlist Double}
    (here : (afterSegments ctx playlist).context = some ctx') : ctx' = ctx := by
  unfold afterSegments at here
  split at here
  · cases here
  · exact (Option.some.inj here).symm

theorem afterSegments_selected {abrManager : AbrManager} {ctx : PlaybackContext Double}
    (playlist : Playlist Double) (selected : SelectedUri masterUrl abrManager ctx) :
    SelectedAt masterUrl abrManager (afterSegments ctx playlist) := by
  unfold afterSegments
  split
  · trivial
  · exact selected

variable [Zero Double] {lib : CxxStd Double}

theorem recorded_reach {guard : Session Double → Event → Prop} {start s : Session Double} {seen : List Seen}
    (reach : Reach (step lib policy) guard start seen s) :
    ∃ log, Reach (recordedStep lib policy) guard start log s := by
  induction reach with
  | start => exact ⟨[], .start⟩
  | next _ met run ih =>
    obtain ⟨log, same⟩ := ih
    exact ⟨_, .next same met (by rw [recordedStep, run]; rfl)⟩

theorem PlaylistFrom.later {log : List Completed} {uri : Text} {playlist : Playlist Double}
    (source : PlaylistFrom lib log uri playlist) (more : List Completed) :
    PlaylistFrom lib (log ++ more) uri playlist := by
  obtain ⟨response, member, loaded⟩ := source
  exact ⟨response, List.mem_append_left more member, loaded⟩

theorem DownloadedFrom.later {log : List Completed} {uri : Text} {queued : QueuedSegment}
    (source : DownloadedFrom lib log uri queued) (more : List Completed) :
    DownloadedFrom lib (log ++ more) uri queued := by
  obtain ⟨own, playlist, segment, response, from', listed, index, member, loaded⟩ := source
  exact ⟨own, playlist, segment, response, from'.later more, listed, index,
    List.mem_append_left more member, loaded⟩

/-- In the middle of a playlist that was downloaded from the URI of the context. -/
structure Within (lib : CxxStd Double) (log : List Completed) (ctx : PlaybackContext Double)
    (playlist : Playlist Double) (rest : List (MediaSegmentRef Double)) : Prop where
  source : PlaylistFrom lib log ctx.currentVariantUri playlist
  ahead : rest <:+ playlist.segments

/-- What the worker holds at a point. -/
def SourcedAt (lib : CxxStd Double) (log : List Completed) : Point Double → Prop
  | .fetch (.variant ctx) download => download.url = ctx.currentVariantUri
  | .fetch (.segment ctx playlist segment rest) download =>
    Within lib log ctx playlist (segment :: rest) ∧ download.url = resolveUrl ctx.currentVariantUri segment.uri
  | .segmentLoop ctx playlist rest | .evaluateAbrSwitch ctx playlist rest => Within lib log ctx playlist rest
  | .pushSegment ctx playlist rest queued =>
    Within lib log ctx playlist rest ∧ DownloadedFrom lib log ctx.currentVariantUri queued
  | .fetch (.master _) _ | .variantLoop _ | .clearQueue _ _ _ | .finished | .terminated => True

def QueuedFrom (lib : CxxStd Double) (log : List Completed) (uri : Text) (queue : List QueuedSegment) : Prop :=
  ∀ queued ∈ queue, DownloadedFrom lib log uri queued

/-- The worker stays with the variant at `uri`, and the queue comes from it, also
behind the end of the worker. -/
structure Settled (lib : CxxStd Double) (uri : Text) (log : List Completed) (s : Session Double) : Prop where
  begun : s.point.begun = true
  current : ∀ ctx, s.point.context = some ctx → ctx.currentVariantUri = uri
  queued : QueuedFrom lib log uri s.segmentQueue

/-- The guard of the runs without a further switch. -/
def NoSwitch (s : Session Double) : Event → Prop
  | .worker => s.point.switching = false
  | .transferDone _ | .pop | .requestStop => True

theorem Within.later {log : List Completed} {ctx : PlaybackContext Double} {playlist : Playlist Double}
    {rest : List (MediaSegmentRef Double)} (within : Within lib log ctx playlist rest) (more : List Completed) :
    Within lib (log ++ more) ctx playlist rest :=
  ⟨within.source.later more, within.ahead⟩

theorem QueuedFrom.later {log : List Completed} {uri : Text} {queue : List QueuedSegment}
    (sourced : QueuedFrom lib log uri queue) (more : List Completed) : QueuedFrom lib (log ++ more) uri queue :=
  fun queued member => (sourced queued member).later more

theorem SourcedAt.later {log : List Completed} {point : Point Double} (held : SourcedAt lib log point)
    (more : List Completed) : SourcedAt lib (log ++ more) point := by
  cases point with
  | fetch purpose download =>
    cases purpose with
    | master | variant => exact held
    | segment => exact ⟨held.1.later more, held.2⟩
  | segmentLoop | evaluateAbrSwitch => exact Within.later held more
  | pushSegment => exact ⟨held.1.later more, held.2.later more⟩
  | variantLoop | clearQueue | finished | terminated => trivial

theorem afterSegments_sourced (lib : CxxStd Double) (log : List Completed) (ctx : PlaybackContext Double)
    (playlist : Playlist Double) : SourcedAt lib log (afterSegments ctx playlist) := by
  unfold afterSegments
  split <;> trivial

theorem SelectedAt.step {s s' : Session Double} {e : Event} {new : List Seen}
    (old : SelectedAt masterUrl s.abrManager s.point) (run : Player.step lib policy s e = some (s', new)) :
    SelectedAt masterUrl s'.abrManager s'.point := by
  cases step_cases run with
  | popped | stopped => exact old
  | @began purpose download point | @retried purpose download transfer next point =>
    rw [point] at old
    cases purpose <;> exact old
  | masterRejected | masterThrew | variantFailed | segmentFailed | cancelled | threw => trivial
  | masterAccepted point performing attempt accepted selected =>
    rw [point] at old
    obtain rfl : _ = masterUrl := old
    exact ⟨rfl, _, selectVariant_index selected, rfl⟩
  | variantLoaded point | segmentLoaded point | variantStarted point | segmentSkipped point
  | segmentStarted point | pushed point =>
    rw [point] at old
    exact old
  | segmentsEnded point =>
    rw [point] at old
    exact afterSegments_selected _ old
  | kept point selected same =>
    rw [point] at old
    exact ⟨old.1, _, selectVariant_index selected, by rw [← same, old.1]⟩
  | switched point selected other =>
    rw [point] at old
    exact ⟨other, old.1, _, selectVariant_index selected, by rw [old.1]⟩
  | cleared point =>
    rw [point] at old
    exact afterSegments_selected _ old.2

theorem SourcedAt.step {log : List Completed} {s s' : Session Double} {e : Event} {new : List Seen}
    (before : SourcedAt lib log s.point) (run : Player.step lib policy s e = some (s', new)) :
    SourcedAt lib (log ++ completed policy s e) s'.point := by
  have old := before.later (completed policy s e)
  cases step_cases run with
  | popped | stopped => exact old
  | @began purpose download point =>
    rw [point] at old
    cases purpose <;> exact old
  | @retried purpose download transfer next point performing attempt =>
    rw [point] at old
    have same := (finish_retry attempt).2.1
    cases purpose with
    | master => trivial
    | variant => exact same.trans old
    | segment => exact ⟨old.1, same.trans old.2⟩
  | masterRejected | masterThrew | variantFailed | segmentFailed | cancelled | threw => trivial
  | masterAccepted | switched => trivial
  | variantStarted => exact rfl
  | variantLoaded point performing attempt loaded =>
    rw [point] at old
    have own : _ = _ := old
    rw [completed_done point attempt, own]
    exact ⟨⟨_, by simp, loaded⟩, List.suffix_refl _⟩
  | segmentLoaded point performing attempt loaded =>
    rw [point] at old
    obtain ⟨within, url⟩ := old
    rw [completed_done point attempt, url] at within ⊢
    exact ⟨⟨within.source, (List.suffix_cons _ _).trans within.ahead⟩, rfl, _, _, _, within.source,
      within.ahead.subset (List.mem_cons_self ..), rfl, by simp, segmentResult_bundle loaded⟩
  | segmentsEnded => exact afterSegments_sourced ..
  | cleared => exact afterSegments_sourced ..
  | segmentSkipped point =>
    rw [point] at old
    exact ⟨old.source, (List.suffix_cons _ _).trans old.ahead⟩
  | segmentStarted point =>
    rw [point] at old
    exact ⟨old, rfl⟩
  | pushed point =>
    rw [point] at old
    exact old.1
  | kept point =>
    rw [point] at old
    exact old

/-- A step that leaves the variant and the queue as they are. -/
theorem Settled.move {uri : Text} {log : List Completed} {s s' : Session Double} (old : Settled lib uri log s)
    (begun : s'.point.begun = true) (queue : s'.segmentQueue = s.segmentQueue)
    (same : ∀ ctx', s'.point.context = some ctx' →
      ∃ ctx, s.point.context = some ctx ∧ ctx'.currentVariantUri = ctx.currentVariantUri)
    (more : List Completed) : Settled lib uri (log ++ more) s' where
  begun := begun
  current := by
    intro ctx' here
    obtain ⟨ctx, there, kept⟩ := same ctx' here
    rw [kept, old.current ctx there]
  queued := by
    rw [queue]
    exact old.queued.later more

theorem Settled.step {uri : Text} {log : List Completed} {s s' : Session Double} {e : Event} {new : List Seen}
    (old : Settled lib uri log s) (held : SourcedAt lib log s.point) (stays : NoSwitch s e)
    (run : Player.step lib policy s e = some (s', new)) :
    Settled lib uri (log ++ completed policy s e) s' := by
  have begun := old.begun
  cases step_cases run with
  | @popped queued rest queue =>
    refine ⟨old.begun, old.current, fun later member => (old.queued later ?_).later _⟩
    rw [queue]
    exact List.mem_cons_of_mem _ member
  | stopped =>
    refine old.move ?_ ?_ ?_ _
    · exact begun
    · rfl
    · exact fun ctx here => ⟨ctx, here, rfl⟩
  | @began purpose download point | @retried purpose download transfer next point =>
    rw [point] at begun
    cases purpose with
    | master => cases begun
    | variant ctx | segment ctx =>
      refine old.move ?_ ?_ ?_ _
      · rfl
      · rfl
      · rintro _ ⟨⟩
        exact ⟨ctx, by rw [point]; rfl, rfl⟩
  | masterRejected point | masterThrew point | masterAccepted point =>
    rw [point] at begun
    cases begun
  | variantFailed | segmentFailed | cancelled | threw =>
    refine old.move ?_ ?_ ?_ _
    · rfl
    · rfl
    · rintro _ ⟨⟩
  | @variantLoaded ctx _ _ _ _ point | @segmentLoaded ctx _ _ _ _ _ _ _ point | @variantStarted ctx point
  | @segmentSkipped ctx _ _ _ point | @segmentStarted ctx _ _ _ point | @kept ctx _ _ _ _ point
  | @switched ctx _ _ _ _ point =>
    refine old.move ?_ ?_ ?_ _
    · rfl
    · rfl
    · rintro _ ⟨⟩
      exact ⟨ctx, by rw [point]; rfl, rfl⟩
  | @segmentsEnded ctx playlist point =>
    refine old.move ?_ ?_ ?_ _
    · exact afterSegments_begun ..
    · rfl
    · intro ctx' here
      exact ⟨ctx, by rw [point]; rfl, by rw [afterSegments_context here]⟩
  | @pushed ctx playlist rest queued point =>
    have same : ctx.currentVariantUri = uri := old.current ctx (by rw [point]; rfl)
    rw [point] at held
    refine ⟨rfl, fun ctx' here => by cases here; exact same, fun later member => ?_⟩
    rcases List.mem_append.mp member with earlier | last
    · exact (old.queued later earlier).later _
    · obtain rfl := List.mem_singleton.mp last
      rw [← same]
      exact held.2.later _
  | cleared point =>
    simp [NoSwitch, point, Point.switching] at stays

/-- The clear of a switch settles on the incoming variant. -/
theorem Settled.cleared {log : List Completed} {s s' : Session Double} {new : List Seen}
    {ctx : PlaybackContext Double} {playlist : Playlist Double} {nextUri : Text}
    (point : s.point = .clearQueue ctx playlist nextUri)
    (run : Player.step lib policy s .worker = some (s', new)) : Settled lib nextUri log s' := by
  simp only [Player.step, Session.work, point, Option.some.injEq, Prod.mk.injEq] at run
  obtain ⟨rfl, _⟩ := run
  refine ⟨afterSegments_begun .., fun ctx' here => by rw [afterSegments_context here], ?_⟩
  intro queued member
  cases member

/-- What holds between the queue, the worker and the manager in every state. -/
structure Current (lib : CxxStd Double) (masterUrl : Text) (log : List Completed) (s : Session Double) : Prop where
  settled : (s.point.begun = false ∧ s.segmentQueue = []) ∨ ∃ uri, Settled lib uri log s
  held : SourcedAt lib log s.point
  selected : SelectedAt masterUrl s.abrManager s.point

/-- Behind the first download the worker settles on the variant it starts with. -/
theorem Settled.start {log : List Completed} {s s' : Session Double} {e : Event} {new : List Seen}
    (unstarted : s.point.begun = false) (empty : s.segmentQueue = [])
    (run : Player.step lib policy s e = some (s', new)) :
    (s'.point.begun = false ∧ s'.segmentQueue = []) ∨ ∃ uri, Settled lib uri log s' := by
  have nothing : ∀ uri, QueuedFrom lib log uri s.segmentQueue := by
    intro uri queued member
    rw [empty] at member
    cases member
  cases step_cases run with
  | popped queue =>
    rw [empty] at queue
    cases queue
  | stopped => exact .inl ⟨unstarted, empty⟩
  | @began purpose download point | @retried purpose download transfer next point =>
    rw [point] at unstarted
    cases purpose with
    | master => exact .inl ⟨rfl, empty⟩
    | variant | segment => cases unstarted
  | masterRejected | masterThrew =>
    refine .inr ⟨[], rfl, ?_, nothing []⟩
    rintro _ ⟨⟩
  | @masterAccepted url download transfer response playlist initialVariant =>
    refine .inr ⟨resolveUrl url initialVariant.uri, rfl, ?_, nothing _⟩
    rintro _ ⟨⟩
    rfl
  | variantFailed point | variantLoaded point | segmentFailed point | segmentLoaded point
  | variantStarted point | segmentsEnded point | segmentSkipped point | segmentStarted point | pushed point
  | threw point | kept point | switched point | cleared point =>
    rw [point] at unstarted
    cases unstarted
  | cancelled _ point =>
    rcases point with ⟨_, point⟩ | ⟨_, _, _, _, point⟩ <;> rw [point] at unstarted <;> cases unstarted

theorem Current.step {log : List Completed} {s s' : Session Double} {e : Event} {new : List Seen}
    (old : Current lib masterUrl log s) (run : Player.step lib policy s e = some (s', new)) :
    Current lib masterUrl (log ++ completed policy s e) s' := by
  refine ⟨?_, old.held.step run, old.selected.step run⟩
  rcases old.settled with ⟨unstarted, empty⟩ | ⟨uri, settled⟩
  · exact Settled.start unstarted empty run
  · by_cases stays : NoSwitch s e
    · exact .inr ⟨uri, settled.step old.held stays run⟩
    · cases e with
      | worker =>
        simp only [NoSwitch, Bool.not_eq_false] at stays
        cases point : s.point with
        | clearQueue ctx playlist nextUri => exact .inr ⟨nextUri, .cleared point run⟩
        | fetch | variantLoop | segmentLoop | pushSegment | evaluateAbrSwitch | finished | terminated =>
          rw [point] at stays
          cases stays
      | transferDone | pop | requestStop => exact absurd trivial stays

theorem current_reach {guard : Session Double → Event → Prop} {abrManager : AbrManager} {log : List Completed}
    {s : Session Double}
    (reach : Reach (recordedStep lib policy) guard (Session.start policy masterUrl abrManager) log s) :
    Current lib masterUrl log s := by
  refine reach.traced (Current lib masterUrl) ⟨.inl ⟨rfl, rfl⟩, trivial, rfl⟩ ?_
  intro past state state' e new old _ run
  obtain ⟨r, stepped, same⟩ := Option.map_eq_some_iff.mp run
  cases same
  exact old.step stepped

/-- As long as no further switch is made the worker stays settled. -/
theorem Settled.reach {uri : Text} {log more : List Completed} {s t : Session Double}
    (settled : Settled lib uri log s) (held : SourcedAt lib log s.point)
    (reach : Reach (recordedStep lib policy) NoSwitch s more t) :
    Settled lib uri (log ++ more) t := by
  have both : Settled lib uri (log ++ more) t ∧ SourcedAt lib (log ++ more) t.point := by
    refine reach.traced (fun past state => Settled lib uri (log ++ past) state ∧
      SourcedAt lib (log ++ past) state.point) (by simpa using ⟨settled, held⟩) ?_
    intro past state state' e new old stays run
    obtain ⟨r, stepped, same⟩ := Option.map_eq_some_iff.mp run
    cases same
    rw [← List.append_assoc]
    exact ⟨old.1.step old.2 stays stepped, old.2.step stepped⟩
  exact both.1

/-- The queue holds segments of one variant only, the current one as long as there
is a context, and this is the one that the manager has selected; and behind a
switch, until the next one, all that the consumer can pop is from the incoming variant. -/
theorem queue_currentVariant {guard : Session Double → Event → Prop} {abrManager : AbrManager}
    {log : List Completed} {s : Session Double}
    (reach : Reach (recordedStep lib policy) guard (Session.start policy masterUrl abrManager) log s) :
    (∃ uri, QueuedFrom lib log uri s.segmentQueue ∧ ∀ ctx, s.point.context = some ctx →
      ctx.currentVariantUri = uri ∧
        (s.point.switching = false → SelectedUri masterUrl s.abrManager ctx)) ∧
    ∀ ctx playlist nextUri s₁ new, s.point = .clearQueue ctx playlist nextUri →
      recordedStep lib policy s .worker = some (s₁, new) →
      ∀ more s₂, Reach (recordedStep lib policy) NoSwitch s₁ more s₂ →
        QueuedFrom lib (log ++ new ++ more) nextUri s₂.segmentQueue ∧
          ∀ queued ∈ s₂.segmentQueue, queued.variantUri ≠ ctx.currentVariantUri := by
  have current := current_reach reach
  constructor
  · rcases current.settled with ⟨unstarted, empty⟩ | ⟨uri, settled⟩
    · refine ⟨[], by simp [empty, QueuedFrom], fun ctx here => ?_⟩
      rw [begun_of_context here] at unstarted
      cases unstarted
    · exact ⟨uri, settled.queued, fun ctx here =>
        ⟨settled.current ctx here, current.selected.current here⟩⟩
  · intro ctx playlist nextUri s₁ new point run more s₂ behind
    obtain ⟨r, stepped, same⟩ := Option.map_eq_some_iff.mp run
    cases same
    have settled : Settled lib nextUri (log ++ completed policy s .worker) r.1 := .cleared point stepped
    have queued := (settled.reach (current.held.step stepped) behind).queued
    refine ⟨queued, fun later member => ?_⟩
    rw [(queued later member).1]
    have selected := current.selected
    rw [point] at selected
    exact selected.1

instance (s : Session Double) (e : Event) : Decidable (NoSwitch s e) :=
  match e with
  | .worker => inferInstanceAs (Decidable (s.point.switching = false))
  | .transferDone _ | .pop | .requestStop => inferInstanceAs (Decidable True)

def Point.switchesTo (nextUri : Text) : Point Double → Bool
  | .clearQueue _ _ uri => uri == nextUri
  | _ => false

/-- Behind the clear: the playlist of the higher rate and its second segment. -/
def loadBehindSwitch : List Event := .worker :: serve twoSegments 1 ++ .worker :: loadSegment 2

/-- A switch to the higher rate, and the first segment behind it. -/
theorem queue_currentVariant_switch :
    ∃ log s s₁ new more s₂ ctx playlist,
      Reach (recordedStep CxxStd.plain {}) anyStep (Session.start {} (text "http://h/m.m3u8") {}) log s ∧
      s.point = .clearQueue ctx playlist (text "http://h/v1.m3u8") ∧
      recordedStep CxxStd.plain {} s .worker = some (s₁, new) ∧
      Reach (recordedStep CxxStd.plain {}) NoSwitch s₁ more s₂ ∧ s₂.segmentQueue ≠ [] ∧
      QueuedFrom CxxStd.plain (log ++ new ++ more) (text "http://h/v1.m3u8") s₂.segmentQueue ∧
      ∀ queued ∈ s₂.segmentQueue, queued.variantUri ≠ ctx.currentVariantUri := by
  obtain ⟨log, s, reach, test⟩ := reach_of_exec (recordedStep CxxStd.plain {}) anyStep
    (Session.start {} (text "http://h/m.m3u8") {}) (loadFirstVariant twoSegments ++ loadSegment 2)
    (fun r => r.2.point.switchesTo (text "http://h/v1.m3u8") &&
      ((recordedStep CxxStd.plain {} r.2 .worker).bind fun cleared =>
        (exec (recordedStep CxxStd.plain {}) NoSwitch cleared.1 loadBehindSwitch).map
          fun behind => behind.2.segmentQueue.length) == some 1) (by decide +kernel)
  simp only [Bool.and_eq_true, beq_iff_eq, Option.bind_eq_some_iff, Option.map_eq_some_iff] at test
  obtain ⟨switches, ⟨s₁, new⟩, run, ⟨more, s₂⟩, later, one⟩ := test
  cases point : s.point with
  | clearQueue ctx playlist nextUri =>
    rw [point] at switches
    obtain rfl : nextUri = text "http://h/v1.m3u8" := by simpa [Point.switchesTo] using switches
    have behind := exec_reach later
    obtain ⟨queued, other⟩ := (queue_currentVariant reach).2 ctx playlist _ s₁ new point run more s₂ behind
    have some : s₂.segmentQueue ≠ [] := by
      intro empty
      simp [empty] at one
    exact ⟨log, s, s₁, new, more, s₂, ctx, playlist, reach, point, run, behind, some, queued, other⟩
  | fetch | variantLoop | segmentLoop | pushSegment | evaluateAbrSwitch | finished | terminated =>
    rw [point] at switches
    cases switches

end Iptv.Player
