import Iptv.Player.OriginConfinement

namespace Iptv.Player
open Iptv.Manifest Iptv.Network Iptv.Abr

/-- The bodies that a site has at a URL; over time there may be many. -/
abbrev Site := Text → List Text

variable {Double : Type}

/-- The bundle is a body of the segment that the playlist at `variantUri` lists. -/
structure QueuedSegment.Carries (site : Site) (variantUri : Text) (queued : QueuedSegment)
    (segment : MediaSegmentRef Double) : Prop where
  listed : queued.variantUri = variantUri
  index : queued.sequenceIndex = segment.sequenceIndex
  body : queued.bundle.rawBuffer ∈ site (resolveUrl variantUri segment.uri)

/-- The master playlist names a variant by this URI. -/
def Offers (masterUrl : Text) (master : Playlist Double) (variantUri : Text) : Prop :=
  ∃ variant ∈ master.variants, resolveUrl masterUrl variant.uri = variantUri

/-- The bundle that has been downloaded and not pushed yet. -/
def toPush : Point Double → List QueuedSegment
  | .pushSegment _ _ _ queued => [queued]
  | .fetch _ _ | .variantLoop _ | .segmentLoop _ _ _ | .evaluateAbrSwitch _ _ _ | .clearQueue _ _ _ | .finished
  | .terminated => []

/-- What a command of the orchestrator pushes. -/
def sent (point : Point Double) : Command → List QueuedSegment
  | .session .worker => toPush point
  | .session .pop | .session .requestStop | .session (.transferDone _) | .start _ | .stop | .join | .clear | .spawn => []

/-- A transfer that succeeds brings a body that the site has at the URL it is made for. -/
def Answered (site : Site) (s : Session Double) : Event → Prop
  | .transferDone transfer =>
    match s.point with
    | .fetch _ download =>
      transfer.code = .ok → transfer.response.isSuccess = true → transfer.body ∈ site download.url
    | .variantLoop _ | .segmentLoop _ _ _ | .pushSegment _ _ _ _ | .evaluateAbrSwitch _ _ _ | .clearQueue _ _ _
    | .finished | .terminated => True
  | .worker | .pop | .requestStop => True

instance (site : Site) (s : Session Double) (e : Event) : Decidable (Answered site s e) :=
  match e with
  | .transferDone transfer => by
    unfold Answered
    cases s.point <;> exact inferInstance
  | .worker | .pop | .requestStop => inferInstanceAs (Decidable True)

section
variable [Zero Double]

/-- The site has the playlist at the URL. -/
def Publishes (lib : CxxStd Double) (site : Site) (url : Text) (playlist : Playlist Double) : Prop :=
  ∃ body ∈ site url, parse lib body = .ok playlist

/-- The bundle can be reached from the master playlist: it is a body of a segment that a
playlist of the site lists, which a master playlist of the site names. -/
def Linked (lib : CxxStd Double) (site : Site) (masterUrl : Text) (queued : QueuedSegment) : Prop :=
  ∃ master playlist segment, Publishes lib site masterUrl master ∧ Offers masterUrl master queued.variantUri ∧
    Publishes lib site queued.variantUri playlist ∧ segment ∈ playlist.segments ∧
    queued.Carries site queued.variantUri segment

structure PlaybackContext.Published (lib : CxxStd Double) (site : Site) (masterUrl : Text)
    (ctx : PlaybackContext Double) : Prop where
  url : ctx.masterUrl = masterUrl
  master : Publishes lib site masterUrl ctx.masterPlaylist
  variant : Offers masterUrl ctx.masterPlaylist ctx.currentVariantUri

/-- The worker is at `rest` of a playlist of the site. -/
structure PlaybackContext.Reads (lib : CxxStd Double) (site : Site) (masterUrl : Text) (ctx : PlaybackContext Double)
    (playlist : Playlist Double) (rest : List (MediaSegmentRef Double)) : Prop where
  published : ctx.Published lib site masterUrl
  loaded : Publishes lib site ctx.currentVariantUri playlist
  ahead : ∀ segment ∈ rest, segment ∈ playlist.segments

/-- What the worker holds at a point has come from the site. -/
def Point.Published (lib : CxxStd Double) (site : Site) (masterUrl : Text) : Point Double → Prop
  | .fetch (.master url) download => url = masterUrl ∧ download.url = masterUrl
  | .fetch (.variant ctx) download => ctx.Published lib site masterUrl ∧ download.url = ctx.currentVariantUri
  | .fetch (.segment ctx playlist segment rest) download =>
    ctx.Reads lib site masterUrl playlist (segment :: rest) ∧
      download.url = resolveUrl ctx.currentVariantUri segment.uri
  | .variantLoop ctx => ctx.Published lib site masterUrl
  | .segmentLoop ctx playlist rest | .evaluateAbrSwitch ctx playlist rest => ctx.Reads lib site masterUrl playlist rest
  | .pushSegment ctx playlist rest queued =>
    ctx.Reads lib site masterUrl playlist rest ∧ Linked lib site masterUrl queued
  | .clearQueue ctx _ nextUri => ctx.Published lib site masterUrl ∧ Offers masterUrl ctx.masterPlaylist nextUri
  | .finished | .terminated => True

end

theorem Answered.body {site : Site} {s : Session Double} {transfer : Transfer} {purpose : Purpose Double}
    {download : Download} (answered : Answered site s (.transferDone transfer))
    (point : s.point = .fetch purpose download) (code : transfer.code = .ok)
    (success : transfer.response.isSuccess = true) : transfer.body ∈ site download.url := by
  rw [Answered, point] at answered
  exact answered code success

/-- Only a transfer that libcurl has completed counts as a success. -/
theorem response_completed {transfer : Transfer} (success : transfer.response.isSuccess = true) :
    transfer.code = .ok := by
  by_contra failed
  simp [Transfer.response, failed, HttpResponse.isSuccess, httpStatusUnknown] at success

variable [Zero Double] {lib : CxxStd Double} {policy : RetryPolicy} {site : Site} {masterUrl : Text}

/-- A playlist that loads is one of the site. -/
theorem Answered.playlist {s : Session Double} {transfer : Transfer} {purpose : Purpose Double} {download : Download}
    {response : HttpResponse} {stopped : Bool} {playlist : Playlist Double}
    (answered : Answered site s (.transferDone transfer)) (point : s.point = .fetch purpose download)
    (attempt : download.finish policy stopped transfer = .done response)
    (loaded : playlistResult lib response = .bundle playlist) : Publishes lib site download.url playlist := by
  obtain rfl := finish_done attempt
  unfold playlistResult at loaded
  split at loaded
  · rename_i success
    split at loaded <;> cases loaded
    rename_i parsed
    exact ⟨_, answered.body point (response_completed success) success, parsed⟩
  · cases loaded

omit [Zero Double] in
theorem Answered.segment {s : Session Double} {transfer : Transfer} {purpose : Purpose Double} {download : Download}
    {response : HttpResponse} {stopped : Bool} {bundle : MediaSegmentBundle}
    (answered : Answered site s (.transferDone transfer)) (point : s.point = .fetch purpose download)
    (attempt : download.finish policy stopped transfer = .done response)
    (loaded : segmentResult response stopped = .bundle bundle) : bundle.rawBuffer ∈ site download.url := by
  obtain rfl := finish_done attempt
  unfold segmentResult at loaded
  split at loaded
  · rename_i success
    cases loaded
    exact answered.body point (response_completed success) success
  · split at loaded <;> cases loaded

theorem Point.Published.redirect {purpose : Purpose Double} {download next : Download}
    (published : (Point.fetch purpose download).Published lib site masterUrl) (same : next.url = download.url) :
    (Point.fetch purpose next).Published lib site masterUrl := by
  cases purpose <;> exact ⟨published.1, same.trans published.2⟩

theorem afterSegments_published {ctx : PlaybackContext Double} (playlist : Playlist Double)
    (published : ctx.Published lib site masterUrl) : (afterSegments ctx playlist).Published lib site masterUrl := by
  unfold afterSegments
  split
  · trivial
  · exact published

theorem Point.Published.step {s s' : Session Double} {e : Event} {new : List Seen}
    (old : s.point.Published lib site masterUrl) (answered : Answered site s e)
    (run : Player.step lib policy s e = some (s', new)) : s'.point.Published lib site masterUrl := by
  cases step_cases run with
  | popped | stopped => exact old
  | began point =>
    rw [point] at old
    exact old.redirect rfl
  | retried point performing attempt =>
    rw [point] at old
    exact old.redirect (finish_retry attempt).2.1
  | masterRejected | masterThrew | variantFailed | segmentFailed | cancelled | threw => trivial
  | masterAccepted point performing attempt accepted selected =>
    have loaded := answered.playlist point attempt (masterPlaylist_bundle accepted)
    rw [point] at old
    obtain ⟨rfl, same⟩ := old
    rw [same] at loaded
    exact ⟨rfl, loaded, _, (selectVariant_manager selected).2, rfl⟩
  | variantLoaded point performing attempt loaded =>
    have published := answered.playlist point attempt loaded
    rw [point] at old
    obtain ⟨ctx, same⟩ := old
    rw [same] at published
    exact ⟨ctx, published, fun _ member => member⟩
  | segmentLoaded point performing attempt loaded =>
    have body := answered.segment point attempt loaded
    rw [point] at old
    obtain ⟨reads, same⟩ := old
    obtain ⟨ctx, playlist, ahead⟩ := reads
    rw [same] at body
    have listed := ahead _ List.mem_cons_self
    refine ⟨⟨⟨ctx.url, ctx.master, ctx.variant⟩, playlist, fun _ later => ahead _ (List.mem_cons_of_mem _ later)⟩, ?_⟩
    exact ⟨_, _, _, ctx.master, ctx.variant, playlist, listed, rfl, rfl, body⟩
  | variantStarted point =>
    rw [point] at old
    exact ⟨old, rfl⟩
  | segmentsEnded point =>
    rw [point] at old
    exact afterSegments_published _ old.published
  | segmentSkipped point =>
    rw [point] at old
    exact ⟨old.published, old.loaded, fun _ later => old.ahead _ (List.mem_cons_of_mem _ later)⟩
  | segmentStarted point =>
    rw [point] at old
    exact ⟨old, rfl⟩
  | pushed point =>
    rw [point] at old
    exact old.1
  | kept point =>
    rw [point] at old
    exact old
  | switched point selected =>
    rw [point] at old
    refine ⟨old.published, _, (selectVariant_manager selected).2, ?_⟩
    rw [old.published.url]
  | cleared point =>
    rw [point] at old
    obtain ⟨published, next⟩ := old
    exact afterSegments_published _ ⟨published.url, published.master, next⟩

theorem Point.Published.sent {point : Point Double} (published : point.Published lib site masterUrl)
    (command : Command) : ∀ queued ∈ sent point command, Linked lib site masterUrl queued := by
  intro queued member
  cases command with
  | session e =>
    cases e with
    | worker =>
      cases point with
      | pushSegment =>
        obtain rfl := List.mem_singleton.mp member
        exact published.2
      | fetch | variantLoop | segmentLoop | evaluateAbrSwitch | clearQueue | finished | terminated => cases member
    | transferDone | pop | requestStop => cases member
  | start | stop | join | clear | spawn => cases member

end Iptv.Player
