import Iptv.Player.UrlReferences
import Iptv.Player.PlaybackOrchestrator

namespace Iptv.Player
open Iptv.Manifest Iptv.Network Iptv.Abr

/-- A URL of the origin of the base, with a path of its own. -/
def BaseUrl.Holds (base : BaseUrl) (url : Text) : Prop := base.origin ++ [slash] <+: url

theorem resolvePathRelative_rooted (rest uri : Text) :
    ∃ path, resolvePathRelative (slash :: rest) uri = slash :: path := by
  obtain ⟨before, after, split, absent⟩ := exists_last (List.mem_cons_self (a := slash) (l := rest))
  rw [split, resolvePathRelative_split absent]
  cases before with
  | nil => exact ⟨uri, rfl⟩
  | cons c before =>
    obtain ⟨rfl, _⟩ := List.cons.inj split
    exact ⟨before ++ slash :: uri, rfl⟩

instance (base : BaseUrl) (url : Text) : Decidable (base.Holds url) :=
  inferInstanceAs (Decidable (base.origin ++ [slash] <+: url))

/-- A relative reference leads to a URL of the same origin. -/
theorem BaseUrl.Holds.resolve {base : BaseUrl} {url uri : Text} (holds : base.Holds url)
    (relative : isAbsolute uri = false) : base.Holds (resolveUrl url uri) := by
  obtain ⟨rest, whole⟩ := holds
  have split : url = base.origin ++ slash :: rest := by simp [← whole]
  by_cases rooted : startsWith uri (text "/") = true
  · obtain ⟨path, rfl⟩ := startsWith_slash.mp rooted
    rw [split, resolveUrl_rooted rooted]
    exact ⟨path, by simp⟩
  · rw [split, resolveUrl_unrooted relative (by simpa using rooted),
      resolvePathRelative_append (List.mem_cons_self ..)]
    obtain ⟨path, same⟩ := resolvePathRelative_rooted rest uri
    rw [same]
    exact ⟨path, by simp⟩

/-- The URL names a path on one of the origins. -/
def WithinOrigins (origins : List BaseUrl) (url : Text) : Prop := ∃ base ∈ origins, base.Holds url

/-- Where the URI names an origin, it is one of these. -/
def Confined (origins : List BaseUrl) (uri : Text) : Prop := isAbsolute uri = true → WithinOrigins origins uri

instance (origins : List BaseUrl) (url : Text) : Decidable (WithinOrigins origins url) :=
  inferInstanceAs (Decidable (∃ base ∈ origins, base.Holds url))

instance (origins : List BaseUrl) (uri : Text) : Decidable (Confined origins uri) :=
  inferInstanceAs (Decidable (isAbsolute uri = true → WithinOrigins origins uri))

theorem WithinOrigins.resolve {origins : List BaseUrl} {url uri : Text} (within : WithinOrigins origins url)
    (confined : Confined origins uri) : WithinOrigins origins (resolveUrl url uri) := by
  by_cases absolute : isAbsolute uri = true
  · rw [resolveUrl_of_absolute absolute]
    exact confined absolute
  · obtain ⟨base, known, holds⟩ := within
    exact ⟨base, known, holds.resolve (by simpa using absolute)⟩

variable {Double : Type} {origins : List BaseUrl}

/-- Every URI that the playlist lists is confined. -/
structure ConfinedPlaylist (origins : List BaseUrl) (playlist : Playlist Double) : Prop where
  variants : ∀ variant ∈ playlist.variants, Confined origins variant.uri
  segments : ∀ segment ∈ playlist.segments, Confined origins segment.uri

instance (origins : List BaseUrl) (playlist : Playlist Double) : Decidable (ConfinedPlaylist origins playlist) :=
  decidable_of_iff ((∀ variant ∈ playlist.variants, Confined origins variant.uri) ∧
      ∀ segment ∈ playlist.segments, Confined origins segment.uri)
    ⟨fun both => ⟨both.1, both.2⟩, fun confined => ⟨confined.variants, confined.segments⟩⟩

structure PlaybackContext.Confined (origins : List BaseUrl) (ctx : PlaybackContext Double) : Prop where
  master : WithinOrigins origins ctx.masterUrl
  variant : WithinOrigins origins ctx.currentVariantUri
  variants : ∀ variant ∈ ctx.masterPlaylist.variants, Player.Confined origins variant.uri

/-- What the worker holds at a point: URLs of the origins, and confined URIs. -/
def Point.Confined (origins : List BaseUrl) : Point Double → Prop
  | .fetch (.master masterUrl) download => WithinOrigins origins masterUrl ∧ WithinOrigins origins download.url
  | .fetch (.variant ctx) download => ctx.Confined origins ∧ WithinOrigins origins download.url
  | .fetch (.segment ctx _ _ rest) download =>
    (ctx.Confined origins ∧ ∀ segment ∈ rest, Player.Confined origins segment.uri) ∧
      WithinOrigins origins download.url
  | .segmentLoop ctx _ rest | .pushSegment ctx _ rest _ | .evaluateAbrSwitch ctx _ rest =>
    ctx.Confined origins ∧ ∀ segment ∈ rest, Player.Confined origins segment.uri
  | .variantLoop ctx => ctx.Confined origins
  | .clearQueue ctx _ nextUri => ctx.Confined origins ∧ WithinOrigins origins nextUri
  | .finished | .terminated => True

theorem Point.Confined.download {purpose : Purpose Double} {download : Download}
    (confined : (Point.fetch purpose download).Confined origins) : WithinOrigins origins download.url := by
  cases purpose <;> exact confined.2

theorem Point.Confined.redirect {purpose : Purpose Double} {download next : Download}
    (confined : (Point.fetch purpose download).Confined origins) (same : next.url = download.url) :
    (Point.fetch purpose next).Confined origins := by
  cases purpose <;> exact ⟨confined.1, same ▸ confined.2⟩

theorem PlaybackContext.Confined.switch {ctx : PlaybackContext Double} (confined : ctx.Confined origins)
    {nextUri : Text} (next : WithinOrigins origins nextUri) :
    ({ ctx with currentVariantUri := nextUri } : PlaybackContext Double).Confined origins :=
  ⟨confined.master, next, confined.variants⟩

theorem afterSegments_confined {ctx : PlaybackContext Double} (playlist : Playlist Double)
    (confined : ctx.Confined origins) : (afterSegments ctx playlist).Confined origins := by
  unfold afterSegments
  split
  · trivial
  · exact confined

/-- The playlists that load are confined. -/
def loadsConfined (origins : List BaseUrl) : PlaylistDownloadResult Double → Prop
  | .bundle playlist => ConfinedPlaylist origins playlist
  | .networkError _ | .parseError _ => True

variable [Zero Double] {lib : CxxStd Double} {policy : RetryPolicy}

def endsConfined (lib : CxxStd Double) (origins : List BaseUrl) : Purpose Double × HttpResponse → Prop
  | (.master _, response) | (.variant _, response) => loadsConfined origins (playlistResult lib response)
  | (.segment .., _) => True

/-- Only URLs of the origins are started, and only confined playlists are served. -/
def ConfinedCommand (lib : CxxStd Double) (policy : RetryPolicy) (origins : List BaseUrl)
    (o : PlaybackOrchestrator Double) : Command → Prop
  | .start url => WithinOrigins origins url
  | .session (.transferDone transfer) =>
    ∀ ended ∈ o.session.response policy transfer, endsConfined lib origins ended
  | .session .worker | .session .pop | .session .requestStop | .stop | .join | .clear | .spawn => True

omit [Zero Double] in
instance (origins : List BaseUrl) (result : PlaylistDownloadResult Double) : Decidable (loadsConfined origins result) :=
  match result with
  | .bundle playlist => inferInstanceAs (Decidable (ConfinedPlaylist origins playlist))
  | .networkError _ | .parseError _ => inferInstanceAs (Decidable True)

instance (lib : CxxStd Double) (origins : List BaseUrl) (ended : Purpose Double × HttpResponse) :
    Decidable (endsConfined lib origins ended) :=
  match ended with
  | (.master _, response) | (.variant _, response) =>
    inferInstanceAs (Decidable (loadsConfined origins (playlistResult lib response)))
  | (.segment .., _) => inferInstanceAs (Decidable True)

instance (lib : CxxStd Double) (policy : RetryPolicy) (origins : List BaseUrl) (o : PlaybackOrchestrator Double)
    (command : Command) : Decidable (ConfinedCommand lib policy origins o command) :=
  match command with
  | .start url => inferInstanceAs (Decidable (WithinOrigins origins url))
  | .session (.transferDone transfer) => inferInstanceAs (Decidable
      (∀ ended ∈ o.session.response policy transfer, endsConfined lib origins ended))
  | .session .worker | .session .pop | .session .requestStop | .stop | .join | .clear | .spawn =>
    inferInstanceAs (Decidable True)

omit [Zero Double] in
theorem masterPlaylist_bundle {result : PlaylistDownloadResult Double} {playlist : Playlist Double}
    (accepted : masterPlaylist result = some playlist) : result = .bundle playlist := by
  cases result with
  | bundle found =>
    simp only [masterPlaylist] at accepted
    split at accepted <;> cases accepted
    rfl
  | networkError | parseError => cases accepted

/-- What a step requests, and what it leaves the worker with, is confined. -/
theorem Point.Confined.step {s s' : Session Double} {e : Event} {new : List Seen} (old : s.point.Confined origins)
    (served : ∀ transfer, e = .transferDone transfer →
      ∀ ended ∈ s.response policy transfer, endsConfined lib origins ended)
    (run : Player.step lib policy s e = some (s', new)) :
    s'.point.Confined origins ∧ ∀ url, .transferStarted url ∈ new → WithinOrigins origins url := by
  have silent : ∀ url, Seen.transferStarted url ∈ ([] : List Seen) → WithinOrigins origins url := by
    intro url member
    cases member
  cases step_cases run with
  | popped => exact ⟨old, by simp⟩
  | stopped => exact ⟨old, silent⟩
  | began point =>
    rw [point] at old
    refine ⟨old.redirect rfl, ?_⟩
    intro url member
    obtain rfl : url = _ := by simpa using member
    exact old.download
  | retried point performing attempt =>
    rw [point] at old
    exact ⟨old.redirect (finish_retry attempt).2.1, silent⟩
  | masterRejected | masterThrew | variantFailed | segmentFailed | cancelled | threw => exact ⟨trivial, silent⟩
  | @masterAccepted masterUrl download transfer response playlist initialVariant abrManager point performing attempt
      accepted selected =>
    have confined : loadsConfined origins (playlistResult lib response) :=
      served transfer rfl (.master masterUrl, response) (by simp [Session.response, point, Purpose.stopped, attempt])
    rw [masterPlaylist_bundle accepted] at confined
    rw [point] at old
    have chosen := confined.variants initialVariant (selectVariant_manager selected).2
    exact ⟨⟨old.1, old.1.resolve chosen, confined.variants⟩, silent⟩
  | @variantLoaded ctx download transfer response playlist point performing attempt loaded =>
    have confined : loadsConfined origins (playlistResult lib response) :=
      served transfer rfl (.variant ctx, response) (by simp [Session.response, point, Purpose.stopped, attempt])
    rw [loaded] at confined
    rw [point] at old
    exact ⟨⟨old.1, confined.segments⟩, silent⟩
  | segmentLoaded point =>
    rw [point] at old
    obtain ⟨⟨ctx, rest⟩, _⟩ := old
    exact ⟨⟨⟨ctx.master, ctx.variant, ctx.variants⟩, rest⟩, by simp⟩
  | variantStarted point =>
    rw [point] at old
    exact ⟨⟨old, old.variant⟩, silent⟩
  | segmentsEnded point =>
    rw [point] at old
    exact ⟨afterSegments_confined _ old.1, silent⟩
  | segmentSkipped point =>
    rw [point] at old
    exact ⟨⟨old.1, fun segment member => old.2 segment (List.mem_cons_of_mem _ member)⟩, silent⟩
  | segmentStarted point =>
    rw [point] at old
    obtain ⟨ctx, rest⟩ := old
    have own := ctx.variant.resolve (rest _ (List.mem_cons_self ..))
    exact ⟨⟨⟨ctx, fun segment member => rest segment (List.mem_cons_of_mem _ member)⟩, own⟩, silent⟩
  | pushed point | kept point =>
    rw [point] at old
    exact ⟨old, silent⟩
  | switched point selected other =>
    rw [point] at old
    have chosen := old.1.variants _ (selectVariant_manager selected).2
    exact ⟨⟨old.1, old.1.master.resolve chosen⟩, silent⟩
  | cleared point =>
    rw [point] at old
    exact ⟨afterSegments_confined _ (old.1.switch old.2), by simp⟩

/-- What every command keeps: the worker, and the URL that a call of `start` goes on with. -/
structure Enclosed (origins : List BaseUrl) (o : PlaybackOrchestrator Double) : Prop where
  point : o.session.point.Confined origins
  pending : ∀ url, o.control = .joining (some url) ∨ o.control = .clearing (some url) ∨ o.control = .spawning url →
    WithinOrigins origins url

omit [Zero Double] in
theorem Enclosed.beginStop {o : PlaybackOrchestrator Double} (old : Enclosed origins o) {next : Option Text}
    (within : ∀ url, next = some url → WithinOrigins origins url) : Enclosed origins (o.beginStop next) := by
  unfold PlaybackOrchestrator.beginStop
  split
  · refine ⟨old.point, ?_⟩
    rintro url (⟨⟨⟩⟩ | ⟨⟨⟩⟩ | ⟨⟨⟩⟩)
    exact within _ rfl
  · refine ⟨old.point, ?_⟩
    rintro url (⟨⟨⟩⟩ | ⟨⟨⟩⟩ | ⟨⟨⟩⟩)
    exact within _ rfl

theorem Enclosed.step {o o' : PlaybackOrchestrator Double} {command : Command} {new : List Seen}
    (old : Enclosed origins o) (confined : ConfinedCommand lib policy origins o command)
    (run : o.step lib policy command = some (o', new)) :
    Enclosed origins o' ∧ ∀ url, .transferStarted url ∈ new → WithinOrigins origins url := by
  cases owner_cases run with
  | started =>
    refine ⟨old.beginStop ?_, by simp⟩
    rintro url ⟨⟩
    exact confined
  | stopping => exact ⟨old.beginStop (by rintro url ⟨⟩), by simp⟩
  | joined control =>
    refine ⟨⟨old.point, ?_⟩, by simp⟩
    rintro url (⟨⟨⟩⟩ | ⟨⟨⟩⟩ | ⟨⟨⟩⟩)
    exact old.pending url (.inl control)
  | @emptied next control =>
    refine ⟨⟨old.point, ?_⟩, by simp⟩
    cases next with
    | none => rintro url (⟨⟨⟩⟩ | ⟨⟨⟩⟩ | ⟨⟨⟩⟩)
    | some next =>
      rintro url (⟨⟨⟩⟩ | ⟨⟨⟩⟩ | ⟨⟨⟩⟩)
      exact old.pending _ (.inr (.inl control))
  | @spawned url control =>
    have within := old.pending url (.inr (.inr control))
    refine ⟨⟨⟨within, within⟩, ?_⟩, by simp⟩
    rintro url (⟨⟨⟩⟩ | ⟨⟨⟩⟩ | ⟨⟨⟩⟩)
  | @worked event session new inner =>
    obtain ⟨point, started⟩ := old.point.step (fun transfer same => by subst same; exact confined) inner
    exact ⟨⟨point, old.pending⟩, started⟩

/-- A master playlist that names another origin for its one variant, which lists its
segment from the root. -/
def otherOrigin : List Event :=
  serve (text "#EXTM3U\n#EXT-X-STREAM-INF:BANDWIDTH=1\nhttps://cdn/v/0.m3u8") 1 ++ .worker ::
    serve (text "#EXTM3U\n#EXTINF:1,\n/a.ts") 1 ++ [.worker, .worker]

def cdn : BaseUrl :=
  { hostOnly with
    scheme := text "https"
    authority := text "cdn"
    http := by decide
    authority_plain := by decide +kernel }

end Iptv.Player
