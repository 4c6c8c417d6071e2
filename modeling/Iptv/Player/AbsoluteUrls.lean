import Iptv.Player.ServedRuns

namespace Iptv.Player
open Iptv.Manifest Iptv.Network Iptv.Abr

/-- A scheme in front of the colon, of which it has none of its own. -/
structure Scheme (scheme base : Text) : Prop where
  starts : scheme ++ text "://" <+: base
  plain : byte ':' ∉ scheme

theorem isAbsolute_iff {base : Text} :
    isAbsolute base = true ↔ ∃ scheme ∈ [text "http", text "https"], Scheme scheme base := by
  have http : text "http://" = text "http" ++ text "://" := by decide
  have https : text "https://" = text "https" ++ text "://" := by decide
  simp only [isAbsolute, Bool.or_eq_true, startsWith_iff, http, https, List.mem_cons, List.not_mem_nil,
    or_false]
  constructor
  · rintro (starts | starts)
    · exact ⟨_, .inl rfl, starts, by decide⟩
    · exact ⟨_, .inr rfl, starts, by decide⟩
  · rintro ⟨scheme, rfl | rfl, starts, _⟩
    · exact .inl starts
    · exact .inr starts

theorem findText_scheme {scheme base : Text} (front : Scheme scheme base) :
    findText base (text "://") = some scheme.length := by
  obtain ⟨rest, whole⟩ := front.starts
  rw [findText, List.find?_range_eq_some]
  refine ⟨?_, ?_, ?_⟩
  · rw [← whole, List.append_assoc, List.drop_left, startsWith_iff]
    exact List.prefix_append _ _
  · rw [List.mem_range, ← whole]
    simp only [List.length_append]
    omega
  · intro i before
    have here : (base.drop i).head? = some scheme[i] := by
      rw [List.head?_drop, ← whole, List.append_assoc, List.getElem?_append_left before,
        List.getElem?_eq_getElem before]
    simp only [Bool.not_eq_eq_eq_not, Bool.not_true]
    by_contra starts
    rw [Bool.not_eq_false, startsWith_iff] at starts
    obtain ⟨tail, split⟩ := starts
    rw [← split] at here
    have colon : byte ':' = scheme[i] := Option.some.inj here
    exact front.plain (colon ▸ List.getElem_mem before)

theorem findLastOf_past (before after : Text) (c : UInt8) :
    ∃ k, findLastOf (before ++ c :: after) c = some k ∧ before.length ≤ k := by
  by_cases later : c ∈ after
  · obtain ⟨front, back, rfl, absent⟩ := exists_last later
    have whole : before ++ c :: (front ++ c :: back) = (before ++ c :: front) ++ c :: back := by simp
    rw [whole]
    exact ⟨_, findLastOf_split absent, by simp only [List.length_append]; omega⟩
  · exact ⟨_, findLastOf_split later, le_rfl⟩

theorem Scheme.take {scheme base : Text} (front : Scheme scheme base) {n : Nat} (long : scheme.length + 3 ≤ n)
    (uri : Text) : Scheme scheme (base.take n ++ uri) where
  starts := by
    refine (List.prefix_take_iff.mpr ⟨front.starts, ?_⟩).trans (List.prefix_append _ _)
    have width : (text "://").length = 3 := by decide
    rw [List.length_append, width]
    exact long
  plain := front.plain

/-- A URI resolved against an absolute base keeps at least the scheme of the base. -/
theorem Scheme.resolve {scheme base : Text} (front : Scheme scheme base) {uri : Text}
    (relative : isAbsolute uri = false) : Scheme scheme (resolveUrl base uri) := by
  obtain ⟨rest, whole⟩ := front.starts
  have cut : base = (scheme ++ text ":/") ++ slash :: rest := by
    have parts : text "://" = text ":/" ++ [slash] := by decide
    rw [← whole, parts]
    simp
  obtain ⟨k, last, far⟩ := findLastOf_past (scheme ++ text ":/") rest slash
  rw [← cut] at last
  have width : (text ":/").length = 2 := by decide
  rw [List.length_append, width] at far
  simp only [resolveUrl, relative, last, Bool.false_eq_true, if_false, reduceCtorEq]
  split
  · simp only [resolveRootRelative, findText_scheme front]
    cases hit : find base slash (scheme.length + 3) with
    | none => exact ⟨front.starts.trans (List.prefix_append _ _), front.plain⟩
    | some hostEnd =>
      obtain ⟨_, _, _, _, place⟩ := find_some hit
      exact front.take (by omega) uri
  · simp only [resolvePathRelative, last]
    exact front.take (by omega) uri

theorem resolveUrl_absolute {base : Text} (absolute : isAbsolute base = true) (uri : Text) :
    isAbsolute (resolveUrl base uri) = true := by
  by_cases own : isAbsolute uri = true
  · rw [resolveUrl, if_pos own]
    exact own
  · obtain ⟨scheme, known, front⟩ := isAbsolute_iff.mp absolute
    exact isAbsolute_iff.mpr ⟨scheme, known, front.resolve (by simpa using own)⟩

theorem resolveUrl_of_absolute {url : Text} (absolute : isAbsolute url = true) (base : Text) :
    resolveUrl base url = url := by
  rw [resolveUrl, if_pos absolute]

variable {Double : Type} {lib : CxxStd Double} {policy : RetryPolicy}

def PlaybackContext.Absolute (ctx : PlaybackContext Double) : Prop :=
  isAbsolute ctx.masterUrl = true ∧ isAbsolute ctx.currentVariantUri = true

/-- The URLs that the worker holds at a point. -/
def Point.Absolute : Point Double → Prop
  | .fetch (.master masterUrl) download => isAbsolute masterUrl = true ∧ isAbsolute download.url = true
  | .fetch (.variant ctx) download | .fetch (.segment ctx _ _ _) download =>
    ctx.Absolute ∧ isAbsolute download.url = true
  | .variantLoop ctx | .segmentLoop ctx _ _ | .pushSegment ctx _ _ _ | .evaluateAbrSwitch ctx _ _ => ctx.Absolute
  | .clearQueue ctx _ nextUri => ctx.Absolute ∧ isAbsolute nextUri = true
  | .finished | .terminated => True

/-- A URL that was passed to `downloadPlaylist` or `downloadSegment`. -/
def Requested (seen : List Seen) (s : Session Double) (url : Text) : Prop :=
  .transferStarted url ∈ seen ∨ ∃ purpose download, s.point = .fetch purpose download ∧ download.url = url

theorem Point.Absolute.download {purpose : Purpose Double} {download : Download}
    (absolute : (Point.fetch purpose download).Absolute) : isAbsolute download.url = true := by
  cases purpose with
  | master => exact absolute.2
  | variant => exact absolute.2
  | segment => exact absolute.2

theorem Point.Absolute.redirect {purpose : Purpose Double} {download next : Download}
    (absolute : (Point.fetch purpose download).Absolute) (same : next.url = download.url) :
    (Point.fetch purpose next).Absolute := by
  cases purpose with
  | master => exact ⟨absolute.1, same ▸ absolute.2⟩
  | variant => exact ⟨absolute.1, same ▸ absolute.2⟩
  | segment => exact ⟨absolute.1, same ▸ absolute.2⟩

theorem afterSegments_absolute {ctx : PlaybackContext Double} (playlist : Playlist Double)
    (absolute : ctx.Absolute) : (afterSegments ctx playlist).Absolute := by
  unfold afterSegments
  split
  · trivial
  · exact absolute

variable [Zero Double]

theorem Point.Absolute.step {s s' : Session Double} {e : Event} {new : List Seen} (old : s.point.Absolute)
    (run : Player.step lib policy s e = some (s', new)) :
    s'.point.Absolute ∧ ∀ url, .transferStarted url ∈ new → isAbsolute url = true := by
  have silent : ∀ url, Seen.transferStarted url ∈ ([] : List Seen) → isAbsolute url = true := by
    intro url member
    cases member
  cases step_cases run with
  | popped => exact ⟨old, by simp⟩
  | stopped => exact ⟨old, silent⟩
  | began point =>
    rw [point] at old
    refine ⟨old.redirect rfl, ?_⟩
    intro url member
    obtain rfl : url = _ := by simpa using member
    exact old.download
  | retried point performing attempt =>
    rw [point] at old
    exact ⟨old.redirect (finish_retry attempt).2.1, silent⟩
  | masterRejected | masterThrew | variantFailed | segmentFailed | cancelled | threw => exact ⟨trivial, silent⟩
  | masterAccepted point =>
    rw [point] at old
    exact ⟨⟨old.1, resolveUrl_absolute old.1 _⟩, silent⟩
  | variantLoaded point =>
    rw [point] at old
    exact ⟨old.1, silent⟩
  | segmentLoaded point =>
    rw [point] at old
    exact ⟨old.1, by simp⟩
  | variantStarted point =>
    rw [point] at old
    exact ⟨⟨old, old.2⟩, silent⟩
  | segmentsEnded point =>
    rw [point] at old
    exact ⟨afterSegments_absolute _ old, silent⟩
  | segmentStarted point =>
    rw [point] at old
    exact ⟨⟨old, resolveUrl_absolute old.2 _⟩, silent⟩
  | segmentSkipped point | pushed point | kept point =>
    rw [point] at old
    exact ⟨old, silent⟩
  | switched point =>
    rw [point] at old
    exact ⟨⟨old, resolveUrl_absolute old.1 _⟩, silent⟩
  | cleared point =>
    rw [point] at old
    exact ⟨afterSegments_absolute _ ⟨old.1.1, old.2⟩, by simp⟩

/-- A session with an absolute master URL requests absolute URLs only. -/
theorem requested_absolute {guard : Session Double → Event → Prop} {masterUrl : Text} {abrManager : AbrManager}
    {seen : List Seen} {s : Session Double} (absolute : isAbsolute masterUrl = true)
    (reach : Reach (Player.step lib policy) guard (Session.start policy masterUrl abrManager) seen s)
    {url : Text} (requested : Requested seen s url) :
    isAbsolute url = true ∧ ∀ base, resolveUrl base url = url := by
  have invariant : s.point.Absolute ∧ ∀ o ∈ seen, ∀ url, o = .transferStarted url → isAbsolute url = true := by
    refine reach.observed (·.point.Absolute) _ ⟨absolute, absolute⟩ ?_
    intro state state' e new here _ run
    obtain ⟨there, started⟩ := here.step run
    exact ⟨there, fun o fresh url same => started url (same ▸ fresh)⟩
  have own : isAbsolute url = true := by
    rcases requested with member | ⟨purpose, download, point, rfl⟩
    · exact invariant.2 _ member url rfl
    · have here := invariant.1
      rw [point] at here
      exact here.download
  exact ⟨own, resolveUrl_of_absolute own⟩

/-- The segment that a variant playlist lists as `a.ts`. -/
theorem requested_absolute_segment :
    ∃ seen s, Reach (Player.step CxxStd.plain {}) anyStep
        (Session.start {} (text "http://h/live/m.m3u8") {}) seen s ∧
      Requested seen s (text "http://h/live/a.ts") ∧ isAbsolute (text "http://h/live/a.ts") = true ∧
      ∀ base, resolveUrl base (text "http://h/live/a.ts") = text "http://h/live/a.ts" := by
  obtain ⟨seen, s, reach, started⟩ := reach_of_exec (Player.step CxxStd.plain {}) anyStep
    (Session.start {} (text "http://h/live/m.m3u8") {})
    (loadFirstVariant twoSegments ++ [.worker, .worker])
    (fun r => r.1.contains (.transferStarted (text "http://h/live/a.ts"))) (by decide +kernel)
  have requested : Requested seen s (text "http://h/live/a.ts") := .inl (by simpa using started)
  obtain ⟨own, kept⟩ := requested_absolute (by decide) reach requested
  exact ⟨seen, s, reach, requested, own, kept⟩

end Iptv.Player
