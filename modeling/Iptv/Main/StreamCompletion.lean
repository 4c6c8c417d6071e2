import Iptv.Main.SitePlayback
import Iptv.Main.VodPlayback

namespace Iptv.Main
open Iptv.Manifest Iptv.Network Iptv.Player
variable {Double : Type} [Zero Double] {lib : CxxStd Double} {policy : RetryPolicy}
  {avutil : Decoder.AvUtil} {url variantUri : Text} {p p' : Program Double}
  {action : Action} {seen new : Trace} {site : Site} {playlist : Playlist Double} {reliable : Bool}

/-- What a site with one stream on demand serves is video on demand. -/
theorem streamAt_served (stream : OneStream lib site url variantUri playlist) {done : List QueuedSegment}
    {s : Session Double} {e : Player.Event}
    (holds : StreamAt site url variantUri playlist reliable done s.stopRequested s.point)
    (served : SiteServes lib policy site reliable s e) : VodServed lib policy playlist.segments.length s e := by
  cases e with
  | transferDone transfer =>
    rintro ⟨purpose, response⟩ ended
    obtain ⟨download, point, attempt⟩ := response_cases ended
    cases purpose with
    | variant ctx =>
      show vodOnly _ (playlistResult lib response)
      cases loaded : playlistResult lib response with
      | bundle found =>
        have published := served.1.playlist point attempt loaded
        rw [point] at holds
        rw [holds.2.2] at published
        obtain rfl := stream.only found published
        exact ⟨stream.complete, le_rfl⟩
      | networkError | parseError => trivial
    | master | segment => trivial
  | worker | pop | requestStop => trivial

theorem Program.Streams.served (stream : OneStream lib site url variantUri playlist)
    (streams : p.Streams policy site url variantUri playlist reliable seen)
    (guarded : OfSession (SiteServes lib policy site reliable) p action) :
    VodProgram lib policy playlist.segments.length p action := by
  cases action with
  | worker event woken =>
    cases streams.history with
    | unborn _ ended =>
      cases event with
      | transferDone transfer =>
        rintro ⟨purpose, response⟩ answer
        obtain ⟨download, point, _⟩ := response_cases answer
        rw [ended] at point
        cases point
      | worker | pop | requestStop => trivial
    | born _ _ _ holds => exact streamAt_served stream holds guarded
  | interrupt | main | construct | consumer | process | wakeSpuriously => trivial

/-- The player does what it is for: over a reliable network, whatever the order of its
threads, a stream on demand with `n` segments is over after a number of steps that is linear
in `n`, and where nothing but the signal can go on, the process is over, or each segment has
been processed once and in its place. -/
theorem stream_completes {schedule : List Action} {r : Trace × Program Double}
    (stream : OneStream lib site url variantUri playlist)
    (run : exec (Program.step avutil lib policy url) (OfSession (SiteServes lib policy site true))
      (Program.start Double) schedule = some r) :
    schedule.length ≤
        32 + 4 * policy.maxRetries.toNat + playlist.segments.length * (2 * policy.maxRetries.toNat + 17) +
          (schedule.map Action.credit).sum ∧
      (Quiescent avutil lib policy url r.2 →
        r.2.over = true ∨ Delivers site variantUri playlist ((processed r.1).map (·.1)) []) := by
  have reach := exec_reach run
  constructor
  · have paid := exec_length_le
      (fun s => s.Streaming policy ∧ ∃ past, s.Streams policy site url variantUri playlist true past)
      (Program.life policy playlist.segments.length) Action.credit
      ⟨streaming_start policy, [], streams_start policy site url variantUri playlist true⟩ ?_ run
    · have whole := @start_life Double policy playlist.segments.length
      have bound := paid.2
      omega
    · rintro s s' e new ⟨streaming, past, streams⟩ guarded step
      obtain ⟨kept, pays⟩ := streaming.pays (streams.served stream guarded) step
      exact ⟨⟨kept, _, streams.step stream guarded step⟩, pays⟩
  · intro still
    have sound := sound_reach reach.unguarded
    refine (sound.over_or_idle (signalled_reach reach.unguarded) still).imp_right fun idle => ?_
    exact (streams_reach stream reach).whole idle reach.unguarded

theorem stream_completes_toTheEnd :
    ∃ (playlist : Playlist Rat) (r : Trace × Program Rat),
      exec (Program.step .plain CxxStd.plain {} (text "http://h/m.m3u8"))
        (OfSession (SiteServes CxxStd.plain {} oneStreamSite true)) (Program.start Rat) oneStreamToTheEnd = some r ∧
      Quiescent .plain CxxStd.plain {} (text "http://h/m.m3u8") r.2 ∧ r.2.over = false ∧
      Delivers oneStreamSite (text "http://h/v.m3u8") playlist ((processed r.1).map (·.1)) [] := by
  have run : ((exec (Program.step .plain CxxStd.plain {} (text "http://h/m.m3u8"))
      (OfSession (SiteServes CxxStd.plain {} oneStreamSite true)) (Program.start Rat) oneStreamToTheEnd).map fun r =>
        r.2.control.main == .waiting && !r.2.control.stopFlag && r.2.left.session.point == .finished &&
          r.2.right.point () == .asleep) = some true := by
    decide +kernel
  obtain ⟨r, played, test⟩ := Option.map_eq_some_iff.mp run
  simp only [Bool.and_eq_true, Bool.not_eq_true', beq_iff_eq] at test
  obtain ⟨⟨⟨main, unsignalled⟩, ended⟩, asleep⟩ := test
  have idle : r.2.Idle := ⟨main, unsignalled, ended, asleep⟩
  have still : Quiescent .plain CxxStd.plain {} (text "http://h/m.m3u8") r.2 :=
    idle.quiescent (sound_reach (exec_reach played).unguarded)
  have alive : r.2.over = false := by simp [Program.over, main, ended]
  obtain ⟨playlist, stream⟩ := oneStreamSite_oneStream
  refine ⟨playlist, r, played, still, alive, ((stream_completes stream played).2 still).resolve_left ?_⟩
  simp [alive]

end Iptv.Main
