import Mathlib.Algebra.BigOperators.Ring.Finset
import Mathlib.Data.List.Chain
import Iptv.Decoder.CorruptInput
import Iptv.Main.ConsumerLoop

namespace Iptv.Main
open Iptv.Decoder (ConstructionReply)
variable {avutil : Decoder.AvUtil}

/-- The frames that the decoders have returned in these iterations. -/
def returnedFrames (trace : List Iteration) : Nat := (trace.map Iteration.frames).sum

/-- At the end of every iteration the total counts the frames returned so far, and
a report has set the interval back. -/
def Exact (trace : List Iteration) : Prop :=
  ∀ past it, past ++ [it] <+: trace →
    it.totalDecodedFrames = some (returnedFrames (past ++ [it]) : Int) ∧
      (it.report ≠ none → it.framesLastInterval = some 0)

/-- Every iteration that returned frames is the last one or ended with a report. -/
def ReportedBeforeNext (trace : List Iteration) : Prop :=
  trace.IsChain fun it _ => it.frames = 0 ∨ kMetricsReportIntervalMs ≤ it.elapsedMs

/-- The frames that the interval still holds: those of the last iteration, unless it was reported. -/
def pendingFrames (trace : List Iteration) : Nat :=
  match trace.getLast? with
  | none => 0
  | some it => if kMetricsReportIntervalMs ≤ it.elapsedMs then 0 else it.frames

theorem returnedFrames_concat (trace : List Iteration) (it : Iteration) :
    returnedFrames (trace ++ [it]) = returnedFrames trace + it.frames := by
  simp [returnedFrames]

theorem pendingFrames_le (trace : List Iteration) : pendingFrames trace ≤ returnedFrames trace := by
  rcases trace.eq_nil_or_concat with rfl | ⟨past, it, rfl⟩
  · exact le_rfl
  · rw [List.concat_eq_append, returnedFrames_concat, pendingFrames, List.getLast?_concat]
    dsimp only
    split <;> omega

theorem Exact.concat_iff {trace : List Iteration} {it : Iteration} :
    Exact (trace ++ [it]) ↔ Exact trace ∧
      it.totalDecodedFrames = some (returnedFrames (trace ++ [it]) : Int) ∧
        (it.report ≠ none → it.framesLastInterval = some 0) := by
  constructor
  · intro exact
    exact ⟨fun past before inside => exact past before (inside.trans (List.prefix_append _ _)),
      exact trace it (List.prefix_refl _)⟩
  · rintro ⟨exact, last⟩ past before inside
    rcases List.prefix_concat_iff.mp inside with same | earlier
    · obtain ⟨rfl, one⟩ := List.append_inj' same rfl
      obtain rfl := List.singleton_inj.mp one
      exact last
    · exact exact past before earlier

theorem ReportedBeforeNext.concat_iff {trace : List Iteration} {it : Iteration} :
    ReportedBeforeNext (trace ++ [it]) ↔ ReportedBeforeNext trace ∧ pendingFrames trace = 0 := by
  rw [ReportedBeforeNext, List.isChain_append]
  refine and_congr_right fun _ => ?_
  rw [pendingFrames]
  cases last : trace.getLast? with
  | none => simp
  | some before =>
    by_cases due : kMetricsReportIntervalMs ≤ before.elapsedMs
    · simp [due]
    · simp [due]

/-- The sizes of an iteration's vectors, added to a counter. -/
theorem checkedSum_frames {it : Iteration} {pending : Nat} (fits : (pending : Int) ≤ intMax)
    (few : (it.frames : Int) ≤ intMax) :
    checkedSum intMin intMax (some (pending : Int)) (it.returned.map fun frames => toInt frames.length) =
      if (pending + it.frames : Int) ≤ intMax then some (pending + it.frames : Int) else none := by
  have sizes : (it.returned.map fun frames => toInt frames.length) =
      (it.returned.map (·.length)).map Nat.cast := by
    rw [List.map_map]
    refine List.map_congr_left fun frames member => toInt_small ?_
    have part : frames.length ≤ it.frames := List.single_le_sum (by simp) _ (List.mem_map_of_mem member)
    omega
  have sum : ((it.returned.map (·.length)).map Nat.cast).sum = (it.frames : Int) := by
    rw [Iteration.frames, Nat.cast_list_sum]
  rw [sizes, checkedSum_natural (by decide) ⟨Int.natCast_nonneg _, fits⟩, sum]
  intro n member
  obtain ⟨size, _, rfl⟩ := List.mem_map.mp member
  exact Int.natCast_nonneg _

theorem addTotal_eq_some {interval : Option Int} {total sum : Int} :
    interval.bind (addInt (some total) ·) = some sum ↔
      ∃ added, interval = some added ∧ sum = total + added ∧ intMin ≤ sum ∧ sum ≤ intMax := by
  simp only [Option.bind_eq_some_iff, addInt, Option.bind_some, checkedAdd_eq_some]

/-- From an exact total and the pending frames, an iteration makes an exact total
again precisely when nothing was pending and the total fits. -/
theorem processBundle_total {c c' : Consumer} {reply : BundleReply} {it : Iteration} {total pending : Nat}
    (run : c.processBundle avutil reply = some (c', it)) (counted : c.totalDecodedFrames = some (total : Int))
    (held : c.framesLastInterval = some (pending : Int)) (below : pending ≤ total)
    (fits : (total : Int) ≤ intMax) :
    (it.totalDecodedFrames = some ((total + it.frames : Nat) : Int) ↔
        pending = 0 ∧ ((total + it.frames : Nat) : Int) ≤ intMax) ∧
      (it.totalDecodedFrames = some ((total + it.frames : Nat) : Int) →
        it.framesLastInterval =
          some ((if kMetricsReportIntervalMs ≤ it.elapsedMs then 0 else it.frames : Nat) : Int)) := by
  obtain ⟨interval, accumulated, totaled, left, _⟩ := processBundle_counts run
  rw [held] at accumulated
  rw [counted] at totaled
  have least : intMin ≤ 0 := by decide
  have nothingPending (exact : it.totalDecodedFrames = some ((total + it.frames : Nat) : Int)) :
      pending = 0 ∧ ((total + it.frames : Nat) : Int) ≤ intMax ∧ interval = some (it.frames : Int) := by
    rw [totaled] at exact
    obtain ⟨added, present, sum, _, bound⟩ := addTotal_eq_some.mp exact
    rw [checkedSum_frames (by omega) (by omega), present] at accumulated
    split at accumulated
    · rw [Option.some.injEq] at accumulated
      refine ⟨by omega, bound, present.trans (congrArg some ?_)⟩
      omega
    · cases accumulated
  refine ⟨⟨fun exact => ⟨(nothingPending exact).1, (nothingPending exact).2.1⟩, ?_⟩, ?_⟩
  · rintro ⟨rfl, bound⟩
    rw [checkedSum_frames (by omega) (by omega), if_pos (by omega)] at accumulated
    rw [totaled]
    exact addTotal_eq_some.mpr ⟨_, accumulated, by omega, by omega, bound⟩
  · intro exact
    rw [left, (nothingPending exact).2.2]
    split <;> rfl

/-- The total is exact so far when nothing was counted twice and the frames fit, and
then the counters hold what has been returned and what is still pending. -/
structure Totals (trace : List Iteration) (c : Consumer) : Prop where
  exact_iff : Exact trace ↔ ReportedBeforeNext trace ∧ (returnedFrames trace : Int) ≤ intMax
  total : Exact trace → c.totalDecodedFrames = some (returnedFrames trace : Int)
  interval : Exact trace → c.framesLastInterval = some (pendingFrames trace : Int)

theorem Totals.processed {trace : List Iteration} {c c' : Consumer} {reply : BundleReply} {it : Iteration}
    (totals : Totals trace c) (run : c.processBundle avutil reply = some (c', it)) :
    Totals (trace ++ [it]) c' := by
  obtain ⟨_, _, _, left, reported, total, interval⟩ := processBundle_counts run
  have restart : it.report ≠ none → it.framesLastInterval = some 0 := fun printed => by
    rw [left, if_pos (reported.mp printed)]
  by_cases before : Exact trace
  · obtain ⟨chained, fits⟩ := totals.exact_iff.mp before
    obtain ⟨exactly, held⟩ := processBundle_total run (totals.total before) (totals.interval before)
      (pendingFrames_le trace) fits
    rw [← returnedFrames_concat] at exactly held
    refine ⟨?_, fun exact => ?_, fun exact => ?_⟩
    · rw [Exact.concat_iff, ReportedBeforeNext.concat_iff, exactly]
      exact ⟨fun exact => ⟨⟨chained, exact.2.1.1⟩, exact.2.1.2⟩,
        fun counted => ⟨before, ⟨counted.1.2, counted.2⟩, restart⟩⟩
    · rw [total, (Exact.concat_iff.mp exact).2.1]
    · rw [interval, held (Exact.concat_iff.mp exact).2.1, pendingFrames, List.getLast?_concat]
  · have never : ¬Exact (trace ++ [it]) := fun exact => before (Exact.concat_iff.mp exact).1
    refine ⟨⟨fun exact => absurd exact never, ?_⟩, fun exact => absurd exact never,
      fun exact => absurd exact never⟩
    rintro ⟨chained, fits⟩
    rw [returnedFrames_concat] at fits
    exact absurd (totals.exact_iff.mpr ⟨(ReportedBeforeNext.concat_iff.mp chained).1, by omega⟩) before

theorem Totals.step {trace new : List Iteration} {c c' : Consumer} {event : ConsumerEvent} (totals : Totals trace c)
    (run : consumerStep avutil c event = some (c', new)) : Totals (trace ++ new) c' := by
  unfold consumerStep at run
  split at run
  · cases run
  · cases event with
    | stopRequested =>
      cases run
      rw [List.append_nil]
      exact ⟨totals.exact_iff, totals.total, totals.interval⟩
    | noBundle =>
      cases run
      rw [List.append_nil]
      exact totals
    | bundle reply =>
      obtain ⟨⟨_, it⟩, processed, same⟩ := Option.map_eq_some_iff.mp run
      cases same
      exact totals.processed processed

theorem start_counters {video audio : ConstructionReply} {now : Int} {c : Consumer}
    (constructed : Consumer.start video audio now = .ok c) :
    c.totalDecodedFrames = some 0 ∧ c.framesLastInterval = some 0 := by
  unfold Consumer.start at constructed
  cases videoRun : Decoder.construct "" video with
  | error exception => simp [videoRun, Except.bind] at constructed
  | ok videoDecoder =>
    cases audioRun : Decoder.Audio.construct "aac" audio with
    | error exception => simp [videoRun, audioRun, Except.bind, Except.map] at constructed
    | ok audioDecoder =>
      simp only [videoRun, audioRun, Except.bind, Except.map, Except.ok.injEq] at constructed
      rw [← constructed]
      exact ⟨rfl, rfl⟩

/-- In every run of the consumer thread the total is exact at the end of every
iteration if and only if each iteration with frames, but for the last one, ended
with a report and the frames fit in the counter. -/
theorem exact_iff_reported {video audio : ConstructionReply} {now : Int} {start c : Consumer}
    {trace : List Iteration}
    (constructed : Consumer.start video audio now = .ok start)
    (run : Reach (consumerStep avutil) anyStep start trace c) :
    Exact trace ↔ (trace.IsChain fun it _ => it.frames = 0 ∨ kMetricsReportIntervalMs ≤ it.elapsedMs) ∧
      (returnedFrames trace : Int) ≤ intMax := by
  obtain ⟨total, interval⟩ := start_counters constructed
  have fresh : Totals [] start := by
    refine ⟨⟨fun _ => ⟨.nil, by decide⟩, fun _ past it inside => ?_⟩, fun _ => total, fun _ => interval⟩
    simp at inside
  exact (run.traced Totals fresh fun totals _ step => totals.step step).exact_iff

def soundContainer : Demux.Container where
  streams := [⟨.audio, ⟨1, 90000⟩⟩]
  packets := [⟨0, [0], 0, 0⟩]

/-- A bundle with one audio packet that is decoded to one frame, processed by the given time. -/
def soundBundle (now : Int) : ConsumerEvent :=
  .bundle {
    opening := .opened soundContainer
    videoReply := fun _ => ⟨true, none, Decoder.everythingOpens, true, fun _ => ⟨none, []⟩⟩
    audioReply := fun _ _ => ⟨none, [.frame 0 Decoder.twoSamples]⟩
    now
    queueSize := 0 }

def newConsumer : Consumer where
  videoDecoder := { codecContext := none, codecName := "" }
  audioDecoder := { results := [] }
  lastMetricsTime := 0

theorem newConsumer_accepted :
    Consumer.start ⟨Decoder.everythingOpens, true, true⟩ ⟨Decoder.everythingOpens, true, true⟩ 0 =
      .ok newConsumer := rfl

/-- Two bundles of one frame each, half a second apart: the first frame is counted
again with the second one. -/
theorem not_exact_unreported :
    Consumer.start ⟨Decoder.everythingOpens, true, true⟩ ⟨Decoder.everythingOpens, true, true⟩ 0 =
        .ok newConsumer ∧
      ∃ trace c, Reach (consumerStep .plain) anyStep newConsumer trace c ∧
        trace.map Iteration.frames = [1, 1] ∧ trace.map Iteration.totalDecodedFrames = [some 1, some 3] ∧
        ¬Exact trace := by
  obtain ⟨trace, c, run, test⟩ := reach_of_exec (consumerStep .plain) anyStep newConsumer
    [soundBundle 0, soundBundle 500000000]
    (fun r => r.1.map Iteration.frames == [1, 1] && r.1.map Iteration.totalDecodedFrames == [some 1, some 3])
    (by decide +kernel)
  simp only [Bool.and_eq_true, beq_iff_eq] at test
  obtain ⟨frames, totals⟩ := test
  refine ⟨newConsumer_accepted, trace, c, run, frames, totals, fun exact => ?_⟩
  obtain ⟨first, rest, rfl, _, later⟩ := List.map_eq_cons_iff.mp totals
  obtain ⟨second, rfl, counted⟩ := List.map_eq_singleton_iff.mp later
  have whole : returnedFrames [first, second] = 2 := congrArg List.sum frames
  have total := (exact [first] second (List.prefix_refl _)).1
  rw [counted, List.singleton_append, whole] at total
  cases total

/-- With more than a second between the bundles the first one is reported, and its frame counts once. -/
theorem exact_reported : ∃ trace c,
    Reach (consumerStep .plain) anyStep newConsumer trace c ∧
      trace.map Iteration.frames = [1, 1] ∧ Exact trace := by
  obtain ⟨trace, c, run, test⟩ := reach_of_exec (consumerStep .plain) anyStep newConsumer
    [soundBundle 1500000000, soundBundle 2000000000]
    (fun r => r.1.map Iteration.frames == [1, 1] && r.1.map Iteration.elapsedMs == [1500, 500])
    (by decide +kernel)
  simp only [Bool.and_eq_true, beq_iff_eq] at test
  obtain ⟨frames, elapsed⟩ := test
  refine ⟨trace, c, run, frames, (exact_iff_reported newConsumer_accepted run).mpr ⟨?_, ?_⟩⟩
  · obtain ⟨first, rest, rfl, due, later⟩ := List.map_eq_cons_iff.mp elapsed
    obtain ⟨second, rfl, _⟩ := List.map_eq_singleton_iff.mp later
    exact .cons_cons (.inr (by rw [due]; decide)) (.singleton _)
  · rw [returnedFrames, frames]
    decide

end Iptv.Main
