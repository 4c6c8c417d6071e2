import Iptv.Main.Quiescence
import Iptv.Main.WorkerHistory
import Iptv.Player.StreamDelivery

namespace Iptv.Main
open Iptv.Manifest Iptv.Network Iptv.Player
variable {Double : Type} [Zero Double] {lib : CxxStd Double} {policy : RetryPolicy}
  {avutil : Decoder.AvUtil} {url : Text} {p p' : Program Double}
  {action : Action} {seen new : Trace} {move : ProgramMove} {site : Site}

theorem linked_kept (lib : CxxStd Double) (policy : RetryPolicy) (site : Site) (url : Text) :
    KeptByWorker lib policy url (Answered site) fun done _ point =>
      (∀ queued ∈ done, Linked lib site url queued) ∧ point.Published lib site url where
  spawned := ⟨by simp, rfl, rfl⟩
  stopped holds := holds
  popAllowed _ := trivial
  worked := by
    intro done s s' e told ⟨linked, published⟩ answered run
    refine ⟨fun queued member => ?_, published.step answered run⟩
    rcases List.mem_append.mp member with before | now
    · exact linked queued before
    · exact published.sent _ queued now

/-- Whatever the program plays can be reached from its master playlist: every bundle that
is pushed, or processed, is a body that the site has for a segment of a playlist that a
master playlist of the site names. -/
theorem played_linked
    (reach : Reach (Program.step avutil lib policy url) (OfSession (Answered site)) (Program.start Double) seen p) :
    (∀ queued ∈ pushed seen, Linked lib site url queued) ∧
      ∀ played ∈ processed seen, Linked lib site url played.1 := by
  have all : ∀ queued ∈ pushed seen, Linked lib site url queued := by
    cases workerHistory_reach (linked_kept lib policy site url) reach with
    | unborn nothing => simp [nothing]
    | born _ _ _ holds => exact holds.1
  refine ⟨all, fun played member => all _ ?_⟩
  exact (processed_sublist reach.unguarded).subset (List.mem_map_of_mem member)

/-- Two qualities of one stream. -/
def twoRateSite : Site := fun url =>
  if url = text "http://h/m.m3u8" then [twoRates]
  else if url = text "http://h/v0.m3u8" ∨ url = text "http://h/v1.m3u8" then [twoSegmentVod]
  else [text "ts"]

theorem played_linked_toTheEnd :
    ∃ seen p, Reach (Program.step .plain CxxStd.plain {} (text "http://h/m.m3u8"))
        (OfSession (Answered twoRateSite)) (Program.start Rat) seen p ∧ (processed seen).length = 2 ∧
      ∀ played ∈ processed seen, Linked CxxStd.plain twoRateSite (text "http://h/m.m3u8") played.1 := by
  obtain ⟨seen, p, reach, two⟩ := reach_of_exec
    (Program.step .plain CxxStd.plain {} (text "http://h/m.m3u8")) (OfSession (Answered twoRateSite))
    (Program.start Rat) playedToTheEnd (fun r => (processed r.1).length == 2) (by decide +kernel)
  exact ⟨seen, p, reach, by simpa using two, (played_linked reach).2⟩

omit [Zero Double] in
/-- Only a worker that switches, and a call that has joined the worker, clear the queue. -/
theorem Planned.clears (planned : Planned avutil url p action move) (taken : move.right = some .clear) :
    (∃ ctx playlist nextUri, p.left.session.point = .clearQueue ctx playlist nextUri) ∨
      (∃ next, p.left.control = .clearing next) ∧ move.left = some .clear := by
  cases planned with
  | cleared point => exact .inl ⟨_, _, _, point⟩
  | @statement next main call =>
    cases control : p.left.control <;> rw [control] at call <;> cases call <;> cases taken
    exact .inr ⟨⟨_, rfl⟩, rfl⟩
  | popMoved created point next =>
    cases here : p.right.point () <;> rw [here] at next <;> cases next <;> cases taken
  | _ => cases taken

theorem enters_fifo (e : ConcurrentQueue.Event Unit QueuedSegment) (queue : List QueuedSegment) (other : e ≠ .clear) :
    queue ++ e.enters = e.receives queue ++ e.queueAfter queue := by
  cases e with
  | clear => exact absurd rfl other
  | tryPop | take => cases queue <;> simp [ConcurrentQueue.Event.enters, ConcurrentQueue.Event.receives,
      ConcurrentQueue.Event.queueAfter]
  | push | callPop | acquire | check | park | wakeSpuriously | returnFromWait | testStop | requestStop =>
    simp [ConcurrentQueue.Event.enters, ConcurrentQueue.Event.receives, ConcurrentQueue.Event.queueAfter]

/-- Unless the queue is cleared, what it holds and is given is what it hands out and keeps. -/
theorem Moved.fifo (moved : Moved lib policy p p' move new) (other : move.right ≠ some .clear) :
    p.right.queue ++ pushed new = received new ++ p'.right.queue := by
  rw [moved.entered_eq, moved.received_eq]
  cases taken : move.right with
  | none => rw [moved.right_kept taken, Option.elim_none, Option.elim_none, List.append_nil, List.nil_append]
  | some e =>
    obtain ⟨_, ran⟩ := moved.event taken
    rw [ConcurrentQueue.step_queue ran]
    refine enters_fifo e p.right.queue ?_
    rintro rfl
    exact other taken

/-- The consumer gets the bundles as they are pushed, until the queue is cleared for good. -/
inductive Unbroken (seen : Trace) (p : Program Double) : Prop
  | flowing (whole : pushed seen = received seen ++ p.right.queue)
  | cut (first : received seen <+: pushed seen) (empty : p.right.queue = []) (joined : p.left.joinable = false)

omit [Zero Double] in
theorem Unbroken.inOrder (unbroken : Unbroken seen p) : received seen <+: pushed seen := by
  cases unbroken with
  | flowing whole => exact whole ▸ List.prefix_append _ _
  | cut first => exact first

/-- A clear comes from a call that has joined the worker. -/
theorem Unbroken.clear (old : Unbroken seen p) (moved : Moved lib policy p p' move new) (sound : p.Sound policy)
    (clears : move.right = some .clear) (called : (∃ next, p.left.control = .clearing next) ∧ move.left = some .clear) :
    Unbroken (seen ++ new) p' := by
  obtain ⟨⟨next, control⟩, command⟩ := called
  obtain ⟨_, cleared⟩ := moved.event clears
  obtain ⟨told, ran⟩ := moved.command command
  have joined : p.left.joinable = false := sound.parked.joined (by rw [control]; rfl)
  have first := old.inOrder
  refine .cut ?_ (ConcurrentQueue.step_queue cleared) ?_
  · rw [received_append, pushed_append, moved.received_eq, moved.entered_eq, clears]
    simpa [ConcurrentQueue.Event.receives, ConcurrentQueue.Event.enters] using first
  · have transition := owner_cases ran
    generalize p'.left = o' at transition ⊢
    cases transition
    exact joined

/-- What is pushed behind a clear comes from the first worker, which then has pushed nothing yet. -/
theorem Unbroken.behind_cut {Holds : List QueuedSegment → Bool → Point Double → Prop}
    (moved : Moved lib policy p p' move new)
    (history : WorkerHistory url Holds (pushed seen) p.control.main p.left) (joined : p.left.joinable = false)
    (silent : pushed new = []) (first : received (seen ++ new) <+: pushed (seen ++ new)) (empty : p'.right.queue = []) :
    Unbroken (seen ++ new) p' := by
  cases taken : move.left with
  | none => exact .cut first empty (moved.left_kept taken ▸ joined)
  | some command =>
    obtain ⟨told, ran⟩ := moved.command taken
    have transition := owner_cases ran
    cases command with
    | spawn =>
      cases history with
      | unborn nothing =>
        have none : pushed (seen ++ new) = [] := by rw [pushed_append, nothing, silent, List.append_nil]
        rw [none] at first
        exact .flowing (by rw [none, List.prefix_nil.mp first, empty, List.append_nil])
      | born _ once =>
        generalize p'.left = o' at transition
        cases transition with
        | spawned control =>
          rw [control] at once
          cases once
    | start | stop | join | clear | session =>
      refine .cut first empty ?_
      generalize p'.left = o' at transition ⊢
      cases transition
      first | exact joined | rfl | exact (beginStop_session p.left _).2.2.trans joined

theorem Unbroken.step {Holds : List QueuedSegment → Bool → Point Double → Prop} (old : Unbroken seen p)
    (history : WorkerHistory url Holds (pushed seen) p.control.main p.left) (sound : p.Sound policy)
    (steady : ∀ ctx playlist nextUri, p.left.session.point ≠ .clearQueue ctx playlist nextUri)
    (run : p.step avutil lib policy url action = some (p', new)) : Unbroken (seen ++ new) p' := by
  obtain ⟨move, alive, planned, moved⟩ := program_cases run
  by_cases clears : move.right = some .clear
  · rcases planned.clears clears with ⟨ctx, playlist, nextUri, point⟩ | called
    · exact absurd point (steady ctx playlist nextUri)
    · exact old.clear moved sound clears called
  · have fifo := moved.fifo clears
    cases old with
    | flowing whole =>
      refine .flowing ?_
      rw [pushed_append, received_append, whole, List.append_assoc, List.append_assoc, fifo]
    | cut first empty joined =>
      have silent : pushed new = [] := by
        rw [moved.pushed_eq planned, sound.parked.ended joined]
        cases move.left with
        | none => rfl
        | some command => exact sent_finished command
      rw [empty, silent, List.nil_append, eq_comm, List.append_eq_nil_iff] at fifo
      refine Unbroken.behind_cut moved history joined silent ?_ fifo.2
      rw [received_append, pushed_append, silent, fifo.1, List.append_nil, List.append_nil]
      exact first

section
variable {variantUri : Text} {playlist : Playlist Double} {reliable : Bool}

theorem stream_kept (policy : RetryPolicy) (reliable : Bool) (stream : OneStream lib site url variantUri playlist) :
    KeptByWorker lib policy url (SiteServes lib policy site reliable)
      (StreamAt site url variantUri playlist reliable) where
  spawned := ⟨rfl, rfl, rfl⟩
  stopped holds := holds.stopped
  popAllowed _ := ⟨trivial, fun _ => trivial⟩
  worked old served run := old.step stream served run

/-- What a run over the site keeps, from which its results are read off. -/
structure Program.Streams (policy : RetryPolicy) (site : Site) (url variantUri : Text) (playlist : Playlist Double)
    (reliable : Bool) (seen : Trace) (p : Program Double) : Prop where
  sound : p.Sound policy
  history : WorkerHistory url (StreamAt site url variantUri playlist reliable) (pushed seen) p.control.main p.left
  unbroken : Unbroken seen p

theorem Program.Streams.step (stream : OneStream lib site url variantUri playlist)
    (old : p.Streams policy site url variantUri playlist reliable seen)
    (guarded : OfSession (SiteServes lib policy site reliable) p action)
    (run : p.step avutil lib policy url action = some (p', new)) :
    p'.Streams policy site url variantUri playlist reliable (seen ++ new) := by
  obtain ⟨sound, history, unbroken⟩ := old
  have later : WorkerHistory url (StreamAt site url variantUri playlist reliable) (pushed (seen ++ new))
      p'.control.main p'.left := by
    rw [pushed_append]
    exact history.step (stream_kept policy reliable stream) guarded run
  refine ⟨sound.step run, later, unbroken.step history sound ?_ run⟩
  intro ctx found nextUri point
  cases history with
  | unborn _ ended => simp [ended] at point
  | born _ _ _ holds =>
    rw [point] at holds
    exact holds

omit [Zero Double] in
theorem streams_start (policy : RetryPolicy) (site : Site) (url variantUri : Text) (playlist : Playlist Double)
    (reliable : Bool) : (Program.start Double).Streams policy site url variantUri playlist reliable [] :=
  ⟨start_sound policy, .unborn rfl rfl rfl (.inl rfl), .flowing rfl⟩

theorem streams_reach (stream : OneStream lib site url variantUri playlist)
    (reach : Reach (Program.step avutil lib policy url) (OfSession (SiteServes lib policy site reliable))
      (Program.start Double) seen p) : p.Streams policy site url variantUri playlist reliable seen := by
  exact reach.traced (fun past s => s.Streams policy site url variantUri playlist reliable past)
    (streams_start policy site url variantUri playlist reliable) fun old guarded run => old.step stream guarded run

/-- An undisturbed worker on a reliable network has delivered the whole stream when it ends. -/
theorem Program.Streams.whole (streams : p.Streams policy site url variantUri playlist true seen) (idle : p.Idle)
    (reach : Reach (Program.step avutil lib policy url) anyStep (Program.start Double) seen p) :
    Delivers site variantUri playlist ((processed seen).map (·.1)) [] := by
  obtain ⟨sound, history, unbroken⟩ := streams
  cases history with
  | unborn _ _ _ awaited =>
    have stage := sound.stage
    rw [idle.main] at awaited stage
    simp [stage.1, restart] at awaited
  | born _ _ running holds =>
    obtain ⟨_, joinable, calm⟩ := running (by rw [idle.main]; rfl) (by simp [idle.main])
    rw [idle.ended] at holds
    cases unbroken with
    | flowing whole =>
      rw [(sound.solo.asleep idle.asleep).1, List.append_nil, (idle.accounts reach).2] at whole
      exact whole ▸ holds.2 rfl calm
    | cut _ _ joined => simp [joinable] at joined

/-- A stream on demand is played from its beginning without a gap: whatever the network
and the signal do, the bundles that are processed carry the first segments of the playlist,
each once and in their order, and when no download fails and the program has nothing left
to do but to wait for the signal, they carry all of them. -/
theorem stream_played (stream : OneStream lib site url variantUri playlist)
    (reach : Reach (Program.step avutil lib policy url) (OfSession (SiteServes lib policy site reliable))
      (Program.start Double) seen p) :
    (∃ rest, Delivers site variantUri playlist ((processed seen).map (·.1)) rest) ∧
      (reliable = true → p.Idle → Delivers site variantUri playlist ((processed seen).map (·.1)) []) := by
  have streams := streams_reach stream reach
  constructor
  · have first : (processed seen).map (·.1) <+: pushed seen := by
      refine List.IsPrefix.trans ?_ streams.unbroken.inOrder
      rw [(accounts reach.unguarded).2]
      exact List.prefix_append _ _
    cases streams.history with
    | unborn nothing =>
      rw [nothing] at first
      rw [List.prefix_nil.mp first]
      exact ⟨_, delivers_nothing site variantUri playlist⟩
    | born _ _ _ holds =>
      obtain ⟨rest, delivers⟩ := holds.delivers
      exact delivers.first first
  · rintro rfl idle
    exact streams.whole idle reach.unguarded

end

def oneRate : Text := text "#EXTM3U\n#EXT-X-STREAM-INF:BANDWIDTH=500000\nv.m3u8"

/-- One stream on demand with two segments. -/
def oneStreamSite : Site := fun url =>
  if url = text "http://h/m.m3u8" then [oneRate]
  else if url = text "http://h/v.m3u8" then [twoSegmentVod]
  else if url = text "http://h/a.ts" then [text "first"]
  else [text "last"]

theorem oneStreamSite_oneStream : ∃ playlist : Playlist Rat,
    OneStream CxxStd.plain oneStreamSite (text "http://h/m.m3u8") (text "http://h/v.m3u8") playlist := by
  have master : ((parse CxxStd.plain oneRate).toOption.map fun master =>
      master.variants.all (resolveUrl (text "http://h/m.m3u8") ·.uri == text "http://h/v.m3u8")) = some true := by
    decide +kernel
  have listed : ((parse CxxStd.plain twoSegmentVod).toOption.map fun playlist =>
      playlist.hasEndlist && playlist.segments.map (·.sequenceIndex) == consecutive 0 playlist.segments.length) =
        some true := by
    decide +kernel
  obtain ⟨playlist, found, test⟩ := Option.map_eq_some_iff.mp listed
  have loaded : parse CxxStd.plain twoSegmentVod = .ok playlist := by
    cases parsed : parse CxxStd.plain twoSegmentVod with
    | error => rw [parsed] at found; cases found
    | ok => rw [parsed] at found; cases found; rfl
  simp only [Bool.and_eq_true, beq_iff_eq] at test
  refine ⟨playlist, ?_, ?_, test.1, 0, test.2⟩
  · rintro found uri ⟨body, published, parsed⟩ ⟨variant, member, rfl⟩
    simp only [oneStreamSite, if_true, List.mem_singleton] at published
    rw [published] at parsed
    rw [parsed] at master
    simp only [Except.toOption, Option.map_some, Option.some.injEq, List.all_eq_true, beq_iff_eq] at master
    exact master variant member
  · rintro found ⟨body, published, parsed⟩
    have only : oneStreamSite (text "http://h/v.m3u8") = [twoSegmentVod] := by decide +kernel
    rw [only, List.mem_singleton] at published
    rw [published, loaded] at parsed
    exact (Except.ok.inj parsed).symm

def firstOfStream : List Player.Event :=
  serve oneRate 1 ++ .worker :: serve twoSegmentVod 1 ++ .worker :: serve (text "first") 32

def lastOfStream : List Player.Event := .worker :: .worker :: serve (text "last") 32 ++ [.worker]

def oneStreamToTheEnd : List Action :=
  startUp ++ [.consumer, .consumer, .consumer, .consumer] ++ firstOfStream.map (.worker · none) ++
    [.worker .worker (some ()), .consumer, .consumer, .consumer, .consumer, .consumer, .process emptyBundle] ++
    lastOfStream.map (.worker · none) ++
    [.consumer, .consumer, .consumer, .consumer, .consumer, .consumer, .process emptyBundle, .worker .worker none,
      .worker .worker none, .consumer, .consumer, .consumer, .consumer]

theorem stream_played_toTheEnd :
    ∃ (playlist : Playlist Rat) (seen : Trace) (p : Program Rat),
      Reach (Program.step .plain CxxStd.plain {} (text "http://h/m.m3u8"))
        (OfSession (SiteServes CxxStd.plain {} oneStreamSite true)) (Program.start Rat) seen p ∧ p.Idle ∧
      (processed seen).map (·.1.bundle.rawBuffer) = [text "first", text "last"] ∧
      Delivers oneStreamSite (text "http://h/v.m3u8") playlist ((processed seen).map (·.1)) [] := by
  obtain ⟨seen, p, reach, test⟩ := reach_of_exec
    (Program.step .plain CxxStd.plain {} (text "http://h/m.m3u8"))
    (OfSession (SiteServes CxxStd.plain {} oneStreamSite true)) (Program.start Rat) oneStreamToTheEnd
    (fun r => (processed r.1).map (·.1.bundle.rawBuffer) == [text "first", text "last"] &&
      r.2.control.main == .waiting && !r.2.control.stopFlag && r.2.left.session.point == .finished &&
      r.2.right.point () == .asleep) (by decide +kernel)
  simp only [Bool.and_eq_true, Bool.not_eq_true', beq_iff_eq] at test
  obtain ⟨⟨⟨⟨bodies, main⟩, unsignalled⟩, ended⟩, asleep⟩ := test
  have idle : p.Idle := ⟨main, unsignalled, ended, asleep⟩
  obtain ⟨playlist, stream⟩ := oneStreamSite_oneStream
  exact ⟨playlist, seen, p, reach, idle, bodies, (stream_played stream reach).2 rfl idle⟩

end Iptv.Main
