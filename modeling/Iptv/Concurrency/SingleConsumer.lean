import Iptv.Concurrency.QueueLossless
import Iptv.Concurrency.QueueWakeup

namespace Iptv.ConcurrentQueue
universe v
variable {T : Type v}

/-- The atomic piece of `pop` that a consumer at this point goes on with. -/
def popPiece : PopPoint → Option (Event Unit T)
  | .entering | .woken => some (.acquire ())
  | .checking => some (.check ())
  | .parking => some (.park ())
  | .leaving => some (.returnFromWait ())
  | .returned => some (.testStop ())
  | .taking => some (.take ())
  | .outside | .asleep => none

/-- With only one thread that pops nobody else sleeps when its stop is requested. -/
theorem handoverKept (s : State Unit T) (e : Event Unit T) : HandoverKept s e := by
  intro i stops returned
  refine .inr fun j asleep => ?_
  rw [Subsingleton.elim j i, returned] at asleep
  cases asleep

/-- What holds in every state of a queue that one thread pops from. -/
structure State.Solo (s : State Unit T) : Prop where
  sound : s.Sound
  guarded : s.Guarded
  held : s.holder ≠ none → (s.point ()).locked = true

theorem init_solo : (init Unit T).Solo := ⟨init_sound, init_guarded, fun held => absurd rfl held⟩

/-- Where a step brings the consumer. -/
def nextPoint (s : State Unit T) : Event Unit T → PopPoint
  | .push _ woken => if woken = none then s.point () else .woken
  | .tryPop | .clear => s.point ()
  | .callPop _ => .entering
  | .acquire _ => .checking
  | .check _ => if s.stopped () = true ∨ s.queue ≠ [] then .leaving else .parking
  | .park _ => if s.stopped () then .woken else .asleep
  | .wakeSpuriously _ => .woken
  | .returnFromWait _ => .returned
  | .testStop _ => if s.stopped () then .outside else .taking
  | .take _ => .outside
  | .requestStop _ => if s.point () = .asleep then .woken else s.point ()

def Event.requestsStop : Event Unit T → Bool
  | .requestStop _ => true
  | _ => false

/-- The points from which an event of the consumer can be taken. -/
def Event.takenAt : Event Unit T → PopPoint → Prop
  | .push _ woken, point => woken ≠ none → point = .asleep
  | .tryPop, _ | .clear, _ | .requestStop _, _ => True
  | .callPop _, point => point = .outside
  | .acquire _, point => point = .entering ∨ point = .woken
  | .check _, point => point = .checking
  | .park _, point => point = .parking
  | .wakeSpuriously _, point => point = .asleep
  | .returnFromWait _, point => point = .leaving
  | .testStop _, point => point = .returned
  | .take _, point => point = .taking

theorem State.stop_solo {s : State Unit T} (i : Unit) :
    (s.stop i).point () = (if s.point () = .asleep then .woken else s.point ()) ∧ (s.stop i).stopped () = true := by
  have point : ({ s with consumers := Function.update s.consumers i ⟨s.point i, true⟩ } : State Unit T).point () =
      s.point () := by
    simp [State.point]
  have stopped : ({ s with consumers := Function.update s.consumers i ⟨s.point i, true⟩ } : State Unit T).stopped () =
      true := by
    simp [State.stopped]
  unfold State.stop
  cases waiting : (s.point i).waiting with
  | true =>
    rw [if_pos rfl, State.point_notifyAll, State.stopped_notifyAll, point]
    exact ⟨rfl, stopped⟩
  | false =>
    rw [if_neg Bool.false_ne_true, point]
    refine ⟨?_, stopped⟩
    rw [if_neg]
    intro asleep
    rw [Subsingleton.elim i (), asleep] at waiting
    cases waiting

/-- A step moves the consumer as `nextPoint` says. -/
theorem solo_cases {s s' : State Unit T} {e : Event Unit T} {new : List (Seen Unit T)}
    (sleeper : s.point () = .asleep → s.stopped () = false) (run : step s e = some (s', new)) :
    e.takenAt (s.point ()) ∧ s'.point () = nextPoint s e ∧ s'.stopped () = (s.stopped () || e.requestsStop) := by
  have moved : ∀ (point : PopPoint) (queue : List T) (holder : Option Unit),
      ({ s.move () point with queue := queue, holder := holder } : State Unit T).point () = point ∧
        ({ s.move () point with queue := queue, holder := holder } : State Unit T).stopped () = s.stopped () := by
    intro point queue holder
    exact ⟨(s.point_move () () point).trans (if_pos rfl), s.stopped_move () () point⟩
  cases e with
  | push item woken =>
    cases step_cases run with
    | pushed free notified =>
      cases woken with
      | none =>
        simp only [State.notifyOne] at notified
        split at notified <;> cases notified
        exact ⟨fun some => absurd rfl some, rfl, (Bool.or_false _).symm⟩
      | some i =>
        simp only [State.notifyOne] at notified
        split at notified <;> rename_i asleep <;> cases notified
        exact ⟨fun _ => asleep, (moved .woken _ _).1, ((moved .woken _ _).2.trans (Bool.or_false _).symm)⟩
  | tryPop => cases step_cases run <;> exact ⟨trivial, rfl, (Bool.or_false _).symm⟩
  | clear => cases step_cases run; exact ⟨trivial, rfl, (Bool.or_false _).symm⟩
  | callPop i =>
    cases step_cases run with
    | called outside => exact ⟨outside, (moved _ _ _).1, (moved _ _ _).2.trans (Bool.or_false _).symm⟩
  | acquire i =>
    cases step_cases run with
    | acquired free waits => exact ⟨waits, (moved _ _ _).1, (moved _ _ _).2.trans (Bool.or_false _).symm⟩
  | check i =>
    simp only [step] at run
    split at run <;> rename_i checking
    · split at run <;> rename_i tests <;> cases run
      · exact ⟨checking, (moved _ _ _).1.trans (if_pos tests).symm, (moved _ _ _).2.trans (Bool.or_false _).symm⟩
      · exact ⟨checking, (moved _ _ _).1.trans (if_neg tests).symm, (moved _ _ _).2.trans (Bool.or_false _).symm⟩
    · cases run
  | park i =>
    cases step_cases run with
    | parked parking => exact ⟨parking, (moved _ _ _).1, (moved _ _ _).2.trans (Bool.or_false _).symm⟩
  | wakeSpuriously i =>
    cases step_cases run with
    | woke asleep => exact ⟨asleep, (moved _ _ _).1, (moved _ _ _).2.trans (Bool.or_false _).symm⟩
  | returnFromWait i =>
    cases step_cases run with
    | left leaving => exact ⟨leaving, (moved _ _ _).1, (moved _ _ _).2.trans (Bool.or_false _).symm⟩
  | testStop i =>
    cases step_cases run with
    | cancelled returned stopped =>
      exact ⟨returned, (moved _ _ _).1.trans (if_pos stopped).symm, (moved _ _ _).2.trans (Bool.or_false _).symm⟩
    | passed returned running =>
      refine ⟨returned, (moved _ _ _).1.trans ?_, (moved _ _ _).2.trans (Bool.or_false _).symm⟩
      exact (if_neg (by simpa using running)).symm
  | take i =>
    cases step_cases run with
    | taken taking => exact ⟨taking, (moved _ _ _).1, (moved _ _ _).2.trans (Bool.or_false _).symm⟩
  | requestStop i =>
    cases step_cases run with
    | repeated stopped =>
      refine ⟨trivial, ?_, (Bool.or_true _).symm ▸ stopped⟩
      exact (if_neg fun asleep => by simp [sleeper asleep] at stopped).symm
    | stopped =>
      obtain ⟨point, flag⟩ := s.stop_solo i
      exact ⟨trivial, point, flag.trans (Bool.or_true _).symm⟩

/-- Who holds the mutex behind a step, given that only the consumer ever keeps it. -/
theorem holder_step {s s' : State Unit T} {e : Event Unit T} {new : List (Seen Unit T)}
    (held : s.holder ≠ none → (s.point ()).locked = true) (run : step s e = some (s', new))
    (holds : s'.holder ≠ none) : (nextPoint s e).locked = true := by
  cases step_cases run with
  | pushed free notified =>
    rcases State.notifyOne_cases notified with rfl | ⟨i, rfl⟩ <;> exact absurd free holds
  | refused free | tried free | cleared free => exact absurd free holds
  | called outside =>
    have lock := held holds
    rw [outside] at lock
    cases lock
  | acquired => rfl
  | decided _ tests => rw [nextPoint, if_pos tests]; rfl
  | blocked _ empty => rw [nextPoint]; split <;> rfl
  | parked | cancelled | taken => exact absurd rfl holds
  | woke asleep =>
    have lock := held holds
    rw [asleep] at lock
    cases lock
  | left => rfl
  | passed _ running => rw [nextPoint, if_neg (by simpa using running)]; rfl
  | repeated =>
    have lock := held holds
    rw [nextPoint, if_neg (by rintro asleep; rw [asleep] at lock; cases lock)]
    exact lock
  | @stopped i =>
    have same : (s.stop i).holder = s.holder := by
      unfold State.stop
      split <;> rfl
    have lock := held (same ▸ holds)
    rw [nextPoint, if_neg (by rintro asleep; rw [asleep] at lock; cases lock)]
    exact lock

theorem State.Solo.sleeper {s : State Unit T} (solo : s.Solo) (asleep : s.point () = .asleep) :
    s.stopped () = false := solo.sound.sleepers () asleep

theorem State.Solo.step {s s' : State Unit T} {e : Event Unit T} {new : List (Seen Unit T)} (solo : s.Solo)
    (run : step s e = some (s', new)) : s'.Solo := by
  refine ⟨solo.sound.step (handoverKept s e) run, solo.guarded.step run, fun holds => ?_⟩
  rw [(solo_cases solo.sleeper run).2.1]
  exact holder_step solo.held run holds

/-- The thread sleeps only over an empty queue, and not once its stop is requested. -/
theorem State.Solo.asleep {s : State Unit T} (solo : s.Solo) (asleep : s.point () = .asleep) :
    s.queue = [] ∧ s.stopped () = false := by
  refine ⟨?_, solo.sleeper asleep⟩
  by_contra items
  obtain ⟨j, other, _⟩ := solo.sound.noStranded items () asleep (solo.sleeper asleep)
  exact other (Subsingleton.elim j ())

/-- A thread inside of `pop` that does not sleep can always go on. -/
theorem State.Solo.goes_on {s : State Unit T} (solo : s.Solo) {piece : Event Unit T}
    (next : popPiece (s.point ()) = some piece) : (ConcurrentQueue.step s piece).isSome = true := by
  have free : (s.point ()).locked = false → s.holder = none := by
    intro unlocked
    by_contra holds
    rw [solo.held holds] at unlocked
    cases unlocked
  cases point : s.point () with
  | outside | asleep =>
    rw [point] at next
    cases next
  | entering | woken =>
    rw [point] at next
    cases next
    simp [ConcurrentQueue.step, point, free (by rw [point]; rfl)]
  | checking =>
    rw [point] at next
    cases next
    simp only [ConcurrentQueue.step, point, if_true]
    split <;> rfl
  | parking | leaving =>
    rw [point] at next
    cases next
    simp [ConcurrentQueue.step, point]
  | returned =>
    rw [point] at next
    cases next
    simp only [ConcurrentQueue.step, point, if_true]
    split <;> rfl
  | taking =>
    rw [point] at next
    cases next
    obtain ⟨item, rest, queue⟩ := List.exists_cons_of_ne_nil (solo.guarded.taking () point)
    simp [ConcurrentQueue.step, point, queue]

/-- While the mutex is taken, it is the thread inside of `pop` that goes on. -/
theorem State.Solo.holder_goes_on {s : State Unit T} (solo : s.Solo) (holds : s.holder ≠ none) :
    ∃ piece, popPiece (s.point ()) = some piece ∧ (ConcurrentQueue.step s piece).isSome = true := by
  have lock := solo.held holds
  obtain ⟨piece, next⟩ : ∃ piece : Event Unit T, popPiece (s.point ()) = some piece := by
    cases point : s.point () with
    | checking | parking | leaving | returned | taking => exact ⟨_, rfl⟩
    | outside | entering | asleep | woken =>
      rw [point] at lock
      cases lock
  exact ⟨piece, next, solo.goes_on next⟩

/-- A producer that gets the mutex can push, whoever sleeps. -/
theorem push_goes_on {s : State Unit T} (free : s.holder = none) (item : T) :
    ∃ woken, (step s (.push item woken)).isSome = true := by
  by_cases asleep : s.point () = .asleep
  · refine ⟨some (), ?_⟩
    have sleeper : ({ s with queue := s.queue ++ [item] } : State Unit T).point () = .asleep := asleep
    simp only [step, if_pos free, State.notifyOne, if_pos sleeper, Option.map_some, Option.isSome_some]
  · refine ⟨none, ?_⟩
    have awake : ∀ i, ({ s with queue := s.queue ++ [item] } : State Unit T).point i ≠ .asleep := fun _ => asleep
    simp only [step, if_pos free, State.notifyOne, if_pos awake, Option.map_some, Option.isSome_some]

/-- How many steps a call of `pop` takes at most before it ends or sleeps. -/
def popRank : PopPoint → Bool → Nat
  | .outside, _ => 0
  | .taking, _ => 1
  | .returned, _ => 2
  | .leaving, _ => 3
  | .checking, _ => 4
  | .entering, _ | .woken, _ => 5
  | .parking, stopped => if stopped then 6 else 1
  | .asleep, stopped => if stopped then 6 else 0

def State.popRank (s : State Unit T) : Nat := ConcurrentQueue.popRank (s.point ()) (s.stopped ())

/-- A piece of `pop` brings its end nearer. -/
theorem State.Solo.piece_popRank {s s' : State Unit T} (solo : s.Solo) {piece : Event Unit T} {new : List (Seen Unit T)}
    (next : popPiece (s.point ()) = some piece) (run : ConcurrentQueue.step s piece = some (s', new)) :
    s'.popRank + 1 ≤ s.popRank := by
  obtain ⟨_, point, stopped⟩ := solo_cases solo.sleeper run
  unfold State.popRank
  rw [point, stopped]
  cases here : s.point () with
  | outside | asleep =>
    rw [here] at next
    cases next
  | entering | woken | leaving | taking =>
    rw [here] at next
    cases next
    simp [nextPoint, ConcurrentQueue.popRank]
  | checking =>
    rw [here] at next
    cases next
    cases flag : s.stopped () <;> by_cases empty : s.queue = [] <;>
      simp [nextPoint, ConcurrentQueue.popRank, Event.requestsStop, flag, empty]
  | parking | returned =>
    rw [here] at next
    cases next
    cases flag : s.stopped () <;> simp [nextPoint, ConcurrentQueue.popRank, Event.requestsStop, flag]

/-- What others do can prolong a call of `pop` by one turn of its wait. -/
theorem State.Solo.step_popRank {s s' : State Unit T} (solo : s.Solo) {e : Event Unit T} {new : List (Seen Unit T)}
    (run : ConcurrentQueue.step s e = some (s', new)) : s'.popRank ≤ s.popRank + 5 := by
  obtain ⟨taken, point, stopped⟩ := solo_cases solo.sleeper run
  unfold State.popRank
  rw [point, stopped]
  cases e with
  | push item woken =>
    cases woken with
    | none => simp [nextPoint, Event.requestsStop]
    | some i => simp [nextPoint, ConcurrentQueue.popRank]
  | tryPop | clear => simp [nextPoint, Event.requestsStop]
  | callPop | acquire | wakeSpuriously | returnFromWait | take => simp [nextPoint, ConcurrentQueue.popRank]
  | check =>
    have checking : s.point () = .checking := taken
    simp only [nextPoint]
    split
    · simp [ConcurrentQueue.popRank]
    · simp only [ConcurrentQueue.popRank, checking]
      split <;> omega
  | testStop =>
    simp only [nextPoint]
    split <;> simp [ConcurrentQueue.popRank]
  | park =>
    have parking : s.point () = .parking := taken
    cases flag : s.stopped () <;> simp [nextPoint, ConcurrentQueue.popRank, Event.requestsStop, flag, parking]
  | requestStop =>
    cases here : s.point () with
    | asleep => simp [nextPoint, ConcurrentQueue.popRank, here]
    | parking => cases flag : s.stopped () <;> simp [nextPoint, ConcurrentQueue.popRank, Event.requestsStop, here]
    | _ => simp [nextPoint, ConcurrentQueue.popRank, here]

theorem State.Solo.clear_popRank {s s' : State Unit T} (solo : s.Solo) {new : List (Seen Unit T)}
    (run : ConcurrentQueue.step s .clear = some (s', new)) : s'.popRank = s.popRank := by
  obtain ⟨_, point, stopped⟩ := solo_cases solo.sleeper run
  unfold State.popRank
  rw [point, stopped]
  simp [nextPoint, Event.requestsStop]

/-- What a step leaves in the queue. -/
def Event.queueAfter : Event Unit T → List T → List T
  | .push item _, queue => queue ++ [item]
  | .tryPop, queue | .take _, queue => queue.tail
  | .clear, _ => []
  | .callPop _, queue | .acquire _, queue | .check _, queue | .park _, queue | .wakeSpuriously _, queue
  | .returnFromWait _, queue | .testStop _, queue | .requestStop _, queue => queue

theorem step_queue {s s' : State Unit T} {e : Event Unit T} {new : List (Seen Unit T)}
    (run : step s e = some (s', new)) : s'.queue = e.queueAfter s.queue := by
  cases step_cases run with
  | pushed _ notified => rcases State.notifyOne_cases notified with rfl | ⟨i, rfl⟩ <;> rfl
  | refused _ empty =>
    rw [empty]
    rfl
  | tried _ queue | taken _ queue =>
    rw [queue]
    rfl
  | stopped => exact s.queue_stop _
  | cleared | called | acquired | decided | blocked | parked | woke | left | cancelled | passed | repeated => rfl

/-- What a step hands to its caller. -/
def Event.receives : Event Unit T → List T → List T
  | .tryPop, queue | .take _, queue => queue.head?.toList
  | .push _ _, _ | .clear, _ | .callPop _, _ | .acquire _, _ | .check _, _ | .park _, _ | .wakeSpuriously _, _
  | .returnFromWait _, _ | .testStop _, _ | .requestStop _, _ => []

theorem step_received {s s' : State Unit T} {e : Event Unit T} {new : List (Seen Unit T)}
    (run : step s e = some (s', new)) : new.flatMap Seen.received = e.receives s.queue := by
  cases step_cases run with
  | refused _ empty =>
    rw [empty]
    rfl
  | tried _ queue | taken _ queue =>
    rw [queue]
    rfl
  | pushed | cleared | called | acquired | decided | blocked | parked | woke | left | cancelled | passed | repeated
  | stopped => rfl

/-- What a step adds to the queue. -/
def Event.enters : Event Unit T → List T
  | .push item _ => [item]
  | .tryPop | .clear | .callPop _ | .acquire _ | .check _ | .park _ | .wakeSpuriously _ | .returnFromWait _ | .testStop _
  | .take _ | .requestStop _ => []

theorem step_entered {s s' : State Unit T} {e : Event Unit T} {new : List (Seen Unit T)}
    (run : step s e = some (s', new)) : new.flatMap Seen.entered = e.enters := by
  cases step_cases run <;> rfl

end Iptv.ConcurrentQueue
