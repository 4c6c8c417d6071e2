import Iptv.Lib.Census
import Iptv.Renderer.BufferThreads

namespace Iptv.Renderer.BufferThreads
open Iptv.Decoder
universe u

/-- How many calls that wait on the condition variable could go through in a row. -/
def supply (buffer : PtsFrameBuffer) : CondVar → Nat
  | .full => buffer.maxCapacity - buffer.queue.length
  | .empty => buffer.queue.length

/-- Woken, but the predicate has not been checked again. -/
def Thread.wokenOn (cv : CondVar) : Thread → Bool
  | .woken call => call.waitsOn == cv
  | _ => false

/-- The `notify_one` of the thread on the condition variable is still pending. -/
def Thread.owes (cv : CondVar) : Thread → Bool
  | .notifying call => call.notifies == cv
  | _ => false

variable {ι : Type u} [Fintype ι]

/-- The woken threads of a condition variable and its pending notifications. -/
def State.cover (s : State ι) (cv : CondVar) : Nat :=
  census (Thread.wokenOn cv) s.threads + census (Thread.owes cv) s.threads

/-- What every step keeps. -/
structure State.Sound (s : State ι) : Prop where
  awake : s.buffer.aborted = true → ∀ i cv, (s.threads i).sleepsOn cv = false
  covered : s.buffer.aborted = false → ∀ cv, (∃ i, (s.threads i).sleepsOn cv = true) →
    supply s.buffer cv ≤ s.cover cv

/-- What one thread contributes to the cover. -/
def Thread.share (cv : CondVar) (thread : Thread) : Nat := (thread.wokenOn cv).toNat + (thread.owes cv).toNat

theorem Thread.wokenOn_iff {cv : CondVar} {thread : Thread} :
    thread.wokenOn cv = true ↔ ∃ call, thread = .woken call ∧ call.waitsOn = cv := by
  cases thread <;> simp [Thread.wokenOn]

theorem Thread.owes_iff {cv : CondVar} {thread : Thread} :
    thread.owes cv = true ↔ ∃ call, thread = .notifying call ∧ call.notifies = cv := by
  cases thread <;> simp [Thread.owes]

/-- A thread in front of its critical section counts as one woken thread at most. -/
theorem Thread.share_inside {thread : Thread} {call : Call}
    (inside : thread = .entering call ∨ thread = .woken call) :
    thread.share call.waitsOn ≤ 1 ∧ ∀ cv, cv ≠ call.waitsOn → thread.share cv = 0 := by
  constructor
  · rcases inside with rfl | rfl <;> simp [Thread.share, Thread.wokenOn, Thread.owes]
  · intro cv other
    rcases inside with rfl | rfl <;> simp [Thread.share, Thread.wokenOn, Thread.owes, other.symm]

theorem Thread.sleepsOn_wake (cv : CondVar) (thread : Thread) : thread.wake.sleepsOn cv = false := by
  cases thread <;> rfl

/-- The two condition variables of a call are the only two. -/
theorem Call.other {call : Call} {cv : CondVar} (other : cv ≠ call.waitsOn) : cv = call.notifies := by
  cases call <;> cases cv <;> simp_all [Call.waitsOn, Call.notifies]

variable {heap : StdHeap QueueItem} {buffer buffer' : PtsFrameBuffer} {call : Call} {new : List Seen}

/-- A call blocks just when its condition variable has no supply. -/
theorem blocked_iff : Renderer.step heap buffer call.event = none ↔
    buffer.aborted = false ∧ supply buffer call.waitsOn = 0 := by
  cases call with
  | push frame =>
    simp only [Call.event, Renderer.step, Option.map_eq_none_iff, PtsFrameBuffer.push, Call.waitsOn, supply]
    cases buffer.aborted <;> simp [Nat.sub_eq_zero_iff_le]
  | pop =>
    simp only [Call.event, Renderer.step, Option.map_eq_none_iff, PtsFrameBuffer.pop, Call.waitsOn, supply]
    cases buffer.aborted <;> simp

/-- A call that goes through uses up one unit of its own supply and provides at
most one of the other. -/
theorem went_through (permutes : heap.Permutes) (running : buffer.aborted = false)
    (run : Renderer.step heap buffer call.event = some (buffer', new)) :
    buffer'.aborted = false ∧ supply buffer' call.waitsOn + 1 = supply buffer call.waitsOn ∧
      supply buffer' call.notifies ≤ supply buffer call.notifies + 1 := by
  cases call with
  | push frame =>
    cases section_cases run with
    | refused aborted => simp [running] at aborted
    | pushed _ room =>
      have length := (permutes.pushHeap ptsComparator (buffer.queue ++ [⟨frame, buffer.nextSeqNum⟩])).length_eq
      simp only [List.length_append, List.length_singleton] at length
      simp only [Call.waitsOn, Call.notifies, supply, length]
      exact ⟨running, by omega, le_rfl⟩
  | pop =>
    cases section_cases run with
    | closed aborted => simp [running] at aborted
    | popped _ items =>
      have length := (permutes.popHeap ptsComparator buffer.queue).length_eq
      have positive := List.length_pos_iff.mpr items
      simp only [Call.waitsOn, Call.notifies, supply, List.length_dropLast, length]
      exact ⟨running, by omega, by omega⟩

/-- An aborted buffer answers every call at once and stays as it is. -/
theorem answer_aborted (heap : StdHeap QueueItem) (call : Call) (aborted : buffer.aborted = true) :
    Renderer.step heap buffer call.event = some (buffer, [call.refusal]) := by
  cases call <;> simp [Call.event, Call.refusal, Renderer.step, PtsFrameBuffer.push, PtsFrameBuffer.pop, aborted]

variable {s s' : State ι}

theorem init_sound (maxCapacity : Nat) : (init ι maxCapacity).Sound where
  awake aborted := by simp [init, idle] at aborted
  covered _ cv := by
    rintro ⟨i, asleep⟩
    simp [init, idle, Thread.sleepsOn] at asleep

/-- Threads move and the buffer does not. -/
theorem State.Sound.rethread (sound : s.Sound) {threads : ι → Thread}
    (sleepers : ∀ j cv, (threads j).sleepsOn cv = true → (s.threads j).sleepsOn cv = true)
    (kept : ∀ cv, (∃ j, (threads j).sleepsOn cv = true) →
      s.cover cv ≤ ({ s with threads := threads } : State ι).cover cv) :
    ({ s with threads := threads } : State ι).Sound where
  awake aborted j cv := by
    by_contra asleep
    have old := sleepers j cv (by simpa using asleep)
    simp [sound.awake aborted j cv] at old
  covered running cv := by
    rintro ⟨j, asleep⟩
    exact (sound.covered running cv ⟨j, sleepers j cv asleep⟩).trans (kept cv ⟨j, asleep⟩)

theorem State.Sound.noSleeper (sound : s.Sound) (aborted : s.buffer.aborted = true) (i : ι) (call : Call) :
    s.threads i ≠ .asleep call := by
  intro asleep
  have sleeps := Thread.sleepsOn_iff.mpr ⟨call, asleep, rfl⟩
  simp [sound.awake aborted i] at sleeps

theorem State.Sound.attended (sound : s.Sound) {i : ι} (asleep : s.threads i = .asleep call)
    (enabled : Renderer.step heap s.buffer call.event ≠ none) :
    ∃ j, (s.threads j).wokenOn call.waitsOn = true ∨ (s.threads j).owes call.waitsOn = true := by
  cases aborted : s.buffer.aborted with
  | true => exact absurd asleep (sound.noSleeper aborted i call)
  | false =>
    have supplied : supply s.buffer call.waitsOn ≠ 0 := fun empty => enabled (blocked_iff.mpr ⟨aborted, empty⟩)
    have enough := sound.covered aborted call.waitsOn ⟨i, Thread.sleepsOn_iff.mpr ⟨call, asleep, rfl⟩⟩
    unfold State.cover at enough
    rcases Nat.eq_zero_or_pos (census (Thread.wokenOn call.waitsOn) s.threads) with none | woken
    · obtain ⟨j, owes⟩ := census_pos (show 0 < census (Thread.owes call.waitsOn) s.threads by omega)
      exact ⟨j, Or.inr owes⟩
    · obtain ⟨j, woken⟩ := census_pos woken
      exact ⟨j, Or.inl woken⟩

variable [DecidableEq ι]

theorem State.cover_move (s : State ι) (i : ι) (thread : Thread) (cv : CondVar) :
    (s.move i thread).cover cv + (s.threads i).share cv = s.cover cv + thread.share cv := by
  have woken := census_update (Thread.wokenOn cv) s.threads i thread
  have owing := census_update (Thread.owes cv) s.threads i thread
  simp only [State.cover, Thread.share, State.move]
  omega

/-- One thread moves. The cover holds where the supply is used up, and where it
grows by no more than the share of the thread. -/
theorem State.Sound.move (sound : s.Sound) {i : ι} {thread : Thread}
    (flag : buffer.aborted = s.buffer.aborted)
    (stays : s.buffer.aborted = true → ∀ cv, thread.sleepsOn cv = false)
    (balance : s.buffer.aborted = false → ∀ cv, supply buffer cv = 0 ∨ thread.sleepsOn cv = false ∧
      supply buffer cv + (s.threads i).share cv ≤ supply s.buffer cv + thread.share cv) :
    ({ s.move i thread with buffer := buffer } : State ι).Sound where
  awake aborted j cv := by
    change ((s.move i thread).threads j).sleepsOn cv = false
    have before : s.buffer.aborted = true := flag.symm.trans aborted
    by_contra asleep
    rcases State.sleeper_move (by simpa using asleep) with ⟨_, sleeps⟩ | ⟨_, old⟩
    · simp [stays before cv] at sleeps
    · simp [sound.awake before j cv] at old
  covered running cv := by
    rintro ⟨j, asleep⟩
    change supply buffer cv ≤ (s.move i thread).cover cv
    have before : s.buffer.aborted = false := flag.symm.trans running
    rcases balance before cv with none | ⟨moves, balance⟩
    · omega
    · rcases State.sleeper_move asleep with ⟨_, sleeps⟩ | ⟨_, old⟩
      · simp [moves] at sleeps
      · have enough := sound.covered before cv ⟨j, old⟩
        have count := s.cover_move i thread cv
        omega

theorem State.Sound.slept (sound : s.Sound) {i : ι}
    (inside : s.threads i = .entering call ∨ s.threads i = .woken call)
    (blocked : Renderer.step heap s.buffer call.event = none) : (s.move i (.asleep call)).Sound := by
  obtain ⟨running, empty⟩ := blocked_iff.mp blocked
  refine sound.move rfl (by simp [running]) fun _ cv => ?_
  by_cases same : cv = call.waitsOn
  · exact Or.inl (same ▸ empty)
  · refine Or.inr ⟨?_, ?_⟩
    · simpa [Thread.sleepsOn] using Ne.symm same
    · rw [(Thread.share_inside inside).2 cv same]
      omega

theorem State.Sound.answered (sound : s.Sound) (permutes : heap.Permutes) {i : ι}
    (inside : s.threads i = .entering call ∨ s.threads i = .woken call)
    (ran : Renderer.step heap s.buffer call.event = some (buffer, new)) :
    ({ s.move i (if s.buffer.aborted then .outside else .notifying call) with buffer } : State ι).Sound := by
  obtain ⟨own, others⟩ := Thread.share_inside inside
  cases aborted : s.buffer.aborted with
  | true =>
    rw [answer_aborted heap call aborted] at ran
    cases ran
    refine sound.move rfl (fun _ _ => rfl) fun running => ?_
    simp [aborted] at running
  | false =>
    obtain ⟨still, used, provided⟩ := went_through permutes aborted ran
    refine sound.move (still.trans aborted.symm) (fun _ _ => rfl) fun _ cv => Or.inr ⟨rfl, ?_⟩
    by_cases same : cv = call.waitsOn
    · subst same
      omega
    · have notified := Call.other same
      rw [others cv same, notified]
      simp only [Bool.false_eq_true, if_false, Thread.share, Thread.wokenOn, Thread.owes, beq_self_eq_true,
        Bool.toNat_true, Bool.toNat_false]
      omega

/-- A notification that nobody hears was not counted on. -/
theorem State.Sound.unheard (sound : s.Sound) {i : ι} (notifying : s.threads i = .notifying call)
    (nobody : ∀ j, ((s.move i .outside).threads j).sleepsOn call.notifies = false) :
    (s.move i .outside).Sound := by
  refine sound.rethread (fun j cv => State.sleeper_outside) ?_
  rintro cv ⟨j, asleep⟩
  have other : call.notifies ≠ cv := by
    rintro rfl
    have clash := asleep.symm.trans (nobody j)
    cases clash
  have count := s.cover_move i .outside cv
  rw [notifying] at count
  simp only [Thread.share, Thread.wokenOn, Thread.owes, beq_eq_false_iff_ne.mpr other, Bool.toNat_false] at count
  exact count.ge

/-- The sleeper that hears a notification takes its place in the cover. -/
theorem State.Sound.heard (sound : s.Sound) {i j : ι} {woken : Call} (notifying : s.threads i = .notifying call)
    (asleep : (s.move i .outside).threads j = .asleep woken) (waits : woken.waitsOn = call.notifies) :
    ((s.move i .outside).move j (.woken woken)).Sound := by
  refine sound.rethread ?_ ?_
  · intro k cv still
    rcases State.sleeper_move still with ⟨_, sleeps⟩ | ⟨_, old⟩
    · cases sleeps
    · exact State.sleeper_outside old
  · intro cv _
    have spent := s.cover_move i .outside cv
    have replaced := (s.move i .outside).cover_move j (.woken woken) cv
    rw [notifying] at spent
    rw [asleep] at replaced
    simp only [Thread.share, Thread.wokenOn, Thread.owes, waits, Bool.toNat_false] at replaced spent
    change s.cover cv ≤ ((s.move i .outside).move j (.woken woken)).cover cv
    omega

theorem State.Sound.step {e : Event ι} (sound : s.Sound) (permutes : heap.Permutes)
    (run : step heap s e = some (s', new)) : s'.Sound := by
  cases step_cases run with
  | called here | woke here =>
    refine sound.move rfl (fun _ _ => rfl) fun _ cv => Or.inr ⟨rfl, ?_⟩
    simp [here, Thread.share, Thread.wokenOn, Thread.owes]
  | slept inside blocked => exact sound.slept inside blocked
  | answered inside ran => exact sound.answered permutes inside ran
  | unheard notifying nobody => exact sound.unheard notifying nobody
  | heard notifying asleep waits => exact sound.heard notifying asleep waits
  | aborted =>
    constructor
    · intro _ j cv
      exact Thread.sleepsOn_wake cv _
    · intro running
      simp [PtsFrameBuffer.abort] at running

theorem sound_of_reach (permutes : heap.Permutes) {maxCapacity : Nat} {seen : List Seen}
    (reach : Reach (step heap) anyStep (init ι maxCapacity) seen s) : s.Sound :=
  reach.invariant State.Sound (init_sound maxCapacity) fun old _ run => old.step permutes run

/-- The steps by which calls in progress go on without anybody's help. -/
def ownStep (_ : State ι) : Event ι → Prop
  | .enter _ | .notifyOne .. => True
  | .call .. | .wakeSpuriously _ | .abort => False

/-- How far a thread still is from the end of its call. -/
def Thread.remaining : Thread → Nat
  | .outside => 0
  | .asleep _ | .notifying _ => 2
  | .woken _ => 3
  | .entering _ => 4

theorem Thread.remaining_inside {thread : Thread} {call : Call}
    (inside : thread = .entering call ∨ thread = .woken call) : 2 < thread.remaining := by
  rcases inside with rfl | rfl <;> simp [Thread.remaining]

def State.remaining (s : State ι) : Nat := tally Thread.remaining s.threads

theorem State.remaining_move (s : State ι) (i : ι) (thread : Thread) :
    (s.move i thread).remaining + (s.threads i).remaining = s.remaining + thread.remaining :=
  tally_update _ _ _ _

theorem remaining_ownStep {e : Event ι} (own : ownStep s e) (run : step heap s e = some (s', new)) :
    s'.remaining < s.remaining := by
  cases step_cases run with
  | called | woke | aborted => exact False.elim own
  | @slept i call inside =>
    have count := s.remaining_move i (.asleep call)
    have before := Thread.remaining_inside inside
    simp only [Thread.remaining] at count before
    omega
  | @answered i call buffer new inside =>
    have count := s.remaining_move i (if s.buffer.aborted then .outside else .notifying call)
    have before := Thread.remaining_inside inside
    have after : (if s.buffer.aborted then Thread.outside else .notifying call).remaining ≤ 2 := by
      split <;> simp [Thread.remaining]
    change (s.move i _).remaining < s.remaining
    omega
  | @unheard i call notifying =>
    have count := s.remaining_move i .outside
    rw [notifying] at count
    simp only [Thread.remaining] at count
    omega
  | @heard i j call woken notifying asleep =>
    have count := s.remaining_move i .outside
    have woke := (s.move i .outside).remaining_move j (.woken woken)
    rw [notifying] at count
    rw [asleep] at woke
    simp only [Thread.remaining] at count woke
    omega

/-- Without new calls, spurious wakeups and aborts the threads come to rest. -/
theorem ownSteps_end (heap : StdHeap QueueItem) :
    WellFounded fun after before : State ι =>
      ∃ e new, ownStep before e ∧ step heap before e = some (after, new) := by
  refine Subrelation.wf ?_ (InvImage.wf State.remaining Nat.lt_wfRel.wf)
  rintro after before ⟨e, new, own, run⟩
  exact remaining_ownStep own run

theorem State.Sound.rest (sound : s.Sound)
    (quiet : ∀ e, ownStep s e → BufferThreads.step heap s e = none) {i : ι}
    (asleep : s.threads i = .asleep call) : Renderer.step heap s.buffer call.event = none := by
  by_contra enabled
  obtain ⟨j, woken | owes⟩ := sound.attended asleep enabled
  · obtain ⟨other, here, _⟩ := Thread.wokenOn_iff.mp woken
    have entered := quiet (.enter j) trivial
    simp [BufferThreads.step, here] at entered
  · obtain ⟨other, here, same⟩ := Thread.owes_iff.mp owes
    have notified := quiet (.notifyOne j (some i)) trivial
    have apart : i ≠ j := by
      rintro rfl
      simp [asleep] at here
    simp [BufferThreads.step, here, State.notifyOne, State.move, apart, asleep, Thread.sleepsOn, same] at notified

/-- No wakeup is lost: before the abort the woken threads and the pending
notifications of a condition variable cover its supply as long as somebody
sleeps on it, and after it nobody sleeps. A sleeper that could go through has a
woken thread or a pending notification of its condition variable beside it. The calls in
progress come to rest by themselves, and once they have no sleeper could go through. -/
structure NoLostWakeup (heap : StdHeap QueueItem) (s : State ι) : Prop where
  covered : s.buffer.aborted = false → ∀ cv, (∃ i, (s.threads i).sleepsOn cv = true) →
    supply s.buffer cv ≤ census (Thread.wokenOn cv) s.threads + census (Thread.owes cv) s.threads
  awake : s.buffer.aborted = true → ∀ i call, s.threads i ≠ .asleep call
  attended : ∀ i call, s.threads i = .asleep call → Renderer.step heap s.buffer call.event ≠ none →
    ∃ j, (s.threads j).wokenOn call.waitsOn = true ∨ (s.threads j).owes call.waitsOn = true
  ends : Acc (fun after before => ∃ e new, ownStep before e ∧ step heap before e = some (after, new)) s
  rest : (∀ e, ownStep s e → step heap s e = none) → ∀ i call, s.threads i = .asleep call →
    Renderer.step heap s.buffer call.event = none

/-- The first pop sleeps, the pushed frame is stolen by a newcomer before the
notification arrives, and the woken thread sleeps again beside the next push. -/
def stolenFrame (sleeper pusher thief : ι) : List (Event ι) :=
  [.call sleeper .pop, .enter sleeper, .call pusher (.push { data := [1] }), .enter pusher, .call thief .pop,
    .enter thief, .notifyOne pusher (some sleeper), .enter sleeper, .call pusher (.push { data := [2] }),
    .enter pusher]

end Iptv.Renderer.BufferThreads
