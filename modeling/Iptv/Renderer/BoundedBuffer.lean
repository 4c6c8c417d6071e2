import Mathlib.Data.List.Perm.Basic
import Iptv.Renderer.PresentationOrder
import Iptv.Renderer.BufferWakeup

namespace Iptv.Renderer
open Iptv.Decoder

def Seen.accepted : Seen → Option DecodedFrame
  | .pushed frame => some frame
  | _ => none

def Seen.delivered : Seen → Option QueueItem
  | .popped item => some item
  | _ => none

/-- `push` answered false, or `pop` answered `nullopt`. -/
def Seen.IsRefusal : Seen → Prop
  | .refused _ | .nothing => True
  | .pushed _ | .popped _ => False

/-- The pushes that answered true, numbered in the order of their critical sections. -/
def acceptedPushes (seen : List Seen) : List Entry := (seen.filterMap Seen.accepted).mapIdx Entry.mk

def poppedItems (seen : List Seen) : List QueueItem := seen.filterMap Seen.delivered

/-- Every accepted push is either taken by one of the pops or stored, and the
counter has counted them all. -/
structure Conserved (seen : List Seen) (buffer : PtsFrameBuffer) (taken stored : List Entry) : Prop where
  pushes : (acceptedPushes seen).Perm (taken ++ stored)
  popped : poppedItems seen = taken.map Entry.item
  items : buffer.queue.Perm (stored.map Entry.item)
  counter : buffer.nextSeqNum = UInt64.ofNat (acceptedPushes seen).length

theorem acceptedPushes_append (seen : List Seen) (frame : DecodedFrame) :
    acceptedPushes (seen ++ [.pushed frame]) =
      acceptedPushes seen ++ [⟨(acceptedPushes seen).length, frame⟩] := by
  simp [acceptedPushes, Seen.accepted, List.mapIdx_append]

theorem acceptedPushes_kept {answer : Seen} (seen : List Seen) (none : answer.accepted = none) :
    acceptedPushes (seen ++ [answer]) = acceptedPushes seen := by
  simp [acceptedPushes, none]

theorem poppedItems_kept {answer : Seen} (seen : List Seen) (none : answer.delivered = none) :
    poppedItems (seen ++ [answer]) = poppedItems seen := by
  simp [poppedItems, none]

theorem acceptedPushes_numbers (seen : List Seen) :
    (acceptedPushes seen).map Entry.number = List.range (acceptedPushes seen).length := by
  refine List.ext_getElem (by simp) fun i _ _ => ?_
  simp [acceptedPushes]

variable {heap : StdHeap QueueItem} {seen : List Seen} {buffer buffer' : PtsFrameBuffer} {taken stored : List Entry}

theorem Conserved.initial (maxCapacity : Nat) : Conserved [] { maxCapacity } [] [] where
  pushes := List.Perm.refl _
  popped := rfl
  items := List.Perm.refl _
  counter := rfl

theorem Conserved.answer {answer : Seen} (conserved : Conserved seen buffer taken stored)
    (notAccepted : answer.accepted = none) (notDelivered : answer.delivered = none) :
    Conserved (seen ++ [answer]) buffer taken stored := by
  constructor
  · rw [acceptedPushes_kept seen notAccepted]
    exact conserved.pushes
  · rw [poppedItems_kept seen notDelivered]
    exact conserved.popped
  · exact conserved.items
  · rw [acceptedPushes_kept seen notAccepted]
    exact conserved.counter

theorem Conserved.pushed (conserved : Conserved seen buffer taken stored) (permutes : heap.Permutes)
    (frame : DecodedFrame) :
    Conserved (seen ++ [.pushed frame])
      { buffer with
        queue := heap.pushHeap ptsComparator (buffer.queue ++ [⟨frame, buffer.nextSeqNum⟩])
        nextSeqNum := buffer.nextSeqNum + 1 }
      taken (stored ++ [⟨(acceptedPushes seen).length, frame⟩]) := by
  constructor
  · rw [acceptedPushes_append, ← List.append_assoc]
    exact conserved.pushes.append_right _
  · rw [poppedItems_kept seen rfl]
    exact conserved.popped
  · rw [List.map_append]
    refine (permutes.pushHeap _ _).trans ?_
    rw [conserved.counter]
    exact conserved.items.append_right _
  · rw [acceptedPushes_append]
    simp [conserved.counter]

/-- The item a pop takes out of the vector belongs to a stored push. -/
theorem Conserved.popped_item (conserved : Conserved seen buffer taken stored) (permutes : heap.Permutes)
    (items : buffer.queue ≠ []) :
    ∃ entry, (heap.popHeap ptsComparator buffer.queue).getLast? = some entry.item ∧
      Conserved (seen ++ [.popped entry.item])
        { buffer with queue := (heap.popHeap ptsComparator buffer.queue).dropLast }
        (taken ++ [entry]) (stored.erase entry) := by
  have moved := permutes.popHeap ptsComparator buffer.queue
  obtain ⟨rest, last, queue⟩ : ∃ rest last, heap.popHeap ptsComparator buffer.queue = rest ++ [last] := by
    refine ⟨_, _, (List.dropLast_concat_getLast ?_).symm⟩
    intro empty
    rw [empty] at moved
    exact items moved.symm.eq_nil
  rw [queue] at moved ⊢
  have split := (List.perm_append_singleton last rest).symm.trans (moved.trans conserved.items)
  obtain ⟨entry, inStored, rfl⟩ := List.mem_map.mp (split.mem_iff.mp (List.mem_cons_self ..))
  have drawn := List.perm_cons_erase inStored
  refine ⟨entry, List.getLast?_concat, ?_⟩
  constructor
  · rw [acceptedPushes_kept seen rfl, List.append_assoc]
    exact conserved.pushes.trans (drawn.append_left taken)
  · simp [poppedItems, Seen.delivered, ← conserved.popped]
  · rw [List.dropLast_concat]
    exact (split.trans (drawn.map Entry.item)).cons_inv
  · rw [acceptedPushes_kept seen rfl]
    exact conserved.counter

theorem Conserved.step {e : Event} {new : List Seen} (conserved : Conserved seen buffer taken stored)
    (permutes : heap.Permutes) (run : Renderer.step heap buffer e = some (buffer', new)) :
    ∃ taken' stored', Conserved (seen ++ new) buffer' taken' stored' := by
  cases section_cases run with
  | refused | closed => exact ⟨taken, stored, conserved.answer rfl rfl⟩
  | pushed => exact ⟨taken, _, conserved.pushed permutes _⟩
  | popped _ items same =>
    obtain ⟨entry, last, popped⟩ := conserved.popped_item permutes items
    rw [last] at same
    subst same
    exact ⟨_, _, popped⟩
  | aborts =>
    rw [List.append_nil]
    exact ⟨taken, stored, conserved.pushes, conserved.popped, conserved.items, conserved.counter⟩

theorem conserved_of_reach (permutes : heap.Permutes) {maxCapacity : Nat}
    (reach : Reach (Renderer.step heap) anyStep { maxCapacity } seen buffer) :
    ∃ taken stored, Conserved seen buffer taken stored := by
  refine reach.traced (fun past state => ∃ taken stored, Conserved past state taken stored)
    ⟨[], [], Conserved.initial maxCapacity⟩ ?_
  rintro past state state' e new ⟨taken, stored, conserved⟩ _ run
  exact conserved.step permutes run

theorem Conserved.frames (conserved : Conserved seen buffer taken stored) :
    ((acceptedPushes seen).map Entry.frame).Perm ((poppedItems seen).map QueueItem.frame ++ buffer.frames) := by
  have same : ∀ entries : List Entry, (entries.map Entry.item).map QueueItem.frame = entries.map Entry.frame := by
    simp [Entry.item]
  have stays := conserved.items.map QueueItem.frame
  have pushes := conserved.pushes.map Entry.frame
  rw [same] at stays
  rw [List.map_append] at pushes
  rw [conserved.popped, same]
  exact pushes.trans (stays.symm.append_left _)

/-- The stored push numbers differ, and so do the counter values as long as the
pushes lie less than the range of the counter apart. -/
theorem Conserved.distinct (conserved : Conserved seen buffer taken stored)
    (near : ∀ entry ∈ stored, ∀ other ∈ stored, entry.number < other.number + 2 ^ 64) :
    (buffer.queue.map QueueItem.seqNum).Nodup := by
  have numbers : (stored.map Entry.number).Nodup := by
    have all := (conserved.pushes.map Entry.number).nodup
      (by rw [acceptedPushes_numbers]; exact List.nodup_range)
    rw [List.map_append] at all
    exact all.of_append_right
  rw [(conserved.items.map QueueItem.seqNum).nodup_iff, List.map_map]
  refine numbers.of_map.map_on ?_
  intro entry inStored other otherStored same
  have wrapped : entry.number % 2 ^ 64 = other.number % 2 ^ 64 := by
    simpa [Entry.item, ← UInt64.toNat_inj] using same
  have above := near entry inStored other otherStored
  have below := near other otherStored entry inStored
  exact List.inj_on_of_nodup_map numbers inStored otherStored (by omega)

theorem capacity_step {e : Event} {new : List Seen} (permutes : heap.Permutes)
    (bounded : buffer.queue.length ≤ buffer.maxCapacity)
    (run : Renderer.step heap buffer e = some (buffer', new)) :
    buffer'.maxCapacity = buffer.maxCapacity ∧ buffer'.queue.length ≤ buffer.maxCapacity := by
  cases section_cases run with
  | refused | closed | aborts => exact ⟨rfl, bounded⟩
  | @pushed frame running room =>
    have length := (permutes.pushHeap ptsComparator (buffer.queue ++ [⟨frame, buffer.nextSeqNum⟩])).length_eq
    simp only [List.length_append, List.length_singleton] at length
    exact ⟨rfl, by simp only [length]; omega⟩
  | popped =>
    have length := (permutes.popHeap ptsComparator buffer.queue).length_eq
    exact ⟨rfl, by simp only [List.length_dropLast, length]; omega⟩

theorem capacity_of_reach (permutes : heap.Permutes) {maxCapacity : Nat}
    (reach : Reach (Renderer.step heap) anyStep { maxCapacity } seen buffer) :
    buffer.queue.length ≤ maxCapacity := by
  have bound : buffer.maxCapacity = maxCapacity ∧ buffer.queue.length ≤ maxCapacity := by
    refine reach.invariant (fun state => state.maxCapacity = maxCapacity ∧ state.queue.length ≤ maxCapacity)
      ⟨rfl, Nat.zero_le _⟩ ?_
    rintro state state' e new ⟨same, bounded⟩ _ run
    subst same
    exact capacity_step permutes bounded run
  exact bound.2

/-- Behind an abort every critical section leaves the buffer as it is and refuses. -/
theorem aborted_step {e : Event} {new : List Seen} (aborted : buffer.aborted = true)
    (run : Renderer.step heap buffer e = some (buffer', new)) :
    buffer' = buffer ∧ ∀ answer ∈ new, answer.IsRefusal := by
  cases section_cases run with
  | refused | closed => exact ⟨rfl, by simp [Seen.IsRefusal]⟩
  | pushed running | popped running => simp [aborted] at running
  | aborts =>
    refine ⟨?_, by simp⟩
    cases buffer
    simpa [PtsFrameBuffer.abort] using aborted.symm

theorem aborted_reach {more : List Seen} (aborted : buffer.aborted = true)
    (reach : Reach (Renderer.step heap) anyStep buffer more buffer') :
    buffer' = buffer ∧ ∀ answer ∈ more, answer.IsRefusal := by
  refine reach.observed (· = buffer) Seen.IsRefusal rfl ?_
  rintro state state' e new rfl _ run
  exact aborted_step aborted run

namespace BufferThreads
universe u
variable {ι : Type u} [Fintype ι] [DecidableEq ι] {s t : State ι}

/-- Nothing changes the buffer any more. Every thread that waited is awake, and
each thread inside a call returns with a refusal once it gets the mutex. -/
structure Closed (heap : StdHeap QueueItem) (buffer : PtsFrameBuffer) (more : List Seen) (s : State ι) : Prop where
  unchanged : s.buffer = buffer
  refused : ∀ answer ∈ more, answer.IsRefusal
  awake : ∀ i call, s.threads i ≠ .asleep call
  returns : ∀ i call, s.threads i = .entering call ∨ s.threads i = .woken call →
    step heap s (.enter i) = some (s.move i .outside, [call.refusal])

/-- The capacity holds, every frame whose push answered true is popped once or
stored, the stored sequence numbers differ unless two stored pushes are 2^64 or
more pushes apart, and an abort closes the buffer for every continuation. -/
structure BoundedBuffer (heap : StdHeap QueueItem) (maxCapacity : Nat) (seen : List Seen) (s : State ι) :
    Prop where
  capacity : s.buffer.queue.length ≤ maxCapacity
  frames : ((acceptedPushes seen).map Entry.frame).Perm
    ((poppedItems seen).map QueueItem.frame ++ s.buffer.frames)
  once : ∃ taken stored, Conserved seen s.buffer taken stored ∧
    ((∀ entry ∈ stored, ∀ other ∈ stored, entry.number < other.number + 2 ^ 64) →
      (s.buffer.queue.map QueueItem.seqNum).Nodup)
  aborted : s.buffer.aborted = true → ∀ more t, Reach (step heap) anyStep s more t → Closed heap s.buffer more t

theorem boundedBuffer_of_reach {heap : StdHeap QueueItem} (permutes : heap.Permutes) {maxCapacity : Nat}
    {seen : List Seen} (reach : Reach (step heap) anyStep (init ι maxCapacity) seen s) :
    BoundedBuffer heap maxCapacity seen s := by
  have sections : Reach (Renderer.step heap) anyStep { maxCapacity } seen s.buffer := buffer_reach reach
  obtain ⟨taken, stored, conserved⟩ := conserved_of_reach permutes sections
  refine ⟨capacity_of_reach permutes sections, conserved.frames,
    ⟨taken, stored, conserved, conserved.distinct⟩, ?_⟩
  intro aborted more t later
  obtain ⟨same, refused⟩ := aborted_reach aborted (buffer_reach later)
  have stillAborted : t.buffer.aborted = true := by rw [same, aborted]
  refine ⟨same, refused, (sound_of_reach permutes (reach.trans later)).noSleeper stillAborted, ?_⟩
  intro i call inside
  have answer := answer_aborted heap call stillAborted
  have entered : t.enter heap i call = (t.move i .outside, [call.refusal]) := by
    simp only [State.enter, answer, stillAborted, if_true]
    rfl
  rcases inside with entering | woken
  · simp only [step, entering, entered]
  · simp only [step, woken, entered]

/-- The buffer is full while one thread wants to push and the other aborts it. -/
def abortedPush (first second : ι) : List (Event ι) :=
  [.call first (.push (frameAt 7 [])), .enter first, .notifyOne first none,
    .call second (.push (frameAt 8 [])), .enter second, .abort]

theorem boundedBuffer_abortedPush :
    ∃ seen, ∃ s : State (Fin 2), Reach (step (.sorting _)) anyStep (init (Fin 2) 1) seen s ∧
      s.buffer.aborted = true ∧ s.threads 1 = .woken (.push (frameAt 8 [])) ∧
      BoundedBuffer (.sorting _) 1 seen s := by
  obtain ⟨seen, s, reach, passed⟩ := reach_of_exec (step (.sorting _)) anyStep (init (Fin 2) 1) (abortedPush 0 1)
    (fun r => r.2.buffer.aborted && r.2.threads 1 == .woken (.push (frameAt 8 []))) (by decide +kernel)
  simp only [Bool.and_eq_true, beq_iff_eq] at passed
  exact ⟨seen, s, reach, passed.1, passed.2, boundedBuffer_of_reach (StdHeap.sorting_permutes _) reach⟩

end BufferThreads

/-- Pushes and pops of an earlier frame go past a frame that stays. -/
theorem residentCycles_reachable (n : Nat) :
    ∃ seen, Reach (Renderer.step (.sorting _)) anyStep { maxCapacity := 2 } seen
      ⟨2, UInt64.ofNat (n + 1), false, [⟨frameAt 1 [], 0⟩]⟩ := by
  induction n with
  | zero =>
    have pushed : Renderer.step (.sorting _) { maxCapacity := 2 } (.push (frameAt 1 [])) =
        some (⟨2, 1, false, [⟨frameAt 1 [], 0⟩]⟩, [.pushed (frameAt 1 [])]) := by rfl
    exact ⟨_, .next .start trivial pushed⟩
  | succ n ih =>
    obtain ⟨seen, reach⟩ := ih
    have pushed : Renderer.step (.sorting _) ⟨2, UInt64.ofNat (n + 1), false, [⟨frameAt 1 [], 0⟩]⟩
        (.push (frameAt 0 [])) = some (⟨2, UInt64.ofNat (n + 1) + 1, false,
          [⟨frameAt 0 [], UInt64.ofNat (n + 1)⟩, ⟨frameAt 1 [], 0⟩]⟩, [.pushed (frameAt 0 [])]) := by rfl
    have popped : Renderer.step (.sorting _) ⟨2, UInt64.ofNat (n + 1) + 1, false,
          [⟨frameAt 0 [], UInt64.ofNat (n + 1)⟩, ⟨frameAt 1 [], 0⟩]⟩ .pop =
        some (⟨2, UInt64.ofNat (n + 1) + 1, false, [⟨frameAt 1 [], 0⟩]⟩,
          [.popped ⟨frameAt 0 [], UInt64.ofNat (n + 1)⟩]) := by rfl
    have cycle := Reach.next (e := Event.pop) (Reach.next reach trivial pushed) trivial popped
    exact ⟨_, by rw [UInt64.ofNat_add]; exact cycle⟩

/-- The push counter wraps past a stored frame, and two stored frames share a sequence number. -/
theorem sharedSeqNum_reachable :
    ∃ seen, ∃ s : BufferThreads.State (Fin 1),
      Reach (BufferThreads.step (.sorting _)) anyStep (BufferThreads.init (Fin 1) 2) seen s ∧
        s.buffer.aborted = false ∧ ¬ (s.buffer.queue.map QueueItem.seqNum).Nodup := by
  obtain ⟨seen, reach⟩ := residentCycles_reachable (2 ^ 64 - 1)
  have pushed : Renderer.step (.sorting _) ⟨2, 0, false, [⟨frameAt 1 [], 0⟩]⟩ (.push (frameAt 0 [])) =
      some (⟨2, 1, false, [⟨frameAt 0 [], 0⟩, ⟨frameAt 1 [], 0⟩]⟩, [.pushed (frameAt 0 [])]) := by rfl
  exact ⟨_, _, BufferThreads.lone_reach 0 (.next reach trivial pushed), rfl, by decide⟩

end Iptv.Renderer
