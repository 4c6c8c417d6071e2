import Iptv.Lib.Heap
import Iptv.Lib.Arc
import Iptv.Lib.Machine
import Iptv.Decoder.DecodedFrame

namespace Iptv.Renderer
open Iptv.Decoder

structure QueueItem where
  frame : DecodedFrame
  seqNum : UInt64
  deriving DecidableEq

/-- `(1LL << 32) * 100 / 9`. -/
def kWrapThreshold : Int := 47721858844

/-- `PtsComparator`; "less" means later, since the heap delivers its greatest item. -/
def ptsComparator (lhs rhs : QueueItem) : Bool :=
  let ptsA := lhs.frame.pts
  let ptsB := rhs.frame.pts
  let diff := ptsA - ptsB
  if |diff| > kWrapThreshold then decide (ptsA < ptsB)
  else if ptsA ≠ ptsB then decide (ptsA > ptsB)
  else decide (lhs.seqNum > rhs.seqNum)

theorem ptsComparator_later (lhs rhs : QueueItem) :
    ptsComparator lhs rhs = true ↔ isLater kWrapThreshold lhs.frame.pts rhs.frame.pts = true ∨
      lhs.frame.pts = rhs.frame.pts ∧ rhs.seqNum < lhs.seqNum := by
  unfold ptsComparator isLater
  by_cases same : lhs.frame.pts = rhs.frame.pts
  · simp [same, kWrapThreshold]
  · simp only [same, ne_eq, not_false_eq_true, if_true, false_and, or_false]

structure PtsFrameBuffer where
  maxCapacity : Nat
  nextSeqNum : UInt64 := 0
  aborted : Bool := false
  queue : List QueueItem := []

def PtsFrameBuffer.frames (buffer : PtsFrameBuffer) : List DecodedFrame := buffer.queue.map (·.frame)

/-- The critical section of `push`; `none` while it blocks. -/
def PtsFrameBuffer.push (heap : StdHeap QueueItem) (buffer : PtsFrameBuffer) (frame : DecodedFrame) :
    Option (Bool × PtsFrameBuffer) :=
  if buffer.queue.length < buffer.maxCapacity ∨ buffer.aborted then
    if buffer.aborted then some (false, buffer)
    else
      some (true, { buffer with
        queue := heap.pushHeap ptsComparator (buffer.queue ++ [⟨frame, buffer.nextSeqNum⟩])
        nextSeqNum := buffer.nextSeqNum + 1 })
  else none

/-- The critical section of `pop`; `none` while it blocks. What it answers is the
item whose frame it returns, if it returns one. -/
def PtsFrameBuffer.pop (heap : StdHeap QueueItem) (buffer : PtsFrameBuffer) :
    Option (Option QueueItem × PtsFrameBuffer) :=
  if buffer.queue ≠ [] ∨ buffer.aborted then
    if buffer.aborted then some (none, buffer)
    else
      let queue := heap.popHeap ptsComparator buffer.queue
      some (queue.getLast?, { buffer with queue := queue.dropLast })
  else none

def PtsFrameBuffer.abort (buffer : PtsFrameBuffer) : PtsFrameBuffer := { buffer with aborted := true }

inductive Event
  | push (frame : DecodedFrame)
  | pop
  | abort

inductive Seen
  | pushed (frame : DecodedFrame)
  | refused (frame : DecodedFrame)
  | popped (item : QueueItem)
  | nothing
  deriving DecidableEq

def step (heap : StdHeap QueueItem) (buffer : PtsFrameBuffer) : Event → Option (PtsFrameBuffer × List Seen)
  | .push frame => (buffer.push heap frame).map fun (taken, buffer') =>
      (buffer', [if taken then .pushed frame else .refused frame])
  | .pop => (buffer.pop heap).map fun (item, buffer') =>
      (buffer', [item.elim .nothing .popped])
  | .abort => some (buffer.abort, [])

/-- Everything a critical section can do. -/
inductive CriticalSection (heap : StdHeap QueueItem) (buffer : PtsFrameBuffer) :
    Event → PtsFrameBuffer → List Seen → Prop
  | refused {frame} (aborted : buffer.aborted = true) :
      CriticalSection heap buffer (.push frame) buffer [.refused frame]
  | pushed {frame} (running : buffer.aborted = false) (room : buffer.queue.length < buffer.maxCapacity) :
      CriticalSection heap buffer (.push frame)
        { buffer with
          queue := heap.pushHeap ptsComparator (buffer.queue ++ [⟨frame, buffer.nextSeqNum⟩])
          nextSeqNum := buffer.nextSeqNum + 1 } [.pushed frame]
  | closed (aborted : buffer.aborted = true) : CriticalSection heap buffer .pop buffer [.nothing]
  | popped {answer} (running : buffer.aborted = false) (items : buffer.queue ≠ [])
      (taken : (heap.popHeap ptsComparator buffer.queue).getLast?.elim .nothing .popped = answer) :
      CriticalSection heap buffer .pop
        { buffer with queue := (heap.popHeap ptsComparator buffer.queue).dropLast } [answer]
  | aborts : CriticalSection heap buffer .abort buffer.abort []

/-- The inversion of a step. -/
theorem section_cases {heap : StdHeap QueueItem} {buffer buffer' : PtsFrameBuffer} {e : Event} {new : List Seen}
    (run : step heap buffer e = some (buffer', new)) : CriticalSection heap buffer e buffer' new := by
  cases e with
  | push frame =>
    obtain ⟨answered, pushed, same⟩ := Option.map_eq_some_iff.mp run
    cases same
    unfold PtsFrameBuffer.push at pushed
    split at pushed
    · rename_i enabled
      split at pushed
      · rename_i aborted
        cases pushed
        exact .refused aborted
      · rename_i running
        cases pushed
        exact .pushed (by simpa using running) (enabled.resolve_right running)
    · cases pushed
  | pop =>
    obtain ⟨answered, popped, same⟩ := Option.map_eq_some_iff.mp run
    cases same
    unfold PtsFrameBuffer.pop at popped
    split at popped
    · rename_i enabled
      split at popped
      · rename_i aborted
        cases popped
        exact .closed aborted
      · rename_i running
        cases popped
        exact .popped (by simpa using running) (enabled.resolve_right running) rfl
    · cases popped
  | abort =>
    cases run
    exact .aborts

end Iptv.Renderer
