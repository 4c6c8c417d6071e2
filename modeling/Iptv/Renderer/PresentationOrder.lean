import Mathlib.Data.Prod.Lex
import Iptv.Renderer.PtsFrameBuffer

namespace Iptv.Renderer
open Iptv.Decoder

/-- `floor(2^33 * 100 / 9)`, the length of the circle of the time stamps. -/
def ptsCircle : Int := 2 ^ 33 * 100 / 9

/-- How far a frame lies behind the base of an arc. -/
def position (base : Int) (frame : DecodedFrame) : Int := arcPosition ptsCircle base frame.pts

/-- The frames carry reduced time stamps on one arc shorter than half the circle. -/
structure OnArc (base : Int) (frames : List DecodedFrame) : Prop where
  reduced : ∀ frame ∈ frames, 0 ≤ frame.pts ∧ frame.pts < ptsCircle
  short : ∀ frame ∈ frames, position base frame < kWrapThreshold

/-- With the frame of the push, the frames of the buffer lie on some arc. -/
def KeepsArc (buffer : PtsFrameBuffer) : Event → Prop
  | .push frame => buffer.aborted = false → ∃ base, OnArc base (buffer.frames ++ [frame])
  | .pop | .abort => True

/-- A push, with how many pushes came before it. -/
structure Entry where
  number : Nat
  frame : DecodedFrame
  deriving DecidableEq

def Entry.item (entry : Entry) : QueueItem := ⟨entry.frame, UInt64.ofNat entry.number⟩

/-- The pushes that have not been popped, in push order. -/
structure Pending where
  pushes : Nat
  entries : List Entry
  deriving DecidableEq

def Pending.observe (pending : Pending) : Seen → Pending
  | .pushed frame => ⟨pending.pushes + 1, pending.entries ++ [⟨pending.pushes, frame⟩]⟩
  | .popped item => { pending with entries := pending.entries.eraseP fun entry => item == entry.item }
  | .refused _ | .nothing => pending

def pendingAfter (seen : List Seen) : Pending := seen.foldl Pending.observe ⟨0, []⟩

theorem pendingAfter_append (seen new : List Seen) :
    pendingAfter (seen ++ new) = new.foldl Pending.observe (pendingAfter seen) := by
  simp [pendingAfter]

theorem ptsCircle_eq : ptsCircle = 2 * kWrapThreshold := by decide

/-- On an arc the comparator is the order by position, and by push counter at one position. -/
theorem ptsComparator_iff {base : Int} {frames : List DecodedFrame} (arc : OnArc base frames)
    {lhs rhs : QueueItem} (inLhs : lhs.frame ∈ frames) (inRhs : rhs.frame ∈ frames) :
    ptsComparator lhs rhs = true ↔
      position base rhs.frame < position base lhs.frame ∨
        lhs.frame.pts = rhs.frame.pts ∧ rhs.seqNum < lhs.seqNum := by
  have later := isLater_iff kWrapThreshold base lhs.frame.pts rhs.frame.pts
    (by simpa only [ptsCircle_eq] using arc.reduced _ inLhs)
    (by simpa only [ptsCircle_eq] using arc.reduced _ inRhs)
    (by simpa only [position, ptsCircle_eq] using arc.short _ inLhs)
    (by simpa only [position, ptsCircle_eq] using arc.short _ inRhs)
  rw [← ptsCircle_eq] at later
  unfold position
  rw [← later]
  exact ptsComparator_later lhs rhs

theorem pts_of_position {base : Int} {frames : List DecodedFrame} (arc : OnArc base frames)
    {one other : DecodedFrame} (inOne : one ∈ frames) (inOther : other ∈ frames)
    (same : position base one = position base other) : one.pts = other.pts := by
  have oneBounds := arc.reduced one inOne
  have otherBounds := arc.reduced other inOther
  have circle : ptsCircle = 95443717688 := by decide
  unfold position arcPosition at same
  rw [circle] at same oneBounds otherBounds
  omega

theorem OnArc.strictWeak {base : Int} {items : List QueueItem} (arc : OnArc base (items.map (·.frame))) :
    StrictWeakOn ptsComparator items := by
  refine strictWeakOn_of_key (fun item => toLex (position base item.frame, item.seqNum.toNat)) ?_
  intro lhs inLhs rhs inRhs
  have inFrames : ∀ {item}, item ∈ items → item.frame ∈ items.map (·.frame) := List.mem_map_of_mem
  rw [ptsComparator_iff arc (inFrames inLhs) (inFrames inRhs), Prod.Lex.toLex_lt_toLex,
    UInt64.lt_iff_toNat_lt]
  refine or_congr Iff.rfl (and_congr_left fun _ => ⟨fun same => ?_, fun same => ?_⟩)
  · rw [position, position, same]
  · exact (pts_of_position arc (inFrames inRhs) (inFrames inLhs) same).symm

/-- The buffer holds the pending pushes as a heap, on some arc. -/
structure Tracks (pending : Pending) (buffer : PtsFrameBuffer) : Prop where
  items : buffer.queue.Perm (pending.entries.map Entry.item)
  counter : buffer.nextSeqNum = UInt64.ofNat pending.pushes
  ordered : IsHeap ptsComparator buffer.queue
  arc : ∃ base, OnArc base buffer.frames

theorem Tracks.strictWeak {pending : Pending} {buffer : PtsFrameBuffer} (tracks : Tracks pending buffer) :
    StrictWeakOn ptsComparator buffer.queue := by
  obtain ⟨base, arc⟩ := tracks.arc
  exact arc.strictWeak

theorem OnArc.mono {base : Int} {frames more : List DecodedFrame} (arc : OnArc base more)
    (subset : ∀ frame ∈ frames, frame ∈ more) : OnArc base frames :=
  ⟨fun frame member => arc.reduced frame (subset frame member),
    fun frame member => arc.short frame (subset frame member)⟩

variable {heap : StdHeap QueueItem}

theorem Tracks.pushed {pending : Pending} {buffer : PtsFrameBuffer} {frame : DecodedFrame}
    (tracks : Tracks pending buffer) (met : ∃ base, OnArc base (buffer.frames ++ [frame])) :
    Tracks (pending.observe (.pushed frame))
      { buffer with
        queue := heap.pushHeap ptsComparator (buffer.queue ++ [⟨frame, buffer.nextSeqNum⟩])
        nextSeqNum := buffer.nextSeqNum + 1 } := by
  obtain ⟨base, arc⟩ := met
  have together :
      OnArc base ((buffer.queue ++ [(⟨frame, buffer.nextSeqNum⟩ : QueueItem)]).map (·.frame)) := by
    simpa [PtsFrameBuffer.frames] using arc
  have weak := together.strictWeak
  obtain ⟨same, ordered⟩ := heap.pushHeap_spec weak tracks.ordered
  constructor
  · simp only [Pending.observe, List.map_append, List.map_cons, List.map_nil, Entry.item]
    rw [← tracks.counter]
    exact same.trans (tracks.items.append_right _)
  · simp [Pending.observe, tracks.counter]
  · exact ordered
  · refine ⟨base, arc.mono fun stored member => ?_⟩
    obtain ⟨item, inQueue, rfl⟩ := List.mem_map.mp member
    have before := same.mem_iff.mp inQueue
    simp only [List.mem_append, List.mem_singleton] at before ⊢
    rcases before with old | rfl
    · exact .inl (List.mem_map_of_mem old)
    · exact .inr rfl

/-- A pop takes the root of the heap out of the pending pushes. -/
theorem Tracks.popped {pending : Pending} {buffer : PtsFrameBuffer} (tracks : Tracks pending buffer)
    (some : buffer.queue ≠ []) :
    ∃ first rest, buffer.queue = first :: rest ∧
      (heap.popHeap ptsComparator buffer.queue).getLast? = .some first ∧
      Tracks (pending.observe (.popped first))
        { buffer with queue := (heap.popHeap ptsComparator buffer.queue).dropLast } := by
  have weak := tracks.strictWeak
  obtain ⟨items, counter, ordered, base, arc⟩ := tracks
  obtain ⟨first, rest, queue⟩ := List.exists_cons_of_ne_nil some
  rw [queue] at weak ordered items
  obtain ⟨remaining, moved, same, ordered'⟩ := heap.popHeap_spec weak ordered
  rw [queue, moved, List.getLast?_concat, List.dropLast_concat]
  refine ⟨first, rest, rfl, rfl, ⟨?_, counter, ordered', base, arc.mono fun stored member => ?_⟩⟩
  · have erased := (items.erase first).symm
    rw [List.erase_cons_head, List.erase_eq_eraseP, List.eraseP_map] at erased
    exact same.trans erased.symm
  · obtain ⟨item, inQueue, rfl⟩ := List.mem_map.mp member
    have before := same.mem_iff.mp inQueue
    exact List.mem_map_of_mem (by rw [queue]; exact List.mem_cons_of_mem first before)

theorem Tracks.step {pending : Pending} {buffer buffer' : PtsFrameBuffer} {e : Event} {new : List Seen}
    (tracks : Tracks pending buffer) (met : KeepsArc buffer e)
    (run : Renderer.step heap buffer e = some (buffer', new)) :
    Tracks (new.foldl Pending.observe pending) buffer' := by
  cases section_cases run with
  | refused | closed => exact tracks
  | pushed running => exact tracks.pushed (met running)
  | popped _ items taken =>
    obtain ⟨first, rest, _, last, popped⟩ := tracks.popped items
    rw [last] at taken
    subst taken
    exact popped
  | aborts => exact ⟨tracks.items, tracks.counter, tracks.ordered, tracks.arc⟩

theorem tracks_initial (maxCapacity : Nat) : Tracks ⟨0, []⟩ { maxCapacity } where
  items := List.Perm.refl _
  counter := rfl
  ordered i bound := by simp at bound
  arc := ⟨0, by simp [PtsFrameBuffer.frames], by simp [PtsFrameBuffer.frames]⟩

theorem tracks_of_reach {maxCapacity : Nat} {seen : List Seen} {buffer : PtsFrameBuffer}
    (reach : Reach (Renderer.step heap) KeepsArc { maxCapacity } seen buffer) :
    Tracks (pendingAfter seen) buffer := by
  refine reach.traced (fun past state => Tracks (pendingAfter past) state)
    (tracks_initial maxCapacity) ?_
  intro past state state' e new tracks met run
  rw [pendingAfter_append]
  exact tracks.step met run

def frameAt (pts : Int) (data : List UInt8) : DecodedFrame := .ofVideo { pts } {} data

/-- A push and a pop of one frame advance the counter and leave the buffer empty. -/
theorem cycles_reachable (n : Nat) :
    ∃ seen, Reach (Renderer.step (.sorting _)) KeepsArc { maxCapacity := 2 } seen
        ⟨2, UInt64.ofNat n, false, []⟩ ∧ pendingAfter seen = ⟨n, []⟩ := by
  induction n with
  | zero => exact ⟨[], .start, rfl⟩
  | succ n ih =>
    obtain ⟨seen, reach, pending⟩ := ih
    have arc : OnArc 0 [frameAt 0 []] := ⟨by decide, by decide⟩
    have met : KeepsArc ⟨2, UInt64.ofNat n, false, []⟩ (.push (frameAt 0 [])) :=
      fun _ => ⟨0, arc⟩
    have pushed : Renderer.step (.sorting _) ⟨2, UInt64.ofNat n, false, []⟩ (.push (frameAt 0 [])) =
        some (⟨2, UInt64.ofNat n + 1, false, [⟨frameAt 0 [], UInt64.ofNat n⟩]⟩,
          [.pushed (frameAt 0 [])]) := by rfl
    have popped : Renderer.step (.sorting _)
        ⟨2, UInt64.ofNat n + 1, false, [⟨frameAt 0 [], UInt64.ofNat n⟩]⟩ .pop =
        some (⟨2, UInt64.ofNat n + 1, false, []⟩, [.popped ⟨frameAt 0 [], UInt64.ofNat n⟩]) := by rfl
    have cycle := Reach.next (e := Event.pop) (Reach.next reach met pushed) trivial popped
    refine ⟨_, by rw [UInt64.ofNat_add]; exact cycle, ?_⟩
    simp [pendingAfter_append, pending, Pending.observe, Entry.item]

end Iptv.Renderer
