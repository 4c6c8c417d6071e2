import Iptv.Abr.ConfirmedUpgrades

namespace Iptv.Abr
open Iptv.Manifest
variable {Double : Type}

/-- A measurement below the estimate lowers it, and no further than to itself. -/
theorem smooth_falls {estimate measurement : Rat} (below : measurement ≤ estimate) :
    measurement ≤ smooth id (3 / 10) estimate measurement ∧ smooth id (3 / 10) estimate measurement ≤ estimate := by
  rw [smooth_exact]
  split
  · exact ⟨le_rfl, below⟩
  · constructor <;> linarith

theorem smooth_rises {estimate measurement : Rat} (above : estimate ≤ measurement) :
    estimate ≤ smooth id (3 / 10) estimate measurement ∧ smooth id (3 / 10) estimate measurement ≤ measurement := by
  rw [smooth_exact]
  split
  · exact ⟨above, le_rfl⟩
  · constructor <;> linarith

theorem affordable_mono {estimate estimate' : Rat} (order : estimate ≤ estimate') (variant : VariantStreamRef Double)
    (fits : affordable estimate variant = true) : affordable estimate' variant = true := by
  simp only [affordable, decide_eq_true_eq] at fits ⊢
  linarith

/-- The scan over a fixed list goes further when the estimate is higher. -/
theorem calculateIdealVariantIndex_mono {manager manager' : AbrManager}
    (order : manager.smoothedThroughput ≤ manager'.smoothedThroughput) (variants : List (VariantStreamRef Double)) :
    calculateIdealVariantIndex id manager variants ≤ calculateIdealVariantIndex id manager' variants := by
  rw [calculateIdealVariantIndex_eq, calculateIdealVariantIndex_eq]
  have longer := takeWhile_length_mono (affordable_mono order) variants
  omega

/-- The calls on one list with any throughputs. -/
def OnList (variants : List (VariantStreamRef Double)) (_ : AbrManager)
    (call : List (VariantStreamRef Double) × Rat) : Prop :=
  call.1 = variants ∧ 0 ≤ call.2

/-- The calls on one list with one throughput. -/
def Steady (variants : List (VariantStreamRef Double)) (throughput : Rat) (_ : AbrManager)
    (call : List (VariantStreamRef Double) × Rat) : Prop :=
  call = (variants, throughput)

/-- A manager that has not gone beyond what its estimate allows on the list. -/
structure Within (variants : List (VariantStreamRef Double)) (manager : AbrManager) : Prop where
  alpha : manager.alpha = 3 / 10
  index : manager.currentVariantIndex ≤ calculateIdealVariantIndex id manager variants

theorem observe_within {variants : List (VariantStreamRef Double)} {manager : AbrManager}
    (alpha : manager.alpha = 3 / 10) (measurement : Rat) : Within variants (observe id manager variants measurement) :=
  ⟨(observe_estimate id manager variants measurement).2.trans alpha, observe_index_le manager variants measurement⟩

theorem reach_within {variants : List (VariantStreamRef Double)} (some : variants ≠ [])
    {past : List (Selection Double)} {manager : AbrManager}
    (history : Reach record (OnList variants) { alpha := 3 / 10 } past manager) : Within variants manager := by
  refine history.invariant (Within variants) ⟨rfl, Nat.zero_le _⟩ fun {manager after call new} within onList run => ?_
  obtain ⟨list, measurement⟩ := call
  obtain ⟨rfl, _⟩ := onList
  rw [(record_observe some run).1]
  exact observe_within within.alpha measurement

/-- One further call with the constant throughput, by what the hysteresis makes of it. -/
theorem steady_move {variants : List (VariantStreamRef Double)} (some : variants ≠ []) {throughput : Rat}
    {manager after : AbrManager} {call : List (VariantStreamRef Double) × Rat} {new : List (Selection Double)}
    (alpha : manager.alpha = 3 / 10) (steady : Steady variants throughput manager call)
    (run : record manager call = .some (after, new)) :
    new = [⟨variants, throughput, manager, after⟩] ∧ Within variants after ∧
      after.smoothedThroughput = smooth id (3 / 10) manager.smoothedThroughput throughput ∧
      Move manager after (calculateIdealVariantIndex id after variants) := by
  cases steady
  obtain ⟨same, rfl⟩ := record_observe some run
  have estimate := (observe_estimate id manager variants throughput).1
  have move := observe_move manager variants throughput
  have ideal : calculateIdealVariantIndex id (measured manager throughput) variants =
      calculateIdealVariantIndex id after variants :=
    calculateIdealVariantIndex_congr (by rw [same, estimate]; rfl) variants
  rw [ideal, ← same] at move
  rw [← same, alpha] at estimate
  exact ⟨rfl, same ▸ observe_within alpha throughput, estimate, move⟩

/-- Above the throughput the estimate falls, and an index that has gone down
once is the ideal one from then on. -/
structure Falling (variants : List (VariantStreamRef Double)) (throughput : Rat) (seen : List (Selection Double))
    (manager : AbrManager) : Prop where
  within : Within variants manager
  above : throughput ≤ manager.smoothedThroughput
  settled : (∃ selection ∈ seen, selection.Lowers) →
    manager.currentVariantIndex = calculateIdealVariantIndex id manager variants
  ordered : seen.Pairwise fun earlier later => earlier.Lowers → ¬ later.Raises

theorem Falling.next {variants : List (VariantStreamRef Double)} (some : variants ≠ []) {throughput : Rat}
    {seen new : List (Selection Double)} {manager after : AbrManager} {call : List (VariantStreamRef Double) × Rat}
    (falling : Falling variants throughput seen manager) (steady : Steady variants throughput manager call)
    (run : record manager call = .some (after, new)) : Falling variants throughput (seen ++ new) after := by
  obtain ⟨rfl, within, estimate, move⟩ := steady_move some falling.within.alpha steady run
  obtain ⟨bound, falls⟩ := smooth_falls falling.above
  rw [← estimate] at bound falls
  have ideals := calculateIdealVariantIndex_mono falls variants
  have inside := within.index
  have settle (settled : manager.currentVariantIndex = calculateIdealVariantIndex id manager variants) :
      after.currentVariantIndex = calculateIdealVariantIndex id after variants := by
    cases move with
    | seed fresh index => exact index
    | down live lower index => exact index
    | wait live higher => omega
    | up live higher => omega
    | keep live same index => exact index.trans same
  refine ⟨within, bound, ?_, ?_⟩
  · rintro ⟨selection, member, lowers⟩
    rcases List.mem_append.mp member with old | last
    · exact settle (falling.settled ⟨selection, old, lowers⟩)
    · rw [List.mem_singleton.mp last] at lowers
      change after.currentVariantIndex < manager.currentVariantIndex at lowers
      cases move with
      | seed fresh index => exact index
      | down live lower index => exact index
      | wait live higher early index => omega
      | up live higher => omega
      | keep live same index => omega
  · refine List.pairwise_append.mpr ⟨falling.ordered, List.pairwise_singleton _ _, ?_⟩
    intro earlier inSeen later last lowers raises
    rw [List.mem_singleton.mp last] at raises
    change manager.currentVariantIndex < after.currentVariantIndex at raises
    have settled := falling.settled ⟨earlier, inSeen, lowers⟩
    omega

/-- Below the throughput the estimate rises, and no index goes down. -/
structure Rising (variants : List (VariantStreamRef Double)) (throughput : Rat) (seen : List (Selection Double))
    (manager : AbrManager) : Prop where
  within : Within variants manager
  below : manager.smoothedThroughput ≤ throughput
  never : ∀ selection ∈ seen, ¬ selection.Lowers

theorem Rising.next {variants : List (VariantStreamRef Double)} (some : variants ≠ []) {throughput : Rat}
    {seen new : List (Selection Double)} {manager after : AbrManager} {call : List (VariantStreamRef Double) × Rat}
    (rising : Rising variants throughput seen manager) (steady : Steady variants throughput manager call)
    (run : record manager call = .some (after, new)) : Rising variants throughput (seen ++ new) after := by
  obtain ⟨rfl, within, estimate, move⟩ := steady_move some rising.within.alpha steady run
  obtain ⟨rises, bound⟩ := smooth_rises rising.below
  rw [← estimate] at bound rises
  have ideals := calculateIdealVariantIndex_mono rises variants
  have inside := rising.within.index
  refine ⟨within, bound, fun selection member lowers => ?_⟩
  rcases List.mem_append.mp member with old | last
  · exact rising.never selection old lowers
  · rw [List.mem_singleton.mp last] at lowers
    change after.currentVariantIndex < manager.currentVariantIndex at lowers
    cases move with
    | seed fresh index => omega
    | down live lower => omega
    | wait live higher early index => omega
    | up live higher third index => omega
    | keep live same index => omega

theorem rising_of_steady {variants : List (VariantStreamRef Double)} (some : variants ≠ []) {throughput : Rat}
    {seen : List (Selection Double)} {manager last : AbrManager} (within : Within variants manager)
    (below : manager.smoothedThroughput ≤ throughput)
    (later : Reach record (Steady variants throughput) manager seen last) : Rising variants throughput seen last :=
  later.traced (Rising variants throughput) ⟨within, below, by simp⟩ fun rising steady run =>
    rising.next some steady run

theorem falling_of_steady {variants : List (VariantStreamRef Double)} (some : variants ≠ []) {throughput : Rat}
    {seen : List (Selection Double)} {manager last : AbrManager} (within : Within variants manager)
    (above : throughput ≤ manager.smoothedThroughput)
    (later : Reach record (Steady variants throughput) manager seen last) : Falling variants throughput seen last :=
  later.traced (Falling variants throughput) ⟨within, above, by simp, List.Pairwise.nil⟩ fun falling steady run =>
    falling.next some steady run

/-- Under a constant throughput, from every state that a history on the list can
reach, no index goes up after one has gone down, and none goes down while the
throughput is at least the estimate it starts from. -/
theorem steady_noAccordion {variants : List (VariantStreamRef Double)} (some : variants ≠ [])
    {past seen : List (Selection Double)} {manager last : AbrManager} {throughput : Rat}
    (history : Reach record (OnList variants) { alpha := 3 / 10 } past manager)
    (later : Reach record (Steady variants throughput) manager seen last) :
    seen.Pairwise (fun earlier later => earlier.Lowers → ¬ later.Raises) ∧
      (manager.smoothedThroughput ≤ throughput → ∀ selection ∈ seen, ¬ selection.Lowers) := by
  have within := reach_within some history
  have never (below : manager.smoothedThroughput ≤ throughput) : ∀ selection ∈ seen, ¬ selection.Lowers :=
    (rising_of_steady some within below later).never
  refine ⟨?_, never⟩
  rcases le_total throughput manager.smoothedThroughput with above | below
  · exact (falling_of_steady some within above later).ordered
  · exact List.pairwise_of_forall_mem_list fun earlier member _ _ lowers =>
      absurd lowers (never below earlier member)

instance (variants : List (VariantStreamRef Rat)) (manager : AbrManager) (call : List (VariantStreamRef Rat) × Rat) :
    Decidable (OnList variants manager call) :=
  inferInstanceAs (Decidable (call.1 = variants ∧ 0 ≤ call.2))

instance (variants : List (VariantStreamRef Rat)) (throughput : Rat) (manager : AbrManager)
    (call : List (VariantStreamRef Rat) × Rat) : Decidable (Steady variants throughput manager call) :=
  inferInstanceAs (Decidable (call = (variants, throughput)))

/-- A fall from 10 Mbps to 1 Mbps over two variants: the index goes down once, in a later call. -/
theorem steady_noAccordion_fall :
    ∃ (variants : List (VariantStreamRef Rat)) (past seen : List (Selection Rat)) (manager last : AbrManager),
      Reach record (OnList variants) { alpha := 3 / 10 } past manager ∧
      Reach record (Steady variants 1) manager seen last ∧ (∃ selection ∈ seen, selection.Lowers) ∧
      seen.Pairwise fun earlier later => earlier.Lowers → ¬ later.Raises := by
  obtain ⟨past, manager, history, fast⟩ := reach_of_exec record
    (OnList [plainVariant 100, plainVariant 4000000]) { alpha := 3 / 10 }
    [([plainVariant 100, plainVariant 4000000], 10)]
    (fun r => r.2 == { alpha := 3 / 10, smoothedThroughput := 10, currentVariantIndex := 1 }) (by decide +kernel)
  obtain rfl := beq_iff_eq.mp fast
  obtain ⟨seen, last, later, lowered⟩ := reach_of_exec record
    (Steady [plainVariant 100, plainVariant 4000000] 1)
    { alpha := 3 / 10, smoothedThroughput := 10, currentVariantIndex := 1 }
    (List.replicate 3 ([plainVariant 100, plainVariant 4000000], 1))
    (fun r => r.1.any fun selection =>
      selection.after.currentVariantIndex < selection.before.currentVariantIndex)
    (by decide +kernel)
  obtain ⟨selection, member, lowers⟩ := List.any_eq_true.mp lowered
  exact ⟨_, past, seen, _, last, history, later, ⟨selection, member, by simpa [Selection.Lowers] using lowers⟩,
    (steady_noAccordion (by simp) history later).1⟩

end Iptv.Abr
