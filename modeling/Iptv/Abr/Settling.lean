import Iptv.Abr.SteadyThroughput
import Iptv.Lib.Contraction

namespace Iptv.Abr
open Iptv.Manifest
variable {Double : Type}

/-- The calls on one list with throughputs of a band. -/
def InBand (variants : List (VariantStreamRef Double)) (low high : Rat) (_ : AbrManager)
    (call : List (VariantStreamRef Double) × Rat) : Prop :=
  call.1 = variants ∧ low ≤ call.2 ∧ call.2 ≤ high

/-- How many more calls the hysteresis takes to come to an index that stays the ideal one. -/
def pendingCalls (manager : AbrManager) (idealIndex : Nat) : Nat :=
  if manager.currentVariantIndex = idealIndex then 0
  else if idealIndex < manager.currentVariantIndex then 1
  else 3 - min manager.consecutiveUpgrades 2

theorem pendingCalls_le (manager : AbrManager) (idealIndex : Nat) : pendingCalls manager idealIndex ≤ 3 := by
  unfold pendingCalls
  split
  · omega
  · split <;> omega

theorem pendingCalls_zero {manager : AbrManager} {idealIndex : Nat} (none : pendingCalls manager idealIndex = 0) :
    manager.currentVariantIndex = idealIndex := by
  unfold pendingCalls at none
  split at none
  · assumption
  · split at none <;> omega

theorem Move.pendingCalls {before after : AbrManager} {idealIndex : Nat} (move : Move before after idealIndex) :
    pendingCalls after idealIndex ≤ pendingCalls before idealIndex - 1 := by
  have reached (index : after.currentVariantIndex = idealIndex) : Abr.pendingCalls after idealIndex = 0 :=
    if_pos index
  cases move with
  | seed _ index | down _ _ index | up _ _ _ index =>
    rw [reached index]
    exact Nat.zero_le _
  | keep _ same index =>
    rw [reached (index.trans same)]
    exact Nat.zero_le _
  | wait _ higher early index counter =>
    unfold Abr.pendingCalls
    rw [index, counter]
    split
    · omega
    · split <;> omega

/-- Around the band the scan of the list always ends at the same variant. -/
structure SettledList (variants : List (VariantStreamRef Double)) (low high margin : Rat) (idealIndex : Nat) :
    Prop where
  lower : idealIndexLoop id (low - margin) variants 0 0 = idealIndex
  upper : idealIndexLoop id (high + margin) variants 0 0 = idealIndex

theorem SettledList.ideal {variants : List (VariantStreamRef Double)} {low high margin : Rat} {idealIndex : Nat}
    (settled : SettledList variants low high margin idealIndex) {manager : AbrManager}
    (near : Near low high margin manager.smoothedThroughput) :
    calculateIdealVariantIndex id manager variants = idealIndex := by
  have below : calculateIdealVariantIndex id { smoothedThroughput := low - margin } variants ≤
      calculateIdealVariantIndex id manager variants := calculateIdealVariantIndex_mono near.lower variants
  have above : calculateIdealVariantIndex id manager variants ≤
      calculateIdealVariantIndex id { smoothedThroughput := high + margin } variants :=
    calculateIdealVariantIndex_mono near.upper variants
  have lower := settled.lower
  have upper := settled.upper
  unfold calculateIdealVariantIndex at *
  dsimp only at *
  omega

/-- The estimate behind one more measurement of the band. -/
theorem smooth_near {low high distance estimate measurement alpha : Rat} (near : Near low high distance estimate)
    (order : 0 ≤ distance) (lower : low ≤ measurement) (upper : measurement ≤ high) (positive : 0 < alpha)
    (most : alpha ≤ 1) : Near low high ((1 - alpha) * distance) (smooth id alpha estimate measurement) := by
  rw [smooth_exact]
  split
  · exact near_inside lower upper (mul_nonneg (by linarith) order)
  · exact near.mix lower upper positive.le most

/-- What the calls with throughputs of the band have brought about: the estimate has come
nearer with each of them, and from the `count`-th on the hysteresis follows one index. -/
structure Settling (low high alpha distance : Rat) (idealIndex count : Nat) (seen : List (Selection Double))
    (manager : AbrManager) : Prop where
  factor : manager.alpha = alpha
  near : Near low high ((1 - alpha) ^ seen.length * distance) manager.smoothedThroughput
  trail : ∀ i selection, seen[i]? = some selection →
    Near low high ((1 - alpha) ^ (i + 1) * distance) selection.after.smoothedThroughput
  pending : count ≤ seen.length → pendingCalls manager idealIndex ≤ count + 3 - seen.length
  settled : ∀ selection ∈ seen.drop (count + 2), selection.after.currentVariantIndex = idealIndex
  quiet : ∀ selection ∈ seen.drop (count + 3), selection.before.currentVariantIndex = idealIndex

section
variable {variants : List (VariantStreamRef Double)} {low high margin alpha distance : Rat} {idealIndex count : Nat}
  {manager after : AbrManager} {call : List (VariantStreamRef Double) × Rat} {seen new : List (Selection Double)}

theorem Settling.next (settling : Settling low high alpha distance idealIndex count seen manager)
    (some : variants ≠ []) (positive : 0 < alpha) (most : alpha ≤ 1) (order : 0 ≤ distance)
    (list : SettledList variants low high margin idealIndex) (enough : (1 - alpha) ^ count * distance ≤ margin)
    (inBand : InBand variants low high manager call) (run : record manager call = .some (after, new)) :
    Settling low high alpha distance idealIndex count (seen ++ new) after := by
  obtain ⟨calledWith, measurement⟩ := call
  obtain ⟨rfl, lower, upper⟩ := inBand
  obtain ⟨same, rfl⟩ := record_observe some run
  obtain ⟨estimate, factor⟩ := observe_estimate id manager calledWith measurement
  have move := observe_move manager calledWith measurement
  rw [← same] at estimate factor move
  have scaled : 0 ≤ (1 - alpha) ^ seen.length * distance :=
    mul_nonneg (pow_nonneg (by linarith) _) order
  have near : Near low high ((1 - alpha) ^ (seen.length + 1) * distance) after.smoothedThroughput := by
    have nearer := smooth_near settling.near scaled lower upper positive most
    rw [← settling.factor, ← estimate, settling.factor] at nearer
    rwa [pow_succ', mul_assoc]
  have pending (late : count ≤ seen.length + 1) :
      pendingCalls after idealIndex ≤ count + 3 - (seen.length + 1) := by
    rcases late.lt_or_eq with earlier | now
    · have close := near.mono (shrunk_le positive.le most order late enough)
      have ideal : calculateIdealVariantIndex id (measured manager measurement) calledWith = idealIndex := by
        refine list.ideal ?_
        rwa [estimate] at close
      rw [ideal] at move
      have fewer := move.pendingCalls
      have before := settling.pending (by omega)
      omega
    · have bound := pendingCalls_le after idealIndex
      omega
  refine ⟨factor.trans settling.factor, ?_, ?_, ?_, ?_, ?_⟩
  · rwa [List.length_append, List.length_singleton]
  · intro i selection entry
    rcases Nat.lt_trichotomy i seen.length with earlier | rfl | beyond
    · rw [List.getElem?_append_left earlier] at entry
      exact settling.trail i selection entry
    · rw [List.getElem?_append_right le_rfl, Nat.sub_self] at entry
      cases entry
      exact near
    · rw [List.getElem?_eq_none (by rw [List.length_append, List.length_singleton]; omega)] at entry
      cases entry
  · intro late
    rw [List.length_append, List.length_singleton] at late ⊢
    exact pending late
  · intro selection member
    rw [List.drop_append] at member
    rcases List.mem_append.mp member with old | last
    · exact settling.settled selection old
    · by_cases late : count + 2 ≤ seen.length
      · have bound := pending (by omega)
        have none : pendingCalls after idealIndex = 0 := by omega
        rw [List.mem_singleton.mp (List.mem_of_mem_drop last)]
        exact pendingCalls_zero none
      · rw [List.drop_eq_nil_of_le (by rw [List.length_singleton]; omega)] at last
        cases last
  · intro selection member
    rw [List.drop_append] at member
    rcases List.mem_append.mp member with old | last
    · exact settling.quiet selection old
    · by_cases late : count + 3 ≤ seen.length
      · have bound := settling.pending (by omega)
        have none : pendingCalls manager idealIndex = 0 := by omega
        rw [List.mem_singleton.mp (List.mem_of_mem_drop last)]
        exact pendingCalls_zero none
      · rw [List.drop_eq_nil_of_le (by rw [List.length_singleton]; omega)] at last
        cases last

theorem settling_of_band (some : variants ≠ []) (positive : 0 < manager.alpha) (most : manager.alpha ≤ 1)
    (order : 0 ≤ distance) (list : SettledList variants low high margin idealIndex)
    (near : Near low high distance manager.smoothedThroughput)
    (enough : (1 - manager.alpha) ^ count * distance ≤ margin) {last : AbrManager}
    (later : Reach record (InBand variants low high) manager seen last) :
    Settling low high manager.alpha distance idealIndex count seen last := by
  refine later.traced (Settling low high manager.alpha distance idealIndex count) ?_ ?_
  · have bound := pendingCalls_le manager idealIndex
    refine ⟨rfl, by simpa using near, by simp, fun _ => ?_, by simp, by simp⟩
    rw [List.length_nil]
    omega
  · intro past s s' e new old inBand run
    exact old.next some positive most order list enough inBand run

/-- The index differs from the one of the call before. -/
def Selection.Changes (selection : Selection Double) : Prop :=
  selection.before.currentVariantIndex ≠ selection.after.currentVariantIndex

instance (selection : Selection Double) : Decidable selection.Changes :=
  inferInstanceAs (Decidable (_ ≠ _))

/-- Only the first calls change the index. -/
theorem Settling.changes_le (settling : Settling low high alpha distance idealIndex count seen manager) :
    seen.countP (·.Changes) ≤ count + 3 := by
  have settled : (seen.drop (count + 3)).countP (·.Changes) = 0 := by
    rw [List.countP_eq_zero]
    intro selection member changes
    have before := settling.quiet selection member
    have behind : selection ∈ seen.drop (count + 2) :=
      (List.drop_sublist_drop_left seen (Nat.le_succ (count + 2))).subset member
    have after := settling.settled selection behind
    simp [Selection.Changes, before, after] at changes
  have first := List.countP_le_length (p := fun selection : Selection Double => decide selection.Changes) (l := seen.take (count + 3))
  rw [← List.take_append_drop (count + 3) seen, List.countP_append, settled]
  have short := List.length_take_le (count + 3) seen
  omega

/-- In exact arithmetic, while the throughputs stay in a band, the estimate approaches it at
a geometric rate, and three calls behind the moment when it is near enough for the list to
have one ideal variant, the index has come to that variant and stays there. -/
theorem selection_settles (some : variants ≠ []) (positive : 0 < manager.alpha) (most : manager.alpha ≤ 1)
    (room : 0 < margin) (order : 0 ≤ distance) (list : SettledList variants low high margin idealIndex)
    (near : Near low high distance manager.smoothedThroughput) :
    (∃ count, (1 - manager.alpha) ^ count * distance ≤ margin) ∧
      ∀ count, (1 - manager.alpha) ^ count * distance ≤ margin →
        ∀ seen last, Reach record (InBand variants low high) manager seen last →
          (∀ i selection, seen[i]? = .some selection →
            Near low high ((1 - manager.alpha) ^ (i + 1) * distance) selection.after.smoothedThroughput) ∧
          ∀ selection ∈ seen.drop (count + 2), selection.after.currentVariantIndex = idealIndex := by
  refine ⟨exists_shrunk positive order room, fun count enough seen last later => ?_⟩
  have settling := settling_of_band some positive most order list near enough later
  exact ⟨settling.trail, settling.settled⟩

end

instance (variants : List (VariantStreamRef Rat)) (low high : Rat) (manager : AbrManager)
    (call : List (VariantStreamRef Rat) × Rat) : Decidable (InBand variants low high manager call) :=
  inferInstanceAs (Decidable (call.1 = variants ∧ low ≤ call.2 ∧ call.2 ≤ high))

/-- A fall from 10 Mbps to about 1 Mbps: after seven calls the estimate is near enough for
the lower variant, and from the tenth on it is selected. -/
theorem selection_settles_fall :
    ∃ (manager last : AbrManager) (seen : List (Selection Rat)), manager.currentVariantIndex = 1 ∧
      Reach record (InBand [plainVariant 100, plainVariant 2000000] 1 (11 / 10)) manager seen last ∧
      seen.length = 10 ∧ ∀ selection ∈ seen.drop 9, selection.after.currentVariantIndex = 0 := by
  obtain ⟨seen, last, later, long⟩ := reach_of_exec record
    (InBand [plainVariant 100, plainVariant 2000000] 1 (11 / 10))
    { smoothedThroughput := 10, currentVariantIndex := 1 }
    (List.replicate 5 ([plainVariant 100, plainVariant 2000000], 1) ++
      List.replicate 5 ([plainVariant 100, plainVariant 2000000], 11 / 10))
    (fun r => r.1.length == 10) (by decide +kernel)
  have near : Near (1 : Rat) (11 / 10) 9 10 := ⟨by norm_num, by norm_num⟩
  have list : SettledList [plainVariant 100, plainVariant 2000000] (1 : Rat) (11 / 10) 1 0 :=
    ⟨by decide +kernel, by decide +kernel⟩
  have positive : 0 < ({ smoothedThroughput := 10, currentVariantIndex := 1 } : AbrManager).alpha := by norm_num
  have settles := (selection_settles (by simp) positive (by norm_num) one_pos (by norm_num) list near).2 7
    (by norm_num) seen last later
  exact ⟨_, last, seen, rfl, later, by simpa using long, settles.2⟩

end Iptv.Abr
