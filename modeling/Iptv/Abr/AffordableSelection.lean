import Iptv.Abr.AbrManager
import Iptv.Lib.Machine
import Iptv.Lib.Scan

namespace Iptv.Abr
open Iptv.Manifest
variable {Double : Type}

/-- The variant stays within the safety margin of the estimate. -/
def affordable (estimate : Rat) (variant : VariantStreamRef Double) : Bool :=
  (variant.bandwidth.toNat : Rat) / 1000000 ≤ estimate * (8 / 10)

theorem idealIndexLoop_eq (estimate : Rat) (variants : List (VariantStreamRef Double)) (i idealIndex : Nat) :
    idealIndexLoop id estimate variants i idealIndex =
      if variants.takeWhile (affordable estimate) = [] then idealIndex
      else i + (variants.takeWhile (affordable estimate)).length - 1 := by
  induction variants generalizing i idealIndex with
  | nil => rfl
  | cons variant rest ih =>
    unfold idealIndexLoop
    simp only [id_eq]
    by_cases fits : (variant.bandwidth.toNat : Rat) / 1000000 ≤ estimate * (8 / 10)
    · have accepted : affordable estimate variant = true := by simpa [affordable] using fits
      rw [if_pos fits, ih, List.takeWhile_cons_of_pos accepted]
      by_cases last : rest.takeWhile (affordable estimate) = []
      · simp [last]
      · have positive := List.length_pos_iff.mpr last
        simp only [last, if_false, List.cons_ne_nil, List.length_cons]
        omega
    · have refused : ¬ affordable estimate variant = true := by simpa [affordable] using fits
      rw [if_neg fits, List.takeWhile_cons_of_neg refused, if_pos rfl]

/-- The ideal index is that of the last variant before the first that does not fit. -/
theorem calculateIdealVariantIndex_eq (manager : AbrManager) (variants : List (VariantStreamRef Double)) :
    calculateIdealVariantIndex id manager variants =
      (variants.takeWhile (affordable manager.smoothedThroughput)).length - 1 := by
  rw [calculateIdealVariantIndex, idealIndexLoop_eq]
  split
  · rename_i none
    simp [none]
  · omega

theorem applyHysteresis_le (manager : AbrManager) (idealIndex : Nat) :
    (applyHysteresis manager idealIndex).currentVariantIndex ≤ idealIndex := by
  have below := applyHysteresis_lt manager (Nat.lt_succ_self idealIndex)
  omega

theorem calculateIdealVariantIndex_congr {manager manager' : AbrManager}
    (estimate : manager.smoothedThroughput = manager'.smoothedThroughput)
    (variants : List (VariantStreamRef Double)) :
    calculateIdealVariantIndex id manager variants = calculateIdealVariantIndex id manager' variants := by
  unfold calculateIdealVariantIndex
  rw [estimate]

/-- The ideal index of a call depends on the estimate alone, which the hysteresis keeps. -/
theorem observe_index_le (manager : AbrManager) (variants : List (VariantStreamRef Double)) (measurement : Rat) :
    (observe id manager variants measurement).currentVariantIndex ≤
      calculateIdealVariantIndex id (observe id manager variants measurement) variants := by
  unfold observe
  split
  · exact le_rfl
  · dsimp only
    generalize updateSmoothedThroughput id manager measurement = updated
    have bound := applyHysteresis_le updated (calculateIdealVariantIndex id updated variants)
    have estimate := (applyHysteresis_estimate updated (calculateIdealVariantIndex id updated variants)).1
    rwa [calculateIdealVariantIndex_congr estimate]

/-- What a call of `selectVariant` leaves behind: the index of the variant it
returned, in range, no higher than the ideal one at the estimate of the call,
and zero or with nothing unaffordable up to it. -/
structure Selected (variants : List (VariantStreamRef Double)) (variant : VariantStreamRef Double)
    (manager : AbrManager) : Prop where
  bound : manager.currentVariantIndex < variants.length
  entry : variants[manager.currentVariantIndex]? = some variant
  ideal : manager.currentVariantIndex ≤ calculateIdealVariantIndex id manager variants
  fits : manager.currentVariantIndex = 0 ∨
    ∀ i ≤ manager.currentVariantIndex, ∀ other, variants[i]? = some other →
      affordable manager.smoothedThroughput other = true

theorem selectVariant_selected (manager : AbrManager) {variants : List (VariantStreamRef Double)}
    (some : variants ≠ []) (measurement : Rat) :
    ∃ variant after, selectVariant id manager variants measurement = .ok (variant, after) ∧
      Selected variants variant after := by
  have bound := observe_index_lt id manager some measurement
  have ideal := observe_index_le manager variants measurement
  refine ⟨variants[(observe id manager variants measurement).currentVariantIndex],
    observe id manager variants measurement, ?_, bound, List.getElem?_eq_getElem bound, ideal, ?_⟩
  · simp only [selectVariant, if_neg some, List.getElem?_eq_getElem bound]
  · generalize observe id manager variants measurement = after at ideal
    rw [calculateIdealVariantIndex_eq] at ideal
    by_cases first : after.currentVariantIndex = 0
    · exact Or.inl first
    · refine Or.inr fun i upTo other entry => ?_
      exact accepted_of_lt_takeWhile (by omega) entry

/-- A call of `selectVariant` as seen from outside: the list it was given, with
the variant it returned and the manager it left, or with the failure. -/
inductive Seen (Double : Type)
  | selected (variants : List (VariantStreamRef Double)) (variant : VariantStreamRef Double) (after : AbrManager)
  | failed (variants : List (VariantStreamRef Double)) (failure : SelectFailure)
  deriving DecidableEq

/-- One call with its list and its measurement. A call that throws changes nothing. -/
def select (manager : AbrManager) (call : List (VariantStreamRef Double) × Rat) :
    Option (AbrManager × List (Seen Double)) :=
  match selectVariant id manager call.1 call.2 with
  | .ok (variant, after) => some (after, [.selected call.1 variant after])
  | .error failure => some (manager, [.failed call.1 failure])

/-- Only an empty list is refused. -/
def Seen.Sound : Seen Double → Prop
  | .selected variants variant after => Selected variants variant after
  | .failed variants failure =>
    variants = [] ∧ failure = .invalidArgument "AbrManager: Variant list cannot be empty."

theorem select_sound {manager after : AbrManager} {call : List (VariantStreamRef Double) × Rat}
    {new : List (Seen Double)} (run : select manager call = some (after, new)) : ∀ entry ∈ new, entry.Sound := by
  obtain ⟨variants, measurement⟩ := call
  unfold select at run
  by_cases none : variants = []
  · have refused : selectVariant id manager variants measurement =
        .error (.invalidArgument "AbrManager: Variant list cannot be empty.") := by
      simp [selectVariant, none]
    rw [refused] at run
    cases run
    simp [Seen.Sound, none]
  · obtain ⟨variant, chosen, selected, sound⟩ := selectVariant_selected manager none measurement
    rw [selected] at run
    cases run
    simpa [Seen.Sound] using sound

/-- In every sequence of calls on one manager, with any lists and measurements,
each call with a non-empty list selects within bounds and within the margin. -/
theorem selections_affordable {alpha : Rat} {seen : List (Seen Double)} {manager : AbrManager}
    (reach : Reach select anyStep { alpha := alpha } seen manager) : ∀ entry ∈ seen, entry.Sound := by
  induction reach with
  | start => simp
  | next _ _ run ih =>
    intro entry member
    rcases List.mem_append.mp member with old | new
    · exact ih entry old
    · exact select_sound run entry new

def plainVariant (bandwidth : UInt32) : VariantStreamRef Rat :=
  { uri := [], codecs := [], bandwidth := bandwidth, resolution := {}, frameRate := 0 }

/-- A stream with three variants, then one with a single variant: the index that
the first stream left behind is pulled down. -/
theorem selections_affordable_shorterList :
    ∃ seen manager variant, Reach select anyStep { alpha := 3 / 10 } seen manager ∧
      .selected [plainVariant 100] variant manager ∈ seen ∧ Selected [plainVariant 100] variant manager := by
  obtain ⟨seen, manager, reach, passed⟩ := reach_of_exec select anyStep { alpha := 3 / 10 }
    [([plainVariant 100, plainVariant 1000000, plainVariant 2000000], 10), ([plainVariant 100], 10)]
    (fun r => r.1.contains (.selected [plainVariant 100] (plainVariant 100) r.2)) (by decide +kernel)
  have member := List.contains_iff_mem.mp passed
  exact ⟨seen, manager, plainVariant 100, reach, member, selections_affordable reach _ member⟩

end Iptv.Abr
