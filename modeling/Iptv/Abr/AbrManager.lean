import Iptv.Manifest.Playlist

namespace Iptv.Abr
open Iptv.Manifest

/-- The adaptive bitrate manager. The values of its doubles are rational numbers, and the
smoothing factor is the one that the source writes down, before it becomes a double.
The functions take the rounding of a result to a double; with `id` they are exact. -/
structure AbrManager where
  alpha : Rat := 3 / 10
  smoothedThroughput : Rat := 0
  consecutiveUpgrades : Nat := 0
  currentVariantIndex : Nat := 0
  deriving DecidableEq

/-- How `selectVariant` fails: the exception it throws, or an index outside of the list. -/
inductive SelectFailure
  | invalidArgument (message : String)
  | outOfRange
  deriving DecidableEq

variable {Double : Type}

section
variable (round : Rat → Rat)

/-- The estimate as a function of a measurement: an exponentially weighted moving
average, seeded while it is zero. Each operation rounds its result. -/
def smooth (alpha estimate measurement : Rat) : Rat :=
  if estimate = 0 then measurement
  else round (round (round alpha * measurement) + round (round (1 - round alpha) * estimate))

def updateSmoothedThroughput (manager : AbrManager) (measuredThroughputMbps : Rat) : AbrManager :=
  { manager with
    smoothedThroughput :=
      round (round (round manager.alpha * measuredThroughputMbps) +
        round (round (1 - round manager.alpha) * manager.smoothedThroughput)) }

/-- The loop of `calculateIdealVariantIndex` from index `i` on. -/
def idealIndexLoop (smoothedThroughput : Rat) :
    List (VariantStreamRef Double) → Nat → Nat → Nat
  | [], _, idealIndex => idealIndex
  | variant :: rest, i, idealIndex =>
    let variantMbps : Rat := round (round variant.bandwidth.toNat / 1000000)
    if variantMbps ≤ round (smoothedThroughput * round (8 / 10)) then
      idealIndexLoop smoothedThroughput rest (i + 1) i
    else idealIndex

def calculateIdealVariantIndex (manager : AbrManager) (variants : List (VariantStreamRef Double)) : Nat :=
  idealIndexLoop round manager.smoothedThroughput variants 0 0

end

def applyHysteresis (manager : AbrManager) (idealIndex : Nat) : AbrManager :=
  if idealIndex < manager.currentVariantIndex then
    { manager with currentVariantIndex := idealIndex, consecutiveUpgrades := 0 }
  else if manager.currentVariantIndex < idealIndex then
    if 3 ≤ manager.consecutiveUpgrades + 1 then
      { manager with currentVariantIndex := idealIndex, consecutiveUpgrades := 0 }
    else { manager with consecutiveUpgrades := manager.consecutiveUpgrades + 1 }
  else { manager with consecutiveUpgrades := 0 }

section
variable (round : Rat → Rat)

def initializeFirstSegment (manager : AbrManager) (variants : List (VariantStreamRef Double))
    (measuredThroughputMbps : Rat) : AbrManager :=
  let seeded := { manager with smoothedThroughput := measuredThroughputMbps }
  { seeded with currentVariantIndex := calculateIdealVariantIndex round seeded variants }

/-- The manager behind a call of `selectVariant` with a non-empty list. -/
def observe (manager : AbrManager) (variants : List (VariantStreamRef Double))
    (measuredThroughputMbps : Rat) : AbrManager :=
  if manager.smoothedThroughput = 0 then initializeFirstSegment round manager variants measuredThroughputMbps
  else
    let updated := updateSmoothedThroughput round manager measuredThroughputMbps
    applyHysteresis updated (calculateIdealVariantIndex round updated variants)

def selectVariant (manager : AbrManager) (variants : List (VariantStreamRef Double))
    (measuredThroughputMbps : Rat) : Except SelectFailure (VariantStreamRef Double × AbrManager) :=
  if variants = [] then .error (.invalidArgument "AbrManager: Variant list cannot be empty.")
  else
    let manager' := observe round manager variants measuredThroughputMbps
    match variants[manager'.currentVariantIndex]? with
    | none => .error .outOfRange
    | some variant => .ok (variant, manager')

end

theorem smooth_exact (alpha estimate measurement : Rat) :
    smooth id alpha estimate measurement =
      if estimate = 0 then measurement else alpha * measurement + (1 - alpha) * estimate := rfl

theorem applyHysteresis_estimate (manager : AbrManager) (idealIndex : Nat) :
    (applyHysteresis manager idealIndex).smoothedThroughput = manager.smoothedThroughput ∧
      (applyHysteresis manager idealIndex).alpha = manager.alpha := by
  unfold applyHysteresis
  split
  · exact ⟨rfl, rfl⟩
  · split
    · split <;> exact ⟨rfl, rfl⟩
    · exact ⟨rfl, rfl⟩

section
variable (round : Rat → Rat)

theorem observe_estimate (manager : AbrManager) (variants : List (VariantStreamRef Double)) (measurement : Rat) :
    (observe round manager variants measurement).smoothedThroughput =
        smooth round manager.alpha manager.smoothedThroughput measurement ∧
      (observe round manager variants measurement).alpha = manager.alpha := by
  unfold observe smooth
  split
  · exact ⟨rfl, rfl⟩
  · dsimp only
    obtain ⟨estimate, factor⟩ := applyHysteresis_estimate (updateSmoothedThroughput round manager measurement)
      (calculateIdealVariantIndex round (updateSmoothedThroughput round manager measurement) variants)
    exact ⟨estimate, factor⟩

theorem idealIndexLoop_bound (smoothedThroughput : Rat) (variants : List (VariantStreamRef Double))
    (i idealIndex : Nat) :
    idealIndexLoop round smoothedThroughput variants i idealIndex ≤ max idealIndex (i + variants.length - 1) := by
  induction variants generalizing i idealIndex with
  | nil => simp [idealIndexLoop]
  | cons variant rest ih =>
    unfold idealIndexLoop
    dsimp only
    split
    · have bound := ih (i + 1) i
      rw [List.length_cons]
      omega
    · omega

theorem calculateIdealVariantIndex_lt (manager : AbrManager) {variants : List (VariantStreamRef Double)}
    (some : variants ≠ []) : calculateIdealVariantIndex round manager variants < variants.length := by
  have bound := idealIndexLoop_bound round manager.smoothedThroughput variants 0 0
  have positive := List.length_pos_iff.mpr some
  unfold calculateIdealVariantIndex
  omega

/-- Whatever index an earlier list left behind, the hysteresis brings it into range. -/
theorem applyHysteresis_lt (manager : AbrManager) {idealIndex length : Nat} (ideal : idealIndex < length) :
    (applyHysteresis manager idealIndex).currentVariantIndex < length := by
  unfold applyHysteresis
  split
  · exact ideal
  · split
    · split
      · exact ideal
      · dsimp only
        omega
    · dsimp only
      omega

theorem observe_index_lt (manager : AbrManager) {variants : List (VariantStreamRef Double)}
    (some : variants ≠ []) (measurement : Rat) :
    (observe round manager variants measurement).currentVariantIndex < variants.length := by
  unfold observe
  split
  · exact calculateIdealVariantIndex_lt round _ some
  · exact applyHysteresis_lt _ (calculateIdealVariantIndex_lt round _ some)

/-- On a non-empty list `selectVariant` returns a variant of it and never fails. -/
theorem selectVariant_ok (manager : AbrManager) {variants : List (VariantStreamRef Double)}
    (some : variants ≠ []) (measurement : Rat) :
    ∃ variant ∈ variants, selectVariant round manager variants measurement =
      .ok (variant, observe round manager variants measurement) := by
  have bound := observe_index_lt round manager some measurement
  refine ⟨variants[(observe round manager variants measurement).currentVariantIndex], List.getElem_mem bound, ?_⟩
  simp only [selectVariant, if_neg some, List.getElem?_eq_getElem bound]

end

theorem selectVariant_manager {round : Rat → Rat} {manager manager' : AbrManager}
    {variants : List (VariantStreamRef Double)} {measurement : Rat} {variant : VariantStreamRef Double}
    (selected : selectVariant round manager variants measurement = .ok (variant, manager')) :
    manager' = observe round manager variants measurement ∧ variant ∈ variants := by
  by_cases none : variants = []
  · simp [selectVariant, none] at selected
  · obtain ⟨chosen, member, run⟩ := selectVariant_ok round manager none measurement
    rw [run] at selected
    cases selected
    exact ⟨rfl, member⟩

end Iptv.Abr
