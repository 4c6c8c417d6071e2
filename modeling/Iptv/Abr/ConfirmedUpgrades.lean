import Mathlib.Tactic.Linarith
import Iptv.Abr.AffordableSelection

namespace Iptv.Abr
open Iptv.Manifest
variable {Double : Type}

/-- A call of `selectVariant` that returned, with the manager in front of it and behind it. -/
structure Selection (Double : Type) where
  variants : List (VariantStreamRef Double)
  measurement : Rat
  before : AbrManager
  after : AbrManager
  deriving DecidableEq

/-- One call with its list and its measurement. A call that throws changes nothing. -/
def record (manager : AbrManager) (call : List (VariantStreamRef Double) × Rat) :
    Option (AbrManager × List (Selection Double)) :=
  match selectVariant id manager call.1 call.2 with
  | .ok (_, after) => some (after, [⟨call.1, call.2, manager, after⟩])
  | .error _ => some (manager, [])

/-- The manager with the estimate that a measurement gives it. -/
def measured (manager : AbrManager) (measurement : Rat) : AbrManager :=
  { manager with smoothedThroughput := smooth id manager.alpha manager.smoothedThroughput measurement }

/-- The ideal index that the call computes. -/
def Selection.idealIndex (selection : Selection Double) : Nat :=
  calculateIdealVariantIndex id (measured selection.before selection.measurement) selection.variants

def Selection.Raises (selection : Selection Double) : Prop :=
  selection.before.currentVariantIndex < selection.after.currentVariantIndex

def Selection.Lowers (selection : Selection Double) : Prop :=
  selection.after.currentVariantIndex < selection.before.currentVariantIndex

/-- A call that would like a higher index and keeps the one it found. -/
structure Selection.Waits (selection : Selection Double) : Prop where
  favourable : selection.before.currentVariantIndex < selection.idealIndex
  unchanged : selection.after.currentVariantIndex = selection.before.currentVariantIndex

theorem observe_eq (manager : AbrManager) (variants : List (VariantStreamRef Double)) (measurement : Rat) :
    observe id manager variants measurement =
      if manager.smoothedThroughput = 0 then
        { measured manager measurement with
          currentVariantIndex := calculateIdealVariantIndex id (measured manager measurement) variants }
      else applyHysteresis (measured manager measurement)
        (calculateIdealVariantIndex id (measured manager measurement) variants) := by
  unfold observe measured smooth
  split
  · rfl
  · rfl

/-- A call with a non-empty list always returns. -/
theorem record_observe {manager after : AbrManager} {call : List (VariantStreamRef Double) × Rat}
    {new : List (Selection Double)} (some : call.1 ≠ []) (run : record manager call = .some (after, new)) :
    after = observe id manager call.1 call.2 ∧ new = [⟨call.1, call.2, manager, after⟩] := by
  obtain ⟨variant, _, selected⟩ := selectVariant_ok id manager some call.2
  rw [record, selected] at run
  cases run
  exact ⟨rfl, rfl⟩

/-- What the hysteresis makes of the ideal index: it seeds the index while there
is no estimate, goes down at once, and goes up at the third wish. -/
inductive Move (before after : AbrManager) (idealIndex : Nat) : Prop
  | seed (fresh : before.smoothedThroughput = 0) (index : after.currentVariantIndex = idealIndex)
    (counter : after.consecutiveUpgrades = before.consecutiveUpgrades)
  | down (live : before.smoothedThroughput ≠ 0) (lower : idealIndex < before.currentVariantIndex)
    (index : after.currentVariantIndex = idealIndex) (counter : after.consecutiveUpgrades = 0)
  | wait (live : before.smoothedThroughput ≠ 0) (higher : before.currentVariantIndex < idealIndex)
    (early : before.consecutiveUpgrades < 2)
    (index : after.currentVariantIndex = before.currentVariantIndex)
    (counter : after.consecutiveUpgrades = before.consecutiveUpgrades + 1)
  | up (live : before.smoothedThroughput ≠ 0) (higher : before.currentVariantIndex < idealIndex)
    (third : 2 ≤ before.consecutiveUpgrades) (index : after.currentVariantIndex = idealIndex)
    (counter : after.consecutiveUpgrades = 0)
  | keep (live : before.smoothedThroughput ≠ 0) (same : before.currentVariantIndex = idealIndex)
    (index : after.currentVariantIndex = before.currentVariantIndex) (counter : after.consecutiveUpgrades = 0)

theorem observe_move (manager : AbrManager) (variants : List (VariantStreamRef Double)) (measurement : Rat) :
    Move manager (observe id manager variants measurement)
      (calculateIdealVariantIndex id (measured manager measurement) variants) := by
  rw [observe_eq]
  generalize calculateIdealVariantIndex id (measured manager measurement) variants = idealIndex
  have index : (measured manager measurement).currentVariantIndex = manager.currentVariantIndex := rfl
  have counter : (measured manager measurement).consecutiveUpgrades = manager.consecutiveUpgrades := rfl
  split
  · rename_i fresh
    exact .seed fresh rfl rfl
  · rename_i live
    unfold applyHysteresis
    split
    · rename_i lower
      exact .down live lower rfl rfl
    · split
      · rename_i higher
        split
        · rename_i third
          exact .up live higher (by omega) rfl rfl
        · rename_i early
          exact .wait live higher (by omega) rfl rfl
      · rename_i notLower notHigher
        exact .keep live (by omega) rfl rfl

/-- The calls that the hysteresis counts: the last ones, each waiting at the same index. -/
inductive Streak : List (Selection Double) → AbrManager → Nat → Prop
  | none {past : List (Selection Double)} {manager : AbrManager} : Streak past manager 0
  | more {past : List (Selection Double)} {selection : Selection Double} {count : Nat}
      (waits : selection.Waits) (earlier : Streak past selection.before count) :
      Streak (past ++ [selection]) selection.after (count + 1)

/-- Two calls directly in front of a manager wait, each starting where the one before it ended. -/
def TwoWaits (past : List (Selection Double)) (manager : AbrManager) : Prop :=
  ∃ older first second, past = older ++ [first, second] ∧ first.Waits ∧ second.Waits ∧
    first.after = second.before ∧ second.after = manager

theorem Streak.twoWaits {past : List (Selection Double)} {manager : AbrManager} {count : Nat}
    (streak : Streak past manager count) (third : 2 ≤ count) : TwoWaits past manager := by
  cases streak with
  | none => omega
  | @more recent second count waits earlier =>
    generalize middle : second.before = between at earlier
    cases earlier with
    | none => omega
    | @more older first _ waitsFirst _ =>
      exact ⟨older, first, second, by simp, waitsFirst, waits, middle.symm, rfl⟩

theorem smooth_nonneg {estimate measurement : Rat} (old : 0 ≤ estimate) (new : 0 ≤ measurement) :
    0 ≤ smooth id (3 / 10) estimate measurement := by
  rw [smooth_exact]
  split
  · exact new
  · linarith

/-- An estimate that has left zero does not come back. -/
theorem smooth_pos {estimate measurement : Rat} (old : 0 < estimate) (new : 0 ≤ measurement) :
    0 < smooth id (3 / 10) estimate measurement := by
  rw [smooth_exact, if_neg old.ne']
  linarith

/-- What a sequence of calls on one manager keeps: an estimate of zero is one
that no measurement has moved, and the counter stands for the calls just made. -/
structure Counting (past : List (Selection Double)) (manager : AbrManager) : Prop where
  alpha : manager.alpha = 3 / 10
  nonneg : 0 ≤ manager.smoothedThroughput
  unmoved : manager.smoothedThroughput = 0 → manager.consecutiveUpgrades = 0
  streak : Streak past manager manager.consecutiveUpgrades

/-- The calls that an application makes: with a non-empty list and a throughput. -/
def Measurable (_ : AbrManager) (call : List (VariantStreamRef Double) × Rat) : Prop :=
  call.1 ≠ [] ∧ 0 ≤ call.2

/-- An index goes up as the first one, or behind two calls that waited for it;
it goes down as soon as the ideal index is lower. -/
structure Selection.Justified (past : List (Selection Double)) (selection : Selection Double) : Prop where
  raised : selection.Raises → selection.before.smoothedThroughput = 0 ∨
    selection.before.currentVariantIndex < selection.idealIndex ∧ TwoWaits past selection.before
  lowered : selection.idealIndex < selection.before.currentVariantIndex →
    selection.after.currentVariantIndex = selection.idealIndex

theorem Counting.next {past : List (Selection Double)} {manager after : AbrManager}
    {call : List (VariantStreamRef Double) × Rat} {new : List (Selection Double)}
    (counting : Counting past manager) (measurable : Measurable manager call)
    (run : record manager call = some (after, new)) : Counting (past ++ new) after := by
  obtain ⟨same, rfl⟩ := record_observe measurable.1 run
  obtain ⟨estimate, factor⟩ := observe_estimate id manager call.1 call.2
  have move := observe_move manager call.1 call.2
  rw [← same] at estimate factor move
  rw [counting.alpha] at estimate factor
  have nonneg : 0 ≤ after.smoothedThroughput := estimate ▸ smooth_nonneg counting.nonneg measurable.2
  have moved (live : manager.smoothedThroughput ≠ 0) : after.smoothedThroughput ≠ 0 := by
    have positive := smooth_pos (lt_of_le_of_ne counting.nonneg live.symm) measurable.2
    rw [estimate]
    exact positive.ne'
  cases move with
  | seed fresh index counter =>
    have zero : after.consecutiveUpgrades = 0 := counter.trans (counting.unmoved fresh)
    exact ⟨factor, nonneg, fun _ => zero, zero ▸ .none⟩
  | down live lower index counter => exact ⟨factor, nonneg, fun _ => counter, counter ▸ .none⟩
  | up live higher third index counter => exact ⟨factor, nonneg, fun _ => counter, counter ▸ .none⟩
  | keep live equal index counter => exact ⟨factor, nonneg, fun _ => counter, counter ▸ .none⟩
  | wait live higher early index counter =>
    refine ⟨factor, nonneg, fun fresh => absurd fresh (moved live), ?_⟩
    rw [counter]
    exact @Streak.more _ past ⟨call.1, call.2, manager, after⟩ _ ⟨higher, index⟩ counting.streak

theorem Counting.justified {past : List (Selection Double)} {manager : AbrManager}
    (counting : Counting past manager) (variants : List (VariantStreamRef Double)) (measurement : Rat) :
    Selection.Justified past ⟨variants, measurement, manager, observe id manager variants measurement⟩ := by
  have move := observe_move manager variants measurement
  constructor
  · intro raised
    change manager.currentVariantIndex < (observe id manager variants measurement).currentVariantIndex at raised
    cases move with
    | seed fresh => exact Or.inl fresh
    | up live higher third => exact Or.inr ⟨higher, counting.streak.twoWaits third⟩
    | down live lower index => omega
    | wait live higher early index => omega
    | keep live same index => omega
  · intro lower
    change _ < manager.currentVariantIndex at lower
    cases move with
    | seed fresh index => exact index
    | down live less index => exact index
    | up live higher third index => exact index
    | wait live higher => exact absurd higher (Nat.lt_asymm lower)
    | keep live same => exact absurd same (Nat.ne_of_gt lower)

theorem start_counting : @Counting Double [] { alpha := 3 / 10 } :=
  ⟨rfl, le_rfl, fun _ => rfl, .none⟩

/-- In every sequence of calls on one manager, with any non-empty lists and any
throughputs, each call is justified by those in front of it. -/
theorem upgrades_confirmed {seen : List (Selection Double)} {manager : AbrManager}
    (reach : Reach record Measurable { alpha := 3 / 10 } seen manager) {earlier later : List (Selection Double)}
    {selection : Selection Double} (split : seen = earlier ++ selection :: later) :
    selection.Justified earlier := by
  have counting : ∀ {past state}, Reach record Measurable { alpha := 3 / 10 } past state →
      @Counting Double past state := fun past =>
    past.traced Counting start_counting fun counting measurable run => counting.next measurable run
  induction reach generalizing later with
  | start => simp at split
  | @next before after past new call reach measurable run ih =>
    obtain ⟨same, rfl⟩ := record_observe measurable.1 run
    rcases List.eq_nil_or_concat later with rfl | ⟨rest, last, rfl⟩
    · obtain ⟨rfl, whole⟩ := List.append_inj' split rfl
      cases whole
      rw [same]
      exact (counting reach).justified call.1 call.2
    · have cut : past ++ [⟨call.1, call.2, before, after⟩] = (earlier ++ selection :: rest) ++ [last] := by
        rw [split]
        simp
      exact ih (List.append_inj' cut rfl).1

instance (manager : AbrManager) (call : List (VariantStreamRef Double) × Rat) :
    Decidable (Measurable manager call) :=
  inferInstanceAs (Decidable (call.1 ≠ [] ∧ 0 ≤ call.2))

/-- Two variants: the first call selects the lower one, and the third of the calls
with a high throughput raises the index. -/
theorem upgrades_confirmed_third :
    ∃ seen manager earlier selection, Reach record Measurable { alpha := 3 / 10 } seen manager ∧
      seen = earlier ++ [selection] ∧ @Selection.Raises Rat selection ∧ TwoWaits earlier selection.before := by
  obtain ⟨seen, manager, reach, passed⟩ := reach_of_exec record Measurable { alpha := 3 / 10 }
    [([plainVariant 100, plainVariant 1000000], 1), ([plainVariant 100, plainVariant 1000000], 10),
      ([plainVariant 100, plainVariant 1000000], 10), ([plainVariant 100, plainVariant 1000000], 10)]
    (fun r => match r.1.getLast? with
      | some last => last.before.currentVariantIndex < last.after.currentVariantIndex &&
          last.before.smoothedThroughput ≠ 0
      | none => false) (by decide +kernel)
  cases atEnd : seen.getLast? with
  | none => simp [atEnd] at passed
  | some selection =>
    obtain ⟨earlier, rfl⟩ := List.getLast?_eq_some_iff.mp atEnd
    simp only [atEnd, Bool.and_eq_true, decide_eq_true_eq] at passed
    refine ⟨_, manager, earlier, selection, reach, rfl, passed.1, ?_⟩
    rcases (upgrades_confirmed reach rfl).raised passed.1 with fresh | ⟨_, waits⟩
    · exact absurd fresh passed.2
    · exact waits

end Iptv.Abr
