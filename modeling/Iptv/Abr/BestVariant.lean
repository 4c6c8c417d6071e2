import Mathlib.Algebra.Order.Field.Basic
import Mathlib.Data.Nat.Cast.Order.Ring
import Mathlib.Tactic.NormNum
import Iptv.Abr.AffordableSelection
import Iptv.Manifest.UriAccounting

namespace Iptv.Abr
open Iptv.Manifest
variable {Double : Type}

/-- A variant of maximum bandwidth among the affordable ones, or of minimum
bandwidth when none is affordable. -/
structure BestAffordable (estimate : Rat) (variants : List (VariantStreamRef Double))
    (variant : VariantStreamRef Double) : Prop where
  highest : (∃ other ∈ variants, affordable estimate other = true) →
    affordable estimate variant = true ∧
      ∀ other ∈ variants, affordable estimate other = true → other.bandwidth ≤ variant.bandwidth
  lowest : (∀ other ∈ variants, affordable estimate other = false) →
    ∀ other ∈ variants, variant.bandwidth ≤ other.bandwidth

/-- What fits into the margin lets everything of no higher bandwidth fit. -/
theorem affordable_of_le {estimate : Rat} {a b : VariantStreamRef Double} (order : a.bandwidth ≤ b.bandwidth)
    (fits : affordable estimate b = true) : affordable estimate a = true := by
  have numbers : (a.bandwidth.toNat : Rat) ≤ (b.bandwidth.toNat : Rat) :=
    Nat.cast_le.mpr (UInt32.le_iff_toNat_le.mp order)
  simp only [affordable, decide_eq_true_eq] at fits ⊢
  have scaled : (a.bandwidth.toNat : Rat) / 1000000 ≤ (b.bandwidth.toNat : Rat) / 1000000 :=
    div_le_div_of_nonneg_right numbers (by norm_num)
  exact scaled.trans fits

theorem ascending_le {variants : List (VariantStreamRef Double)}
    (ascending : variants.Pairwise fun a b => a.bandwidth ≤ b.bandwidth) {i j : Nat}
    {a b : VariantStreamRef Double} (first : variants[i]? = some a) (second : variants[j]? = some b)
    (order : i ≤ j) : a.bandwidth ≤ b.bandwidth := by
  rcases Nat.eq_or_lt_of_le order with rfl | before
  · rw [first] at second
    cases second
    exact UInt32.le_refl _
  · obtain ⟨inA, rfl⟩ := List.getElem?_eq_some_iff.mp first
    obtain ⟨inB, rfl⟩ := List.getElem?_eq_some_iff.mp second
    exact List.pairwise_iff_getElem.mp ascending i j inA inB before

/-- On an ascending list the scan that stops at the first variant over the margin misses nothing. -/
theorem idealIndex_best (manager : AbrManager) {variants : List (VariantStreamRef Double)}
    (ascending : variants.Pairwise fun a b => a.bandwidth ≤ b.bandwidth) {variant : VariantStreamRef Double}
    (entry : variants[calculateIdealVariantIndex id manager variants]? = some variant) :
    BestAffordable manager.smoothedThroughput variants variant := by
  have inherited : variants.Pairwise fun a b =>
      affordable manager.smoothedThroughput b = true → affordable manager.smoothedThroughput a = true :=
    ascending.imp affordable_of_le
  rw [calculateIdealVariantIndex_eq] at entry
  constructor
  · rintro ⟨other, member, fits⟩
    obtain ⟨i, atIndex⟩ := List.mem_iff_getElem?.mp member
    have scanned := lt_takeWhile_of_accepted inherited atIndex fits
    refine ⟨accepted_of_lt_takeWhile (by omega) entry, fun rival listed fitting => ?_⟩
    obtain ⟨j, atRival⟩ := List.mem_iff_getElem?.mp listed
    have passed := lt_takeWhile_of_accepted inherited atRival fitting
    exact ascending_le ascending atRival entry (by omega)
  · intro none other member
    obtain ⟨i, atIndex⟩ := List.mem_iff_getElem?.mp member
    have stopped : (variants.takeWhile (affordable manager.smoothedThroughput)).length = 0 := by
      rw [List.length_eq_zero_iff, List.eq_nil_iff_forall_not_mem]
      intro first scanned
      have refused := none first (List.takeWhile_subset _ scanned)
      rw [List.mem_takeWhile_imp scanned] at refused
      cases refused
    exact ascending_le ascending entry atIndex (by omega)

variable [Zero Double]

/-- The order that the parser leaves is the one that the manager's scan relies on. -/
theorem idealVariant_best {lib : CxxStd Double} {input : Text} {playlist : Playlist Double}
    (accepted : parse lib input = .ok playlist) (master : playlist.type = .master) (manager : AbrManager) :
    ∃ variant, playlist.variants[calculateIdealVariantIndex id manager playlist.variants]? = some variant ∧
      BestAffordable manager.smoothedThroughput playlist.variants variant := by
  have some : playlist.variants ≠ [] := by
    have type := parse_type accepted
    rw [master, Playlist.documentedType] at type
    intro none
    rw [if_neg (not_not.mpr none)] at type
    split at type <;> cases type
  obtain ⟨_, _, _, _, account⟩ := accepted_uris accepted
  have entry := List.getElem?_eq_getElem (calculateIdealVariantIndex_lt id manager some)
  exact ⟨_, entry, idealIndex_best manager account.ascending entry⟩

def unorderedMaster : Text :=
  text "#EXTM3U\n#EXT-X-STREAM-INF:BANDWIDTH=5000000\na\n#EXT-X-STREAM-INF:CODECS=x\nb\n#EXT-X-STREAM-INF:BANDWIDTH=800000\nc"

theorem idealVariant_best_unorderedMaster :
    ∃ playlist variant, parse CxxStd.plain unorderedMaster = .ok playlist ∧
      playlist.variants[calculateIdealVariantIndex id { smoothedThroughput := 1 } playlist.variants]? = some variant ∧
      variant.bandwidth = 800000 ∧ BestAffordable 1 playlist.variants variant := by
  obtain ⟨playlist, accepted, tested⟩ := parse_of_test CxxStd.plain unorderedMaster
    (fun playlist => (playlist.type, playlist.variants[calculateIdealVariantIndex id { smoothedThroughput := 1 }
      playlist.variants]?.map (·.bandwidth))) (.master, some 800000) (by decide +kernel)
  obtain ⟨master, chosen⟩ := Prod.mk.inj tested
  obtain ⟨variant, entry, best⟩ := idealVariant_best accepted master { smoothedThroughput := 1 }
  rw [entry] at chosen
  exact ⟨playlist, variant, accepted, entry, Option.some.inj chosen, best⟩

end Iptv.Abr
