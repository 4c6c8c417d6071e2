import Mathlib.Algebra.Ring.Nat
import Mathlib.Data.List.Basic

namespace Iptv
universe u v w x y
variable {σ : Type u} {ε : Type v} {ω : Type w}

/-- The runs of a machine from `start`: the step function answers an enabled
event with the next state and what an observer sees of the step. Every step
of the run meets the guard in the state it is taken from. -/
inductive Reach (step : σ → ε → Option (σ × List ω)) (guard : σ → ε → Prop) (start : σ) :
    List ω → σ → Prop
  | start : Reach step guard start [] start
  | next {s s' seen new e} : Reach step guard start seen s → guard s e →
      step s e = some (s', new) → Reach step guard start (seen ++ new) s'

/-- The guard of the unrestricted runs. -/
def anyStep (_ : σ) (_ : ε) : Prop := True

instance (s : σ) (e : ε) : Decidable (anyStep s e) := inferInstanceAs (Decidable True)

variable {step : σ → ε → Option (σ × List ω)} {guard : σ → ε → Prop} {a b c : σ}

theorem Reach.trans {seen more : List ω} (first : Reach step guard a seen b)
    (second : Reach step guard b more c) : Reach step guard a (seen ++ more) c := by
  induction second with
  | start => simpa only [List.append_nil] using first
  | next _ met run ih => rw [← List.append_assoc]; exact .next ih met run

/-- Without its guard a run is still a run. -/
theorem Reach.unguarded {seen : List ω} (reach : Reach step guard a seen b) : Reach step anyStep a seen b := by
  induction reach with
  | start => exact .start
  | next _ _ run ih => exact .next ih trivial run

/-- A property of the state that each guarded step keeps holds after every run. -/
theorem Reach.invariant {seen : List ω} (reach : Reach step guard a seen b) (Inv : σ → Prop)
    (initial : Inv a)
    (keep : ∀ {s s' e new}, Inv s → guard s e → step s e = some (s', new) → Inv s') : Inv b := by
  induction reach with
  | start => exact initial
  | next _ met run ih => exact keep ih met run

/-- The same for a property that ties the state to what has been seen so far. -/
theorem Reach.traced {seen : List ω} (reach : Reach step guard a seen b) (Inv : List ω → σ → Prop)
    (initial : Inv [] a)
    (keep : ∀ {past s s' e new}, Inv past s → guard s e → step s e = some (s', new) →
      Inv (past ++ new) s') : Inv seen b := by
  induction reach with
  | start => exact initial
  | next _ met run ih => exact keep ih met run

/-- An invariant under which each step is observed as it should be makes the whole trace so. -/
theorem Reach.observed {seen : List ω} (reach : Reach step guard a seen b) (Inv : σ → Prop) (Proper : ω → Prop)
    (initial : Inv a)
    (keep : ∀ {s s' e new}, Inv s → guard s e → step s e = some (s', new) → Inv s' ∧ ∀ o ∈ new, Proper o) :
    Inv b ∧ ∀ o ∈ seen, Proper o := by
  refine reach.traced (fun past s => Inv s ∧ ∀ o ∈ past, Proper o) ⟨initial, by simp⟩ ?_
  intro past s s' e new before met run
  obtain ⟨kept, fresh⟩ := keep before.1 met run
  exact ⟨kept, List.forall_mem_append.mpr ⟨before.2, fresh⟩⟩

/-- When every step balances what enters and what leaves against the content of
the state, a whole run from an empty content does. -/
theorem Reach.balance {α : Type x} {seen : List ω} (reach : Reach step guard a seen b)
    (enters leaves : ω → List α) (content : σ → List α) (initial : content a = [])
    (keep : ∀ {s s' e new}, step s e = some (s', new) →
      content s ++ new.flatMap enters = new.flatMap leaves ++ content s') :
    seen.flatMap enters = seen.flatMap leaves ++ content b := by
  induction reach with
  | start => simp [initial]
  | next _ _ run ih =>
    rw [List.flatMap_append, List.flatMap_append, ih, List.append_assoc, keep run, List.append_assoc]

/-- A view of the states in which every step is a run of the other machine, with
the same trace, turns runs into runs. -/
theorem Reach.simulate {τ : Type x} {ε' : Type y} {step' : τ → ε' → Option (τ × List ω)} {guard' : τ → ε' → Prop}
    {seen : List ω} (reach : Reach step guard a seen b) (view : σ → τ)
    (follow : ∀ {s s' e new}, guard s e → step s e = some (s', new) →
      Reach step' guard' (view s) new (view s')) : Reach step' guard' (view a) seen (view b) := by
  induction reach with
  | start => exact .start
  | next _ met run ih => exact ih.trans (follow met run)

/-- Executes a list of events, refusing an event that is not enabled or not guarded. -/
def exec (step : σ → ε → Option (σ × List ω)) (guard : σ → ε → Prop)
    [∀ s e, Decidable (guard s e)] : σ → List ε → Option (List ω × σ)
  | s, [] => some ([], s)
  | s, e :: es =>
    if guard s e then
      match step s e with
      | none => none
      | some (s', new) => (exec step guard s' es).map fun r => (new ++ r.1, r.2)
    else none

theorem exec_reach [∀ s e, Decidable (guard s e)] {es : List ε} {s : σ} {r : List ω × σ}
    (run : exec step guard s es = some r) : Reach step guard s r.1 r.2 := by
  induction es generalizing s r with
  | nil => cases run; exact .start
  | cons e es ih =>
    simp only [exec] at run
    split at run
    · rename_i met
      split at run
      · simp at run
      · rename_i s' new stepped
        obtain ⟨rest, tail, same⟩ := Option.map_eq_some_iff.mp run
        subst same
        have head : Reach step guard s new s' := by simpa using Reach.next .start met stepped
        exact head.trans (ih tail)
    · simp at run

/-- A concrete run whose end passes a test, as a reachable state. -/
theorem reach_of_exec (step : σ → ε → Option (σ × List ω)) (guard : σ → ε → Prop)
    [∀ s e, Decidable (guard s e)] (s : σ) (es : List ε) (test : List ω × σ → Bool)
    (run : (exec step guard s es).map test = some true) :
    ∃ seen t, Reach step guard s seen t ∧ test (seen, t) = true := by
  obtain ⟨r, ran, passed⟩ := Option.map_eq_some_iff.mp run
  exact ⟨r.1, r.2, exec_reach ran, passed⟩

/-- A property that ties the state to the events taken and to what has been seen of them. -/
theorem exec_traced [∀ s e, Decidable (guard s e)] {es : List ε} {s : σ} {r : List ω × σ}
    (Inv : List ε → List ω → σ → Prop) (past : List ε) (seen : List ω) (initial : Inv past seen s)
    (keep : ∀ {past seen s s' e new}, Inv past seen s → guard s e → step s e = some (s', new) →
      Inv (past ++ [e]) (seen ++ new) s')
    (run : exec step guard s es = some r) : Inv (past ++ es) (seen ++ r.1) r.2 := by
  induction es generalizing s r past seen with
  | nil =>
    cases run
    simpa using initial
  | cons e es ih =>
    simp only [exec] at run
    split at run
    · rename_i met
      split at run
      · cases run
      · rename_i s' new stepped
        obtain ⟨rest, tail, same⟩ := Option.map_eq_some_iff.mp run
        subst same
        simpa using ih (past ++ [e]) (seen ++ new) (keep initial met stepped) tail
    · cases run

/-- If each step lowers a potential by one, up to the credit that its event brings, no
schedule is longer than the potential and the credits allow. -/
theorem exec_length_le [∀ s e, Decidable (guard s e)] {es : List ε} {s : σ} {r : List ω × σ} (Inv : σ → Prop)
    (potential : σ → Nat) (credit : ε → Nat) (initial : Inv s)
    (pays : ∀ {s s' e new}, Inv s → guard s e → step s e = some (s', new) →
      Inv s' ∧ potential s' + 1 ≤ potential s + credit e)
    (run : exec step guard s es = some r) :
    Inv r.2 ∧ es.length + potential r.2 ≤ potential s + (es.map credit).sum := by
  refine exec_traced (fun past _ t => Inv t ∧ past.length + potential t ≤ potential s + (past.map credit).sum) [] []
    ⟨initial, Nat.le_of_eq (Nat.zero_add _)⟩ ?_ run
  intro past seen t t' e new old met stepped
  obtain ⟨kept, paid⟩ := pays old.1 met stepped
  have bound := old.2
  refine ⟨kept, ?_⟩
  simp only [List.length_append, List.length_singleton, List.map_append, List.map_cons, List.map_nil, List.sum_append,
    List.sum_singleton]
  omega

end Iptv
