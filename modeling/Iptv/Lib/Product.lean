import Iptv.Lib.Machine

namespace Iptv
universe u v w x y z p q
variable {σ : Type u} {τ : Type v} {κ : Type w} {ε₁ : Type x} {ε₂ : Type y} {α : Type z} {ω₁ ω₂ : Type p} {ω₃ : Type q}

/-- What is seen of a step: of either machine, or of what drives them. -/
inductive Joint (ω₁ ω₂ : Type p) (ω₃ : Type q)
  | left (seen : ω₁)
  | right (seen : ω₂)
  | own (seen : ω₃)

def Joint.left? : Joint ω₁ ω₂ ω₃ → Option ω₁
  | .left seen => some seen
  | .right _ | .own _ => none

def Joint.right? : Joint ω₁ ω₂ ω₃ → Option ω₂
  | .right seen => some seen
  | .left _ | .own _ => none

def Joint.own? : Joint ω₁ ω₂ ω₃ → Option ω₃
  | .own seen => some seen
  | .left _ | .right _ => none

/-- Two machines with the state of what drives them. -/
structure Joined (σ : Type u) (τ : Type v) (κ : Type w) where
  left : σ
  right : τ
  control : κ

/-- What a step of the driver does: the event that each machine takes along with
it, if any, and the driver's next state. -/
structure Move (ε₁ : Type x) (ε₂ : Type y) (κ : Type w) (ω₃ : Type q) where
  left : Option ε₁ := none
  right : Option ε₂ := none
  control : κ
  seen : List ω₃ := []

def advance (step : σ → ε₁ → Option (σ × List ω₁)) (s : σ) : Option ε₁ → Option (σ × List ω₁)
  | none => some (s, [])
  | some e => step s e

/-- The machines move together where the plan gives both of them an event, and it
can only be followed where both events are enabled. -/
def joinedStep (leftStep : σ → ε₁ → Option (σ × List ω₁)) (rightStep : τ → ε₂ → Option (τ × List ω₂))
    (plan : Joined σ τ κ → α → Option (Move ε₁ ε₂ κ ω₃)) (s : Joined σ τ κ) (a : α) :
    Option (Joined σ τ κ × List (Joint ω₁ ω₂ ω₃)) :=
  (plan s a).bind fun move =>
    (advance leftStep s.left move.left).bind fun l =>
      (advance rightStep s.right move.right).map fun r =>
        (⟨l.1, r.1, move.control⟩, l.2.map .left ++ r.2.map .right ++ move.seen.map .own)

variable {leftStep : σ → ε₁ → Option (σ × List ω₁)} {rightStep : τ → ε₂ → Option (τ × List ω₂)}
  {plan : Joined σ τ κ → α → Option (Move ε₁ ε₂ κ ω₃)} {s s' : Joined σ τ κ}

/-- The inversion of a joint step. -/
structure JoinedTransition (leftStep : σ → ε₁ → Option (σ × List ω₁)) (rightStep : τ → ε₂ → Option (τ × List ω₂))
    (s s' : Joined σ τ κ) (move : Move ε₁ ε₂ κ ω₃) (new : List (Joint ω₁ ω₂ ω₃)) : Prop where
  left : advance leftStep s.left move.left = some (s'.left, new.filterMap Joint.left?)
  right : advance rightStep s.right move.right = some (s'.right, new.filterMap Joint.right?)
  control : s'.control = move.control
  seen : new.filterMap Joint.own? = move.seen

theorem joined_cases {a : α} {new : List (Joint ω₁ ω₂ ω₃)}
    (run : joinedStep leftStep rightStep plan s a = some (s', new)) :
    ∃ move, plan s a = some move ∧ JoinedTransition leftStep rightStep s s' move new := by
  obtain ⟨move, planned, run⟩ := Option.bind_eq_some_iff.mp run
  obtain ⟨l, leftRun, run⟩ := Option.bind_eq_some_iff.mp run
  obtain ⟨r, rightRun, same⟩ := Option.map_eq_some_iff.mp run
  cases same
  refine ⟨move, planned, ?_, ?_, rfl, ?_⟩
  · rw [leftRun]
    simp [List.filterMap_append, List.filterMap_map, Function.comp_def, Joint.left?]
  · rw [rightRun]
    simp [List.filterMap_append, List.filterMap_map, Function.comp_def, Joint.right?]
  · simp [List.filterMap_append, List.filterMap_map, Function.comp_def, Joint.own?]

/-- A planned move can be followed where the machines can take their events. -/
theorem joinedStep_isSome {a : α} {move : Move ε₁ ε₂ κ ω₃} (planned : plan s a = some move)
    (left : (advance leftStep s.left move.left).isSome = true)
    (right : (advance rightStep s.right move.right).isSome = true) :
    (joinedStep leftStep rightStep plan s a).isSome = true := by
  obtain ⟨l, leftRun⟩ := Option.isSome_iff_exists.mp left
  obtain ⟨r, rightRun⟩ := Option.isSome_iff_exists.mp right
  simp [joinedStep, planned, leftRun, rightRun]

/-- An event that is not there is a run of no steps. -/
theorem advance_reach {guard : σ → ε₁ → Prop} {a b : σ} {e : Option ε₁} {new : List ω₁}
    (met : ∀ event, e = some event → guard a event) (run : advance leftStep a e = some (b, new)) :
    Reach leftStep guard a new b := by
  cases e with
  | none =>
    cases run
    exact .start
  | some event =>
    have one := Reach.next .start (met event rfl) run
    rwa [List.nil_append] at one

/-- Every joint run is a run of the left machine. -/
theorem Reach.left {guard : Joined σ τ κ → α → Prop} {guardLeft : σ → ε₁ → Prop} {seen : List (Joint ω₁ ω₂ ω₃)}
    (reach : Reach (joinedStep leftStep rightStep plan) guard s seen s')
    (met : ∀ {s a move event}, guard s a → plan s a = some move → move.left = some event →
      guardLeft s.left event) :
    Reach leftStep guardLeft s.left (seen.filterMap Joint.left?) s'.left := by
  induction reach with
  | start => exact .start
  | next _ guarded run ih =>
    obtain ⟨move, planned, transition⟩ := joined_cases run
    rw [List.filterMap_append]
    exact ih.trans (advance_reach (fun _ taken => met guarded planned taken) transition.left)

/-- Every joint run is a run of the right machine. -/
theorem Reach.right {guard : Joined σ τ κ → α → Prop} {guardRight : τ → ε₂ → Prop} {seen : List (Joint ω₁ ω₂ ω₃)}
    (reach : Reach (joinedStep leftStep rightStep plan) guard s seen s')
    (met : ∀ {s a move event}, guard s a → plan s a = some move → move.right = some event →
      guardRight s.right event) :
    Reach rightStep guardRight s.right (seen.filterMap Joint.right?) s'.right := by
  induction reach with
  | start => exact .start
  | next _ guarded run ih =>
    obtain ⟨move, planned, transition⟩ := joined_cases run
    rw [List.filterMap_append]
    exact ih.trans (advance_reach (fun _ taken => met guarded planned taken) transition.right)

end Iptv
