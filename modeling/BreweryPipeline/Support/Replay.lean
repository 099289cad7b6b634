import Mathlib

/-!
Runs of a guarded step function over a list of events, and repeated attempts of
one task. A run exists only when every event was enabled. A task is attempted
under one environment after another until an attempt succeeds.
-/

namespace Support.Replay

section Runs
variable {State Event : Type} (step : State → Event → Option State)

def replay : List Event → State → Option State
  | [], state => some state
  | event :: rest, state => (step state event).bind (replay rest)

theorem replay_append (first second : List Event) (state : State) :
    replay step (first ++ second) state = (replay step first state).bind (replay step second) := by
  induction first generalizing state with
  | nil => rfl
  | cons event rest ih =>
      simp only [List.cons_append, replay]
      cases step state event with
      | none => rfl
      | some next => exact ih next

/-- The last step of a run starts from the state the rest of the run reached. -/
theorem replay_snoc (events : List Event) (event : Event) (start final : State) :
    replay step (events ++ [event]) start = some final ↔
      ∃ state, replay step events start = some state ∧ step state event = some final := by
  rw [replay_append, Option.bind_eq_some_iff]
  simp [replay]

/-- A run up to one of its events, the event, and the rest of the run. -/
theorem replay_split (before after : List Event) (event : Event) (start final : State)
    (run : replay step (before ++ event :: after) start = some final) :
    ∃ state next, replay step before start = some state ∧ step state event = some next ∧
      replay step after next = some final := by
  rw [replay_append, Option.bind_eq_some_iff] at run
  obtain ⟨state, first, rest⟩ := run
  obtain ⟨next, taken, later⟩ := Option.bind_eq_some_iff.mp rest
  exact ⟨state, next, first, taken, later⟩

theorem replay_invariant (invariant : State → Prop)
    (kept : ∀ state event next, invariant state → step state event = some next → invariant next)
    (events : List Event) (start final : State) (initial : invariant start)
    (run : replay step events start = some final) : invariant final := by
  induction events generalizing start with
  | nil => exact Option.some.inj run ▸ initial
  | cons event rest ih =>
      obtain ⟨next, taken, later⟩ := Option.bind_eq_some_iff.mp run
      exact ih next (kept start event next initial taken) later

end Runs

section Attempts
variable {State Env Error : Type} (perform : Env → State → Except Error Unit × State)

def attempts : List Env → State → Bool × State
  | [], state => (false, state)
  | env :: rest, state =>
      match perform env state with
      | (.ok (), next) => (true, next)
      | (.error _, next) => attempts rest next

/-- Every attempt respects a reflexive and transitive relation, so all of them do. -/
theorem attempts_related (related : State → State → Prop) (refl : ∀ state, related state state)
    (trans : ∀ a b c, related a b → related b c → related a c)
    (each : ∀ env state, related state (perform env state).2)
    (envs : List Env) (state : State) : related state (attempts perform envs state).2 := by
  induction envs generalizing state with
  | nil => exact refl state
  | cons env rest ih =>
      have first := each env state
      simp only [attempts]
      split
      · rename_i next outcome
        rw [outcome] at first
        exact first
      · rename_i error next outcome
        rw [outcome] at first
        exact trans _ _ _ first (ih next)

theorem attempts_refused (envs : List Env) (state : State)
    (refused : ∀ env ∈ envs, ∃ error, perform env state = (.error error, state)) :
    attempts perform envs state = (false, state) := by
  induction envs with
  | nil => rfl
  | cons env rest ih =>
      obtain ⟨error, same⟩ := refused env List.mem_cons_self
      simp only [attempts, same]
      exact ih fun other member => refused other (List.mem_cons_of_mem env member)

/-- An attempt that erases what failed ones left, whenever it succeeds, gives
the same result after any number of them as at once. -/
theorem attempts_transparent (last : Env)
    (absorbs : ∀ env state error next, perform env state = (.error error, next) →
      (perform last next).1 = .ok () → perform last next = perform last state)
    (envs : List Env) (state : State) (failed : (attempts perform envs state).1 = false)
    (success : (perform last (attempts perform envs state).2).1 = .ok ()) :
    perform last (attempts perform envs state).2 = perform last state := by
  induction envs generalizing state with
  | nil => rfl
  | cons env rest ih =>
      rcases outcome : perform env state with ⟨result, next⟩
      cases result with
      | ok _ => simp [attempts, outcome] at failed
      | error error =>
          simp only [attempts, outcome] at failed success ⊢
          have same := ih next failed success
          rw [same] at success ⊢
          exact absorbs env state error next outcome success

theorem attempts_append (first second : List Env) (state : State)
    (failed : (attempts perform first state).1 = false) :
    attempts perform (first ++ second) state =
      attempts perform second (attempts perform first state).2 := by
  induction first generalizing state with
  | nil => rfl
  | cons env rest ih =>
      rcases outcome : perform env state with ⟨result, next⟩
      cases result with
      | ok _ => simp [attempts, outcome] at failed
      | error error =>
          simp only [List.cons_append, attempts, outcome] at failed ⊢
          exact ih next failed

theorem attempts_single (env : Env) (state next : State) :
    attempts perform [env] state = (true, next) ↔ perform env state = (.ok (), next) := by
  rcases outcome : perform env state with ⟨_ | _, other⟩ <;> simp [attempts, outcome]

/-- Failed attempts before one that succeeds and erases their traces do not show. -/
theorem attempts_settled (last : Env)
    (absorbs : ∀ env state error next, perform env state = (.error error, next) →
      (perform last next).1 = .ok () → perform last next = perform last state)
    (envs : List Env) (state : State) (failed : (attempts perform envs state).1 = false)
    (success : (attempts perform (envs ++ [last]) state).1 = true) :
    attempts perform (envs ++ [last]) state = attempts perform [last] state := by
  rw [attempts_append perform envs [last] state failed] at success ⊢
  have succeeded := (attempts_single perform last _ _).mp (Prod.ext success rfl)
  have same := attempts_transparent perform last absorbs envs state failed
    (congrArg Prod.fst succeeded)
  simp only [attempts, same]

end Attempts

end Support.Replay
