import BoonCircuit.Lib.Checks

/-!
# Actions on a state

Methods that read and write a state and may fail.  A failed action keeps what it
wrote before it failed, so that leaving the state alone on failure is a property
of the action and not of the monad.
-/

namespace BoonCircuit.Lib

/-- A computation on a state that may fail. -/
abbrev Action (σ ε α : Type) : Type :=
  ExceptT ε (StateM σ) α

namespace Action

variable {σ ε α β : Type}

/-- The outcome of an action and the state it leaves. -/
def exec (action : Action σ ε α) (state : σ) : Except ε α × σ :=
  (ExceptT.run action).run state

/-- A fallible computation that does not touch the state. -/
def attempt (outcome : Except ε α) : Action σ ε α :=
  ExceptT.mk (pure outcome)

/-- An action that runs under a condition. -/
def onlyIf (condition : Bool) (action : Action σ ε Unit) : Action σ ε Unit :=
  if condition then action else pure ()

variable {result : α} {error : ε} {outcome : Except ε α} {written final state : σ} {change : σ → σ}
  {next : α → Action σ ε β} {action first : Action σ ε α}

@[simp]
theorem exec_pure : exec (pure result : Action σ ε α) state = (.ok result, state) :=
  rfl

@[simp]
theorem exec_attempt : exec (attempt outcome) state = (outcome, state) :=
  rfl

@[simp]
theorem exec_get_bind {next : σ → Action σ ε α} :
    exec (get >>= next) state = exec (next state) state := by
  rfl

@[simp]
theorem exec_set_bind {next : PUnit → Action σ ε α} :
    exec (set written >>= next) state = exec (next ⟨⟩) written := by
  rfl

@[simp]
theorem exec_modify_bind {next : PUnit → Action σ ε α} :
    exec (modify change >>= next) state = exec (next ⟨⟩) (change state) := by
  rfl

@[simp]
theorem exec_attempt_bind :
    exec (attempt outcome >>= next) state =
      match outcome with
      | .ok result => exec (next result) state
      | .error error => (.error error, state) := by
  cases outcome <;> rfl

theorem exec_bind :
    exec (first >>= next) state = match exec first state with
      | (.ok result, middle) => exec (next result) middle
      | (.error error, middle) => (.error error, middle) := by
  rcases executed : exec first state with ⟨error | result, middle⟩ <;>
    simp only [exec, ExceptT.run_bind, StateT.run_bind] at executed ⊢ <;>
    rw [executed] <;> rfl

theorem exec_attempt_bind_eq_ok_iff {result : β} :
    exec (attempt outcome >>= next) state = (.ok result, final) ↔
      ∃ middle, outcome = .ok middle ∧ exec (next middle) state = (.ok result, final) := by
  cases outcome <;> simp

/-- A failure in the given state leaves it alone. -/
def FailsClean (action : Action σ ε α) (state : σ) : Prop :=
  ∀ error, (exec action state).1 = .error error → (exec action state).2 = state

@[simp]
theorem failsClean_pure : FailsClean (pure result : Action σ ε α) state :=
  fun _ _ => rfl

@[simp]
theorem failsClean_throw : FailsClean (throw error : Action σ ε α) state :=
  fun _ _ => rfl

@[simp]
theorem failsClean_get_bind {next : σ → Action σ ε α} :
    FailsClean (get >>= next) state ↔ FailsClean (next state) state :=
  Iff.rfl

@[simp]
theorem failsClean_attempt_bind : FailsClean (attempt outcome >>= next) state ↔
    ∀ result, outcome = .ok result → FailsClean (next result) state := by
  cases outcome with
  | error => simp [FailsClean]
  | ok => simp [FailsClean]

/-- Writing last cannot fail any more. -/
@[simp]
theorem failsClean_map_set :
    FailsClean ((fun _ => result) <$> set written : Action σ ε α) state := by
  intro error failed
  cases failed

/-- The action leaves the postcondition when it succeeds from the state, and the failure
condition when it fails. -/
def wp (action : Action σ ε α) (Failed : σ → Prop) (Post : α → σ → Prop) (state : σ) : Prop :=
  match exec action state with
  | (.ok result, final) => Post result final
  | (.error _, final) => Failed final

variable {Failed : σ → Prop} {Post Wider : α → σ → Prop} {Last : β → σ → Prop} {state : σ}
  {body : β → Action σ ε PUnit} {items : List β}

@[simp]
theorem wp_pure : wp (pure result : Action σ ε α) Failed Post state ↔
    Post result state :=
  Iff.rfl

@[simp]
theorem wp_get {Read : σ → σ → Prop} : wp (get : Action σ ε σ) Failed Read state ↔
    Read state state :=
  Iff.rfl

@[simp]
theorem wp_modify {Written : PUnit → σ → Prop} :
    wp (modify change : Action σ ε PUnit) Failed Written state ↔ Written ⟨⟩ (change state) :=
  Iff.rfl

theorem wp_attempt : wp (attempt outcome) Failed Post state ↔
    (∀ result, outcome = .ok result → Post result state) ∧
      (∀ error, outcome = .error error → Failed state) := by
  unfold wp
  cases outcome <;> simp

/-- An attempt in a state that may be left by a failure. -/
theorem wp_attempt_of_failed (failed : Failed state) :
    wp (attempt outcome) Failed Post state ↔ ∀ result, outcome = .ok result →
      Post result state := by
  rw [wp_attempt]
  exact and_iff_left fun _ _ => failed

theorem wp_onlyIf {condition : Bool} {action : Action σ ε Unit} {Done : Unit → σ → Prop} :
    wp (onlyIf condition action) Failed Done state ↔
      (condition = true → wp action Failed Done state) ∧ (condition = false → Done () state) := by
  unfold onlyIf
  cases condition <;> simp

theorem wp_bind :
    wp (first >>= next) Failed Last state ↔
      wp first Failed (fun result => wp (next result) Failed Last) state := by
  unfold wp
  rw [exec_bind]
  rcases exec first state with ⟨_ | result, _⟩ <;> rfl

theorem wp.mono {FailedWider : σ → Prop}
    (holds : wp action Failed Post state) (failed : ∀ final, Failed final → FailedWider final)
    (weaker : ∀ result final, Post result final → Wider result final) :
    wp action FailedWider Wider state := by
  unfold wp at holds ⊢
  generalize exec action state = outcome at holds ⊢
  rcases outcome with ⟨_ | result, final⟩
  · exact failed final holds
  · exact weaker result final holds

theorem wp.weaken (holds : wp action Failed Post state)
    (weaker : ∀ result final, Post result final → Wider result final) :
    wp action Failed Wider state :=
  holds.mono (fun _ failed => failed) weaker

theorem wp.bind (holds : wp action Failed Post state)
    (rest : ∀ result final, Post result final → wp (next result) Failed Last final) :
    wp (action >>= next) Failed Last state :=
  wp_bind.mpr (holds.weaken rest)

theorem wp_of_exec (executed : exec action state = (.ok result, final)) (holds : Post result final)
    : wp action Failed Post state := by
  unfold wp
  rw [executed]
  exact holds

theorem wp.and {Other : α → σ → Prop} (first : wp action Failed Post state)
    (second : wp action (fun _ => True) Other state) :
    wp action Failed (fun result final => Post result final ∧ Other result final) state := by
  unfold wp at first second ⊢
  generalize exec action state = outcome at first second ⊢
  rcases outcome with ⟨_ | result, final⟩
  · exact first
  · exact ⟨first, second⟩

/-- A loop whose invariant speaks of the rounds done so far. -/
theorem wp_forM_done (Invariant : List β → σ → Prop) (holds : Invariant [] state)
    (round : ∀ done item rest, done ++ item :: rest = items → ∀ state, Invariant done state →
      wp (body item) Failed (fun _ => Invariant (done ++ [item])) state) :
    wp (items.forM body) Failed (fun _ => Invariant items) state := by
  have loop : ∀ done rest, done ++ rest = items → ∀ state, Invariant done state →
      wp (rest.forM body) Failed (fun _ => Invariant items) state := by
    intro done rest
    induction rest generalizing done with
    | nil =>
      rintro rfl state holds
      rw [List.append_nil]
      exact holds
    | cons item rest ih =>
      intro whole state holds
      change wp (body item >>= fun _ => rest.forM body) Failed _ state
      rw [wp_bind]
      apply wp.mono (round done item rest whole state holds) fun _ failed => failed
      intro _ middle kept
      exact ih (done ++ [item]) (by simpa using whole) middle kept
  exact loop [] items rfl state holds

/-- A loop keeps what every round keeps. -/
theorem wp_forM {Invariant : σ → Prop}
    (holds : Invariant state) (round : ∀ item ∈ items, ∀ state, Invariant state →
      wp (body item) Failed (fun _ => Invariant) state) :
    wp (items.forM body) Failed (fun _ => Invariant) state := by
  apply wp_forM_done (fun _ => Invariant) holds
  intro done item rest whole
  exact round item (whole ▸ List.mem_append_right done List.mem_cons_self)

theorem wp.eq_ok (holds : wp action (fun _ => False) Post state) :
    ∃ result final, exec action state = (.ok result, final) ∧ Post result final := by
  unfold wp at holds
  rcases executed : exec action state with ⟨_ | result, final⟩
  · rw [executed] at holds
    exact holds.elim
  · rw [executed] at holds
    exact ⟨result, final, rfl, holds⟩

theorem wp.eq_error (holds : wp action Failed (fun _ _ => False) state) :
    ∃ error final, exec action state = (.error error, final) ∧ Failed final := by
  unfold wp at holds
  rcases executed : exec action state with ⟨error | _, final⟩
  · rw [executed] at holds
    exact ⟨error, final, rfl, holds⟩
  · rw [executed] at holds
    exact holds.elim

end Action

end BoonCircuit.Lib
