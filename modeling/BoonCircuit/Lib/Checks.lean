import Mathlib.Tactic.Linarith

/-!
# Fallible checks

Validation code is a sequence of steps that either reports a fault or goes on.
The lemmas say when such a sequence succeeds: a guard when its fault is absent,
a bind through an intermediate result, a loop when every round succeeds.
-/

namespace BoonCircuit.Lib.Checks

open List

variable {ε δ α β σ : Type}

/-- Reports the error when the fault is present. -/
def reject (fault : Prop) [Decidable fault] (error : ε) : Except ε Unit :=
  if fault then .error error else .ok ()

/-- The content of an option, or an error. -/
def okOr (found : Option α) (error : ε) : Except ε α :=
  match found with
  | some result => .ok result
  | none => .error error

/-- Checks the content of an option, if there is any. -/
def forSome (found : Option α) (check : α → Except ε Unit) : Except ε Unit :=
  match found with
  | some item => check item
  | none => .ok ()

variable {fault : Prop} {error : ε} {done : Unit} {found : Option α} {result : α}
  {check : α → Except ε Unit} {outcome : Except ε α} {step : σ → α → Except ε σ}
  {items : List α}

@[simp]
theorem reject_eq_ok_iff [Decidable fault] : reject fault error = .ok done ↔ ¬ fault := by
  unfold reject
  split <;> simp_all

@[simp]
theorem okOr_eq_ok_iff : okOr found error = .ok result ↔ found = some result := by
  cases found <;> simp [okOr]

theorem forSome_eq_ok_iff :
    forSome found check = .ok done ↔ ∀ item, found = some item → check item = .ok () := by
  cases found <;> simp [forSome]

theorem reject_eq_error_iff [Decidable fault] {given : ε} :
    reject fault error = .error given ↔ fault ∧ given = error := by
  unfold reject
  split <;> simp_all [eq_comm]

theorem forSome_eq_error_iff :
    forSome found check = .error error ↔ ∃ item, found = some item ∧ check item = .error error := by
  cases found <;> simp [forSome]

/-- A sequence of fallible steps succeeds through an intermediate result. -/
theorem bind_eq_ok_iff {first : Except ε α} {next : α → Except ε β} {result : β} :
    (first >>= next) = .ok result ↔ ∃ middle, first = .ok middle ∧ next middle = .ok result := by
  cases first <;> simp [bind, Except.bind]

@[simp]
theorem pure_eq_ok_iff {given : α} : (pure given : Except ε α) = .ok result ↔ given = result := by
  simp [pure, Except.pure]

theorem map_eq_ok_iff {view : α → β} {result : β} :
    view <$> outcome = .ok result ↔ ∃ found, outcome = .ok found ∧ view found = result := by
  cases outcome <;> simp [Functor.map, Except.map]

theorem mapError_eq_ok_iff {view : ε → δ} :
    outcome.mapError view = .ok result ↔ outcome = .ok result := by
  cases outcome <;> simp [Except.mapError]

theorem check_bind_eq_ok_iff {check : Except ε Unit} {next : Unit → Except ε β} {result : β} :
    (check >>= next) = .ok result ↔ check = .ok () ∧ next () = .ok result := by
  rw [bind_eq_ok_iff]
  constructor
  · rintro ⟨_, checked, done⟩
    exact ⟨checked, done⟩
  · rintro ⟨checked, done⟩
    exact ⟨(), checked, done⟩

/-- A checking loop succeeds when every round does. -/
theorem forM_eq_ok_iff : forM items check = .ok done ↔ ∀ item ∈ items, check item = .ok () := by
  induction items with
  | nil => simp
  | cons item items ih =>
    rw [forM_cons, check_bind_eq_ok_iff, ih]
    simp

/-- A loop of checked writes succeeds when every check passes at the start, provided that
writes do not change checks. -/
theorem foldlM_eq_ok_iff {Good : σ → α → Prop} {write : σ → α → σ}
    (step_iff : ∀ state item next, step state item = .ok next ↔
      Good state item ∧ next = write state item)
    (stable : ∀ state written item, Good (write state written) item ↔ Good state item) :
    ∀ {state final : σ}, items.foldlM step state = .ok final ↔
      (∀ item ∈ items, Good state item) ∧ final = items.foldl write state := by
  induction items with
  | nil =>
    intro state final
    simp [pure, Except.pure, eq_comm]
  | cons item items ih =>
    intro state final
    simp only [foldlM_cons, bind_eq_ok_iff, step_iff, ih, forall_mem_cons]
    constructor
    · rintro ⟨_, ⟨good, rfl⟩, rest, final_eq⟩
      exact ⟨⟨good, fun other member => (stable _ _ _).mp (rest other member)⟩, final_eq⟩
    · rintro ⟨⟨good, rest⟩, final_eq⟩
      exact ⟨_, ⟨good, rfl⟩, fun other member => (stable _ _ _).mpr (rest other member), final_eq⟩

/-- A fold whose rounds keep a view keeps the view. -/
theorem foldl_view {round : σ → α → σ} (view : σ → β)
    (keeps : ∀ state item, view (round state item) = view state) {state : σ} :
    view (items.foldl round state) = view state := by
  induction items generalizing state with
  | nil => rfl
  | cons item items ih => rw [foldl_cons, ih, keeps]

/-- What every round of an accumulating loop keeps holds at its end. -/
theorem foldlM_invariant (Invariant : σ → Prop)
    (round : ∀ item ∈ items, ∀ state next, Invariant state → step state item = .ok next →
      Invariant next) :
    ∀ {state final : σ}, Invariant state → items.foldlM step state = .ok final →
      Invariant final := by
  induction items with
  | nil =>
    intro state final holds finished
    rw [foldlM_nil, pure_eq_ok_iff] at finished
    exact finished ▸ holds
  | cons item items ih =>
    intro state final holds finished
    rw [foldlM_cons, bind_eq_ok_iff] at finished
    rcases finished with ⟨next, stepped, finished⟩
    apply ih (fun item member => round item (mem_cons_of_mem _ member)) _ finished
    exact round item mem_cons_self state next holds stepped

/-- A successful accumulating loop has gone through every round. -/
theorem exists_round_of_foldlM {state final : σ} (finished : items.foldlM step state = .ok final) :
    ∀ item ∈ items, ∃ before after, step before item = .ok after := by
  induction items generalizing state with
  | nil => simp
  | cons first items ih =>
    rw [foldlM_cons, bind_eq_ok_iff] at finished
    rcases finished with ⟨next, stepped, finished⟩
    exact forall_mem_cons.mpr ⟨⟨state, next, stepped⟩, ih finished⟩

/-- A loop of partial rounds that comes to its end is a run. -/
theorem reflTransGen_of_foldlM {round : σ → α → Option σ} {state final : σ}
    (finished : items.foldlM round state = some final) :
    Relation.ReflTransGen (fun current next => ∃ item, round current item = some next)
      state final := by
  induction items generalizing state with
  | nil =>
    cases finished
    exact .refl
  | cons item items ih =>
    rcases Option.bind_eq_some_iff.mp finished with ⟨_, first, rest⟩
    exact .head ⟨item, first⟩ (ih rest)

@[simp]
theorem toOption_eq_some_iff : outcome.toOption = some result ↔ outcome = .ok result := by
  cases outcome <;> simp [Except.toOption]

@[simp]
theorem discard_eq_ok_iff :
    (discard outcome : Except ε PUnit) = .ok ⟨⟩ ↔ ∃ result, outcome = .ok result := by
  cases outcome <;> simp [discard, Functor.mapConst, Except.map]

end BoonCircuit.Lib.Checks
