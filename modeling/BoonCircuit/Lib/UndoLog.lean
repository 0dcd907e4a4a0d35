import BoonCircuit.Lib.BTree
import BoonCircuit.Lib.Checks
import BoonCircuit.Lib.Overlay
import Mathlib.Data.List.Induction

/-!
# Undo logs and journals

A log of inverse steps is replayed from its end.  A write to a place that the log
already covers is not logged again, so the current state is known only up to the
covered places: two states are similar when they differ at covered places alone.
A log rewinds the current state when replaying it from anything similar gives the
initial state back.

A journal is a map that keeps the first value of each place it was told about.  A
patch keeps the values of the places it changes on both sides.
-/

namespace BoonCircuit.Lib

open List hiding getElem?_insert
open BTreeMap Std

section Logs

variable {σ entry ε γ : Type}

/-- Steps that may fail, one after the other.  The first failure ends the loop and keeps the
state it left. -/
def runAll (step : entry → σ → Except ε Unit × σ) : List entry → σ → Except ε Unit × σ
  | [], state => (.ok (), state)
  | next :: rest, state =>
    match step next state with
    | (.ok (), state) => runAll step rest state
    | (.error error, state) => (.error error, state)

/-- Replay of a log, its last entry first. -/
def replay (undo : entry → σ → Except ε Unit × σ) (log : List entry) (state : σ) :
    Except ε Unit × σ :=
  runAll undo log.reverse state

variable {undo : entry → σ → Except ε Unit × σ} {log : List entry} {last : entry}
  {state previous : σ}

theorem replay_concat_of_ok (undone : undo last state = (.ok (), previous)) :
    replay undo (log ++ [last]) state = replay undo log previous := by
  unfold replay
  rw [reverse_append, reverse_singleton, singleton_append, runAll, undone]

theorem replay_concat_of_error {error : ε} (failed : undo last state = (.error error, previous)) :
    replay undo (log ++ [last]) state = (.error error, previous) := by
  unfold replay
  rw [reverse_append, reverse_singleton, singleton_append, runAll, failed]

variable (undo) (Similar : γ → σ → σ → Prop) (blank : γ) (initial : σ)

/-- Replaying the log from any state that agrees with the current one off the covered
places gives the initial state. -/
def Rewinds (log : List entry) (covered : γ) (current : σ) : Prop :=
  ∀ state, Similar covered state current →
    ∃ restored, replay undo log state = (.ok (), restored) ∧ Similar blank restored initial

variable {undo Similar blank initial} {covered wider : γ} {current next : σ}

theorem rewinds_nil (widens : ∀ state, Similar covered state current →
    Similar blank state initial) : Rewinds undo Similar blank initial [] covered current :=
  fun state similar => ⟨state, rfl, widens state similar⟩

/-- A logged step: its entry leads back to the state before it. -/
theorem Rewinds.concat (rewinds : Rewinds undo Similar blank initial log covered current)
    (inverts : ∀ state, Similar wider state next →
      ∃ previous, undo last state = (.ok (), previous) ∧ Similar covered previous current) :
    Rewinds undo Similar blank initial (log ++ [last]) wider next := by
  intro state similar
  obtain ⟨previous, undone, close⟩ := inverts state similar
  obtain ⟨restored, replayed, same⟩ := rewinds previous close
  exact ⟨restored, (replay_concat_of_ok undone).trans replayed, same⟩

/-- A step that is not logged: whatever resembles the new state resembles the old one. -/
theorem Rewinds.unlogged (rewinds : Rewinds undo Similar blank initial log covered current)
    (covers : ∀ state, Similar wider state next → Similar covered state current) :
    Rewinds undo Similar blank initial log wider next :=
  fun state similar => rewinds state (covers state similar)

end Logs

section Journals

variable {κ α ν : Type} [Ord κ] [TransOrd κ]

/-- The journal with the first value of one more place. -/
def journalize (journal : BTreeMap κ α) (key : κ) (first : α) : BTreeMap κ α :=
  if key ∈ journal then journal else journal.insert key first

/-- What the journal knows of a place, and the current value elsewhere. -/
def remembered (journal : BTreeMap κ α) (current : κ → α) (key : κ) : α :=
  journal[key]?.getD (current key)

/-- The journal holds initial values, and places it does not hold were not written. -/
def Records (journal : BTreeMap κ α) (initial current : κ → α) : Prop :=
  ∀ key, remembered journal current key = initial key ∧ (key ∉ journal → current key = initial key)

variable {journal : BTreeMap κ α} {initial current next : κ → α} {key : κ}

theorem records_empty : Records (∅ : BTreeMap κ α) initial initial := by
  intro key
  simp [remembered]

theorem Records.recall_eq (records : Records journal initial current) :
    remembered journal current = initial :=
  funext fun key => (records key).1

variable [LawfulEqOrd κ] {map : BTreeMap κ ν} {entries : List (κ × Option ν)} {log : List (κ × ν)}

/-- A place may be written once its first value is in the journal. -/
theorem Records.journalize (records : Records journal initial current)
    (elsewhere : ∀ other, other ≠ key → next other = current other) :
    Records (Lib.journalize journal key (current key)) initial next := by
  classical
  intro other
  unfold Lib.journalize
  by_cases known : key ∈ journal
  · rw [if_pos known]
    by_cases here : other = key
    · subst here
      obtain ⟨_, found⟩ := mem_iff_exists.mp known
      have recalled := (records other).1
      simp only [remembered, found] at recalled ⊢
      exact ⟨recalled, fun missing => absurd known missing⟩
    · have old := records other
      simp only [remembered, elsewhere other here] at old ⊢
      exact old
  · rw [if_neg known]
    by_cases here : other = key
    · subst here
      simp only [remembered, getElem?_insert]
      exact ⟨(records other).2 known, fun missing => absurd (by simp) missing⟩
    · have old := records other
      have apart : ¬key = other := fun same => here same.symm
      simp only [remembered, elsewhere other here, getElem?_insert, if_neg apart] at old ⊢
      refine ⟨old.1, fun missing => old.2 fun member => missing ?_⟩
      exact ExtTreeMap.mem_insert.mpr (.inr member)

/-- Writes of earlier values back into a map, an absent value by erasing. -/
def restoreEntries (entries : List (κ × Option ν)) (map : BTreeMap κ ν) : BTreeMap κ ν :=
  entries.foldl (fun map entry => match entry.2 with
    | some value => map.insert entry.1 value
    | none => map.erase entry.1) map

theorem getElem?_restoreEntries_of_not_mem (missing : ∀ entry ∈ entries, entry.1 ≠ key) :
    (restoreEntries entries map)[key]? = map[key]? := by
  classical
  unfold restoreEntries
  induction entries generalizing map with
  | nil => rfl
  | cons entry entries ih =>
    have apart : ¬entry.1 = key := missing entry mem_cons_self
    rw [foldl_cons, ih fun other member => missing other (mem_cons_of_mem _ member)]
    cases entry.2 with
    | none => rw [getElem?_erase, if_neg apart]
    | some => rw [getElem?_insert, if_neg apart]

theorem getElem?_restoreEntries_of_mem {value : Option ν} (distinct : (entries.map Prod.fst).Nodup)
    (member : (key, value) ∈ entries) : (restoreEntries entries map)[key]? = value := by
  induction entries generalizing map with
  | nil => cases member
  | cons entry entries ih =>
    rw [map_cons, nodup_cons] at distinct
    rcases mem_cons.mp member with rfl | member
    · have later : ∀ entry ∈ entries, entry.1 ≠ key := by
        rintro entry present rfl
        exact distinct.1 (mem_map.mpr ⟨entry, present, rfl⟩)
      change (restoreEntries entries (restoreEntries [(key, value)] map))[key]? = value
      rw [getElem?_restoreEntries_of_not_mem later]
      cases value with
      | none | some value => simp [restoreEntries]
    · exact ih distinct.2 member

/-- Restoring a map from its journal brings every place back to what the journal recalls. -/
theorem getElem?_restoreEntries_journal {journal : BTreeMap κ (Option ν)} :
    (restoreEntries journal.toList map)[key]? = remembered journal (fun key => map[key]?) key := by
  unfold remembered
  cases found : journal[key]? with
  | none =>
    apply getElem?_restoreEntries_of_not_mem
    rintro ⟨_, _⟩ member rfl
    rw [mem_toList_iff] at member
    rw [member] at found
    cases found
  | some =>
    apply getElem?_restoreEntries_of_mem
    · rw [ExtTreeMap.map_fst_toList_eq_keys]
      exact ExtTreeMap.nodup_keys
    · exact mem_toList found

section Patches

variable [DecidableEq ν] {base after : BTreeMap κ ν} {staged : BTreeMap κ (Option ν)}
  {changes : BTreeMap κ (Option ν × Option ν)} {side : Option ν × Option ν → Option ν}

/-- Staged values with those that they replace. -/
def stage (base : BTreeMap κ ν) (staged : BTreeMap κ (Option ν)) :
    BTreeMap κ (Option ν × Option ν) :=
  staged.map fun key value => (base[key]?, value)

/-- The map with the values on one side of a patch. -/
def applyChanges (side : Option ν × Option ν → Option ν)
    (changes : BTreeMap κ (Option ν × Option ν)) (map : BTreeMap κ ν) : BTreeMap κ ν :=
  restoreEntries (changes.map fun _ change => side change).toList map

/-- The map has the values on one side of a patch. -/
def matchesChanges (side : Option ν × Option ν → Option ν)
    (changes : BTreeMap κ (Option ν × Option ν)) (map : BTreeMap κ ν) : Bool :=
  changes.toList.all fun entry => map[entry.1]? == side entry.2

/-- The values of another map where it differs from the base. -/
def differences (base after : BTreeMap κ ν) : BTreeMap κ (Option ν) :=
  writeAll ∅ (((base.keys ++ after.keys).filter fun key => base[key]? ≠ after[key]?).map
    fun key => (key, after[key]?))

omit [DecidableEq ν] in
theorem getElem?_applyChanges :
    (applyChanges side changes map)[key]? = (changes[key]?.map side).getD map[key]? := by
  rw [applyChanges, getElem?_restoreEntries_journal, remembered, ExtTreeMap.getElem?_map]

theorem matchesChanges_eq_true_iff : matchesChanges side changes map = true ↔
    ∀ (key : κ) change, changes[key]? = some change → map[key]? = side change := by
  simp only [matchesChanges, all_eq_true, beq_iff_eq, Prod.forall, mem_toList_iff]

theorem getElem?_differences :
    (differences base after)[key]? =
      if base[key]? = after[key]? then none else some after[key]? := by
  classical
  rw [differences, getElem?_writeAll fun key => some after[key]?]
  · simp only [map_map, Function.comp_def, map_id', List.mem_filter, mem_append,
      ExtTreeMap.mem_keys, decide_eq_true_eq]
    by_cases same : base[key]? = after[key]?
    · simp [same]
    · have known : key ∈ base ∨ key ∈ after := by
        by_contra unknown
        rw [not_or] at unknown
        rw [ExtTreeMap.getElem?_eq_none unknown.1, ExtTreeMap.getElem?_eq_none unknown.2] at same
        exact same rfl
      simp [same, known]
  · intro entry member
    obtain ⟨_, _, rfl⟩ := mem_map.mp member
    rfl

/-- A patch of the differences leads from one map to the other. -/
theorem applyChanges_snd_differences :
    applyChanges Prod.snd (stage base (differences base after)) base = after := by
  apply ExtTreeMap.ext_getElem?
  intro key
  rw [getElem?_applyChanges, stage, ExtTreeMap.getElem?_map, getElem?_differences]
  split
  case isTrue same => exact same
  case isFalse => rfl

theorem applyChanges_fst_differences :
    applyChanges Prod.fst (stage base (differences base after)) after = base := by
  apply ExtTreeMap.ext_getElem?
  intro key
  rw [getElem?_applyChanges, stage, ExtTreeMap.getElem?_map, getElem?_differences]
  split
  case isTrue same => exact same.symm
  case isFalse => rfl

theorem matchesChanges_fst_stage : matchesChanges Prod.fst (stage base staged) base = true := by
  rw [matchesChanges_eq_true_iff]
  intro key change found
  rw [stage, ExtTreeMap.getElem?_map, Option.map_eq_some_iff] at found
  obtain ⟨_, _, rfl⟩ := found
  rfl

theorem matchesChanges_snd_differences :
    matchesChanges Prod.snd (stage base (differences base after)) after = true := by
  rw [matchesChanges_eq_true_iff]
  intro key change found
  rw [stage, ExtTreeMap.getElem?_map, getElem?_differences] at found
  split at found
  · cases found
  · cases found
    rfl

end Patches

/-- The last value that a log of writes gives a place. -/
def lastWritten [DecidableEq κ] (log : List (κ × ν)) (key : κ) : Option ν :=
  (log.reverse.find? fun entry => entry.1 = key).map Prod.snd

omit [Ord κ] [TransOrd κ] [LawfulEqOrd κ] in
theorem lastWritten_concat [DecidableEq κ] {last : κ × ν} :
    lastWritten (log ++ [last]) key =
      if last.1 = key then some last.2 else lastWritten log key := by
  unfold lastWritten
  rw [reverse_append, reverse_singleton, singleton_append, find?_cons]
  by_cases same : last.1 = key <;> simp [same]

/-- A journal writes every place once. -/
theorem lastWritten_toList [DecidableEq κ] {journal : BTreeMap κ ν} :
    lastWritten journal.toList key = journal[key]? := by
  unfold lastWritten
  cases first : journal.toList.reverse.find? fun entry => entry.1 = key with
  | none =>
    cases found : journal[key]? with
    | none => rfl
    | some value =>
      have absent := find?_eq_none.mp first (key, value)
        (mem_reverse.mpr (mem_toList found))
      exact absurd (decide_eq_true rfl) absent
  | some entry =>
    have same : entry.1 = key := by simpa using find?_some first
    have member := mem_reverse.mp (mem_of_find?_eq_some first)
    rw [Option.map_some, ← same, ← mem_toList_iff.mp member]

/-- Writing a log back, front to end, leaves the last value of every place. -/
theorem getElem?_foldl_insert [DecidableEq κ] :
    (log.foldl (fun map entry => map.insert entry.1 entry.2) map)[key]? =
      (lastWritten log key).or map[key]? := by
  induction log using reverseRecOn with
  | nil => rfl
  | append_singleton log last ih =>
    rw [foldl_append, foldl_cons, foldl_nil, getElem?_insert, ih, lastWritten_concat]
    split <;> rfl

theorem getElem?_foldl_erase [DecidableEq κ] {keys : List κ} :
    (keys.foldl (·.erase ·) map)[key]? = if key ∈ keys then none else map[key]? := by
  induction keys generalizing map with
  | nil => simp
  | cons first keys ih =>
    rw [foldl_cons, ih, getElem?_erase]
    by_cases later : key ∈ keys
    · simp [later]
    · by_cases same : first = key
      · simp [same]
      · simp [same, Ne.symm same]

end Journals

end BoonCircuit.Lib
