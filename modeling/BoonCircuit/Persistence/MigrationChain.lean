import BoonCircuit.Lib.Checks
import BoonCircuit.Lib.Search
import BoonCircuit.Persistence.Types

/-!
# Migration chains

A stored image is migrated along a chain of catalog edges.  The search for it is a
backtracking recursion that stops at the second chain.  Over a validated catalog it
ends, and it tells apart whether there is no chain, exactly one or more.  How a recipe is
validated and how an edge identity is hashed are parameters.
-/

namespace BoonCircuit.Persistence

open Lib Checks Search List Nat

abbrev MigrationRecipeId : Type := Digest

structure MigrationRecipePlan (τ : Type) where
  migrationRecipeId : MigrationRecipeId
  transfers : List τ

structure MigrationEdgePlan where
  migrationEdgeId : MigrationEdgeId
  sourceSchemaVersion : UInt64
  targetSchemaVersion : UInt64
  sourceSchemaHash : Digest
  migrationRecipeId : MigrationRecipeId
  deriving DecidableEq

structure PersistencePlan (τ : Type) where
  schemaVersion : UInt64
  schemaHash : Digest
  migrationRecipes : List (MigrationRecipePlan τ)
  currentMigrationRecipeId : Option MigrationRecipeId
  migrationEdges : List MigrationEdgePlan

/-- What an edge binds; no two edges of a catalog bind the same. -/
def MigrationEdgePlan.predecessorBinding (edge : MigrationEdgePlan) : UInt64 × Digest × UInt64 :=
  (edge.sourceSchemaVersion, edge.sourceSchemaHash, edge.targetSchemaVersion)

section Validation

variable {τ : Type} (validateRecipe : MigrationRecipePlan τ → Except String Unit)
variable (fromSchemaTransition :
  UInt64 → UInt64 → Digest → MigrationRecipeId → Except String MigrationEdgeId)

def validateCatalogRecipe (recipeIds : List MigrationRecipeId) (recipe : MigrationRecipePlan τ) :
    Except String (List MigrationRecipeId) := do
  validateRecipe recipe
  reject (recipe.migrationRecipeId ∈ recipeIds) "migration catalog contains a duplicate recipe ID"
  pure (recipe.migrationRecipeId :: recipeIds)

def validateCatalogEdge (schemaVersion : UInt64) (recipeIds : List MigrationRecipeId)
    (predecessorBindings : List (UInt64 × Digest × UInt64)) (edge : MigrationEdgePlan) :
    Except String (List (UInt64 × Digest × UInt64)) := do
  let fault := "migration catalog edge is not a canonical forward predecessor binding"
  reject (edge.sourceSchemaVersion = 0 ∨ edge.targetSchemaVersion ≤ edge.sourceSchemaVersion ∨
    schemaVersion < edge.targetSchemaVersion ∨ edge.migrationRecipeId ∉ recipeIds) fault
  let migrationEdgeId ← fromSchemaTransition edge.sourceSchemaVersion edge.targetSchemaVersion
    edge.sourceSchemaHash edge.migrationRecipeId
  reject (edge.migrationEdgeId ≠ migrationEdgeId) fault
  reject (edge.predecessorBinding ∈ predecessorBindings)
    "migration catalog binds the same predecessor more than once"
  pure (edge.predecessorBinding :: predecessorBindings)

def validateMigrationCatalog (persistence : PersistencePlan τ) : Except String Unit := do
  let recipeIds ← persistence.migrationRecipes.foldlM (validateCatalogRecipe validateRecipe) []
  forSome persistence.currentMigrationRecipeId fun current =>
    reject (current ∉ recipeIds) "current migration recipe ID is absent from the recipe catalog"
  discard (persistence.migrationEdges.foldlM
    (validateCatalogEdge fromSchemaTransition persistence.schemaVersion recipeIds) [])

end Validation

/-- The errors of the search. -/
inductive MigrationError where
  | unsupportedSource (version : UInt64) (schemaHash : Digest)
  | ambiguousChain (version : UInt64) (schemaHash : Digest)
  deriving DecidableEq

section Paths

variable (edges : List MigrationEdgePlan) (targetVersion : UInt64) (targetHash : Digest)

/-- The hashes that a schema of the given version may have. -/
def sourceHashes (version : UInt64) : BTreeSet Digest :=
  ((edges.filter (·.sourceSchemaVersion == version)).map (·.sourceSchemaHash)).foldl (·.insert ·) ∅

/-- The edges that lead from a schema towards the target. -/
def outgoingEdges (version : UInt64) (schemaHash : Digest) : List MigrationEdgePlan :=
  edges.filter fun edge => edge.sourceSchemaVersion == version &&
    edge.sourceSchemaHash == schemaHash && decide (edge.targetSchemaVersion ≤ targetVersion)

/-- The search beyond one edge. -/
def collectBeyondEdge
    (collect : UInt64 → Digest → Search MigrationEdgePlan → Option (Search MigrationEdgePlan))
    (edge : MigrationEdgePlan) (search : Search MigrationEdgePlan) :
    Option (Search MigrationEdgePlan) :=
  if edge.targetSchemaVersion = targetVersion then collect targetVersion targetHash search
  else (sourceHashes edges edge.targetSchemaVersion).toList.foldlM
    (fun search nextHash => collect edge.targetSchemaVersion nextHash search) search

/-- The search from one schema; it needs one unit of fuel per nested call. -/
def collectMigrationPaths : Nat → UInt64 → Digest → Search MigrationEdgePlan →
    Option (Search MigrationEdgePlan)
  | 0, _, _, _ => none
  | fuel + 1, version, schemaHash, search =>
    if 1 < search.paths.length then some search
    else if version = targetVersion then
      some (if schemaHash = targetHash then search.record else search)
    else
      (outgoingEdges edges targetVersion version schemaHash).foldlM
        (fun search edge => (collectBeyondEdge edges targetVersion targetHash
          (collectMigrationPaths fuel) edge (search.push edge)).map pop) search

end Paths

def migrationChain {τ : Type} (fuel : Nat) (stored : RestoreImage)
    (persistence : PersistencePlan τ) : Option (Except MigrationError (List MigrationEdgePlan)) :=
  if stored.schemaVersion = persistence.schemaVersion then
    some (if stored.schemaHash = persistence.schemaHash then .ok []
      else .error (.unsupportedSource stored.schemaVersion stored.schemaHash))
  else
    (collectMigrationPaths persistence.migrationEdges persistence.schemaVersion
      persistence.schemaHash fuel stored.schemaVersion stored.schemaHash ⟨[], []⟩).map
    fun search =>
      match search.paths with
      | [] => .error (.unsupportedSource stored.schemaVersion stored.schemaHash)
      | [chain] => .ok chain
      | _ => .error (.ambiguousChain stored.schemaVersion stored.schemaHash)

/-- Catalog edges from a schema to the target version, each of which begins at the version where
the one before it ends. -/
inductive MigrationChain (edges : List MigrationEdgePlan) (targetVersion : UInt64) :
    UInt64 → Digest → List MigrationEdgePlan → Prop
  | last {edge : MigrationEdgePlan} (listed : edge ∈ edges)
      (reaches : edge.targetSchemaVersion = targetVersion) :
      MigrationChain edges targetVersion edge.sourceSchemaVersion edge.sourceSchemaHash [edge]
  | step {edge : MigrationEdgePlan} {nextHash : Digest} {rest : List MigrationEdgePlan}
      (listed : edge ∈ edges)
      (onwards : MigrationChain edges targetVersion edge.targetSchemaVersion nextHash rest) :
      MigrationChain edges targetVersion edge.sourceSchemaVersion edge.sourceSchemaHash
        (edge :: rest)

/-- A chain of the plan that starts at the schema of the stored image. -/
def PersistencePlan.ChainFor {τ : Type} (persistence : PersistencePlan τ) (stored : RestoreImage) :
    List MigrationEdgePlan → Prop :=
  MigrationChain persistence.migrationEdges persistence.schemaVersion stored.schemaVersion
    stored.schemaHash

/-- What a validated catalog guarantees for its edges. -/
structure ForwardEdges (edges : List MigrationEdgePlan) (targetVersion : UInt64) : Prop where
  forward : ∀ edge ∈ edges, edge.sourceSchemaVersion < edge.targetSchemaVersion
  bounded : ∀ edge ∈ edges, edge.targetSchemaVersion ≤ targetVersion
  nodup : edges.Nodup

section Chains

variable {edges : List MigrationEdgePlan} {targetVersion version : UInt64}
variable {targetHash schemaHash : Digest} {chain : List MigrationEdgePlan}
  {fromSchemaTransition : UInt64 → UInt64 → Digest → MigrationRecipeId →
    Except String MigrationEdgeId}

theorem forwardEdges_of_foldlM {recipeIds : List MigrationRecipeId}
    {bindings final : List (UInt64 × Digest × UInt64)}
    (validated : edges.foldlM (validateCatalogEdge fromSchemaTransition targetVersion recipeIds)
      bindings = .ok final) :
    ForwardEdges edges targetVersion ∧ ∀ edge ∈ edges, edge.predecessorBinding ∉ bindings := by
  induction edges generalizing bindings with
  | nil => exact ⟨⟨by simp, by simp, .nil⟩, by simp⟩
  | cons edge edges ih =>
    rw [foldlM_cons, bind_eq_ok_iff] at validated
    rcases validated with ⟨_, checked, validated⟩
    simp only [validateCatalogEdge, bind_eq_ok_iff, reject_eq_ok_iff, pure_eq_ok_iff, not_or,
      UInt64.not_le, UInt64.not_lt] at checked
    rcases checked with ⟨_, ⟨_, forward, bounded, _⟩, _, _, _, _, _, unbound, rfl⟩
    rcases ih validated with ⟨rest, apart⟩
    simp only [mem_cons, not_or] at apart
    refine ⟨⟨?_, ?_, ?_⟩, ?_⟩
    · exact forall_mem_cons.mpr ⟨forward, rest.forward⟩
    · exact forall_mem_cons.mpr ⟨bounded, rest.bounded⟩
    · exact nodup_cons.mpr ⟨fun member => (apart edge member).1 rfl, rest.nodup⟩
    · exact forall_mem_cons.mpr ⟨unbound, fun other member => (apart other member).2⟩

theorem forwardEdges_of_validateMigrationCatalog {τ : Type}
    {validateRecipe : MigrationRecipePlan τ → Except String Unit} {persistence : PersistencePlan τ}
    (validated : validateMigrationCatalog validateRecipe fromSchemaTransition persistence = .ok ())
    : ForwardEdges persistence.migrationEdges persistence.schemaVersion := by
  simp only [validateMigrationCatalog, bind_eq_ok_iff, discard_eq_ok_iff] at validated
  rcases validated with ⟨_, _, _, _, _, validated⟩
  exact (forwardEdges_of_foldlM validated).1

/-- What may follow an edge. -/
def ChainBeyond (edges : List MigrationEdgePlan) (targetVersion : UInt64)
    (edge : MigrationEdgePlan) (rest : List MigrationEdgePlan) : Prop :=
  edge.targetSchemaVersion = targetVersion ∧ rest = [] ∨
    ∃ nextHash, MigrationChain edges targetVersion edge.targetSchemaVersion nextHash rest

theorem migrationChain_iff_cons :
    MigrationChain edges targetVersion version schemaHash chain ↔
      ∃ edge ∈ edges, (edge.sourceSchemaVersion = version ∧ edge.sourceSchemaHash = schemaHash) ∧
        ∃ rest, ChainBeyond edges targetVersion edge rest ∧ edge :: rest = chain := by
  constructor
  · rintro (⟨listed, reaches⟩ | ⟨listed, onwards⟩)
    · exact ⟨_, listed, ⟨rfl, rfl⟩, [], .inl ⟨reaches, rfl⟩, rfl⟩
    · exact ⟨_, listed, ⟨rfl, rfl⟩, _, .inr ⟨_, onwards⟩, rfl⟩
  · rintro ⟨edge, listed, ⟨rfl, rfl⟩, rest, ⟨reaches, rfl⟩ | ⟨_, onwards⟩, rfl⟩
    · exact .last listed reaches
    · exact .step listed onwards

theorem MigrationChain.mem_sourceHashes
    (chained : MigrationChain edges targetVersion version schemaHash chain) :
    schemaHash ∈ sourceHashes edges version := by
  rcases migrationChain_iff_cons.mp chained with ⟨edge, listed, starts, _⟩
  simp only [sourceHashes, BTreeSet.mem_foldl_insert, mem_map, mem_filter, beq_iff_eq]
  exact .inr ⟨edge, ⟨listed, starts.1⟩, starts.2⟩

theorem MigrationChain.hash_eq {other : Digest}
    (chained : MigrationChain edges targetVersion version schemaHash chain)
    (again : MigrationChain edges targetVersion version other chain) : schemaHash = other := by
  rcases migrationChain_iff_cons.mp chained with ⟨_, _, ⟨_, rfl⟩, _, _, rfl⟩
  rcases migrationChain_iff_cons.mp again with ⟨_, _, ⟨_, rfl⟩, _, _, same⟩
  cases same
  rfl

theorem ForwardEdges.not_chain (forward : ForwardEdges edges targetVersion) :
    ¬ MigrationChain edges targetVersion targetVersion schemaHash chain := by
  intro chained
  rcases migrationChain_iff_cons.mp chained with ⟨edge, listed, ⟨starts, _⟩, _⟩
  have later := UInt64.lt_of_lt_of_le (forward.forward edge listed) (forward.bounded edge listed)
  exact UInt64.ne_of_lt later starts

/-- The chains from a schema, where the target itself needs none. -/
def Migrates (edges : List MigrationEdgePlan) (targetVersion : UInt64) (targetHash : Digest)
    (version : UInt64) (schemaHash : Digest) (chain : List MigrationEdgePlan) : Prop :=
  version = targetVersion ∧ schemaHash = targetHash ∧ chain = [] ∨
    MigrationChain edges targetVersion version schemaHash chain

theorem finds_collectBeyondEdge (forward : ForwardEdges edges targetVersion)
    {collect : UInt64 → Digest → Search MigrationEdgePlan → Option (Search MigrationEdgePlan)}
    {edge : MigrationEdgePlan}
    (finds : ∀ nextHash, Finds 2 (collect edge.targetSchemaVersion nextHash)
      (Migrates edges targetVersion targetHash edge.targetSchemaVersion nextHash)) :
    Finds 2 (collectBeyondEdge edges targetVersion targetHash collect edge)
      (ChainBeyond edges targetVersion edge) := by
  unfold collectBeyondEdge
  by_cases reaches : edge.targetSchemaVersion = targetVersion
  · simp only [reaches]
    rw [← reaches]
    apply (finds targetHash).congr
    intro path
    simp [Migrates, ChainBeyond, reaches, forward.not_chain]
  · simp only [reaches]
    refine (Finds.foldlM (fun nextHash _ => finds nextHash) ?_).congr ?_
    · apply BTreeSet.nodup_toList.imp
      intro first second apart path here there
      simp only [Migrates, reaches, false_and, false_or] at here there
      exact apart (here.hash_eq there)
    · intro path
      simp only [Migrates, reaches, false_and, false_or, ChainBeyond]
      constructor
      · rintro ⟨nextHash, _, chained⟩
        exact ⟨nextHash, chained⟩
      · rintro ⟨nextHash, chained⟩
        exact ⟨nextHash, by simpa using chained.mem_sourceHashes, chained⟩

variable (version schemaHash) in
theorem finds_outgoingEdges (forward : ForwardEdges edges targetVersion)
    (beyond : MigrationEdgePlan → Search MigrationEdgePlan → Option (Search MigrationEdgePlan))
    (finds : ∀ edge ∈ edges, edge.sourceSchemaVersion = version →
      Finds 2 (beyond edge) (ChainBeyond edges targetVersion edge)) :
    Finds 2 ((outgoingEdges edges targetVersion version schemaHash).foldlM fun search edge =>
        (beyond edge (search.push edge)).map pop)
      (MigrationChain edges targetVersion version schemaHash) := by
  have member (edge : MigrationEdgePlan) :
      edge ∈ outgoingEdges edges targetVersion version schemaHash ↔ edge ∈ edges ∧
        edge.sourceSchemaVersion = version ∧ edge.sourceSchemaHash = schemaHash := by
    simp only [outgoingEdges, mem_filter, Bool.and_eq_true, beq_iff_eq, decide_eq_true_eq]
    exact ⟨fun ⟨listed, starts, _⟩ => ⟨listed, starts⟩,
      fun ⟨listed, starts⟩ => ⟨listed, starts, forward.bounded edge listed⟩⟩
  have each (edge : MigrationEdgePlan)
      (outgoing : edge ∈ outgoingEdges edges targetVersion version schemaHash) :=
    (finds edge ((member edge).mp outgoing).1 ((member edge).mp outgoing).2.1).visit edge
  refine (Finds.foldlM each ?_).congr fun path => ?_
  · apply (forward.nodup.filter _).imp
    rintro _ _ apart path ⟨_, _, rfl⟩ ⟨_, _, same⟩
    exact apart (List.cons.inj same).1.symm
  · simp only [migrationChain_iff_cons, member, and_assoc]

theorem finds_collectMigrationPaths (forward : ForwardEdges edges targetVersion) {fuel : Nat} :
    ∀ {version schemaHash}, version ≤ targetVersion →
      targetVersion.toNat - version.toNat < fuel →
      Finds 2 (collectMigrationPaths edges targetVersion targetHash fuel version schemaHash)
        (Migrates edges targetVersion targetHash version schemaHash) := by
  -- each nested call starts at a later version
  induction fuel with
  | zero => exact fun _ enough => absurd enough (not_lt_zero _)
  | succ fuel ih =>
    intro version schemaHash below enough
    have full : ∀ search : Search MigrationEdgePlan, 2 ≤ search.paths.length →
        collectMigrationPaths edges targetVersion targetHash (fuel + 1) version schemaHash search =
          some search := by
      intro search full
      rw [collectMigrationPaths, if_pos (lt_of_succ_le full)]
    by_cases reached : version = targetVersion
    · by_cases same : schemaHash = targetHash
      · refine (finds_record full fun search room => ?_).congr fun path => ?_
        · simp [collectMigrationPaths, not_lt.mpr (le_of_lt_succ room), reached, same]
        · simp [Migrates, reached, same, forward.not_chain]
      · refine (finds_none.stopping full fun search room => ?_).congr fun path => ?_
        · simp [collectMigrationPaths, reached, same]
        · simp [Migrates, reached, same, forward.not_chain]
    · refine ((finds_outgoingEdges version schemaHash forward (collectBeyondEdge edges
        targetVersion targetHash (collectMigrationPaths edges targetVersion targetHash fuel))
        fun edge listed starts => ?_).stopping full fun search room => ?_).congr fun path => ?_
      · have bounded := forward.bounded edge listed
        have later := UInt64.lt_iff_toNat_lt.mp (forward.forward edge listed)
        have within := UInt64.le_iff_toNat_le.mp bounded
        subst starts
        exact finds_collectBeyondEdge forward fun nextHash => ih bounded (by omega)
      · rw [collectMigrationPaths, if_neg (not_lt.mpr (le_of_lt_succ room)), if_neg reached]
      · simp [Migrates, reached]

end Chains

/-- Over a validated catalog the search ends.  It returns a chain exactly when that chain is the
only one, and it tells whether there is none or more than one. -/
theorem migrationChain_iff_only_chain {τ : Type}
    (validateRecipe : MigrationRecipePlan τ → Except String Unit) (fromSchemaTransition :
      UInt64 → UInt64 → Digest → MigrationRecipeId → Except String MigrationEdgeId)
    (persistence : PersistencePlan τ) (stored : RestoreImage)
    (validated : validateMigrationCatalog validateRecipe fromSchemaTransition persistence = .ok ())
    (below : stored.schemaVersion < persistence.schemaVersion) :
    ∃ enough, ∀ fuel, enough ≤ fuel → ∃ outcome,
      migrationChain fuel stored persistence = some outcome ∧
      (∀ chain, outcome = .ok chain ↔ persistence.ChainFor stored chain ∧
        ∀ other, persistence.ChainFor stored other → other = chain) ∧
      (outcome = .error (.unsupportedSource stored.schemaVersion stored.schemaHash) ↔
        ∀ chain, ¬ persistence.ChainFor stored chain) ∧
      (outcome = .error (.ambiguousChain stored.schemaVersion stored.schemaHash) ↔
        ∃ chain other, persistence.ChainFor stored chain ∧ persistence.ChainFor stored other ∧
          chain ≠ other) := by
  have forward := forwardEdges_of_validateMigrationCatalog validated
  have different : stored.schemaVersion ≠ persistence.schemaVersion := UInt64.ne_of_lt below
  refine ⟨persistence.schemaVersion.toNat - stored.schemaVersion.toNat + 1, fun fuel enough => ?_⟩
  have finds : Finds 2 (collectMigrationPaths persistence.migrationEdges
      persistence.schemaVersion persistence.schemaHash fuel stored.schemaVersion stored.schemaHash)
      (persistence.ChainFor stored) :=
    (finds_collectMigrationPaths forward (UInt64.le_of_lt below) enough).congr fun chain => by
      simp [Migrates, PersistencePlan.ChainFor, different]
  rcases finds.paths with ⟨paths, ran, empty, only, many⟩
  simp only [migrationChain, if_neg different, ran, Option.map_some, Option.some.injEq,
    exists_eq_left', ← empty, ← only, ← many]
  rcases paths with _ | ⟨chain, _ | ⟨other, _⟩⟩ <;> simp

/-- A catalog with a direct edge and a detour. -/
def twoRoutesPlan : PersistencePlan Unit where
  schemaVersion := 3
  schemaHash := .ofByte 3
  migrationRecipes := [⟨.ofByte 4, []⟩]
  currentMigrationRecipeId := none
  migrationEdges := [⟨.ofByte 13, 1, 3, .ofByte 1, .ofByte 4⟩,
    ⟨.ofByte 12, 1, 2, .ofByte 1, .ofByte 4⟩, ⟨.ofByte 23, 2, 3, .ofByte 2, .ofByte 4⟩]

theorem migrationChain_twoRoutes_ambiguous :
    ∃ enough, ∀ fuel, enough ≤ fuel →
      migrationChain fuel (.empty ⟨"app", "state", "local"⟩ 1 (.ofByte 1)) twoRoutesPlan =
        some (.error (.ambiguousChain 1 (.ofByte 1))) := by
  obtain ⟨enough, ends⟩ := migrationChain_iff_only_chain (fun _ => .ok ())
    (fun source target _ _ => .ok (.ofByte (10 * source + target).toUInt8)) twoRoutesPlan
    (.empty ⟨"app", "state", "local"⟩ 1 (.ofByte 1)) (by decide) (by decide)
  refine ⟨enough, fun fuel more => ?_⟩
  obtain ⟨_, ran, _, _, ambiguous⟩ := ends fuel more
  have detour : twoRoutesPlan.ChainFor (.empty ⟨"app", "state", "local"⟩ 1 (.ofByte 1)) _ :=
    .step (mem_cons_of_mem _ mem_cons_self)
      (.last (mem_cons_of_mem _ (mem_cons_of_mem _ mem_cons_self)) rfl)
  rw [ran, ambiguous.mpr ⟨_, _, .last mem_cons_self rfl, detour, by simp⟩]
  rfl

end BoonCircuit.Persistence
