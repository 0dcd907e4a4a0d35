import BoonCircuit.Persistence.Batches

/-!
# Authority kinds

A memory is used as a scalar, as a list, by map instances or by set instances.
`validate_authority_kinds_disjoint` accepts exactly the images that use every
memory in at most one of these ways.
-/

namespace BoonCircuit.Persistence

open Lib Checks RestoreImage Std.ExtTreeMap

/-- The image uses the memory as an authority of the kind. -/
def RestoreImage.Uses (image : RestoreImage) (memoryId : MemoryId) : AuthorityKind → Prop
  | .scalar => memoryId ∈ image.scalars
  | .list => memoryId ∈ image.lists
  | .map => ∃ collectionId ∈ image.maps, collectionId.memoryId = memoryId
  | .set => ∃ collectionId ∈ image.sets, collectionId.memoryId = memoryId

/-- The image uses the memory as no other kind. -/
def RestoreImage.Free (image : RestoreImage) (memoryId : MemoryId) (kind : AuthorityKind) : Prop :=
  ∀ other, image.Uses memoryId other → other = kind

/-- Every memory has at most one authority kind. -/
def KindsOk (image : RestoreImage) : Prop :=
  ∀ memoryId left right, image.Uses memoryId left → image.Uses memoryId right → left = right

variable {memoryId : MemoryId} {kind : AuthorityKind}

theorem contains_scalar_iff {image : RestoreImage} :
    image.scalars.contains memoryId = true ↔ image.Uses memoryId .scalar :=
  contains_iff_mem

theorem contains_list_iff {image : RestoreImage} :
    image.lists.contains memoryId = true ↔ image.Uses memoryId .list :=
  contains_iff_mem

theorem hasMapMemory_iff {image : RestoreImage} :
    image.hasMapMemory memoryId = true ↔ image.Uses memoryId .map := by
  simp [hasMapMemory, Uses]

theorem hasSetMemory_iff {image : RestoreImage} :
    image.hasSetMemory memoryId = true ↔ image.Uses memoryId .set := by
  simp [hasSetMemory, Uses]

theorem mem_authorityUses_iff {image : RestoreImage} :
    (memoryId, kind) ∈ image.authorityUses ↔ image.Uses memoryId kind := by
  cases kind <;> simp [authorityUses, Uses, mem_keys]

namespace RestoreImage

variable {image : RestoreImage} {memoryId : MemoryId}

theorem free_iff :
    image.Free memoryId kind ↔ (image.Uses memoryId .scalar → .scalar = kind) ∧
      (image.Uses memoryId .list → .list = kind) ∧ (image.Uses memoryId .map → .map = kind) ∧
        (image.Uses memoryId .set → .set = kind) := by
  constructor
  · exact fun free => ⟨free _, free _, free _, free _⟩
  · rintro ⟨scalar, list, map, set⟩ (_ | _ | _ | _)
    exacts [scalar, list, map, set]

theorem free_scalar_iff :
    image.Free memoryId .scalar ↔ ¬ (image.lists.contains memoryId || image.hasMapMemory memoryId ||
      image.hasSetMemory memoryId) = true := by
  simp [free_iff, Uses, hasMapMemory, hasSetMemory, and_assoc]

theorem free_list_iff :
    image.Free memoryId .list ↔ ¬ (image.scalars.contains memoryId ||
      image.hasMapMemory memoryId || image.hasSetMemory memoryId) = true := by
  simp [free_iff, Uses, hasMapMemory, hasSetMemory, and_assoc]

theorem free_map_iff :
    image.Free memoryId .map ↔ ¬ (image.scalars.contains memoryId ||
      image.lists.contains memoryId || image.hasSetMemory memoryId) = true := by
  simp [free_iff, Uses, hasSetMemory, and_assoc]

theorem free_set_iff :
    image.Free memoryId .set ↔ ¬ (image.scalars.contains memoryId ||
      image.lists.contains memoryId || image.hasMapMemory memoryId) = true := by
  simp [free_iff, Uses, hasMapMemory, and_assoc]

end RestoreImage

theorem recordKind_eq_ok_iff {kinds next : BTreeMap MemoryId AuthorityKind}
    {use : MemoryId × AuthorityKind} :
    recordKind kinds use = .ok next ↔
      (∀ previous, kinds[use.1]? = some previous → previous = use.2) ∧
        kinds.insert use.1 use.2 = next := by
  rw [recordKind, check_bind_eq_ok_iff, forSome_eq_ok_iff]
  simp [invalidAuthority]

theorem foldlM_recordKind_eq_ok_iff {uses : List (MemoryId × AuthorityKind)} :
    ∀ {kinds : BTreeMap MemoryId AuthorityKind},
      (∃ final, uses.foldlM recordKind kinds = .ok final) ↔
        (∀ use ∈ uses, ∀ previous, kinds[use.1]? = some previous → previous = use.2) ∧
          ∀ left ∈ uses, ∀ right ∈ uses, left.1 = right.1 → left.2 = right.2 := by
  induction uses with
  | nil =>
    intro kinds
    simp
  | cons use uses ih =>
    intro kinds
    have split : (∃ final, (use :: uses).foldlM recordKind kinds = .ok final) ↔
        (∀ previous, kinds[use.1]? = some previous → previous = use.2) ∧
          ∃ final, uses.foldlM recordKind (kinds.insert use.1 use.2) = .ok final := by
      simp only [List.foldlM_cons, bind_eq_ok_iff, recordKind_eq_ok_iff]
      constructor
      · rintro ⟨final, _, ⟨agrees, rfl⟩, rest⟩
        exact ⟨agrees, final, rest⟩
      · rintro ⟨agrees, final, rest⟩
        exact ⟨final, _, ⟨agrees, rfl⟩, rest⟩
    rw [split, ih]
    simp only [BTreeMap.getElem?_insert, List.forall_mem_cons]
    constructor
    · rintro ⟨first, rest, consistent⟩
      have agrees : ∀ other ∈ uses, use.1 = other.1 → use.2 = other.2 := by
        intro other member same
        exact rest other member use.2 (if_pos same)
      refine ⟨⟨first, ?_⟩, ⟨fun _ => trivial, agrees⟩, ?_⟩
      · intro other member previous recorded
        by_cases same : use.1 = other.1
        · rw [← same] at recorded
          exact (first previous recorded).trans (agrees other member same)
        · exact rest other member previous (by rw [if_neg same]; exact recorded)
      · intro other member
        exact ⟨fun same => (agrees other member same.symm).symm, consistent other member⟩
    · rintro ⟨⟨first, rest⟩, ⟨_, agrees⟩, consistent⟩
      refine ⟨first, ?_, fun left member => (consistent left member).2⟩
      intro other member previous recorded
      split at recorded
      · cases recorded
        exact agrees other member ‹_›
      · exact rest other member previous recorded

/-- Validation accepts exactly the images with one kind for each memory. -/
theorem validateAuthorityKindsDisjoint_eq_ok_iff {image : RestoreImage} :
    validateAuthorityKindsDisjoint image = .ok () ↔ KindsOk image := by
  rw [validateAuthorityKindsDisjoint, discard_eq_ok_iff, foldlM_recordKind_eq_ok_iff]
  constructor
  · rintro ⟨_, consistent⟩ memoryId left right usedLeft usedRight
    exact consistent _ (mem_authorityUses_iff.mpr usedLeft) _
      (mem_authorityUses_iff.mpr usedRight) rfl
  · intro kinds
    refine ⟨by simp, ?_⟩
    rintro ⟨memoryId, left⟩ leftMember ⟨_, right⟩ rightMember rfl
    exact kinds memoryId left right (mem_authorityUses_iff.mp leftMember)
      (mem_authorityUses_iff.mp rightMember)

theorem KindsOk.mono {image next : RestoreImage} (kinds : KindsOk image)
    (kept : ∀ memoryId kind, next.Uses memoryId kind → image.Uses memoryId kind) :
    KindsOk next := by
  intro memoryId left right usedLeft usedRight
  exact kinds memoryId left right (kept _ _ usedLeft) (kept _ _ usedRight)

theorem KindsOk.add {image next : RestoreImage} {added : Option (MemoryId × AuthorityKind)}
    (kinds : KindsOk image) (kept : ∀ memoryId kind, next.Uses memoryId kind →
      image.Uses memoryId kind ∨ added = some (memoryId, kind))
    (free : ∀ memoryId kind, added = some (memoryId, kind) → image.Free memoryId kind) :
    KindsOk next := by
  intro memoryId left right usedLeft usedRight
  rcases kept _ _ usedLeft with oldLeft | newLeft
  · rcases kept _ _ usedRight with oldRight | newRight
    · exact kinds memoryId left right oldLeft oldRight
    · exact free memoryId right newRight left oldLeft
  · rcases kept _ _ usedRight with oldRight | newRight
    · exact (free memoryId left newLeft right oldRight).symm
    · cases newLeft.symm.trans newRight
      rfl

end BoonCircuit.Persistence
