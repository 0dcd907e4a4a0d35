import BoonCircuit.Lib.BigEndian

/-!
# Self-delimiting byte codes

A code is self-delimiting when a byte stream that starts with a code word
determines the coded item and the rest of the stream.  Counts are written with
a fixed number of bytes, so the laws speak about streams that are short enough
for every count inside them to fit.

Concatenations of self-delimiting codes are undone piece by piece with
`SelfDelimiting.peel`; a list needs its count in front of it.  `DelimitedAt` is the
law at one item, for codes that are defined by recursion.
-/

namespace BoonCircuit.Lib.PrefixCode

open List

variable {width : Nat} {α β : Type}

/-- A count, truncated to the width of a count field. -/
def countBytes (width count : Nat) : List UInt8 :=
  BigEndian.toFixedBytes width count

/-- A stream in which every count fits its field. -/
def Short (width : Nat) (stream : List UInt8) : Prop :=
  stream.length < 256 ^ width

theorem Short.of_append {front rest : List UInt8} (short : Short width (front ++ rest)) :
    Short width rest := by
  unfold Short at *
  rw [length_append] at short
  omega

theorem Short.front {front rest : List UInt8} (short : Short width (front ++ rest)) :
    Short width front := by
  unfold Short at *
  rw [length_append] at short
  omega

/-- A short stream that starts with this code word starts with no other item. -/
def DelimitedAt (width : Nat) (code : α → List UInt8) (left : α) : Prop :=
  ∀ right leftRest rightRest, Short width (code left ++ leftRest) →
    code left ++ leftRest = code right ++ rightRest → left = right ∧ leftRest = rightRest

/-- Equal short streams that start with code words start with the same item. -/
def SelfDelimiting (width : Nat) (code : α → List UInt8) : Prop :=
  ∀ left, DelimitedAt width code left

variable {code first : α → List UInt8} {leftRest rightRest : List UInt8} {tag : UInt8}
  {second : β → List UInt8} {right left : α}

theorem DelimitedAt.peel (delimited : DelimitedAt width code left)
    (short : Short width (code left ++ leftRest))
    (same : code left ++ leftRest = code right ++ rightRest) :
    left = right ∧ leftRest = rightRest ∧ Short width leftRest := by
  rcases delimited right leftRest rightRest short same with ⟨items, rests⟩
  exact ⟨items, rests, short.of_append⟩

/-- Removes one code word together with a tag byte that both streams share. -/
theorem DelimitedAt.tagged (delimited : DelimitedAt width code left)
    (short : Short width ([tag] ++ code left ++ leftRest))
    (same : [tag] ++ code left ++ leftRest = [tag] ++ code right ++ rightRest) :
    left = right ∧ leftRest = rightRest := by
  rw [append_assoc] at short
  rw [append_assoc] at same
  exact delimited right leftRest rightRest short.of_append (append_cancel_left same)

/-- A constructor and its payload, behind the tag byte of the constructor. -/
theorem DelimitedAt.variant {wrap : α → β}
    (delimited : DelimitedAt width code left) (short : Short width ([tag] ++ code left ++ leftRest))
    (same : [tag] ++ code left ++ leftRest = [tag] ++ code right ++ rightRest) :
    wrap left = wrap right ∧ leftRest = rightRest :=
  And.imp_left (congrArg wrap) (delimited.tagged short same)

theorem DelimitedAt.pair {pair : α × β} (firstDelimited : DelimitedAt width first pair.1)
    (secondDelimited : DelimitedAt width second pair.2) :
    DelimitedAt width (fun item => first item.1 ++ second item.2) pair := by
  intro right leftRest rightRest short same
  simp only [append_assoc] at short same
  rcases firstDelimited.peel short same with ⟨firsts, same, short⟩
  rcases secondDelimited.peel short same with ⟨seconds, rests, _⟩
  exact ⟨Prod.ext firsts seconds, rests⟩

/-- Two lists of one length are undone item by item. -/
theorem DelimitedAt.flatMap :
    ∀ {lefts rights : List α} {leftRest rightRest : List UInt8},
      (∀ left ∈ lefts, DelimitedAt width code left) →
      lefts.length = rights.length → Short width (lefts.flatMap code ++ leftRest) →
      lefts.flatMap code ++ leftRest = rights.flatMap code ++ rightRest →
      lefts = rights ∧ leftRest = rightRest := by
  intro lefts
  induction lefts with
  | nil =>
    intro rights leftRest rightRest _ counts _ same
    rw [length_nil, eq_comm, length_eq_zero_iff] at counts
    subst counts
    exact ⟨rfl, same⟩
  | cons left lefts ih =>
    intro rights leftRest rightRest delimited counts short same
    cases rights with
    | nil => cases counts
    | cons =>
      rw [flatMap_cons, append_assoc] at short
      rw [flatMap_cons, flatMap_cons, append_assoc, append_assoc] at same
      rcases (delimited left mem_cons_self).peel short same
        with ⟨rfl, tails, tailShort⟩
      have later := fun item member => delimited item (mem_cons_of_mem left member)
      rcases ih later (Nat.succ.inj counts) tailShort tails with ⟨rfl, rests⟩
      exact ⟨rfl, rests⟩

namespace SelfDelimiting

variable {code : α → List UInt8}

/-- Removes one code word from the front of two equal streams. -/
theorem peel (delimiting : SelfDelimiting width code) (short : Short width (code left ++ leftRest))
    (same : code left ++ leftRest = code right ++ rightRest) :
    left = right ∧ leftRest = rightRest ∧ Short width leftRest :=
  (delimiting left).peel short same

theorem tagged (delimiting : SelfDelimiting width code) (left right : α)
    (short : Short width ([tag] ++ code left ++ leftRest))
    (same : [tag] ++ code left ++ leftRest = [tag] ++ code right ++ rightRest) :
    left = right ∧ leftRest = rightRest :=
  (delimiting left).tagged short same

/-- Whole streams determine their items. -/
theorem injective (delimiting : SelfDelimiting width code)
    (short : Short width (code left)) (same : code left = code right) : left = right := by
  apply (delimiting left right [] [] _ _).1
  · rwa [append_nil]
  · rw [same]

/-- Code words of one length are delimited by it. -/
theorem of_length (length : Nat) (sameLength : ∀ item, (code item).length = length)
    (inj : Function.Injective code) : SelfDelimiting width code := by
  intro left right leftRest rightRest _ same
  have words := append_inj same ((sameLength left).trans (sameLength right).symm)
  exact ⟨inj words.1, words.2⟩

/-- A self-delimiting code may be read off an injective view of the item. -/
theorem comp {code : β → List UInt8} (delimiting : SelfDelimiting width code) (view : α → β)
    (inj : Function.Injective view) : SelfDelimiting width fun item => code (view item) := by
  intro left right leftRest rightRest short same
  rcases delimiting.peel short same with ⟨views, rests, _⟩
  exact ⟨inj views, rests⟩

theorem pair
    (firstDelimiting : SelfDelimiting width first) (secondDelimiting : SelfDelimiting width second)
    : SelfDelimiting width fun item : α × β => first item.1 ++ second item.2 :=
  fun item => (firstDelimiting item.1).pair (secondDelimiting item.2)

end SelfDelimiting

/-- A count field determines the count when it fits. -/
theorem countBytes_peel {left right : Nat}
    (leftFits : left < 256 ^ width) (rightFits : right < 256 ^ width)
    (same : countBytes width left ++ leftRest = countBytes width right ++ rightRest) :
    left = right ∧ leftRest = rightRest := by
  have fields := append_inj same (by simp [countBytes])
  exact ⟨BigEndian.toFixedBytes_inj leftFits rightFits fields.1, fields.2⟩

/-- A byte string behind its length. -/
def framed (width : Nat) (bytes : List UInt8) : List UInt8 :=
  countBytes width bytes.length ++ bytes

theorem selfDelimiting_framed : SelfDelimiting width (framed width) := by
  intro left right leftRest rightRest short same
  have rightShort : Short width (framed width right ++ rightRest) := same ▸ short
  unfold framed at *
  rw [append_assoc] at short rightShort
  rw [append_assoc, append_assoc] at same
  rcases countBytes_peel short.of_append.front rightShort.of_append.front same
    with ⟨lengths, tails⟩
  exact append_inj tails lengths

/-- The code words of a list behind their count. -/
def counted (width : Nat) (code : α → List UInt8) (items : List α) : List UInt8 :=
  countBytes width items.length ++ items.flatMap code

theorem eq_flatMap {code : α → List β} {codes : List α → List β} (nil : codes [] = [])
    (cons : ∀ item items, codes (item :: items) = code item ++ codes items) (items : List α) :
    codes items = items.flatMap code := by
  induction items with
  | nil => exact nil
  | cons item items ih => rw [cons, ih, flatMap_cons]

/-- Nonempty code words are at least as many bytes as items. -/
theorem length_le_length_flatMap (nonempty : ∀ item, code item ≠ [])
    (items : List α) : items.length ≤ (items.flatMap code).length := by
  induction items with
  | nil => exact Nat.zero_le _
  | cons item =>
    have positive := length_pos_of_ne_nil (nonempty item)
    rw [flatMap_cons, length_append, length_cons]
    omega

theorem delimitedAt_counted {lefts : List α}
    (delimited : ∀ left ∈ lefts, DelimitedAt width code left) (nonempty : ∀ item, code item ≠ []) :
    DelimitedAt width (counted width code) lefts := by
  intro rights leftRest rightRest short same
  have rightShort : Short width (counted width code rights ++ rightRest) := same ▸ short
  unfold counted at *
  rw [append_assoc] at short rightShort
  rw [append_assoc, append_assoc] at same
  have leftFits := (length_le_length_flatMap nonempty lefts).trans_lt short.of_append.front
  have rightFits := (length_le_length_flatMap nonempty rights).trans_lt rightShort.of_append.front
  rcases countBytes_peel leftFits rightFits same with ⟨counts, tails⟩
  exact DelimitedAt.flatMap delimited counts short.of_append tails

theorem selfDelimiting_counted (delimiting : SelfDelimiting width code)
    (nonempty : ∀ item, code item ≠ []) : SelfDelimiting width (counted width code) :=
  fun _ => delimitedAt_counted (fun left _ => delimiting left) nonempty

/-- Without a count, a list is determined by the end of the stream. -/
theorem SelfDelimiting.flatMap_injective (delimiting : SelfDelimiting width code)
    (nonempty : ∀ item, code item ≠ []) :
    ∀ {lefts rights : List α}, Short width (lefts.flatMap code) →
      lefts.flatMap code = rights.flatMap code → lefts = rights := by
  intro lefts
  induction lefts with
  | nil =>
    intro rights _ same
    cases rights with
    | nil => rfl
    | cons right =>
      exact absurd (append_eq_nil_iff.mp same.symm).1 (nonempty right)
  | cons left lefts ih =>
    intro rights short same
    cases rights with
    | nil =>
      exact absurd (append_eq_nil_iff.mp same).1 (nonempty left)
    | cons =>
      rcases delimiting.peel short same with ⟨rfl, tails, tailShort⟩
      rw [ih tailShort tails]

/-- An optional item behind a presence byte. -/
def optional (code : α → List UInt8) : Option α → List UInt8
  | none => [0]
  | some item => 1 :: code item

theorem selfDelimiting_optional
    (delimiting : SelfDelimiting width code) : SelfDelimiting width (optional code) := by
  intro left right leftRest rightRest short same
  cases left with
  | none =>
    cases right with
    | none => exact ⟨rfl, tail_eq_of_cons_eq same⟩
    | some => exact absurd (head_eq_of_cons_eq same) (by decide)
  | some left =>
    cases right with
    | none => exact absurd (head_eq_of_cons_eq same) (by decide)
    | some =>
      have tailShort : Short width ([1] ++ (code left ++ leftRest)) := short
      rcases delimiting.peel tailShort.of_append (tail_eq_of_cons_eq same)
        with ⟨rfl, rests, _⟩
      exact ⟨rfl, rests⟩

end BoonCircuit.Lib.PrefixCode
