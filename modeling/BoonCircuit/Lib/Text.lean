import BoonCircuit.Lib.Order

/-!
# UTF-8 text as bytes

Text is compared, measured and written through its UTF-8 bytes.  Reading
accepts exactly the byte strings that some text produces.
-/

namespace BoonCircuit.Lib.Text

open Std

/-- The UTF-8 bytes of a text. -/
def utf8Bytes (text : String) : List UInt8 :=
  text.toUTF8.data.toList

/-- Strict UTF-8 validation. -/
def fromUtf8 (bytes : List UInt8) : Option String :=
  String.fromUTF8? ⟨bytes.toArray⟩

theorem utf8Bytes_injective : Function.Injective utf8Bytes := by
  intro left right same
  apply String.toByteArray_inj.mp
  apply ByteArray.ext
  exact Array.toList_inj.mp same

@[simp]
theorem utf8Bytes_inj {left right : String} : utf8Bytes left = utf8Bytes right ↔ left = right :=
  utf8Bytes_injective.eq_iff

/-- Validation accepts exactly the bytes of the returned text. -/
theorem fromUtf8_eq_some_iff {bytes : List UInt8} {text : String} :
    fromUtf8 bytes = some text ↔ bytes = utf8Bytes text := by
  constructor
  · intro accepted
    unfold fromUtf8 String.fromUTF8? at accepted
    split at accepted
    · rw [← Option.some.inj accepted]
      rfl
    · cases accepted
  · rintro rfl
    unfold fromUtf8 String.fromUTF8?
    exact dif_pos text.isValidUTF8

/-- Byte-lexicographic comparison of texts. -/
def compareText (left right : String) : Ordering :=
  compare (utf8Bytes left) (utf8Bytes right)

theorem compareText_eq_iff {left right : String} : compareText left right = .eq ↔ left = right := by
  rw [compareText, LawfulEqCmp.compare_eq_iff_eq, utf8Bytes_inj]

instance : TransCmp compareText where
  eq_swap := by
    unfold compareText
    exact OrientedCmp.eq_swap
  isLE_trans := by
    unfold compareText
    exact TransCmp.isLE_trans

end BoonCircuit.Lib.Text
