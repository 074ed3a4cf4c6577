import DomainAuction.Bytes.Endian

/-!
# Utf8 — text as bytes

A text and its UTF-8 bytes determine each other: `ofUtf8?` reads exactly the byte strings that
`utf8` writes.
-/

namespace DomainAuction

/-- The UTF-8 bytes of a text. -/
def utf8 (text : String) : Bytes :=
  text.toUTF8.data.toList

/-- The text with the given UTF-8 bytes, if they are valid. -/
def ofUtf8? (bytes : Bytes) : Option String :=
  String.fromUTF8? ⟨bytes.toArray⟩

theorem utf8_inj {s t : String} (h : utf8 s = utf8 t) : s = t := by
  rw [← String.toByteArray_inj]
  have h' : s.toByteArray.data = t.toByteArray.data := Array.toList_inj.1 h
  cases hs : s.toByteArray
  cases ht : t.toByteArray
  simp_all

theorem ofUtf8?_eq_some_iff {bytes : Bytes} {text : String} :
    ofUtf8? bytes = some text ↔ utf8 text = bytes := by
  unfold ofUtf8? String.fromUTF8?
  constructor
  · intro h
    split at h
    · cases h
      simp [utf8, String.fromUTF8]
    · cases h
  · rintro rfl
    have e : ByteArray.mk (utf8 text).toArray = text.toByteArray := by simp [utf8]
    rw [dif_pos (e ▸ text.isValidUTF8)]
    simp only [Option.some.injEq]
    apply String.toByteArray_inj.1
    simpa [String.fromUTF8] using e

end DomainAuction
