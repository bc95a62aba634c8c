/-!
# UTF-8

The bytes of a text, and the text that some bytes spell. A `String` is by definition valid UTF-8,
so both directions are changes of view.
-/

namespace TypeLang.Text

def toUtf8 (s : String) : List UInt8 :=
  s.toByteArray.data.toList

def ofUtf8? (bytes : List UInt8) : Option String :=
  String.fromUTF8? ⟨bytes.toArray⟩

@[simp] theorem length_toUtf8 (s : String) : (toUtf8 s).length = s.utf8ByteSize := rfl

@[simp] theorem ofUtf8?_toUtf8 (s : String) : ofUtf8? (toUtf8 s) = some s := by
  simp [ofUtf8?, toUtf8, String.fromUTF8?, s.isValidUTF8, String.fromUTF8]

theorem toUtf8_of_ofUtf8? {bytes : List UInt8} {s : String} (h : ofUtf8? bytes = some s) :
    toUtf8 s = bytes := by
  simp only [ofUtf8?, String.fromUTF8?] at h
  split at h
  · simp only [Option.some.injEq] at h
    subst h
    simp [toUtf8, String.fromUTF8]
  · simp at h

end TypeLang.Text
