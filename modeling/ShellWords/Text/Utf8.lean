import ShellWords.Text.Basic

/-! Texts as the bytes of their UTF-8 form. -/

namespace ShellWords.Text

def toUtf8 (text : Text) : ByteArray :=
  (String.ofList text).toUTF8

/-- The text whose UTF-8 form some bytes are. -/
def ofUtf8? (bytes : ByteArray) : Option Text :=
  (String.fromUTF8? bytes).map String.toList

theorem ofUtf8?_toUtf8 (text : Text) : ofUtf8? (toUtf8 text) = some text := by
  rw [ofUtf8?, toUtf8, String.toUTF8_eq_toByteArray, String.fromUTF8?,
    dif_pos (String.ofList text).isValidUTF8]
  exact congrArg some String.toList_ofList

end ShellWords.Text
