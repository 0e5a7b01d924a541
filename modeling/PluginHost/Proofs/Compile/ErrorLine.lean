import PluginHost.Compile.Diagnostic
import PluginHost.Proofs.Json.Numeral
import PluginHost.Proofs.Text.Blank
import PluginHost.Proofs.Text.Slice
/-!
Lines in which a compiler writes an error.

What stands in such a line is read back, and a reader that would come to a halt at a position where no character
begins gives the same answers, so it never does. Main statement: `ofErrorLine?_exact`.
-/

namespace PluginHost

open Text

/-! Numbers. -/

/-- A digit is neither a blank nor one of the marks around a position. -/
theorem Text.isBlank_of_mem_ofNat {n : Nat} {c : Char} (hc : c ∈ ofNat n) : isBlank c = false := by
  have hdigit := Json.isDigit_of_mem_ofNat hc
  simp only [Char.isDigit, Bool.and_eq_true, decide_eq_true_eq, UInt32.le_iff_toNat_le] at hdigit
  have hlow : 48 ≤ c.toNat := hdigit.1
  have hhigh : c.toNat ≤ 57 := hdigit.2
  simp only [isBlank, Bool.or_eq_false_iff, Bool.and_eq_false_iff, decide_eq_false_iff_not, beq_eq_false_iff_ne]
  omega

theorem Text.natBelow?_ofNat {n bound : Nat} (hn : n < bound) : natBelow? bound (ofNat n) = some n := by
  have hdigits : digits? (ofNat n) = some n := by
    have hne : (ofNat n).isEmpty = false := by simpa using Json.ofNat_ne_nil n
    have hall : (ofNat n).all Char.isDigit = true := List.all_eq_true.mpr fun c hc => Json.isDigit_of_mem_ofNat hc
    rw [digits?, hne, hall, Json.ofDigitChars_ofNat]
    rfl
  unfold natBelow?
  split
  · next rest hplus =>
    have hdigit := Json.isDigit_of_mem_ofNat (hplus ▸ List.mem_cons_self : '+' ∈ ofNat n)
    exact absurd hdigit (by decide)
  · dsimp only
    rw [hdigits, Option.filter_some, if_pos (by simpa using hn)]

namespace Diagnostic

variable {file code message : String} {line column : UInt32}

/-- What stands in the parentheses of a position. -/
def positionText (line column : UInt32) : List Char := ofNat line.toNat ++ ',' :: ofNat column.toNat

/-- The line in which an error is written. -/
def errorLine (file : String) (line column : UInt32) (code message : String) : String :=
  file ++ "(" ++ String.ofList (positionText line column) ++ "): error " ++ code ++ ": " ++ message

theorem coordinate?_ofNat (n : UInt32) : coordinate? (ofNat n.toNat) = some n := by
  have htrim : trim (ofNat n.toNat) = ofNat n.toNat :=
    trim_eq_self_iff.mpr (trimmed_of_forall fun c hc => isBlank_of_mem_ofNat hc)
  rw [coordinate?, htrim, natBelow?_ofNat n.toNat_lt_size, Option.map_some, UInt32.ofNat_toNat]

/-- No mark stands in a position but the comma. -/
theorem not_mem_positionText {c : Char} (hdigit : c.isDigit = false) (hcomma : c ≠ ',') :
    c ∉ positionText line column := by
  have hnumber : ∀ n, c ∉ ofNat n := fun n hc => by
    rw [Json.isDigit_of_mem_ofNat hc] at hdigit
    cases hdigit
  simp [positionText, hnumber, hcomma]

theorem splitOnP_positionText :
    (positionText line column).splitOnP (· = ',') = [ofNat line.toNat, ofNat column.toNat] := by
  have hnumber : ∀ n, (ofNat n).splitOnP (· = ',') = [ofNat n] := fun n =>
    List.splitOnP_eq_singleton fun c hc => by
      rw [decide_eq_false_iff_not]
      rintro rfl
      exact absurd (Json.isDigit_of_mem_ofNat hc) (by decide)
  rw [positionText, List.splitOnP_append_cons _ _ (by decide), hnumber, hnumber]
  rfl

theorem place_positionText (hfile : Trimmed file.toList) :
    place (file.toList ++ '(' :: (positionText line column ++ [')'])) = (some file, some line, some column) := by
  have hcut : cutLast? '(' (file.toList ++ '(' :: (positionText line column ++ [')'])) =
      some (file.toList, positionText line column ++ [')']) := by
    refine cutLast?_eq_some_iff.mpr ⟨rfl, ?_⟩
    simp [not_mem_positionText]
  have hlast : (file.toList ++ '(' :: (positionText line column ++ [')'])).getLast? = some ')' := by
    simp [List.getLast?_append, List.getLast?_cons]
  rw [place, if_pos hlast, hcut]
  simp only [List.dropLast_concat, splitOnP_positionText, trim_eq_self_iff.mpr hfile, String.ofList_toList]
  simp [coordinate?_ofNat]

/-- A code without spaces ends at the first colon and space. -/
theorem codeAndMessage_append (hcode : ' ' ∉ code.toList) (hmessage : Trimmed message.toList) :
    codeAndMessage (code.toList ++ [':', ' '] ++ message.toList) = (some code, message) := by
  have hcut : cutFirst? [':', ' '] (code.toList ++ [':', ' '] ++ message.toList) =
      some (code.toList, message.toList) := by
    refine (cutFirst?_eq_some_iff (List.cons_ne_nil _ _)).mpr ⟨rfl, fun hwithin => ?_⟩
    have hspace : ' ' ∈ code.toList ++ [':'] := hwithin.subset (by simp)
    simp [hcode] at hspace
  rw [codeAndMessage, hcut]
  simp [hcode, trim_eq_self_iff.mpr hmessage]

theorem toList_errorLine :
    (errorLine file line column code message).toList =
      file.toList ++ '(' :: (positionText line column ++ ')' :: (": error ".toList ++
        (code.toList ++ [':', ' '] ++ message.toList))) := by
  simp [errorLine]

/-- The first `: error ` stands behind the position. -/
theorem cutFirst?_errorLine (hfile : ¬ ": error ".toList <:+: file.toList) :
    cutFirst? ": error ".toList (errorLine file line column code message).toList =
      some (file.toList ++ '(' :: (positionText line column ++ [')']),
        code.toList ++ [':', ' '] ++ message.toList) := by
  have hseparator : ": error ".toList ≠ [] := by decide
  have hposition : cutFirst? ": error ".toList (positionText line column) = none := by
    refine cutFirst?_eq_none_iff.mpr fun hwithin => ?_
    exact not_mem_positionText (by decide) (by decide) (hwithin.subset (by decide : ' ' ∈ ": error ".toList))
  have herror : ∀ text, cutFirst? ": error ".toList (": error ".toList ++ text) = some ([], text) := fun text =>
    (cutFirst?_eq_some_iff hseparator).mpr ⟨rfl, fun hwithin => absurd hwithin.length_le (by simp)⟩
  rw [toList_errorLine, cutFirst?_append_mark hseparator (by decide) (cutFirst?_eq_none_iff.mpr hfile),
    cutFirst?_append_mark hseparator (by decide) hposition, herror]
  rfl

theorem ofErrorLine?_errorLine (hfile : Trimmed file.toList) (hunmarked : ¬ ": error ".toList <:+: file.toList)
    (hcode : ' ' ∉ code.toList) (hmessage : Trimmed message.toList) :
    ofErrorLine? (errorLine file line column code message) =
      some ⟨some file, some line, some column, some code, message⟩ := by
  rw [ofErrorLine?, cutFirst?_errorLine hunmarked, Option.map_some]
  simp only [place_positionText hfile, codeAndMessage_append hcode hmessage]

/-! The reader with accesses that can go wrong. -/

/-- The file of a text without a position. -/
def wholePlace (head : List Char) : Option String × Option UInt32 × Option UInt32 :=
  let file := trim head
  (if file.isEmpty then none else some (String.ofList file), none, none)

/-- Reads a file and its position in the same steps as `place`. There is no result if a step goes wrong: if a part of
    the text is asked for that is not there, or if a position comes to lie before the start. -/
def place? (head : List Char) : Option (Option String × Option UInt32 × Option UInt32) :=
  match lastPosition? '(' head with
  | none => some (wholePlace head)
  | some opening =>
    if head.getLast? = some ')' then do
      let closing ← Nat.psub (byteCount head) 1
      let position ← slice? head (opening + 1) closing
      let file ← slice? head 0 opening
      let parts := position.splitOnP (· = ',')
      return (some (String.ofList (trim file)), parts[0]?.bind coordinate?, parts[1]?.bind coordinate?)
    else some (wholePlace head)

/-- Reads a line in the same steps as `ofErrorLine?`. There is no result if a step goes wrong. -/
def readErrorLine? (line : String) : Option (Option Diagnostic) :=
  match cutFirst? ": error ".toList line.toList with
  | none => some none
  | some (head, text) =>
    (place? head).map fun (file, row, column) =>
      let (code, message) := codeAndMessage text
      some ⟨file, row, column, code, message⟩

/-- An opening parenthesis lies before the closing one at the end, and both take one byte. -/
theorem place?_eq (head : List Char) : place? head = some (place head) := by
  rw [place?, place, lastPosition?]
  cases hcut : cutLast? '(' head with
  | none =>
    rw [Option.map_none]
    dsimp only
    split <;> rfl
  | some parts =>
    obtain ⟨file, position⟩ := parts
    obtain ⟨rfl, hafter⟩ := cutLast?_eq_some_iff.mp hcut
    rw [Option.map_some]
    dsimp only
    split
    · next hlast =>
      -- The last character is not the opening parenthesis, so something stands behind that.
      obtain ⟨inner, rfl⟩ := exists_concat_of_getLast?_mark (by decide) hlast
      have hclosing : Nat.psub (byteCount (file ++ '(' :: (inner ++ [')']))) 1 =
          some (byteCount (file ++ '(' :: inner)) := by
        rw [← List.cons_append, ← List.append_assoc]
        exact psub_byteCount_concat _ rfl
      have hposition : slice? (file ++ '(' :: (inner ++ [')'])) (byteCount file + 1)
          (byteCount (file ++ '(' :: inner)) = some inner := slice?_enclosed file inner '(' ')'
      have hfile : slice? (file ++ '(' :: (inner ++ [')'])) 0 (byteCount file) = some file := slice?_zero _ _
      rw [hclosing, Option.bind_eq_bind, Option.bind_some, hposition, Option.bind_eq_bind, Option.bind_some, hfile]
      rw [List.dropLast_concat]
      rfl
    · rfl

theorem readErrorLine?_eq (line : String) : readErrorLine? line = some (ofErrorLine? line) := by
  rw [readErrorLine?, ofErrorLine?]
  cases cutFirst? ": error ".toList line.toList with
  | none => rfl
  | some parts =>
    dsimp only
    rw [place?_eq]
    rfl

theorem ofErrorLine?_eq_none_iff {line : String} :
    ofErrorLine? line = none ↔ ¬ ": error ".toList <:+: line.toList := by
  rw [ofErrorLine?, Option.map_eq_none_iff, cutFirst?_eq_none_iff]

/-- File, position, code and message of an error are read back from the line in which they are written, if the file
    and the message have no blanks at their ends, the file has no `: error ` in it, and the code has no spaces. In no
    line whatever does a step go wrong, and exactly the lines without `: error ` hold no error. -/
theorem ofErrorLine?_exact :
    (∀ (file code message : String) (line column : UInt32), Trimmed file.toList →
      ¬ ": error ".toList <:+: file.toList → ' ' ∉ code.toList → Trimmed message.toList →
        ofErrorLine? (errorLine file line column code message) =
          some ⟨some file, some line, some column, some code, message⟩) ∧
    ∀ line, readErrorLine? line = some (ofErrorLine? line) ∧
      (ofErrorLine? line = none ↔ ¬ ": error ".toList <:+: line.toList) :=
  ⟨fun _ _ _ _ _ => ofErrorLine?_errorLine, fun line => ⟨readErrorLine?_eq line, ofErrorLine?_eq_none_iff⟩⟩

/-- Parentheses in a file and the mark of an error in a message do not mislead the reader, and a position that is not
    closed or lies behind characters of several bytes does not stop it. -/
theorem ofErrorLine?_parentheses :
    ofErrorLine? (errorLine "src (x86)/jump.cs" 12 5 "CS1002" "; expected: error (1,2): error") =
      some ⟨some "src (x86)/jump.cs", some 12, some 5, some "CS1002", "; expected: error (1,2): error"⟩ ∧
    readErrorLine? "größe(ä,7): error CS1002: ö" =
      some (some ⟨some "größe", none, some 7, some "CS1002", "ö"⟩) ∧
    readErrorLine? "größe(: error ö" = some (some ⟨some "größe(", none, none, none, "ö"⟩) ∧
    ofErrorLine? "größe(1,2): warning" = none := by
  obtain ⟨hwritten, hany⟩ := ofErrorLine?_exact
  refine ⟨hwritten "src (x86)/jump.cs" "CS1002" "; expected: error (1,2): error" 12 5 ?_ ?_ ?_ ?_, ?_, ?_, ?_⟩
  · exact trim_eq_self_iff.mp (by decide +kernel)
  · decide +kernel
  · decide +kernel
  · exact trim_eq_self_iff.mp (by decide +kernel)
  · rw [(hany _).1]
    decide +kernel
  · rw [(hany _).1]
    decide +kernel
  · exact (hany _).2.mpr (by decide +kernel)

end Diagnostic

end PluginHost
