import SentinelGRC.Audit.Log
import SentinelGRC.Python.TextLines

/-! Files of lines that are only ever appended to: their text, the text after one more
line, and whether the last line is ended. -/

namespace SentinelGRC.Audit

open Python

variable {file : File}

/-- The text of a file, which is empty when there is no file. -/
def fileText : File → Except PyError Text
  | none => .ok []
  | some bytes => readText bytes

/-- The text after a line was written at the end. -/
theorem fileText_append {text line : Text} {bytes : Bytes} (h : fileText file = .ok text)
    (hbytes : encodeUtf8 (line ++ lit "\n") = .ok bytes) (hline : ∀ c ∈ line, 0x20 ≤ c.val)
    (hne : line ≠ []) :
    fileText (some (file.getD [] ++ bytes)) = .ok (text ++ (line ++ [0xA])) := by
  have hend : lit "\n" = [0xA] := by decide
  rw [hend] at hbytes
  have hreturn : ∀ c ∈ line ++ [0xA], c.val ≠ 0xD := by
    intro c hc
    rcases List.mem_append.mp hc with hc | hc
    · have := hline c hc
      omega
    · obtain rfl := List.mem_singleton.mp hc
      decide
  have hhead : ∀ c ∈ (line ++ [0xA]).head?, c.val ≠ 0xA := by
    obtain ⟨d, rest, rfl⟩ := List.exists_cons_of_ne_nil hne
    intro c hc
    obtain rfl : d = c := by simpa using hc
    have := hline d List.mem_cons_self
    omega
  have hold : ∃ old, decodeUtf8 (file.getD []) = .ok old ∧ universalNewlines old = text := by
    cases file with
    | none => exact ⟨[], decodeUtf8_encodeUtf8 rfl, Except.ok.inj h⟩
    | some bytes =>
      obtain ⟨old, hold, h⟩ := bind_eq_ok.mp h
      exact ⟨old, hold, Except.ok.inj h⟩
  obtain ⟨old, hold, rfl⟩ := hold
  rw [fileText, readText, decodeUtf8_append hold hbytes]
  change Except.ok (universalNewlines _) = _
  rw [universalNewlines_append old _ hreturn hhead]

/-- The file ends its last line. -/
def Ended (file : File) : Prop := ∃ text, fileText file = .ok text ∧ Terminated text

/-- Whatever is written to the file next begins a new line. -/
def BreaksLine (file : File) : Prop := ∃ text, fileText file = .ok text ∧ EndsLine text

theorem Ended.breaksLine (h : Ended file) : BreaksLine file := by
  obtain ⟨text, htext, hterminated⟩ := h
  exact ⟨text, htext, hterminated.endsLine⟩

theorem ended_none : Ended none := ⟨[], rfl, .inl rfl⟩

end SentinelGRC.Audit
