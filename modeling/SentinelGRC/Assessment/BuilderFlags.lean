import SentinelGRC.Assessment.Containers

/-!
The scanner of builder flags, one turn of its loop after the other. A turn takes a character,
or two with an escape, or changes from the blanks to a word and takes none; in the word it then
takes one. The scan ends within two turns for each character and gives back a suffix of what it
was given, from the first thing on that is not a flag.
-/

namespace SentinelGRC.Assessment

open Python

/-! ### The structural scanner -/

section Scan
variable {escape c d q : CodePoint} {phase : FlagPhase} {words : List Text} {buffer rest : Text}
  {blankOk : Bool}

/-- A character that is neither a blank nor a quote to the phase. -/
def Inside : FlagPhase → CodePoint → Prop
  | .spaces, _ => False
  | .word, c => isBuildkitWhitespace c = false ∧ c ∉ quotes
  | .quote q, c => c ≠ q

theorem not_space_of_mem_quotes (h : c ∈ quotes) : isBuildkitWhitespace c = false := by
  rcases List.mem_cons.mp h with rfl | h
  · rfl
  · rw [List.mem_singleton.mp h]
    rfl

theorem scan_nil : scanBuilderFlags escape phase words buffer blankOk [] =
    finishBuilderFlagScan words buffer blankOk := by
  cases phase <;> rfl

theorem scan_spaces_blank (h : isBuildkitWhitespace c = true) :
    scanBuilderFlags escape .spaces words buffer blankOk (c :: rest) =
      scanBuilderFlags escape .spaces words buffer blankOk rest := by
  cases rest <;> exact if_pos h

theorem scan_spaces_stop (h : isBuildkitWhitespace c = false) (hflag : ¬ lit "--" <+: c :: rest) :
    scanBuilderFlags escape .spaces words buffer blankOk (c :: rest) = (words, c :: rest) := by
  cases rest with
  | nil => exact if_neg (by simp [h])
  | cons d rest =>
    refine (if_neg (by simp [h])).trans (if_pos ?_)
    by_contra hboth
    push Not at hboth
    obtain ⟨rfl, rfl⟩ := hboth
    exact hflag (List.prefix_append [ofChar '-', ofChar '-'] rest)

/-- The hyphens of a flag are characters of its word. -/
theorem inside_hyphen : Inside .word (ofChar '-') := ⟨rfl, by decide⟩

theorem scan_word_stop (h : isBuildkitWhitespace c = true) (hbuffer : buffer = lit "--") :
    scanBuilderFlags escape .word words buffer blankOk (c :: rest) = (words, c :: rest) := by
  cases rest <;> exact (if_pos h).trans (if_pos hbuffer)

theorem scan_word_space (h : isBuildkitWhitespace c = true) (hbuffer : buffer ≠ lit "--") :
    scanBuilderFlags escape .word words buffer blankOk (c :: rest) =
      scanBuilderFlags escape .spaces
        (if blankOk ∨ buffer ≠ [] then words ++ [buffer] else words) [] false rest := by
  cases rest <;> exact (if_pos h).trans (if_neg hbuffer)

theorem scan_word_quote (h : c ∈ quotes) :
    scanBuilderFlags escape .word words buffer blankOk (c :: rest) =
      scanBuilderFlags escape (.quote c) words buffer true rest := by
  have hspace := not_space_of_mem_quotes h
  cases rest <;> exact (if_neg (by simp [hspace])).trans (if_pos h)

theorem scan_quote_close : scanBuilderFlags escape (.quote q) words buffer blankOk (q :: rest) =
    scanBuilderFlags escape .word words buffer blankOk rest := by
  cases rest <;> exact if_pos rfl

theorem scan_kept (h : Inside phase c) (hescape : c ≠ escape) :
    scanBuilderFlags escape phase words buffer blankOk (c :: rest) =
      scanBuilderFlags escape phase words (buffer ++ [c]) blankOk rest := by
  cases phase with
  | spaces => exact h.elim
  | word =>
    cases rest <;>
      exact (if_neg (by simp [h.1])).trans ((if_neg h.2).trans (if_neg hescape))
  | quote q => cases rest <;> exact (if_neg h).trans (if_neg hescape)

theorem scan_escaped (h : Inside phase escape) :
    scanBuilderFlags escape phase words buffer blankOk (escape :: d :: rest) =
      scanBuilderFlags escape phase words (buffer ++ [d]) blankOk rest := by
  cases phase with
  | spaces => exact h.elim
  | word => exact (if_neg (by simp [h.1])).trans ((if_neg h.2).trans (if_pos rfl))
  | quote q => exact (if_neg h).trans (if_pos rfl)

theorem scan_trailing (h : Inside phase escape) :
    scanBuilderFlags escape phase words buffer blankOk [escape] =
      finishBuilderFlagScan words buffer blankOk := by
  cases phase with
  | spaces => exact h.elim
  | word => exact (if_neg (by simp [h.1])).trans ((if_neg h.2).trans (if_pos rfl))
  | quote q => exact (if_neg h).trans (if_pos rfl)

/-- The change of phase before a flag. -/
theorem scan_spaces_flag (h : lit "--" <+: rest) :
    scanBuilderFlags escape .spaces words buffer blankOk rest =
      scanBuilderFlags escape .word words buffer blankOk rest := by
  obtain ⟨rest, rfl⟩ := h
  by_cases hescape : ofChar '-' = escape
  · subst hescape
    refine Eq.trans ?_ (scan_escaped inside_hyphen).symm
    exact (if_neg (by decide)).trans ((if_neg (by decide)).trans (if_pos rfl))
  · refine Eq.trans ?_ (scan_kept inside_hyphen hescape).symm
    exact (if_neg (by decide)).trans ((if_neg (by decide)).trans (if_neg hescape))

end Scan

/-! ### Turns -/

/-- `_BuilderFlagScanState`, less the argument and the escape character, which stay. -/
structure BuilderFlagScanState where
  words : List Text
  phase : FlagPhase
  buffer : Text
  blankOk : Bool
  position : ℕ

/-- A turn leaves a state, or ends the scan. -/
abbrev Turn := Except (List Text × Text) BuilderFlagScanState

variable (argument : Text) (escape : CodePoint)

/-- `_scan_builder_spaces`. -/
def scanBuilderSpaces (s : BuilderFlagScanState) (c : CodePoint) : Turn :=
  if isBuildkitWhitespace c then .ok { s with position := s.position + 1 }
  else if c ≠ ofChar '-' ∨ s.position + 1 = argument.length ∨
      argument[s.position + 1]? ≠ some (ofChar '-') then
    .error (s.words, argument.drop s.position)
  else .ok { s with phase := .word }

/-- The end of a turn within a word: an escape takes the character after it, if there is one. -/
def scanBuilderCharacter (s : BuilderFlagScanState) (c : CodePoint) (atEnd : FlagPhase) : Turn :=
  if c = escape then
    match argument[s.position + 1]? with
    | none => .ok { s with phase := atEnd, position := s.position + 1 }
    | some d => .ok { s with buffer := s.buffer ++ [d], position := s.position + 2 }
  else .ok { s with buffer := s.buffer ++ [c], position := s.position + 1 }

/-- `_scan_builder_word`. -/
def scanBuilderWord (s : BuilderFlagScanState) (c : CodePoint) : Turn :=
  if isBuildkitWhitespace c then
    if s.buffer = lit "--" then .error (s.words, argument.drop s.position)
    else
      let words := if s.blankOk ∨ s.buffer ≠ [] then s.words ++ [s.buffer] else s.words
      .ok ⟨words, .spaces, [], false, s.position + 1⟩
  else if c ∈ quotes then
    .ok { s with phase := .quote c, blankOk := true, position := s.position + 1 }
  else scanBuilderCharacter argument escape s c s.phase

/-- `_scan_builder_quote`. -/
def scanBuilderQuote (q : CodePoint) (s : BuilderFlagScanState) (c : CodePoint) : Turn :=
  if c = q then .ok { s with phase := .word, position := s.position + 1 }
  else scanBuilderCharacter argument escape s c .word

/-- `_BUILDER_FLAG_HANDLERS`. -/
def builderFlagHandler (s : BuilderFlagScanState) : CodePoint → Turn :=
  match s.phase with
  | .spaces => scanBuilderSpaces argument s
  | .word => scanBuilderWord argument escape s
  | .quote q => scanBuilderQuote argument escape q s

/-- The `while` of `_extract_builder_flags`, with a bound on its turns. -/
def builderFlagLoop : ℕ → BuilderFlagScanState → Option (List Text × Text)
  | turns, s =>
    match argument[s.position]?, turns with
    | none, _ => some (finishBuilderFlagScan s.words s.buffer s.blankOk)
    | some _, 0 => none
    | some c, turns + 1 =>
      match builderFlagHandler argument escape s c with
      | .error outcome => some outcome
      | .ok s' => builderFlagLoop turns s'

/-- The state that the scan begins in. -/
def builderFlagStart : BuilderFlagScanState := ⟨[], .spaces, [], false, 0⟩

/-! ### The measure -/

def FlagPhase.weight : FlagPhase → ℕ
  | .spaces => 1
  | _ => 0

/-- What is left to do: two turns for each character, and one to enter a word. -/
def BuilderFlagScanState.toDo (s : BuilderFlagScanState) : ℕ :=
  2 * (argument.length - s.position) + s.phase.weight

/-- What the structural scanner makes of the rest of the argument. -/
def BuilderFlagScanState.outcome (s : BuilderFlagScanState) : List Text × Text :=
  scanBuilderFlags escape s.phase s.words s.buffer s.blankOk (argument.drop s.position)

variable {argument escape} {s s' : BuilderFlagScanState} {c : CodePoint}

theorem drop_of_getElem? (h : argument[s.position]? = some c) :
    s.position < argument.length ∧
      argument.drop s.position = c :: argument.drop (s.position + 1) := by
  obtain ⟨hlt, rfl⟩ := List.getElem?_eq_some_iff.mp h
  exact ⟨hlt, List.drop_eq_getElem_cons hlt⟩

theorem flag_iff : lit "--" <+: c :: argument.drop (s.position + 1) ↔
    c = ofChar '-' ∧ argument[s.position + 1]? = some (ofChar '-') := by
  rw [← List.head?_drop]
  change [ofChar '-', ofChar '-'] <+: _ ↔ _
  rw [List.cons_prefix_cons, eq_comm]
  refine and_congr_right fun _ => ?_
  cases argument.drop (s.position + 1) with
  | nil => simp
  | cons d rest => simp [List.cons_prefix_cons, eq_comm]

/-- The blanks end before what is not a flag. -/
theorem stop_iff : c ≠ ofChar '-' ∨ s.position + 1 = argument.length ∨
    argument[s.position + 1]? ≠ some (ofChar '-') ↔
      ¬ lit "--" <+: c :: argument.drop (s.position + 1) := by
  rw [flag_iff, not_and_or]
  refine or_congr_right ⟨?_, Or.inr⟩
  rintro (hlength | hnext)
  · rw [hlength, List.getElem?_eq_none le_rfl]
    intro h
    cases h
  · exact hnext

/-- A turn ends the scan with what the structural scanner gives, or leaves it the same outcome
and less to do. -/
def Turn.Follows (argument : Text) (escape : CodePoint) (s : BuilderFlagScanState) : Turn → Prop
  | .error outcome => s.outcome argument escape = outcome
  | .ok s' => s'.outcome argument escape = s.outcome argument escape ∧
      s'.toDo argument < s.toDo argument

theorem weight_le (phase : FlagPhase) : phase.weight ≤ 1 := by
  cases phase with
  | spaces => exact le_rfl
  | word => exact Nat.zero_le 1
  | quote q => exact Nat.zero_le 1

/-- A turn that goes on in the argument leaves less to do. -/
theorem toDo_lt (h : s.position < argument.length) (hposition : s.position < s'.position) :
    s'.toDo argument < s.toDo argument := by
  have hweight := weight_le s'.phase
  unfold BuilderFlagScanState.toDo
  omega

theorem outcome_of_drop (h : argument.drop s.position = c :: argument.drop (s.position + 1)) :
    s.outcome argument escape = scanBuilderFlags escape s.phase s.words s.buffer s.blankOk
      (c :: argument.drop (s.position + 1)) := by
  rw [BuilderFlagScanState.outcome, h]

theorem scanBuilderCharacter_follows (hc : argument[s.position]? = some c)
    (hinside : Inside s.phase c) (atEnd : FlagPhase) :
    (scanBuilderCharacter argument escape s c atEnd).Follows argument escape s := by
  obtain ⟨hlt, hdrop⟩ := drop_of_getElem? hc
  unfold scanBuilderCharacter
  by_cases hescape : c = escape
  · subst hescape
    rw [if_pos rfl]
    cases hnext : argument[s.position + 1]? with
    | none =>
      have hend : argument.drop (s.position + 1) = [] :=
        List.drop_eq_nil_of_le (List.getElem?_eq_none_iff.mp hnext)
      refine ⟨?_, toDo_lt hlt (Nat.lt_succ_self _)⟩
      rw [outcome_of_drop hdrop, BuilderFlagScanState.outcome, hend, scan_nil,
        scan_trailing hinside]
    | some d =>
      obtain ⟨hnextLt, rfl⟩ := List.getElem?_eq_some_iff.mp hnext
      refine ⟨?_, toDo_lt hlt (by simp)⟩
      rw [outcome_of_drop hdrop, List.drop_eq_getElem_cons hnextLt, scan_escaped hinside]
      rfl
  · rw [if_neg hescape]
    refine ⟨?_, toDo_lt hlt (Nat.lt_succ_self _)⟩
    rw [outcome_of_drop hdrop, scan_kept hinside hescape]
    rfl

theorem scanBuilderSpaces_follows (hc : argument[s.position]? = some c)
    (hphase : s.phase = .spaces) : (scanBuilderSpaces argument s c).Follows argument escape s := by
  obtain ⟨hlt, hdrop⟩ := drop_of_getElem? hc
  have hscan := @outcome_of_drop argument escape s c hdrop
  rw [hphase] at hscan
  unfold scanBuilderSpaces
  by_cases hspace : isBuildkitWhitespace c = true
  · rw [if_pos hspace]
    refine ⟨?_, toDo_lt hlt (Nat.lt_succ_self _)⟩
    rw [hscan, scan_spaces_blank hspace, ← hphase]
    rfl
  · rw [if_neg hspace]
    by_cases hstop : c ≠ ofChar '-' ∨ s.position + 1 = argument.length ∨
        argument[s.position + 1]? ≠ some (ofChar '-')
    · rw [if_pos hstop]
      rw [Turn.Follows, hscan, scan_spaces_stop (Bool.eq_false_iff.mpr hspace) (stop_iff.mp hstop),
        hdrop]
    · rw [if_neg hstop]
      have hflag : lit "--" <+: c :: argument.drop (s.position + 1) :=
        not_not.mp fun hnot => hstop (stop_iff.mpr hnot)
      -- The position stays; the phase is what is left of the measure.
      refine ⟨?_, ?_⟩
      · rw [hscan, scan_spaces_flag hflag, ← hdrop]
        rfl
      · rw [BuilderFlagScanState.toDo, BuilderFlagScanState.toDo, hphase]
        exact Nat.lt_succ_self _

theorem scanBuilderWord_follows (hc : argument[s.position]? = some c)
    (hphase : s.phase = .word) : (scanBuilderWord argument escape s c).Follows argument escape s := by
  obtain ⟨hlt, hdrop⟩ := drop_of_getElem? hc
  have hscan := @outcome_of_drop argument escape s c hdrop
  rw [hphase] at hscan
  unfold scanBuilderWord
  by_cases hspace : isBuildkitWhitespace c = true
  · rw [if_pos hspace]
    by_cases hword : s.buffer = lit "--"
    · rw [if_pos hword]
      rw [Turn.Follows, hscan, scan_word_stop hspace hword, hdrop]
    · rw [if_neg hword]
      refine ⟨?_, toDo_lt hlt (Nat.lt_succ_self _)⟩
      rw [hscan, scan_word_space hspace hword]
      rfl
  · rw [if_neg hspace]
    by_cases hquote : c ∈ quotes
    · rw [if_pos hquote]
      refine ⟨?_, toDo_lt hlt (Nat.lt_succ_self _)⟩
      rw [hscan, scan_word_quote hquote]
      rfl
    · rw [if_neg hquote]
      exact scanBuilderCharacter_follows hc (hphase ▸ ⟨Bool.eq_false_iff.mpr hspace, hquote⟩) _

theorem scanBuilderQuote_follows {q : CodePoint} (hc : argument[s.position]? = some c)
    (hphase : s.phase = .quote q) :
    (scanBuilderQuote argument escape q s c).Follows argument escape s := by
  obtain ⟨hlt, hdrop⟩ := drop_of_getElem? hc
  unfold scanBuilderQuote
  by_cases hclose : c = q
  · subst hclose
    rw [if_pos rfl]
    refine ⟨?_, toDo_lt hlt (Nat.lt_succ_self _)⟩
    rw [outcome_of_drop hdrop, hphase, scan_quote_close]
    rfl
  · rw [if_neg hclose]
    exact scanBuilderCharacter_follows hc (hphase ▸ hclose) _

theorem builderFlagHandler_follows (hc : argument[s.position]? = some c) :
    (builderFlagHandler argument escape s c).Follows argument escape s := by
  unfold builderFlagHandler
  cases hphase : s.phase with
  | spaces => exact scanBuilderSpaces_follows hc hphase
  | word => exact scanBuilderWord_follows hc hphase
  | quote q => exact scanBuilderQuote_follows hc hphase

theorem builderFlagLoop_end {turns : ℕ} (h : argument[s.position]? = none) :
    builderFlagLoop argument escape turns s = some (s.outcome argument escape) := by
  rw [BuilderFlagScanState.outcome, List.drop_eq_nil_of_le (List.getElem?_eq_none_iff.mp h),
    scan_nil]
  cases turns <;> simp only [builderFlagLoop, h]

/-- The loop ends within the measure, and ends with the outcome of the structural scanner. -/
theorem builderFlagLoop_eq {turns : ℕ} (h : s.toDo argument ≤ turns) :
    builderFlagLoop argument escape turns s = some (s.outcome argument escape) := by
  induction turns generalizing s with
  | zero =>
    apply builderFlagLoop_end
    rw [List.getElem?_eq_none_iff]
    unfold BuilderFlagScanState.toDo at h
    omega
  | succ turns ih =>
    cases hc : argument[s.position]? with
    | none => exact builderFlagLoop_end hc
    | some c =>
      have hfollows := @builderFlagHandler_follows argument escape s c hc
      cases hturn : builderFlagHandler argument escape s c with
      | error outcome =>
        rw [hturn] at hfollows
        unfold builderFlagLoop
        simp only [hc, hturn]
        exact congrArg some hfollows.symm
      | ok s' =>
        rw [hturn] at hfollows
        obtain ⟨houtcome, hlt⟩ := hfollows
        unfold builderFlagLoop
        simp only [hc, hturn]
        rw [← houtcome]
        exact ih (Nat.le_of_lt_succ (hlt.trans_le h))

/-- The scan of a whole argument. -/
theorem builderFlagLoop_start {turns : ℕ} (h : 2 * argument.length + 1 ≤ turns) :
    builderFlagLoop argument escape turns builderFlagStart =
      some (extractBuilderFlags argument escape) := builderFlagLoop_eq h

/-! ### Words -/

/-- The characters of a word, from a phase on, and what they stand for without their quotes and
escapes. At the end of the argument a quote may be open and an escape may have nothing after it. -/
inductive Reads (escape : CodePoint) (atEnd : Bool) : FlagPhase → Text → Text → Prop
  | nil : Reads escape atEnd .word [] []
  | unclosed {q : CodePoint} (h : atEnd = true) : Reads escape atEnd (.quote q) [] []
  | trailing {phase : FlagPhase} (h : atEnd = true) (hinside : Inside phase escape) :
      Reads escape atEnd phase [escape] []
  | kept {phase : FlagPhase} {c : CodePoint} {raw value : Text} (hinside : Inside phase c)
      (hescape : c ≠ escape) (h : Reads escape atEnd phase raw value) :
      Reads escape atEnd phase (c :: raw) (c :: value)
  | escaped {phase : FlagPhase} {d : CodePoint} {raw value : Text} (hinside : Inside phase escape)
      (h : Reads escape atEnd phase raw value) :
      Reads escape atEnd phase (escape :: d :: raw) (d :: value)
  | opened {c : CodePoint} {raw value : Text} (hc : c ∈ quotes)
      (h : Reads escape atEnd (.quote c) raw value) : Reads escape atEnd .word (c :: raw) value
  | closed {q : CodePoint} {raw value : Text} (h : Reads escape atEnd .word raw value) :
      Reads escape atEnd (.quote q) (q :: raw) value

/-- A word unquotes to a text. -/
def Unquotes (escape : CodePoint) (raw value : Text) : Prop := Reads escape false .word raw value

/-- The scan of a text from within a word: to the blank after the word, or to the end. -/
def WordScan (escape : CodePoint) (phase : FlagPhase) (text : Text) (words : List Text)
    (buffer : Text) (outcome : List Text × Text) : Prop :=
  (∃ raw value c rest blankOk, text = raw ++ c :: rest ∧ isBuildkitWhitespace c = true ∧
    Reads escape false phase raw value ∧
    outcome = scanBuilderFlags escape .word words (buffer ++ value) blankOk (c :: rest)) ∨
  ∃ value blankOk, Reads escape true phase text value ∧
    outcome = finishBuilderFlagScan words (buffer ++ value) blankOk

section Words
variable {phase phase' : FlagPhase} {text : Text} {words : List Text} {buffer : Text}
  {blankOk : Bool} {outcome : List Text × Text}

/-- Characters before a word whose scan is known. -/
theorem WordScan.before (front kept : Text)
    (h : WordScan escape phase' text words (buffer ++ kept) outcome)
    (hreads : ∀ atEnd raw value, Reads escape atEnd phase' raw value →
      Reads escape atEnd phase (front ++ raw) (kept ++ value)) :
    WordScan escape phase (front ++ text) words buffer outcome := by
  rcases h with ⟨raw, value, c, rest, blankOk, rfl, hspace, hraw, rfl⟩ | ⟨value, blankOk, hraw, rfl⟩
  · refine Or.inl ⟨front ++ raw, kept ++ value, c, rest, blankOk, ?_, hspace, hreads _ _ _ hraw, ?_⟩
    · rw [List.append_assoc]
    · rw [List.append_assoc]
  · refine Or.inr ⟨kept ++ value, blankOk, hreads _ _ _ hraw, ?_⟩
    rw [List.append_assoc]

theorem WordScan.quote (h : WordScan escape phase' text words buffer outcome)
    (hreads : ∀ atEnd raw value, Reads escape atEnd phase' raw value →
      Reads escape atEnd phase (c :: raw) value) :
    WordScan escape phase (c :: text) words buffer outcome :=
  WordScan.before [c] [] (by rwa [List.append_nil]) hreads

theorem wordScan (hphase : phase ≠ .spaces) : WordScan escape phase text words buffer
    (scanBuilderFlags escape phase words buffer blankOk text) := by
  induction hlength : text.length using Nat.strong_induction_on
    generalizing phase text buffer blankOk with
  | _ length ih =>
    subst hlength
    cases text with
    | nil =>
      refine Or.inr ⟨[], blankOk, ?_, by rw [scan_nil, List.append_nil]⟩
      cases phase with
      | spaces => exact absurd rfl hphase
      | word => exact Reads.nil
      | quote q => exact Reads.unclosed rfl
    | cons c text =>
      have hinside : Inside phase c → WordScan escape phase (c :: text) words buffer
          (scanBuilderFlags escape phase words buffer blankOk (c :: text)) := by
        intro hinside
        by_cases hescape : c = escape
        · subst hescape
          cases text with
          | nil =>
            refine Or.inr ⟨[], blankOk, Reads.trailing rfl hinside, ?_⟩
            rw [scan_trailing hinside, List.append_nil]
          | cons d text =>
            rw [scan_escaped hinside]
            have hshorter : text.length < (c :: d :: text).length := by
              simp only [List.length_cons]
              omega
            exact WordScan.before [c, d] [d] (ih _ hshorter hphase rfl)
              fun _ _ _ h => Reads.escaped hinside h
        · rw [scan_kept hinside hescape]
          exact WordScan.before [c] [c] (ih _ (by simp) hphase rfl)
            fun _ _ _ h => Reads.kept hinside hescape h
      cases phase with
      | spaces => exact absurd rfl hphase
      | word =>
        by_cases hspace : isBuildkitWhitespace c = true
        · refine Or.inl ⟨[], [], c, text, blankOk, rfl, hspace, Reads.nil, ?_⟩
          rw [List.append_nil]
        by_cases hquote : c ∈ quotes
        · rw [scan_word_quote hquote]
          exact (ih _ (by simp) (by simp) rfl).quote fun _ _ _ h => Reads.opened hquote h
        · exact hinside ⟨Bool.eq_false_iff.mpr hspace, hquote⟩
      | quote q =>
        by_cases hclose : c = q
        · subst hclose
          rw [scan_quote_close]
          exact (ih _ (by simp) (by simp) rfl).quote fun _ _ _ h => Reads.closed h
        · exact hinside hclose

end Words

/-! ### The whole scan -/

/-- An argument, the flags of it and what remains. -/
inductive Scanned (escape : CodePoint) : Text → List Text → Text → Prop
  | nil : Scanned escape [] [] []
  | stop {c : CodePoint} {text : Text} (hspace : isBuildkitWhitespace c = false)
      (hflag : ¬ lit "--" <+: c :: text) : Scanned escape (c :: text) [] (c :: text)
  | blank {c : CodePoint} {text remaining : Text} {flags : List Text}
      (hspace : isBuildkitWhitespace c = true) (h : Scanned escape text flags remaining) :
      Scanned escape (c :: text) flags remaining
  | sentinel {c : CodePoint} {raw text : Text} (hraw : Unquotes escape raw (lit "--"))
      (hflag : lit "--" <+: raw) (hspace : isBuildkitWhitespace c = true) :
      Scanned escape (raw ++ c :: text) [] (c :: text)
  | flag {c : CodePoint} {raw value text remaining : Text} {flags : List Text}
      (hraw : Unquotes escape raw value) (hflag : lit "--" <+: raw) (hvalue : value ≠ lit "--")
      (hspace : isBuildkitWhitespace c = true) (h : Scanned escape text flags remaining) :
      Scanned escape (raw ++ c :: text) (value :: flags) remaining
  | last {raw value : Text} (hraw : Reads escape true .word raw value) (hflag : lit "--" <+: raw) :
      Scanned escape raw (if value = lit "--" then [] else [value]) []

/-- A word that begins with two hyphens stands for some characters. -/
theorem Reads.ne_nil {atEnd : Bool} {raw value : Text} (h : Reads escape atEnd .word raw value)
    (hflag : lit "--" <+: raw) : value ≠ [] := by
  obtain ⟨rest, rfl⟩ := hflag
  cases h with
  | kept => exact List.cons_ne_nil _ _
  | escaped => exact List.cons_ne_nil _ _
  | opened hc => exact absurd hc inside_hyphen.2

/-- The two hyphens that a flag begins with stand before its blank. -/
theorem flag_before_blank {raw rest : Text} (hspace : isBuildkitWhitespace c = true)
    (h : lit "--" <+: raw ++ c :: rest) : lit "--" <+: raw := by
  have hhyphen : c ≠ ofChar '-' := by
    rintro rfl
    cases hspace
  change [ofChar '-', ofChar '-'] <+: _ at h
  change [ofChar '-', ofChar '-'] <+: _
  rcases raw with _ | ⟨a, _ | ⟨b, raw⟩⟩
  · exact absurd (List.cons_prefix_cons.mp h).1.symm hhyphen
  · have hnext := (List.cons_prefix_cons.mp h).2
    exact absurd (List.cons_prefix_cons.mp hnext).1.symm hhyphen
  · obtain ⟨rfl, hnext⟩ := List.cons_prefix_cons.mp h
    obtain ⟨rfl, -⟩ := List.cons_prefix_cons.mp hnext
    exact List.prefix_append [ofChar '-', ofChar '-'] raw

/-- The scan of a flag: to the blank after its word, or to the end of the argument. -/
theorem scan_flag {text : Text} (words : List Text) (hflag : lit "--" <+: text) :
    (∃ raw value c rest, text = raw ++ c :: rest ∧ lit "--" <+: raw ∧ Unquotes escape raw value ∧
      isBuildkitWhitespace c = true ∧ scanBuilderFlags escape .spaces words [] false text =
        if value = lit "--" then (words, c :: rest)
        else scanBuilderFlags escape .spaces (words ++ [value]) [] false rest) ∨
    ∃ value, Reads escape true .word text value ∧
      scanBuilderFlags escape .spaces words [] false text =
        (words ++ if value = lit "--" then [] else [value], []) := by
  have hword : FlagPhase.word ≠ .spaces := by
    intro h
    cases h
  rw [scan_spaces_flag hflag]
  rcases @wordScan escape .word text words [] false hword with
    ⟨raw, value, c, rest, blankOk, rfl, hspace, hraw, hscan⟩ | ⟨value, blankOk, hraw, hscan⟩
  · have hstart := flag_before_blank hspace hflag
    refine Or.inl ⟨raw, value, c, rest, rfl, hstart, hraw, hspace, ?_⟩
    rw [hscan, List.nil_append]
    split_ifs with hvalue
    · exact scan_word_stop hspace hvalue
    · rw [scan_word_space hspace hvalue, if_pos (Or.inr (hraw.ne_nil hstart))]
  · refine Or.inr ⟨value, hraw, ?_⟩
    rw [hscan, List.nil_append, finishBuilderFlagScan]
    by_cases hvalue : value = lit "--"
    · rw [if_pos hvalue, if_neg (by simp [hvalue]), List.append_nil]
    · rw [if_neg hvalue, if_pos ⟨hvalue, Or.inr (hraw.ne_nil hflag)⟩]

/-- What the scanner returns is what its argument is scanned into. -/
theorem scanned (text : Text) (words : List Text) : ∃ flags remaining,
    scanBuilderFlags escape .spaces words [] false text = (words ++ flags, remaining) ∧
      Scanned escape text flags remaining := by
  induction hlength : text.length using Nat.strong_induction_on generalizing text words with
  | _ length ih =>
    subst hlength
    cases text with
    | nil =>
      refine ⟨[], [], ?_, Scanned.nil⟩
      rw [scan_nil, List.append_nil]
      rfl
    | cons c text =>
      by_cases hspace : isBuildkitWhitespace c = true
      · obtain ⟨flags, remaining, hscan, hscanned⟩ := ih _ (Nat.lt_succ_self _) text words rfl
        exact ⟨flags, remaining, (scan_spaces_blank hspace).trans hscan,
          Scanned.blank hspace hscanned⟩
      have hspace := Bool.eq_false_iff.mpr hspace
      by_cases hflag : lit "--" <+: c :: text
      · rcases scan_flag words hflag with
          ⟨raw, value, d, rest, htext, hstart, hraw, hblank, hscan⟩ | ⟨value, hraw, hscan⟩
        · rw [htext] at hscan ⊢
          by_cases hvalue : value = lit "--"
          · rw [if_pos hvalue] at hscan
            refine ⟨[], d :: rest, ?_, Scanned.sentinel (hvalue ▸ hraw) hstart hblank⟩
            rw [hscan, List.append_nil]
          · rw [if_neg hvalue] at hscan
            have hshorter : rest.length < (c :: text).length := by
              rw [htext, List.length_append, List.length_cons]
              omega
            obtain ⟨flags, remaining, hrest, hscanned⟩ := ih _ hshorter rest (words ++ [value]) rfl
            refine ⟨value :: flags, remaining, ?_, Scanned.flag hraw hstart hvalue hblank hscanned⟩
            rw [hscan, hrest, List.append_assoc, List.singleton_append]
        · exact ⟨_, [], hscan, Scanned.last hraw hflag⟩
      · refine ⟨[], c :: text, ?_, Scanned.stop hspace hflag⟩
        rw [scan_spaces_stop hspace hflag, List.append_nil]

/-! ### What remains -/

/-- What a scan may leave: nothing, a text that is no flag, or the blank after a word that stands
for the two hyphens alone. -/
def Leaves (escape : CodePoint) (consumed remaining : Text) : Prop :=
  remaining = [] ∨
    (∃ c rest, remaining = c :: rest ∧ isBuildkitWhitespace c = false ∧ ¬ lit "--" <+: remaining) ∨
    ∃ front raw, consumed = front ++ raw ∧ (∀ c ∈ front.getLast?, isBuildkitWhitespace c = true) ∧
      Unquotes escape raw (lit "--") ∧ ∀ c ∈ remaining.head?, isBuildkitWhitespace c = true

/-- What is left behind a blank is left behind all that stands before the blank. -/
theorem Leaves.before_blank {consumed remaining : Text} (h : Leaves escape consumed remaining)
    (hspace : isBuildkitWhitespace c = true) (raw : Text) :
    Leaves escape (raw ++ c :: consumed) remaining := by
  rcases h with hnil | hstop | ⟨front, word, rfl, hfront, hword, hremaining⟩
  · exact Or.inl hnil
  · exact Or.inr (Or.inl hstop)
  · refine Or.inr (Or.inr ⟨raw ++ c :: front, word, by simp, ?_, hword, hremaining⟩)
    intro d hd
    rw [List.getLast?_append_of_ne_nil _ (List.cons_ne_nil c front), List.getLast?_cons] at hd
    obtain rfl := Option.some.inj hd
    cases hlast : front.getLast? with
    | none => exact hspace
    | some d => exact hfront d hlast

theorem Scanned.leaves {text remaining : Text} {flags : List Text}
    (h : Scanned escape text flags remaining) :
    ∃ consumed, text = consumed ++ remaining ∧ Leaves escape consumed remaining := by
  induction h with
  | nil => exact ⟨[], rfl, Or.inl rfl⟩
  | @stop c text hspace hflag => exact ⟨[], rfl, Or.inr (Or.inl ⟨c, text, rfl, hspace, hflag⟩)⟩
  | @blank c _ _ _ hspace _ ih =>
    obtain ⟨consumed, rfl, hleaves⟩ := ih
    exact ⟨c :: consumed, rfl, hleaves.before_blank hspace []⟩
  | @sentinel c raw text hraw _ hspace =>
    refine ⟨raw, rfl, Or.inr (Or.inr ⟨[], raw, rfl, ?_, hraw, ?_⟩)⟩
    · intro d hd
      cases hd
    · intro d hd
      obtain rfl := Option.some.inj hd
      exact hspace
  | @flag c raw _ _ _ _ _ _ _ hspace _ ih =>
    obtain ⟨consumed, rfl, hleaves⟩ := ih
    exact ⟨raw ++ c :: consumed, by simp, hleaves.before_blank hspace raw⟩
  | @last raw _ _ _ => exact ⟨raw, (List.append_nil raw).symm, Or.inl rfl⟩

/-! ### Arguments without quotes and escapes -/

/-- The words between the blanks of a text. -/
def blankWords (text : Text) : List Text :=
  (text.splitOnP isBuildkitWhitespace).filter fun word => word ≠ []

theorem blankWords_append_cons (text rest : Text) (hspace : isBuildkitWhitespace c = true) :
    blankWords (text ++ c :: rest) = blankWords text ++ blankWords rest := by
  rw [blankWords, List.splitOnP_append_cons text rest hspace, List.filter_append]
  rfl

theorem blankWords_cons (rest : Text) (hspace : isBuildkitWhitespace c = true) :
    blankWords (c :: rest) = blankWords rest := blankWords_append_cons [] rest hspace

theorem blankWords_word {word : Text} (hword : word ≠ [])
    (h : ∀ c ∈ word, isBuildkitWhitespace c = false) : blankWords word = [word] := by
  rw [blankWords, List.splitOnP_eq_singleton h]
  exact List.filter_eq_self.mpr (by simpa using hword)

/-- No quote and no escape. -/
def Plain (escape : CodePoint) (text : Text) : Prop := ∀ c ∈ text, c ∉ quotes ∧ c ≠ escape

/-- A word of plain characters stands for itself. -/
theorem Reads.plain {atEnd : Bool} {phase : FlagPhase} {raw value : Text}
    (h : Reads escape atEnd phase raw value) (hphase : phase = .word) (hplain : Plain escape raw) :
    value = raw ∧ ∀ c ∈ raw, isBuildkitWhitespace c = false := by
  induction h with
  | nil => exact ⟨rfl, fun c hc => absurd hc List.not_mem_nil⟩
  | unclosed => cases hphase
  | trailing => exact absurd rfl (hplain _ List.mem_cons_self).2
  | kept hinside _ _ ih =>
    obtain ⟨rfl, hword⟩ := ih hphase fun c hc => hplain c (List.mem_cons_of_mem _ hc)
    subst hphase
    exact ⟨rfl, List.forall_mem_cons.mpr ⟨hinside.1, hword⟩⟩
  | escaped => exact absurd rfl (hplain _ List.mem_cons_self).2
  | opened hc => exact absurd hc (hplain _ List.mem_cons_self).1
  | closed => cases hphase

/-- The words before what remains of a plain argument are its flags, but for a sentinel. -/
theorem Scanned.plain {text remaining : Text} {flags : List Text}
    (h : Scanned escape text flags remaining) (hplain : Plain escape text) :
    ∃ consumed, text = consumed ++ remaining ∧
      blankWords text = blankWords consumed ++ blankWords remaining ∧
      (blankWords consumed = flags ∨ blankWords consumed = flags ++ [lit "--"]) ∧
      ∀ flag ∈ flags, lit "--" <+: flag ∧ flag ≠ lit "--" := by
  induction h with
  | nil => exact ⟨[], rfl, rfl, Or.inl rfl, fun flag h => absurd h List.not_mem_nil⟩
  | stop => exact ⟨[], rfl, rfl, Or.inl rfl, fun flag h => absurd h List.not_mem_nil⟩
  | @blank c text remaining flags hspace _ ih =>
    obtain ⟨consumed, rfl, hwords, hflags⟩ := ih fun c hc => hplain c (List.mem_cons_of_mem _ hc)
    refine ⟨c :: consumed, rfl, ?_, ?_⟩
    · rw [blankWords_cons _ hspace, blankWords_cons _ hspace, hwords]
    · rw [blankWords_cons _ hspace]
      exact hflags
  | @sentinel c raw text hraw hflag hspace =>
    obtain ⟨rfl, hword⟩ := hraw.plain rfl fun c hc => hplain c (List.mem_append_left _ hc)
    refine ⟨lit "--", rfl, ?_, Or.inr ?_, fun flag h => absurd h List.not_mem_nil⟩
    · rw [blankWords_append_cons _ _ hspace, blankWords_cons _ hspace]
    · exact blankWords_word (hraw.ne_nil hflag) hword
  | @flag c raw value text remaining flags hraw hflag hvalue hspace _ ih =>
    obtain ⟨consumed, rfl, hwords, hflags, hall⟩ :=
      ih fun d hd => hplain d (List.mem_append_right _ (List.mem_cons_of_mem _ hd))
    obtain ⟨rfl, hword⟩ := hraw.plain rfl fun d hd => hplain d (List.mem_append_left _ hd)
    have hone : blankWords value = [value] := blankWords_word (hraw.ne_nil hflag) hword
    refine ⟨value ++ c :: consumed, by simp, ?_, ?_, ?_⟩
    · rw [blankWords_append_cons _ _ hspace, blankWords_append_cons _ _ hspace, hwords,
        List.append_assoc]
    · rw [blankWords_append_cons _ _ hspace, hone, List.singleton_append, List.cons_append]
      exact hflags.imp (congrArg (value :: ·)) (congrArg (value :: ·))
    · exact List.forall_mem_cons.mpr ⟨⟨hflag, hvalue⟩, hall⟩
  | @last raw value hraw hflag =>
    obtain ⟨rfl, hword⟩ := hraw.plain rfl hplain
    have hone : blankWords value = [value] := blankWords_word (hraw.ne_nil hflag) hword
    refine ⟨value, (List.append_nil value).symm, (List.append_nil _).symm, ?_, ?_⟩
    · by_cases hvalue : value = lit "--"
      · rw [if_pos hvalue, hone, hvalue]
        exact Or.inr rfl
      · rw [if_neg hvalue]
        exact Or.inl hone
    · by_cases hvalue : value = lit "--"
      · rw [if_pos hvalue]
        exact fun flag h => absurd h List.not_mem_nil
      · rw [if_neg hvalue]
        exact List.forall_mem_singleton.mpr ⟨hflag, hvalue⟩

/-- The scan of an argument ends, and what it returns accounts for the whole argument. -/
theorem builderFlagLoop_lossless (argument : Text) (escape : CodePoint) :
    ∃ flags remaining consumed, (∀ turns, 2 * argument.length + 1 ≤ turns →
        builderFlagLoop argument escape turns builderFlagStart = some (flags, remaining)) ∧
      argument = consumed ++ remaining ∧ Leaves escape consumed remaining ∧
      (Plain escape argument →
        blankWords argument = blankWords consumed ++ blankWords remaining ∧
        (blankWords consumed = flags ∨ blankWords consumed = flags ++ [lit "--"]) ∧
        ∀ flag ∈ flags, lit "--" <+: flag ∧ flag ≠ lit "--") := by
  obtain ⟨flags, remaining, hscan, hscanned⟩ := @scanned escape argument []
  obtain ⟨consumed, hargument, hleaves⟩ := hscanned.leaves
  refine ⟨flags, remaining, consumed, fun turns hturns => ?_, hargument, hleaves, fun hplain => ?_⟩
  · rw [builderFlagLoop_start hturns, extractBuilderFlags, hscan, List.nil_append]
  · obtain ⟨consumed', hargument', hwords⟩ := hscanned.plain hplain
    obtain rfl := List.append_cancel_right (hargument.symm.trans hargument')
    exact hwords

example : builderFlagLoop (lit "--chown=\"\" app.py /app/") 0x5C 45 builderFlagStart =
    some ([lit "--chown="], lit "app.py /app/") := by decide +kernel

end SentinelGRC.Assessment
