import SentinelGRC.Audit.Verifiable
import SentinelGRC.Pipeline.Records

/-!
The hash chain of the ledger. A ledger that verifies and ends its last line still
verifies after an append, whatever bytes it holds, and the append is refused only
for integers that do not print.
-/

namespace SentinelGRC.Pipeline

open Python Json
open Audit (File readText fileText BreaksLine plain_of_isLowerHex)

variable {F : Type} [PyFloat F] {H : Digest} {file : File}

/-! ### Verified lines -/

theorem recordHash_eq_ok {r : Fields F} {hash : Text} (h : recordHash H r = .ok hash) :
    Printable (.obj r) ∧ ∀ c ∈ hash, isLowerHex c = true := by
  obtain ⟨text, htext, h⟩ := bind_eq_ok.mp h
  obtain ⟨bytes, -, h⟩ := bind_eq_ok.mp h
  obtain rfl := Except.ok.inj h
  rw [canonicalJson, dumps] at htext
  split_ifs at htext with hprintable
  exact ⟨hprintable, H.isLowerHex_hexdigest bytes⟩

/-- What the loop checks of one line. -/
theorem verifyLines_cons {number : ℕ} {previous : Json F} {line : Text} {rest : List Text}
    {message : Text} : verifyLines F H number previous (line :: rest) = .ok (true, message) ↔
      ∃ fields hash, loads line = .ok (.obj fields) ∧
        recordHash H (pop fields (lit "record_hash")) = .ok hash ∧
        (get (pop fields (lit "record_hash")) (lit "previous_hash")).pyEq previous = true ∧
        get fields (lit "record_hash") = .str hash ∧
        verifyLines F H (number + 1) (.str hash) rest = .ok (true, message) := by
  constructor
  · intro h
    obtain ⟨v, hload, h⟩ := bind_eq_ok.mp h
    cases v with
    | obj fields =>
      obtain ⟨hash, hhash, h⟩ := bind_eq_ok.mp h
      split_ifs at h with hbad
      · cases h
      · simp only [Bool.or_eq_true, Bool.not_eq_true', not_or, Bool.not_eq_false] at hbad
        have hsupplied := pyEq_str.mp hbad.2
        rw [hsupplied] at h
        exact ⟨fields, hash, hload, hhash, hbad.1, hsupplied, h⟩
    | _ => cases h
  · rintro ⟨fields, hash, hload, hhash, hprevious, hsupplied, hrest⟩
    refine bind_eq_ok.mpr ⟨_, hload, bind_eq_ok.mpr ⟨hash, hhash, ?_⟩⟩
    rw [hsupplied, hprevious, pyEq_str.mpr rfl]
    exact hrest

/-- The hash that the record after these lines must name. -/
def lastHash (previous : Json F) : List Text → Json F
  | [] => previous
  | line :: rest =>
    match loads line with
    | .ok (.obj fields) => lastHash (get fields (lit "record_hash")) rest
    | _ => previous

/-- Lines that verify may be followed by lines that verify from their last hash. -/
theorem verifyLines_append {number : ℕ} {previous : Json F} {xs ys : List Text}
    {message message' : Text} (hxs : verifyLines F H number previous xs = .ok (true, message))
    (hys : verifyLines F H (number + xs.length) (lastHash previous xs) ys = .ok (true, message')) :
    verifyLines F H number previous (xs ++ ys) = .ok (true, message') := by
  induction xs generalizing number previous with
  | nil => exact hys
  | cons line rest ih =>
    obtain ⟨fields, hash, hload, hhash, hprevious, hsupplied, hrest⟩ := verifyLines_cons.mp hxs
    rw [lastHash, hload] at hys
    simp only [hsupplied, List.length_cons] at hys
    refine verifyLines_cons.mpr ⟨fields, hash, hload, hhash, hprevious, hsupplied, ih hrest ?_⟩
    rw [show number + 1 + rest.length = number + (rest.length + 1) by omega]
    exact hys

/-- The last of the verified lines holds the hash to go on from. -/
theorem lastHash_eq {number : ℕ} {previous : Json F} {lines : List Text} {message : Text}
    (h : verifyLines F H number previous lines = .ok (true, message)) :
    (lines = [] ∧ lastHash previous lines = previous) ∨
      ∃ (earlier : List Text) (line : Text) (fields : Fields F) (hash : Text),
        lines = earlier ++ [line] ∧ loads line = .ok (.obj fields) ∧
        field (lit "record_hash") fields = some (.str hash) ∧
        lastHash previous lines = .str hash ∧ ∀ c ∈ hash, isLowerHex c = true := by
  induction lines generalizing number previous with
  | nil => exact .inl ⟨rfl, rfl⟩
  | cons line rest ih =>
    obtain ⟨fields, hash, hload, hhash, -, hsupplied, hrest⟩ := verifyLines_cons.mp h
    have hlast : lastHash previous (line :: rest) = lastHash (.str hash) rest := by
      rw [lastHash, hload]
      simp only [hsupplied]
    rcases ih hrest with ⟨rfl, hnil⟩ | ⟨earlier, last, fs, k, rfl, hl, hfield, hk, hhex⟩
    · have hfield : field (lit "record_hash") fields = some (.str hash) := by
        rw [Json.get] at hsupplied
        cases hf : field (lit "record_hash") fields with
        | none =>
          rw [hf] at hsupplied
          cases hsupplied
        | some v =>
          rw [hf] at hsupplied
          exact congrArg some hsupplied
      exact .inr ⟨[], line, fields, hash, rfl, hload, hfield, hlast.trans hnil,
        (recordHash_eq_ok hhash).2⟩
    · exact .inr ⟨line :: earlier, last, fs, k, rfl, hl, hfield, hlast.trans hk, hhex⟩

/-! ### Blank files -/

/-- White space is no value. -/
theorem loads_of_blank {t : Text} (h : ∀ c ∈ t, isSpace c = true) :
    loads (F := F) t = .error .jsonDecodeError := by
  have hvalue (n : ℕ) : ∀ u : Text, (∀ c ∈ u, isSpace c = true) →
      scanValue (F := F) n u = .error .jsonDecodeError := by
    intro u hu
    cases n with
    | zero => rw [scanValue]
    | succ n =>
      cases u with
      | nil => rw [scanValue]
      | cons c rest =>
        have hne {d : CodePoint} (hd : isSpace d = false) : c ≠ d := by
          rintro rfl
          rw [hu c List.mem_cons_self] at hd
          cases hd
        have hquote : c.val ≠ 0x22 := fun he => hne (d := 0x22) (by decide) (Fin.ext he)
        have hconstant : scanConstant (F := F) constants (c :: rest) = none := by
          have hprefix (d : CodePoint) (name : Text) (hd : isSpace d = false) :
              afterPrefix (d :: name) (c :: rest) = none := by
            rw [afterPrefix, if_neg (Ne.symm (hne hd))]
          have hall : ∀ e ∈ constants (F := F), afterPrefix e.1 (c :: rest) = none := by
            intro e he
            simp only [constants, List.mem_cons, List.not_mem_nil, or_false] at he
            rcases he with rfl | rfl | rfl | rfl | rfl | rfl
            all_goals exact hprefix _ _ (by decide)
          generalize constants (F := F) = names at hall
          induction names with
          | nil => rfl
          | cons e names ih =>
            rw [scanConstant, hall e List.mem_cons_self]
            exact ih fun e' he' => hall e' (List.mem_cons_of_mem e he')
        have hdigit : isDigit c = false := by
          rw [← Bool.not_eq_true, isDigit_iff]
          have := hu c List.mem_cons_self
          simp only [isSpace, Bool.or_eq_true, Bool.and_eq_true, decide_eq_true_eq, beq_iff_eq] at this
          omega
        have hnumeral : scanNumeral (c :: rest) = none := by
          rw [scanNumeral, scanSign, if_neg (hne (by decide))]
          simp only
          rw [scanWhole, if_neg (hne (by decide)), if_neg (by simp [hdigit])]
        rw [scanValue, if_neg hquote, if_neg (hne (by decide)), if_neg (hne (by decide)), hconstant,
          hnumeral]
  unfold loads
  split_ifs
  · rfl
  · have hskip : ∀ c ∈ skipWs t, isSpace c = true :=
      fun c hc => h c ((List.dropWhile_suffix _).subset hc)
    rw [hvalue _ _ hskip]
    rfl

theorem mem_splitlinesFrom {c : CodePoint} {line : Text} : ∀ {acc t : Text},
    line ∈ splitlinesFrom acc t → c ∈ line → c ∈ acc ∨ c ∈ t
  | acc, [], hline, hc => by
    rw [splitlinesFrom] at hline
    split_ifs at hline
    · cases hline
    · rw [List.mem_singleton.mp hline] at hc
      exact .inl (List.mem_reverse.mp hc)
  | acc, [d], hline, hc => by
    rw [splitlinesFrom] at hline
    split_ifs at hline
    · rw [List.mem_singleton.mp hline] at hc
      exact .inl (List.mem_reverse.mp hc)
    · rw [List.mem_singleton.mp hline, List.mem_reverse] at hc
      rcases List.mem_cons.mp hc with rfl | hc
      · exact .inr List.mem_cons_self
      · exact .inl hc
  | acc, d :: e :: t, hline, hc => by
    rw [splitlinesFrom] at hline
    split_ifs at hline
    · rcases List.mem_cons.mp hline with rfl | hline
      · exact .inl (List.mem_reverse.mp hc)
      · rcases mem_splitlinesFrom hline hc with hc | hc
        · cases hc
        · exact .inr (List.mem_cons_of_mem _ (List.mem_cons_of_mem _ hc))
    · rcases List.mem_cons.mp hline with rfl | hline
      · exact .inl (List.mem_reverse.mp hc)
      · rcases mem_splitlinesFrom hline hc with hc | hc
        · cases hc
        · exact .inr (List.mem_cons_of_mem _ hc)
    · rcases mem_splitlinesFrom hline hc with hc | hc
      · rcases List.mem_cons.mp hc with rfl | hc
        · exact .inr List.mem_cons_self
        · exact .inl hc
      · exact .inr (List.mem_cons_of_mem _ hc)

theorem eq_nil_of_splitlinesFrom : ∀ {acc t : Text}, splitlinesFrom acc t = [] → acc = [] ∧ t = []
  | acc, [], h => by
    rw [splitlinesFrom] at h
    split_ifs at h with hacc
    exact ⟨List.isEmpty_iff.mp hacc, rfl⟩
  | acc, [c], h => by
    rw [splitlinesFrom] at h
    split_ifs at h
  | acc, c :: d :: t, h => by
    rw [splitlinesFrom] at h
    split_ifs at h
    cases (eq_nil_of_splitlinesFrom h).1

theorem eq_nil_of_splitlines {t : Text} (h : splitlines t = []) : t = [] :=
  (eq_nil_of_splitlinesFrom h).2

/-- A blank file that verifies has no line. -/
theorem splitlines_of_blank {text : Text} {number : ℕ} {previous : Json F} {message : Text}
    (hblank : blank text = true)
    (h : verifyLines F H number previous (splitlines text) = .ok (true, message)) :
    splitlines text = [] := by
  cases hlines : splitlines text with
  | nil => rfl
  | cons line rest =>
    rw [hlines] at h
    obtain ⟨fields, hash, hload, -⟩ := verifyLines_cons.mp h
    have hspace : ∀ c ∈ line, isSpace c = true := by
      intro c hc
      have hmem : line ∈ splitlinesFrom [] text := by
        rw [← splitlines, hlines]
        exact List.mem_cons_self
      rcases mem_splitlinesFrom hmem hc with hc | hc
      · cases hc
      · exact blank_iff.mp hblank c hc
    rw [loads_of_blank hspace] at hload
    cases hload

/-! ### One more record -/

/-- What an append adds after the record with the hash `previous`. -/
structure Sealed (H : Digest) (previous : Text) (body : Fields F) (hash : Text) : Prop where
  loaded : Loaded (.obj body)
  fresh : lit "record_hash" ∉ body.map Prod.fst
  linked : get body (lit "previous_hash") = .str previous
  hash_eq : recordHash H body = .ok hash

section Sealed

variable {previous hash : Text} {body : Fields F} (h : Sealed H previous body hash)

include h

theorem Sealed.hashed_eq : hashed body hash = body ++ [(lit "record_hash", .str hash)] :=
  setField_new h.fresh

theorem Sealed.plain_hash : ∀ c ∈ hash, Plain c :=
  fun c hc => plain_of_isLowerHex ((recordHash_eq_ok h.hash_eq).2 c hc)

theorem Sealed.loaded_hashed : Loaded (.obj (hashed body hash)) := by
  obtain ⟨hkeys, hjoined, hvalues⟩ := loaded_obj.mp h.loaded
  rw [h.hashed_eq, loaded_obj]
  simp only [List.map_append, List.map_cons, List.map_nil]
  refine ⟨?_, ?_, ?_⟩
  · rw [List.nodup_append]
    refine ⟨hkeys, List.nodup_singleton _, ?_⟩
    rintro a ha b hb rfl
    exact h.fresh (List.mem_singleton.mp hb ▸ ha)
  · intro key hkey
    rcases List.mem_append.mp hkey with hkey | hkey
    · exact hjoined key hkey
    · rw [List.mem_singleton.mp hkey]
      exact joined_of_scalar (scalar_lit _)
  · intro f hf
    rcases List.mem_append.mp hf with hf | hf
    · exact hvalues f hf
    · rw [List.mem_singleton.mp hf]
      exact loaded_plain h.plain_hash

theorem Sealed.printable_hashed : Printable (.obj (hashed body hash)) := by
  have hbody := (recordHash_eq_ok h.hash_eq).1
  rw [Printable, all, allFields_eq_all, Bool.and_eq_true] at hbody
  rw [h.hashed_eq, Printable, all, allFields_eq_all, List.all_append, hbody.2]
  rfl

theorem Sealed.pop_hashed : pop (hashed body hash) (lit "record_hash") = body := by
  have hkeep : pop body (lit "record_hash") = body := by
    refine List.filter_eq_self.mpr fun f hf => ?_
    simp only [ne_eq, decide_eq_true_eq]
    intro he
    exact h.fresh (List.mem_map.mpr ⟨f, hf, he⟩)
  rw [h.hashed_eq, pop, List.filter_append]
  change pop body _ ++ _ = _
  rw [hkeep]
  simp

theorem Sealed.field_record_hash : field (lit "record_hash") (hashed body hash) = some (.str hash) := by
  rw [field_eq_some (loaded_obj.mp h.loaded_hashed).1, h.hashed_eq]
  exact List.mem_append_right _ (List.mem_singleton_self _)

/-- The line of the record verifies from the hash it names. -/
theorem Sealed.verifyLines_line (number : ℕ) :
    verifyLines F H number (.str previous) [line (hashed body hash)] =
      .ok (true, lit "Ledger integrity verified.") := by
  have hnodup := (loaded_obj.mp h.loaded_hashed).1
  have hsame : (Json.obj (pop (sortDict (hashed body hash)) (lit "record_hash"))).sortKeys =
      (Json.obj body).sortKeys := by
    rw [sortKeys_pop hnodup, h.pop_hashed]
  refine verifyLines_cons.mpr ⟨_, hash, loads_line h.loaded_hashed h.printable_hashed, ?_, ?_, ?_, rfl⟩
  · rw [← h.hash_eq, recordHash, recordHash, canonicalJson, canonicalJson, ← dumps_sortKeys, hsame,
      dumps_sortKeys]
  · have hne : lit "previous_hash" ≠ lit "record_hash" := by decide
    rw [get_pop hne, get_sortDict hnodup, ← get_pop hne, h.pop_hashed, h.linked, sortKeys]
    exact pyEq_str.mpr rfl
  · rw [get_sortDict hnodup, Json.get, h.field_record_hash, Option.getD_some, sortKeys]

end Sealed

/-! ### Verified ledgers -/

theorem verifyLedger_true : (∃ message, verifyLedger F H file = .ok (true, message)) ↔
    ∃ text message, fileText file = .ok text ∧
      verifyLines F H 1 (.str genesisHash) (splitlines text) = .ok (true, message) := by
  cases file with
  | none => exact ⟨fun _ => ⟨[], _, rfl, rfl⟩, fun _ => ⟨_, rfl⟩⟩
  | some bytes =>
    have hbind (text : Text) : ((Except.ok text : Except PyError Text) >>= fun text =>
        verifyLines F H 1 (.str genesisHash) (splitlines text)) =
      verifyLines F H 1 (.str genesisHash) (splitlines text) := rfl
    constructor
    · rintro ⟨message, h⟩
      obtain ⟨text, htext⟩ := text_of_verifyLedger h
      refine ⟨text, message, htext, ?_⟩
      rw [fileText] at htext
      rw [verifyLedger, htext, hbind] at h
      split at h
      · cases h
      · cases h
      · cases h
      · exact h
    · rintro ⟨text, message, htext, h⟩
      rw [fileText] at htext
      refine ⟨message, ?_⟩
      rw [verifyLedger, htext, hbind, h]

/-- The next record names the hash that the verifier goes on from. -/
theorem previousHash_eq {text message : Text} (htext : fileText file = .ok text)
    (h : verifyLines F H 1 (.str genesisHash) (splitlines text) = .ok (true, message)) :
    ∃ previous : Text, (∀ c ∈ previous, Plain c) ∧ previousHash F file = .ok (.str previous) ∧
      lastHash (F := F) (.str genesisHash) (splitlines text) = .str previous := by
  have hgenesis : ∀ c ∈ genesisHash, Plain c := by
    intro c hc
    rw [List.eq_of_mem_replicate hc]
    decide
  cases file with
  | none =>
    obtain rfl := Except.ok.inj htext
    exact ⟨genesisHash, hgenesis, rfl, rfl⟩
  | some bytes =>
    rw [fileText] at htext
    rw [previousHash, htext]
    change ∃ previous, _ ∧ (if blank text = true then _ else _) = _ ∧ _
    rcases lastHash_eq h with ⟨hnil, hlast⟩ | ⟨earlier, line, fields, hash, hlines, hload, hfield, hlast, hhex⟩
    · have hblank : blank text = true := by
        rw [eq_nil_of_splitlines hnil]
        rfl
      rw [if_pos hblank]
      exact ⟨genesisHash, hgenesis, rfl, hlast⟩
    · have hblank : ¬ blank text = true := by
        intro hb
        rw [splitlines_of_blank hb h] at hlines
        exact absurd hlines.symm (by simp)
      rw [if_neg hblank]
      refine ⟨hash, fun c hc => plain_of_isLowerHex (hhex c hc), ?_, hlast⟩
      rw [hlines, List.getLast?_concat]
      refine bind_eq_ok.mpr ⟨_, hload, ?_⟩
      simp only [hfield]
      rfl

section Append

variable {posture : Fields F} {results : List (Json F)} {inputHash runId : Text}
  {recordedAt : UtcDatetime}

omit [PyFloat F] in
/-- The record of a run, before its own hash is added. -/
theorem evidenceBody_eq (previous : Text) :
    evidenceBody posture results (.str previous) (some [(lit "input_hash", .str inputHash),
      (lit "pipeline_run_id", .str runId)]) recordedAt =
      [(lit "schema_version", .str (lit "1.0")), (lit "recorded_at", .str recordedAt.isoformatZ),
        (lit "asset", .obj ([lit "asset_id", lit "hostname", lit "owner", lit "criticality",
          lit "collected_at"].map fun key => (key, get posture key))),
        (lit "results", .arr results), (lit "previous_hash", .str previous),
        (lit "input_hash", .str inputHash), (lit "pipeline_run_id", .str runId)] := rfl

omit [PyFloat F] in
theorem plain_isoformatZ (d : UtcDatetime) : ∀ c ∈ d.isoformatZ, Plain c := by
  intro c hc
  have := List.all_eq_true.mp (all_isoformatZ d) c hc
  simp only [isStampChar, Bool.and_eq_true, decide_eq_true_eq] at this
  exact ⟨by omega, by omega⟩

omit [PyFloat F] in
theorem loaded_evidenceBody (hposture : Loaded (.obj posture)) (hresults : ∀ v ∈ results, Loaded v)
    (hinput : ∀ c ∈ inputHash, Plain c) (hrun : ∀ c ∈ runId, Plain c) {previous : Text}
    (hprevious : ∀ c ∈ previous, Plain c) :
    Loaded (.obj (evidenceBody posture results (.str previous)
      (some [(lit "input_hash", .str inputHash), (lit "pipeline_run_id", .str runId)]) recordedAt)) := by
  have hasset : Loaded (.obj ([lit "asset_id", lit "hostname", lit "owner", lit "criticality",
      lit "collected_at"].map fun key => (key, get posture key)) : Json F) := by
    rw [loaded_obj]
    simp only [List.map_map, Function.comp_def, List.map_id']
    refine ⟨by decide, ?_, ?_⟩
    · intro key hkey
      simp only [List.mem_cons, List.not_mem_nil, or_false] at hkey
      rcases hkey with rfl | rfl | rfl | rfl | rfl
      all_goals exact joined_of_scalar (scalar_lit _)
    · intro f hf
      obtain ⟨key, -, rfl⟩ := List.mem_map.mp hf
      exact hposture.get key
  rw [evidenceBody_eq, loaded_obj]
  simp only [List.map_cons, List.map_nil]
  refine ⟨by decide, ?_, ?_⟩
  · intro key hkey
    simp only [List.mem_cons, List.not_mem_nil, or_false] at hkey
    rcases hkey with rfl | rfl | rfl | rfl | rfl | rfl | rfl
    all_goals exact joined_of_scalar (scalar_lit _)
  · intro f hf
    simp only [List.mem_cons, List.not_mem_nil, or_false] at hf
    rcases hf with rfl | rfl | rfl | rfl | rfl | rfl | rfl
    · exact loaded_str (joined_of_scalar (scalar_lit _))
    · exact loaded_plain (plain_isoformatZ recordedAt)
    · exact hasset
    · exact loaded_arr hresults
    · exact loaded_plain hprevious
    · exact loaded_plain hinput
    · exact loaded_plain hrun

theorem sealed_evidenceBody (hposture : Loaded (.obj posture)) (hresults : ∀ v ∈ results, Loaded v)
    (hinput : ∀ c ∈ inputHash, Plain c) (hrun : ∀ c ∈ runId, Plain c) {previous hash : Text}
    (hprevious : ∀ c ∈ previous, Plain c)
    (hhash : recordHash H (evidenceBody posture results (.str previous)
      (some [(lit "input_hash", .str inputHash), (lit "pipeline_run_id", .str runId)]) recordedAt) =
        .ok hash) :
    Sealed H previous (evidenceBody posture results (.str previous)
      (some [(lit "input_hash", .str inputHash), (lit "pipeline_run_id", .str runId)]) recordedAt)
      hash where
  loaded := loaded_evidenceBody hposture hresults hinput hrun hprevious
  fresh := by
    rw [evidenceBody_eq]
    simp only [List.map_cons, List.map_nil]
    decide
  linked := rfl
  hash_eq := hhash

variable (hposture : Loaded (.obj posture)) (hresults : ∀ v ∈ results, Loaded v)
  (hinput : ∀ c ∈ inputHash, Plain c) (hrun : ∀ c ∈ runId, Plain c)

include hposture hresults hinput hrun

/-- What an append adds to the chain of the ledger. -/
theorem sealed_of_append {file' : File} {record : Fields F}
    (h : appendEvidenceAtomic H file posture results (some [(lit "input_hash", .str inputHash),
      (lit "pipeline_run_id", .str runId)]) recordedAt = .ok (file', record)) :
    ∃ text message previous body hash, fileText file = .ok text ∧
      verifyLines F H 1 (.str genesisHash) (splitlines text) = .ok (true, message) ∧
      lastHash (F := F) (.str genesisHash) (splitlines text) = .str previous ∧
      Sealed H previous body hash ∧ record = hashed body hash ∧
      get body (lit "input_hash") = .str inputHash := by
  obtain ⟨message, previous, hash, bytes, hverify, hprevious, hhash, rfl, -⟩ :=
    appendEvidenceAtomic_eq_ok.mp h
  obtain ⟨text, message, htext, hlines⟩ := verifyLedger_true.mp ⟨message, hverify⟩
  obtain ⟨p, hplain, hp, hlast⟩ := previousHash_eq htext hlines
  obtain rfl := Except.ok.inj (hp.symm.trans hprevious)
  exact ⟨text, message, p, _, hash, htext, hlines, hlast,
    sealed_evidenceBody hposture hresults hinput hrun hplain hhash, rfl, rfl⟩

/-- The record that an append adds is found under its input hash. -/
theorem hasInputHash_of_append {file' : File} {record : Fields F}
    (h : appendEvidenceAtomic H file posture results (some [(lit "input_hash", .str inputHash),
      (lit "pipeline_run_id", .str runId)]) recordedAt = .ok (file', record)) :
    hasInputHash F inputHash (line record) = true := by
  obtain ⟨text, message, previous, body, hash, -, -, -, hsealed, rfl, hid⟩ :=
    sealed_of_append hposture hresults hinput hrun h
  refine hasInputHash_line hsealed.loaded_hashed hsealed.printable_hashed ?_
  have hne : lit "input_hash" ≠ lit "record_hash" := by decide
  rw [← get_pop hne, hsealed.pop_hashed, hid]

theorem field_record_hash_of_append {file' : File} {record : Fields F}
    (h : appendEvidenceAtomic H file posture results (some [(lit "input_hash", .str inputHash),
      (lit "pipeline_run_id", .str runId)]) recordedAt = .ok (file', record)) :
    ∃ hash, field (lit "record_hash") record = some (.str hash) := by
  obtain ⟨text, message, previous, body, hash, -, -, -, hsealed, rfl, -⟩ :=
    sealed_of_append hposture hresults hinput hrun h
  exact ⟨hash, hsealed.field_record_hash⟩

/-- A ledger in which the next record begins a new line verifies after an append. -/
theorem verifyLedger_append (hbreaks : BreaksLine file) {file' : File} {record : Fields F}
    (h : appendEvidenceAtomic H file posture results (some [(lit "input_hash", .str inputHash),
      (lit "pipeline_run_id", .str runId)]) recordedAt = .ok (file', record)) :
    ∃ message, verifyLedger F H file' = .ok (true, message) := by
  obtain ⟨text, hold, hnew⟩ := fileText_appendEvidenceAtomic h
  obtain ⟨text', message, previous, body, hash, htext, hlines, hlast, hsealed, rfl, -⟩ :=
    sealed_of_append hposture hresults hinput hrun h
  obtain ⟨text'', hold', hends⟩ := hbreaks
  obtain rfl := Except.ok.inj (hold.symm.trans htext)
  obtain rfl := Except.ok.inj (hold.symm.trans hold')
  refine verifyLedger_true.mpr ⟨_, lit "Ledger integrity verified.", hnew, ?_⟩
  rw [splitlines_append hends (head_line _ _),
    splitlines_line [] fun c hc => isLineBreak_of_plain (plain_line _ c hc)]
  refine verifyLines_append hlines ?_
  rw [hlast]
  exact hsealed.verifyLines_line _

/-- An append to a ledger that verifies is refused only for integers that do not print. -/
theorem exists_append (hverify : ∃ message, verifyLedger F H file = .ok (true, message))
    (hprintable : ∀ previous : Text, Printable (.obj (evidenceBody posture results (.str previous)
      (some [(lit "input_hash", .str inputHash), (lit "pipeline_run_id", .str runId)])
      recordedAt))) :
    ∃ file' record, appendEvidenceAtomic H file posture results (some [(lit "input_hash",
      .str inputHash), (lit "pipeline_run_id", .str runId)]) recordedAt = .ok (file', record) := by
  obtain ⟨message, hverify⟩ := hverify
  obtain ⟨text, message', htext, hlines⟩ := verifyLedger_true.mp ⟨message, hverify⟩
  obtain ⟨previous, hplain, hprevious, -⟩ := previousHash_eq htext hlines
  have hscalar {record : Fields F} (tail : Text) (htail : Scalar tail) :
      Scalar (line record ++ tail) := by
    refine scalar_append.mpr ⟨fun c hc => isSurrogate_of_plain (plain_line record c hc), htail⟩
  have hhash : ∃ hash, recordHash H (evidenceBody posture results (.str previous)
      (some [(lit "input_hash", .str inputHash), (lit "pipeline_run_id", .str runId)]) recordedAt) =
        .ok hash := by
    have hline := @hscalar (evidenceBody posture results (.str previous)
      (some [(lit "input_hash", .str inputHash), (lit "pipeline_run_id", .str runId)]) recordedAt)
      [] scalar_nil
    rw [List.append_nil] at hline
    exact ⟨_, bind_eq_ok.mpr ⟨_, canonicalJson_eq_ok.mpr ⟨hprintable previous, rfl⟩,
      bind_eq_ok.mpr ⟨_, encodeUtf8_eq_ok.mpr ⟨hline, rfl⟩, rfl⟩⟩⟩
  obtain ⟨hash, hhash⟩ := hhash
  have hsealed := sealed_evidenceBody hposture hresults hinput hrun hplain hhash
  exact ⟨_, _, appendEvidenceAtomic_eq_ok.mpr ⟨message, _, hash, _, hverify, hprevious, hhash, rfl,
    hsealed.printable_hashed, encodeUtf8_eq_ok.mpr ⟨hscalar (lit "\n") (scalar_lit _), rfl⟩, rfl⟩⟩

end Append

end SentinelGRC.Pipeline
