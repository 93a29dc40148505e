import SentinelGRC.Python.Dict
import SentinelGRC.Python.Hashlib
import SentinelGRC.Python.JsonRoundTrip
import SentinelGRC.Python.JsonText
import SentinelGRC.Store.Difference

/-!
The reconciliation of delivered messages with expected ones. The record counts what is
missing, unexpected and altered, and holds the digests of both maps in canonical JSON; the
validation asks that the counts fit together and that they vanish exactly when the digests
agree. Canonical JSON tells maps apart unless their ids become the same when a high
surrogate is read together with a low one behind it.
-/

namespace SentinelGRC.Assessment

open Python Json Store

variable {F : Type}

/-- `dict[str, str]`, from ids to digests. -/
abbrev Digests := FiniteMap Text Text

/-- `dict[str, bytes]`. -/
abbrev Bodies := FiniteMap Text Bytes

/-! ### The record -/

/-- The digests of the observed bodies. -/
def hashed (H : Digest) (observed : Bodies) : Digests where
  rows := observed.rows.map fun r => (r.1, H.hexdigest r.2)
  distinct := by
    rw [List.map_map]
    exact observed.distinct

/-- A map as `json` sees it. -/
def document (value : Digests) : Json F := .obj (value.rows.map fun r => (r.1, .str r.2))

/-- `text.encode("ascii")`. -/
def encodeAscii (t : Text) : Except PyError Bytes :=
  if t.all fun c => c.val < 128 then .ok (t.map fun c => UInt8.ofNat c.val)
  else .error .unicodeEncodeError

variable [PyFloat F]

variable (F) in
/-- `_canonical`. -/
def canonical (value : Digests) : Except PyError Text := dumps compact (document (F := F) value)

variable (F) in
/-- `hashlib.sha256(_canonical(value).encode("ascii")).hexdigest()`. -/
def canonicalSha256 (H : Digest) (value : Digests) : Except PyError Text := do
  let text ← canonical F value
  let bytes ← encodeAscii text
  return H.hexdigest bytes

/-- The fields of the record. -/
def deliveryRecord (expected observed missing unexpected mismatched : ℕ)
    (expectedSha256 observedSha256 : Text) : Fields F :=
  [(lit "expected", .int expected), (lit "observed", .int observed),
    (lit "missing", .int missing), (lit "unexpected", .int unexpected),
    (lit "mismatched", .int mismatched),
    (lit "expected_sha256", .str expectedSha256), (lit "observed_sha256", .str observedSha256)]

/-- `_reconcile_delivery`. -/
def reconcileDelivery (H : Digest) (expected : Digests) (observed : Bodies) :
    Except PyError (Fields F) := do
  let actual := hashed H observed
  let expectedSha256 ← canonicalSha256 F H expected
  let observedSha256 ← canonicalSha256 F H actual
  return deliveryRecord expected.rows.length actual.rows.length
    (FiniteMap.difference expected actual).length (FiniteMap.difference actual expected).length
    (FiniteMap.mismatched expected actual) expectedSha256 observedSha256

/-! ### What is made of the record -/

/-- `value[key]`. -/
def item (value : Fields F) (key : String) : Except PyError (Json F) :=
  match field (lit key) value with
  | some v => .ok v
  | none => .error (.keyError (lit key))

/-- `_delivery_exact`. -/
def deliveryExact (value : Fields F) (count : ℤ) : Except PyError Bool := do
  let expected ← item value "expected"
  let observed ← item value "observed"
  if ! (expected.pyEq observed && observed.pyEq (.int count)) then return false
  let missing ← item value "missing"
  let unexpected ← item value "unexpected"
  if ! missing.pyEq unexpected then return false
  let mismatched ← item value "mismatched"
  if ! (unexpected.pyEq mismatched && mismatched.pyEq (.int 0)) then return false
  let expectedSha256 ← item value "expected_sha256"
  let observedSha256 ← item value "observed_sha256"
  return expectedSha256.pyEq observedSha256

def countNames : List Text :=
  [lit "expected", lit "observed", lit "missing", lit "unexpected", lit "mismatched"]

def hashNames : List Text := [lit "expected_sha256", lit "observed_sha256"]

/-- An `int` that is not negative. -/
def count? : Json F → Option ℤ
  | .int n => if n < 0 then none else some n
  | _ => none

/-- A text that matches `[0-9a-f]{64}`. -/
def isDigestText : Json F → Bool
  | .str t => t.length == 64 && t.all isLowerHex
  | _ => false

/-- `_validate_reconciliation`. -/
def validateReconciliation (value : Json F) : Except PyError Unit :=
  match value with
  | .obj fields =>
    let keys := fields.map Prod.fst
    if ¬ (keys ⊆ countNames ++ hashNames ∧ countNames ++ hashNames ⊆ keys) then
      .error (.valueError (lit "delivery reconciliation fields are invalid"))
    else if countNames.any fun key => (count? (get fields key)).isNone then
      .error (.valueError (lit "delivery reconciliation counts are invalid"))
    else if hashNames.any fun key => ! isDigestText (get fields key) then
      .error (.valueError (lit "delivery reconciliation hashes are invalid"))
    else
      let number (key : String) : ℤ := (count? (get fields (lit key))).getD 0
      let overlap := number "expected" - number "missing"
      if overlap < 0 ∨ overlap ≠ number "observed" - number "unexpected" ∨
          overlap < number "mismatched" then
        .error (.valueError (lit "delivery reconciliation cardinality is inconsistent"))
      else
        let countsMatch := number "missing" == number "unexpected" &&
          number "unexpected" == number "mismatched" && number "mismatched" == 0
        if countsMatch ≠ (get fields (lit "expected_sha256")).pyEq (get fields (lit "observed_sha256"))
        then .error (.valueError (lit "delivery reconciliation digests are inconsistent"))
        else .ok ()
  | _ => .error (.valueError (lit "delivery reconciliation fields are invalid"))

/-! ### Records -/

section

variable {expected observed missing unexpected mismatched : ℕ} {expectedSha256 observedSha256 : Text}

omit [PyFloat F] in
theorem count?_natCast (n : ℕ) : count? (.int n : Json F) = some (n : ℤ) := by
  rw [count?, if_neg (by omega)]

omit [PyFloat F] in
theorem isDigestText_of {t : Text} (h : t.length = 64 ∧ ∀ c ∈ t, isLowerHex c = true) :
    isDigestText (.str t : Json F) = true := by
  simp only [isDigestText, h.1, beq_self_eq_true, Bool.true_and]
  exact List.all_eq_true.mpr h.2

/-- The validation of a record says that its counts fit together and agree with the digests. -/
theorem validateReconciliation_record
    (hexpected : expectedSha256.length = 64 ∧ ∀ c ∈ expectedSha256, isLowerHex c = true)
    (hobserved : observedSha256.length = 64 ∧ ∀ c ∈ observedSha256, isLowerHex c = true) :
    validateReconciliation (F := F) (.obj (deliveryRecord expected observed missing unexpected
        mismatched expectedSha256 observedSha256)) =
      if ¬ (missing ≤ expected ∧ (expected : ℤ) - missing = observed - unexpected ∧
          (mismatched : ℤ) ≤ expected - missing) then
        .error (.valueError (lit "delivery reconciliation cardinality is inconsistent"))
      else if (missing = 0 ∧ unexpected = 0 ∧ mismatched = 0) ↔ expectedSha256 = observedSha256 then
        .ok ()
      else .error (.valueError (lit "delivery reconciliation digests are inconsistent")) := by
  set fields : Fields F := deliveryRecord expected observed missing unexpected mismatched
    expectedSha256 observedSha256 with hfields
  have hkeys : fields.map Prod.fst = countNames ++ hashNames := rfl
  have hE : get fields (lit "expected") = .int expected := rfl
  have hO : get fields (lit "observed") = .int observed := rfl
  have hM : get fields (lit "missing") = .int missing := rfl
  have hU : get fields (lit "unexpected") = .int unexpected := rfl
  have hX : get fields (lit "mismatched") = .int mismatched := rfl
  have hS : get fields (lit "expected_sha256") = .str expectedSha256 := rfl
  have hT : get fields (lit "observed_sha256") = .str observedSha256 := rfl
  have hcounts : ¬ (countNames.any fun key => (count? (get fields key)).isNone) = true := by
    simp [countNames, hE, hO, hM, hU, hX, count?_natCast]
  have hhashes : ¬ (hashNames.any fun key => ! isDigestText (get fields key)) = true := by
    simp [hashNames, hS, hT, isDigestText_of hexpected, isDigestText_of hobserved]
  simp only [validateReconciliation, hkeys, List.Subset.refl, and_self, not_true_eq_false, if_false,
    if_neg hcounts, if_neg hhashes, hE, hO, hM, hU, hX, hS, hT, count?_natCast, Option.getD_some,
    pyEq]
  have hcardinality : ((expected : ℤ) - missing < 0 ∨ (expected : ℤ) - missing ≠ observed - unexpected ∨
      (expected : ℤ) - missing < mismatched) ↔ ¬ (missing ≤ expected ∧
        (expected : ℤ) - missing = observed - unexpected ∧ (mismatched : ℤ) ≤ expected - missing) := by
    omega
  have hzero : ((missing : ℤ) == unexpected && (unexpected : ℤ) == mismatched &&
      (mismatched : ℤ) == 0) = decide (missing = 0 ∧ unexpected = 0 ∧ mismatched = 0) := by
    rw [Bool.eq_iff_iff]
    simp only [Bool.and_eq_true, beq_iff_eq, decide_eq_true_eq]
    omega
  have hdigests : (expectedSha256 == observedSha256) = decide (expectedSha256 = observedSha256) := by
    rw [Bool.eq_iff_iff, beq_iff_eq, decide_eq_true_iff]
  simp only [hcardinality, hzero, hdigests, Ne, decide_eq_decide, ite_not]

theorem pyEq_int (m n : ℤ) : (Json.int m : Json F).pyEq (.int n) = (m == n) := rfl

/-- A record is exact if nothing is missing, unexpected or mismatched and the digests agree. -/
theorem deliveryExact_record (n : ℤ) :
    deliveryExact (F := F) (deliveryRecord expected observed missing unexpected mismatched
      expectedSha256 observedSha256) n =
      .ok (decide ((expected : ℤ) = n ∧ (observed : ℤ) = n ∧ (missing = 0 ∧ unexpected = 0 ∧
        mismatched = 0) ∧ expectedSha256 = observedSha256)) := by
  set fields : Fields F := deliveryRecord expected observed missing unexpected mismatched
    expectedSha256 observedSha256 with hfields
  have hE : item fields "expected" = .ok (.int expected) := rfl
  have hO : item fields "observed" = .ok (.int observed) := rfl
  have hM : item fields "missing" = .ok (.int missing) := rfl
  have hU : item fields "unexpected" = .ok (.int unexpected) := rfl
  have hX : item fields "mismatched" = .ok (.int mismatched) := rfl
  have hS : item fields "expected_sha256" = .ok (.str expectedSha256) := rfl
  have hT : item fields "observed_sha256" = .ok (.str observedSha256) := rfl
  unfold deliveryExact
  rw [hE, hO, hM, hU, hX, hS, hT]
  simp only [bind, Except.bind]
  cases hcount : (int expected : Json F).pyEq (int observed) && (int observed : Json F).pyEq (int n) with
  | false =>
    simp only [pyEq_int, Bool.and_eq_false_iff, beq_eq_false_iff_ne] at hcount
    refine congrArg Except.ok (decide_eq_false ?_).symm
    rintro ⟨hn, hn', -⟩
    omega
  | true =>
    cases hmissing : (int missing : Json F).pyEq (int unexpected) with
    | false =>
      rw [pyEq_int, beq_eq_false_iff_ne] at hmissing
      refine congrArg Except.ok (decide_eq_false ?_).symm
      rintro ⟨-, -, hzero, -⟩
      omega
    | true =>
      cases hmismatched : (int unexpected : Json F).pyEq (int mismatched) &&
          (int mismatched : Json F).pyEq (int 0) with
      | false =>
        simp only [pyEq_int, Bool.and_eq_false_iff, beq_eq_false_iff_ne] at hmismatched
        refine congrArg Except.ok (decide_eq_false ?_).symm
        rintro ⟨-, -, hzero, -⟩
        omega
      | true =>
        simp only [pyEq_int, Bool.and_eq_true, beq_iff_eq] at hcount hmissing hmismatched
        have hzero : missing = 0 ∧ unexpected = 0 ∧ mismatched = 0 := by omega
        refine congrArg Except.ok (Bool.eq_iff_iff.mpr ?_)
        rw [decide_eq_true_iff, pyEq_str]
        constructor
        · intro h
          exact ⟨hcount.1.trans hcount.2, hcount.2, hzero, Json.str.inj h⟩
        · rintro ⟨-, -, -, rfl⟩
          rfl

end

/-! ### Canonical JSON -/

omit [PyFloat F] in
theorem nodup_document (m : Digests) :
    ((m.rows.map fun r => (r.1, (.str r.2 : Json F))).map Prod.fst).Nodup := by
  rw [List.map_map]
  exact m.distinct

omit [PyFloat F] in
theorem printable_document (value : Digests) : Printable (document (F := F) value) := by
  rw [Printable, document, all, Bool.and_eq_true, allFields_eq_all, List.all_eq_true]
  refine ⟨rfl, ?_⟩
  simp only [List.mem_map]
  rintro _ ⟨r, -, rfl⟩
  rfl

variable (F) in
/-- The text of a map; nothing in it fails to print. -/
def canonicalText (value : Digests) : Text := (document (F := F) value).sortKeys.render compact

theorem canonical_eq (value : Digests) : canonical F value = .ok (canonicalText F value) :=
  if_pos (printable_document value)

/-- The digest of the text, which is ASCII. -/
theorem canonicalSha256_eq (H : Digest) (value : Digests) : canonicalSha256 F H value =
    .ok (H.hexdigest ((canonicalText F value).map fun c => UInt8.ofNat c.val)) := by
  have hascii : ((canonicalText F value).all fun c => decide (c.val < 128)) = true := by
    rw [List.all_eq_true]
    intro c hc
    have hplain := plain_render rfl _ c hc
    have hlt : c.val < 128 := by
      have := hplain.2
      omega
    exact decide_eq_true hlt
  rw [canonicalSha256, canonical_eq]
  change (encodeAscii _ >>= _) = _
  rw [encodeAscii, if_pos hascii]
  rfl

/-- Equal maps have one text. -/
theorem canonicalText_congr {m n : Digests} (h : ∀ k, m.get? k = n.get? k) :
    canonicalText F m = canonicalText F n := by
  have hperm := (FiniteMap.perm_iff.mpr h).map fun r => (r.1, (.str r.2 : Json F))
  rw [canonicalText, canonicalText, document, document, sortKeys_perm hperm (nodup_document m)]

/-- Every id and every digest is read back as it was written. -/
def Whole (m : Digests) : Prop := ∀ r ∈ m.rows, Joined r.1 ∧ Joined r.2

instance (m : Digests) : Decidable (Whole m) := inferInstanceAs (Decidable (∀ r ∈ m.rows, _))

theorem loads_canonicalText {m : Digests} (h : Whole m) :
    loads (canonicalText F m) = .ok (document (F := F) m).sortKeys := by
  have hdumps : dumps compact (document (F := F) m) = .ok (canonicalText F m) := canonical_eq m
  refine loads_dumps ?_ hdumps
  rw [document, all, Bool.and_eq_true, roundTripNode, Bool.and_eq_true, allFields_eq_all]
  refine ⟨⟨decide_eq_true (nodup_document m), ?_⟩, ?_⟩
  · simp only [compact, Bool.not_true, Bool.false_or, List.all_eq_true, List.mem_map,
      decide_eq_true_eq]
    rintro _ ⟨_, ⟨r, hr, rfl⟩, rfl⟩
    exact (h r hr).1
  · rw [List.all_eq_true]
    simp only [List.mem_map]
    rintro _ ⟨r, hr, rfl⟩
    rw [allField_eq, all, roundTripNode]
    simpa [compact] using (h r hr).2

omit [PyFloat F] in
theorem field_document (m : Digests) (k : Text) :
    field k (m.rows.map fun r => (r.1, (.str r.2 : Json F))) = (m.get? k).map Json.str := by
  apply Option.ext
  intro v
  rw [field_eq_some (nodup_document m), List.mem_map, Option.map_eq_some_iff]
  simp only [FiniteMap.get?_eq_some, Prod.mk.injEq]
  constructor
  · rintro ⟨r, hr, rfl, rfl⟩
    exact ⟨r.2, hr, rfl⟩
  · rintro ⟨t, ht, rfl⟩
    exact ⟨(k, t), ht, rfl, rfl⟩

/-- Whole maps with one text are equal. -/
theorem get?_congr_of_canonicalText {m n : Digests} (hm : Whole m) (hn : Whole n)
    (h : canonicalText F m = canonicalText F n) (k : Text) : m.get? k = n.get? k := by
  have hread := loads_canonicalText (F := F) hm
  rw [h, loads_canonicalText hn, document, document, sortKeys_obj, sortKeys_obj] at hread
  have hsorted := congrArg (field k) (Json.obj.inj (Except.ok.inj hread)).symm
  rw [sortDict, sortDict, field_sortKeys (nodup_document m), field_sortKeys (nodup_document n),
    field_document, field_document, Option.map_map, Option.map_map] at hsorted
  refine Option.map_injective ?_ hsorted
  intro s t hst
  exact Json.str.inj hst

/-! ### Reconciliation -/

variable (F) in
/-- SHA-256 does not collide on the canonical texts of two maps. -/
def CollisionFree (H : Digest) (m n : Digests) : Prop :=
  canonicalSha256 F H m = canonicalSha256 F H n → canonical F m = canonical F n

theorem keys_hashed (H : Digest) (observed : Bodies) : (hashed H observed).keys = observed.keys := by
  rw [FiniteMap.keys, hashed, List.map_map]
  rfl

theorem get?_hashed (H : Digest) (observed : Bodies) (id : Text) :
    (hashed H observed).get? id = (observed.get? id).map H.hexdigest := by
  apply Option.ext
  intro digest
  rw [FiniteMap.get?_eq_some, Option.map_eq_some_iff, hashed, List.mem_map]
  simp only [FiniteMap.get?_eq_some, Prod.mk.injEq]
  constructor
  · rintro ⟨r, hr, rfl, rfl⟩
    exact ⟨r.2, hr, rfl⟩
  · rintro ⟨body, hbody, rfl⟩
    exact ⟨(id, body), hbody, rfl, rfl⟩

theorem joined_hexdigest (H : Digest) (bytes : Bytes) : Joined (H.hexdigest bytes) :=
  joined_of_scalar (scalar_of_isLowerHex (H.isLowerHex_hexdigest bytes))

theorem whole_hashed (H : Digest) {observed : Bodies} (h : ∀ id ∈ observed.keys, Joined id) :
    Whole (hashed H observed) := by
  intro r hr
  obtain ⟨q, hq, rfl⟩ := List.mem_map.mp hr
  exact ⟨h q.1 (List.mem_map_of_mem hq), joined_hexdigest H q.2⟩

/-- The digests of two whole maps agree exactly if the maps do. -/
theorem hexdigest_eq_iff {H : Digest} {m n : Digests} (hm : Whole m) (hn : Whole n)
    (hcollision : CollisionFree F H m n) :
    H.hexdigest ((canonicalText F m).map fun c => UInt8.ofNat c.val) =
        H.hexdigest ((canonicalText F n).map fun c => UInt8.ofNat c.val) ↔
      ∀ id, m.get? id = n.get? id := by
  constructor
  · intro h
    rw [CollisionFree, canonicalSha256_eq, canonicalSha256_eq, h, canonical_eq, canonical_eq] at hcollision
    exact get?_congr_of_canonicalText hm hn (Except.ok.inj (hcollision rfl))
  · intro h
    rw [canonicalText_congr h]

/-- What the record of a reconciliation is, by the maps. -/
theorem reconcileDelivery_eq (H : Digest) (expected : Digests) (observed : Bodies) :
    reconcileDelivery (F := F) H expected observed = .ok (deliveryRecord expected.rows.length
      (hashed H observed).rows.length (FiniteMap.difference expected (hashed H observed)).length
      (FiniteMap.difference (hashed H observed) expected).length
      (FiniteMap.mismatched expected (hashed H observed))
      (H.hexdigest ((canonicalText F expected).map fun c => UInt8.ofNat c.val))
      (H.hexdigest ((canonicalText F (hashed H observed)).map fun c => UInt8.ofNat c.val))) := by
  unfold reconcileDelivery
  simp only [canonicalSha256_eq]
  rfl

/-- The counts of a record fit together. -/
theorem cardinality (m n : Digests) :
    (FiniteMap.difference m n).length ≤ m.rows.length ∧
      (m.rows.length : ℤ) - (FiniteMap.difference m n).length =
        n.rows.length - (FiniteMap.difference n m).length ∧
      (FiniteMap.mismatched m n : ℤ) ≤ m.rows.length - (FiniteMap.difference m n).length := by
  have hm := FiniteMap.length_difference m n
  have hn := FiniteMap.length_difference n m
  have hcomm := FiniteMap.length_intersection_comm m n
  have hle := FiniteMap.mismatched_le m n
  omega

/-- The same ids with the hashes that were expected for them. -/
theorem get?_eq_hashed_iff {H : Digest} {expected : Digests} {observed : Bodies} :
    (∀ id, expected.get? id = (hashed H observed).get? id) ↔
      (∀ id, id ∈ observed.keys ↔ id ∈ expected.keys) ∧
        ∀ id body, observed.get? id = some body → expected.get? id = some (H.hexdigest body) := by
  constructor
  · intro h
    refine ⟨fun id => ?_, fun id body hbody => ?_⟩
    · rw [← keys_hashed H, ← not_iff_not, ← FiniteMap.get?_eq_none, ← FiniteMap.get?_eq_none, h id]
    · rw [h id, get?_hashed, hbody]
      rfl
  · rintro ⟨hids, hhashes⟩ id
    rw [get?_hashed]
    cases hbody : observed.get? id with
    | some body => exact hhashes id body hbody
    | none =>
      rw [FiniteMap.get?_eq_none, hids] at hbody
      exact FiniteMap.get?_eq_none.mpr hbody

/-- The record of a reconciliation passes its validation if the ids and digests are whole, and
is exact for `n` messages if they are the ones expected, with the bodies expected. -/
theorem reconcileDelivery_sound (H : Digest) (expected : Digests) (observed : Bodies) :
    ∃ record : Fields F, reconcileDelivery H expected observed = .ok record ∧
      (Whole expected → (∀ id ∈ observed.keys, Joined id) →
        CollisionFree F H expected (hashed H observed) →
          validateReconciliation (.obj record) = .ok ()) ∧
      ∀ n : ℤ, deliveryExact record n = .ok true ↔
        (expected.keys.length : ℤ) = n ∧ (∀ id, id ∈ observed.keys ↔ id ∈ expected.keys) ∧
          ∀ id body, observed.get? id = some body → expected.get? id = some (H.hexdigest body) := by
  have hsame := FiniteMap.difference_eq_iff (m := expected) (n := hashed H observed)
  have hhex (bytes : Bytes) := And.intro (H.hexdigest_length bytes) (H.isLowerHex_hexdigest bytes)
  refine ⟨_, reconcileDelivery_eq H expected observed, ?_, fun n => ?_⟩
  · intro hexpected hobserved hcollision
    have hdigests := hexdigest_eq_iff (F := F) hexpected (whole_hashed H hobserved) hcollision
    rw [validateReconciliation_record (hhex _) (hhex _), if_neg (not_not.mpr (cardinality _ _)),
      if_pos (hsame.trans hdigests.symm)]
  · have hlength : expected.keys.length = expected.rows.length := List.length_map _
    rw [deliveryExact_record, Except.ok.injEq, decide_eq_true_iff, hsame, ← get?_eq_hashed_iff,
      hlength]
    constructor
    · rintro ⟨hn, -, h, -⟩
      exact ⟨hn, h⟩
    · rintro ⟨hn, h⟩
      rw [canonicalText_congr h, ← (FiniteMap.perm_iff.mpr h).length_eq]
      exact ⟨hn, hn, h, rfl⟩

/-! ### A pair of surrogates -/

/-- A map with one row. -/
def single {ν : Type} (id : Text) (v : ν) : FiniteMap Text ν := ⟨[(id, v)], List.nodup_singleton _⟩

/-- U+D800 and U+DC00, two code points. -/
def surrogatePair : Text := [0xD800, 0xDC00]

/-- U+10000, the one character that the two code units stand for. -/
def supplementary : Text := [0x10000]

theorem canonicalText_single (id digest : Text) : canonicalText F (single id digest) =
    ofChar '{' :: (quote compact id ++ lit ":" ++ quote compact digest ++ [ofChar '}']) := by
  simp [canonicalText, document, single, sortKeys, sortFields, sortField, render, renderFields,
    renderField, Style.keySep, compact]

/-- Both are written as two escapes. -/
theorem canonicalText_surrogates (digest : Text) :
    canonicalText F (single surrogatePair digest) = canonicalText F (single supplementary digest) := by
  have hquote : quote compact surrogatePair = quote compact supplementary := by decide
  rw [canonicalText_single, canonicalText_single, hquote]

/-- The message that was expected under one id is observed under the other. -/
theorem reconcileDelivery_surrogates :
    CollisionFree Tick sha256 (single surrogatePair (sha256.hexdigest []))
        (hashed sha256 (single supplementary [])) ∧
      ∃ record : Fields Tick, reconcileDelivery sha256
          (single surrogatePair (sha256.hexdigest [])) (single supplementary []) = .ok record ∧
        validateReconciliation (.obj record) =
          .error (.valueError (lit "delivery reconciliation digests are inconsistent")) := by
  have hhex (bytes : Bytes) :=
    And.intro (sha256.hexdigest_length bytes) (sha256.isLowerHex_hexdigest bytes)
  have htext : canonicalText Tick (single surrogatePair (sha256.hexdigest [])) =
      canonicalText Tick (hashed sha256 (single supplementary [])) := canonicalText_surrogates _
  have hmissing : (FiniteMap.difference (single surrogatePair (sha256.hexdigest []))
      (hashed sha256 (single supplementary []))).length ≠ 0 := by
    rw [FiniteMap.difference, keys_hashed]
    change ([surrogatePair].filter fun k => k ∉ [supplementary]).length ≠ 0
    decide
  refine ⟨fun _ => by rw [canonical_eq, canonical_eq, htext], _, reconcileDelivery_eq _ _ _, ?_⟩
  rw [validateReconciliation_record (hhex _) (hhex _), if_neg (not_not.mpr (cardinality _ _)),
    htext, if_neg]
  exact fun h => hmissing (h.mpr rfl).1

/-- One message, delivered as expected. -/
theorem reconcileDelivery_sound_one : ∃ record : Fields Tick,
    reconcileDelivery sha256 (single (lit "outbox-1") (sha256.hexdigest []))
      (single (lit "outbox-1") []) = .ok record ∧
    validateReconciliation (.obj record) = .ok () := by
  obtain ⟨record, hrecord, hvalid, -⟩ := reconcileDelivery_sound (F := Tick) sha256
    (single (lit "outbox-1") (sha256.hexdigest [])) (single (lit "outbox-1") [])
  refine ⟨record, hrecord, hvalid ?_ (by decide) fun _ => rfl⟩
  intro r hr
  obtain rfl := List.mem_singleton.mp hr
  exact ⟨by decide, joined_hexdigest sha256 []⟩

end SentinelGRC.Assessment
