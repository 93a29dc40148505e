import SentinelGRC.Audit.Files
import SentinelGRC.Protocol.HashChain
import SentinelGRC.Python.JsonEqual
import SentinelGRC.Python.JsonWhole

/-!
Logs of sealed records. A line is a JSON record that holds the hash of the rest of it and names
the hash of the record before. The audit log and the evidence ledger differ only in the key of
the hash and in how the rest is printed, so what they bind is proved once, for any file that
verifies.
-/

namespace SentinelGRC.Audit

open Python Json Protocol

/-- The key under which a record holds its hash, and the style in which the rest is hashed. -/
structure Seal where
  key : Text
  style : Style
  key_ne : lit "previous_hash" ≠ key

variable {F : Type} [PyFloat F]

/-- The bytes that are hashed of a line, if it is a record. -/
def Seal.message? (F : Type) [PyFloat F] (scheme : Seal) (line : Text) : Option Bytes :=
  match (loads line : Except PyError (Json F)) with
  | .ok (.obj fields) =>
    (encodeUtf8 ((Json.obj (pop fields scheme.key)).sortKeys.render scheme.style)).toOption
  | _ => none

def Seal.messages (F : Type) [PyFloat F] (scheme : Seal) (lines : List Text) : List Bytes :=
  lines.filterMap (scheme.message? F)

/-- The line is a record with this link. -/
def Seal.Holds (F : Type) [PyFloat F] (scheme : Seal) (H : Digest) (line : Text) (x : Link Bytes Text) :
    Prop :=
  ∃ fields : Fields F, loads line = .ok (.obj fields) ∧
    encodeUtf8 ((Json.obj (pop fields scheme.key)).sortKeys.render scheme.style) = .ok x.message ∧
    get (pop fields scheme.key) (lit "previous_hash") = .str x.previous ∧
    get fields scheme.key = .str (H.hexdigest x.message)

/-- The lines are a chain from a hash. -/
def Seal.Verified (F : Type) [PyFloat F] (scheme : Seal) (H : Digest) (start : Text) (lines : List Text) :
    Prop :=
  ∃ links final, List.Forall₂ (scheme.Holds F H) lines links ∧ Chained H.hexdigest start links final

/-- Two lines that are the same record, up to the order of its keys. -/
def SameRecord (F : Type) [PyFloat F] (line line' : Text) : Prop :=
  ∃ fields fields' : Fields F, loads line = .ok (.obj fields) ∧ loads line' = .ok (.obj fields') ∧
    (Json.obj fields).sortKeys = (Json.obj fields').sortKeys

variable {scheme : Seal} {H : Digest} {start : Text} {lines lines' : List Text} {line line' : Text}
  {x y : Link Bytes Text}

/-! ### Records -/

omit [PyFloat F] in
theorem roundTrip_pop {st : Style} {fs : Fields F}
    (h : (Json.obj fs).all (roundTripNode st) = true) (key : Text) :
    (Json.obj (pop fs key)).all (roundTripNode st) = true := by
  have hsub : (pop fs key).Sublist fs := List.filter_sublist
  simp only [all, roundTripNode, allFields_eq_all, Bool.and_eq_true, decide_eq_true_eq, List.all_eq_true,
    Bool.or_eq_true] at h ⊢
  obtain ⟨⟨hnodup, hjoined⟩, hfields⟩ := h
  refine ⟨⟨hnodup.sublist (hsub.map _), hjoined.imp_right fun h k hk => ?_⟩, fun f hf => ?_⟩
  · exact h k ((hsub.map _).subset hk)
  · exact hfields f (hsub.subset hf)

omit [PyFloat F] in
theorem field_of_get_str {fs : Fields F} {k t : Text} (h : get fs k = .str t) :
    field k fs = some (.str t) := by
  rw [Json.get] at h
  cases hfield : field k fs with
  | none =>
    rw [hfield] at h
    cases h
  | some v =>
    rw [hfield] at h
    exact congrArg some h

/-- What is hashed of a record determines it, and the hash that it names. -/
theorem Seal.Holds.same (h : scheme.Holds F H line x) (h' : scheme.Holds F H line' y)
    (hline : Scalar line) (hline' : Scalar line') (hmessage : x.message = y.message) :
    x.previous = y.previous ∧ SameRecord F line line' := by
  obtain ⟨fields, hload, hencode, hprevious, hhash⟩ := h
  obtain ⟨fields', hload', hencode', hprevious', hhash'⟩ := h'
  have htrip : (Json.obj (pop fields scheme.key)).all (roundTripNode scheme.style) = true :=
    roundTrip_pop (roundTrip_of_loads hline hload) scheme.key
  have htrip' : (Json.obj (pop fields' scheme.key)).all (roundTripNode scheme.style) = true :=
    roundTrip_pop (roundTrip_of_loads hline' hload') scheme.key
  have htext : (Json.obj (pop fields scheme.key)).sortKeys.render scheme.style =
      (Json.obj (pop fields' scheme.key)).sortKeys.render scheme.style := by
    rw [hmessage] at hencode
    exact Except.ok.inj ((decodeUtf8_encodeUtf8 hencode).symm.trans (decodeUtf8_encodeUtf8 hencode'))
  have hrest : (Json.obj (pop fields scheme.key)).sortKeys = (Json.obj (pop fields' scheme.key)).sortKeys := by
    have hread {v : Json F} (hv : v.all (roundTripNode scheme.style) = true) :
        loads (v.sortKeys.render scheme.style) = .ok v.sortKeys :=
      loads_render (by rw [sortStable_roundTripNode.all_sortKeys, hv])
    exact Except.ok.inj ((hread htrip).symm.trans (htext ▸ hread htrip'))
  have hnodup : (fields.map Prod.fst).Nodup := (distinct_obj.mp (distinct_of_loads hload)).1
  have hnodup' : (fields'.map Prod.fst).Nodup := (distinct_obj.mp (distinct_of_loads hload')).1
  have hpopped {fs : Fields F} (hfs : (fs.map Prod.fst).Nodup) :
      ((pop fs scheme.key).map Prod.fst).Nodup := hfs.sublist (List.filter_sublist.map _)
  have hfield (k : Text) : (field k (pop fields scheme.key)).map sortKeys =
      (field k (pop fields' scheme.key)).map sortKeys :=
    field_map_of_sortKeys (hpopped hnodup) (hpopped hnodup') hrest k
  constructor
  · have hsame := hfield (lit "previous_hash")
    rw [field_of_get_str hprevious, field_of_get_str hprevious'] at hsame
    simpa [sortKeys] using hsame
  · refine ⟨fields, fields', hload, hload', sortKeys_ext hnodup hnodup' fun k => ?_⟩
    by_cases hk : k = scheme.key
    · rw [hk, field_of_get_str hhash, field_of_get_str hhash', hmessage]
    · have hsame := hfield k
      rwa [field_pop hk, field_pop hk] at hsame

/-! ### Lines -/

theorem scalar_universalNewlines {t : Text} (h : Scalar t) : Scalar (universalNewlines t) := by
  have hline : isSurrogate 0xA = false := by decide
  fun_induction universalNewlines t with
  | case1 => exact scalar_nil
  | case2 c =>
    simp only [scalar_cons] at h ⊢
    split_ifs
    · exact ⟨hline, h.2⟩
    · exact h
  | case3 c d rest _ _ ih =>
    simp only [scalar_cons] at h
    exact scalar_cons.mpr ⟨hline, ih h.2.2⟩
  | case4 c d rest _ _ ih =>
    rw [scalar_cons] at h
    exact scalar_cons.mpr ⟨hline, ih h.2⟩
  | case5 c d rest _ ih =>
    rw [scalar_cons] at h
    exact scalar_cons.mpr ⟨h.1, ih h.2⟩

theorem scalar_reverse {t : Text} : Scalar t.reverse ↔ Scalar t := by
  simp only [Scalar, List.mem_reverse]

theorem scalar_splitlinesFrom {l t : Text} (hl : Scalar l) (ht : Scalar t) :
    ∀ x ∈ splitlinesFrom l t, Scalar x := by
  fun_induction splitlinesFrom l t with
  | case1 l =>
    intro x hx
    cases hx
  | case2 l =>
    exact List.forall_mem_singleton.mpr (scalar_reverse.mpr hl)
  | case3 l c =>
    exact List.forall_mem_singleton.mpr (scalar_reverse.mpr hl)
  | case4 l c =>
    exact List.forall_mem_singleton.mpr
      (scalar_reverse.mpr (scalar_cons.mpr ⟨(scalar_cons.mp ht).1, hl⟩))
  | case5 l c d rest _ ih =>
    simp only [scalar_cons] at ht
    exact List.forall_mem_cons.mpr ⟨scalar_reverse.mpr hl, ih scalar_nil ht.2.2⟩
  | case6 l c d rest _ _ ih =>
    rw [scalar_cons] at ht
    exact List.forall_mem_cons.mpr ⟨scalar_reverse.mpr hl, ih scalar_nil ht.2⟩
  | case7 l c d rest _ _ ih =>
    rw [scalar_cons] at ht
    exact ih (scalar_cons.mpr ⟨ht.1, hl⟩) ht.2

/-- What was decoded has no surrogates, nor have its lines. -/
theorem scalar_lines {bytes : Bytes} {text : Text} (h : readText bytes = .ok text) :
    ∀ l ∈ splitlines text, Scalar l := by
  obtain ⟨decoded, hdecoded, h⟩ := bind_eq_ok.mp h
  obtain rfl := Except.ok.inj h
  have hscalar : Scalar decoded := (encodeUtf8_eq_ok.mp (encodeUtf8_decodeUtf8 hdecoded)).1
  exact scalar_splitlinesFrom scalar_nil (scalar_universalNewlines hscalar)

/-! ### Binding -/

theorem Seal.Holds.message (h : scheme.Holds F H line x) : scheme.message? F line = some x.message := by
  obtain ⟨fields, hload, hencode, -, -⟩ := h
  rw [Seal.message?, hload]
  simp only [hencode]
  rfl

/-- The messages of a chain are those of its lines. -/
theorem Seal.messages_eq {links : List (Link Bytes Text)}
    (h : List.Forall₂ (scheme.Holds F H) lines links) :
    scheme.messages F lines = links.map Link.message := by
  induction h with
  | nil => rfl
  | cons hline _ ih =>
    rw [Seal.messages, List.filterMap_cons, hline.message] at *
    rw [List.map_cons, ← ih]

theorem Seal.exists_line {links : List (Link Bytes Text)}
    (h : List.Forall₂ (scheme.Holds F H) lines links) (hx : x ∈ links) :
    ∃ l ∈ lines, scheme.Holds F H l x := by
  induction h with
  | nil => cases hx
  | @cons l y lines links hl _ ih =>
    rcases List.mem_cons.mp hx with rfl | hx
    · exact ⟨l, List.mem_cons_self, hl⟩
    · obtain ⟨l', hl', hx'⟩ := ih hx
      exact ⟨l', List.mem_cons_of_mem l hl', hx'⟩

theorem Seal.sameRecords {links links' : List (Link Bytes Text)}
    (h : List.Forall₂ (scheme.Holds F H) lines links) (h' : List.Forall₂ (scheme.Holds F H) lines' links')
    (hscalar : ∀ l ∈ lines, Scalar l) (hscalar' : ∀ l ∈ lines', Scalar l)
    (hmessages : links.map Link.message = links'.map Link.message) :
    List.Forall₂ (SameRecord F) lines lines' := by
  induction h generalizing lines' links' with
  | nil =>
    obtain rfl := List.map_eq_nil_iff.mp hmessages.symm
    cases h'
    exact .nil
  | @cons line x lines links hline _ ih =>
    cases h' with
    | nil => cases hmessages
    | @cons line' y lines' links' hline' h' =>
      rw [List.map_cons, List.map_cons, List.cons.injEq] at hmessages
      rw [List.forall_mem_cons] at hscalar hscalar'
      exact .cons (hline.same hline' hscalar.1 hscalar'.1 hmessages.1).2
        (ih h' hscalar.2 hscalar'.2 hmessages.2)

theorem forall₂_append_left {α β : Type} {R : α → β → Prop} {as bs : List α} {cs : List β}
    (h : List.Forall₂ R (as ++ bs) cs) :
    ∃ xs ys, cs = xs ++ ys ∧ List.Forall₂ R as xs ∧ List.Forall₂ R bs ys := by
  induction as generalizing cs with
  | nil => exact ⟨[], cs, rfl, .nil, h⟩
  | cons a as ih =>
    cases h with
    | @cons _ c _ cs ha h =>
      obtain ⟨xs, ys, rfl, hxs, hys⟩ := ih h
      exact ⟨c :: xs, ys, rfl, .cons ha hxs, hys⟩

/-- The chain up to a line, and the link of the line. -/
theorem Seal.Verified.split {before after : List Text}
    (h : scheme.Verified F H start (before ++ line :: after)) :
    ∃ links x, List.Forall₂ (scheme.Holds F H) (before ++ [line]) (links ++ [x]) ∧
      scheme.Holds F H line x ∧ Chained H.hexdigest start (links ++ [x]) (H.hexdigest x.message) := by
  obtain ⟨links, final, hholds, hchained⟩ := h
  obtain ⟨links, rest, rfl, hbefore, hrest⟩ := forall₂_append_left hholds
  cases hrest with
  | @cons _ x _ rest hline hafter =>
    refine ⟨links, x, List.rel_append hbefore (.cons hline .nil), hline, ?_⟩
    obtain ⟨middle, hlinks, hx⟩ := chained_append.mp hchained
    obtain _ | ⟨hprevious, -⟩ := hx
    exact chained_concat.mpr ⟨hprevious ▸ hlinks, rfl⟩

/-- In two files that verify, records with the same hash have the same records before them. -/
theorem Seal.Verified.binds {before after before' after' : List Text} {fields fields' : Fields F}
    (h : scheme.Verified F H start (before ++ line :: after))
    (h' : scheme.Verified F H start (before' ++ line' :: after'))
    (hscalar : ∀ l ∈ before ++ line :: after, Scalar l)
    (hscalar' : ∀ l ∈ before' ++ line' :: after', Scalar l)
    (hload : loads line = .ok (.obj fields)) (hload' : loads line' = .ok (.obj fields'))
    (hhash : Json.get fields scheme.key = Json.get fields' scheme.key) :
    List.Forall₂ (SameRecord F) (before ++ [line]) (before' ++ [line']) ∨
      Broken H.hexdigest start (scheme.messages F (before ++ line :: after))
        (scheme.messages F (before' ++ line' :: after')) := by
  have hupTo (before after : List Text) (line : Text) : before ++ [line] ⊆ before ++ line :: after := by
    simp
  obtain ⟨links, x, hholds, hline, hchained⟩ := h.split
  obtain ⟨links', y, hholds', hline', hchained'⟩ := h'.split
  have hsame : H.hexdigest x.message = H.hexdigest y.message := by
    obtain ⟨fs, hfs, -, -, hx⟩ := hline
    obtain ⟨gs, hgs, -, -, hy⟩ := hline'
    cases Except.ok.inj (hload.symm.trans hfs)
    cases Except.ok.inj (hload'.symm.trans hgs)
    rw [hx, hy] at hhash
    injection hhash
  have hsub (before after : List Text) (line : Text) :
      scheme.messages F (before ++ [line]) ⊆ scheme.messages F (before ++ line :: after) := by
    have hsublist : (before ++ [line]).Sublist (before ++ line :: after) :=
      (List.Sublist.refl before).append (by simp)
    exact (hsublist.filterMap _).subset
  have hprevious : ∀ u ∈ links ++ [x], ∀ v ∈ links' ++ [y], u.message = v.message →
      u.previous = v.previous := by
    intro u hu v hv huv
    obtain ⟨l, hl, hlu⟩ := Seal.exists_line hholds hu
    obtain ⟨l', hl', hlv⟩ := Seal.exists_line hholds' hv
    exact (hlu.same hlv (hscalar l (hupTo before after line hl))
      (hscalar' l' (hupTo before' after' line' hl')) huv).1
  rcases hchained.messages_eq (hsame ▸ hchained') hprevious with hmessages | hbroken
  · refine .inl (Seal.sameRecords hholds hholds' (fun l hl => ?_) (fun l hl => ?_) hmessages)
    · exact hscalar l (hupTo before after line hl)
    · exact hscalar' l (hupTo before' after' line' hl)
  · rw [← Seal.messages_eq hholds, ← Seal.messages_eq hholds'] at hbroken
    exact .inr (hbroken.mono (hsub _ _ _) (hsub _ _ _))

end SentinelGRC.Audit
