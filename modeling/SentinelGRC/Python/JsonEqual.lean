import SentinelGRC.Python.JsonRead

/-!
Equality of values without floats and truth values. Two of them are equal to `==` when sorting
their keys makes them the same.
-/

namespace SentinelGRC.Python.Json

variable {F : Type}

/-- Values that hold the same under every key are the same up to the order of their keys. -/
theorem sortKeys_ext {fs gs : Fields F} (hfs : (fs.map Prod.fst).Nodup) (hgs : (gs.map Prod.fst).Nodup)
    (h : ∀ k, (field k fs).map sortKeys = (field k gs).map sortKeys) :
    (Json.obj fs).sortKeys = (Json.obj gs).sortKeys := by
  have hkeys {ds : Fields F} (hds : (ds.map Prod.fst).Nodup) : ((sortFields ds).map Prod.fst).Nodup := by
    rwa [map_fst_sortFields]
  have hperm : (sortFields fs).Perm (sortFields gs) := by
    refine (List.perm_ext_iff_of_nodup (hkeys hfs).of_map (hkeys hgs).of_map).mpr ?_
    rintro ⟨k, v⟩
    rw [← field_eq_some (hkeys hfs), ← field_eq_some (hkeys hgs), field_sortFields, field_sortFields,
      h k]
  have hsame := sortKeys_perm hperm (hkeys hfs)
  rwa [sortKeys, sortKeys, sortFields_sortFields, sortFields_sortFields, ← sortKeys, ← sortKeys] at hsame

theorem field_map_of_sortKeys {fs gs : Fields F} (hfs : (fs.map Prod.fst).Nodup)
    (hgs : (gs.map Prod.fst).Nodup) (h : (Json.obj fs).sortKeys = (Json.obj gs).sortKeys) (k : Text) :
    (field k fs).map sortKeys = (field k gs).map sortKeys := by
  rw [sortKeys_obj, sortKeys_obj] at h
  have hsorted : sortDict fs = sortDict gs := by injection h
  rw [← field_sortKeys hfs, ← field_sortKeys hgs]
  exact congrArg (field k) hsorted

/-- Neither a number with another spelling nor a `dict` that repeats a key. -/
def exactNode : Json F → Bool
  | .bool _ | .float _ => false
  | .obj fs => decide (fs.map Prod.fst).Nodup
  | _ => true

theorem sortStable_exactNode : SortStable (exactNode (F := F)) where
  arr _ := rfl
  obj fs := by simp only [exactNode, (keys_sortKeys fs).nodup_iff]

/-- A value that `==` compares by its text. -/
def Exact (v : Json F) : Prop := v.all exactNode = true

instance (v : Json F) : Decidable (Exact v) := inferInstanceAs (Decidable (_ = true))

theorem exact_sortKeys (v : Json F) : Exact v.sortKeys ↔ Exact v := by
  rw [Exact, sortStable_exactNode.all_sortKeys, Exact]

theorem Exact.distinct {v : Json F} (h : Exact v) : Distinct v := by
  refine all_imp (fun n hn => ?_) h
  cases n with
  | obj fs => exact hn
  | null | bool | int | float | str | arr => rfl

theorem mem_of_field {k : Text} {v : Json F} {fs : Fields F} (h : field k fs = some v) :
    (k, v) ∈ fs := by
  induction fs with
  | nil => cases h
  | cons f fs ih =>
    obtain ⟨key, w⟩ := f
    rw [field] at h
    split_ifs at h with hkey
    · obtain rfl := hkey
      obtain rfl := Option.some.inj h
      exact List.mem_cons_self
    · exact List.mem_cons_of_mem _ (ih h)

/-- Objects of one size where every field of the first is found in the second. -/
theorem sortKeys_obj_eq_iff {fs gs : Fields F} (hfs : (fs.map Prod.fst).Nodup)
    (hgs : (gs.map Prod.fst).Nodup) : (Json.obj fs).sortKeys = (Json.obj gs).sortKeys ↔
      fs.length = gs.length ∧ ∀ f ∈ fs, ∃ w, field f.1 gs = some w ∧ f.2.sortKeys = w.sortKeys := by
  constructor
  · intro h
    refine ⟨?_, fun f hf => ?_⟩
    · have hkeys := (keys_sortKeys fs).length_eq
      have hkeys' := (keys_sortKeys gs).length_eq
      rw [sortKeys, sortKeys] at h
      injection h with h
      rw [h, hkeys', List.length_map, List.length_map] at hkeys
      exact hkeys.symm
    · have hfield := field_map_of_sortKeys hfs hgs h f.1
      rw [(field_eq_some hfs).mpr (show (f.1, f.2) ∈ fs from hf), Option.map_some, eq_comm,
        Option.map_eq_some_iff] at hfield
      obtain ⟨w, hw, hsame⟩ := hfield
      exact ⟨w, hw, hsame.symm⟩
  · rintro ⟨hlength, hfields⟩
    have hsub : fs.map Prod.fst ⊆ gs.map Prod.fst := by
      intro k hk
      obtain ⟨f, hf, rfl⟩ := List.mem_map.mp hk
      obtain ⟨w, hw, -⟩ := hfields f hf
      exact List.mem_map.mpr ⟨_, mem_of_field hw, rfl⟩
    have hkeys : (fs.map Prod.fst).Perm (gs.map Prod.fst) :=
      (List.subperm_of_subset hfs hsub).perm_of_length_le (by simp [hlength])
    refine sortKeys_ext hfs hgs fun k => ?_
    cases hk : field k fs with
    | some v =>
      obtain ⟨w, hw, hsame⟩ := hfields _ ((field_eq_some hfs).mp hk)
      rw [hw, Option.map_some, Option.map_some, hsame]
    | none =>
      rw [field_eq_none, hkeys.mem_iff, ← field_eq_none] at hk
      rw [hk]

variable [PyFloat F]

mutual
/-- `v == w`. -/
theorem pyEq_iff_sortKeys : ∀ {v w : Json F}, Exact v → Exact w →
    (v.pyEq w = true ↔ v.sortKeys = w.sortKeys)
  | .null, w, _, _ => by cases w <;> simp [pyEq, sortKeys]
  | .bool _, _, hv, _ => by cases hv
  | .float _, _, hv, _ => by cases hv
  | .int n, w, _, hw => by
    cases w with
    | bool | float => cases hw
    | int m => simp [pyEq, leafEq, number?, numEq, sortKeys]
    | null | str | arr | obj => simp [pyEq, leafEq, number?, sortKeys]
  | .str s, w, _, _ => by cases w <;> simp [pyEq, sortKeys]
  | .arr xs, w, hv, hw => by
    cases w with
    | arr ys =>
      simp only [Exact, all, Bool.and_eq_true] at hv hw
      simp only [pyEq, sortKeys, Json.arr.injEq]
      exact pyEqItems_iff_sortItems hv.2 hw.2
    | null | bool | int | float | str | obj => simp [pyEq, sortKeys]
  | .obj fs, w, hv, hw => by
    cases w with
    | obj gs =>
      simp only [Exact, all, Bool.and_eq_true, exactNode, decide_eq_true_eq] at hv hw
      rw [sortKeys_obj_eq_iff hv.1 hw.1]
      simp only [pyEq, Bool.and_eq_true, beq_iff_eq]
      rw [pyEqFields_iff_sortKeys hv.2 hw.2]
    | null | bool | int | float | str | arr => simp [pyEq, sortKeys]

theorem pyEqItems_iff_sortItems : ∀ {xs ys : List (Json F)}, allItems exactNode xs = true →
    allItems exactNode ys = true → (pyEqItems xs ys = true ↔ sortItems xs = sortItems ys)
  | [], ys, _, _ => by cases ys <;> simp [pyEqItems, sortItems]
  | x :: xs, ys, hx, hy => by
    cases ys with
    | nil => simp [pyEqItems, sortItems]
    | cons y ys =>
      simp only [allItems, Bool.and_eq_true] at hx hy
      simp only [pyEqItems, sortItems, Bool.and_eq_true, List.cons.injEq]
      rw [pyEq_iff_sortKeys hx.1 hy.1, pyEqItems_iff_sortItems hx.2 hy.2]

theorem pyEqFields_iff_sortKeys : ∀ {fs gs : Fields F}, allFields exactNode fs = true →
    allFields exactNode gs = true → (pyEqFields fs gs = true ↔
      ∀ f ∈ fs, ∃ w, field f.1 gs = some w ∧ f.2.sortKeys = w.sortKeys)
  | [], _, _, _ => by simp [pyEqFields]
  | (k, v) :: fs, gs, hf, hg => by
    simp only [allFields, allField, Bool.and_eq_true] at hf
    simp only [pyEqFields, pyEqField, Bool.and_eq_true, List.forall_mem_cons]
    rw [pyEqFields_iff_sortKeys hf.2 hg]
    refine and_congr_left fun _ => ?_
    cases hk : field k gs with
    | none => simp
    | some w =>
      have hw : Exact w := by
        rw [allFields_eq_all, List.all_eq_true] at hg
        have hall := hg _ (mem_of_field hk)
        rwa [allField_eq] at hall
      simp only [Option.some.injEq, exists_eq_left']
      exact pyEq_iff_sortKeys hf.1 hw
end

theorem pyEq_sortDict {fs gs : Fields F} (hfs : Exact (.obj fs)) (hgs : Exact (.obj gs)) :
    (Json.obj (sortDict fs)).pyEq (.obj (sortDict gs)) = true ↔
      (Json.obj fs).sortKeys = (Json.obj gs).sortKeys := by
  rw [← sortKeys_obj, ← sortKeys_obj, pyEq_iff_sortKeys ((exact_sortKeys _).mpr hfs)
    ((exact_sortKeys _).mpr hgs), sortKeys_sortKeys, sortKeys_sortKeys]

end SentinelGRC.Python.Json
