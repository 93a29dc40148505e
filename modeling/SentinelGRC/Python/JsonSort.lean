import SentinelGRC.Python.Json

/-! What sorting the keys of a value keeps: the keys of each object up to
their order, every check that does not look at that order, the value under each
key. Sorting twice is sorting once, so a value and its sorted copy print alike. -/

namespace SentinelGRC.Python.Json

variable {F : Type}

/-! ### Keys -/

theorem sortFields_eq_map (fs : List (Text × Json F)) : sortFields fs = fs.map sortField := by
  induction fs with
  | nil => rfl
  | cons f fs ih => rw [sortFields, ih, List.map_cons]

theorem sortField_fst (f : Text × Json F) : (sortField f).1 = f.1 := by rw [sortField]

theorem map_fst_sortFields (fs : List (Text × Json F)) :
    (sortFields fs).map Prod.fst = fs.map Prod.fst := by
  rw [sortFields_eq_map, List.map_map]
  exact List.map_congr_left fun f _ => sortField_fst f

theorem keys_sortKeys (fs : List (Text × Json F)) :
    (((sortFields fs).insertionSort fieldLe).map Prod.fst).Perm (fs.map Prod.fst) := by
  rw [← map_fst_sortFields fs]
  exact (List.perm_insertionSort fieldLe _).map _

theorem allField_eq (p : Json F → Bool) (f : Text × Json F) : allField p f = f.2.all p := by
  rcases f with ⟨k, v⟩
  rfl

theorem allFields_eq_all (p : Json F → Bool) (fs : List (Text × Json F)) :
    allFields p fs = fs.all (allField p) := by
  induction fs with
  | nil => rfl
  | cons f fs ih => rw [allFields, ih, List.all_cons]

/-! ### Checks -/

/-- A node check that sorting the keys does not change. -/
structure SortStable (p : Json F → Bool) : Prop where
  arr : ∀ xs, p (.arr (sortItems xs)) = p (.arr xs)
  obj : ∀ fs, p (.obj ((sortFields fs).insertionSort fieldLe)) = p (.obj fs)

mutual
theorem SortStable.all_sortKeys {p : Json F → Bool} (hp : SortStable p) :
    ∀ v : Json F, v.sortKeys.all p = v.all p
  | .null | .bool _ | .int _ | .float _ | .str _ => rfl
  | .arr xs => by rw [sortKeys, all, all, hp.arr, hp.all_sortItems xs]
  | .obj fs => by
    have hperm := List.perm_insertionSort fieldLe (sortFields fs)
    rw [sortKeys, all, all, hp.obj, allFields_eq_all, hperm.all_eq, ← allFields_eq_all,
      hp.all_sortFields fs]

theorem SortStable.all_sortItems {p : Json F → Bool} (hp : SortStable p) :
    ∀ xs : List (Json F), allItems p (sortItems xs) = allItems p xs
  | [] => rfl
  | x :: xs => by rw [sortItems, allItems, allItems, hp.all_sortKeys x, hp.all_sortItems xs]

theorem SortStable.all_sortFields {p : Json F → Bool} (hp : SortStable p) :
    ∀ fs : List (Text × Json F), allFields p (sortFields fs) = allFields p fs
  | [] => rfl
  | (k, v) :: fs => by
    rw [sortFields, sortField, allFields, allFields, allField, allField, hp.all_sortKeys v,
      hp.all_sortFields fs]
end

theorem sortStable_printableNode : SortStable (printableNode (F := F)) :=
  ⟨fun _ => rfl, fun _ => rfl⟩

theorem printable_sortKeys (v : Json F) : Printable v.sortKeys ↔ Printable v := by
  rw [Printable, Printable, sortStable_printableNode.all_sortKeys]

instance : Std.Total (fieldLe (F := F)) := ⟨fun f g => keyLe_total f.1 g.1⟩

instance : IsTrans (Text × Json F) fieldLe := ⟨fun _ _ _ => keyLe_trans⟩

/-! ### Sorting twice -/

mutual
theorem sortKeys_sortKeys : ∀ v : Json F, v.sortKeys.sortKeys = v.sortKeys
  | .null | .bool _ | .int _ | .float _ | .str _ => rfl
  | .arr xs => by rw [sortKeys, sortKeys, sortItems_sortItems xs]
  | .obj fs => by
    have hmap : sortFields ((sortFields fs).insertionSort fieldLe) =
        (sortFields fs).insertionSort fieldLe := by
      rw [sortFields_eq_map, List.map_insertionSort fieldLe fieldLe sortField _
        (fun f _ g _ => by simp only [fieldLe, sortField_fst]), ← sortFields_eq_map, sortFields_sortFields fs]
    rw [sortKeys, sortKeys, hmap, (List.pairwise_insertionSort fieldLe _).insertionSort_eq]

theorem sortItems_sortItems : ∀ xs : List (Json F), sortItems (sortItems xs) = sortItems xs
  | [] => rfl
  | x :: xs => by rw [sortItems, sortItems, sortKeys_sortKeys x, sortItems_sortItems xs]

theorem sortFields_sortFields :
    ∀ fs : List (Text × Json F), sortFields (sortFields fs) = sortFields fs
  | [] => rfl
  | (k, v) :: fs => by
    rw [sortFields, sortFields, sortField, sortField, sortKeys_sortKeys v,
      sortFields_sortFields fs]
end

/-! ### Distinct keys -/

/-- An object without a repeated key, as a `dict` is. -/
def distinctNode : Json F → Bool
  | .obj fs => decide (fs.map Prod.fst).Nodup
  | _ => true

/-- Distinct keys in every object of the value. -/
def Distinct (v : Json F) : Prop := v.all distinctNode = true

instance (v : Json F) : Decidable (Distinct v) := inferInstanceAs (Decidable (_ = true))

theorem distinct_obj {fs : List (Text × Json F)} :
    Distinct (.obj fs) ↔ (fs.map Prod.fst).Nodup ∧ ∀ f ∈ fs, Distinct f.2 := by
  simp only [Distinct, all, distinctNode, Bool.and_eq_true, decide_eq_true_eq, allFields_eq_all,
    List.all_eq_true, allField_eq]

theorem keyLe_antisymm_of_nodup {fs : List (Text × Json F)} (hd : (fs.map Prod.fst).Nodup)
    {f g : Text × Json F} (hf : f ∈ fs) (hg : g ∈ fs) (hfg : fieldLe f g) (hgf : fieldLe g f) :
    f = g :=
  List.inj_on_of_nodup_map hd hf hg (keyLe_antisymm hfg hgf)

/-- The order in which the keys of an object were set does not matter. -/
theorem sortKeys_perm {fs gs : List (Text × Json F)} (h : fs.Perm gs)
    (hd : (fs.map Prod.fst).Nodup) : (Json.obj fs).sortKeys = (Json.obj gs).sortKeys := by
  have hp : ((sortFields fs).insertionSort fieldLe).Perm ((sortFields gs).insertionSort fieldLe) := by
    rw [sortFields_eq_map, sortFields_eq_map]
    exact (List.perm_insertionSort _ _).trans
      ((h.map _).trans (List.perm_insertionSort _ _).symm)
  have hd' : (((sortFields fs).insertionSort fieldLe).map Prod.fst).Nodup :=
    (keys_sortKeys fs).nodup_iff.mpr hd
  rw [sortKeys, sortKeys]
  congr 1
  refine List.Perm.eq_of_pairwise (fun f g hf hg => keyLe_antisymm_of_nodup hd' hf (hp.mem_iff.mpr hg))
    (List.pairwise_insertionSort _ _) (List.pairwise_insertionSort _ _) hp

/-! ### Lookup -/

theorem field_eq_some {fs : List (Text × Json F)} (hd : (fs.map Prod.fst).Nodup) {key : Text}
    {v : Json F} : field key fs = some v ↔ (key, v) ∈ fs := by
  induction fs with
  | nil => simp [field]
  | cons f fs ih =>
    rcases f with ⟨k, w⟩
    rw [List.map_cons, List.nodup_cons] at hd
    rw [field, List.mem_cons, Prod.mk.injEq]
    by_cases hk : k = key
    · subst hk
      have hout : (k, v) ∉ fs := fun h => hd.1 (List.mem_map.mpr ⟨_, h, rfl⟩)
      simp [hout, eq_comm]
    · rw [if_neg hk, ih hd.2]
      simp [Ne.symm hk]

theorem field_perm {fs gs : List (Text × Json F)} (h : fs.Perm gs) (hd : (fs.map Prod.fst).Nodup)
    (key : Text) : field key fs = field key gs := by
  have hd' : (gs.map Prod.fst).Nodup := (h.map Prod.fst).nodup_iff.mp hd
  apply Option.ext
  intro v
  rw [field_eq_some hd, field_eq_some hd', h.mem_iff]

theorem field_sortFields (key : Text) (fs : List (Text × Json F)) :
    field key (sortFields fs) = (field key fs).map sortKeys := by
  induction fs with
  | nil => rfl
  | cons f fs ih =>
    rcases f with ⟨k, v⟩
    rw [sortFields, sortField, field, field, ih]
    split_ifs <;> rfl

/-- Sorting moves no value to another key. -/
theorem field_sortKeys {fs : List (Text × Json F)} (hd : (fs.map Prod.fst).Nodup) (key : Text) :
    field key ((sortFields fs).insertionSort fieldLe) = (field key fs).map sortKeys := by
  have hd' : ((sortFields fs).map Prod.fst).Nodup := by rwa [map_fst_sortFields]
  rw [← field_sortFields]
  exact (field_perm (List.perm_insertionSort fieldLe _).symm hd' key).symm

end SentinelGRC.Python.Json
