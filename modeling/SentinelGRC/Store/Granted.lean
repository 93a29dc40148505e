import SentinelGRC.Store.Table
import SentinelGRC.Transition.Grants

/-!
Tables whose rows say where their key stands. Inserting a row of a granted key grants its
rights, whether or not the key was taken, and an update that withdraws them withdraws.
-/

namespace SentinelGRC.Store.Table

open Transition

variable {ρ κ R : Type} {key : ρ → κ} [DecidableEq κ]

/-- Where the keys of a table stand. -/
def standings (standing : ρ → Standing R) (t : Table ρ κ key) : Standings κ R :=
  fun k => (t.find? k).map standing

variable {standing : ρ → Standing R} {t u : Table ρ κ key} {r : ρ} {k : κ}

theorem standings_eq_none : t.standings standing k = none ↔ t.find? k = none := Option.map_eq_none_iff

theorem standings_eq_some {s : Standing R} :
    t.standings standing k = some s ↔ ∃ r, t.find? k = some r ∧ standing r = s :=
  Option.map_eq_some_iff

theorem standings_insert {rights : R} (hr : standing r = .granted rights) (h : t.insert? r = some u) :
    u.standings standing = (t.standings standing).apply (.grant (key r) rights) := by
  obtain ⟨hnone, -⟩ := insert?_eq_some.mp h
  have hfree : t.standings standing (key r) = none := standings_eq_none.mpr hnone
  funext k
  rw [standings, find?_insert? h, Standings.apply, hfree]
  by_cases hk : key r = k
  · subst hk
    simp [hr]
  · simp [hk, Function.update_of_ne (Ne.symm hk), standings]

theorem standings_taken (h : t.insert? r = none) (rights : R) :
    t.standings standing = (t.standings standing).apply (.grant (key r) rights) := by
  obtain ⟨q, hq⟩ := insert?_eq_none.mp h
  have htaken : t.standings standing (key r) = some (standing q) := standings_eq_some.mpr ⟨q, hq, rfl⟩
  funext k
  rw [Standings.apply, htaken]
  by_cases hk : k = key r
  · subst hk
    simp [htaken]
  · rw [Function.update_of_ne hk]

theorem standings_modify {f : ρ → ρ} (hf : ∀ r, key (f r) = key r)
    (hwithdraw : ∀ r, standing (f r) = (standing r).withdraw) (k : κ) :
    (t.modify k f hf).standings standing = (t.standings standing).apply (.withdraw k) := by
  funext j
  rw [standings, find?_modify, Standings.apply, Option.map_map]
  by_cases hj : j = k
  · subst hj
    simp only [if_true, Function.update_self, standings, Option.map_map]
    congr 1
    funext r
    exact hwithdraw r
  · simp only [if_neg hj, Function.update_of_ne hj, standings]
    rfl

end SentinelGRC.Store.Table
