import Mathlib.Data.Finset.Insert
import SentinelGRC.Graph.Unfolding
import SentinelGRC.Python.Text

/-!
The scan of a workflow for the actions that it uses. The composed document is a graph whose
aliases share nodes or lead back to them. The scan walks it as a tree, with the nodes on
the current path and a budget of visits as its state. It raises, or it has walked the whole
unfolded tree.
-/

namespace SentinelGRC.Assessment

open Python SentinelGRC.Graph

/-! ### Nodes -/

/-- A node that the composer builds, over the identities of nodes. -/
inductive YamlNode (ι : Type)
  | scalar (tag value : Text)
  | sequence (tag : Text) (items : List ι)
  | mapping (tag : Text) (entries : List (ι × ι))

def YamlNode.tag {ι : Type} : YamlNode ι → Text
  | scalar tag _ => tag
  | sequence tag _ => tag
  | mapping tag _ => tag

/-- `STANDARD_YAML_TAGS`. -/
def standardYamlTags : List Text :=
  [lit "tag:yaml.org,2002:bool", lit "tag:yaml.org,2002:float", lit "tag:yaml.org,2002:int",
    lit "tag:yaml.org,2002:map", lit "tag:yaml.org,2002:null", lit "tag:yaml.org,2002:seq",
    lit "tag:yaml.org,2002:str", lit "tag:yaml.org,2002:timestamp"]

def stringTag : Text := lit "tag:yaml.org,2002:str"

/-! ### The scan -/

/-- What the calls share: the references found, the nodes on the path and the visits left. -/
structure Scan (ι : Type) where
  references : List Text
  active : Finset ι
  budget : ℤ

/-- Why a scan stops early. The second is not an outcome of the code; it marks where the
bound on the recursion of the model was too low. -/
inductive Stopped
  | valueError (message : Text)
  | outOfFuel

/-- A call with the state before and after it. -/
abbrev Visit (ι : Type) := Scan ι → Scan ι × Except Stopped Unit

variable {ι : Type}

def refuse (message : String) (s : Scan ι) : Scan ι × Except Stopped Unit :=
  (s, .error (.valueError (lit message)))

/-- The second call, when the first one has returned. -/
def andThen (first next : Visit ι) : Visit ι := fun s =>
  match first s with
  | (s, .ok ()) => next s
  | (s, .error e) => (s, .error e)

/-- The items of a sequence. -/
def collectItems (visit : ι → Visit ι) : List ι → Visit ι
  | [] => fun s => (s, .ok ())
  | item :: rest => andThen (visit item) (collectItems visit rest)

variable (g : ι → YamlNode ι)

/-- The reference of an entry, if its key is `uses`. -/
def usesReference (key : Text) (value : ι) : Except String (List Text) :=
  if key = lit "uses" then
    match g value with
    | .scalar tag text =>
      if tag ≠ stringTag then .error "workflow uses value must be a string scalar"
      else if strip text = [] then .error "workflow uses value must not be empty"
      else .ok [strip text]
    | _ => .error "workflow uses value must be a string scalar"
  else .ok []

/-- `_collect_mapping_action_references`, with the keys that have been seen. -/
def collectMapping (visit : ι → Visit ι) : List (Text × Text) → List (ι × ι) → Visit ι
  | _, [] => fun s => (s, .ok ())
  | keys, (keyNode, valueNode) :: rest => fun s =>
    match g keyNode with
    | .scalar tag key =>
      if tag ∉ standardYamlTags then refuse "workflow mapping key must be scalar" s
      else if (tag, key) ∈ keys then refuse "workflow contains a duplicate mapping key" s
      else
        match usesReference g key valueNode with
        | .error message => refuse message s
        | .ok found =>
          andThen (visit valueNode) (collectMapping visit ((tag, key) :: keys) rest)
            { s with references := s.references ++ found }
    | _ => refuse "workflow mapping key must be scalar" s

/-- The calls for what is below a node. -/
def inside (visit : ι → Visit ι) (node : ι) : Visit ι :=
  match g node with
  | .mapping _ entries => collectMapping g visit [] entries
  | .sequence _ items => collectItems visit items
  | .scalar _ _ => fun s => (s, .ok ())

section Collect

variable [DecidableEq ι]

/-- The call inside a node, which is on the path during the call and taken off it however the
call ends. -/
def within (node : ι) (call : Visit ι) : Visit ι := fun s =>
  let out := call { s with active := insert node s.active }
  ({ out.1 with active := out.1.active.erase node }, out.2)

/-- `_collect_action_references`, with a bound on the depth of the recursion. -/
def collectActionReferences : ℕ → ι → Visit ι
  | 0, _ => fun s => (s, .error .outOfFuel)
  | fuel + 1, node => fun s =>
    let s := { s with budget := s.budget - 1 }
    if s.budget < 0 then refuse "workflow YAML exceeds the structural node limit" s
    else if (g node).tag ∉ standardYamlTags then refuse "workflow contains an unsupported YAML tag" s
    else if node ∈ s.active then refuse "workflow contains a recursive YAML alias" s
    else within node (inside g (collectActionReferences fuel) node) s

end Collect

/-- Nothing found, an empty path and the whole budget. -/
def Scan.start : Scan ι := ⟨[], ∅, 100000⟩

/-! ### The unfolded tree -/

/-- What is below a node: the items of a sequence, and the values of a mapping by the nodes of
their keys. -/
def edges (node : ι) : List (Option ι × ι) :=
  match g node with
  | .scalar _ _ => []
  | .sequence _ items => items.map fun item => (none, item)
  | .mapping _ entries => entries.map fun entry => (some entry.1, entry.2)

/-- The tag and the value of a scalar. -/
def scalar? (node : ι) : Option (Text × Text) :=
  match g node with
  | .scalar tag value => some (tag, value)
  | _ => none

/-- The edge is an entry keyed `uses`. -/
def isUses (edge : Option ι × ι) : Bool :=
  match edge.1.bind (scalar? g) with
  | some (_, key) => key = lit "uses"
  | none => false

/-- The stripped value of a scalar. -/
def stripped (edge : Option ι × ι) : Text := ((scalar? g edge.2).elim [] fun v => strip v.2)

/-- The values of all entries keyed `uses` of an unfolded tree, in document order. -/
def uses (tree : List (Option ι × ι)) : List Text := (tree.filter (isUses g)).map (stripped g)

/-- Distinct scalars of standard tags. -/
def WellKeyed (entries : List (ι × ι)) : Prop :=
  ∃ keys : List (Text × Text), entries.map (fun entry => scalar? g entry.1) = keys.map some ∧
    keys.Nodup ∧ ∀ key ∈ keys, key.1 ∈ standardYamlTags

/-- A node with a standard tag and, if it is a mapping, distinct scalar keys. -/
structure WellFormed (node : ι) : Prop where
  tag : (g node).tag ∈ standardYamlTags
  keys : ∀ tag entries, g node = .mapping tag entries → WellKeyed g entries

/-- The value of an entry keyed `uses` is a string that is not blank. -/
def Named (edge : Option ι × ι) : Prop :=
  isUses g edge = true → ∃ value, g edge.2 = .scalar stringTag value ∧ strip value ≠ []

/-- The state after the walk of a tree. -/
def Scan.walked (s : Scan ι) (tree : List (Option ι × ι)) : Scan ι :=
  { s with references := s.references ++ uses g tree, budget := s.budget - tree.length }

/-- Edges unfold to a tree of which every node and every entry is as it should be. -/
structure Walks (es tree : List (Option ι × ι)) : Prop where
  unfolds : Unfolds (edges g) es tree
  wellFormed : ∀ edge ∈ tree, WellFormed g edge.2
  named : ∀ edge ∈ tree, Named g edge

variable {g} {node : ι} {tree below after es : List (Option ι × ι)} {s s' : Scan ι}
  {visit visit' : ι → Visit ι}

theorem walks_nil : Walks g [] [] := by
  refine ⟨.nil, ?_, ?_⟩ <;> simp

theorem Walks.cons {k : Option ι} (down : Walks g [(k, node)] ((k, node) :: below))
    (along : Walks g es after) : Walks g ((k, node) :: es) ((k, node) :: (below ++ after)) := by
  have hbelow : Unfolds (edges g) (edges g node) below := by
    obtain ⟨below', hdown, -⟩ := down.unfolds.within List.mem_cons_self
    cases down.unfolds with
    | cons hdown' hnil =>
      cases hnil
      simpa using hdown'
  refine ⟨.cons hbelow along.unfolds, ?_, ?_⟩
  · intro edge hedge
    rcases List.mem_append.mp (List.cons_append ▸ hedge : edge ∈ ((k, node) :: below) ++ after) with h | h
    · exact down.wellFormed edge h
    · exact along.wellFormed edge h
  · intro edge hedge
    rcases List.mem_append.mp (List.cons_append ▸ hedge : edge ∈ ((k, node) :: below) ++ after) with h | h
    · exact down.named edge h
    · exact along.named edge h

theorem uses_append (tree after : List (Option ι × ι)) :
    uses g (tree ++ after) = uses g tree ++ uses g after := by
  rw [uses, List.filter_append, List.map_append]
  rfl

theorem uses_cons (edge : Option ι × ι) (tree : List (Option ι × ι)) :
    uses g (edge :: tree) = (if isUses g edge then [stripped g edge] else []) ++ uses g tree := by
  unfold uses
  split_ifs with h <;> simp [h]

@[simp] theorem isUses_none (node : ι) : isUses g (none, node) = false := rfl

theorem named_none (node : ι) : Named g (none, node) := by
  intro h
  cases h

@[simp] theorem Scan.walked_nil (s : Scan ι) : s.walked g [] = s := by
  simp [walked, uses]

theorem Scan.walked_append (s : Scan ι) (tree after : List (Option ι × ι)) :
    (s.walked g tree).walked g after = s.walked g (tree ++ after) := by
  simp only [walked, uses_append, List.append_assoc, List.length_append, Scan.mk.injEq, true_and]
  push_cast
  omega

/-! ### Single calls -/

theorem andThen_eq_ok {first next : Visit ι} :
    andThen first next s = (s', .ok ()) ↔ ∃ m, first s = (m, .ok ()) ∧ next m = (s', .ok ()) := by
  unfold andThen
  rcases hfirst : first s with ⟨m, _ | _⟩
  · simp
  · simp

theorem usesReference_eq_ok {k : ι} {tag key : Text} {found : List Text}
    (hkey : g k = .scalar tag key) : usesReference g key node = .ok found ↔
      Named g (some k, node) ∧
        found = if isUses g (some k, node) then [stripped g (some k, node)] else [] := by
  have huses : isUses g (some k, node) = decide (key = lit "uses") := by
    simp [isUses, scalar?, hkey]
  unfold usesReference Named
  rw [huses]
  by_cases hname : key = lit "uses"
  · rw [if_pos hname, decide_eq_true hname]
    cases hvalue : g node with
    | scalar tag text =>
      simp only [stripped, scalar?, hvalue, Option.elim_some, YamlNode.scalar.injEq, if_true,
        forall_const]
      split_ifs with htag hblank
      · simp [htag]
      · simp [hblank]
      · simp only [Except.ok.injEq]
        constructor
        · rintro rfl
          exact ⟨⟨text, ⟨not_not.mp htag, rfl⟩, hblank⟩, rfl⟩
        · rintro ⟨-, rfl⟩
          rfl
    | _ => simp
  · rw [if_neg hname, decide_eq_false hname]
    simp only [Except.ok.injEq, Bool.false_eq_true, false_implies, true_and, if_false]
    exact eq_comm

theorem refuse_ne_ok {message : String} : refuse message s ≠ (s', .ok ()) := by
  intro h
  cases congrArg Prod.snd h

/-- The state when the reference of an entry has been noted. -/
def Scan.noted (s : Scan ι) (edge : Option ι × ι) : Scan ι :=
  { s with references := s.references ++ if isUses g edge then [stripped g edge] else [] }

/-- What the entry of a mapping has to pass. -/
theorem collectMapping_cons_eq_ok {seen : List (Text × Text)} {k : ι} {rest : List (ι × ι)} :
    collectMapping g visit seen ((k, node) :: rest) s = (s', .ok ()) ↔
      ∃ tag key, g k = .scalar tag key ∧ tag ∈ standardYamlTags ∧ (tag, key) ∉ seen ∧
        Named g (some k, node) ∧ ∃ m, visit node (s.noted (g := g) (some k, node)) = (m, .ok ()) ∧
          collectMapping g visit ((tag, key) :: seen) rest m = (s', .ok ()) := by
  rw [collectMapping]
  cases hkey : g k with
  | scalar tag key =>
    simp only [YamlNode.scalar.injEq]
    by_cases htag : tag ∈ standardYamlTags
    · by_cases hseen : (tag, key) ∈ seen
      · rw [if_neg (not_not.mpr htag), if_pos hseen]
        constructor
        · intro h
          exact absurd h refuse_ne_ok
        · rintro ⟨tag', key', ⟨rfl, rfl⟩, -, hnew, -⟩
          exact absurd hseen hnew
      · rw [if_neg (not_not.mpr htag), if_neg hseen]
        constructor
        · intro h
          cases hreference : usesReference g key node with
          | error message =>
            rw [hreference] at h
            exact absurd h refuse_ne_ok
          | ok found =>
            rw [hreference] at h
            obtain ⟨hnamed, rfl⟩ := (usesReference_eq_ok hkey).mp hreference
            exact ⟨tag, key, ⟨rfl, rfl⟩, htag, hseen, hnamed, andThen_eq_ok.mp h⟩
        · rintro ⟨tag', key', ⟨rfl, rfl⟩, -, -, hnamed, h⟩
          rw [(usesReference_eq_ok hkey).mpr ⟨hnamed, rfl⟩]
          exact andThen_eq_ok.mpr h
    · rw [if_pos htag]
      constructor
      · intro h
        exact absurd h refuse_ne_ok
      · rintro ⟨tag', key', ⟨rfl, rfl⟩, hstandard, -⟩
        exact absurd hstandard htag
  | _ =>
    constructor
    · intro h
      exact absurd h refuse_ne_ok
    · rintro ⟨tag, key, hscalar, -⟩
      cases hscalar

/-! ### Whatever returns has walked the tree -/

variable (g) in
/-- A call that returns has walked the node and all below it, within the budget. -/
def Sound (visit : ι → Visit ι) : Prop :=
  ∀ node s s', visit node s = (s', .ok ()) → 0 ≤ s'.budget ∧
    ∃ below, Walks g [(none, node)] ((none, node) :: below) ∧ s' = s.walked g ((none, node) :: below)

theorem collectItems_sound (hvisit : Sound g visit) {items : List ι} (hbudget : 0 ≤ s.budget)
    (h : collectItems visit items s = (s', .ok ())) : 0 ≤ s'.budget ∧
      ∃ tree, Walks g (items.map fun item => (none, item)) tree ∧ s' = s.walked g tree := by
  induction items generalizing s with
  | nil =>
    obtain rfl : s = s' := congrArg Prod.fst h
    exact ⟨hbudget, [], walks_nil, s.walked_nil.symm⟩
  | cons item rest ih =>
    obtain ⟨m, hfirst, hrest⟩ := andThen_eq_ok.mp h
    obtain ⟨hm, below, hdown, rfl⟩ := hvisit item s m hfirst
    obtain ⟨hbudget', after, halong, rfl⟩ := ih hm hrest
    refine ⟨hbudget', (none, item) :: (below ++ after), hdown.cons halong, ?_⟩
    rw [Scan.walked_append, List.cons_append]

/-- The walk of an entry, whose reference is noted before its value is visited. -/
theorem walked_noted {k : ι} : (s.noted (g := g) (some k, node)).walked g ((none, node) :: below) =
    s.walked g ((some k, node) :: below) := by
  simp [Scan.walked, Scan.noted, uses_cons]

theorem Walks.relabel {k : ι} (h : Walks g [(none, node)] ((none, node) :: below))
    (hnamed : Named g (some k, node)) : Walks g [(some k, node)] ((some k, node) :: below) := by
  refine ⟨?_, ?_, ?_⟩
  · cases h.unfolds with
    | cons down along =>
      cases along
      exact .cons down .nil
  · intro edge hedge
    rcases List.mem_cons.mp hedge with rfl | hedge
    · exact h.wellFormed (none, node) List.mem_cons_self
    · exact h.wellFormed edge (List.mem_cons_of_mem _ hedge)
  · intro edge hedge
    rcases List.mem_cons.mp hedge with rfl | hedge
    · exact hnamed
    · exact h.named edge (List.mem_cons_of_mem _ hedge)

theorem collectMapping_sound (hvisit : Sound g visit) {entries : List (ι × ι)}
    {seen : List (Text × Text)} (hbudget : 0 ≤ s.budget)
    (h : collectMapping g visit seen entries s = (s', .ok ())) : 0 ≤ s'.budget ∧
      (∃ keys : List (Text × Text), entries.map (fun entry => scalar? g entry.1) = keys.map some ∧
        keys.Nodup ∧ ∀ key ∈ keys, key.1 ∈ standardYamlTags ∧ key ∉ seen) ∧
      ∃ tree, Walks g (entries.map fun entry => (some entry.1, entry.2)) tree ∧ s' = s.walked g tree := by
  induction entries generalizing s seen with
  | nil =>
    obtain rfl : s = s' := congrArg Prod.fst h
    exact ⟨hbudget, ⟨[], rfl, List.nodup_nil, by simp⟩, [], walks_nil, s.walked_nil.symm⟩
  | cons entry rest ih =>
    obtain ⟨keyNode, valueNode⟩ := entry
    obtain ⟨tag, key, hkey, htag, hseen, hnamed, m, hfirst, hrest⟩ := collectMapping_cons_eq_ok.mp h
    obtain ⟨hm, below, hdown, rfl⟩ := hvisit valueNode _ m hfirst
    obtain ⟨hbudget', ⟨keys, hkeys, hnodup, hall⟩, after, halong, rfl⟩ := ih hm hrest
    refine ⟨hbudget', ⟨(tag, key) :: keys, ?_, ?_, ?_⟩, (some keyNode, valueNode) :: (below ++ after),
      (hdown.relabel hnamed).cons halong, ?_⟩
    · have hscalar : scalar? g keyNode = some (tag, key) := by simp [scalar?, hkey]
      simp [hkeys, hscalar]
    · rw [List.nodup_cons]
      exact ⟨fun hmem => (hall _ hmem).2 List.mem_cons_self, hnodup⟩
    · intro other hother
      rcases List.mem_cons.mp hother with rfl | hother
      · exact ⟨htag, hseen⟩
      · exact ⟨(hall other hother).1, fun hmem => (hall other hother).2 (List.mem_cons_of_mem _ hmem)⟩
    · rw [walked_noted, Scan.walked_append, List.cons_append]

/-- A node is walked when everything below it is. -/
theorem Walks.of_edges (hwell : WellFormed g node) (h : Walks g (edges g node) below) :
    Walks g [(none, node)] ((none, node) :: below) := by
  refine ⟨?_, ?_, ?_⟩
  · have hcons : Unfolds (edges g) [(none, node)] ((none, node) :: (below ++ [])) :=
      .cons h.unfolds .nil
    rwa [List.append_nil] at hcons
  · intro edge hedge
    rcases List.mem_cons.mp hedge with rfl | hedge
    · exact hwell
    · exact h.wellFormed edge hedge
  · intro edge hedge
    rcases List.mem_cons.mp hedge with rfl | hedge
    · exact named_none node
    · exact h.named edge hedge

theorem inside_sound (hvisit : Sound g visit) (htag : (g node).tag ∈ standardYamlTags)
    (hbudget : 0 ≤ s.budget) (h : inside g visit node s = (s', .ok ())) : 0 ≤ s'.budget ∧
      WellFormed g node ∧ ∃ below, Walks g (edges g node) below ∧ s' = s.walked g below := by
  unfold inside at h
  unfold edges
  cases hnode : g node with
  | scalar tag value =>
    rw [hnode] at h
    obtain rfl : s = s' := congrArg Prod.fst h
    refine ⟨hbudget, ⟨htag, ?_⟩, [], walks_nil, s.walked_nil.symm⟩
    intro _ _ hmapping
    cases hnode.symm.trans hmapping
  | sequence tag items =>
    rw [hnode] at h
    obtain ⟨hbudget', hwalks⟩ := collectItems_sound hvisit hbudget h
    refine ⟨hbudget', ⟨htag, ?_⟩, hwalks⟩
    intro _ _ hmapping
    cases hnode.symm.trans hmapping
  | mapping tag entries =>
    rw [hnode] at h
    obtain ⟨hbudget', ⟨keys, hkeys, hnodup, hall⟩, hwalks⟩ := collectMapping_sound hvisit hbudget h
    refine ⟨hbudget', ⟨htag, ?_⟩, hwalks⟩
    intro _ _ hmapping
    cases hnode.symm.trans hmapping
    exact ⟨keys, hkeys, hnodup, fun key hkey => (hall key hkey).1⟩

variable [DecidableEq ι]

/-- A visit of the node has been paid for, and the node is on the path. -/
def Scan.entered (s : Scan ι) (node : ι) : Scan ι :=
  { s with active := insert node s.active, budget := s.budget - 1 }

theorem within_of_eq {call : Visit ι} {m : Scan ι} {result : Except Stopped Unit}
    (h : call { s with active := insert node s.active } = (m, result)) :
    within node call s = ({ m with active := m.active.erase node }, result) := by
  simp only [within, h]

theorem within_congr {call call' : Visit ι}
    (h : call { s with active := insert node s.active } =
      call' { s with active := insert node s.active }) : within node call s = within node call' s := by
  simp only [within, h]

/-- What a node has to pass. -/
theorem collectActionReferences_succ_eq_ok {fuel : ℕ} :
    collectActionReferences g (fuel + 1) node s = (s', .ok ()) ↔
      1 ≤ s.budget ∧ (g node).tag ∈ standardYamlTags ∧ node ∉ s.active ∧
        ∃ m, inside g (collectActionReferences g fuel) node (s.entered node) = (m, .ok ()) ∧
          s' = { m with active := m.active.erase node } := by
  change (if s.budget - 1 < 0 then _ else _) = _ ↔ _
  by_cases hbudget : s.budget - 1 < 0
  · rw [if_pos hbudget]
    constructor
    · intro h
      exact absurd h refuse_ne_ok
    · rintro ⟨hone, -⟩
      omega
  · rw [if_neg hbudget]
    by_cases htag : (g node).tag ∈ standardYamlTags
    · by_cases hactive : node ∈ s.active
      · rw [if_neg (not_not.mpr htag), if_pos hactive]
        constructor
        · intro h
          exact absurd h refuse_ne_ok
        · rintro ⟨-, -, hnew, -⟩
          exact absurd hactive hnew
      · rw [if_neg (not_not.mpr htag), if_neg hactive]
        rcases hinside : inside g (collectActionReferences g fuel) node (s.entered node) with ⟨m, result⟩
        have hwithin : within node (inside g (collectActionReferences g fuel) node)
            { s with budget := s.budget - 1 } =
              ({ m with active := m.active.erase node }, result) := within_of_eq hinside
        rw [hwithin]
        simp only [Prod.mk.injEq, htag, hactive, not_false_eq_true, true_and]
        constructor
        · rintro ⟨rfl, rfl⟩
          exact ⟨by omega, m, ⟨rfl, rfl⟩, rfl⟩
        · rintro ⟨-, m', ⟨rfl, rfl⟩, rfl⟩
          exact ⟨rfl, rfl⟩
    · rw [if_pos htag]
      constructor
      · intro h
        exact absurd h refuse_ne_ok
      · rintro ⟨-, hstandard, -⟩
        exact absurd hstandard htag

/-- The path is what it was before, and the walk of the node is added to that of its children. -/
theorem walked_entered (hactive : node ∉ s.active) :
    ({ (s.entered node).walked g below with
        active := ((s.entered node).walked g below).active.erase node } : Scan ι) =
      s.walked g ((none, node) :: below) := by
  simp only [Scan.walked, Scan.entered, Finset.erase_insert hactive, uses_cons, isUses_none,
    Bool.false_eq_true, if_false, List.nil_append, List.length_cons, Scan.mk.injEq, true_and]
  push_cast
  omega

theorem collectActionReferences_sound (fuel : ℕ) : Sound g (collectActionReferences g fuel) := by
  induction fuel with
  | zero =>
    intro node s s' h
    cases congrArg Prod.snd h
  | succ fuel ih =>
    intro node s s' h
    obtain ⟨hbudget, htag, hactive, m, hinside, rfl⟩ := collectActionReferences_succ_eq_ok.mp h
    have hentered : 0 ≤ (s.entered node).budget := by
      simp only [Scan.entered]
      omega
    obtain ⟨hbudget', hwell, below, hwalks, rfl⟩ := inside_sound ih htag hentered hinside
    exact ⟨hbudget', below, hwalks.of_edges hwell, walked_entered hactive⟩

/-! ### A well-formed tree within the budget is walked -/

variable (g) in
/-- The scan can walk the tree: its nodes pass, none is on the path, and the visits suffice. -/
structure Ready (s : Scan ι) (tree : List (Option ι × ι)) : Prop where
  wellFormed : ∀ edge ∈ tree, WellFormed g edge.2
  named : ∀ edge ∈ tree, Named g edge
  inactive : ∀ edge ∈ tree, edge.2 ∉ s.active
  affordable : (tree.length : ℤ) ≤ s.budget

variable (g) in
/-- A call returns for a node whose tree the scan can walk, if its depth is within the bound. -/
def Complete (fuel : ℕ) (visit : ι → Visit ι) : Prop :=
  ∀ node below s, Unfolds (edges g) (edges g node) below → Ready g s ((none, node) :: below) →
    below.length < fuel → visit node s = (s.walked g ((none, node) :: below), .ok ())

omit [DecidableEq ι] in
theorem Ready.first {k : Option ι} (h : Ready g s ((k, node) :: (below ++ after))) :
    Ready g s ((none, node) :: below) := by
  have hsub : ∀ edge ∈ below, edge ∈ (k, node) :: (below ++ after) :=
    fun edge hedge => List.mem_cons_of_mem _ (List.mem_append_left _ hedge)
  refine ⟨?_, ?_, ?_, ?_⟩
  · exact List.forall_mem_cons.mpr ⟨h.wellFormed (k, node) List.mem_cons_self,
      fun edge hedge => h.wellFormed edge (hsub edge hedge)⟩
  · exact List.forall_mem_cons.mpr ⟨named_none node, fun edge hedge => h.named edge (hsub edge hedge)⟩
  · exact List.forall_mem_cons.mpr ⟨h.inactive (k, node) List.mem_cons_self,
      fun edge hedge => h.inactive edge (hsub edge hedge)⟩
  · have := h.affordable
    simp only [List.length_cons, List.length_append] at this ⊢
    push_cast at this ⊢
    omega

omit [DecidableEq ι] in
theorem Ready.rest {k : Option ι} (h : Ready g s ((k, node) :: (below ++ after))) :
    Ready g (s.walked g ((k, node) :: below)) after := by
  have hsub : ∀ edge ∈ after, edge ∈ (k, node) :: (below ++ after) :=
    fun edge hedge => List.mem_cons_of_mem _ (List.mem_append_right _ hedge)
  refine ⟨fun edge hedge => h.wellFormed edge (hsub edge hedge),
    fun edge hedge => h.named edge (hsub edge hedge),
    fun edge hedge => h.inactive edge (hsub edge hedge), ?_⟩
  have := h.affordable
  simp only [Scan.walked, List.length_cons, List.length_append] at this ⊢
  push_cast at this ⊢
  omega

omit [DecidableEq ι] in
theorem collectItems_complete {fuel : ℕ} (hvisit : Complete g fuel visit) {items : List ι}
    (hunfolds : Unfolds (edges g) (items.map fun item => (none, item)) tree) (hready : Ready g s tree)
    (hfuel : tree.length ≤ fuel) : collectItems visit items s = (s.walked g tree, .ok ()) := by
  induction items generalizing s tree with
  | nil =>
    cases hunfolds
    rw [Scan.walked_nil]
    rfl
  | cons item rest ih =>
    cases hunfolds with
    | @cons _ _ _ below after down along =>
      simp only [List.length_cons, List.length_append] at hfuel
      refine andThen_eq_ok.mpr ⟨_, hvisit item below s down hready.first (by omega), ?_⟩
      rw [ih along hready.rest (by omega), Scan.walked_append, List.cons_append]

omit [DecidableEq ι] in
theorem collectMapping_complete {fuel : ℕ} (hvisit : Complete g fuel visit) {entries : List (ι × ι)}
    {seen keys : List (Text × Text)}
    (hkeys : entries.map (fun entry => scalar? g entry.1) = keys.map some) (hnodup : keys.Nodup)
    (hall : ∀ key ∈ keys, key.1 ∈ standardYamlTags ∧ key ∉ seen)
    (hunfolds : Unfolds (edges g) (entries.map fun entry => (some entry.1, entry.2)) tree)
    (hready : Ready g s tree) (hfuel : tree.length ≤ fuel) :
    collectMapping g visit seen entries s = (s.walked g tree, .ok ()) := by
  induction entries generalizing s tree seen keys with
  | nil =>
    cases hunfolds
    rw [Scan.walked_nil]
    rfl
  | cons entry rest ih =>
    obtain ⟨keyNode, valueNode⟩ := entry
    cases keys with
    | nil => cases hkeys
    | cons key keys =>
      rw [List.map_cons, List.map_cons, List.cons.injEq] at hkeys
      obtain ⟨hscalar, hkeys⟩ := hkeys
      obtain ⟨hnew, hnodup⟩ := List.nodup_cons.mp hnodup
      obtain ⟨hkey, hall⟩ := List.forall_mem_cons.mp hall
      cases hunfolds with
      | @cons _ _ _ below after down along =>
        simp only [List.length_cons, List.length_append] at hfuel
        have hnode : g keyNode = .scalar key.1 key.2 := by
          simp only [scalar?] at hscalar
          split at hscalar
          · rename_i tag value hnode
            obtain rfl := Option.some.inj hscalar
            exact hnode
          · cases hscalar
        refine collectMapping_cons_eq_ok.mpr ⟨key.1, key.2, hnode, hkey.1, hkey.2,
          hready.named _ List.mem_cons_self, _, hvisit valueNode below _ down ?_ (by omega), ?_⟩
        · exact ⟨hready.first.wellFormed, hready.first.named, hready.first.inactive,
            hready.first.affordable⟩
        · rw [walked_noted]
          rw [ih hkeys hnodup ?_ along hready.rest (by omega), Scan.walked_append, List.cons_append]
          intro other hother
          refine ⟨(hall other hother).1, ?_⟩
          rw [List.mem_cons, not_or]
          refine ⟨?_, (hall other hother).2⟩
          rintro rfl
          exact hnew hother

omit [DecidableEq ι] in
theorem inside_complete {fuel : ℕ} (hvisit : Complete g fuel visit) (hwell : WellFormed g node)
    (hunfolds : Unfolds (edges g) (edges g node) below) (hready : Ready g s below)
    (hfuel : below.length ≤ fuel) : inside g visit node s = (s.walked g below, .ok ()) := by
  unfold edges at hunfolds
  unfold inside
  cases hnode : g node with
  | scalar tag value =>
    rw [hnode] at hunfolds
    cases hunfolds
    rw [Scan.walked_nil]
  | sequence tag items =>
    rw [hnode] at hunfolds
    exact collectItems_complete hvisit hunfolds hready hfuel
  | mapping tag entries =>
    rw [hnode] at hunfolds
    obtain ⟨keys, hkeys, hnodup, hall⟩ := hwell.keys tag entries hnode
    exact collectMapping_complete hvisit hkeys hnodup
      (fun key hkey => ⟨hall key hkey, List.not_mem_nil⟩) hunfolds hready hfuel

theorem collectActionReferences_complete (fuel : ℕ) :
    Complete g fuel (collectActionReferences g fuel) := by
  induction fuel with
  | zero =>
    intro node below s _ _ hfuel
    omega
  | succ fuel ih =>
    intro node below s hunfolds hready hfuel
    have hwell := hready.wellFormed (none, node) List.mem_cons_self
    have hactive := hready.inactive (none, node) List.mem_cons_self
    have haffordable := hready.affordable
    simp only [List.length_cons] at haffordable
    push_cast at haffordable
    have hentered : Ready g (s.entered node) below := by
      refine ⟨fun edge hedge => hready.wellFormed edge (List.mem_cons_of_mem _ hedge),
        fun edge hedge => hready.named edge (List.mem_cons_of_mem _ hedge), ?_, ?_⟩
      · intro edge hedge hmem
        rcases Finset.mem_insert.mp hmem with hsame | hmem
        · exact hunfolds.not_mem (hsame ▸ hedge : (edge.1, node) ∈ below)
        · exact hready.inactive edge (List.mem_cons_of_mem _ hedge) hmem
      · simp only [Scan.entered]
        omega
    refine collectActionReferences_succ_eq_ok.mpr ⟨by omega, hwell.tag, hactive, _,
      inside_complete ih hwell hunfolds hentered (by omega), ?_⟩
    exact (walked_entered hactive).symm

/-! ### The budget bounds the recursion -/

/-- Two calls do the same while the budget is in a range, and neither runs out of fuel. -/
def AgreeUpTo (budget : ℤ) (visit visit' : ι → Visit ι) : Prop :=
  ∀ node s, 0 ≤ s.budget → s.budget ≤ budget →
    visit node s = visit' node s ∧ (visit node s).2 ≠ .error .outOfFuel

theorem ok_ne_outOfFuel : (.ok () : Except Stopped Unit) ≠ .error .outOfFuel := by
  intro h
  cases h

theorem valueError_ne_outOfFuel (message : Text) :
    (.error (.valueError message) : Except Stopped Unit) ≠ .error .outOfFuel := by
  intro h
  cases h

omit [DecidableEq ι] in
theorem andThen_agree {first first' next next' : Visit ι} (hfirst : first s = first' s)
    (hfuel : (first s).2 ≠ .error .outOfFuel)
    (hnext : ∀ m, first s = (m, .ok ()) → next m = next' m ∧ (next m).2 ≠ .error .outOfFuel) :
    andThen first next s = andThen first' next' s ∧ (andThen first next s).2 ≠ .error .outOfFuel := by
  unfold andThen
  rw [← hfirst]
  rcases hout : first s with ⟨m, e | u⟩
  · rw [hout] at hfuel
    exact ⟨rfl, hfuel⟩
  · exact hnext m hout

omit [DecidableEq ι] in
/-- A call that returns leaves a budget in the range. -/
theorem Sound.budget_le (hvisit : Sound g visit) (h : visit node s = (s', .ok ())) :
    0 ≤ s'.budget ∧ s'.budget ≤ s.budget := by
  obtain ⟨hbudget, below, -, rfl⟩ := hvisit node s s' h
  refine ⟨hbudget, ?_⟩
  simp only [Scan.walked]
  omega

omit [DecidableEq ι] in
theorem collectItems_agree {budget : ℤ} (hvisit : Sound g visit)
    (hagree : AgreeUpTo budget visit visit') (items : List ι) (hlow : 0 ≤ s.budget)
    (hhigh : s.budget ≤ budget) : collectItems visit items s = collectItems visit' items s ∧
      (collectItems visit items s).2 ≠ .error .outOfFuel := by
  induction items generalizing s with
  | nil => exact ⟨rfl, ok_ne_outOfFuel⟩
  | cons item rest ih =>
    obtain ⟨hsame, hfuel⟩ := hagree item s hlow hhigh
    refine andThen_agree hsame hfuel ?_
    intro m hm
    obtain ⟨hlow', hle⟩ := hvisit.budget_le hm
    exact ih hlow' (hle.trans hhigh)

omit [DecidableEq ι] in
theorem collectMapping_agree {budget : ℤ} (hvisit : Sound g visit)
    (hagree : AgreeUpTo budget visit visit') (entries : List (ι × ι)) (seen : List (Text × Text))
    (hlow : 0 ≤ s.budget) (hhigh : s.budget ≤ budget) :
    collectMapping g visit seen entries s = collectMapping g visit' seen entries s ∧
      (collectMapping g visit seen entries s).2 ≠ .error .outOfFuel := by
  induction entries generalizing s seen with
  | nil => exact ⟨rfl, ok_ne_outOfFuel⟩
  | cons entry rest ih =>
    obtain ⟨keyNode, valueNode⟩ := entry
    rw [collectMapping, collectMapping]
    cases g keyNode with
    | scalar tag key =>
      simp only
      split_ifs with htag hseen
      · exact ⟨rfl, valueError_ne_outOfFuel _⟩
      · cases usesReference g key valueNode with
        | error message => exact ⟨rfl, valueError_ne_outOfFuel _⟩
        | ok found =>
          obtain ⟨hsame, hfuel⟩ :=
            hagree valueNode { s with references := s.references ++ found } hlow hhigh
          refine andThen_agree hsame hfuel ?_
          intro m hm
          obtain ⟨hlow', hle⟩ := hvisit.budget_le hm
          exact ih _ hlow' (hle.trans hhigh)
      · exact ⟨rfl, valueError_ne_outOfFuel _⟩
    | _ => exact ⟨rfl, valueError_ne_outOfFuel _⟩

omit [DecidableEq ι] in
theorem inside_agree {budget : ℤ} (hvisit : Sound g visit) (hagree : AgreeUpTo budget visit visit')
    (node : ι) (hlow : 0 ≤ s.budget) (hhigh : s.budget ≤ budget) :
    inside g visit node s = inside g visit' node s ∧
      (inside g visit node s).2 ≠ .error .outOfFuel := by
  unfold inside
  cases g node with
  | scalar tag value => exact ⟨rfl, ok_ne_outOfFuel⟩
  | sequence tag items => exact collectItems_agree hvisit hagree items hlow hhigh
  | mapping tag entries => exact collectMapping_agree hvisit hagree entries [] hlow hhigh

/-- Every call takes one visit from the budget, so bounds above the budget make no difference. -/
theorem collectActionReferences_agree (fuel fuel' : ℕ) {budget : ℤ} (hfuel : budget < fuel)
    (hfuel' : budget < fuel') :
    AgreeUpTo budget (collectActionReferences g fuel) (collectActionReferences g fuel') := by
  induction fuel generalizing fuel' budget with
  | zero =>
    intro node s hlow hhigh
    push_cast at hfuel
    omega
  | succ fuel ih =>
    intro node s hlow hhigh
    cases fuel' with
    | zero =>
      push_cast at hfuel'
      omega
    | succ fuel' =>
      push_cast at hfuel hfuel'
      change (if s.budget - 1 < 0 then _ else _) = (if s.budget - 1 < 0 then _ else _) ∧
        (if s.budget - 1 < 0 then _ else _ : Scan ι × Except Stopped Unit).2 ≠ _
      split_ifs with hbudget htag hactive
      · exact ⟨rfl, valueError_ne_outOfFuel _⟩
      · exact ⟨rfl, valueError_ne_outOfFuel _⟩
      · have hagree : AgreeUpTo (budget - 1) (collectActionReferences g fuel)
            (collectActionReferences g fuel') := ih fuel' (by omega) (by omega)
        have hentered : 0 ≤ (s.entered node).budget ∧ (s.entered node).budget ≤ budget - 1 := by
          simp only [Scan.entered]
          omega
        obtain ⟨hsame, hout⟩ := inside_agree (collectActionReferences_sound fuel) hagree node
          hentered.1 hentered.2
        exact ⟨within_congr hsame, hout⟩
      · exact ⟨rfl, valueError_ne_outOfFuel _⟩

/-! ### The scan of a document -/

/-- The scan of every finite graph terminates: no bound above the budget is reached. It raises
a `ValueError`, or it has found the references of the whole unfolded tree; and it returns
whenever the document is well formed and its tree within the budget. -/
theorem action_references_complete [Fintype ι] (g : ι → YamlNode ι) (root : ι) :
    ∃ out : Scan ι × Except Stopped Unit,
      (∀ fuel : ℕ, 100000 < fuel → collectActionReferences g fuel root Scan.start = out) ∧
      ((∃ message, out.2 = .error (.valueError message)) ∨
        out.2 = .ok () ∧ AcyclicFrom (edges g) root ∧
          (∀ node, Reaches (edges g) root node → WellFormed g node) ∧
          ∃ tree, Unfolds (edges g) [(none, root)] tree ∧ (∀ edge ∈ tree, Named g edge) ∧
            out.1.references = uses g tree) ∧
      (AcyclicFrom (edges g) root → (∀ node, Reaches (edges g) root node → WellFormed g node) →
        (∀ tree, Unfolds (edges g) [(none, root)] tree →
          (∀ edge ∈ tree, Named g edge) ∧ tree.length ≤ 100000) → out.2 = .ok ()) := by
  have hrange : (0 : ℤ) ≤ (Scan.start : Scan ι).budget ∧ (Scan.start : Scan ι).budget ≤ 100000 := by
    have hstart : (Scan.start : Scan ι).budget = 100000 := rfl
    omega
  have hagree : ∀ fuel : ℕ, 100000 < fuel →
      AgreeUpTo 100000 (collectActionReferences g 100001) (collectActionReferences g fuel) :=
    fun fuel hfuel => collectActionReferences_agree 100001 fuel (by omega) (by omega)
  refine ⟨collectActionReferences g 100001 root Scan.start, ?_, ?_, ?_⟩
  · intro fuel hfuel
    exact (hagree fuel hfuel root Scan.start hrange.1 hrange.2).1.symm
  · rcases hout : collectActionReferences g 100001 root Scan.start with ⟨s, e | u⟩
    · cases e with
      | valueError message => exact .inl ⟨message, rfl⟩
      | outOfFuel =>
        have hfuel := (hagree 100001 (by decide) root Scan.start hrange.1 hrange.2).2
        rw [hout] at hfuel
        exact absurd rfl hfuel
    · obtain ⟨-, below, hwalks, rfl⟩ := collectActionReferences_sound 100001 root Scan.start s hout
      refine .inr ⟨rfl, hwalks.unfolds.acyclicFrom, ?_, _, hwalks.unfolds, hwalks.named, rfl⟩
      intro node hreach
      obtain ⟨k, hmem⟩ := hwalks.unfolds.mem_iff.mpr ⟨(none, root), List.mem_singleton_self _, hreach⟩
      exact hwalks.wellFormed (k, node) hmem
  · intro hacyclic hwell hnamed
    obtain ⟨tree, hunfolds⟩ := hacyclic.exists_unfolds none
    obtain ⟨hnames, hlength⟩ := hnamed tree hunfolds
    cases hunfolds with
    | @cons _ _ _ below _ down along =>
      cases along
      rw [List.append_nil] at hnames hlength
      have hready : Ready g Scan.start ((none, root) :: below) := by
        refine ⟨?_, hnames, fun _ _ => Finset.notMem_empty _, ?_⟩
        · rintro ⟨k, node⟩ hedge
          obtain ⟨e, he, hreach⟩ := (Unfolds.cons down .nil).mem_iff.mp
            ⟨k, by rw [List.append_nil]; exact hedge⟩
          obtain rfl := List.mem_singleton.mp he
          exact hwell node hreach
        · have hstart : (Scan.start : Scan ι).budget = 100000 := rfl
          omega
      rw [List.length_cons] at hlength
      rw [collectActionReferences_complete 100001 root _ Scan.start down hready (by omega)]

/-- `workflow_action_references`: the references and the number of failures. The composer gives
the roots of the documents of a text, or raises. -/
def workflowActionReferences (g : ι → YamlNode ι) (compose : Text → Option (List ι)) (text : Text) :
    List Text × ℕ :=
  match encodeUtf8 text, compose text with
  | .ok bytes, some [root] =>
    match g root, collectActionReferences g 100001 root Scan.start with
    | .mapping _ _, (s, .ok ()) => if 1048576 < bytes.length then ([], 1) else (s.references, 0)
    | _, _ => ([], 1)
  | _, _ => ([], 1)

/-- Without a failure the references are those of the one document of the text. -/
theorem workflowActionReferences_eq {compose : Text → Option (List ι)} {text : Text}
    {references : List Text} (h : workflowActionReferences g compose text = (references, 0)) :
    ∃ root tree, compose text = some [root] ∧ Unfolds (edges g) [(none, root)] tree ∧
      (∀ edge ∈ tree, Named g edge) ∧ references = uses g tree := by
  unfold workflowActionReferences at h
  split at h
  · rename_i bytes root hbytes hroot
    split at h
    · rename_i tag entries s hnode hscan
      split_ifs at h
      · cases congrArg Prod.snd h
      obtain ⟨-, below, hwalks, rfl⟩ := collectActionReferences_sound 100001 root Scan.start s hscan
      exact ⟨root, _, hroot, hwalks.unfolds, hwalks.named, (congrArg Prod.fst h).symm⟩
    · cases congrArg Prod.snd h
  · cases congrArg Prod.snd h

end SentinelGRC.Assessment
