-- Reachability in a finite directed graph given by its list of edges, decided by
-- a search with a stack and a set of visited nodes; and the law that an edge
-- closes a cycle exactly when its target already reaches its source.
import Mathlib.Data.List.Basic
import Mathlib.Logic.Relation

namespace Graph

variable {α : Type*}

/-- `b` follows `a` along one edge. -/
def Edge (edges : List (α × α)) (a b : α) : Prop := (a, b) ∈ edges

def Acyclic (edges : List (α × α)) : Prop := ∀ a, ¬ Relation.TransGen (Edge edges) a a

/-! ## The search -/

variable {edges more : List (α × α)}

section Search

variable [DecidableEq α]

def successors (edges : List (α × α)) (a : α) : List α :=
  (edges.filter fun e => e.1 = a).map (·.2)

theorem mem_successors {a b : α} :
    b ∈ successors edges a ↔ Edge edges a b := by
  simp [successors, Edge]

/-- Pop a node; stop at the target; expand a node at its first visit. The successors
are pushed in order, so the last one is popped first. -/
def search (edges : List (α × α)) (target : α) : Nat → List α → List α → Option Bool
  | 0, _, _ => none
  | _ + 1, [], _ => some false
  | n + 1, a :: pending, visited =>
    if a = target then some true
    else if a ∈ visited then search edges target n pending visited
    else search edges target n ((successors edges a).reverse ++ pending) (a :: visited)

/-- The edges that the search has still to follow. -/
def unfollowed (edges : List (α × α)) (visited : List α) : Nat :=
  (edges.filter fun e => e.1 ∉ visited).length

theorem unfollowed_cons (edges : List (α × α)) (visited : List α) (a : α) (h : a ∉ visited) :
    unfollowed edges (a :: visited) + (successors edges a).length = unfollowed edges visited := by
  induction edges with
  | nil => rfl
  | cons e edges ih =>
    simp only [unfollowed, successors, List.length_map] at ih ⊢
    by_cases ha : e.1 = a
    · have hv : e.1 ∉ visited := ha ▸ h
      simp only [List.filter_cons, List.mem_cons, ha, true_or, not_true, decide_false,
        Bool.false_eq_true, if_false, decide_true, if_true, List.length_cons] at ih ⊢
      simp only [h, not_false_eq_true, decide_true, if_true, List.length_cons]
      omega
    · by_cases hv : e.1 ∈ visited
      · simpa [List.filter_cons, ha, hv] using ih
      · simp only [List.filter_cons, List.mem_cons, ha, hv, or_self, not_false_eq_true, decide_true,
          if_true, decide_false, Bool.false_eq_true, if_false, List.length_cons] at ih ⊢
        omega

/-- Fuel for one pop of every pending node and of every edge to follow is enough. -/
theorem search_ends (edges : List (α × α)) (target : α) (n : Nat) (pending visited : List α)
    (h : pending.length + unfollowed edges visited < n) :
    ∃ b, search edges target n pending visited = some b := by
  induction n generalizing pending visited with
  | zero => omega
  | succ n ih =>
    cases pending with
    | nil => exact ⟨false, rfl⟩
    | cons a pending =>
      simp only [List.length_cons] at h
      unfold search
      split_ifs with ht hv
      · exact ⟨true, rfl⟩
      · exact ih _ _ (by omega)
      · have := unfollowed_cons edges visited a hv
        refine ih _ _ ?_
        simp only [List.length_append, List.length_reverse]
        omega

theorem search_true {target : α} {n : Nat} {pending visited : List α}
    (h : search edges target n pending visited = some true) :
    ∃ a ∈ pending, Relation.ReflTransGen (Edge edges) a target := by
  induction n generalizing pending visited with
  | zero => simp [search] at h
  | succ n ih =>
    cases pending with
    | nil => simp [search] at h
    | cons a pending =>
      unfold search at h
      split_ifs at h with ht hv
      · exact ⟨a, by simp, ht ▸ .refl⟩
      · obtain ⟨b, hb, hr⟩ := ih h
        exact ⟨b, by simp [hb], hr⟩
      · obtain ⟨b, hb, hr⟩ := ih h
        simp only [List.mem_append, List.mem_reverse, mem_successors] at hb
        rcases hb with hb | hb
        · exact ⟨a, by simp, .head hb hr⟩
        · exact ⟨b, by simp [hb], hr⟩

/-- Every successor of a visited node is visited or pending, and the target was not met. -/
structure Frontier (edges : List (α × α)) (target : α) (pending visited : List α) : Prop where
  closed : ∀ a ∈ visited, ∀ b, Edge edges a b → b ∈ visited ∨ b ∈ pending
  unmet : target ∉ visited

theorem search_false {target : α} {n : Nat} {pending visited : List α}
    (hf : Frontier edges target pending visited)
    (h : search edges target n pending visited = some false) :
    ∀ a, a ∈ visited ∨ a ∈ pending → ¬ Relation.ReflTransGen (Edge edges) a target := by
  induction n generalizing pending visited with
  | zero => simp [search] at h
  | succ n ih =>
    cases pending with
    | nil =>
      -- nothing is pending, so the visited nodes are closed under the edges
      intro a ha hr
      have hin : ∀ x, Relation.ReflTransGen (Edge edges) a x → x ∈ visited := by
        intro x hx
        induction hx with
        | refl => simpa using ha
        | tail _ he ihx => simpa using hf.closed _ ihx _ he
      exact hf.unmet (hin target hr)
    | cons a pending =>
      unfold search at h
      split_ifs at h with ht hv
      · cases h
      · have hf' : Frontier edges target pending visited := by
          refine ⟨fun x hx y hy => ?_, hf.unmet⟩
          rcases hf.closed x hx y hy with h1 | h1
          · exact Or.inl h1
          · rcases List.mem_cons.mp h1 with rfl | h1
            · exact Or.inl hv
            · exact Or.inr h1
        intro x hx
        refine ih hf' h x ?_
        rcases hx with hx | hx
        · exact Or.inl hx
        · rcases List.mem_cons.mp hx with rfl | hx
          · exact Or.inl hv
          · exact Or.inr hx
      · have hf' :
            Frontier edges target ((successors edges a).reverse ++ pending) (a :: visited) := by
          refine ⟨fun x hx y hy => ?_, ?_⟩
          · rcases List.mem_cons.mp hx with rfl | hx
            · exact Or.inr (by simp [mem_successors, hy])
            · rcases hf.closed x hx y hy with h1 | h1
              · exact Or.inl (by simp [h1])
              · rcases List.mem_cons.mp h1 with rfl | h1
                · exact Or.inl (by simp)
                · exact Or.inr (by simp [h1])
          · simp only [List.mem_cons, not_or]
            exact ⟨fun h => ht h.symm, hf.unmet⟩
        intro x hx
        refine ih hf' h x ?_
        rcases hx with hx | hx
        · exact Or.inl (by simp [hx])
        · rcases List.mem_cons.mp hx with rfl | hx
          · exact Or.inl (by simp)
          · exact Or.inr (by simp [hx])

/-- The search from one node, with fuel for the whole graph. -/
def reaches (edges : List (α × α)) (source target : α) : Bool :=
  (search edges target (edges.length + 2) [source] []).getD false

/-- The search always ends, and decides reachability. -/
theorem reaches_iff (edges : List (α × α)) (source target : α) :
    reaches edges source target = true ↔ Relation.ReflTransGen (Edge edges) source target := by
  have hfuel : [source].length + unfollowed edges [] < edges.length + 2 := by
    have : unfollowed edges [] ≤ edges.length := List.length_filter_le _ _
    simp only [List.length_singleton]
    omega
  obtain ⟨b, hb⟩ := search_ends edges target _ _ _ hfuel
  simp only [reaches, hb, Option.getD_some]
  constructor
  · rintro rfl
    obtain ⟨a, ha, hr⟩ := search_true hb
    simpa using (List.mem_singleton.mp ha) ▸ hr
  · intro hr
    cases b with
    | true => rfl
    | false => exact absurd hr (search_false ⟨by simp, by simp⟩ hb source (by simp))

end Search

/-! ## A new edge -/

/-- A path of the larger graph stays in the old one, or takes the new edge. -/
theorem transGen_append {p q a b : α}
    (h : Relation.TransGen (Edge (edges ++ [(p, q)])) a b) :
    Relation.TransGen (Edge edges) a b ∨
      (Relation.ReflTransGen (Edge edges) a p ∧ Relation.ReflTransGen (Edge edges) q b) := by
  have hedge : ∀ x y, Edge (edges ++ [(p, q)]) x y → Edge edges x y ∨ (x = p ∧ y = q) := by
    intro x y h
    simpa [Edge] using h
  induction h with
  | single h =>
    rcases hedge _ _ h with h | ⟨rfl, rfl⟩
    · exact Or.inl (.single h)
    · exact Or.inr ⟨.refl, .refl⟩
  | @tail x y _ h ih =>
    rcases hedge _ _ h with h | ⟨rfl, rfl⟩
    · rcases ih with ih | ⟨h1, h2⟩
      · exact Or.inl (ih.tail h)
      · exact Or.inr ⟨h1, h2.tail h⟩
    · rcases ih with ih | ⟨h1, _⟩
      · exact Or.inr ⟨ih.to_reflTransGen, .refl⟩
      · exact Or.inr ⟨h1, .refl⟩

/-- A path of the larger graph takes the first edges alone, or passes one of the others. -/
theorem transGen_append_or {a b : α}
    (h : Relation.TransGen (Edge (edges ++ more)) a b) :
    Relation.TransGen (Edge edges) a b ∨ ∃ e ∈ more,
      Relation.ReflTransGen (Edge (edges ++ more)) a e.1 ∧
        Relation.ReflTransGen (Edge (edges ++ more)) e.2 b := by
  induction h with
  | single hstep =>
    rcases List.mem_append.mp hstep with hstep | hstep
    · exact Or.inl (.single hstep)
    · exact Or.inr ⟨_, hstep, .refl, .refl⟩
  | tail hpath hstep ih =>
    rcases ih with ih | ⟨e, he, hto, hfrom⟩
    · rcases List.mem_append.mp hstep with hmem | hmem
      · exact Or.inl (ih.tail hmem)
      · exact Or.inr ⟨_, hmem, hpath.to_reflTransGen, .refl⟩
    · exact Or.inr ⟨e, he, hto, hfrom.tail hstep⟩

theorem transGen_mono {a b : α}
    (h : Relation.TransGen (Edge edges) a b) : Relation.TransGen (Edge (edges ++ more)) a b :=
  Relation.TransGen.mono (fun _ _ he => List.mem_append_left more he) _ _ h

theorem acyclic_of_append (h : Acyclic (edges ++ more)) :
    Acyclic edges := fun a ha => h a (transGen_mono ha)

/-- A new edge keeps the graph acyclic exactly when its target does not reach its source. -/
theorem acyclic_append_iff (h : Acyclic edges) (p q : α) :
    Acyclic (edges ++ [(p, q)]) ↔ ¬ Relation.ReflTransGen (Edge edges) q p := by
  constructor
  · intro hnew hr
    refine hnew p (.head' (b := q) (by simp [Edge]) ?_)
    exact Relation.ReflTransGen.mono (fun _ _ he => List.mem_append_left [(p, q)] he) _ _ hr
  · intro hno a ha
    rcases transGen_append ha with ha | ⟨h1, h2⟩
    · exact h a ha
    · exact hno (h2.trans h1)

end Graph
