-- Breadth-first search: what is found stands in the order of its distance from the root, in two
-- parts, what was followed already and the queue. Followed up to a depth, it is the nearest part
-- of the graph, with the least distances.
import Mathlib.Data.List.Nodup

namespace Js.BreadthFirst

variable {α : Type*} {R : α → α → Prop} {root : α} {depth : Nat} {done todo : List (α × Nat)}

/-- A walk of so many steps from the root. -/
inductive Walk (R : α → α → Prop) (root : α) : Nat → α → Prop
  | start : Walk R root 0 root
  | step {n : Nat} {a b : α} : Walk R root n a → R a b → Walk R root (n + 1) b

/-- The least number of steps from the root. -/
def Distance (R : α → α → Prop) (root : α) (n : Nat) (a : α) : Prop :=
  Walk R root n a ∧ ∀ k, Walk R root k a → n ≤ k

theorem Distance.unique {m n : Nat} {a : α} (hm : Distance R root m a)
    (hn : Distance R root n a) : m = n :=
  Nat.le_antisymm (hm.2 n hn.1) (hn.2 m hm.1)

/-- Every distance but the first has its predecessor. -/
theorem Distance.pred {n : Nat} {b : α} (h : Distance R root (n + 1) b) :
    ∃ a, Distance R root n a ∧ R a b := by
  obtain ⟨hwalk, hleast⟩ := h
  cases hwalk with
  | step hwalk hab =>
    refine ⟨_, ⟨hwalk, fun k hk => ?_⟩, hab⟩
    have := hleast (k + 1) (.step hk hab)
    omega

theorem map_fst_fresh (fresh : List α) (n : Nat) :
    (fresh.map fun b => (b, n)).map (·.1) = fresh := by
  rw [List.map_map]
  exact List.map_id fresh

/-- What the search holds between two turns. -/
structure Layered (R : α → α → Prop) (root : α) (depth : Nat) (done todo : List (α × Nat)) :
    Prop where
  keyed : ((done ++ todo).map (·.1)).Nodup
  rooted : (root, 0) ∈ done ++ todo
  walks : ∀ x ∈ done ++ todo, Walk R root x.2 x.1
  within : ∀ x ∈ done ++ todo, x.2 ≤ depth
  sorted : (done ++ todo).Pairwise fun x y => x.2 ≤ y.2
  near : ∀ x ∈ todo, ∀ y ∈ todo, y.2 ≤ x.2 + 1
  followed : ∀ x ∈ done, x.2 < depth → ∀ b, R x.1 b → ∃ e ≤ x.2 + 1, (b, e) ∈ done ++ todo

theorem layered_start (R : α → α → Prop) (root : α) (depth : Nat) :
    Layered R root depth [] [(root, 0)] where
  keyed := by simp
  rooted := by simp
  walks x hx := by
    obtain rfl : x = (root, 0) := by simpa using hx
    exact .start
  within x hx := by
    obtain rfl : x = (root, 0) := by simpa using hx
    exact Nat.zero_le depth
  sorted := by simp
  near x hx y hy := by
    obtain rfl : y = (root, 0) := by simpa using hy
    exact Nat.zero_le _
  followed x hx := by simp at hx

namespace Layered

variable {x y : α × Nat}

/-- The members of the queue come after what was followed. -/
theorem done_le (h : Layered R root depth done todo) (hx : x ∈ done)
    (hy : y ∈ todo) : x.2 ≤ y.2 :=
  (List.pairwise_append.mp h.sorted).2.2 x hx y hy

variable (h : Layered R root depth done (x :: todo))
include h

/-- The head of the queue is the nearest of it. -/
theorem head_le (hy : y ∈ todo) : x.2 ≤ y.2 :=
  List.rel_of_pairwise_cons (List.pairwise_append.mp h.sorted).2.1 hy

/-- Nothing found is further than one step behind the head. -/
theorem le_succ_head (hy : y ∈ done ++ x :: todo) : y.2 ≤ x.2 + 1 := by
  rcases List.mem_append.mp hy with hy | hy
  · have := h.done_le hy List.mem_cons_self
    omega
  · exact h.near x List.mem_cons_self y hy

/-- A member at the depth is not followed. -/
theorem drop (hx : depth ≤ x.2) : Layered R root depth (done ++ [x]) todo where
  keyed := by simpa using h.keyed
  rooted := by simpa using h.rooted
  walks := by simpa using h.walks
  within := by simpa using h.within
  sorted := by simpa using h.sorted
  near y hy z hz := h.near y (List.mem_cons_of_mem x hy) z (List.mem_cons_of_mem x hz)
  followed y hy hlt b hb := by
    rcases List.mem_append.mp hy with hy | hy
    · simpa using h.followed y hy hlt b hb
    · obtain rfl := List.mem_singleton.mp hy
      omega

/-- The head is followed: what is new goes to the end of the queue, one step further. -/
theorem expand {fresh : List α}
    (hx : x.2 < depth) (hnodup : fresh.Nodup) (hstep : ∀ b ∈ fresh, R x.1 b)
    (hnew : ∀ b ∈ fresh, b ∉ (done ++ x :: todo).map (·.1))
    (hall : ∀ b, R x.1 b → b ∈ (done ++ x :: todo).map (·.1) ∨ b ∈ fresh) :
    Layered R root depth (done ++ [x]) (todo ++ fresh.map fun b => (b, x.2 + 1)) := by
  have hfound : done ++ [x] ++ (todo ++ fresh.map fun b => (b, x.2 + 1)) =
      (done ++ x :: todo) ++ fresh.map fun b => (b, x.2 + 1) := by simp
  have hfresh : ∀ y ∈ fresh.map (fun b => (b, x.2 + 1)), y.2 = x.2 + 1 ∧ y.1 ∈ fresh := by
    simp +contextual
  refine ⟨?_, ?_, ?_, ?_, ?_, ?_, ?_⟩
  · rw [hfound, List.map_append, List.nodup_append]
    rw [map_fst_fresh]
    refine ⟨h.keyed, hnodup, ?_⟩
    rintro a ha b hb rfl
    exact hnew a hb ha
  · rw [hfound]
    exact List.mem_append_left _ h.rooted
  · intro y hy
    rw [hfound] at hy
    rcases List.mem_append.mp hy with hy | hy
    · exact h.walks y hy
    · obtain ⟨hdist, hmem⟩ := hfresh y hy
      rw [hdist]
      exact .step (h.walks x (by simp)) (hstep y.1 hmem)
  · intro y hy
    rw [hfound] at hy
    rcases List.mem_append.mp hy with hy | hy
    · exact h.within y hy
    · have := (hfresh y hy).1
      omega
  · rw [hfound, List.pairwise_append]
    refine ⟨h.sorted, ?_, ?_⟩
    · rw [List.pairwise_map]
      exact List.pairwise_of_forall fun _ _ => Nat.le_refl _
    · intro y hy z hz
      rw [(hfresh z hz).1]
      exact h.le_succ_head hy
  · intro y hy z hz
    have hyle : x.2 ≤ y.2 := by
      rcases List.mem_append.mp hy with hy | hy
      · exact h.head_le hy
      · have := (hfresh y hy).1
        omega
    have hzle : z.2 ≤ x.2 + 1 := by
      rcases List.mem_append.mp hz with hz | hz
      · exact h.near x List.mem_cons_self z (List.mem_cons_of_mem x hz)
      · exact Nat.le_of_eq (hfresh z hz).1
    omega
  · intro y hy hlt b hb
    rw [hfound]
    rcases List.mem_append.mp hy with hy | hy
    · obtain ⟨e, he, hmem⟩ := h.followed y hy hlt b hb
      exact ⟨e, he, List.mem_append_left _ hmem⟩
    · obtain rfl := List.mem_singleton.mp hy
      rcases hall b hb with hb | hb
      · obtain ⟨⟨c, e⟩, hmem, rfl⟩ := List.mem_map.mp hb
        exact ⟨e, h.le_succ_head hmem, List.mem_append_left _ hmem⟩
      · exact ⟨y.2 + 1, Nat.le_refl _, List.mem_append_right _ (by simpa using hb)⟩

omit h

/-- A walk no longer than the queue is far comes to something found. -/
theorem reached (h : Layered R root depth done todo) {k : Nat} {b : α} (hwalk : Walk R root k b)
    (hdepth : k ≤ depth) (hqueue : ∀ y ∈ todo, k ≤ y.2) : ∃ e ≤ k, (b, e) ∈ done ++ todo := by
  induction hwalk with
  | start => exact ⟨0, Nat.le_refl 0, h.rooted⟩
  | step _ hab ih =>
    obtain ⟨e, he, hmem⟩ := ih (by omega) fun y hy => by
      have := hqueue y hy
      omega
    rcases List.mem_append.mp hmem with hdone | htodo
    · obtain ⟨e', he', hmem'⟩ := h.followed _ hdone (by simp only; omega) _ hab
      exact ⟨e', by simp only at he'; omega, hmem'⟩
    · have := hqueue _ htodo
      simp only at this
      omega

/-- What is found has one distance. -/
theorem unique (h : Layered R root depth done todo) {a : α} {d e : Nat}
    (hd : (a, d) ∈ done ++ todo) (he : (a, e) ∈ done ++ todo) : d = e :=
  congrArg Prod.snd (List.inj_on_of_nodup_map h.keyed hd he rfl)

/-- It is the least one. -/
theorem distance (h : Layered R root depth done todo) {b : α} {d : Nat}
    (hmem : (b, d) ∈ done ++ todo) : Distance R root d b := by
  refine ⟨h.walks _ hmem, fun k hk => ?_⟩
  by_contra hlt
  have hwithin := h.within _ hmem
  have hqueue : ∀ y ∈ todo, k ≤ y.2 := by
    intro y hy
    rcases List.mem_append.mp hmem with hdone | htodo
    · have := h.done_le hdone hy
      simp only at this
      omega
    · have := h.near y hy _ htodo
      simp only at this
      omega
  obtain ⟨e, he, hfound⟩ := h.reached hk (by simp only at hwithin; omega) hqueue
  have := h.unique hmem hfound
  omega

/-- With the queue empty, everything up to the depth is found. -/
theorem mem_iff (h : Layered R root depth done []) {b : α} {d : Nat} :
    (b, d) ∈ done ↔ Distance R root d b ∧ d ≤ depth := by
  have hdone : done ++ [] = done := List.append_nil done
  constructor
  · intro hmem
    rw [← hdone] at hmem
    exact ⟨h.distance hmem, h.within _ hmem⟩
  · rintro ⟨hdist, hdepth⟩
    obtain ⟨e, -, hmem⟩ := h.reached hdist.1 hdepth (by simp)
    rw [(h.distance hmem).unique hdist, hdone] at hmem
    exact hmem

end Layered

end Js.BreadthFirst
