-- Trees whose members have keys: every node has a label, and stands at the end of a path of keys.
import Mathlib.Data.List.Nodup
import Mathlib.Data.List.Flatten

inductive KeyedTree (κ α : Type) where
  | node (label : α) (members : List (κ × KeyedTree κ α))

namespace KeyedTree

variable {κ α β : Type}

def label : KeyedTree κ α → α
  | node label _ => label

def members : KeyedTree κ α → List (κ × KeyedTree κ α)
  | node _ members => members

mutual

/-- Every node with the path of keys to it, each before what is below it. -/
def places : KeyedTree κ α → List (List κ × KeyedTree κ α)
  | node label members => ([], node label members) :: placesOf members

def placesOf : List (κ × KeyedTree κ α) → List (List κ × KeyedTree κ α)
  | [] => []
  | (key, tree) :: rest => (places tree).map (fun at_ => (key :: at_.1, at_.2)) ++ placesOf rest

end

mutual

def map (f : α → β) : KeyedTree κ α → KeyedTree κ β
  | node label members => node (f label) (mapOf f members)

def mapOf (f : α → β) : List (κ × KeyedTree κ α) → List (κ × KeyedTree κ β)
  | [] => []
  | (key, tree) :: rest => (key, map f tree) :: mapOf f rest

end

/-- What holds of a node where it holds of its members holds of every tree. -/
theorem induct {motive : KeyedTree κ α → Prop}
    (h : ∀ label members, (∀ m ∈ members, motive m.2) → motive (node label members)) :
    ∀ tree, motive tree
  | node label members => h label members fun m hm => by
    have hsize := List.sizeOf_lt_of_mem hm
    exact induct h m.2
  termination_by tree => sizeOf tree
  decreasing_by
    obtain ⟨key, tree⟩ := m
    simp only [node.sizeOf_spec, Prod.mk.sizeOf_spec] at hsize ⊢
    omega

variable {key : κ} {tree : KeyedTree κ α} {path : List κ} {xs ys : List (κ × KeyedTree κ α)}

theorem places_eq (tree : KeyedTree κ α) : places tree = ([], tree) :: placesOf tree.members := by
  cases tree
  rfl

theorem mem_placesOf {at_ : List κ × KeyedTree κ α} : at_ ∈ placesOf xs ↔
    ∃ key tree path, (key, tree) ∈ xs ∧ (path, at_.2) ∈ places tree ∧ at_.1 = key :: path := by
  induction xs with
  | nil => simp [placesOf]
  | cons x xs ih =>
    obtain ⟨k, t⟩ := x
    rw [placesOf, List.mem_append, ih, List.mem_map]
    constructor
    · rintro (⟨⟨path, sub⟩, hsub, rfl⟩ | ⟨key, tree, path, hin, hsub, hpath⟩)
      · exact ⟨k, t, path, List.mem_cons_self, hsub, rfl⟩
      · exact ⟨key, tree, path, List.mem_cons_of_mem _ hin, hsub, hpath⟩
    · rintro ⟨key, tree, path, hin, hsub, hpath⟩
      rcases List.mem_cons.mp hin with heq | hin
      · cases heq
        exact .inl ⟨(path, at_.2), hsub, by rw [← hpath]⟩
      · exact .inr ⟨key, tree, path, hin, hsub, hpath⟩

/-- A node is the whole tree, or below a member. -/
theorem mem_places {at_ : List κ × KeyedTree κ α} : at_ ∈ places tree ↔
    at_ = ([], tree) ∨ ∃ key sub path, (key, sub) ∈ tree.members ∧ (path, at_.2) ∈ places sub ∧
      at_.1 = key :: path := by
  rw [places_eq, List.mem_cons, mem_placesOf]

theorem self_mem_places (tree : KeyedTree κ α) : ([], tree) ∈ places tree :=
  mem_places.mpr (.inl rfl)

/-- A member of a node stands one step below it. -/
theorem member_mem_places {tree node : KeyedTree κ α} {path : List κ} {m : κ × KeyedTree κ α}
    (hnode : (path, node) ∈ places tree) (hm : m ∈ node.members) :
    (path ++ [m.1], m.2) ∈ places tree := by
  induction tree using KeyedTree.induct generalizing path with
  | h a members ih =>
    rcases mem_places.mp hnode with heq | ⟨key, sub, below, hsub, hplace, hpath⟩
    · cases heq
      exact mem_places.mpr (.inr ⟨m.1, m.2, [], hm, self_mem_places m.2, rfl⟩)
    · refine mem_places.mpr (.inr ⟨key, sub, below ++ [m.1], hsub, ih (key, sub) hsub hplace, ?_⟩)
      dsimp only at hpath ⊢
      rw [hpath, List.cons_append]

theorem mapOf_keys {f : α → β} : (mapOf f xs).map (·.1) = xs.map (·.1) := by
  induction xs with
  | nil => rfl
  | cons x xs ih =>
    obtain ⟨key, tree⟩ := x
    rw [mapOf, List.map_cons, List.map_cons, ih]

/-- The nodes of a tree with other labels. -/
theorem places_map (f : α → β) (tree : KeyedTree κ α) :
    places (tree.map f) = (places tree).map fun at_ => (at_.1, at_.2.map f) := by
  induction tree using induct with
  | h label members ih =>
    rw [map, places, places, List.map_cons, map]
    congr 1
    induction members with
    | nil => rfl
    | cons m members ihm =>
      obtain ⟨key, tree⟩ := m
      rw [mapOf, placesOf, placesOf, ih (key, tree) List.mem_cons_self, List.map_append,
        ihm fun m hm => ih m (List.mem_cons_of_mem _ hm), List.map_map, List.map_map]
      rfl

/-- Where the members of every node have different keys, no two nodes have one path. -/
theorem paths_nodup (tree : KeyedTree κ α)
    (h : ∀ at_ ∈ places tree, (at_.2.members.map (·.1)).Nodup) :
    ((places tree).map (·.1)).Nodup := by
  induction tree using induct with
  | h label members ih =>
    have hkeys : (members.map (·.1)).Nodup := h _ (self_mem_places _)
    have hbelow : ∀ m ∈ members, ((places m.2).map (·.1)).Nodup := by
      intro m hm
      refine ih m hm fun at_ hat => ?_
      exact h (m.1 :: at_.1, at_.2) (mem_places.mpr (.inr ⟨m.1, m.2, at_.1, hm, hat, rfl⟩))
    rw [places, List.map_cons]
    refine List.nodup_cons.mpr ⟨fun hin => ?_, ?_⟩
    · obtain ⟨at_, hat, hpath⟩ := List.mem_map.mp hin
      obtain ⟨key, sub, path, -, -, hcons⟩ := mem_placesOf.mp hat
      rw [hcons] at hpath
      cases hpath
    · clear ih h
      induction members with
      | nil => exact List.nodup_nil
      | cons m members ihm =>
        obtain ⟨key, tree⟩ := m
        obtain ⟨hkey, hrest⟩ := List.nodup_cons.mp hkeys
        rw [placesOf, List.map_append, List.map_map, List.nodup_append]
        refine ⟨?_, ihm hrest fun m hm => hbelow m (List.mem_cons_of_mem _ hm), ?_⟩
        · have htree := hbelow (key, tree) List.mem_cons_self
          have hcons := htree.map (List.cons_injective (a := key))
          rw [List.map_map] at hcons
          exact hcons
        · rintro p hp q hq rfl
          obtain ⟨at_, -, rfl⟩ := List.mem_map.mp hp
          obtain ⟨other, hother, hpath⟩ := List.mem_map.mp hq
          obtain ⟨k, sub, path, hin, -, hcons⟩ := mem_placesOf.mp hother
          have heq : key :: at_.1 = k :: path := hpath.symm.trans hcons
          cases heq
          exact hkey (List.mem_map.mpr ⟨_, hin, rfl⟩)

end KeyedTree
