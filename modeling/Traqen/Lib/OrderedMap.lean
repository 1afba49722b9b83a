-- A map that lists its keys in the order of their first insertion, as the `Map` of
-- JavaScript does: a later value of a key takes the place of the earlier one.
import Mathlib.Data.List.Induction
import Mathlib.Data.List.Perm.Subperm

namespace Js.OrderedMap

variable {κ ν : Type*} [DecidableEq κ]

def set (m : List (κ × ν)) (k : κ) (v : ν) : List (κ × ν) :=
  if m.any fun e => e.1 = k then m.map fun e => if e.1 = k then (k, v) else e else m ++ [(k, v)]

/-- `new Map(entries)`. -/
def ofList (entries : List (κ × ν)) : List (κ × ν) :=
  entries.foldl (fun m e => set m e.1 e.2) []

def get? (m : List (κ × ν)) (k : κ) : Option ν := (m.find? fun e => e.1 = k).map (·.2)

theorem ofList_append (entries : List (κ × ν)) (e : κ × ν) :
    ofList (entries ++ [e]) = set (ofList entries) e.1 e.2 := by
  simp [ofList, List.foldl_append]

variable {k : κ} {entries m : List (κ × ν)}

theorem mem_set {v : ν} {e : κ × ν} (h : e ∈ set m k v) : e = (k, v) ∨ e ∈ m := by
  unfold set at h
  split at h
  · obtain ⟨x, hx, rfl⟩ := List.mem_map.mp h
    split
    · exact Or.inl rfl
    · exact Or.inr hx
  · rcases List.mem_append.mp h with h | h
    · exact Or.inr h
    · exact Or.inl (List.mem_singleton.mp h)

/-- The entries of another key stay, and the key has the value. -/
theorem mem_set_iff {v : ν} {e : κ × ν} : e ∈ set m k v ↔ e = (k, v) ∨ e ∈ m ∧ e.1 ≠ k := by
  unfold set
  by_cases hany : m.any (fun x => x.1 = k) = true
  · rw [if_pos hany, List.mem_map]
    obtain ⟨x, hx, hxk⟩ := List.any_eq_true.mp hany
    constructor
    · rintro ⟨y, hy, rfl⟩
      by_cases hyk : y.1 = k
      · simp [hyk]
      · simp [hyk, hy]
    · rintro (rfl | ⟨he, hek⟩)
      · exact ⟨x, hx, if_pos (by simpa using hxk)⟩
      · exact ⟨e, he, if_neg hek⟩
  · rw [if_neg hany, List.mem_append, List.mem_singleton, or_comm]
    have hfree : e ∈ m → e.1 ≠ k := by
      rintro he rfl
      exact hany (List.any_eq_true.mpr ⟨e, he, by simp⟩)
    exact or_congr_right ⟨fun he => ⟨he, hfree he⟩, And.left⟩

theorem key_mem_set (m : List (κ × ν)) (k j : κ) (v : ν) :
    (∃ e ∈ set m k v, e.1 = j) ↔ j = k ∨ ∃ e ∈ m, e.1 = j := by
  unfold set
  split
  · rename_i hany
    obtain ⟨x, hx, hxk⟩ := List.any_eq_true.mp hany
    have hxk : x.1 = k := by simpa using hxk
    constructor
    · rintro ⟨e, he, rfl⟩
      obtain ⟨y, hy, rfl⟩ := List.mem_map.mp he
      split
      · exact Or.inl rfl
      · exact Or.inr ⟨y, hy, rfl⟩
    · rintro (rfl | ⟨y, hy, rfl⟩)
      · exact ⟨_, List.mem_map.mpr ⟨x, hx, rfl⟩, by simp [hxk]⟩
      · refine ⟨_, List.mem_map.mpr ⟨y, hy, rfl⟩, ?_⟩
        split
        · rename_i hyk
          exact hyk.symm
        · rfl
  · simp [or_comm, eq_comm]

/-- Every entry of the map was given. -/
theorem mem_of_mem_ofList {e : κ × ν} (h : e ∈ ofList entries) : e ∈ entries := by
  induction entries using List.reverseRecOn with
  | nil => simp [ofList] at h
  | append_singleton entries x ih =>
    rw [ofList_append] at h
    rcases mem_set h with rfl | h
    · simp
    · simp [ih h]

/-- The map has the keys that were given. -/
theorem key_mem_ofList (entries : List (κ × ν)) (k : κ) :
    (∃ e ∈ ofList entries, e.1 = k) ↔ ∃ e ∈ entries, e.1 = k := by
  induction entries using List.reverseRecOn with
  | nil => simp [ofList]
  | append_singleton entries x ih =>
    rw [ofList_append, key_mem_set, ih]
    constructor
    · rintro (rfl | ⟨e, he, rfl⟩)
      · exact ⟨x, by simp, rfl⟩
      · exact ⟨e, by simp [he], rfl⟩
    · rintro ⟨e, he, rfl⟩
      rcases List.mem_append.mp he with he | he
      · exact Or.inr ⟨e, he, rfl⟩
      · exact Or.inl (by rw [List.mem_singleton.mp he])

/-- A property of the key alone is met in the map exactly when it was met in the list. -/
theorem exists_key_ofList (entries : List (κ × ν)) (p : κ → Prop) :
    (∃ e ∈ ofList entries, p e.1) ↔ ∃ e ∈ entries, p e.1 := by
  constructor
  · rintro ⟨e, he, hp⟩
    exact ⟨e, mem_of_mem_ofList he, hp⟩
  · rintro ⟨e, he, hp⟩
    obtain ⟨x, hx, heq⟩ := (key_mem_ofList entries e.1).mpr ⟨e, he, rfl⟩
    exact ⟨x, hx, heq ▸ hp⟩

/-- `{ ...m, ...entries }`. -/
def setAll (m : List (κ × ν)) (entries : List (κ × ν)) : List (κ × ν) :=
  entries.foldl (fun m e => set m e.1 e.2) m

theorem get?_of_set (m : List (κ × ν)) (k j : κ) (v : ν) :
    get? (set m k v) j = if j = k then some v else get? m j := by
  unfold set get?
  split
  · rename_i hany
    induction m with
    | nil => simp at hany
    | cons e m ih =>
      rw [List.map_cons, List.find?_cons, List.find?_cons]
      by_cases hek : e.1 = k
      · by_cases hj : j = k
        · simp [hek, hj]
        · have hmap : (m.map fun x => if x.1 = k then (k, v) else x).find? (fun x => x.1 = j) =
              m.find? fun x => x.1 = j := by
            clear ih hany
            induction m with
            | nil => rfl
            | cons x m ih =>
              rw [List.map_cons, List.find?_cons, List.find?_cons, ih]
              by_cases hx : x.1 = k
              · simp [hx, Ne.symm hj]
              · simp [hx]
          simp [hek, hj, Ne.symm hj, hmap]
      · have hrest : m.any (fun x => x.1 = k) = true := by simpa [hek] using hany
        have ih := ih hrest
        by_cases hej : e.1 = j
        · have hjk : j ≠ k := hej ▸ hek
          simp [hej, hjk]
        · simpa [hek, hej] using ih
  · rename_i hnone
    rw [List.find?_append]
    by_cases hj : j = k
    · subst hj
      have hfind : m.find? (fun x => x.1 = j) = none := by
        rw [List.find?_eq_none]
        intro x hx hxj
        exact hnone (List.any_eq_true.mpr ⟨x, hx, hxj⟩)
      simp [hfind]
    · cases m.find? (fun x => x.1 = j) <;> simp [Ne.symm hj, hj]

theorem get?_eq_none : get? m k = none ↔ ∀ e ∈ m, e.1 ≠ k := by
  simp [get?]

/-- A new key goes to the end of the map. -/
theorem set_of_new (h : get? m k = none) (v : ν) : set m k v = m ++ [(k, v)] := by
  unfold set
  rw [if_neg]
  intro hany
  obtain ⟨e, he, hk⟩ := List.any_eq_true.mp hany
  exact get?_eq_none.mp h e he (by simpa using hk)

theorem get?_mem {v : ν} (h : get? m k = some v) : (k, v) ∈ m := by
  unfold get? at h
  obtain ⟨e, he, rfl⟩ := Option.map_eq_some_iff.mp h
  have hk : e.1 = k := by simpa using List.find?_some he
  exact hk ▸ List.mem_of_find?_eq_some he

/-- `m.delete(k)`. -/
def delete (m : List (κ × ν)) (k : κ) : List (κ × ν) := m.filter fun e => e.1 ≠ k

/-- The value of the key from now on, or none for no entry. -/
def put (m : List (κ × ν)) (k : κ) : Option ν → List (κ × ν)
  | some v => set m k v
  | none => delete m k

theorem get?_of_delete (m : List (κ × ν)) (k j : κ) :
    get? (delete m k) j = if j = k then none else get? m j := by
  unfold delete get?
  induction m with
  | nil => simp
  | cons e m ih =>
    by_cases hek : e.1 = k
    · rw [List.filter_cons_of_neg (by simp [hek]), ih, List.find?_cons]
      by_cases hjk : j = k
      · simp [hjk]
      · simp [hjk, hek, Ne.symm hjk]
    · rw [List.filter_cons_of_pos (by simp [hek]), List.find?_cons, List.find?_cons]
      by_cases hej : e.1 = j
      · have hjk : j ≠ k := hej ▸ hek
        simp [hej, hjk]
      · simpa [hej] using ih

theorem get?_of_put (m : List (κ × ν)) (k j : κ) (v : Option ν) :
    get? (put m k v) j = if j = k then v else get? m j := by
  cases v with
  | some v => exact get?_of_set m k j v
  | none => exact get?_of_delete m k j

/-- Entries that are put back one by one stand as the function has them, whatever was there
in the meantime; the other entries stay. -/
theorem get?_of_restore (f : κ → Option ν) (keys : List κ) (m : List (κ × ν)) (j : κ) :
    get? (keys.foldl (fun m k => put m k (f k)) m) j = if j ∈ keys then f j else get? m j := by
  induction keys generalizing m with
  | nil => simp
  | cons k keys ih =>
    rw [List.foldl_cons, ih, get?_of_put]
    by_cases hj : j ∈ keys
    · simp [hj]
    · by_cases hjk : j = k
      · simp [hjk]
      · simp [hj, hjk]

/-- The own field of an object, whose fields are such a map. -/
theorem lookup_eq_get? (m : List (κ × ν)) (k : κ) : m.lookup k = get? m k := by
  unfold get?
  induction m with
  | nil => rfl
  | cons e m ih =>
    obtain ⟨j, v⟩ := e
    rw [List.lookup_cons, List.find?_cons, ih]
    by_cases hjk : j = k
    · simp [hjk]
    · have hkj : (k == j) = false := by simpa using Ne.symm hjk
      simp [hjk, hkj]

/-- No key stands twice. -/
def Keyed (m : List (κ × ν)) : Prop := (m.map (·.1)).Nodup

omit [DecidableEq κ] in
theorem keyed_nil : Keyed ([] : List (κ × ν)) := List.nodup_nil

theorem keyed_set (h : Keyed m) (k : κ) (v : ν) : Keyed (set m k v) := by
  unfold Keyed set at *
  split
  · have hkeys : (m.map fun e => if e.1 = k then (k, v) else e).map (·.1) = m.map (·.1) := by
      rw [List.map_map]
      apply List.map_congr_left
      intro e _
      by_cases hek : e.1 = k
      · simp [hek]
      · simp [hek]
    rw [hkeys]
    exact h
  · rename_i hany
    rw [List.map_append, List.nodup_append]
    refine ⟨h, by simp, ?_⟩
    intro a ha b hb hab
    obtain ⟨e, he, rfl⟩ := List.mem_map.mp ha
    apply hany
    rw [List.any_eq_true]
    exact ⟨e, he, by simpa [hab] using hb⟩

theorem keyed_ofList (entries : List (κ × ν)) : Keyed (ofList entries) := by
  induction entries using List.reverseRecOn with
  | nil => exact keyed_nil
  | append_singleton entries e ih =>
    rw [ofList_append]
    exact keyed_set ih e.1 e.2

theorem length_ofList_le (entries : List (κ × ν)) : (ofList entries).length ≤ entries.length := by
  have hsub : (ofList entries).map (·.1) ⊆ entries.map (·.1) := by
    intro k hk
    obtain ⟨e, he, rfl⟩ := List.mem_map.mp hk
    exact List.mem_map_of_mem (mem_of_mem_ofList he)
  have hkeyed := keyed_ofList entries
  unfold Keyed at hkeyed
  have hle := (hkeyed.subperm hsub).length_le
  rwa [List.length_map, List.length_map] at hle

theorem length_set (m : List (κ × ν)) (k : κ) (v : ν) :
    (set m k v).length = if (get? m k).isSome then m.length else m.length + 1 := by
  cases hget : get? m k with
  | none =>
    rw [set_of_new hget]
    simp
  | some w =>
    have hany : m.any (fun e => e.1 = k) = true :=
      List.any_eq_true.mpr ⟨_, get?_mem hget, by simp⟩
    simp [set, hany]

theorem get?_of_mem (h : Keyed m) {v : ν} (hmem : (k, v) ∈ m) : get? m k = some v := by
  unfold Keyed at h
  unfold get?
  induction m with
  | nil => simp at hmem
  | cons e m ih =>
    rw [List.map_cons, List.nodup_cons] at h
    rw [List.find?_cons]
    rcases List.mem_cons.mp hmem with rfl | hmem
    · simp
    · have hne : e.1 ≠ k := fun heq => h.1 (heq ▸ List.mem_map_of_mem hmem)
      simpa [hne] using ih h.2 hmem

/-- Where no two items have one key, an item is found by its key alone. -/
theorem filter_by_key {α : Type*} {key : α → κ} {items : List α} (h : (items.map key).Nodup)
    {x : α} (hx : x ∈ items) : items.filter (fun y => key y = key x) = [x] := by
  induction items with
  | nil => cases hx
  | cons y items ih =>
    rw [List.map_cons, List.nodup_cons] at h
    rcases List.mem_cons.mp hx with rfl | hx
    · have hrest : items.filter (fun y => key y = key x) = [] := by
        rw [List.filter_eq_nil_iff]
        intro z hz heq
        have hkey : key z ∈ items.map key := List.mem_map_of_mem hz
        rw [of_decide_eq_true heq] at hkey
        exact h.1 hkey
      rw [List.filter_cons_of_pos (by simp), hrest]
    · have hne : key y ≠ key x := fun heq => h.1 (heq ▸ List.mem_map_of_mem hx)
      rw [List.filter_cons_of_neg (by simpa using hne), ih h.2 hx]

theorem keyed_filter (h : Keyed m) {v : ν} (hmem : (k, v) ∈ m) :
    m.filter (fun e => e.1 = k) = [(k, v)] :=
  filter_by_key h hmem

/-! ## Maps from a list -/

theorem get?_ofList_snoc (entries : List (κ × ν)) (e : κ × ν) (k : κ) :
    get? (ofList (entries ++ [e])) k = if k = e.1 then some e.2 else get? (ofList entries) k := by
  rw [ofList_append, get?_of_set]

/-- Later entries win. -/
theorem get?_ofList_append (front back : List (κ × ν)) (k : κ) :
    get? (ofList (front ++ back)) k = (get? (ofList back) k).or (get? (ofList front) k) := by
  induction back using List.reverseRecOn with
  | nil => rw [List.append_nil]; rfl
  | append_singleton back e ih =>
    rw [← List.append_assoc, get?_ofList_snoc, get?_ofList_snoc, ih]
    by_cases hk : k = e.1
    · rw [if_pos hk, if_pos hk]
      rfl
    · rw [if_neg hk, if_neg hk]

/-- Where all the entries of a key have one value, the map has it. -/
theorem get?_ofList_of_forall {v : ν}
    (hsome : ∃ e ∈ entries, e.1 = k) (hall : ∀ e ∈ entries, e.1 = k → e.2 = v) :
    get? (ofList entries) k = some v := by
  induction entries using List.reverseRecOn with
  | nil =>
    obtain ⟨e, he, _⟩ := hsome
    cases he
  | append_singleton entries x ih =>
    rw [get?_ofList_snoc]
    by_cases hk : k = x.1
    · rw [if_pos hk, hall x (by simp) hk.symm]
    · rw [if_neg hk]
      apply ih
      · obtain ⟨e, he, heq⟩ := hsome
        rcases List.mem_append.mp he with he | he
        · exact ⟨e, he, heq⟩
        · exact absurd (List.mem_singleton.mp he ▸ heq).symm hk
      · intro e he
        exact hall e (List.mem_append_left _ he)

theorem get?_ofList_none (h : ∀ e ∈ entries, e.1 ≠ k) : get? (ofList entries) k = none :=
  get?_eq_none.mpr fun e he => h e (mem_of_mem_ofList he)

/-! ## Sets -/

theorem nodup_eraseDups (xs : List κ) : xs.eraseDups.Nodup := by
  have hall : ∀ n, ∀ ys : List κ, ys.length ≤ n → ys.eraseDups.Nodup := by
    intro n
    induction n with
    | zero =>
      intro ys hys
      rw [List.length_eq_zero_iff.mp (Nat.le_zero.mp hys)]
      exact List.nodup_nil
    | succ n ih =>
      intro ys hys
      cases ys with
      | nil => exact List.nodup_nil
      | cons y ys =>
        rw [List.length_cons] at hys
        rw [List.eraseDups_cons, List.nodup_cons]
        refine ⟨by simp [List.mem_eraseDups], ih _ ?_⟩
        exact Nat.le_trans (List.length_filter_le _ ys) (Nat.le_of_succ_le_succ hys)
  exact hall xs.length xs (Nat.le_refl _)

/-- `new Set(xs).size === xs.length` says that no item is there twice. -/
theorem nodup_iff_size (xs : List κ) : xs.eraseDups.length = xs.length ↔ xs.Nodup := by
  have hle : ∀ n, ∀ ys : List κ, ys.length ≤ n → ys.eraseDups.length ≤ ys.length ∧
      (ys.eraseDups.length = ys.length ↔ ys.Nodup) := by
    intro n
    induction n with
    | zero =>
      intro ys hys
      simp [List.length_eq_zero_iff.mp (Nat.le_zero.mp hys)]
    | succ n ih =>
      intro ys hys
      cases ys with
      | nil => simp
      | cons y ys =>
        have hfilter := List.length_filter_le (fun b => !b == y) ys
        obtain ⟨hlen, hiff⟩ := ih (ys.filter fun b => !b == y) (by simp at hys; omega)
        rw [List.eraseDups_cons, List.nodup_cons]
        simp only [List.length_cons, Nat.add_right_cancel_iff]
        refine ⟨by omega, ?_⟩
        constructor
        · intro h
          have hall : ∀ b ∈ ys, (!b == y) = true :=
            List.length_filter_eq_length_iff.mp (by omega)
          rw [List.filter_eq_self.mpr hall] at hiff h
          exact ⟨fun hy => by simpa using hall y hy, hiff.mp h⟩
        · rintro ⟨hy, hn⟩
          have hself : ys.filter (fun b => !b == y) = ys :=
            List.filter_eq_self.mpr fun b hb => by
              have : b ≠ y := fun h => hy (h ▸ hb)
              simpa using this
          rw [hself] at hiff ⊢
          exact hiff.mpr hn
  exact (hle xs.length xs (Nat.le_refl _)).2

end Js.OrderedMap
