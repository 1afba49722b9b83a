-- Owners and managers: a space has one owner, who changes only by a confirmed transfer or by a
-- system admin, and nobody else who manages a space can raise its own roles or make managers.
import Traqen.SpaceGroups

open Js

namespace Traqen.SpaceRoles

open OrderedMap (keyed_nil keyed_set mem_set get?_of_set get? get?_mem)

/-! ## What is to hold -/

/-- One account holds `OWNER` in each space: the owner of its record. -/
def OwnerSingular (s : State) : Prop :=
  ∀ w space, s.space? w = some space → ∀ a, "OWNER" ∈ storedRoles s a w ↔ a = space.ownerId

/-- The operation confirms the transfer of the workspace. -/
def Act.confirms (workspaceId : String) : Act → Bool
  | .transfer _ _ w _ confirm => confirm && w = workspaceId
  | _ => false

def isAdmin (s : State) (id : String) : Bool := (s.account? id).any (·.admin)

/-- An owner stays, or the designated successor confirms, or a system admin names another. -/
def OwnerMoves (digest : String → String) (s : State) (act : Act) (t : State) : Prop :=
  ∀ w space, s.space? w = some space → ∃ space' : Space, t.space? w = some space' ∧
    (space'.ownerId = space.ownerId ∨
      (act.confirms w = true ∧ space.pendingOwner = some space'.ownerId ∧
        caller digest s act = some space'.ownerId) ∨
      ∃ now raw x, act = .designateOwner now raw w space'.ownerId ∧
        caller digest s act = some x ∧ isAdmin s x = true)

/-- What the operations of an account leave alone in a workspace: its own roles, who is a
permission admin, and the roles of every owner and permission admin. -/
structure Unescalated (x w : String) (s t : State) : Prop where
  own : rolesIn t x w = rolesIn s x w
  stored : ∀ y, "PERMISSION_ADMIN" ∈ storedRoles t y w → "PERMISSION_ADMIN" ∈ storedRoles s y w
  managers : ∀ y, "PERMISSION_ADMIN" ∈ rolesIn t y w → "PERMISSION_ADMIN" ∈ rolesIn s y w
  holders : ∀ y, (rolesIn s y w).any isManagerRole = true → rolesIn t y w = rolesIn s y w

/-- Operations of one account that is neither the owner nor a system admin, none of which confirms
the transfer of the workspace. -/
def NoEscalation (digest : String → String) (policy : Policy) (s : State) : Prop :=
  ∀ x w, "OWNER" ∉ rolesIn s x w → isAdmin s x = false →
    ∀ acts t, Machine.run (step digest policy) s acts = some t →
      Machine.Along (step digest policy)
        (fun u act => caller digest u act = some x ∧ act.confirms w = false) s acts →
      Unescalated x w s t

/-- Ownership is singular and managers cannot escalate, in every reachable state. -/
def OwnershipHolds (digest : String → String) (policy : Policy) : Prop :=
  ∀ acts s, Machine.run (step digest policy) initial acts = some s →
    OwnerSingular s ∧ (∀ act t, step digest policy s act = some t → OwnerMoves digest s act t) ∧
      NoEscalation digest policy s

/-! ## The grants of one account -/

variable {digest : String → String} {policy : Policy} {s t : State}

def entriesOf (s : State) (a w : String) : List (GrantKey × Grant) :=
  s.grants.filter fun e => e.1.isOf a w

theorem isOf_eq_true {k : GrantKey} {a w : String} :
    k.isOf a w = true ↔ k.accountId = a ∧ k.workspaceId = w := by
  unfold GrantKey.isOf
  rw [Bool.and_eq_true, decide_eq_true_eq, decide_eq_true_eq]

theorem storedRoles_congr {a w : String} (h : entriesOf t a w = entriesOf s a w) :
    storedRoles t a w = storedRoles s a w := by
  unfold storedRoles
  unfold entriesOf at h
  rw [h]

theorem rolesIn_congr {a w : String} (haccounts : t.accounts = s.accounts)
    (h : entriesOf t a w = entriesOf s a w) : rolesIn t a w = rolesIn s a w := by
  unfold rolesIn State.account?
  rw [haccounts]
  unfold entriesOf at h
  simp only [← List.filter_filter, Bool.and_comm (x := GrantKey.isOf _ _ _), h]

/-- A grant that is written changes only the grants of its account in its workspace. -/
theorem entriesOf_set {u : State} {k : GrantKey} {g : Grant} {a w : String}
    (hset : t.grants = OrderedMap.set u.grants k g) (hk : ¬ (k.accountId = a ∧ k.workspaceId = w)) :
    entriesOf t a w = entriesOf u a w := by
  have hother : k.isOf a w = false := by
    rw [Bool.eq_false_iff]
    exact fun h => hk (isOf_eq_true.mp h)
  unfold entriesOf
  rw [hset]
  unfold OrderedMap.set
  by_cases hany : u.grants.any (fun e => e.1 = k) = true
  · rw [if_pos hany, List.filter_map]
    have hsame : ((fun e : GrantKey × Grant => e.1.isOf a w) ∘
        fun e => if e.1 = k then (k, g) else e) = fun e => e.1.isOf a w := by
      funext e
      by_cases he : e.1 = k
      · simp [he]
      · simp [he]
    rw [hsame]
    refine (List.map_congr_left fun e he => ?_).trans (List.map_id _)
    have hne : e.1 ≠ k := by
      rintro rfl
      rw [(List.mem_filter.mp he).2] at hother
      cases hother
    rw [if_neg hne]
    rfl
  · rw [if_neg hany, List.filter_append, List.filter_singleton]
    simp [hother]

theorem entriesOf_map {f : GrantKey × Grant → Grant} {a w : String}
    (hgrants : t.grants = s.grants.map fun e => (e.1, f e))
    (hf : ∀ e ∈ s.grants, e.1.isOf a w = true → f e = e.2) : entriesOf t a w = entriesOf s a w := by
  unfold entriesOf
  rw [hgrants, List.filter_map]
  refine (List.map_congr_left fun e he => ?_).trans (List.map_id _)
  obtain ⟨hmem, hof⟩ := List.mem_filter.mp he
  rw [hf e hmem hof]
  rfl

/-- The roles that are stored once a grant is written. -/
theorem mem_storedRoles_set {u : State} {k : GrantKey} {g : Grant} {a w r : String}
    (hset : t.grants = OrderedMap.set u.grants k g) : r ∈ storedRoles t a w ↔
      (k.accountId = a ∧ k.workspaceId = w ∧ r ∈ g.roles) ∨
        ∃ e ∈ u.grants, e.1 ≠ k ∧ e.1.accountId = a ∧ e.1.workspaceId = w ∧ r ∈ e.2.roles := by
  rw [mem_storedRoles, hset]
  constructor
  · rintro ⟨e, he, ha, hw, hr⟩
    rcases OrderedMap.mem_set_iff.mp he with rfl | ⟨he, hne⟩
    · exact Or.inl ⟨ha, hw, hr⟩
    · exact Or.inr ⟨e, he, hne, ha, hw, hr⟩
  · rintro (⟨ha, hw, hr⟩ | ⟨e, he, hne, ha, hw, hr⟩)
    · exact ⟨(k, g), OrderedMap.mem_set_iff.mpr (Or.inl rfl), ha, hw, hr⟩
    · exact ⟨e, OrderedMap.mem_set_iff.mpr (Or.inr ⟨he, hne⟩), ha, hw, hr⟩

/-! ## The invariant -/

/-- What every reachable state has: one grant a key, in a space; `OWNER` only under its own key or
that of an application, and only for the owner of the space. -/
structure Owned (s : State) : Prop where
  keyed : OrderedMap.Keyed s.grants
  spaces : ∀ e ∈ s.grants, s.space? e.1.workspaceId ≠ none
  singular : OwnerSingular s
  ownerKeys : ∀ e ∈ s.grants, "OWNER" ∈ e.2.roles →
    e.1.source = .OWNER ∨ e.1.source = .of .APPLICATION
  adminKeys : ∀ e ∈ s.grants, e.2.source = .ADMIN → e.1.source = .of .ADMIN

theorem owned_initial : Owned initial where
  keyed := keyed_nil
  spaces := fun e he => absurd he List.not_mem_nil
  singular := fun w space h => by cases h
  ownerKeys := fun e he => absurd he List.not_mem_nil
  adminKeys := fun e he => absurd he List.not_mem_nil

theorem owned_of_same (hgrants : t.grants = s.grants)
    (howners : ∀ w, (t.space? w).map (·.ownerId) = (s.space? w).map (·.ownerId)) (h : Owned s) :
    Owned t := by
  have hstored : ∀ a w, storedRoles t a w = storedRoles s a w := fun a w => by
    unfold storedRoles
    rw [hgrants]
  refine ⟨hgrants ▸ h.keyed, ?_, ?_, hgrants ▸ h.ownerKeys, hgrants ▸ h.adminKeys⟩
  · rw [hgrants]
    intro e he hnone
    have howner := howners e.1.workspaceId
    rw [hnone] at howner
    exact h.spaces e he (Option.map_eq_none_iff.mp howner.symm)
  · intro w space hspace a
    have howner := howners w
    rw [hspace] at howner
    obtain ⟨space', hspace', heq⟩ := Option.map_eq_some_iff.mp howner.symm
    rw [hstored, h.singular w space' hspace' a, heq]

/-- Grants that are changed one by one keep their keys. -/
theorem keyed_map {f : GrantKey × Grant → Grant} {gs : List (GrantKey × Grant)}
    (h : OrderedMap.Keyed gs) : OrderedMap.Keyed (gs.map fun e => (e.1, f e)) := by
  unfold OrderedMap.Keyed at *
  rw [List.map_map]
  exact h

/-- The keys of grants that are written over changed ones. -/
structure KeysKept (u : State) (s : State) : Prop where
  keyed : OrderedMap.Keyed u.grants
  spaces : ∀ e ∈ u.grants, s.space? e.1.workspaceId ≠ none
  ownerKeys : ∀ e ∈ u.grants, "OWNER" ∈ e.2.roles →
    e.1.source = .OWNER ∨ e.1.source = .of .APPLICATION
  adminKeys : ∀ e ∈ u.grants, e.2.source = .ADMIN → e.1.source = .of .ADMIN

theorem Owned.keysKept (h : Owned s) : KeysKept s s :=
  ⟨h.keyed, h.spaces, h.ownerKeys, h.adminKeys⟩

theorem keysKept_map {u : State} {f : GrantKey × Grant → Grant} (h : Owned s)
    (hgrants : u.grants = s.grants.map fun e => (e.1, f e))
    (hroles : ∀ e, ∀ r ∈ (f e).roles, r ∈ e.2.roles) (hsource : ∀ e, (f e).source = e.2.source) :
    KeysKept u s := by
  refine ⟨hgrants ▸ keyed_map h.keyed, ?_, ?_, ?_⟩
  · rw [hgrants]
    intro e he
    obtain ⟨x, hx, rfl⟩ := List.mem_map.mp he
    exact h.spaces x hx
  · rw [hgrants]
    intro e he howner
    obtain ⟨x, hx, rfl⟩ := List.mem_map.mp he
    exact h.ownerKeys x hx (hroles x _ howner)
  · rw [hgrants]
    intro e he hadmin
    obtain ⟨x, hx, rfl⟩ := List.mem_map.mp he
    exact h.adminKeys x hx ((hsource x).symm.trans hadmin)

/-- A grant that is written over such keys, once it is known who holds `OWNER`. -/
theorem owned_set {u : State} {k : GrantKey} {g : Grant} (hkept : KeysKept u s)
    (hset : t.grants = OrderedMap.set u.grants k g)
    (hspaces : ∀ w, s.space? w ≠ none → t.space? w ≠ none) (hspace : t.space? k.workspaceId ≠ none)
    (howner : "OWNER" ∈ g.roles → k.source = .OWNER ∨ k.source = .of .APPLICATION)
    (hadmin : g.source = .ADMIN → k.source = .of .ADMIN) (hsingular : OwnerSingular t) : Owned t := by
  refine ⟨hset ▸ keyed_set hkept.keyed k g, ?_, hsingular, ?_, ?_⟩
  · rw [hset]
    intro e he
    rcases mem_set he with rfl | he
    · exact hspace
    · exact hspaces _ (hkept.spaces e he)
  · rw [hset]
    intro e he
    rcases mem_set he with rfl | he
    · exact howner
    · exact hkept.ownerKeys e he
  · rw [hset]
    intro e he
    rcases mem_set he with rfl | he
    · exact hadmin
    · exact hkept.adminKeys e he

/-- Who holds `OWNER` and who the owners are is the same. -/
theorem singular_of_same (hspaces : t.spaces = s.spaces)
    (howners : ∀ a w, "OWNER" ∈ storedRoles t a w ↔ "OWNER" ∈ storedRoles s a w)
    (h : OwnerSingular s) : OwnerSingular t := by
  intro w space hspace a
  rw [space_congr hspaces] at hspace
  rw [howners]
  exact h w space hspace a

/-- A space with a new owner, who alone holds `OWNER` in it. -/
theorem singular_of_owner {w target : String} {space' : Space}
    (hspaces : t.spaces = OrderedMap.set s.spaces w space') (howner : space'.ownerId = target)
    (hhere : ∀ a, "OWNER" ∈ storedRoles t a w ↔ a = target)
    (hthere : ∀ a v, v ≠ w → ("OWNER" ∈ storedRoles t a v ↔ "OWNER" ∈ storedRoles s a v))
    (h : OwnerSingular s) : OwnerSingular t := by
  intro v space hspace a
  unfold State.space? at hspace
  rw [hspaces, get?_of_set] at hspace
  by_cases hv : v = w
  · rw [if_pos hv] at hspace
    cases hspace
    rw [hv, howner]
    exact hhere a
  · rw [if_neg hv] at hspace
    rw [hthere a v hv]
    exact h v space hspace a

/-! ## Who holds the owner's role -/

/-- A grant without `OWNER`, under a key that never has it. -/
theorem owner_set {u : State} {k : GrantKey} {g : Grant} (hkept : KeysKept u s)
    (hset : t.grants = OrderedMap.set u.grants k g) (hg : "OWNER" ∉ g.roles)
    (hk : k.source ≠ .OWNER ∧ k.source ≠ .of .APPLICATION) (a w : String) :
    "OWNER" ∈ storedRoles t a w ↔ "OWNER" ∈ storedRoles u a w := by
  rw [mem_storedRoles_set hset, mem_storedRoles]
  constructor
  · rintro (⟨-, -, hr⟩ | ⟨e, he, -, hrest⟩)
    · exact absurd hr hg
    · exact ⟨e, he, hrest⟩
  · rintro ⟨e, he, hrest⟩
    refine Or.inr ⟨e, he, ?_, hrest⟩
    rintro rfl
    rcases hkept.ownerKeys e he hrest.2.2 with h | h
    · exact hk.1 h
    · exact hk.2 h

theorem owner_withdrawRoles (s : State) (w a : String) (source : Source) (a' w' : String) :
    "OWNER" ∈ storedRoles (withdrawRoles s w a source) a' w' ↔ "OWNER" ∈ storedRoles s a' w' := by
  refine ⟨withdrawRoles_stored, fun h => ?_⟩
  obtain ⟨e, he, ha, hw, hr⟩ := mem_storedRoles.mp h
  refine mem_storedRoles.mpr ⟨_, List.mem_map_of_mem he, ha, hw, ?_⟩
  by_cases hof : withdraws w a source e = true
  · rw [if_pos hof, Grant.retained_roles]
    exact List.mem_filter.mpr ⟨hr, by simp⟩
  · rw [if_neg hof]
    exact hr

theorem owner_dropOwner (s : State) (w a v : String) :
    "OWNER" ∈ storedRoles (dropOwner s w) a v ↔ v ≠ w ∧ "OWNER" ∈ storedRoles s a v := by
  constructor
  · intro h
    refine ⟨?_, dropOwner_stored h⟩
    rintro rfl
    obtain ⟨e, he, -, hw, hr⟩ := mem_storedRoles.mp h
    obtain ⟨x, -, rfl⟩ := List.mem_map.mp he
    rw [if_pos hw] at hr
    simpa using (List.mem_filter.mp hr).2
  · rintro ⟨hv, h⟩
    obtain ⟨e, he, ha, hw, hr⟩ := mem_storedRoles.mp h
    refine mem_storedRoles.mpr ⟨_, List.mem_map_of_mem he, ha, hw, ?_⟩
    rw [if_neg (hw ▸ hv)]
    exact hr

/-- Roles without `OWNER` that are added leave it where it was. -/
theorem owner_addRoles {w a by_ : String} {source : Source} {granted : List String} (h : Owned s)
    (hgrants : t.grants = (addRoles s w a source granted by_).grants) (hg : "OWNER" ∉ granted)
    (a' w' : String) : "OWNER" ∈ storedRoles t a' w' ↔ "OWNER" ∈ storedRoles s a' w' := by
  rw [mem_storedRoles_set hgrants, mem_storedRoles]
  constructor
  · rintro (⟨ha, hw, hr⟩ | ⟨e, he, -, hrest⟩)
    · rcases mem_eraseDups_append.mp hr with hold | hr
      · obtain ⟨g, hg, hold⟩ := mem_oldRoles hold
        exact ⟨_, hg, ha, hw, hold⟩
      · exact absurd hr hg
    · exact ⟨e, he, hrest⟩
  · rintro ⟨e, he, ha, hw, hr⟩
    by_cases hkey : e.1 = { workspaceId := w, accountId := a, source := .of source }
    · have hfound := OrderedMap.get?_of_mem h.keyed (k := e.1) (v := e.2) he
      rw [hkey] at hfound
      refine Or.inl ⟨(congrArg GrantKey.accountId hkey).symm.trans ha,
        (congrArg GrantKey.workspaceId hkey).symm.trans hw, mem_eraseDups_append.mpr (Or.inl ?_)⟩
      rw [hfound]
      exact hr
    · exact Or.inr ⟨e, he, hkey, ha, hw, hr⟩

/-- `OWNER` that is written in a space where nobody holds it. -/
theorem owner_given {u : State} {k : GrantKey} {g : Grant} {w : String}
    (hset : t.grants = OrderedMap.set u.grants k g) (hw : k.workspaceId = w) (hg : "OWNER" ∈ g.roles)
    (hnone : ∀ a, "OWNER" ∉ storedRoles u a w) (a : String) :
    "OWNER" ∈ storedRoles t a w ↔ a = k.accountId := by
  rw [mem_storedRoles_set hset]
  constructor
  · rintro (⟨ha, -, -⟩ | ⟨e, he, -, hrest⟩)
    · exact ha.symm
    · exact absurd (mem_storedRoles.mpr ⟨e, he, hrest⟩) (hnone a)
  · rintro rfl
    exact Or.inl ⟨rfl, hw, hg⟩

/-- In the other spaces a written grant changes nothing. -/
theorem storedRoles_elsewhere {u : State} {k : GrantKey} {g : Grant} {a v : String}
    (hset : t.grants = OrderedMap.set u.grants k g) (hv : v ≠ k.workspaceId) :
    storedRoles t a v = storedRoles u a v :=
  storedRoles_congr (entriesOf_set hset fun h => hv h.2.symm)

theorem owner_new {w : String} (h : Owned s) (hnew : s.space? w = none) (a : String) :
    "OWNER" ∉ storedRoles s a w := by
  intro howner
  obtain ⟨e, he, -, hw, -⟩ := mem_storedRoles.mp howner
  exact h.spaces e he (hw ▸ hnew)

/-! ## One operation keeps the invariant -/

/-- A role list that is accepted has no `OWNER`. -/
def OwnerRefused (policy : Policy) : Prop := ∀ set, roleSet policy ["OWNER"] ≠ .ok set

theorem owner_not_given (hrefused : OwnerRefused policy) {roles set : List String}
    (h : roleSet policy roles = .ok set) : "OWNER" ∉ roles := by
  intro howner
  obtain ⟨hpermitted, hclash, -⟩ := roleSet_ok h
  have honly : ∀ r ∈ ["OWNER"], r ∈ roles := fun r hr => List.mem_singleton.mp hr ▸ howner
  exact hrefused _ (roleSet_of (fun r hr => hpermitted r (honly r hr)) (clash_mono honly hclash))

theorem owned_ownerGiven {row : OwnerRow} {by_ : String} (hgiven : OwnerGiven s row by_ t)
    (h : Owned s) : Owned t := by
  obtain ⟨space, howner, hspaces⟩ := hgiven.spaces
  obtain ⟨hthere, hstay⟩ := space_of_set hspaces
  refine owned_set h.keysKept hgiven.grants hstay hthere (fun _ => Or.inl rfl)
    (fun hadmin => by cases hadmin) (singular_of_owner hspaces howner ?_ ?_ h.singular)
  · exact owner_given hgiven.grants rfl List.mem_cons_self (owner_new h hgiven.new)
  · intro a v hv
    rw [storedRoles_elsewhere hgiven.grants hv]

theorem owned_rolesGiven (hrefused : OwnerRefused policy) {row : GrantRow} {by_ : String}
    (hgiven : RolesGiven policy s row by_ t) (h : Owned s) : Owned t := by
  obtain ⟨set, hset⟩ := hgiven.set
  have hnot := owner_not_given hrefused hset
  have hspace := space_congr hgiven.spaces
  refine owned_set h.keysKept hgiven.grants (fun w hw => ?_) ?_ (fun howner => absurd howner hnot)
    (fun hadmin => by cases hadmin) (singular_of_same hgiven.spaces ?_ h.singular)
  · rw [hspace]
    exact hw
  · rw [hspace]
    exact hgiven.there
  · exact owner_set h.keysKept hgiven.grants hnot ⟨by simp, by simp⟩

theorem owned_step (hrefused : OwnerRefused policy) {act : Act}
    (hstep : step digest policy s act = some t) (h : Owned s) : Owned t := by
  cases step_changed hstep with
  | same accounts grants owners => exact owned_of_same grants owners h
  | accounts grants spaces admin =>
    refine owned_of_same grants (fun w => ?_) h
    rw [space_congr spaces]
  | @created now raw id w input _ actor a space signed admin new accounts owner grants spaces =>
    obtain ⟨hthere, hstay⟩ := space_of_set spaces
    refine owned_set h.keysKept grants hstay hthere (fun _ => Or.inr rfl)
      (fun hadmin => by cases hadmin) (singular_of_owner spaces owner ?_ ?_ h.singular)
    · exact owner_given grants rfl (mem_eraseDups_append.mpr (Or.inr List.mem_cons_self))
        (owner_new h new)
    · intro b v hv
      rw [storedRoles_elsewhere grants hv]
  | @joined now raw id w input _ actor a source granted signed found kind pending approve active
      joined accounts grants spaces =>
    obtain ⟨access, hentered, -⟩ := joined.access
    have hnot : "OWNER" ∉ granted := by
      obtain ⟨-, -, hset⟩ := roleSet_ok joined.granted
      rw [hset, List.mem_eraseDups]
      exact owner_not_given hrefused joined.granted
    have hsame := owner_addRoles h grants hnot
    have hspace := space_congr spaces
    refine owned_set h.keysKept grants (fun w hw => ?_) ?_ (fun howner => ?_)
      (fun hadmin => congrArg KeySource.of hadmin) (singular_of_same spaces hsame h.singular)
    · rw [hspace]
      exact hw
    · rw [hspace, hentered.space]
      exact Option.some_ne_none _
    · rcases mem_eraseDups_append.mp howner with hold | howner
      · obtain ⟨g, hg, hold⟩ := mem_oldRoles hold
        exact h.ownerKeys _ hg hold
      · exact absurd howner hnot
  | @granted _ now raw w a roles asked _ actor access granted call signed entered source active set
      managers accounts grants spaces =>
    have hentered := spaceAccess_ok entered
    have hnot : "OWNER" ∉ granted := by
      obtain ⟨-, -, hset⟩ := roleSet_ok set
      rw [hset, List.mem_eraseDups]
      exact owner_not_given hrefused set
    have hkept : KeysKept (withdrawRoles s w a (grantSource actor access a asked)) s :=
      keysKept_map h rfl (fun e => (withdrawn_grant w a _ e).1) fun e => (withdrawn_grant w a _ e).2
    have hsource : grantSource actor access a asked ≠ .APPLICATION := by
      unfold grantSource
      by_cases hself : actor.id = a ∧ access.admin = true ∧ access.owner = false
      · rw [if_pos hself]
        simp
      · rw [if_neg hself]
        rintro rfl
        simp at source
    have hspace := space_congr spaces
    refine owned_set hkept grants (fun w hw => ?_) ?_ (fun howner => absurd howner hnot)
      (fun hadmin => congrArg KeySource.of hadmin) (singular_of_same spaces (fun b v => ?_) h.singular)
    · rw [hspace]
      exact hw
    · rw [hspace, hentered.space]
      exact Option.some_ne_none _
    · rw [owner_set hkept grants hnot ⟨by simp, fun heq => hsource (KeySource.of.inj heq)⟩]
      exact owner_withdrawRoles s w a _ b v
  | @owned _ now raw w targetId _ actor space space' version call signed found owner accounts grants
      spaces =>
    obtain ⟨hthere, hstay⟩ := space_of_set spaces
    have hkept : KeysKept (dropOwner s w) s :=
      keysKept_map h rfl (fun e => (ownerless_grant w e).1) fun e => (ownerless_grant w e).2
    refine owned_set hkept grants hstay hthere (fun _ => Or.inl rfl) (fun hadmin => by cases hadmin)
      (singular_of_owner spaces owner ?_ ?_ h.singular)
    · exact owner_given grants rfl List.mem_cons_self fun b hb =>
        ((owner_dropOwner s w b w).mp hb).1 rfl
    · intro b v hv
      rw [storedRoles_elsewhere grants hv, owner_dropOwner]
      exact ⟨And.right, fun howner => ⟨hv, howner⟩⟩
  | migrated done =>
    refine migrate_keeps (fun u v hsame hu => ?_) (fun row u v => owned_ownerGiven)
      (fun row u v => owned_rolesGiven hrefused) done h
    refine owned_of_same hsame.grants (fun w => ?_) hu
    rw [space_congr hsame.spaces]

theorem owned_run (hrefused : OwnerRefused policy) {acts : List Act}
    (hrun : Machine.run (step digest policy) initial acts = some s) : Owned s :=
  Machine.run_keeps (fun _ _ _ h hstep => owned_step hrefused hstep h) hrun owned_initial

/-! ## Owners move -/

theorem owner_stays_of_spaces {act : Act}
    (hspaces : ∀ w space, s.space? w = some space →
      ∃ space' : Space, t.space? w = some space' ∧ space'.ownerId = space.ownerId) :
    OwnerMoves digest s act t := by
  intro w space hspace
  obtain ⟨space', hspace', howner⟩ := hspaces w space hspace
  exact ⟨space', hspace', Or.inl howner⟩

/-- A migration leaves the spaces that are there. -/
theorem migrate_spaces {input : MigrateInput} (h : migrate digest policy input s = .ok t) (w : String)
    (space : Space) (hspace : s.space? w = some space) : t.space? w = some space := by
  refine migrate_keeps (fun u v hsame (hu : u.space? w = some space) => ?_)
    (fun row u v hgiven hu => ?_) (fun row u v hgiven hu => ?_) h hspace
  · rw [space_congr hsame.spaces]
    exact hu
  · obtain ⟨space', -, hspaces⟩ := hgiven.spaces
    have hne : w ≠ row.workspaceId := by
      rintro rfl
      rw [hgiven.new] at hu
      cases hu
    rw [space_elsewhere hspaces hne]
    exact hu
  · rw [space_congr hgiven.spaces]
    exact hu

theorem isAdmin_of_signed {raw : String} {actor : Actor} (h : Signed digest s raw actor)
    (hadmin : actor.account.admin = true) : isAdmin s actor.id = true := by
  unfold isAdmin
  rw [h.account, Option.any_some]
  exact hadmin

theorem owner_moves {act : Act} (hstep : step digest policy s act = some t) :
    OwnerMoves digest s act t := by
  cases step_changed hstep with
  | same accounts grants owners =>
    refine owner_stays_of_spaces fun w space hspace => ?_
    have howner := owners w
    rw [hspace] at howner
    exact Option.map_eq_some_iff.mp howner
  | accounts grants spaces admin =>
    refine owner_stays_of_spaces fun w space hspace => ⟨space, ?_, rfl⟩
    rw [space_congr spaces]
    exact hspace
  | @created now raw id w input _ actor a space signed admin new accounts owner grants spaces =>
    refine owner_stays_of_spaces fun v found hfound => ⟨found, ?_, rfl⟩
    have hne : v ≠ w := by
      rintro rfl
      rw [new] at hfound
      cases hfound
    rw [space_elsewhere spaces hne]
    exact hfound
  | joined signed found kind pending approve active joined accounts grants spaces =>
    refine owner_stays_of_spaces fun w space hspace => ⟨space, ?_, rfl⟩
    rw [space_congr spaces]
    exact hspace
  | granted call signed entered source active set managers accounts grants spaces =>
    refine owner_stays_of_spaces fun w space hspace => ⟨space, ?_, rfl⟩
    rw [space_congr spaces]
    exact hspace
  | @owned _ now raw w targetId _ actor space space' version call signed found owner accounts grants
      spaces =>
    intro v old hold
    by_cases hv : v = w
    · subst hv
      have hthere : t.space? v = some space' := by
        unfold State.space?
        rw [spaces, get?_of_set, if_pos rfl]
      rw [hold] at found
      cases found
      refine ⟨space', hthere, Or.inr ?_⟩
      rcases call with ⟨rfl, hadmin⟩ | ⟨⟨other, rfl⟩, htarget, hpending⟩
      · exact Or.inr ⟨now, raw, actor.id, by rw [owner], caller_eq signed rfl,
          isAdmin_of_signed signed hadmin⟩
      · refine Or.inl ⟨by simp [Act.confirms], ?_, ?_⟩
        · rw [owner, htarget]
          exact hpending
        · rw [owner, htarget]
          exact caller_eq signed rfl
    · refine ⟨old, ?_, Or.inl rfl⟩
      rw [space_elsewhere spaces hv]
      exact hold
  | migrated done =>
    exact owner_stays_of_spaces fun w space hspace =>
      ⟨space, migrate_spaces done w space hspace, rfl⟩

/-! ## No escalation -/

theorem Unescalated.refl (x w : String) (s : State) : Unescalated x w s s :=
  ⟨rfl, fun _ h => h, fun _ h => h, fun _ _ => rfl⟩

theorem Unescalated.trans {x w : String} {u : State} (h : Unescalated x w s u)
    (h' : Unescalated x w u t) : Unescalated x w s t := by
  refine ⟨h'.own.trans h.own, fun y hy => h.stored y (h'.stored y hy),
    fun y hy => h.managers y (h'.managers y hy), fun y hy => ?_⟩
  have hu := h.holders y hy
  exact (h'.holders y (hu.symm ▸ hy)).trans hu

/-- The grants of the workspace are the same. -/
theorem unescalated_of_entries {x w : String} (haccounts : t.accounts = s.accounts)
    (h : ∀ y, entriesOf t y w = entriesOf s y w) : Unescalated x w s t := by
  refine ⟨rolesIn_congr haccounts (h x), fun y hy => ?_, fun y hy => ?_,
    fun y _ => rolesIn_congr haccounts (h y)⟩
  · rw [storedRoles_congr (h y)] at hy
    exact hy
  · rw [rolesIn_congr haccounts (h y)] at hy
    exact hy

/-- The grants of one account change that is not the caller and no manager, and it is made none. -/
theorem unescalated_of_other {x w a : String} (haccounts : t.accounts = s.accounts) (hx : x ≠ a)
    (hentries : ∀ y, y ≠ a → entriesOf t y w = entriesOf s y w)
    (hplain : (rolesIn s a w).any isManagerRole = false)
    (hstored : "PERMISSION_ADMIN" ∈ storedRoles t a w → "PERMISSION_ADMIN" ∈ storedRoles s a w)
    (hmanagers : "PERMISSION_ADMIN" ∈ rolesIn t a w → "PERMISSION_ADMIN" ∈ rolesIn s a w) :
    Unescalated x w s t := by
  refine ⟨rolesIn_congr haccounts (hentries x hx), fun y hy => ?_, fun y hy => ?_, fun y hy => ?_⟩
  · by_cases hya : y = a
    · subst hya
      exact hstored hy
    · rw [storedRoles_congr (hentries y hya)] at hy
      exact hy
  · by_cases hya : y = a
    · subst hya
      exact hmanagers hy
    · rw [rolesIn_congr haccounts (hentries y hya)] at hy
      exact hy
  · have hya : y ≠ a := by
      rintro rfl
      rw [hplain] at hy
      cases hy
    exact rolesIn_congr haccounts (hentries y hya)

theorem notAdmin_of_signed {raw x : String} {act : Act} {actor : Actor}
    (hsigned : Signed digest s raw actor) (hraw : act.raw = some raw)
    (hcaller : caller digest s act = some x) (hadmin : isAdmin s x = false) :
    actor.id = x ∧ actor.account.admin = false := by
  rw [caller_eq hsigned hraw] at hcaller
  cases hcaller
  refine ⟨rfl, ?_⟩
  rw [Bool.eq_false_iff]
  intro htrue
  rw [isAdmin_of_signed hsigned htrue] at hadmin
  cases hadmin

/-- A role that was in the grant of the same key before, in effect if it is now. -/
theorem role_from_before {r a w : String} (haccounts : t.accounts = s.accounts)
    (hbefore : ∀ e ∈ t.grants, r ∈ e.2.roles →
      ∃ x ∈ s.grants, x.1 = e.1 ∧ (x.2.source = .ADMIN → e.2.source = .ADMIN) ∧ r ∈ x.2.roles) :
    (r ∈ storedRoles t a w → r ∈ storedRoles s a w) ∧ (r ∈ rolesIn t a w → r ∈ rolesIn s a w) := by
  constructor
  · intro hr
    obtain ⟨e, he, ha, hw, hr⟩ := mem_storedRoles.mp hr
    obtain ⟨x, hx, hkey, -, hr⟩ := hbefore e he hr
    exact mem_storedRoles.mpr ⟨x, hx, hkey ▸ ha, hkey ▸ hw, hr⟩
  · intro hr
    obtain ⟨account, haccount, hactive, e, he, ha, hw, hsource, hr⟩ := mem_rolesIn.mp hr
    obtain ⟨x, hx, hkey, hadmin, hr⟩ := hbefore e he hr
    refine mem_rolesIn.mpr ⟨account, ?_, hactive, x, hx, hkey ▸ ha, hkey ▸ hw,
      fun hsource' => hsource (hadmin hsource'), hr⟩
    unfold State.account? at *
    rw [← haccounts]
    exact haccount

/-- Roles without `PERMISSION_ADMIN` that are added to an application's grant make no manager. -/
theorem managers_addRoles {w a by_ : String} {granted : List String} (h : Owned s)
    (hgrants : t.grants = (addRoles s w a .APPLICATION granted by_).grants)
    (hnot : "PERMISSION_ADMIN" ∉ granted) : ∀ e ∈ t.grants, "PERMISSION_ADMIN" ∈ e.2.roles →
      ∃ x ∈ s.grants, x.1 = e.1 ∧ (x.2.source = .ADMIN → e.2.source = .ADMIN) ∧
        "PERMISSION_ADMIN" ∈ x.2.roles := by
  rw [hgrants]
  intro e he hr
  rcases mem_set he with rfl | he
  · rcases mem_eraseDups_append.mp hr with hr | hr
    · cases hfound : get? s.grants
          { workspaceId := w, accountId := a, source := .of .APPLICATION } with
      | none =>
        rw [hfound] at hr
        exact absurd hr List.not_mem_nil
      | some g =>
        rw [hfound] at hr
        have hmem := get?_mem hfound
        refine ⟨_, hmem, rfl, fun hsource => ?_, hr⟩
        have hkey := h.adminKeys _ hmem hsource
        cases hkey
    · exact absurd hr hnot
  · exact ⟨e, he, rfl, fun hsource => hsource, hr⟩

/-- A new grant without `PERMISSION_ADMIN` makes no manager. -/
theorem managers_setRoles {w a by_ : String} {source : Source} {granted : List String}
    (hgrants : t.grants = (setRoles (withdrawRoles s w a source) w a source granted by_).grants)
    (hnot : "PERMISSION_ADMIN" ∉ granted) : ∀ e ∈ t.grants, "PERMISSION_ADMIN" ∈ e.2.roles →
      ∃ x ∈ s.grants, x.1 = e.1 ∧ (x.2.source = .ADMIN → e.2.source = .ADMIN) ∧
        "PERMISSION_ADMIN" ∈ x.2.roles := by
  rw [hgrants]
  intro e he hr
  rcases mem_set he with rfl | he
  · exact absurd hr hnot
  · obtain ⟨x, hx, rfl⟩ := List.mem_map.mp he
    obtain ⟨hroles, hsource⟩ := withdrawn_grant w a source x
    exact ⟨x, hx, rfl, fun hadmin => hsource.trans hadmin, hroles _ hr⟩

/-- Withdrawing leaves the grants of the others. -/
theorem entriesOf_withdrawRoles {w a y v : String} {source : Source} (hne : ¬ (a = y ∧ w = v)) :
    entriesOf (withdrawRoles s w a source) y v = entriesOf s y v := by
  refine entriesOf_map rfl fun e _ hof => ?_
  have hnot : ¬ withdraws w a source e = true := by
    intro h
    unfold withdraws at h
    rw [Bool.and_eq_true] at h
    obtain ⟨ha, hw⟩ := isOf_eq_true.mp h.1
    obtain ⟨ha', hw'⟩ := isOf_eq_true.mp hof
    exact hne ⟨ha.symm.trans ha', hw.symm.trans hw'⟩
  exact if_neg hnot

theorem entriesOf_dropOwner {w y v : String} (hne : v ≠ w) :
    entriesOf (dropOwner s w) y v = entriesOf s y v := by
  refine entriesOf_map rfl fun e _ hof => ?_
  exact if_neg fun hw => hne ((isOf_eq_true.mp hof).2.symm.trans hw)

/-- One operation of an account that is neither the owner nor a system admin. -/
theorem unescalated_step {x w : String} {act : Act} (h : Owned s)
    (hstep : step digest policy s act = some t) (hcaller : caller digest s act = some x)
    (hconfirms : act.confirms w = false) (hx : "OWNER" ∉ rolesIn s x w)
    (hadmin : isAdmin s x = false) : Unescalated x w s t ∧ t.accounts = s.accounts := by
  cases step_changed hstep with
  | same accounts grants owners =>
    refine ⟨unescalated_of_entries accounts fun y => ?_, accounts⟩
    unfold entriesOf
    rw [grants]
  | accounts grants spaces admin =>
    obtain ⟨account, haccount, htrue⟩ := admin x hcaller
    unfold isAdmin at hadmin
    rw [haccount, Option.any_some, htrue] at hadmin
    cases hadmin
  | created signed admin new accounts owner grants spaces =>
    rw [(notAdmin_of_signed signed rfl hcaller hadmin).2] at admin
    cases admin
  | @joined now raw id v input _ actor a source granted signed found kind pending approve active
      joined accounts grants spaces =>
    obtain ⟨hid, hflag⟩ := notAdmin_of_signed signed rfl hcaller hadmin
    refine ⟨?_, accounts⟩
    have hsource : source = .APPLICATION := by
      refine joined.source.resolve_right fun hintervened => ?_
      rw [hflag] at hintervened
      cases hintervened.2.2
    subst hsource
    by_cases hw : a.target = w
    · subst hw
      obtain ⟨access, hentered, hmanager⟩ := joined.access
      have howner : access.owner = false := by
        rw [hentered.owner, hid]
        exact decide_eq_false hx
      obtain ⟨hself, hnot, hplain⟩ := hmanager howner (hentered.admin.trans hflag)
      obtain ⟨hstored, hmanagers⟩ := role_from_before (a := a.accountId) (w := a.target) accounts
        (managers_addRoles h grants hnot)
      exact unescalated_of_other accounts (hid ▸ hself)
        (fun y hy => entriesOf_set grants fun hkey => hy hkey.1.symm) hplain hstored hmanagers
    · exact unescalated_of_entries accounts fun y => entriesOf_set grants fun hkey => hw hkey.2
  | @granted _ now raw v a roles asked _ actor access granted call signed entered source active set
      managers accounts grants spaces =>
    have hraw : act.raw = some raw := by
      rcases call with rfl | ⟨rfl, -, -⟩
      · rfl
      · rfl
    obtain ⟨hid, hflag⟩ := notAdmin_of_signed (sessionIn_ok signed).1 hraw hcaller hadmin
    refine ⟨?_, accounts⟩
    have hkept : ∀ y u, ¬ (a = y ∧ v = u) → entriesOf t y u = entriesOf s y u := fun y u hne =>
      (entriesOf_set grants hne).trans (entriesOf_withdrawRoles hne)
    by_cases hv : v = w
    · subst hv
      have hentered := spaceAccess_ok entered
      have howner : access.owner = false := by
        rw [hentered.owner, hid]
        exact decide_eq_false hx
      obtain ⟨hself, hnot, hprior, hpriorOwner⟩ := managers howner (hentered.admin.trans hflag)
      obtain ⟨hstored, hmanagers⟩ := role_from_before (a := a) (w := v) accounts
        (managers_setRoles grants hnot)
      refine unescalated_of_other accounts (hid ▸ Ne.symm hself)
        (fun y hy => hkept y v fun hkey => hy hkey.1.symm) ?_ hstored hmanagers
      rw [List.any_eq_false]
      intro r hr hmanager
      unfold isManagerRole at hmanager
      simp only [List.mem_cons, List.not_mem_nil, or_false, decide_eq_true_eq] at hmanager
      rcases hmanager with rfl | rfl
      · exact hpriorOwner hr
      · exact hprior hr
    · exact unescalated_of_entries accounts fun y => hkept y w fun hkey => hv hkey.2
  | @owned _ now raw v targetId _ actor space space' version call signed found owner accounts grants
      spaces =>
    refine ⟨?_, accounts⟩
    rcases call with ⟨rfl, htrue⟩ | ⟨⟨other, rfl⟩, -, -⟩
    · rw [(notAdmin_of_signed signed rfl hcaller hadmin).2] at htrue
      cases htrue
    · have hv : w ≠ v := by
        rintro rfl
        simp [Act.confirms] at hconfirms
      refine unescalated_of_entries accounts fun y => ?_
      rw [entriesOf_set grants fun hkey => hv hkey.2.symm]
      exact entriesOf_dropOwner hv
  | migrated done => cases hcaller

theorem no_escalation (hrefused : OwnerRefused policy) (h : Owned s) :
    NoEscalation digest policy s := by
  intro x w hx hadmin acts
  induction acts generalizing s with
  | nil =>
    intro t hrun _
    cases hrun
    exact Unescalated.refl x w s
  | cons act acts ih =>
    intro t hrun hmade
    obtain ⟨u, hu, hrest⟩ := Machine.run_cons_some hrun
    obtain ⟨⟨hcaller, hconfirms⟩, hmade⟩ := Machine.along_cons_some hmade hu
    obtain ⟨hfirst, haccounts⟩ := unescalated_step h hu hcaller hconfirms hx hadmin
    have hx' : "OWNER" ∉ rolesIn u x w := by
      rw [hfirst.own]
      exact hx
    have hadmin' : isAdmin u x = false := by
      unfold isAdmin State.account? at *
      rw [haccounts]
      exact hadmin
    exact hfirst.trans (ih (owned_step hrefused hu h) hx' hadmin' t hrest hmade)

/-! ## When it holds -/

theorem migrateGrant_of {space : Space} {by_ : String} {row : GrantRow} {set : List String}
    (hspace : s.space? row.workspaceId = some space)
    (haccount : (s.account? row.accountId).isSome = true)
    (hset : roleSet policy row.roles = .ok set) (hnone : rolesIn s row.accountId row.workspaceId = []) :
    migrateGrant digest policy by_ row s =
      .ok (setMigrated (principal digest s row.accountId space.tenantId) row by_) := by
  have hunion : roleSet policy ((rolesIn s row.accountId row.workspaceId).filter (fun r => r ≠ "OWNER") ++
      row.roles) = .ok set := by
    rw [hnone]
    exact hset
  unfold migrateGrant
  simp only [hspace, haccount, hset, hunion]
  rfl

theorem migrate_of {input : MigrateInput} {bound owned granted : State}
    (hconfirmed : input.confirmed = true) (hinitialized : s.control.initialized = true)
    (hbound : eachRow migrateBinding input.bindings s = .ok bound)
    (howned : eachRow (migrateOwner digest input.requestedBy) input.owners bound = .ok owned)
    (hgranted : eachRow (migrateGrant digest policy input.requestedBy) input.grants owned =
      .ok granted) : ∃ t, migrate digest policy input s = .ok t ∧ SameRoles granted t := by
  unfold migrate
  rw [demand_of hconfirmed, demand_of hinitialized, hbound]
  refine ⟨{ granted with control := { granted.control with epoch := granted.control.epoch + 1 } },
    ?_, rfl, rfl, rfl⟩
  simp only [bind, Except.bind, howned, hgranted]
  rfl

def ownerRow : OwnerRow := { workspaceId := "W", accountId := "ann", visibility := none }

def ownerGrant : GrantRow := { workspaceId := "W", accountId := "bob", roles := ["OWNER"] }

/-- A space of ann is migrated, and a grant of bob that lists `OWNER`. -/
def twoOwners : MigrateInput :=
  { bindings := [], owners := [ownerRow], grants := [ownerGrant], confirmed := true
    requestedBy := "ops" }

def beforeMigration : List Act :=
  [.elsewhere (.control { initialized := true, recovery := false, epoch := 0 }),
   .elsewhere (.account "ann" systemAdmin), .elsewhere (.account "bob" systemAdmin),
   .elsewhere (.project "W" { tenantId := "T", name := "shop", status := "ACTIVE" })]

def unmigrated : State :=
  { initial with
    control := { initialized := true, recovery := false, epoch := 0 }
    accounts := [("ann", systemAdmin), ("bob", systemAdmin)]
    projects := [("W", { tenantId := "T", name := "shop", status := "ACTIVE" })] }

/-- A policy that accepts `OWNER` in a role list lets a migration make a second owner. -/
theorem two_owners {set : List String} (haccepted : roleSet policy ["OWNER"] = .ok set) :
    ¬ OwnershipHolds digest policy := by
  intro hholds
  obtain ⟨u, hu, hspace, haccounts, hroles⟩ : ∃ u,
      eachRow (migrateOwner digest "ops") [ownerRow] unmigrated = .ok u ∧
        u.space? "W" = some
          { tenantId := "T", name := "shop", ownerId := "ann", visibility := "DISCOVERABLE"
            status := .ACTIVE, pendingOwner := none, entryDigest := none } ∧
        u.accounts = unmigrated.accounts ∧ rolesIn u "bob" "W" = [] := ⟨_, rfl, rfl, rfl, rfl⟩
  have haccount : (u.account? "bob").isSome = true := by
    unfold State.account?
    rw [haccounts]
    rfl
  have hgrant : eachRow (migrateGrant digest policy "ops") [ownerGrant] u =
      .ok (setMigrated (principal digest u "bob" "T") ownerGrant "ops") := by
    have hrow : migrateGrant digest policy "ops" ownerGrant u =
        .ok (setMigrated (principal digest u "bob" "T") ownerGrant "ops") :=
      @migrateGrant_of digest policy u _ "ops" ownerGrant _ hspace haccount haccepted hroles
    unfold eachRow
    rw [hrow]
    rfl
  obtain ⟨t, ht, hsame⟩ := migrate_of (rfl : twoOwners.confirmed = true) rfl rfl hu hgrant
  have hrun : Machine.run (step digest policy) initial (beforeMigration ++ [.migrate twoOwners]) =
      some t := by
    have hstep : step digest policy unmigrated (.migrate twoOwners) = some t :=
      congrArg Except.toOption ht
    have hbefore : Machine.run (step digest policy) initial beforeMigration = some unmigrated := rfl
    rw [Machine.run_append hbefore, Machine.run, hstep]
    rfl
  have hann : t.space? "W" = some
      { tenantId := "T", name := "shop", ownerId := "ann", visibility := "DISCOVERABLE"
        status := .ACTIVE, pendingOwner := none, entryDigest := none } := by
    have hspaces := hsame.spaces.trans (principal_sameRoles digest u "bob" "T").spaces
    unfold State.space? at *
    rw [hspaces]
    exact hspace
  have hbob : "OWNER" ∈ storedRoles t "bob" "W" :=
    (mem_storedRoles_set hsame.grants).mpr (Or.inl ⟨rfl, rfl, List.mem_cons_self⟩)
  exact absurd (((hholds _ t hrun).1 "W" _ hann "bob").mp hbob) (by decide)

/-- Ownership is singular and managers cannot escalate, exactly under a policy whose role lists
take no `OWNER`. -/
theorem ownership_holds_iff (digest : String → String) (policy : Policy) :
    OwnershipHolds digest policy ↔ OwnerRefused policy := by
  constructor
  · intro hholds set haccepted
    exact two_owners haccepted hholds
  · intro hrefused acts s hrun
    have howned := owned_run hrefused hrun
    exact ⟨howned.singular, fun act t hstep => owner_moves hstep, no_escalation hrefused howned⟩

/-- A review role that is named `OWNER` makes owners. -/
theorem owner_as_review_role : ¬ ∀ policy, OwnershipHolds (fun text => text) policy := by
  intro hclaim
  have haccepted : roleSet { defaultPolicy with reviewRoles := defaultPolicy.reviewRoles ++ ["OWNER"] }
      ["OWNER"] = .ok ["OWNER"] := by rfl
  exact two_owners haccepted (hclaim _)

end Traqen.SpaceRoles
