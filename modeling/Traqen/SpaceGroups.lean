-- Business and compliance roles: when the two groups never meet in one person. `grant` looks at
-- every grant of the account, but `decide` and `migrate` only at the roles in effect, so that roles
-- that are hidden while an account is disabled or no system admin can come back beside the others.
import Traqen.SpaceEffects

open Js

namespace Traqen.SpaceRoles

open OrderedMap (get? mem_set get?_of_set get?_mem)

/-! ## The condition -/

/-- The owner's role comes to what the account keeps. -/
def clearOwner (policy : Policy) (s : State) (workspaceId accountId : String) : Bool :=
  !clash policy (storedRoles (dropOwner s workspaceId) accountId workspaceId ++ ["OWNER"])

def clearGrant (digest : String → String) (policy : Policy) (s : State) (now : Int)
    (raw workspaceId accountId : String) (roles : List String) (asked : Source) : Bool :=
  match sessionIn digest s raw now false false with
  | .error _ => true
  | .ok actor =>
    match spaceAccess s actor workspaceId "MANAGE" with
    | .error _ => true
    | .ok access =>
      !clash policy (storedRoles (withdrawRoles s workspaceId accountId
        (grantSource actor access accountId asked)) accountId workspaceId ++ roles)

def clearDecision (policy : Policy) (s : State) (id : String) (input : Decision) : Bool :=
  match get? s.applications id with
  | none => true
  | some a =>
    a.kind ≠ .JOIN || a.status ≠ .PENDING || input.approve ≠ some true ||
      !clash policy (storedRoles s a.accountId a.target ++ input.roles.getD a.requestedRoles)

/-- The grants but the one that the row writes over. -/
def besides (s : State) (row : GrantRow) : State :=
  setMigrated s { row with roles := [] } ""

def clearRows (digest : String → String) (policy : Policy) (by_ : String) :
    List GrantRow → State → Bool
  | [], _ => true
  | row :: rows, s =>
    !clash policy (storedRoles (besides s row) row.accountId row.workspaceId ++ row.roles) &&
      match migrateGrant digest policy by_ row s with
      | .error _ => true
      | .ok t => clearRows digest policy by_ rows t

def clearMigration (digest : String → String) (policy : Policy) (s : State) (input : MigrateInput) :
    Bool :=
  match eachRow migrateBinding input.bindings s >>=
      eachRow (migrateOwner digest input.requestedBy) input.owners with
  | .error _ => true
  | .ok t => clearRows digest policy input.requestedBy input.grants t

/-- The roles that the operation gives do not clash with what the account keeps in the workspace,
in effect or not. -/
def clear (digest : String → String) (policy : Policy) (s : State) (act : Act) : Bool :=
  match act with
  | .decide _ _ id input _ => clearDecision policy s id input
  | .grant now raw workspaceId accountId roles asked =>
    clearGrant digest policy s now raw workspaceId accountId roles asked
  | .intervene now raw workspaceId roles =>
    (caller digest s act).all fun id => clearGrant digest policy s now raw workspaceId id roles .ADMIN
  | .transfer _ _ workspaceId _ confirm =>
    !confirm || (caller digest s act).all fun id => clearOwner policy s workspaceId id
  | .designateOwner _ _ workspaceId targetId => clearOwner policy s workspaceId targetId
  | .migrate input => clearMigration digest policy s input
  | .elsewhere _ | .apply .. | .updateAccount .. => true

/-! ## Stored roles -/

variable {a by_ r w : String}

variable {s : State}

theorem mem_storedRoles : r ∈ storedRoles s a w ↔
    ∃ e ∈ s.grants, e.1.accountId = a ∧ e.1.workspaceId = w ∧ r ∈ e.2.roles := by
  unfold storedRoles GrantKey.isOf
  simp only [List.mem_flatMap, List.mem_filter, Bool.and_eq_true, decide_eq_true_eq]
  constructor
  · rintro ⟨e, ⟨he, ha, hw⟩, hr⟩
    exact ⟨e, he, ha, hw, hr⟩
  · rintro ⟨e, he, ha, hw, hr⟩
    exact ⟨e, ⟨he, ha, hw⟩, hr⟩

theorem mem_rolesIn : r ∈ rolesIn s a w ↔
    ∃ account, s.account? a = some account ∧ account.status = .ACTIVE ∧
      ∃ e ∈ s.grants, e.1.accountId = a ∧ e.1.workspaceId = w ∧
        (e.2.source = .ADMIN → account.admin = true) ∧ r ∈ e.2.roles := by
  unfold rolesIn
  cases haccount : s.account? a with
  | none => simp
  | some account =>
    dsimp only
    by_cases hactive : account.status = .ACTIVE
    · rw [if_pos hactive]
      unfold GrantKey.isOf
      simp only [List.mem_eraseDups, List.mem_flatMap, List.mem_filter, Bool.and_eq_true,
        Bool.or_eq_true, decide_eq_true_eq]
      constructor
      · rintro ⟨e, ⟨he, ⟨ha, hw⟩, hsource⟩, hr⟩
        exact ⟨account, rfl, hactive, e, he, ha, hw, fun h => hsource.resolve_left (absurd h), hr⟩
      · rintro ⟨_, heq, -, e, he, ha, hw, hsource, hr⟩
        cases heq
        refine ⟨e, ⟨he, ⟨ha, hw⟩, ?_⟩, hr⟩
        by_cases hadmin : e.2.source = .ADMIN
        · exact Or.inr (hsource hadmin)
        · exact Or.inl hadmin
    · rw [if_neg hactive]
      simp [hactive]

theorem storedRoles_of_rolesIn (h : r ∈ rolesIn s a w) : r ∈ storedRoles s a w := by
  obtain ⟨-, -, -, e, he, ha, hw, -, hr⟩ := mem_rolesIn.mp h
  exact mem_storedRoles.mpr ⟨e, he, ha, hw, hr⟩

/-- Grants that are changed one by one store no role that is new. -/
theorem storedRoles_of_map {t : State} {f : GrantKey × Grant → Grant}
    (hgrants : t.grants = s.grants.map fun e => (e.1, f e))
    (hf : ∀ e, ∀ r ∈ (f e).roles, r ∈ e.2.roles) (h : r ∈ storedRoles t a w) :
    r ∈ storedRoles s a w := by
  rw [mem_storedRoles, hgrants] at h
  obtain ⟨e, he, ha, hw, hr⟩ := h
  obtain ⟨x, hx, rfl⟩ := List.mem_map.mp he
  exact mem_storedRoles.mpr ⟨x, hx, ha, hw, hf x r hr⟩

theorem Grant.retained_roles (g : Grant) : g.retained.roles = g.roles.filter fun r => r = "OWNER" := by
  unfold Grant.retained
  by_cases hlength : (g.roles.filter fun r => r = "OWNER").length ≠ g.roles.length
  · rw [if_pos hlength]
  · rw [if_neg hlength, List.filter_eq_self.mpr]
    exact List.length_filter_eq_length_iff.mp (not_not.mp hlength)

/-- A withdrawn grant has no role that is new, and its source. -/
theorem withdrawn_grant (w a : String) (source : Source) (e : GrantKey × Grant) :
    (∀ r ∈ (if withdraws w a source e then e.2.retained else e.2).roles, r ∈ e.2.roles) ∧
      (if withdraws w a source e then e.2.retained else e.2).source = e.2.source := by
  by_cases hof : withdraws w a source e = true
  · rw [if_pos hof]
    refine ⟨fun r hr => ?_, ?_⟩
    · rw [Grant.retained_roles] at hr
      exact (List.mem_filter.mp hr).1
    · unfold Grant.retained
      dsimp only
      by_cases hlength : (e.2.roles.filter fun r => r = "OWNER").length ≠ e.2.roles.length
      · rw [if_pos hlength]
      · rw [if_neg hlength]
  · rw [if_neg hof]
    exact ⟨fun r hr => hr, rfl⟩

theorem ownerless_grant (w : String) (e : GrantKey × Grant) :
    (∀ r ∈ (if e.1.workspaceId = w then e.2.ownerless else e.2).roles, r ∈ e.2.roles) ∧
      (if e.1.workspaceId = w then e.2.ownerless else e.2).source = e.2.source := by
  by_cases hw : e.1.workspaceId = w
  · rw [if_pos hw]
    exact ⟨fun r hr => (List.mem_filter.mp hr).1, rfl⟩
  · rw [if_neg hw]
    exact ⟨fun r hr => hr, rfl⟩

theorem withdrawRoles_stored {a' w' : String} {source : Source}
    (h : r ∈ storedRoles (withdrawRoles s w a source) a' w') : r ∈ storedRoles s a' w' :=
  storedRoles_of_map rfl (fun e => (withdrawn_grant w a source e).1) h

theorem dropOwner_stored {a' w' : String}
    (h : r ∈ storedRoles (dropOwner s w) a' w') : r ∈ storedRoles s a' w' :=
  storedRoles_of_map rfl (fun e => (ownerless_grant w e).1) h

/-! ## The invariant -/

/-- No business role is stored beside a compliance role, and every grant is in a space. -/
structure Apart (policy : Policy) (s : State) : Prop where
  stored : ∀ a w, clash policy (storedRoles s a w) = false
  spaces : ∀ e ∈ s.grants, s.space? e.1.workspaceId ≠ none

variable {digest : String → String} {policy : Policy} {s t : State}

theorem apart_initial (policy : Policy) : Apart policy initial :=
  ⟨fun _ _ => rfl, fun e he => absurd he (by simp [initial])⟩

theorem apart_of_same (hgrants : t.grants = s.grants)
    (hspaces : ∀ w, s.space? w ≠ none → t.space? w ≠ none) (h : Apart policy s) :
    Apart policy t := by
  refine ⟨fun a w => ?_, ?_⟩
  · unfold storedRoles
    rw [hgrants]
    exact h.stored a w
  · rw [hgrants]
    exact fun e he => hspaces _ (h.spaces e he)

/-- A grant that is written beside what stays of the others, where its roles do not clash with what
the account keeps. -/
theorem stored_of_set {u : State} {k : GrantKey} {g : Grant}
    (hset : ∀ e ∈ t.grants, e = (k, g) ∨ e ∈ u.grants)
    (hu : ∀ a w, clash policy (storedRoles u a w) = false)
    (hk : clash policy (storedRoles u k.accountId k.workspaceId ++ g.roles) = false) (a w : String) :
    clash policy (storedRoles t a w) = false := by
  by_cases hof : k.accountId = a ∧ k.workspaceId = w
  · obtain ⟨rfl, rfl⟩ := hof
    refine clash_mono (fun r hr => ?_) hk
    obtain ⟨e, he, ha, hw, hr⟩ := mem_storedRoles.mp hr
    rcases hset e he with rfl | he
    · exact List.mem_append_right _ hr
    · exact List.mem_append_left _ (mem_storedRoles.mpr ⟨e, he, ha, hw, hr⟩)
  · refine clash_mono (fun r hr => ?_) (hu a w)
    obtain ⟨e, he, ha, hw, hr⟩ := mem_storedRoles.mp hr
    rcases hset e he with rfl | he
    · exact absurd ⟨ha, hw⟩ hof
    · exact mem_storedRoles.mpr ⟨e, he, ha, hw, hr⟩

/-- The same of an update of the grants. -/
theorem apart_set {u : State} {k : GrantKey} {g : Grant} (h : Apart policy s)
    (hset : t.grants = OrderedMap.set u.grants k g)
    (hu : ∀ a w r, r ∈ storedRoles u a w → r ∈ storedRoles s a w)
    (hk : clash policy (storedRoles u k.accountId k.workspaceId ++ g.roles) = false)
    (hkeys : ∀ e ∈ u.grants, ∃ x ∈ s.grants, x.1 = e.1)
    (hspaces : ∀ w, s.space? w ≠ none → t.space? w ≠ none)
    (hspace : t.space? k.workspaceId ≠ none) : Apart policy t := by
  refine ⟨stored_of_set ?_ (fun a w => clash_mono (hu a w) (h.stored a w)) hk, ?_⟩
  · rw [hset]
    exact fun e he => mem_set he
  · rw [hset]
    intro e he
    rcases mem_set he with rfl | he
    · exact hspace
    · obtain ⟨x, hx, hkey⟩ := hkeys e he
      exact hkey ▸ hspaces _ (h.spaces x hx)

theorem keys_of_map {f : GrantKey × Grant → Grant} {gs : List (GrantKey × Grant)} :
    ∀ e ∈ gs.map (fun e => (e.1, f e)), ∃ x ∈ gs, x.1 = e.1 := by
  intro e he
  obtain ⟨x, hx, rfl⟩ := List.mem_map.mp he
  exact ⟨x, hx, rfl⟩

theorem space_congr (h : t.spaces = s.spaces) (w : String) : t.space? w = s.space? w :=
  congrArg (get? · w) h

theorem space_elsewhere {v : String} {space : Space}
    (h : t.spaces = OrderedMap.set s.spaces w space) (hv : v ≠ w) : t.space? v = s.space? v := by
  unfold State.space?
  rw [h, get?_of_set, if_neg hv]

/-- A space that is written is there, and the others stay. -/
theorem space_of_set {space : Space}
    (hspaces : t.spaces = OrderedMap.set s.spaces w space) :
    t.space? w ≠ none ∧ ∀ v, s.space? v ≠ none → t.space? v ≠ none := by
  unfold State.space?
  rw [hspaces]
  refine ⟨?_, fun v hv => ?_⟩
  · rw [get?_of_set, if_pos rfl]
    exact Option.some_ne_none space
  · rw [get?_of_set]
    by_cases hvw : v = w
    · rw [if_pos hvw]
      exact Option.some_ne_none space
    · rw [if_neg hvw]
      exact hv

theorem storedRoles_new (h : Apart policy s) (hnew : s.space? w = none) (a : String) :
    storedRoles s a w = [] := by
  rw [List.eq_nil_iff_forall_not_mem]
  intro r hr
  obtain ⟨e, he, -, hw, -⟩ := mem_storedRoles.mp hr
  exact h.spaces e he (hw ▸ hnew)

/-- One role is of one group. -/
theorem clash_owner (hdisjoint : ∀ r ∈ policy.businessRoles, r ∉ policy.complianceRoles) :
    clash policy ["OWNER"] = false := by
  rw [Bool.eq_false_iff]
  intro h
  obtain ⟨⟨b, hb, hbusiness⟩, c, hc, hcompliance⟩ := clash_eq_true.mp h
  rw [List.mem_singleton] at hb hc
  exact hdisjoint b hbusiness (hb ▸ hc ▸ hcompliance)

theorem mem_eraseDups_append {xs ys : List String} :
    r ∈ (xs ++ ys).eraseDups ↔ r ∈ xs ∨ r ∈ ys := by
  rw [List.mem_eraseDups, List.mem_append]

/-- A role that a grant had before is one of a grant that is there. -/
theorem mem_oldRoles {k : GrantKey} (h : r ∈ (get? s.grants k).elim [] (·.roles)) :
    ∃ g, (k, g) ∈ s.grants ∧ r ∈ g.roles := by
  cases hfound : get? s.grants k with
  | none =>
    rw [hfound] at h
    exact absurd h List.not_mem_nil
  | some g =>
    rw [hfound] at h
    exact ⟨g, get?_mem hfound, h⟩

/-- The grants of an update that adds roles. -/
theorem apart_addRoles {source : Source} {granted : List String}
    (h : Apart policy s) (hgrants : t.grants = (addRoles s w a source granted by_).grants)
    (hk : clash policy (storedRoles s a w ++ granted) = false)
    (hspaces : ∀ v, s.space? v ≠ none → t.space? v ≠ none) (hspace : t.space? w ≠ none) :
    Apart policy t := by
  refine apart_set h hgrants (fun _ _ _ hr => hr) (clash_mono ?_ hk) (fun e he => ⟨e, he, rfl⟩)
    hspaces hspace
  intro r hr
  rcases List.mem_append.mp hr with hr | hr
  · exact List.mem_append_left _ hr
  · rcases mem_eraseDups_append.mp hr with hold | hr
    · apply List.mem_append_left
      obtain ⟨g, hg, hold⟩ := mem_oldRoles hold
      exact mem_storedRoles.mpr ⟨_, hg, rfl, rfl, hold⟩
    · exact List.mem_append_right _ hr

/-! ## Runs -/

theorem apart_sameRoles (hsame : SameRoles s t) (h : Apart policy s) : Apart policy t := by
  refine apart_of_same hsame.grants (fun w hw => ?_) h
  rw [space_congr hsame.spaces]
  exact hw

theorem apart_ownerGiven (hdisjoint : ∀ r ∈ policy.businessRoles, r ∉ policy.complianceRoles)
    {row : OwnerRow} (hgiven : OwnerGiven s row by_ t) (h : Apart policy s) :
    Apart policy t := by
  obtain ⟨space, -, hspaces⟩ := hgiven.spaces
  obtain ⟨hthere, hstay⟩ := space_of_set hspaces
  refine apart_set h hgiven.grants (fun _ _ _ hr => hr) ?_ (fun e he => ⟨e, he, rfl⟩) hstay hthere
  rw [storedRoles_new h hgiven.new, List.nil_append]
  exact clash_owner hdisjoint

theorem apart_rolesGiven {row : GrantRow} (hgiven : RolesGiven policy s row by_ t)
    (hclear : clash policy (storedRoles (besides s row) row.accountId row.workspaceId ++
      row.roles) = false) (h : Apart policy s) : Apart policy t := by
  have hspaces : ∀ w, s.space? w ≠ none → t.space? w ≠ none := by
    intro w hw
    rw [space_congr hgiven.spaces]
    exact hw
  have hkept : ∀ e ∈ (besides s row).grants, e ∈ s.grants ∨ e.2.roles = [] := by
    intro e he
    rcases mem_set he with rfl | he
    · exact Or.inr rfl
    · exact Or.inl he
  let key : GrantKey :=
    { workspaceId := row.workspaceId, accountId := row.accountId, source := .of .MIGRATION }
  let grant : Grant :=
    { roles := row.roles, source := .MIGRATION, grantedBy := by_, version := 1 }
  have hset : t.grants = OrderedMap.set s.grants key grant := hgiven.grants
  refine ⟨stored_of_set (u := besides s row) (k := key) (g := grant) ?_
    (fun a w => clash_mono (fun r hr => ?_) (h.stored a w)) hclear, ?_⟩
  · rw [hset]
    intro e he
    rcases OrderedMap.mem_set_iff.mp he with rfl | ⟨he, hkey⟩
    · exact Or.inl rfl
    · exact Or.inr (OrderedMap.mem_set_iff.mpr (Or.inr ⟨he, hkey⟩))
  · obtain ⟨e, he, ha, hw, hr⟩ := mem_storedRoles.mp hr
    rcases hkept e he with he | hnone
    · exact mem_storedRoles.mpr ⟨e, he, ha, hw, hr⟩
    · rw [hnone] at hr
      exact absurd hr List.not_mem_nil
  · rw [hset]
    intro e he
    rcases mem_set he with rfl | he
    · exact hspaces _ hgiven.there
    · exact hspaces _ (h.spaces e he)

theorem apart_rows {rows : List GrantRow}
    (hrows : eachRow (migrateGrant digest policy by_) rows s = .ok t)
    (hclear : clearRows digest policy by_ rows s = true) (h : Apart policy s) : Apart policy t := by
  induction rows generalizing s with
  | nil =>
    cases hrows
    exact h
  | cons row rows ih =>
    obtain ⟨u, hu, hrows⟩ := bind_ok hrows
    unfold clearRows at hclear
    rw [hu, Bool.and_eq_true, Bool.not_eq_true'] at hclear
    exact ih hrows hclear.2 (apart_rolesGiven (migrateGrant_ok hu) hclear.1 h)

theorem apart_migrate (hdisjoint : ∀ r ∈ policy.businessRoles, r ∉ policy.complianceRoles)
    {input : MigrateInput} (hmigrate : migrate digest policy input s = .ok t)
    (hclear : clearMigration digest policy s input = true) (h : Apart policy s) :
    Apart policy t := by
  obtain ⟨bound, owned, granted, hbound, howned, hgranted, hend⟩ := migrate_rows hmigrate
  have h1 := eachRow_keeps (fun row s t hrow (hs : Apart policy s) =>
    apart_sameRoles (migrateBinding_ok hrow) hs) hbound h
  have h2 := eachRow_keeps (fun row s t hrow => apart_ownerGiven hdisjoint (migrateOwner_ok hrow))
    howned h1
  have hrows : clearRows digest policy input.requestedBy input.grants owned = true := by
    unfold clearMigration at hclear
    rw [hbound] at hclear
    have hbind : (Except.ok bound >>= eachRow (migrateOwner digest input.requestedBy) input.owners) =
        .ok owned := howned
    rw [hbind] at hclear
    exact hclear
  exact apart_sameRoles hend (apart_rows hgranted hrows h2)

/-- An operation whose roles do not clash with what the account keeps leaves the groups apart. -/
theorem apart_step (hdisjoint : ∀ r ∈ policy.businessRoles, r ∉ policy.complianceRoles) {act : Act}
    (hstep : step digest policy s act = some t) (hclear : clear digest policy s act = true)
    (h : Apart policy s) : Apart policy t := by
  cases step_changed hstep with
  | same accounts grants owners =>
    refine apart_of_same grants (fun w hw hnone => hw ?_) h
    have howner := owners w
    rw [hnone] at howner
    exact Option.map_eq_none_iff.mp howner.symm
  | accounts grants spaces admin =>
    refine apart_of_same grants (fun w hw => ?_) h
    unfold State.space?
    rw [spaces]
    exact hw
  | created signed admin new accounts owner grants spaces =>
    obtain ⟨hthere, hstay⟩ := space_of_set spaces
    refine apart_addRoles h grants ?_ hstay hthere
    rw [storedRoles_new h new, List.nil_append]
    exact clash_owner hdisjoint
  | @joined now raw id workspaceId input _ actor a source granted signed found kind pending approve
      active joined accounts grants spaces =>
    obtain ⟨access, hentered, -⟩ := joined.access
    have hspace : ∀ w, t.space? w = s.space? w := fun w => by
      unfold State.space?
      rw [spaces]
    have hclear : clearDecision policy s id input = true := hclear
    unfold clearDecision at hclear
    rw [found] at hclear
    simp only [kind, pending, approve, ne_eq, not_true_eq_false, decide_false, Bool.false_or,
      Bool.not_eq_true'] at hclear
    refine apart_addRoles h grants (clash_mono (fun r hr => ?_) hclear) (fun w hw => ?_) ?_
    · obtain ⟨-, -, hset⟩ := roleSet_ok joined.granted
      rw [hset, List.mem_append, List.mem_eraseDups] at hr
      exact List.mem_append.mpr hr
    · rw [hspace]
      exact hw
    · rw [hspace, hentered.space]
      exact Option.some_ne_none _
  | @granted _ now raw workspaceId accountId roles asked _ actor access granted call signed entered
      source active set managers accounts grants spaces =>
    have hentered := spaceAccess_ok entered
    have hspace : ∀ w, t.space? w = s.space? w := fun w => by
      unfold State.space?
      rw [spaces]
    have hgrant : clearGrant digest policy s now raw workspaceId accountId roles asked = true := by
      rcases call with rfl | ⟨rfl, rfl, hid⟩
      · exact hclear
      · have hclear : (caller digest s (.intervene now raw workspaceId roles)).all (fun id =>
            clearGrant digest policy s now raw workspaceId id roles .ADMIN) = true := hclear
        rw [caller_eq (sessionIn_ok signed).1 rfl, Option.all_some] at hclear
        rw [hid]
        exact hclear
    unfold clearGrant at hgrant
    simp only [signed, entered, Bool.not_eq_true'] at hgrant
    obtain ⟨-, -, hset⟩ := roleSet_ok set
    refine apart_set h grants (fun a w r hr => withdrawRoles_stored hr) (clash_mono ?_ hgrant)
      keys_of_map (fun w hw => ?_) ?_
    · intro r hr
      rw [hset] at hr
      simpa only [List.mem_append, List.mem_eraseDups] using hr
    · rw [hspace]
      exact hw
    · rw [hspace, hentered.space]
      exact Option.some_ne_none _
  | @owned _ now raw workspaceId targetId _ actor space space' version call signed found owner accounts
      grants spaces =>
    obtain ⟨hthere, hstay⟩ := space_of_set spaces
    have hgift : clearOwner policy s workspaceId targetId = true := by
      rcases call with ⟨rfl, -⟩ | ⟨⟨other, rfl⟩, rfl, -⟩
      · exact hclear
      · have hclear : (!true || (caller digest s (.transfer now raw workspaceId other true)).all
            fun id => clearOwner policy s workspaceId id) = true := hclear
        rw [caller_eq signed rfl] at hclear
        simpa using hclear
    unfold clearOwner at hgift
    rw [Bool.not_eq_true'] at hgift
    exact apart_set h grants (fun a w r hr => dropOwner_stored hr) hgift keys_of_map hstay hthere
  | migrated done => exact apart_migrate hdisjoint done hclear h

/-- Business and compliance roles never meet in one person: not in a run whose operations give no
role that clashes with what the account keeps stored in the workspace. -/
theorem groups_never_meet (digest : String → String) (policy : Policy)
    (hdisjoint : ∀ r ∈ policy.businessRoles, r ∉ policy.complianceRoles) {acts : List Act} {s : State}
    (hrun : Machine.run (step digest policy) initial acts = some s)
    (hclear : Machine.Along (step digest policy) (fun s act => clear digest policy s act = true)
      initial acts) (accountId workspaceId : String) :
    clash policy (rolesIn s accountId workspaceId) = false := by
  have hkeeps : ∀ s act t, Apart policy s → clear digest policy s act = true →
      step digest policy s act = some t → Apart policy t :=
    fun s act t h hclear hstep => apart_step hdisjoint hstep hclear h
  have hapart := Machine.run_keeps_along hkeeps hrun hclear (apart_initial policy)
  exact clash_mono (fun r hr => storedRoles_of_rolesIn hr) (hapart.stored accountId workspaceId)

/-! ## A role that hides -/

def defaultPolicy : Policy :=
  { businessRoles := ["business-owner"], complianceRoles := ["compliance-owner"]
    reviewRoles := ["business-owner", "compliance-owner", "incident-commander", "risk-owner",
      "developer"] }

def systemAdmin : Account :=
  { kind := .HUMAN, status := .ACTIVE, admin := true, globalConfig := false, recoveryAdmin := false
    displayName := "", password := true }

def sessionOf (accountId : String) : Session :=
  { accountId, phase := "AUTHENTICATED", lastActivity := 0, verifiedAt := 0, expiresAt := 43200000
    idleMs := 7200000, epoch := 0, revoked := false }

/-- Two system admins, and a space of the first; the second takes a business role there. -/
def intervention : List Act :=
  [.elsewhere (.control { initialized := true, recovery := false, epoch := 0 }),
   .elsewhere (.account "ann" systemAdmin), .elsewhere (.session "a" (sessionOf "ann")),
   .elsewhere (.account "max" systemAdmin), .elsewhere (.session "m" (sessionOf "max")),
   .apply 0 "a" { kind := "CREATE", workspaceId := "", name := some "shop", reason := some "sales"
                  roles := [], operationId := some "1", entry := none } "A1",
   .decide 0 "a" "A1" { approve := some true, roles := none, reason := "", version := 1 } "W",
   .intervene 0 "m" "W" ["business-owner"]]

/-- The second asks for a compliance role and gets it while it is no system admin. -/
def hiddenRole : List Act :=
  [.apply 0 "m" { kind := "JOIN", workspaceId := "W", name := none, reason := some "audit"
                  roles := ["compliance-owner"], operationId := some "2", entry := none } "A2",
   .updateAccount 0 "a" "max" [("admin", .bool false)],
   .decide 0 "a" "A2" { approve := some true, roles := none, reason := "", version := 1 } "V",
   .updateAccount 0 "a" "max" [("admin", .bool true)]]

/-- With two admins and the one role, the groups stay apart. -/
theorem intervention_stays_apart :
    clash defaultPolicy (rolesIn ((Machine.run (step (fun text => text) defaultPolicy) initial
      intervention).get (by decide +kernel)) "max" "W") = false :=
  groups_never_meet _ _ (by decide) (Option.some_get _).symm (by decide +kernel) _ _

/-- The role that was hidden when the other was approved comes back beside it. -/
theorem hidden_role_comes_back :
    ¬ ∀ policy : Policy, (∀ r ∈ policy.businessRoles, r ∉ policy.complianceRoles) →
      ∀ acts s, Machine.run (step (fun text => text) policy) initial acts = some s →
        ∀ accountId workspaceId, clash policy (rolesIn s accountId workspaceId) = false := by
  intro hclaim
  have hmeet : (Machine.run (step (fun text => text) defaultPolicy) initial
      (intervention ++ hiddenRole)).any (fun s => clash defaultPolicy (rolesIn s "max" "W")) = true := by
    decide +kernel
  obtain ⟨s, hrun, hclash⟩ := (Option.any_eq_true _ _).mp hmeet
  rw [hclaim defaultPolicy (by decide) _ s hrun "max" "W"] at hclash
  cases hclash

end Traqen.SpaceRoles
